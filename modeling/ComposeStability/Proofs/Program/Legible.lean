/-
# Proofs.Program.Legible -- how types that can be written are spelled

A type that can be written in a program is legible: its names are identifiers,
its package paths are paths, unions stand in interfaces only, and so on, for each
of the types it is written with (`Ty.Legible`).  Its key is spelled out below by
its constructor (`spell_…`).  The first word of the spelling, and the characters
behind it, tell the constructor, except among the types that are a single word
(`headOf_spell`); these are told apart by the word (`word_cases`).
-/
import ComposeStability.Proofs.Program.WellNamed
import ComposeStability.Proofs.Text.Literal

namespace ComposeStability.Program

set_option autoImplicit false

/-! ## Words -/

/-- A character that names and paths are made of. -/
def wordChar (c : Char) : Bool := !Text.isBlank c && !notInPaths.contains c

/-- No word goes on here. -/
def Cut (cs : List Char) : Prop := ∀ c ∈ cs.head?, wordChar c = false

theorem wordChar_of_nameChar {c : Char} (name : Text.isNameChar c = true) : wordChar c = true := by
  have others : notInPaths.all (!Text.isNameChar ·) = true := by decide +kernel
  have allowed : c ∉ notInPaths := fun member => by
    simpa [name] using List.all_eq_true.1 others c member
  simp [wordChar, Text.nameChar_visible name, allowed]

theorem takeWhile_word {word rest : List Char} (chars : ∀ c ∈ word, wordChar c = true)
    (cut : Cut rest) : (word ++ rest).takeWhile wordChar = word := by
  rw [List.takeWhile_append_of_pos chars]
  cases rest with
  | nil => simp
  | cons c rest => simp [cut c rfl]

theorem dropWhile_word {word rest : List Char} (chars : ∀ c ∈ word, wordChar c = true)
    (cut : Cut rest) : (word ++ rest).dropWhile wordChar = rest := by
  rw [List.dropWhile_append_of_pos chars]
  cases rest with
  | nil => simp
  | cons c rest => simp [cut c rfl]

/-- Words end where no word goes on. -/
theorem word_append_inj {word word' rest rest' : List Char}
    (chars : ∀ c ∈ word, wordChar c = true) (chars' : ∀ c ∈ word', wordChar c = true)
    (cut : Cut rest) (cut' : Cut rest') (same : word ++ rest = word' ++ rest') :
    word = word' ∧ rest = rest' := by
  constructor
  · rw [← takeWhile_word chars cut, same, takeWhile_word chars' cut']
  · rw [← dropWhile_word chars cut, same, dropWhile_word chars' cut']

/-- What stands before the first occurrence of a character, and what stands behind it. -/
theorem append_cons_inj {c : Char} {before before' rest rest' : List Char} (absent : c ∉ before)
    (absent' : c ∉ before') (same : before ++ c :: rest = before' ++ c :: rest') :
    before = before' ∧ rest = rest' := by
  have parts := Text.cut_append absent [] rest
  rw [List.singleton_append] at parts
  rw [same] at parts
  simpa [eq_comm] using parts.symm.trans (Text.cut_append absent' [] rest')

/-! ## Legible types -/

/-- The names of the predeclared types of numbers, text and truth values. -/
def basicNames : List String :=
  ["bool", "byte", "complex128", "complex64", "float32", "float64", "int", "int16", "int32",
   "int64", "int8", "rune", "string", "uint", "uint16", "uint32", "uint64", "uint8", "uintptr"]

/-- No predeclared type is a collection that can change in place. -/
theorem basic_not_mutable {name : String} (basic : name ∈ basicNames) :
    name ∉ TypeGraph.mutableCollections := by
  have none : ∀ name ∈ basicNames, name ∉ TypeGraph.mutableCollections := by
    decide +kernel
  exact none name basic

/-- The names that the language declares for types. -/
def predeclaredNames : List String := "any" :: "comparable" :: "error" :: basicNames

/-- A path that packages of modules can have. -/
structure ModulePath (path : String) : Prop where
  importable : isImportPath path = true
  no_dot : path.toList.head? ≠ some '.'
  no_tilde : path.toList.head? ≠ some '~'

namespace Ty

def isUnion : Ty → Bool
  | .union _ => true
  | _ => false

theorem eq_union {t : Ty} (isUnion : t.isUnion = true) : ∃ terms, t = .union terms := by
  cases t <;> simp [Ty.isUnion] at isUnion ⊢

/-- The name of a field that embeds a type. -/
def embeddedName : Ty → Option String
  | .named _ name _ | .pointer (.named _ name _) => some name
  | .basic name | .pointer (.basic name) => some name
  | .any => some "any"
  | _ => none

/-- The types that a type is written with. -/
def children : Ty → List Ty
  | .named _ _ args => args
  | .pointer elem | .slice elem | .array _ elem | .chan _ elem => [elem]
  | .map key value => [key, value]
  | .func signature => (signature.params ++ signature.results).map (·.type)
  | .struct fields => fields.map (·.type)
  | .interface methods embeds =>
      (methods.flatMap fun m => (m.signature.params ++ m.signature.results).map (·.type)) ++ embeds
  | .union terms => terms.map (·.type)
  | _ => []

end Ty

/-- Variables may have names; the last parameter of a variadic list is a slice. -/
structure Signature.Clear (s : Signature Ty) : Prop where
  named : ∀ v ∈ s.params ++ s.results, v.name = "" ∨ Text.isIdentifier v.name = true
  single : ∀ v ∈ s.params ++ s.results, v.type.isUnion = false
  variadic : s.variadic = true → ∃ front name elem, s.params = front ++ [⟨name, .slice elem⟩]

/-- A field has a name; an embedded one has the name of its type. -/
structure Field.Clear (f : Field Ty) : Prop where
  named : Text.isIdentifier f.name = true
  single : f.type.isUnion = false
  embedded : f.embedded = true → f.type.embeddedName = some f.name

/-- What the language asks of a type, apart from the types it is written with.  A type parameter may
have any name, also one that the language declares. -/
def Ty.Clear : Ty → Prop
  | .invalid | .unsafePointer | .any => True
  | .comparability => False
  | .basic name => name ∈ basicNames
  | .typeParam name => Text.isIdentifier name = true
  | .named path name args =>
      if path = "" then (name = "comparable" ∨ name = "error") ∧ args = []
      else ModulePath path ∧ Text.isIdentifier name = true ∧
        ¬ (path = "unsafe" ∧ name = "Pointer") ∧ ∀ arg ∈ args, arg.isUnion = false
  | .pointer elem | .slice elem | .array _ elem | .chan _ elem => elem.isUnion = false
  | .map key value => key.isUnion = false ∧ value.isUnion = false
  | .func signature => signature.Clear
  | .struct fields => ∀ f ∈ fields, f.Clear
  | .interface methods _ => ∀ m ∈ methods, Text.isIdentifier m.name = true ∧ m.signature.Clear
  | .union terms =>
      (∀ term ∈ terms, term.type.isUnion = false) ∧
        (2 ≤ terms.length ∨ ∃ t, terms = [⟨true, t⟩])

/-- A type that can be written. -/
inductive Ty.Legible : Ty → Prop where
  | of {t : Ty} (clear : t.Clear) (below : ∀ c ∈ t.children, c.Legible) :
      Ty.Legible t

theorem Ty.Legible.clear {t : Ty} (legible : t.Legible) :
    t.Clear := by
  cases legible with
  | of clear below => exact clear

theorem Ty.Legible.child {t c : Ty} (legible : t.Legible)
    (child : c ∈ t.children) : c.Legible := by
  cases legible with
  | of clear below => exact below c child

theorem Ty.Legible.leaf {t : Ty} (clear : t.Clear)
    (alone : t.children = []) : t.Legible :=
  .of clear fun c child => absurd child (by simp [alone])

/-! ## Spelling -/

namespace Packages

variable (ps : Packages)

/-- The characters of the key of a type. -/
def spell (t : Ty) : List Char := (ps.key t).toList

/-- A variable as it is listed: its name, whether dots stand before its type, and the type. -/
abbrev Listed := String × Bool × Ty

def spellListed (v : Listed) : List Char :=
  (if v.1 = "" then [] else v.1.toList ++ [' ']) ++ (if v.2.1 then ['.', '.', '.'] else []) ++
    ps.spell v.2.2

/-- Variables as they are listed; the last of a variadic list by its element type. -/
def listed (variadic : Bool) : List (Variable Ty) → List Listed
  | [] => []
  | [⟨name, .slice elem⟩] =>
      [if variadic then (name, true, elem) else (name, false, .slice elem)]
  | [⟨name, type⟩] => [(name, false, type)]
  | ⟨name, type⟩ :: rest => (name, false, type) :: listed variadic rest

def spellVariables (variadic : Bool) (vars : List (Variable Ty)) : List Char :=
  [',', ' '].intercalate ((listed variadic vars).map ps.spellListed)

def spellResults : List (Variable Ty) → List Char
  | [] => []
  | [⟨"", type⟩] => ' ' :: ps.spell type
  | results => ' ' :: '(' :: (ps.spellVariables false results ++ [')'])

def spellSignature (s : Signature Ty) : List Char :=
  '(' :: (ps.spellVariables s.variadic s.params ++ ')' :: ps.spellResults s.results)

def spellTag (tag : String) : List Char :=
  if tag = "" then [] else ' ' :: (Text.quote tag).toList

def spellField (f : Field Ty) : List Char :=
  (if f.embedded then [] else f.name.toList ++ [' ']) ++ (ps.spell f.type ++ spellTag f.tag)

def spellMethod (m : Method Ty) : List Char := m.name.toList ++ ps.spellSignature m.signature

def spellTerm (term : Term Ty) : List Char :=
  (if term.tilde then ['~'] else []) ++ ps.spell term.type

end Packages

section
variable {ps : Packages}

open Packages Ty

theorem texts_eq_map (n : Naming) (types : List Ty) : texts n types = types.map (text n) := by
  induction types with
  | nil => rfl
  | cons t rest ih => rw [texts, ih, List.map_cons]

theorem spell_invalid : ps.spell .invalid = "invalid type".toList := by
  simp [spell, key, text]

theorem spell_pointer (t : Ty) : ps.spell (.pointer t) = '*' :: ps.spell t := by
  simp [spell, key, text]

theorem spell_slice (t : Ty) : ps.spell (.slice t) = '[' :: ']' :: ps.spell t := by
  simp [spell, key, text]

theorem spell_map (k v : Ty) :
    ps.spell (.map k v) = "map[".toList ++ (ps.spell k ++ ']' :: ps.spell v) := by
  simp [spell, key, text]

theorem spell_array (n : Nat) (t : Ty) :
    ps.spell (.array n t) = '[' :: (n.repr.toList ++ ']' :: ps.spell t) := by
  simp [spell, key, text]

theorem spell_send (t : Ty) : ps.spell (.chan .send t) = "chan<- ".toList ++ ps.spell t := by
  simp [spell, key, text]

theorem spell_receive (t : Ty) : ps.spell (.chan .receive t) = "<-chan ".toList ++ ps.spell t := by
  simp [spell, key, text]

theorem spell_both_receive (t : Ty) :
    ps.spell (.chan .both (.chan .receive t)) =
      "chan (".toList ++ (ps.spell (.chan .receive t) ++ [')']) := by
  simp [spell, key, text]

theorem spell_both {t : Ty} (plain : ∀ u, t ≠ .chan .receive u) :
    ps.spell (.chan .both t) = "chan ".toList ++ ps.spell t := by
  unfold spell key
  rw [text]
  · simp
  · exact plain

theorem spell_named (path name : String) :
    ps.spell (.named path name []) =
      (qualified path name).toList ++ (typeParamsText (ps.typeParams path name)).toList := by
  simp [spell, key, text, byPath]

theorem map_toList_texts (types : List Ty) :
    (texts ps.byPath types).map String.toList = types.map ps.spell := by
  rw [texts_eq_map, List.map_map]
  rfl

theorem spell_instance (path name : String) (arg : Ty) (args : List Ty) :
    ps.spell (.named path name (arg :: args)) = (qualified path name).toList ++
      '[' :: ([',', ' '].intercalate ((arg :: args).map ps.spell) ++ [']']) := by
  rw [← map_toList_texts]
  simp [spell, key, text, texts, byPath]

theorem toList_label (name : String) :
    (label name).toList = if name = "" then [] else name.toList ++ [' '] := by
  rw [label]
  by_cases unnamed : name = "" <;> simp [unnamed]

theorem map_toList_variableTexts {variadic : Bool} {vars : List (Variable Ty)}
    (slice : variadic = true → ∃ front name elem, vars = front ++ [⟨name, .slice elem⟩]) :
    (variableTexts ps.byPath variadic vars).map String.toList =
      (listed variadic vars).map ps.spellListed := by
  induction vars with
  | nil => rfl
  | cons v rest ih =>
      obtain ⟨name, type⟩ := v
      cases rest with
      | nil =>
          cases type with
          | slice elem =>
              cases variadic with
              | true => simp [variableTexts, listed, spellListed, toList_label, spell, key]
              | false => simp [variableTexts, listed, spellListed, toList_label, spell, key, text]
          | _ =>
              cases variadic with
              | true =>
                  obtain ⟨front, last, elem, shape⟩ := slice rfl
                  simpa using congrArg List.getLast? shape
              | false => simp [variableTexts, listed, spellListed, toList_label, spell, key]
      | cons next rest =>
          have later := ih fun isVariadic => by
            obtain ⟨front, last, elem, shape⟩ := slice isVariadic
            cases front with
            | nil => simp at shape
            | cons first front => exact ⟨front, last, elem, (List.cons.inj shape).2⟩
          rw [variableTexts, listed, List.map_cons, List.map_cons, later]
          · simp [spellListed, toList_label, spell, key]
          all_goals simp

theorem toList_variables {variadic : Bool} {vars : List (Variable Ty)}
    (slice : variadic = true → ∃ front name elem, vars = front ++ [⟨name, .slice elem⟩]) :
    (", ".intercalate (variableTexts ps.byPath variadic vars)).toList =
      ps.spellVariables variadic vars := by
  rw [String.toList_intercalate, map_toList_variableTexts slice]
  rfl

theorem toList_signatureText {s : Signature Ty} (clear : s.Clear) :
    (signatureText ps.byPath s).toList = ps.spellSignature s := by
  obtain ⟨params, results, variadic⟩ := s
  have taken : (", ".intercalate (variableTexts ps.byPath variadic params)).toList =
      ps.spellVariables variadic params := toList_variables clear.variadic
  have given : (", ".intercalate (variableTexts ps.byPath false results)).toList =
      ps.spellVariables false results := toList_variables nofun
  cases results with
  | nil => simp [signatureText, spellSignature, spellResults, taken]
  | cons first rest =>
      by_cases alone : ∃ type, first :: rest = [⟨"", type⟩]
      · obtain ⟨type, shape⟩ := alone
        rw [shape]
        simp [signatureText, spellSignature, spellResults, taken, spell, key]
      · simp only [not_exists] at alone
        rw [signatureText_list _ _ (List.cons_ne_nil _ _) alone, spellSignature, spellResults]
        · simp [taken, given]
        · simp
        · exact alone

theorem spell_func {s : Signature Ty} (clear : s.Clear) :
    ps.spell (.func s) = "func".toList ++ ps.spellSignature s := by
  simp [spell, key, text, ← toList_signatureText clear]

theorem map_toList_fieldTexts (fields : List (Field Ty)) :
    (fieldTexts ps.byPath fields).map String.toList = fields.map ps.spellField := by
  induction fields with
  | nil => rfl
  | cons f rest ih =>
      obtain ⟨name, type, tag, embedded⟩ := f
      rw [fieldTexts, List.map_cons, List.map_cons, ih]
      cases embedded <;> by_cases untagged : tag = "" <;>
        simp [spellField, spellTag, spell, key, untagged]

theorem spell_struct (fields : List (Field Ty)) :
    ps.spell (.struct fields) =
      "struct\x7b".toList ++ ([';', ' '].intercalate (fields.map ps.spellField) ++ ['\x7d']) := by
  rw [← map_toList_fieldTexts]
  simp [spell, key, text]

theorem map_toList_methodTexts {methods : List (Method Ty)}
    (clear : ∀ m ∈ methods, m.signature.Clear) :
    (methodTexts ps.byPath methods).map String.toList = methods.map ps.spellMethod := by
  induction methods with
  | nil => rfl
  | cons m rest ih =>
      obtain ⟨name, signature⟩ := m
      rw [List.forall_mem_cons] at clear
      rw [methodTexts, List.map_cons, List.map_cons, ih clear.2]
      simp [spellMethod, toList_signatureText clear.1]

theorem spell_interface {methods : List (Method Ty)} (clear : ∀ m ∈ methods, m.signature.Clear)
    (embeds : List Ty) :
    ps.spell (.interface methods embeds) = "interface\x7b".toList ++
      ([';', ' '].intercalate (methods.map ps.spellMethod ++ embeds.map ps.spell) ++
        ['\x7d']) := by
  rw [← map_toList_methodTexts clear, ← map_toList_texts]
  simp [spell, key, text]

theorem map_toList_termTexts (terms : List (Term Ty)) :
    (termTexts ps.byPath terms).map String.toList = terms.map ps.spellTerm := by
  induction terms with
  | nil => rfl
  | cons term rest ih =>
      obtain ⟨tilde, type⟩ := term
      rw [termTexts, List.map_cons, List.map_cons, ih]
      cases tilde <;> simp [spellTerm, spell, key]

theorem spell_union (terms : List (Term Ty)) :
    ps.spell (.union terms) = " | ".toList.intercalate (terms.map ps.spellTerm) := by
  rw [← map_toList_termTexts]
  simp [spell, key, text]

end

/-! ## The beginning of a spelling -/

/-- What the beginning of a spelling tells of a type. -/
inductive Head where
  /-- A single word, which may have brackets behind it. -/
  | word
  | invalid
  | pointer
  | slice
  | array
  | receive
  | map
  | both
  | send
  | func
  | struct
  | interface
deriving DecidableEq

/-- The first word of a spelling, the characters behind it, and what they tell. -/
def heads : List (String × String × Head) :=
  [("", "*", .pointer), ("", "[]", .slice), ("", "[", .array), ("", "<", .receive),
   ("map", "[", .map), ("chan", " ", .both), ("chan", "<", .send), ("func", "(", .func),
   ("struct", "\x7b", .struct), ("interface", "\x7b", .interface), ("invalid", " t", .invalid)]

def headOf (cs : List Char) : Head :=
  ((heads.find? fun entry => entry.1.toList == cs.takeWhile wordChar &&
    entry.2.1.toList.isPrefixOf (cs.dropWhile wordChar)).map (·.2.2)).getD .word

/-- The head of a type that is no union. -/
def Ty.head : Ty → Head
  | .invalid => .invalid
  | .pointer _ => .pointer
  | .slice _ => .slice
  | .array _ _ => .array
  | .map _ _ => .map
  | .chan .both _ => .both
  | .chan .send _ => .send
  | .chan .receive _ => .receive
  | .func _ => .func
  | .struct _ => .struct
  | .interface _ _ => .interface
  | _ => .word

theorem Ty.head_cases (t : Ty) :
    match t.head with
    | .word => True
    | .invalid => t = .invalid
    | .pointer => ∃ elem, t = .pointer elem
    | .slice => ∃ elem, t = .slice elem
    | .array => ∃ n elem, t = .array n elem
    | .receive => ∃ elem, t = .chan .receive elem
    | .map => ∃ key value, t = .map key value
    | .both => ∃ elem, t = .chan .both elem
    | .send => ∃ elem, t = .chan .send elem
    | .func => ∃ signature, t = .func signature
    | .struct => ∃ fields, t = .struct fields
    | .interface => ∃ methods embeds, t = .interface methods embeds := by
  cases t with
  | chan direction => cases direction <;> simp [Ty.head]
  | _ => simp [Ty.head]

/-- The words that begin types of several words. -/
def leadingWords : List String := ["map", "chan", "func", "struct", "interface"]

/-- A word that a type can be spelled with. -/
structure PlainWord (word : String) : Prop where
  chars : ∀ c ∈ word.toList, wordChar c = true
  filled : word ≠ ""
  opens : ∀ c ∈ word.toList.head?, c ≠ '.' ∧ c ≠ '~'
  own : word ∉ leadingWords
  /-- The second word of a type that could not be resolved is no word of its own. -/
  not_type : word ≠ "type"

theorem PlainWord.of_identifier {name : String} (identifier : Text.isIdentifier name = true) :
    PlainWord name := by
  obtain ⟨filled, chars⟩ := Text.identifier_chars identifier
  have marks : Text.isNameChar '.' = false ∧ Text.isNameChar '~' = false := by decide
  have keywords : ∀ word ∈ "type" :: leadingWords, Text.isIdentifier word = false := by
    decide +kernel
  refine ⟨fun c member => wordChar_of_nameChar (chars c member), by simpa using filled,
    fun c first => ?_, fun reserved => ?_, ?_⟩
  · have nameChar := chars c (List.mem_of_mem_head? first)
    constructor <;> rintro rfl <;> simp [marks] at nameChar
  · simp [keywords name (List.mem_cons_of_mem _ reserved)] at identifier
  · rintro rfl
    simp [keywords "type" List.mem_cons_self] at identifier

/-- The word of a declared type of a package has a dot. -/
theorem toList_qualified {path : String} (filled : path ≠ "") (name : String) :
    (Ty.qualified path name).toList = path.toList ++ '.' :: name.toList := by
  simp [Ty.qualified, filled]

theorem PlainWord.of_qualified {path name : String} (module : ModulePath path)
    (identifier : Text.isIdentifier name = true) : PlainWord (Ty.qualified path name) := by
  have importable := module.importable
  simp only [isImportPath, Bool.and_eq_true, List.all_eq_true] at importable
  have filled : path ≠ "" := by
    rintro rfl
    simp at importable
  have shape := toList_qualified filled name
  have dotted : '.' ∈ (Ty.qualified path name).toList := by simp [shape]
  have undotted : ∀ word ∈ "type" :: leadingWords, '.' ∉ word.toList := by decide
  refine ⟨fun c member => ?_, fun empty => by simp [empty] at shape, fun c first => ?_,
    fun reserved => undotted _ (List.mem_cons_of_mem _ reserved) dotted,
    fun same => undotted "type" List.mem_cons_self (same ▸ dotted)⟩
  · rw [shape, List.mem_append, List.mem_cons] at member
    rcases member with inPath | rfl | inName
    · simpa [wordChar] using importable.2 c inPath
    · decide
    · exact (PlainWord.of_identifier identifier).chars c inName
  · have inPath : c ∈ path.toList.head? := by
      rw [shape] at first
      obtain ⟨d, rest, start⟩ :=
        List.exists_cons_of_ne_nil (l := path.toList) (by simpa using filled)
      rw [start] at first ⊢
      exact first
    constructor
    · rintro rfl
      exact module.no_dot inPath
    · rintro rfl
      exact module.no_tilde inPath

/-- A word that begins no type of several words is a type by itself. -/
theorem headOf_word {word : String} (chars : ∀ c ∈ word.toList, wordChar c = true)
    (filled : word ≠ "") (own : word ∉ leadingWords) {rest : List Char} (cut : Cut rest)
    (gap : word = "invalid" → ∀ cs, rest ≠ ' ' :: 't' :: cs) :
    headOf (word.toList ++ rest) = .word := by
  have reserved : ∀ entry ∈ heads,
      entry.1 = "" ∨ entry.1 ∈ leadingWords ∨ entry.1 = "invalid" ∧ entry.2.1 = " t" := by decide
  have none : (heads.find? fun entry => entry.1.toList == word.toList &&
      entry.2.1.toList.isPrefixOf rest) = none := by
    refine List.find?_eq_none.2 fun entry listed found => ?_
    simp only [Bool.and_eq_true, beq_iff_eq, String.toList_inj, List.isPrefixOf_iff_prefix] at found
    obtain ⟨rfl, behind⟩ := found
    rcases reserved entry listed with empty | leads | ⟨invalid, next⟩
    · exact filled empty
    · exact own leads
    · obtain ⟨cs, shape⟩ := behind
      exact gap invalid cs (by rw [← shape, next]; rfl)
  rw [headOf, takeWhile_word chars cut, dropWhile_word chars cut, none]
  rfl

namespace Ty

/-- The word that a type of a single word is spelled with.  That of a type parameter with a mark ends
where the mark begins. -/
def word : Ty → String
  | .basic name => name
  | .typeParam name => if name ∈ universeNames then name ++ "/" else name
  | .any => "any"
  | .unsafePointer => "unsafe.Pointer"
  | .named path name _ => qualified path name
  | _ => ""

/-- The word that a type is, if it is no declared type of a package. -/
def ofWord (word : String) : Ty :=
  if word = "any" then .any
  else if word = "comparable" ∨ word = "error" then .named "" word []
  else if word ∈ basicNames then .basic word
  else .typeParam ((Text.stripEnd? "/" word).getD word)

theorem ofWord_basic {name : String} (basic : name ∈ basicNames) : ofWord name = .basic name := by
  have others : ∀ name ∈ basicNames,
      name ≠ "any" ∧ ¬ (name = "comparable" ∨ name = "error") := by decide
  obtain ⟨notAny, noInterface⟩ := others name basic
  rw [ofWord, if_neg notAny, if_neg noInterface, if_pos basic]

end Ty

/-- What stands behind the word: type arguments, type parameters, or the rest of a mark. -/
def Packages.suffix (ps : Packages) : Ty → List Char
  | .named path name [] => (Ty.typeParamsText (ps.typeParams path name)).toList
  | .named _ _ (arg :: args) =>
      '[' :: ([',', ' '].intercalate ((arg :: args).map ps.spell) ++ [']'])
  | .typeParam name => if name ∈ Ty.universeNames then "* type parameter */".toList else []
  | _ => []

section
variable {ps : Packages} {t : Ty}

open Packages Ty

theorem suffix_cases (ps : Packages) (t : Ty) :
    ps.suffix t = [] ∨ ∃ c cs, ps.suffix t = c :: cs ∧ (c = '[' ∨ c = '*') := by
  unfold suffix
  split
  · next path name =>
      rw [typeParamsText]
      split
      · exact .inl rfl
      · rw [String.append_assoc, String.toList_append]
        exact .inr ⟨'[', _, rfl, .inl rfl⟩
  · exact .inr ⟨'[', _, rfl, .inl rfl⟩
  · split
    · exact .inr ⟨'*', _, rfl, .inr rfl⟩
    · exact .inl rfl
  · exact .inl rfl

/-- Names end where a mark stands that names are not made of. -/
theorem identifier_append_inj {name name' : String} (identifier : Text.isIdentifier name = true)
    (identifier' : Text.isIdentifier name' = true) {c : Char} (other : Text.isNameChar c = false)
    {rest rest' : List Char} (same : name.toList ++ c :: rest = name'.toList ++ c :: rest') :
    name = name' ∧ rest = rest' := by
  obtain ⟨names, rest⟩ := append_cons_inj (Text.not_mem_identifier identifier other)
    (Text.not_mem_identifier identifier' other) same
  exact ⟨String.toList_inj.1 names, rest⟩

theorem predeclared_identifier : ∀ name ∈ predeclaredNames, Text.isIdentifier name = true := by
  decide +kernel

theorem slash_not_mem {name : String} (identifier : Text.isIdentifier name = true) :
    '/' ∉ name.toList :=
  Text.not_mem_identifier identifier (by decide)

/-- A type parameter follows from its word, whether it has a mark or not. -/
theorem ofWord_typeParam {name : String} (identifier : Text.isIdentifier name = true) :
    ofWord (Ty.typeParam name).word = .typeParam name := by
  have slash := slash_not_mem identifier
  have named {word : String} (other : word ∉ predeclaredNames) :
      ofWord word = .typeParam ((Text.stripEnd? "/" word).getD word) := by
    simp only [predeclaredNames, List.mem_cons, not_or] at other
    rw [ofWord, if_neg other.1, if_neg (not_or.2 ⟨other.2.1, other.2.2.1⟩), if_neg other.2.2.2]
  rw [word]
  split
  · have other : name ++ "/" ∉ predeclaredNames := fun declared => by
      simpa using slash_not_mem (predeclared_identifier _ declared)
    have ended : ['/'].isSuffixOf? (name.toList ++ ['/']) = some name.toList :=
      List.isSuffixOf?_eq_some_iff_append_eq.2 rfl
    rw [named other]
    simp [Text.stripEnd?, ended]
  · next unmarked =>
    have declared : ∀ name ∈ predeclaredNames, name ∈ universeNames := by decide
    have unended : Text.stripEnd? "/" name = none := by
      simp only [Text.stripEnd?, Option.map_eq_none_iff]
      refine Option.eq_none_iff_forall_ne_some.2 fun before found => slash ?_
      rw [← List.isSuffixOf?_eq_some_iff_append_eq.1 found]
      exact List.mem_append_right _ List.mem_cons_self
    rw [named fun member => unmarked (declared name member), unended]
    rfl

theorem typeParam_plain {name : String} (identifier : Text.isIdentifier name = true) :
    PlainWord (Ty.typeParam name).word := by
  have plain := PlainWord.of_identifier identifier
  rw [word]
  split
  · have slash : '/' ∈ (name ++ "/").toList := by simp
    have none : ∀ word ∈ "type" :: leadingWords, '/' ∉ word.toList := by decide
    refine ⟨fun c member => ?_, by simp, fun c first => plain.opens c ?_,
      fun reserved => none _ (List.mem_cons_of_mem _ reserved) slash,
      fun same => none "type" List.mem_cons_self (same ▸ slash)⟩
    · rcases List.mem_append.1 (String.toList_append ▸ member) with inName | last
      · exact plain.chars c inName
      · obtain rfl := List.mem_singleton.1 last
        decide
    · obtain ⟨d, rest, start⟩ :=
        List.exists_cons_of_ne_nil (l := name.toList) (by simpa using plain.filled)
      rw [String.toList_append, start] at first
      rw [start]
      exact first
  · exact plain

theorem spell_typeParam (ps : Packages) (name : String) :
    ps.spell (.typeParam name) = (Ty.typeParam name).word.toList ++ ps.suffix (.typeParam name) := by
  by_cases declared : name ∈ universeNames <;>
    simp [spell, key, text, word, suffix, typeParamText, declared]

/-- A type of a single word follows from the word, or belongs to a package. -/
theorem word_cases (ps : Packages) (legible : t.Legible)
    (single : t.isUnion = false) (head : t.head = .word) :
    PlainWord t.word ∧ ps.spell t = t.word.toList ++ ps.suffix t ∧
      ((t = ofWord t.word ∧ '.' ∉ t.word.toList) ∨ t = .unsafePointer ∨
        ∃ path name args, t = .named path name args ∧ path ≠ "" ∧
          Text.isIdentifier name = true ∧ ¬ (path = "unsafe" ∧ name = "Pointer")) := by
  have clear := legible.clear
  have ofIdentifier {name : String} (identifier : Text.isIdentifier name = true) :
      PlainWord name ∧ '.' ∉ name.toList :=
    ⟨.of_identifier identifier, Text.not_mem_identifier identifier (by decide)⟩
  cases t with
  | basic name =>
      have clear : name ∈ basicNames := clear
      have declared : name ∈ predeclaredNames := by simp [predeclaredNames, clear]
      obtain ⟨plain, undotted⟩ := ofIdentifier (predeclared_identifier name declared)
      exact ⟨plain, by simp [spell, key, text, word, suffix],
        .inl ⟨(ofWord_basic clear).symm, undotted⟩⟩
  | typeParam name =>
      obtain ⟨-, undotted⟩ := ofIdentifier clear
      refine ⟨typeParam_plain clear, spell_typeParam ps name,
        .inl ⟨(ofWord_typeParam clear).symm, ?_⟩⟩
      rw [word]
      split <;> simp [undotted]
  | any =>
      obtain ⟨plain, undotted⟩ := ofIdentifier (predeclared_identifier "any" (by decide))
      exact ⟨plain, by simp [spell, key, text, word, suffix], .inl ⟨rfl, undotted⟩⟩
  | unsafePointer =>
      have first : ∀ c ∈ "unsafe.Pointer".toList.head?, c ≠ '.' ∧ c ≠ '~' := by
        intro c first
        obtain rfl : 'u' = c := Option.some.inj first
        decide
      have plain : PlainWord "unsafe.Pointer" :=
        ⟨List.all_eq_true.1 (by decide), by decide, first, by decide, by decide⟩
      exact ⟨plain, by simp [spell, key, text, word, suffix], .inr (.inl rfl)⟩
  | named path name args =>
      have shape : ps.spell (.named path name args) =
          (qualified path name).toList ++ ps.suffix (.named path name args) := by
        cases args with
        | nil => exact spell_named path name
        | cons arg args => exact spell_instance path name arg args
      by_cases ownPackage : path = ""
      · subst ownPackage
        obtain ⟨interface, rfl⟩ : (name = "comparable" ∨ name = "error") ∧ args = [] := by
          simpa [Clear] using clear
        have declared : name ∈ predeclaredNames := by
          rcases interface with rfl | rfl <;> decide
        obtain ⟨plain, undotted⟩ := ofIdentifier (predeclared_identifier name declared)
        have unqualified : qualified "" name = name := by simp [qualified]
        rw [word, unqualified] at *
        refine ⟨plain, shape, .inl ⟨?_, undotted⟩⟩
        rcases interface with rfl | rfl <;> rfl
      · obtain ⟨module, identifier, own, -⟩ : ModulePath path ∧ Text.isIdentifier name = true ∧
            ¬ (path = "unsafe" ∧ name = "Pointer") ∧ ∀ arg ∈ args, arg.isUnion = false := by
          simpa [Clear, ownPackage] using clear
        exact ⟨.of_qualified module identifier, shape,
          .inr (.inr ⟨path, name, args, rfl, ownPackage, identifier, own⟩)⟩
  | comparability => exact absurd clear id
  | union => simp [isUnion] at single
  | chan direction => cases direction <;> simp [Ty.head] at head
  | _ => simp [Ty.head] at head

/-- The last dot divides the path of a package from the name. -/
theorem qualified_inj {path path' name name' : String} (filled : path ≠ "") (filled' : path' ≠ "")
    (identifier : Text.isIdentifier name = true) (identifier' : Text.isIdentifier name' = true)
    (same : qualified path name = qualified path' name') : path = path' ∧ name = name' := by
  have dot : Text.isNameChar '.' = false := by decide
  have chars := congrArg (fun s => s.toList.reverse) same
  simp only [toList_qualified filled, toList_qualified filled', List.reverse_append,
    List.reverse_cons, List.append_assoc, List.singleton_append] at chars
  obtain ⟨names, paths⟩ := append_cons_inj (by simpa using Text.not_mem_identifier identifier dot)
    (by simpa using Text.not_mem_identifier identifier' dot) chars
  exact ⟨String.toList_inj.1 (List.reverse_inj.1 paths),
    String.toList_inj.1 (List.reverse_inj.1 names)⟩

/-- Types of a single word with the same word are the same, up to their arguments. -/
theorem word_inj {u : Ty} (legible : t.Legible)
    (legible' : u.Legible) (single : t.isUnion = false) (single' : u.isUnion = false)
    (head : t.head = .word) (head' : u.head = .word) (same : t.word = u.word) :
    t = u ∨ ∃ path name args args', t = .named path name args ∧ u = .named path name args' := by
  have dotted {path : String} (filled : path ≠ "") (name : String) :
      '.' ∈ (qualified path name).toList := by simp [toList_qualified filled]
  have pointer : Ty.unsafePointer.word = qualified "unsafe" "Pointer" := by decide
  have pointerName : Text.isIdentifier "Pointer" = true := by decide +kernel
  obtain ⟨-, -, mine⟩ := word_cases [] legible single head
  obtain ⟨-, -, theirs⟩ := word_cases [] legible' single' head'
  rcases mine with ⟨ofWord, undotted⟩ | rfl | ⟨path, name, args, rfl, filled, identifier, own⟩
  · rcases theirs with ⟨ofWord', -⟩ | rfl | ⟨path', name', args', rfl, filled', -⟩
    · exact .inl (by rw [ofWord, ofWord', same])
    · rw [same, pointer] at undotted
      exact absurd (dotted (by decide) _) undotted
    · rw [same] at undotted
      exact absurd (dotted filled' name') undotted
  · rcases theirs with ⟨-, undotted⟩ | rfl | ⟨path', name', args', rfl, filled', identifier', own⟩
    · rw [← same, pointer] at undotted
      exact absurd (dotted (by decide) _) undotted
    · exact .inl rfl
    · obtain ⟨rfl, rfl⟩ := qualified_inj (by decide) filled' pointerName identifier'
        (pointer.symm.trans same)
      exact absurd ⟨rfl, rfl⟩ own
  · rcases theirs with ⟨-, undotted⟩ | rfl | ⟨path', name', args', rfl, filled', identifier', -⟩
    · rw [← same] at undotted
      exact absurd (dotted filled name) undotted
    · obtain ⟨rfl, rfl⟩ := qualified_inj filled (by decide) identifier pointerName
        (same.trans pointer)
      exact absurd ⟨rfl, rfl⟩ own
    · obtain ⟨rfl, rfl⟩ := qualified_inj filled filled' identifier identifier' same
      exact .inr ⟨path, name, args, args', rfl, rfl⟩

/-! ## What follows a type -/

/-- What can follow the spelling of a type: a bracket, a comma or a semicolon, a tag, or another
term of a union. -/
def Ends : List Char → Prop
  | [] => True
  | ' ' :: c :: _ => c = '"' ∨ c = '|'
  | c :: _ => c ∈ [',', ')', ']', '\x7d', ';']

theorem Ends.cut {rest : List Char} (ends : Ends rest) : Cut rest := by
  have closers : [',', ')', ']', '\x7d', ';'].all (!wordChar ·) = true := by decide
  intro c first
  unfold Ends at ends
  split at ends
  · cases first
  · cases first
    decide
  · cases first
    simpa using List.all_eq_true.1 closers _ ends

theorem Ends.no_gap {rest : List Char} (ends : Ends rest) (cs : List Char) :
    rest ≠ ' ' :: 't' :: cs := by
  rintro rfl
  simp [Ends] at ends

theorem Ends.no_bracket {rest : List Char} (ends : Ends rest) (cs : List Char) :
    rest ≠ '[' :: cs := by
  rintro rfl
  simp [Ends] at ends

/-- What follows the word of a type. -/
theorem suffix_cut {rest : List Char} (ends : Ends rest) :
    Cut (ps.suffix t ++ rest) ∧ ∀ cs, ps.suffix t ++ rest ≠ ' ' :: 't' :: cs := by
  rcases suffix_cases ps t with none | ⟨c, cs, more, rfl | rfl⟩
  · rw [none, List.nil_append]
    exact ⟨ends.cut, ends.no_gap⟩
  all_goals
    rw [more]
    exact ⟨fun c first => by cases first; decide, fun _ => by simp⟩

theorem repr_opens (n : Nat) :
    ∃ digit digits, n.repr.toList = digit :: digits ∧ digit ≠ ']' := by
  rw [Nat.toList_repr]
  obtain ⟨digit, digits, shape⟩ :=
    List.exists_cons_of_ne_nil (Nat.toDigits_ne_nil (n := n) (b := 10))
  have isDigit : digit.isDigit = true :=
    Nat.isDigit_of_mem_toDigits (by decide) (by decide) (shape ▸ List.mem_cons_self)
  refine ⟨digit, digits, shape, ?_⟩
  rintro rfl
  exact absurd isDigit (by decide)

/-- The beginning of the spelling tells the head of a type. -/
theorem headOf_spell (ps : Packages) (legible : t.Legible)
    (single : t.isUnion = false) {rest : List Char} (ends : Ends rest) :
    headOf (ps.spell t ++ rest) = t.head := by
  by_cases head : t.head = .word
  · obtain ⟨plain, spelled, -⟩ := word_cases ps legible single head
    have ⟨cut, gap⟩ : Cut (ps.suffix t ++ rest) ∧ _ := suffix_cut ends
    rw [spelled, List.append_assoc, head]
    exact headOf_word plain.chars plain.filled plain.own cut fun _ => gap
  · cases t with
    | invalid => rw [spell_invalid]; rfl
    | pointer elem => rw [spell_pointer]; rfl
    | slice elem => rw [spell_slice]; rfl
    | map key value => rw [spell_map]; rfl
    | array n elem =>
        obtain ⟨digit, digits, shape, differ⟩ := repr_opens n
        have bracket : wordChar '[' = false := by decide
        rw [spell_array, shape]
        simp [headOf, heads, bracket, differ.symm, Ty.head]
    | chan direction elem =>
        cases direction with
        | both =>
            by_cases received : ∃ u, elem = .chan .receive u
            · obtain ⟨u, rfl⟩ := received
              rw [spell_both_receive]; rfl
            · rw [spell_both (not_exists.1 received)]; rfl
        | send => rw [spell_send]; rfl
        | receive => rw [spell_receive]; rfl
    | func s => rw [spell_func legible.clear]; rfl
    | struct fields => rw [spell_struct]; rfl
    | interface methods embeds =>
        rw [spell_interface fun m member => (legible.clear m member).2]; rfl
    | _ => exact absurd rfl head

/-! ## The first character -/

/-- A character that a type can begin with. -/
def opening (c : Char) : Bool :=
  c != '.' && c != '~' && (wordChar c || ['*', '[', '<'].contains c)

theorem PlainWord.opens_cons {word : String} (plain : PlainWord word) :
    ∃ c cs, word.toList = c :: cs ∧ opening c = true := by
  obtain ⟨c, cs, shape⟩ :=
    List.exists_cons_of_ne_nil (l := word.toList) (by simpa using plain.filled)
  obtain ⟨no_dot, no_tilde⟩ := plain.opens c (by simp [shape])
  have inWord := plain.chars c (by simp [shape])
  exact ⟨c, cs, shape, by simp [opening, no_dot, no_tilde, inWord]⟩

/-- No name begins with a closing bracket, or any other character that stands between types. -/
theorem identifier_ne_cons {name : String} (identifier : Text.isIdentifier name = true) {c : Char}
    (closed : opening c = false) (rest cs : List Char) : name.toList ++ rest ≠ c :: cs := by
  obtain ⟨d, ds, shape, opens⟩ := (PlainWord.of_identifier identifier).opens_cons
  intro same
  rw [shape, List.cons_append, List.cons.injEq] at same
  rw [same.1, closed] at opens
  exact Bool.false_ne_true opens

theorem spell_opens (ps : Packages) (legible : t.Legible)
    (single : t.isUnion = false) : ∃ c cs, ps.spell t = c :: cs ∧ opening c = true := by
  by_cases head : t.head = .word
  · obtain ⟨plain, spelled, -⟩ := word_cases ps legible single head
    obtain ⟨c, cs, shape, opens⟩ := plain.opens_cons
    exact ⟨c, cs ++ ps.suffix t, by simp [spelled, shape], opens⟩
  · cases t with
    | invalid => exact ⟨_, _, spell_invalid, by decide⟩
    | pointer elem => exact ⟨_, _, spell_pointer elem, by decide⟩
    | slice elem => exact ⟨_, _, spell_slice elem, by decide⟩
    | map key value => exact ⟨_, _, spell_map key value, by decide⟩
    | array n elem => exact ⟨_, _, spell_array n elem, by decide⟩
    | chan direction elem =>
        cases direction with
        | both =>
            by_cases received : ∃ u, elem = .chan .receive u
            · obtain ⟨u, rfl⟩ := received
              exact ⟨_, _, spell_both_receive u, by decide⟩
            · exact ⟨_, _, spell_both (not_exists.1 received), by decide⟩
        | send => exact ⟨_, _, spell_send elem, by decide⟩
        | receive => exact ⟨_, _, spell_receive elem, by decide⟩
    | func s => exact ⟨_, _, spell_func legible.clear, by decide⟩
    | struct fields => exact ⟨_, _, spell_struct fields, by decide⟩
    | interface methods embeds =>
        exact ⟨_, _, spell_interface (fun m member => (legible.clear m member).2) embeds, by decide⟩
    | _ => exact absurd rfl head

/-- No type begins with a closing bracket, or any other character that stands between types. -/
theorem spell_ne_cons (legible : t.Legible)
    (single : t.isUnion = false) {c : Char} (closed : opening c = false) (rest cs : List Char) :
    ps.spell t ++ rest ≠ c :: cs := by
  obtain ⟨d, ds, shape, opens⟩ := spell_opens ps legible single
  intro same
  rw [shape, List.cons_append, List.cons.injEq] at same
  rw [same.1, closed] at opens
  exact Bool.false_ne_true opens

end

end ComposeStability.Program
