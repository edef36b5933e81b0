/-
# Proofs.Program.TypeText -- what the display forms of types are made of

A type is displayed with the names, package names and tags in it (`Ty.parts`).
Where these are well formed, its display form is a nested text between visible
characters, with no other tags than the type has (`text_shown`).
-/
import ComposeStability.Program.Package
import ComposeStability.Proofs.Program.Nested

namespace ComposeStability.Program

set_option autoImplicit false

/-! ## Parts -/

/-- What display forms are put together from. -/
inductive Part where
  /-- The path of a package. -/
  | path (text : String)
  /-- The name of a type, a field or a method. -/
  | name (text : String)
  /-- The name of a variable, which may be missing. -/
  | label (text : String)
  | tag (text : String)
  /-- How many types a union has. -/
  | terms (count : Nat)
deriving DecidableEq, Repr

/-- The characters that may not stand in the path of a package, besides blanks. -/
def notInPaths : List Char := "!\"#$%&'()*,:;<=>?[\\]^`\x7b|\x7d\ufffd".toList

/-- Whether a text can be the path of a package. -/
def isImportPath (path : String) : Bool :=
  !path.isEmpty && path.toList.all fun c => !Text.isBlank c && !notInPaths.contains c

/-- Names are identifiers and paths are paths of packages; what the language declares has none. -/
def Part.wellFormed : Part → Bool
  | .path text => text.isEmpty || isImportPath text
  | .name text => Text.isIdentifier text
  | .label text => text.isEmpty || Text.isIdentifier text
  | .tag _ => true
  | .terms count => count != 0

namespace Ty

mutual

/-- The parts of a type, in order. -/
def parts : Ty → List Part
  | .invalid | .unsafePointer | .any | .comparability => []
  | .basic name => [.name name]
  | .named path name args => .path path :: .name name :: partsOfAll args
  | .typeParam name => [.name name]
  | .pointer elem => elem.parts
  | .slice elem => elem.parts
  | .map key value => key.parts ++ value.parts
  | .array _ elem => elem.parts
  | .chan _ elem => elem.parts
  | .func signature => signatureParts signature
  | .struct fields => fieldParts fields
  | .interface methods embeds => methodParts methods ++ partsOfAll embeds
  | .union terms => .terms terms.length :: termParts terms

def partsOfAll : List Ty → List Part
  | [] => []
  | t :: rest => t.parts ++ partsOfAll rest

def signatureParts : Signature Ty → List Part
  | ⟨params, results, _⟩ => variableParts params ++ variableParts results

def variableParts : List (Variable Ty) → List Part
  | [] => []
  | ⟨name, type⟩ :: rest => .label name :: type.parts ++ variableParts rest

def fieldParts : List (Field Ty) → List Part
  | [] => []
  | ⟨name, type, tag, _⟩ :: rest => .name name :: .tag tag :: type.parts ++ fieldParts rest

def methodParts : List (Method Ty) → List Part
  | [] => []
  | ⟨name, signature⟩ :: rest => .name name :: signatureParts signature ++ methodParts rest

def termParts : List (Term Ty) → List Part
  | [] => []
  | ⟨_, type⟩ :: rest => type.parts ++ termParts rest

end

end Ty

theorem word_of_importPath {path : String} (valid : isImportPath path = true) : Word path := by
  simp only [isImportPath, Bool.and_eq_true, List.all_eq_true, Bool.not_eq_true',
    List.contains_eq_mem, decide_eq_false_iff_not] at valid
  have marked : (Text.marks.all fun c => Text.isBlank c || notInPaths.contains c) = true := by
    decide
  simp only [List.all_eq_true, Bool.or_eq_true, List.contains_eq_mem, decide_eq_true_eq] at marked
  refine ⟨by simpa using valid.1, fun c member => (valid.2 c member).1, ?_⟩
  intro c member mark
  obtain ⟨visible, allowed⟩ := valid.2 c member
  rcases marked c mark with blank | excluded
  · simp [blank] at visible
  · exact allowed excluded

theorem digits_unmarked (n : Nat) : Text.Unmarked (toString n) := by
  intro c member
  rw [Nat.toString_eq_repr, Nat.toList_repr] at member
  have digit := Nat.isDigit_of_mem_toDigits (by decide) (by decide) member
  have none : (Text.marks.any Char.isDigit) = false := by decide
  exact fun mark => List.any_eq_false.1 none c mark digit

/-! ## Display forms -/

/-- The part is well formed, and if it is a tag, then one of the given ones. -/
def Part.Fits (tags : String → Prop) : Part → Prop
  | .tag text => tags text
  | part => part.wellFormed = true

namespace Ty

/-- Packages of well-formed paths are named by a word or not at all, type parameters by
identifiers. -/
structure Naming.Plain (n : Naming) : Prop where
  package : ∀ path, (Part.path path).wellFormed = true → n.package path = "" ∨ Word (n.package path)
  typeParams : ∀ path name, ∀ param ∈ n.typeParams path name, Text.isIdentifier param = true

variable {tags : String → Prop} {n : Naming}

theorem qualified_word {qualifier name : String} (package : qualifier = "" ∨ Word qualifier)
    (word : Word name) : Word (qualified qualifier name) := by
  rcases package with rfl | package
  · simpa [qualified] using word
  · have some_qualifier : qualifier.isEmpty = false := by simpa using package.filled
    rw [qualified, some_qualifier]
    exact (package.append word_dot).append word

/-- A type parameter is displayed as a word, and may have a mark behind it. -/
theorem typeParamText_shown {name : String} (identifier : Text.isIdentifier name = true) :
    Shown tags (typeParamText name) := by
  have named : Shown tags name := (word_of_identifier identifier).shown
  rw [typeParamText]
  split
  · exact named.append ⟨.plain (by decide), by decide, by decide⟩
  · exact named

theorem typeParamsText_shown {names : List String}
    (identifiers : ∀ name ∈ names, Text.isIdentifier name = true) :
    typeParamsText names = "" ∨ Shown tags (typeParamsText names) := by
  rw [typeParamsText]
  split
  · exact .inl rfl
  · have listed : Nested tags true (", ".intercalate (names.map typeParamText)) :=
      .join .comma (List.forall_mem_map.2 fun name member =>
        (typeParamText_shown (identifiers name member)).nested.within)
    have shape : "[" ++ ", ".intercalate (names.map typeParamText) ++ " any]" =
        "[" ++ (", ".intercalate (names.map typeParamText) ++ " any") ++ "]" := by
      simp [String.append_assoc]
    rw [shape]
    exact .inr (.group (by decide) (listed.append (.plain (by decide))))

theorem label_nested {name : String} (fits : (Part.label name).wellFormed = true) :
    Nested tags false (label name) := by
  rw [label]
  split
  · exact .plain (by decide)
  · next named =>
    have identifier : Text.isIdentifier name = true := by
      simpa [Part.wellFormed, named] using fits
    exact (word_of_identifier identifier).shown.nested.append (.plain (by decide))

/-- Channels that are received from are put in parentheses inside of others. -/
theorem text_chan_both (n : Naming) (elem : Ty) :
    text n (.chan .both elem) = "chan " ++ elem.text n ∨
      text n (.chan .both elem) = "chan " ++ ("(" ++ elem.text n ++ ")") := by
  cases elem with
  | chan direction inner =>
      cases direction with
      | receive => exact .inr (by simp [text, ← String.append_assoc])
      | both => exact .inl (by simp [text])
      | send => exact .inl (by simp [text])
  | _ => exact .inl (by simp [text])

theorem signatureText_single (n : Naming) (params : List (Variable Ty)) (type : Ty)
    (variadic : Bool) :
    signatureText n ⟨params, [⟨"", type⟩], variadic⟩ =
      "(" ++ ", ".intercalate (variableTexts n variadic params) ++ ")" ++ (" " ++ type.text n) := by
  have apart : ") " = ")" ++ " " := rfl
  rw [signatureText, apart]
  simp only [String.append_assoc]

theorem signatureText_list (n : Naming) (params : List (Variable Ty)) {results : List (Variable Ty)}
    (several : results ≠ []) (not_single : ∀ type, results ≠ [⟨"", type⟩]) (variadic : Bool) :
    signatureText n ⟨params, results, variadic⟩ =
      "(" ++ ", ".intercalate (variableTexts n variadic params) ++ ")" ++
        (" " ++ ("(" ++ ", ".intercalate (variableTexts n false results) ++ ")")) := by
  have apart : ") (" = ")" ++ (" " ++ "(") := rfl
  rw [signatureText, apart]
  · simp only [String.append_assoc]
  · exact several
  · exact not_single

theorem variables_shown {texts : List String} (each : ∀ s ∈ texts, Nested tags false s) :
    Shown tags ("(" ++ ", ".intercalate texts ++ ")") :=
  .group (by decide) (.join .comma fun s member => (each s member).within)

theorem word_of_fits {name : String} (fits : (Part.name name).Fits tags) : Word name :=
  word_of_identifier fits

mutual

/-- The display form of a type whose parts fit is nested, between visible characters. -/
theorem text_shown (plain : n.Plain) : ∀ t : Ty, (∀ part ∈ t.parts, part.Fits tags) →
    Shown tags (t.text n)
  | .invalid, _ => by
      rw [text]
      exact ⟨.plain (by decide), by decide, by decide⟩
  | .basic name, fits => by
      rw [text]
      exact (word_of_fits (fits (.name name) (by simp [parts]))).shown
  | .unsafePointer, _ => by
      rw [text]
      exact ⟨.plain (by decide), by decide, by decide⟩
  | .any, _ => by
      rw [text]
      exact ⟨.plain (by decide), by decide, by decide⟩
  | .comparability, _ => by
      have shape : text n .comparability = "interface" ++ ("\x7b" ++ "comparable" ++ "\x7d") := rfl
      rw [shape]
      exact (Shown.group (by decide) (.plain (by decide))).after (.plain (by decide)) (by decide)
  | .named path name [], fits => by
      simp only [parts, List.forall_mem_cons] at fits
      rw [text]
      have word := qualified_word (plain.package path fits.1) (word_of_fits fits.2.1)
      rcases typeParamsText_shown (plain.typeParams path name) with none_listed | listed
      · simpa [none_listed] using word.shown
      · exact word.shown.append listed
  | .named path name (arg :: args), fits => by
      simp only [parts, List.forall_mem_cons, partsOfAll, List.forall_mem_append] at fits
      obtain ⟨package, identifier, first, others⟩ := fits
      have word := qualified_word (plain.package path package) (word_of_fits identifier)
      have listed : Nested tags true (", ".intercalate (arg.text n :: texts n args)) := by
        refine .join .comma (List.forall_mem_cons.2 ⟨?_, fun s member => ?_⟩)
        · exact (text_shown plain arg first).nested.within
        · exact (texts_nested plain args others s member).within
      have shape : text n (.named path name (arg :: args)) = qualified (n.package path) name ++
          ("[" ++ ", ".intercalate (arg.text n :: texts n args) ++ "]") := by
        simp [text, String.append_assoc]
      rw [shape]
      exact word.shown.append (.group (by decide) listed)
  | .typeParam name, fits => by
      rw [text]
      exact typeParamText_shown (fits (.name name) (by simp [parts]))
  | .pointer elem, fits => (text_shown plain elem fits).after (.plain (by decide)) (by decide)
  | .slice elem, fits => by
      have brackets : Shown tags ("[" ++ "" ++ "]") := .group (by decide) (.plain (by decide))
      rw [text]
      exact brackets.append (text_shown plain elem fits)
  | .map key value, fits => by
      simp only [parts, List.forall_mem_append] at fits
      have shape : text n (.map key value) =
          "map" ++ ("[" ++ key.text n ++ "]") ++ value.text n := by
        simp [text, ← String.append_assoc]
      have brackets : Shown tags ("[" ++ key.text n ++ "]") :=
        .group (by decide) (text_shown plain key fits.1).nested.within
      rw [shape]
      exact (brackets.after (.plain (by decide)) (by decide)).append (text_shown plain value fits.2)
  | .array length elem, fits => by
      have brackets : Shown tags ("[" ++ toString length ++ "]") :=
        .group (by decide) (.plain (digits_unmarked length))
      rw [text]
      exact brackets.append (text_shown plain elem fits)
  | .chan .both elem, fits => by
      have shown := text_shown plain elem fits
      rcases text_chan_both n elem with shape | shape <;> rw [shape]
      · exact shown.after (.plain (by decide)) (by decide)
      · exact (Shown.group (by decide) shown.nested.within).after (.plain (by decide)) (by decide)
  | .chan .send elem, fits => (text_shown plain elem fits).after (.plain (by decide)) (by decide)
  | .chan .receive elem, fits => (text_shown plain elem fits).after (.plain (by decide)) (by decide)
  | .func signature, fits =>
      (signatureText_shown plain signature fits).after (.plain (by decide)) (by decide)
  | .struct fields, fits => by
      have listed : Nested tags true ("; ".intercalate (fieldTexts n fields)) :=
        .join (.plain (by decide)) (fieldTexts_nested plain fields fits)
      have shape : text n (.struct fields) =
          "struct" ++ ("\x7b" ++ "; ".intercalate (fieldTexts n fields) ++ "\x7d") := by
        simp [text, ← String.append_assoc]
      rw [shape]
      exact (Shown.group (by decide) listed).after (.plain (by decide)) (by decide)
  | .interface methods embeds, fits => by
      simp only [parts, List.forall_mem_append] at fits
      have listed :
          Nested tags true ("; ".intercalate (methodTexts n methods ++ texts n embeds)) := by
        refine .join (.plain (by decide)) (List.forall_mem_append.2 ⟨?_, ?_⟩)
        · exact fun s member => (methodTexts_nested plain methods fits.1 s member).within
        · exact fun s member => (texts_nested plain embeds fits.2 s member).within
      have shape : text n (.interface methods embeds) = "interface" ++
          ("\x7b" ++ "; ".intercalate (methodTexts n methods ++ texts n embeds) ++ "\x7d") := by
        simp [text, ← String.append_assoc]
      rw [shape]
      exact (Shown.group (by decide) listed).after (.plain (by decide)) (by decide)
  | .union terms, fits => by
      simp only [parts, List.forall_mem_cons] at fits
      have some_terms : termTexts n terms ≠ [] := by
        cases terms with
        | nil => exact absurd fits.1 (by simp [Part.Fits, Part.wellFormed])
        | cons term rest => simp [termTexts]
      rw [text]
      exact .join (by decide) some_terms (termTexts_shown plain terms fits.2)

theorem texts_nested (plain : n.Plain) : ∀ types : List Ty,
    (∀ part ∈ partsOfAll types, part.Fits tags) → ∀ s ∈ texts n types, Nested tags false s
  | [], _ => by simp [texts]
  | t :: rest, fits => by
      simp only [partsOfAll, List.forall_mem_append] at fits
      rw [texts, List.forall_mem_cons]
      exact ⟨(text_shown plain t fits.1).nested, texts_nested plain rest fits.2⟩

theorem signatureText_shown (plain : n.Plain) : ∀ signature : Signature Ty,
    (∀ part ∈ signatureParts signature, part.Fits tags) → Shown tags (signatureText n signature)
  | ⟨params, [], variadic⟩, fits => by
      simp only [signatureParts, List.forall_mem_append] at fits
      rw [signatureText]
      exact variables_shown (variableTexts_nested plain variadic params fits.1)
  | ⟨params, [⟨name, type⟩], variadic⟩, fits => by
      simp only [signatureParts, List.forall_mem_append] at fits
      have taken := variables_shown (variableTexts_nested plain variadic params fits.1)
      have given := variables_shown (variableTexts_nested plain false [⟨name, type⟩] fits.2)
      by_cases unnamed : name = ""
      · simp only [variableParts, List.append_nil, List.forall_mem_cons] at fits
        rw [unnamed, signatureText_single]
        exact taken.spaced (text_shown plain type fits.2.2)
      · rw [signatureText_list n params (by simp) (by simp [unnamed])]
        exact taken.spaced given
  | ⟨params, first :: second :: results, variadic⟩, fits => by
      simp only [signatureParts, List.forall_mem_append] at fits
      have taken := variables_shown (variableTexts_nested plain variadic params fits.1)
      have given :=
        variables_shown (variableTexts_nested plain false (first :: second :: results) fits.2)
      rw [signatureText_list n params (by simp) (by simp)]
      exact taken.spaced given

theorem variableTexts_nested (plain : n.Plain) (variadic : Bool) : ∀ vars : List (Variable Ty),
    (∀ part ∈ variableParts vars, part.Fits tags) →
    ∀ s ∈ variableTexts n variadic vars, Nested tags false s
  | [], _ => by simp [variableTexts]
  | [⟨name, type⟩], fits => by
      simp only [variableParts, List.append_nil, List.forall_mem_cons] at fits
      have lead : Nested tags false (label name) := label_nested fits.1
      have shown := text_shown plain type fits.2
      cases type with
      | slice elem =>
          have inner := text_shown plain elem fits.2
          have brackets : Shown tags ("[" ++ "" ++ "]") := .group (by decide) (.plain (by decide))
          rw [variableTexts, List.forall_mem_singleton]
          refine .append (.append lead ?_) inner.nested
          split
          · exact .plain (by decide)
          · exact brackets.nested
      | _ =>
          simp only [variableTexts, List.forall_mem_singleton]
          refine .append (.append lead shown.nested) ?_
          split
          · exact .plain (by decide)
          · exact .plain (by decide)
  | ⟨name, type⟩ :: next :: rest, fits => by
      simp only [variableParts, List.cons_append, List.forall_mem_append,
        List.forall_mem_cons] at fits
      obtain ⟨named, own, others⟩ := fits
      have lead : Nested tags false (label name) := label_nested named
      have later := variableTexts_nested plain variadic (next :: rest) (by
        simpa only [variableParts, List.cons_append, List.forall_mem_append, List.forall_mem_cons]
          using others)
      simp only [variableTexts, List.forall_mem_cons]
      exact ⟨lead.append (text_shown plain type own).nested, later⟩

theorem fieldTexts_nested (plain : n.Plain) : ∀ fields : List (Field Ty),
    (∀ part ∈ fieldParts fields, part.Fits tags) →
    ∀ s ∈ fieldTexts n fields, Nested tags true s
  | [], _ => by simp [fieldTexts]
  | ⟨name, type, tag, embedded⟩ :: rest, fits => by
      simp only [fieldParts, List.forall_mem_append, List.forall_mem_cons] at fits
      obtain ⟨⟨identifier, tagged, own⟩, others⟩ := fits
      rw [fieldTexts, List.forall_mem_cons]
      refine ⟨.append (.append ?_ (text_shown plain type own).nested.within) ?_,
        fieldTexts_nested plain rest others⟩
      · split
        · exact .plain (by decide)
        · exact (word_of_fits identifier).shown.nested.within.append (.plain (by decide))
      · split
        · exact .plain (by decide)
        · exact .append (.plain (by decide)) (.tag tagged)

theorem methodTexts_nested (plain : n.Plain) : ∀ methods : List (Method Ty),
    (∀ part ∈ methodParts methods, part.Fits tags) →
    ∀ s ∈ methodTexts n methods, Nested tags false s
  | [], _ => by simp [methodTexts]
  | ⟨name, signature⟩ :: rest, fits => by
      simp only [methodParts, List.forall_mem_append, List.forall_mem_cons] at fits
      obtain ⟨⟨identifier, own⟩, others⟩ := fits
      rw [methodTexts, List.forall_mem_cons]
      have lead : Nested tags false name := (word_of_fits identifier).shown.nested
      exact ⟨lead.append (signatureText_shown plain signature own).nested,
        methodTexts_nested plain rest others⟩

theorem termTexts_shown (plain : n.Plain) : ∀ terms : List (Term Ty),
    (∀ part ∈ termParts terms, part.Fits tags) → ∀ s ∈ termTexts n terms, Shown tags s
  | [], _ => by simp [termTexts]
  | ⟨tilde, type⟩ :: rest, fits => by
      simp only [termParts, List.forall_mem_append] at fits
      rw [termTexts, List.forall_mem_cons]
      refine ⟨?_, termTexts_shown plain rest fits.2⟩
      have shown := text_shown plain type fits.1
      cases tilde
      · simpa using shown
      · exact shown.after (.plain (by decide)) (by decide)

end

end Ty

end ComposeStability.Program
