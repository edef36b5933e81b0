/-
# Proofs.Program.Readable -- the parts of a spelling are read one after the other

A type is readable if its spelling determines it and where it ends, whatever
follows (`Ty.Readable`).  Lists of variables, fields, terms of unions and elements
of interfaces are readable if the types in them are.  They are read up to their
closing bracket (`join_closed_inj`); a name in front of a type is told from a type
by the blank behind it (`named_gap`).
-/
import ComposeStability.Proofs.Program.Legible

namespace ComposeStability.Program

set_option autoImplicit false

/-! ## Lists -/

section
variable {α : Type} {f : α → List Char} {P : List Char → Prop}

/-- Lists that are spelled with a separator are read element by element, if each element can be read
in front of a separator and in front of what follows the list. -/
theorem join_inj {sep : List Char} {as bs : List α}
    (each : ∀ a ∈ as, ∀ b ∈ bs, ∀ rest rest', P rest → P rest' → f a ++ rest = f b ++ rest' →
      a = b ∧ rest = rest')
    (between : ∀ rest, P (sep ++ rest)) {rest rest' : List Char} (ends : P rest) (ends' : P rest')
    (last : ¬ sep <+: rest) (last' : ¬ sep <+: rest') (filled : as ≠ []) (filled' : bs ≠ [])
    (same : sep.intercalate (as.map f) ++ rest = sep.intercalate (bs.map f) ++ rest') :
    as = bs ∧ rest = rest' := by
  induction as generalizing bs with
  | nil => exact absurd rfl filled
  | cons a as ih =>
      cases bs with
      | nil => exact absurd rfl filled'
      | cons b bs =>
          have here := each a List.mem_cons_self b List.mem_cons_self
          cases as with
          | nil =>
              cases bs with
              | nil =>
                  simp only [List.map_cons, List.map_nil, List.intercalate_singleton] at same
                  obtain ⟨rfl, rest⟩ := here _ _ ends ends' same
                  exact ⟨rfl, rest⟩
              | cons b' bs =>
                  simp only [List.map_cons, List.map_nil, List.intercalate_singleton,
                    List.intercalate_cons_cons, List.append_assoc] at same
                  obtain ⟨-, more⟩ := here _ _ ends (between _) same
                  exact absurd ⟨_, more.symm⟩ last
          | cons a' as =>
              cases bs with
              | nil =>
                  simp only [List.map_cons, List.map_nil, List.intercalate_singleton,
                    List.intercalate_cons_cons, List.append_assoc] at same
                  obtain ⟨-, more⟩ := here _ _ (between _) ends' same
                  exact absurd ⟨_, more⟩ last'
              | cons b' bs =>
                  simp only [List.map_cons, List.intercalate_cons_cons, List.append_assoc] at same
                  obtain ⟨rfl, more⟩ := here _ _ (between _) (between _) same
                  obtain ⟨elements, rest⟩ : a' :: as = b' :: bs ∧ rest = rest' :=
                    ih (fun a member b member' =>
                        each a (List.mem_cons_of_mem _ member) b (List.mem_cons_of_mem _ member'))
                      (List.cons_ne_nil _ _) (List.cons_ne_nil _ _)
                      (by simpa only [List.map_cons] using List.append_cancel_left more)
                  rw [elements]
                  exact ⟨rfl, rest⟩

/-- Lists in brackets, which may be empty, are read up to the closing bracket. -/
theorem join_closed_inj {s close : Char} {sep : List Char} {as bs : List α}
    (each : ∀ a ∈ as, ∀ b ∈ bs, ∀ rest rest', P rest → P rest' → f a ++ rest = f b ++ rest' →
      a = b ∧ rest = rest')
    (between : ∀ rest, P (s :: sep ++ rest)) (closing : ∀ rest, P (close :: rest))
    (differ : s ≠ close) (opens : ∀ a, a ∈ as ∨ a ∈ bs → ∀ rest cs, f a ++ rest ≠ close :: cs)
    {rest rest' : List Char}
    (same : (s :: sep).intercalate (as.map f) ++ close :: rest =
      (s :: sep).intercalate (bs.map f) ++ close :: rest') : as = bs ∧ rest = rest' := by
  have last (rest : List Char) : ¬ s :: sep <+: close :: rest := by
    rw [List.cons_prefix_cons]
    exact fun start => differ start.1
  have leads (a : α) (as : List α) (rest : List Char) :
      ∃ more, (s :: sep).intercalate ((a :: as).map f) ++ rest = f a ++ more := by
    cases as with
    | nil => exact ⟨rest, by simp⟩
    | cons a' as =>
        rw [List.map_cons, List.map_cons, List.intercalate_cons_cons, List.append_assoc,
          List.append_assoc]
        exact ⟨_, rfl⟩
  cases as with
  | nil =>
      cases bs with
      | nil => exact ⟨rfl, by simpa using same⟩
      | cons b bs =>
          obtain ⟨more, shape⟩ := leads b bs (close :: rest')
          rw [shape] at same
          exact absurd same.symm (opens b (.inr List.mem_cons_self) _ _)
  | cons a as =>
      cases bs with
      | nil =>
          obtain ⟨more, shape⟩ := leads a as (close :: rest)
          rw [shape] at same
          exact absurd same (opens a (.inl List.mem_cons_self) _ _)
      | cons b bs =>
          obtain ⟨elements, more⟩ := join_inj each between (closing rest) (closing rest')
            (last rest) (last rest') (List.cons_ne_nil _ _) (List.cons_ne_nil _ _) same
          exact ⟨elements, (List.cons.inj more).2⟩

end

/-! ## Types that are read -/

section
variable {ps : Packages} {t u : Ty}

open Packages Ty

/-- A legible type that is no union. -/
structure Ty.Standalone (t : Ty) : Prop where
  legible : t.Legible
  single : t.isUnion = false

/-- The spelling determines the type, and what follows it. -/
def Ty.Readable (ps : Packages) (t : Ty) : Prop :=
  ∀ (u : Ty) (rest rest' : List Char), u.Standalone → Ends rest → Ends rest' →
    ps.spell t ++ rest = ps.spell u ++ rest' → t = u ∧ rest = rest'

/-! ## Names in front of types -/

/-- A name with a blank behind it begins no type, except for a type that could not be resolved, or
if the blank follows the type. -/
theorem named_gap (standalone : u.Standalone) {name : String}
    (identifier : Text.isIdentifier name = true) {rest cs : List Char} (ends : Ends rest)
    (same : ps.spell u ++ rest = name.toList ++ ' ' :: cs) :
    rest = ' ' :: cs ∨ cs = "type".toList ++ rest := by
  have plain := PlainWord.of_identifier identifier
  have blank : Cut (' ' :: cs) := fun c first => by cases first; decide
  have head := headOf_spell ps standalone.legible standalone.single ends
  rw [same] at head
  by_cases single : u.head = .word
  · obtain ⟨plain', spelled, -⟩ :=
      word_cases ps standalone.legible standalone.single single
    rw [spelled, List.append_assoc] at same
    obtain ⟨-, behind⟩ := word_append_inj plain'.chars plain.chars (suffix_cut ends).1 blank same
    rcases suffix_cases ps u with none | ⟨d, ds, more, rfl | rfl⟩
    · rw [none, List.nil_append] at behind
      exact .inl behind
    all_goals simp [more] at behind
  · obtain ⟨rfl, ds, rfl⟩ : name = "invalid" ∧ ∃ ds, cs = 't' :: ds := by
      by_contra other
      refine single (head.symm.trans (headOf_word plain.chars plain.filled plain.own blank ?_))
      rintro rfl ds shape
      exact other ⟨rfl, ds, (List.cons.inj shape).2⟩
    have shape := u.head_cases
    rw [← head] at shape
    obtain rfl : u = .invalid := shape
    rw [spell_invalid] at same
    have behind : "invalid ".toList ++ ("type".toList ++ rest) = "invalid ".toList ++ 't' :: ds :=
      same
    exact .inr (List.append_cancel_left behind).symm

/-- A name is a whole type if it is cut off by anything but a blank, a bracket or a star. -/
theorem named_cut (standalone : u.Standalone) {name : String}
    (identifier : Text.isIdentifier name = true) {c : Char} {rest cs : List Char}
    (ends : Ends rest) (cut : wordChar c = false) (other : c ≠ ' ' ∧ c ≠ '[' ∧ c ≠ '*')
    (same : ps.spell u ++ rest = name.toList ++ c :: cs) : rest = c :: cs := by
  have plain := PlainWord.of_identifier identifier
  have cut : Cut (c :: cs) := fun d first => by cases first; exact cut
  have head := headOf_spell ps standalone.legible standalone.single ends
  rw [same, headOf_word plain.chars plain.filled plain.own cut
    (fun _ ds blank => other.1 (List.cons.inj blank).1)] at head
  obtain ⟨plain', spelled, -⟩ :=
    word_cases ps standalone.legible standalone.single head.symm
  rw [spelled, List.append_assoc] at same
  obtain ⟨-, behind⟩ := word_append_inj plain'.chars plain.chars (suffix_cut ends).1 cut same
  rcases suffix_cases ps u with none | ⟨d, ds, more, rfl | rfl⟩
  · rwa [none, List.nil_append] at behind
  · rw [more] at behind
    exact absurd (List.cons.inj behind).1.symm other.2.1
  · rw [more] at behind
    exact absurd (List.cons.inj behind).1.symm other.2.2

/-- A type parameter with a mark is a whole type, whatever follows it. -/
theorem marked_cut (standalone : u.Standalone) {param : String}
    (identifier : Text.isIdentifier param = true) (marked : param ∈ universeNames)
    {rest cs : List Char} (ends : Ends rest)
    (same : ps.spell u ++ rest = ps.spell (.typeParam param) ++ cs) : rest = cs := by
  have legible : (Ty.typeParam param).Legible := .leaf identifier rfl
  have plain := typeParam_plain identifier
  have mark : ps.suffix (.typeParam param) = "* type parameter */".toList := if_pos marked
  have cut : Cut (ps.suffix (.typeParam param) ++ cs) := by
    rw [mark]
    exact fun c first => by cases first; decide
  rw [spell_typeParam, List.append_assoc] at same
  have head := headOf_spell ps standalone.legible standalone.single ends
  rw [same, headOf_word plain.chars plain.filled plain.own cut
    fun _ ds => by simp [mark]] at head
  obtain ⟨plain', spelled, -⟩ := word_cases ps standalone.legible standalone.single head.symm
  rw [spelled, List.append_assoc] at same
  obtain ⟨words, behind⟩ := word_append_inj plain'.chars plain.chars (suffix_cut ends).1 cut same
  rcases word_inj standalone.legible legible standalone.single rfl head.symm rfl
    (String.toList_inj.1 words) with rfl | ⟨path, name, mine, theirs, -, other⟩
  · exact List.append_cancel_left behind
  · cases other

/-- A type parameter with a blank behind it begins no type, with the exceptions that names have. -/
theorem param_gap (standalone : u.Standalone) {param : String}
    (identifier : Text.isIdentifier param = true) {rest cs : List Char} (ends : Ends rest)
    (same : ps.spell u ++ rest = (typeParamText param).toList ++ ' ' :: cs) :
    rest = ' ' :: cs ∨ cs = "type".toList ++ rest := by
  by_cases marked : param ∈ universeNames
  · exact .inl (marked_cut standalone identifier marked ends same)
  · rw [typeParamText, if_neg marked] at same
    exact named_gap standalone identifier ends same

/-- A type parameter is a whole type if it is cut off like a name. -/
theorem param_cut (standalone : u.Standalone) {param : String}
    (identifier : Text.isIdentifier param = true) {c : Char} {rest cs : List Char}
    (ends : Ends rest) (cut : wordChar c = false) (other : c ≠ ' ' ∧ c ≠ '[' ∧ c ≠ '*')
    (same : ps.spell u ++ rest = (typeParamText param).toList ++ c :: cs) : rest = c :: cs := by
  by_cases marked : param ∈ universeNames
  · exact marked_cut standalone identifier marked ends same
  · rw [typeParamText, if_neg marked] at same
    exact named_cut standalone identifier ends cut other same

/-- No type is spelled like the second word of one that could not be resolved. -/
theorem spell_ne_type (standalone : t.Standalone)
    {rest rest' : List Char} (ends : Ends rest) (ends' : Ends rest') :
    ps.spell t ++ rest ≠ "type".toList ++ rest' := by
  intro same
  have chars : ∀ c ∈ "type".toList, wordChar c = true := List.all_eq_true.1 (by decide)
  have head := headOf_spell ps standalone.legible standalone.single ends
  rw [same, headOf_word chars (by decide) (by decide) ends'.cut
    (fun invalid => absurd invalid (by decide))] at head
  obtain ⟨plain, spelled, -⟩ :=
    word_cases ps standalone.legible standalone.single head.symm
  rw [spelled, List.append_assoc] at same
  obtain ⟨words, -⟩ := word_append_inj plain.chars chars (suffix_cut ends).1 ends'.cut same
  exact plain.not_type (String.toList_inj.1 words)

/-! ## Variables -/

/-- A variable of a signature that can be written. -/
structure Variable.Standalone (v : Variable Ty) : Prop where
  named : v.name = "" ∨ Text.isIdentifier v.name = true
  type : v.type.Standalone

/-- The variable that is listed. -/
def unlisted (v : Listed) : Variable Ty := ⟨v.1, if v.2.1 then .slice v.2.2 else v.2.2⟩

theorem map_unlisted (variadic : Bool) (vars : List (Variable Ty)) :
    (listed variadic vars).map unlisted = vars := by
  fun_induction listed variadic vars with
  | case1 => rfl
  | case2 name elem => cases variadic <;> rfl
  | case3 => rfl
  | case4 name type rest _ _ ih => rw [List.map_cons, ih]; rfl

theorem any_listed {variadic : Bool} {vars : List (Variable Ty)}
    (slice : variadic = true → ∃ front name elem, vars = front ++ [⟨name, .slice elem⟩]) :
    (listed variadic vars).any (·.2.1) = variadic := by
  fun_induction listed variadic vars with
  | case1 =>
      cases variadic with
      | false => rfl
      | true =>
          obtain ⟨front, name, elem, shape⟩ := slice rfl
          simp at shape
  | case2 name elem => cases variadic <;> rfl
  | case3 name type other =>
      cases variadic with
      | false => rfl
      | true =>
          obtain ⟨front, last, elem, shape⟩ := slice rfl
          have same := congrArg List.getLast? shape
          simp only [List.getLast?_singleton, List.getLast?_append, Option.some_or,
            Option.some.injEq, Variable.mk.injEq] at same
          exact absurd same.2 (other elem)
  | case4 name type rest _ more ih =>
      rw [List.any_cons, Bool.false_or]
      refine ih fun isVariadic => ?_
      obtain ⟨front, last, elem, shape⟩ := slice isVariadic
      cases front with
      | nil => exact absurd (List.cons.inj shape).2 more
      | cons first front => exact ⟨front, last, elem, (List.cons.inj shape).2⟩

theorem Ty.Readable.of_slice {elem : Ty} (readable : (Ty.slice elem).Readable ps) :
    elem.Readable ps := by
  intro u rest rest' standalone ends ends' same
  have slice : (Ty.slice u).Standalone :=
    ⟨.of standalone.single fun c child => by
      rw [List.mem_singleton.1 child]; exact standalone.legible, rfl⟩
  have read := readable (.slice u) rest rest' slice ends ends'
    (by simp only [spell_slice, List.cons_append, same])
  exact ⟨Ty.slice.inj read.1, read.2⟩

theorem standalone_of_listed {variadic : Bool} {vars : List (Variable Ty)}
    (standalone : ∀ v ∈ vars, v.Standalone) {v : Listed} (member : v ∈ listed variadic vars) :
    (⟨v.1, v.2.2⟩ : Variable Ty).Standalone := by
  have here := standalone (unlisted v) (by
    rw [← map_unlisted variadic vars]
    exact List.mem_map_of_mem member)
  obtain ⟨name, dots, t⟩ := v
  cases dots with
  | false => exact here
  | true =>
      exact ⟨here.named, here.type.legible.child List.mem_cons_self, here.type.legible.clear⟩

theorem readable_of_listed {variadic : Bool} {vars : List (Variable Ty)}
    (readable : ∀ v ∈ vars, v.type.Readable ps) {v : Listed}
    (member : v ∈ listed variadic vars) : v.2.2.Readable ps := by
  have here := readable (unlisted v) (by
    rw [← map_unlisted variadic vars]
    exact List.mem_map_of_mem member)
  obtain ⟨name, dots, t⟩ := v
  cases dots with
  | false => exact here
  | true => exact Ty.Readable.of_slice here

/-- What follows a variable in a list. -/
def Divided (rest : List Char) : Prop := ∃ cs, rest = ',' :: cs ∨ rest = ')' :: cs

theorem Divided.ends {rest : List Char} (divided : Divided rest) : Ends rest := by
  obtain ⟨cs, rfl | rfl⟩ := divided <;> simp [Ends]

/-- Dots, if they are wanted. -/
def dotted (dots : Bool) : List Char := if dots then ['.', '.', '.'] else []

/-- A listed variable with a name is not spelled like one without. -/
theorem named_ne_unnamed (standalone : t.Standalone)
    (standalone' : u.Standalone) {name : String} (identifier : Text.isIdentifier name = true)
    (dots dots' : Bool) {rest rest' : List Char} (divided : Divided rest)
    (divided' : Divided rest') :
    name.toList ++ ' ' :: (dotted dots ++ (ps.spell t ++ rest)) ≠
      dotted dots' ++ (ps.spell u ++ rest') := by
  intro same
  cases dots' with
  | true =>
      exact identifier_ne_cons identifier (by decide) _ _ same
  | false =>
      rcases named_gap standalone' identifier divided'.ends same.symm with blank | behind
      · obtain ⟨cs, rfl | rfl⟩ := divided' <;> simp at blank
      · cases dots with
        | true => simp [dotted] at behind
        | false => exact spell_ne_type standalone divided.ends divided'.ends behind

/-- A listed variable determines its name, its type and whether there are dots. -/
theorem spellListed_inj {v w : Listed}
    (standalone : (⟨v.1, v.2.2⟩ : Variable Ty).Standalone)
    (readable : v.2.2.Readable ps)
    (standalone' : (⟨w.1, w.2.2⟩ : Variable Ty).Standalone) {rest rest' : List Char}
    (divided : Divided rest) (divided' : Divided rest')
    (same : ps.spellListed v ++ rest = ps.spellListed w ++ rest') : v = w ∧ rest = rest' := by
  obtain ⟨name, dots, t⟩ := v
  obtain ⟨name', dots', u⟩ := w
  obtain ⟨named, standalone⟩ := standalone
  obtain ⟨named', standalone'⟩ := standalone'
  -- behind the names
  have types (same : dotted dots ++ (ps.spell t ++ rest) = dotted dots' ++ (ps.spell u ++ rest')) :
      (dots, t) = (dots', u) ∧ rest = rest' := by
    have read (same : ps.spell t ++ rest = ps.spell u ++ rest') :=
      readable u rest rest' standalone' divided.ends divided'.ends same
    cases dots <;> cases dots'
    · obtain ⟨rfl, rest⟩ := read same
      exact ⟨rfl, rest⟩
    · exact absurd same
        (spell_ne_cons standalone.legible standalone.single (by decide) _ _)
    · exact absurd same.symm
        (spell_ne_cons standalone'.legible standalone'.single (by decide) _ _)
    · obtain ⟨rfl, rest⟩ := read (List.append_cancel_left same)
      exact ⟨rfl, rest⟩
  have spelled (name : String) (dots : Bool) (t : Ty) (rest : List Char) :
      ps.spellListed (name, dots, t) ++ rest =
        (if name = "" then [] else name.toList ++ [' ']) ++
          (dotted dots ++ (ps.spell t ++ rest)) := by
    simp [spellListed, dotted]
  rw [spelled, spelled] at same
  have identifier (other : name ≠ "") : Text.isIdentifier name = true :=
    named.resolve_left other
  have identifier' (other : name' ≠ "") : Text.isIdentifier name' = true :=
    named'.resolve_left other
  by_cases unnamed : name = "" <;> by_cases unnamed' : name' = ""
  · rw [if_pos unnamed, if_pos unnamed', List.nil_append, List.nil_append] at same
    obtain ⟨behind, rest⟩ := types same
    rw [unnamed, unnamed', behind]
    exact ⟨rfl, rest⟩
  · rw [if_pos unnamed, if_neg unnamed', List.nil_append, List.append_assoc,
      List.singleton_append] at same
    exact absurd same.symm (named_ne_unnamed standalone' standalone (identifier' unnamed')
      dots' dots divided' divided)
  · rw [if_neg unnamed, if_pos unnamed', List.nil_append, List.append_assoc,
      List.singleton_append] at same
    exact absurd same (named_ne_unnamed standalone standalone' (identifier unnamed)
      dots dots' divided divided')
  · rw [if_neg unnamed, if_neg unnamed', List.append_assoc, List.append_assoc,
      List.singleton_append, List.singleton_append] at same
    obtain ⟨rfl, behind⟩ :=
      identifier_append_inj (identifier unnamed) (identifier' unnamed') (by decide) same
    obtain ⟨behind, rest⟩ := types behind
    rw [behind]
    exact ⟨rfl, rest⟩

theorem spellListed_ne_close {v : Listed}
    (standalone : (⟨v.1, v.2.2⟩ : Variable Ty).Standalone) (rest cs : List Char) :
    ps.spellListed v ++ rest ≠ ')' :: cs := by
  obtain ⟨name, dots, t⟩ := v
  intro same
  by_cases unnamed : name = ""
  · cases dots with
    | true => simp [spellListed, unnamed] at same
    | false =>
        simp only [spellListed, if_pos unnamed, List.nil_append] at same
        exact spell_ne_cons standalone.type.legible standalone.type.single (by decide) _ _
          same
  · simp only [spellListed, if_neg unnamed, List.append_assoc] at same
    exact identifier_ne_cons (standalone.named.resolve_left unnamed) (by decide) _ _ same

/-- A list of variables in parentheses determines the variables, and whether it is variadic. -/
theorem spellVariables_inj {variadic variadic' : Bool}
    {vars vars' : List (Variable Ty)} (standalone : ∀ v ∈ vars, v.Standalone)
    (readable : ∀ v ∈ vars, v.type.Readable ps)
    (standalone' : ∀ v ∈ vars', v.Standalone)
    (slice : variadic = true → ∃ front name elem, vars = front ++ [⟨name, .slice elem⟩])
    (slice' : variadic' = true → ∃ front name elem, vars' = front ++ [⟨name, .slice elem⟩])
    {rest rest' : List Char}
    (same : ps.spellVariables variadic vars ++ ')' :: rest =
      ps.spellVariables variadic' vars' ++ ')' :: rest') :
    vars = vars' ∧ variadic = variadic' ∧ rest = rest' := by
  rw [spellVariables, spellVariables] at same
  obtain ⟨lists, rest⟩ := join_closed_inj (P := Divided)
    (fun v member w member' rest rest' =>
      spellListed_inj (standalone_of_listed standalone member)
        (readable_of_listed readable member) (standalone_of_listed standalone' member'))
    (fun rest => ⟨_, .inl rfl⟩) (fun rest => ⟨_, .inr rfl⟩) (by decide)
    (fun v member => by
      rcases member with member | member
      · exact spellListed_ne_close (standalone_of_listed standalone member)
      · exact spellListed_ne_close (standalone_of_listed standalone' member))
    same
  refine ⟨?_, ?_, rest⟩
  · rw [← map_unlisted variadic vars, lists, map_unlisted]
  · rw [← any_listed slice, lists, any_listed slice']

/-! ## Signatures -/

/-- A signature that can be written. -/
structure Signature.Standalone (s : Signature Ty) : Prop where
  params : ∀ v ∈ s.params, v.Standalone
  results : ∀ v ∈ s.results, v.Standalone
  variadic : s.variadic = true → ∃ front name elem, s.params = front ++ [⟨name, .slice elem⟩]

/-- The types of the variables are readable. -/
def Signature.Readable (ps : Packages) (s : Signature Ty) : Prop :=
  ∀ v ∈ s.params ++ s.results, v.type.Readable ps

theorem results_cases (ps : Packages) (results : List (Variable Ty)) :
    results = [] ∨ (∃ t, results = [⟨"", t⟩]) ∨
      ps.spellResults results = ' ' :: '(' :: (ps.spellVariables false results ++ [')']) := by
  cases results with
  | nil => exact .inl rfl
  | cons first rest =>
      by_cases alone : ∃ t, first :: rest = [⟨"", t⟩]
      · exact .inr (.inl alone)
      · refine .inr (.inr ?_)
        rw [spellResults]
        · exact List.cons_ne_nil _ _
        · exact not_exists.1 alone

/-- A blank that may follow a type is not followed by what a type or a list of types begins with. -/
theorem Ends.not_blank {rest : List Char} (ends : Ends rest) {c : Char} {cs : List Char}
    (other : c ≠ '"' ∧ c ≠ '|') : rest ≠ ' ' :: c :: cs := by
  rintro rfl
  exact ends.elim other.1 other.2

/-- What follows a function does not look like its only result. -/
theorem Ends.not_result (standalone : t.Standalone)
    {rest : List Char} (ends : Ends rest) (cs : List Char) : rest ≠ ' ' :: (ps.spell t ++ cs) := by
  have closed : opening '"' = false ∧ opening '|' = false := by decide
  obtain ⟨c, ds, shape, opens⟩ :=
    spell_opens ps standalone.legible standalone.single
  rw [shape]
  refine ends.not_blank ⟨?_, ?_⟩ <;> rintro rfl <;> simp [closed] at opens

/-- The results of a function determine themselves, and what follows the function. -/
theorem spellResults_inj {results results' : List (Variable Ty)}
    (standalone : ∀ v ∈ results, v.Standalone)
    (readable : ∀ v ∈ results, v.type.Readable ps)
    (standalone' : ∀ v ∈ results', v.Standalone) {rest rest' : List Char} (ends : Ends rest)
    (ends' : Ends rest')
    (same : ps.spellResults results ++ rest = ps.spellResults results' ++ rest') :
    results = results' ∧ rest = rest' := by
  have only {t : Ty} (listed : ∀ v ∈ [(⟨"", t⟩ : Variable Ty)], v.Standalone) :
      t.Standalone := (listed _ List.mem_cons_self).type
  have several {t : Ty} (standalone : t.Standalone) (rest cs : List Char) :
      ps.spell t ++ rest ≠ '(' :: cs :=
    spell_ne_cons standalone.legible standalone.single (by decide) rest cs
  rcases results_cases ps results with rfl | ⟨t, rfl⟩ | shape <;>
    rcases results_cases ps results' with rfl | ⟨u, rfl⟩ | shape'
  · exact ⟨rfl, same⟩
  · exact absurd same (ends.not_result (only standalone') _)
  · rw [shape'] at same
    exact absurd same (ends.not_blank (by decide))
  · exact absurd same.symm (ends'.not_result (only standalone) _)
  · obtain ⟨rfl, rest⟩ := readable _ List.mem_cons_self u rest rest' (only standalone') ends ends'
      (List.cons.inj same).2
    exact ⟨rfl, rest⟩
  · rw [shape'] at same
    exact absurd (List.cons.inj same).2 (several (only standalone) _ _)
  · rw [shape] at same
    exact absurd same.symm (ends'.not_blank (by decide))
  · rw [shape] at same
    exact absurd (List.cons.inj same).2.symm (several (only standalone') _ _)
  · rw [shape, shape'] at same
    simp only [List.cons_append, List.append_assoc, List.nil_append, List.cons.injEq,
      true_and] at same
    obtain ⟨same, -, rest⟩ := spellVariables_inj standalone readable standalone'
      (fun dots => absurd dots Bool.false_ne_true) (fun dots => absurd dots Bool.false_ne_true) same
    exact ⟨same, rest⟩

/-- A signature is determined by its spelling, which also tells where it ends. -/
theorem spellSignature_inj {s s' : Signature Ty}
    (standalone : s.Standalone) (readable : s.Readable ps)
    (standalone' : s'.Standalone) {rest rest' : List Char} (ends : Ends rest)
    (ends' : Ends rest') (same : ps.spellSignature s ++ rest = ps.spellSignature s' ++ rest') :
    s = s' ∧ rest = rest' := by
  obtain ⟨params, results, variadic⟩ := s
  obtain ⟨params', results', variadic'⟩ := s'
  simp only [spellSignature, List.cons_append, List.append_assoc, List.cons.injEq,
    true_and] at same
  obtain ⟨rfl, rfl, behind⟩ := spellVariables_inj standalone.params
    (fun v member => readable v (List.mem_append_left _ member)) standalone'.params
    standalone.variadic standalone'.variadic same
  obtain ⟨rfl, rest⟩ := spellResults_inj standalone.results
    (fun v member => readable v (List.mem_append_right _ member)) standalone'.results ends ends'
    behind
  exact ⟨rfl, rest⟩

/-! ## Fields -/

/-- What follows a field. -/
def Separated (rest : List Char) : Prop := ∃ cs, rest = ';' :: cs ∨ rest = '\x7d' :: cs

theorem Separated.ends {rest : List Char} (separated : Separated rest) : Ends rest := by
  obtain ⟨cs, rfl | rfl⟩ := separated <;> simp [Ends]

theorem tag_ends (tag : String) {rest : List Char} (separated : Separated rest) :
    Ends (spellTag tag ++ rest) := by
  rw [spellTag]
  split
  · exact separated.ends
  · rw [Text.quote_toList]
    exact .inl rfl

theorem spellTag_inj {tag tag' : String} {rest rest' : List Char} (separated : Separated rest)
    (separated' : Separated rest') (same : spellTag tag ++ rest = spellTag tag' ++ rest') :
    tag = tag' ∧ rest = rest' := by
  have unlike {rest cs : List Char} (separated : Separated rest) : rest ≠ ' ' :: cs := by
    obtain ⟨ds, rfl | rfl⟩ := separated <;> simp
  by_cases untagged : tag = "" <;> by_cases untagged' : tag' = ""
  · simp only [spellTag, if_pos untagged, if_pos untagged', List.nil_append] at same
    exact ⟨untagged.trans untagged'.symm, same⟩
  · simp only [spellTag, if_pos untagged, if_neg untagged', List.nil_append,
      List.cons_append] at same
    exact absurd same (unlike separated)
  · simp only [spellTag, if_neg untagged, if_pos untagged', List.nil_append,
      List.cons_append] at same
    exact absurd same.symm (unlike separated')
  · simp only [spellTag, if_neg untagged, if_neg untagged', List.cons_append, List.cons.injEq,
      true_and] at same
    exact Text.quote_append_inj same

/-- A field of a struct that can be written. -/
structure Field.Standalone (f : Field Ty) : Prop where
  clear : f.Clear
  type : f.type.Standalone

/-- A field with a name is not spelled like an embedded one. -/
theorem field_ne_embedded (standalone : t.Standalone)
    (standalone' : u.Standalone) {name : String} (identifier : Text.isIdentifier name = true)
    {rest rest' : List Char} (ends : Ends rest) (ends' : Ends rest') :
    name.toList ++ ' ' :: (ps.spell t ++ rest) ≠ ps.spell u ++ rest' := by
  intro same
  rcases named_gap standalone' identifier ends' same.symm with blank | behind
  · exact ends'.not_result standalone _ blank
  · exact spell_ne_type standalone ends ends' behind

theorem spellField_inj {f f' : Field Ty} (standalone : f.Standalone)
    (readable : f.type.Readable ps) (standalone' : f'.Standalone)
    {rest rest' : List Char} (separated : Separated rest) (separated' : Separated rest')
    (same : ps.spellField f ++ rest = ps.spellField f' ++ rest') : f = f' ∧ rest = rest' := by
  obtain ⟨name, t, tag, embedded⟩ := f
  obtain ⟨name', u, tag', embedded'⟩ := f'
  have ends := tag_ends tag separated
  have ends' := tag_ends tag' separated'
  -- behind the names
  have types (same : ps.spell t ++ (spellTag tag ++ rest) =
      ps.spell u ++ (spellTag tag' ++ rest')) : (t = u ∧ tag = tag') ∧ rest = rest' := by
    obtain ⟨type, behind⟩ := readable u _ _ standalone'.type ends ends' same
    obtain ⟨tag, rest⟩ := spellTag_inj separated separated' behind
    exact ⟨⟨type, tag⟩, rest⟩
  simp only [spellField, List.append_assoc] at same
  cases embedded <;> cases embedded'
  · simp only [Bool.false_eq_true, if_false, List.append_assoc, List.singleton_append] at same
    obtain ⟨rfl, behind⟩ := identifier_append_inj standalone.clear.named standalone'.clear.named
      (by decide) same
    obtain ⟨⟨rfl, rfl⟩, rest⟩ := types behind
    exact ⟨rfl, rest⟩
  · simp only [Bool.false_eq_true, if_false, if_true, List.append_assoc, List.singleton_append,
      List.nil_append] at same
    exact absurd same (field_ne_embedded standalone.type standalone'.type
      standalone.clear.named ends ends')
  · simp only [Bool.false_eq_true, if_false, if_true, List.append_assoc, List.singleton_append,
      List.nil_append] at same
    exact absurd same.symm (field_ne_embedded standalone'.type standalone.type
      standalone'.clear.named ends' ends)
  · simp only [if_true, List.nil_append] at same
    obtain ⟨⟨rfl, rfl⟩, rest⟩ := types same
    have sameName := (standalone.clear.embedded rfl).symm.trans (standalone'.clear.embedded rfl)
    obtain rfl : name = name' := Option.some.inj sameName
    exact ⟨rfl, rest⟩

/-! ## Unions -/

/-- The types that unions are made of are told from their spelling, and so is any other type. -/
def Ty.Told (ps : Packages) : Ty → Prop
  | .union terms => ∀ term ∈ terms, term.type.Readable ps
  | t => t.Readable ps

theorem Ty.Told.readable (told : t.Told ps) (single : t.isUnion = false) :
    t.Readable ps := by
  cases t with
  | union => simp [isUnion] at single
  | _ => exact told

/-- What can follow a type that may be a union: not another term. -/
def Stops (rest : List Char) : Prop := Ends rest ∧ ¬ " | ".toList <+: rest

theorem term_standalone {terms : List (Term Ty)} (legible : (Ty.union terms).Legible)
    {term : Term Ty} (member : term ∈ terms) : term.type.Standalone :=
  ⟨legible.child (List.mem_map_of_mem member), legible.clear.1 term member⟩

theorem spellTerm_inj {term term' : Term Ty}
    (standalone : term.type.Standalone) (readable : term.type.Readable ps)
    (standalone' : term'.type.Standalone) {rest rest' : List Char} (ends : Ends rest)
    (ends' : Ends rest') (same : ps.spellTerm term ++ rest = ps.spellTerm term' ++ rest') :
    term = term' ∧ rest = rest' := by
  obtain ⟨tilde, t⟩ := term
  obtain ⟨tilde', u⟩ := term'
  have read (same : ps.spell t ++ rest = ps.spell u ++ rest') :=
    readable u rest rest' standalone' ends ends' same
  cases tilde <;> cases tilde'
  · obtain ⟨rfl, rest⟩ := read same
    exact ⟨rfl, rest⟩
  · exact absurd same (spell_ne_cons standalone.legible standalone.single (by decide) _ _)
  · exact absurd same.symm
      (spell_ne_cons standalone'.legible standalone'.single (by decide) _ _)
  · obtain ⟨rfl, rest⟩ := read (List.cons.inj same).2
    exact ⟨rfl, rest⟩

theorem bar_ends (cs : List Char) : Ends (" | ".toList ++ cs) := Or.inr rfl

/-- A union begins with a tilde, or with a type that another term follows. -/
theorem union_cases (ps : Packages) {terms : List (Term Ty)}
    (legible : (Ty.union terms).Legible) (rest : List Char) :
    (∃ cs, ps.spell (.union terms) ++ rest = '~' :: cs) ∨
      ∃ term ∈ terms, ∃ cs, ps.spell (.union terms) ++ rest =
        ps.spell term.type ++ (" | ".toList ++ cs) := by
  have shape := legible.clear.2
  match terms with
  | [] => simp at shape
  | [⟨tilde, t⟩] =>
      obtain rfl : tilde = true := by simpa using shape
      exact .inl ⟨ps.spell t ++ rest, by simp [spell_union, spellTerm]⟩
  | ⟨true, t⟩ :: second :: more =>
      exact .inl ⟨_, by rw [spell_union]; simp [spellTerm]; rfl⟩
  | ⟨false, t⟩ :: second :: more =>
      rw [spell_union, List.map_cons, List.map_cons, List.intercalate_cons_cons, List.append_assoc,
        List.append_assoc]
      exact .inr ⟨⟨false, t⟩, List.mem_cons_self, _, rfl⟩

/-- A union is not spelled like a type that is none. -/
theorem union_ne_single {terms : List (Term Ty)}
    (legible : (Ty.union terms).Legible) (standalone : u.Standalone)
    (read : ∀ term ∈ terms, ∀ rest rest', Ends rest → Ends rest' →
      ps.spell term.type ++ rest = ps.spell u ++ rest' → rest = rest')
    (rest : List Char) {rest' : List Char} (stops : Stops rest') :
    ps.spell (.union terms) ++ rest ≠ ps.spell u ++ rest' := by
  intro same
  rcases union_cases ps legible rest with ⟨cs, tilde⟩ | ⟨term, member, cs, shape⟩
  · rw [tilde] at same
    exact spell_ne_cons standalone.legible standalone.single (by decide) _ _ same.symm
  · rw [shape] at same
    have behind := read term member _ _ (bar_ends cs) stops.1 same
    exact stops.2 ⟨cs, behind⟩

/-- A legible type, a union or not, is determined by its spelling. -/
theorem told_inj (legible : t.Legible) (told : t.Told ps)
    (legible' : u.Legible) {rest rest' : List Char} (stops : Stops rest)
    (stops' : Stops rest') (same : ps.spell t ++ rest = ps.spell u ++ rest') :
    t = u ∧ rest = rest' := by
  cases single : t.isUnion <;> cases single' : u.isUnion
  · exact told.readable single u rest rest' ⟨legible', single'⟩ stops.1 stops'.1 same
  · obtain ⟨terms, rfl⟩ := eq_union single'
    refine absurd same.symm (union_ne_single legible' ⟨legible, single⟩ ?_ rest' stops)
    intro term member cs cs' ends ends' same
    exact (told.readable single _ _ _ (term_standalone legible' member) ends' ends same.symm).2.symm
  · obtain ⟨terms, rfl⟩ := eq_union single
    refine absurd same (union_ne_single legible ⟨legible', single'⟩ ?_ rest stops')
    intro term member cs cs' ends ends' same
    exact (told term member _ _ _ ⟨legible', single'⟩ ends ends' same).2
  · obtain ⟨terms, rfl⟩ := eq_union single
    obtain ⟨terms', rfl⟩ := eq_union single'
    have filled {terms : List (Term Ty)} (legible : (Ty.union terms).Legible) :
        terms ≠ [] := by
      rintro rfl
      simpa using legible.clear.2
    rw [spell_union, spell_union] at same
    obtain ⟨rfl, rest⟩ := join_inj (P := Ends)
      (fun term member term' member' rest rest' =>
        spellTerm_inj (term_standalone legible member) (told term member)
          (term_standalone legible' member'))
      bar_ends stops.1 stops'.1 stops.2 stops'.2 (filled legible) (filled legible')
      same
    exact ⟨rfl, rest⟩

/-! ## Interfaces -/

/-- What an interface lists: a method, or a type that it embeds. -/
def spellElement (ps : Packages) : Method Ty ⊕ Ty → List Char := Sum.elim ps.spellMethod ps.spell

/-- An element of an interface that can be written. -/
def LegibleElement : Method Ty ⊕ Ty → Prop
  | .inl m => Text.isIdentifier m.name = true ∧ m.signature.Standalone
  | .inr t => t.Legible

/-- The types in an element of an interface are told from their spelling. -/
def ToldElement (ps : Packages) : Method Ty ⊕ Ty → Prop
  | .inl m => m.signature.Readable ps
  | .inr t => t.Told ps

theorem Separated.stops {rest : List Char} (separated : Separated rest) : Stops rest := by
  refine ⟨separated.ends, ?_⟩
  obtain ⟨cs, rfl | rfl⟩ := separated <;>
    exact fun start => absurd (List.cons_prefix_cons.1 start).1 (by decide)

/-- A method is not spelled like a type. -/
theorem method_ne_type {m : Method Ty}
    (identifier : Text.isIdentifier m.name = true) (legible : u.Legible)
    (rest : List Char) {rest' : List Char} (ends : Ends rest') :
    ps.spellMethod m ++ rest ≠ ps.spell u ++ rest' := by
  obtain ⟨cs, spelled⟩ : ∃ cs, ps.spellMethod m ++ rest = m.name.toList ++ '(' :: cs := by
    rw [spellMethod, spellSignature, List.append_assoc, List.cons_append]
    exact ⟨_, rfl⟩
  have single {t : Ty} (standalone : t.Standalone) {rest' : List Char} (ends : Ends rest') :
      ps.spell t ++ rest' ≠ m.name.toList ++ '(' :: cs := by
    intro same
    have behind := named_cut standalone identifier ends (by decide) (by decide) same
    simp [behind, Ends] at ends
  rw [spelled]
  cases union : u.isUnion with
  | false => exact fun same => single ⟨legible, union⟩ ends same.symm
  | true =>
      obtain ⟨terms, rfl⟩ := eq_union union
      intro same
      rcases union_cases ps legible rest' with ⟨ds, tilde⟩ | ⟨term, member, ds, shape⟩
      · rw [tilde] at same
        exact identifier_ne_cons identifier (by decide) _ _ same
      · rw [shape] at same
        exact single (term_standalone legible member) (bar_ends ds) same.symm

theorem spellElement_inj {e e' : Method Ty ⊕ Ty}
    (legible : LegibleElement e) (told : ToldElement ps e)
    (legible' : LegibleElement e') {rest rest' : List Char} (separated : Separated rest)
    (separated' : Separated rest')
    (same : spellElement ps e ++ rest = spellElement ps e' ++ rest') : e = e' ∧ rest = rest' := by
  cases e with
  | inl m =>
      cases e' with
      | inl m' =>
          obtain ⟨name, signature⟩ := m
          obtain ⟨name', signature'⟩ := m'
          have opens (s : Signature Ty) : ∃ cs, ps.spellSignature s = '(' :: cs := ⟨_, rfl⟩
          obtain ⟨cs, first⟩ := opens signature
          obtain ⟨cs', first'⟩ := opens signature'
          simp only [spellElement, Sum.elim_inl, spellMethod, List.append_assoc] at same
          have divided := same
          rw [first, first'] at divided
          obtain ⟨rfl, -⟩ := identifier_append_inj legible.1 legible'.1 (by decide) divided
          obtain ⟨rfl, rest⟩ := spellSignature_inj legible.2 told legible'.2 separated.ends
            separated'.ends (List.append_cancel_left same)
          exact ⟨rfl, rest⟩
      | inr u => exact absurd same (method_ne_type legible.1 legible' _ separated'.ends)
  | inr t =>
      cases e' with
      | inl m => exact absurd same.symm (method_ne_type legible'.1 legible _ separated.ends)
      | inr u =>
          obtain ⟨rfl, rest⟩ :=
            told_inj legible told legible' separated.stops separated'.stops same
          exact ⟨rfl, rest⟩

end

end ComposeStability.Program
