/-
# Proofs.Program.Nested -- texts with nested brackets

A text is nested if its brackets are paired and its commas stand inside of them,
leaving aside the tags it quotes, and if it has no colons and no line breaks.
Such a text stands on one line, and it can mislead a reader of brackets, commas
and colons only by its tags (`Nested.enclosed`, `Nested.closed`).  If its first
and last characters are visible, it is told from the blanks around it (`Shown`).
-/
import ComposeStability.Proofs.Report.Signature

namespace ComposeStability.Program

set_option autoImplicit false

/-! ## Nested texts -/

/-- Brackets of all kinds. -/
def bracketPairs : List (String × String) := [("(", ")"), ("[", "]"), ("\x7b", "\x7d")]

/-- Brackets are paired outside of quoted tags, and commas and tags stand inside brackets, or
anywhere, if the text itself is `inside` of them. -/
inductive Nested (tags : String → Prop) : Bool → String → Prop where
  | plain {inside : Bool} {s : String} (unmarked : Text.Unmarked s) :
      Nested tags inside s
  | comma : Nested tags true ", "
  | tag {s : String} (tagged : tags s) : Nested tags true (Text.quote s)
  | append {inside : Bool} {s t : String} (first : Nested tags inside s)
      (second : Nested tags inside t) : Nested tags inside (s ++ t)
  | group {inside : Bool} {left s right : String} (pair : (left, right) ∈ bracketPairs)
      (nested : Nested tags true s) : Nested tags inside (left ++ s ++ right)

/-- Inside brackets, a text pairs its own brackets and exposes no commas. -/
structure Sealed (cs : List Char) : Prop where
  balanced : Report.bracketDepth cs = 0
  commas : Report.CommasInside 1 cs

instance (cs : List Char) : Decidable (Sealed cs) :=
  decidable_of_iff (Report.bracketDepth cs = 0 ∧ Report.CommasInside 1 cs)
    ⟨fun h => ⟨h.1, h.2⟩, fun h => ⟨h.1, h.2⟩⟩

/-- Nothing looks like the end of a parameter list, nor can anything be put before or behind that
makes it look so. -/
structure Closed (cs : List Char) : Prop where
  open_end : ¬ "): ".toList <:+: cs
  head : cs.head? ≠ some ':'
  last : cs.getLast? ≠ some ':'

theorem Closed.of_not_mem {cs : List Char} (no_colon : ':' ∉ cs) : Closed cs where
  open_end inside := no_colon (inside.subset (by decide))
  head first := no_colon (List.mem_of_mem_head? first)
  last ends := no_colon (List.mem_of_getLast? ends)

theorem not_infix_append {cs ds : List Char} (first : ¬ "): ".toList <:+: cs)
    (last : cs.getLast? ≠ some ':') (second : ¬ "): ".toList <:+: ds)
    (head : ds.head? ≠ some ':') : ¬ "): ".toList <:+: cs ++ ds := by
  have shape : "): ".toList = [')', ':', ' '] := rfl
  rw [shape] at first second ⊢
  induction cs with
  | nil => exact second
  | cons c cs ih =>
      rw [List.infix_cons_iff, not_or] at first
      rw [List.cons_append, List.infix_cons_iff, not_or]
      constructor
      · -- The end starts at `c`: it is all in the first text, or the colon ends or starts one.
        intro start
        rcases cs with _ | ⟨d, _ | ⟨e, cs⟩⟩
        · cases ds with
          | nil => simp at start
          | cons d ds =>
              simp only [List.nil_append, List.cons_prefix_cons] at start
              exact head (by rw [← start.2.1]; rfl)
        · simp only [List.singleton_append, List.cons_prefix_cons] at start
          exact last (by rw [← start.2.1]; rfl)
        · refine first.1 ?_
          simp only [List.cons_append, List.cons_prefix_cons, List.nil_prefix, and_true] at start ⊢
          exact start
      · refine ih first.2 fun ends => last ?_
        cases cs with
        | nil => simp at ends
        | cons d cs => simpa using ends

theorem Closed.append {cs ds : List Char} (first : Closed cs) (second : Closed ds) :
    Closed (cs ++ ds) where
  open_end := not_infix_append first.open_end first.last second.open_end second.head
  head := by
    cases cs with
    | nil => exact second.head
    | cons c cs => exact first.head
  last := by
    cases ends : ds.getLast? with
    | none =>
        rw [List.getLast?_eq_none_iff.1 ends, List.append_nil]
        exact first.last
    | some d => simpa [List.getLast?_append, ends] using second.last

namespace Nested

variable {tags : String → Prop} {inside : Bool}

theorem within {s : String} (nested : Nested tags inside s) : Nested tags true s := by
  induction nested with
  | plain unmarked => exact .plain unmarked
  | comma => exact .comma
  | tag tagged => exact .tag tagged
  | append first second ih ih' => exact .append ih ih'
  | group pair nested => exact .group pair nested

theorem mono {tags' : String → Prop} (more : ∀ tag, tags tag → tags' tag) {s : String}
    (nested : Nested tags inside s) : Nested tags' inside s := by
  induction nested with
  | plain unmarked => exact .plain unmarked
  | comma => exact .comma
  | tag tagged => exact .tag (more _ tagged)
  | append first second ih ih' => exact .append ih ih'
  | group pair nested ih => exact .group pair ih

theorem join {sep : String} (between : Nested tags inside sep) {texts : List String}
    (each : ∀ s ∈ texts, Nested tags inside s) : Nested tags inside (sep.intercalate texts) := by
  induction texts with
  | nil => exact .plain (by simp [Text.Unmarked])
  | cons first texts ih =>
      have here := each first List.mem_cons_self
      have later := ih fun s member => each s (List.mem_cons_of_mem first member)
      cases texts with
      | nil => simpa using here
      | cons next texts => simpa using (here.append between).append later

/-- A nested text stands on one line. -/
theorem unbroken {s : String} (nested : Nested tags inside s) : '\n' ∉ s.toList := by
  induction nested with
  | plain unmarked => exact fun member => unmarked _ member (by decide)
  | comma => decide
  | tag tagged => exact Text.quote_unbroken _
  | append first second ih ih' => simpa using ⟨ih, ih'⟩
  | group pair nested ih =>
      have brackets : ∀ pair ∈ bracketPairs, '\n' ∉ pair.1.toList ∧ '\n' ∉ pair.2.toList := by
        decide
      have outer := brackets _ pair
      simpa using ⟨outer.1, ih, outer.2⟩

/-- How deep in brackets a text stands at least. -/
def depthOf (inside : Bool) : Int := if inside then 1 else 0

/-- Where tags pair their brackets and expose no commas, so does the text around them. -/
theorem commas (harmless : ∀ tag, tags tag → Sealed (Text.quote tag).toList) {s : String}
    (nested : Nested tags inside s) :
    Report.bracketDepth s.toList = 0 ∧ Report.CommasInside (depthOf inside) s.toList := by
  induction nested with
  | @plain inside s unmarked =>
      have level := Report.plain_prepend (fun c member => Report.unmarked_level (unmarked c member))
        (depthOf inside) []
      rw [List.append_nil] at level
      exact ⟨level.1, level.2.2 (fun n short => absurd short (Nat.not_lt_zero n))⟩
  | comma => decide
  | tag tagged => exact ⟨(harmless _ tagged).balanced, (harmless _ tagged).commas⟩
  | append first second ih ih' =>
      rw [String.toList_append, Report.bracketDepth_append, Report.commasInside_append, ih.1, ih'.1]
      exact ⟨rfl, ih.2, by simpa using ih'.2⟩
  | @group inside left s right pair nested ih =>
      have brackets : ∀ pair ∈ bracketPairs, ∀ inside : Bool,
          (Report.bracketDepth pair.1.toList = 1 ∧ Report.bracketDepth pair.2.toList = -1) ∧
          Report.CommasInside (depthOf inside) pair.1.toList ∧
          Report.CommasInside (depthOf inside + 1) pair.2.toList := by decide
      obtain ⟨⟨opens, closes⟩, before, after⟩ := brackets _ pair inside
      simp only [String.toList_append, Report.bracketDepth_append, Report.commasInside_append, ih.1,
        opens, closes]
      have deeper : depthOf true ≤ depthOf inside + 1 := by cases inside <;> decide
      exact ⟨rfl, ⟨before, ih.2.deeper deeper⟩, by simpa using after⟩

theorem enclosed (harmless : ∀ tag, tags tag → Sealed (Text.quote tag).toList) {s : String}
    (nested : Nested tags false s) : Report.Enclosed s.toList := by
  obtain ⟨balanced, commas⟩ := nested.commas harmless
  exact ⟨balanced, fun n short comma => by simpa [depthOf] using commas n short comma⟩

/-- Where no tag looks like the end of a parameter list, nothing in the text around it does. -/
theorem closed (harmless : ∀ tag, tags tag → ¬ "): ".toList <:+: (Text.quote tag).toList)
    {s : String} (nested : Nested tags inside s) : Closed s.toList := by
  induction nested with
  | plain unmarked =>
      have no_colon : ':' ∉ _ := fun member => unmarked ':' member (by decide)
      exact .of_not_mem no_colon
  | comma => exact .of_not_mem (by decide)
  | @tag s tagged =>
      refine ⟨harmless s tagged, ?_, ?_⟩
      · simp [Text.quote_toList]
      · simp [Text.quote_toList, List.getLast?_cons]
  | append first second ih ih' =>
      rw [String.toList_append]
      exact ih.append ih'
  | group pair nested ih =>
      have brackets : ∀ pair ∈ bracketPairs, ':' ∉ pair.1.toList ∧ ':' ∉ pair.2.toList := by decide
      obtain ⟨left, right⟩ := brackets _ pair
      simp only [String.toList_append]
      exact ((Closed.of_not_mem left).append ih).append (.of_not_mem right)

end Nested

/-! ## Texts between visible characters -/

def startsVisible (s : String) : Bool := s.toList.head?.any fun c => !Text.isBlank c

def endsVisible (s : String) : Bool := s.toList.getLast?.any fun c => !Text.isBlank c

theorem startsVisible_append {s : String} (starts : startsVisible s = true) (t : String) :
    startsVisible (s ++ t) = true := by
  cases shape : s.toList with
  | nil => simp [startsVisible, shape] at starts
  | cons c rest => simpa [startsVisible, shape] using starts

theorem endsVisible_append {t : String} (ends : endsVisible t = true) (s : String) :
    endsVisible (s ++ t) = true := by
  cases last : t.toList.getLast? with
  | none => simp [endsVisible, last] at ends
  | some c => simpa [endsVisible, List.getLast?_append, last] using ends

/-- A nested text that blanks around it are no part of. -/
structure Shown (tags : String → Prop) (s : String) : Prop where
  nested : Nested tags false s
  starts : startsVisible s = true
  ends : endsVisible s = true

namespace Shown

variable {tags : String → Prop} {s t : String}

theorem mono {tags' : String → Prop} (more : ∀ tag, tags tag → tags' tag) (shown : Shown tags s) :
    Shown tags' s :=
  ⟨shown.nested.mono more, shown.starts, shown.ends⟩

theorem filled (shown : Shown tags s) : s ≠ "" := by
  rintro rfl
  exact absurd shown.starts (by decide)

theorem trimmed (shown : Shown tags s) : Text.Trimmed s.toList := by
  constructor
  · intro c first
    simpa [startsVisible, Option.mem_def.1 first] using shown.starts
  · intro c last
    simpa [endsVisible, Option.mem_def.1 last] using shown.ends

theorem after (shown : Shown tags t) (lead : Nested tags false s)
    (starts : startsVisible s = true) : Shown tags (s ++ t) :=
  ⟨lead.append shown.nested, startsVisible_append starts t, endsVisible_append shown.ends s⟩

theorem before (shown : Shown tags s) (tail : Nested tags false t)
    (ends : endsVisible t = true) : Shown tags (s ++ t) :=
  ⟨shown.nested.append tail, startsVisible_append shown.starts t, endsVisible_append ends s⟩

theorem append (first : Shown tags s) (second : Shown tags t) : Shown tags (s ++ t) :=
  first.before second.nested second.ends

theorem group {left right : String} (pair : (left, right) ∈ bracketPairs)
    (nested : Nested tags true s) : Shown tags (left ++ s ++ right) := by
  have brackets : ∀ pair ∈ bracketPairs,
      startsVisible pair.1 = true ∧ endsVisible pair.2 = true := by decide
  obtain ⟨starts, ends⟩ := brackets _ pair
  refine ⟨.group pair nested, ?_, endsVisible_append ends _⟩
  rw [String.append_assoc]
  exact startsVisible_append starts _

theorem spaced (first : Shown tags s) (second : Shown tags t) : Shown tags (s ++ (" " ++ t)) :=
  first.before (.append (.plain (by decide)) second.nested) (endsVisible_append second.ends " ")

theorem join {sep : String} (between : Text.Unmarked sep) {texts : List String}
    (some_text : texts ≠ []) (each : ∀ s ∈ texts, Shown tags s) :
    Shown tags (sep.intercalate texts) := by
  induction texts with
  | nil => exact absurd rfl some_text
  | cons first texts ih =>
      have here := each first List.mem_cons_self
      cases texts with
      | nil => simpa using here
      | cons next texts =>
          have later := ih (List.cons_ne_nil next texts) fun s member =>
            each s (List.mem_cons_of_mem first member)
          rw [String.intercalate_cons_cons, String.append_assoc]
          refine ⟨?_, startsVisible_append here.starts _, ?_⟩
          · exact here.nested.append ((Nested.plain between).append later.nested)
          · exact endsVisible_append (endsVisible_append later.ends sep) first

end Shown

/-! ## Words -/

/-- A text of visible characters that divide nothing. -/
structure Word (s : String) : Prop where
  filled : s ≠ ""
  visible : ∀ c ∈ s.toList, Text.isBlank c = false
  unmarked : Text.Unmarked s

theorem word_dot : Word "." :=
  ⟨by decide, by simp [Text.isBlank], by decide⟩

theorem word_of_identifier {name : String} (identifier : Text.isIdentifier name = true) :
    Word name := by
  obtain ⟨filled, chars⟩ := Text.identifier_chars identifier
  refine ⟨by simpa using filled, fun c member => Text.nameChar_visible (chars c member), ?_⟩
  intro c member mark
  exact absurd (chars c member) (by simp [Text.mark_not_nameChar c mark])

theorem Word.append {s t : String} (first : Word s) (second : Word t) : Word (s ++ t) where
  filled := by simp [first.filled]
  visible c member := by
    rcases List.mem_append.1 (String.toList_append ▸ member) with left | right
    · exact first.visible c left
    · exact second.visible c right
  unmarked c member := by
    rcases List.mem_append.1 (String.toList_append ▸ member) with left | right
    · exact first.unmarked c left
    · exact second.unmarked c right

theorem Word.shown {tags : String → Prop} {s : String} (word : Word s) : Shown tags s where
  nested := .plain word.unmarked
  starts := by
    have some_text : s.toList ≠ [] := by simpa using word.filled
    obtain ⟨c, rest, shape⟩ := List.exists_cons_of_ne_nil some_text
    have visible := word.visible c (by simp [shape])
    simp [startsVisible, shape, visible]
  ends := by
    cases last : s.toList.getLast? with
    | none => exact absurd (List.getLast?_eq_none_iff.1 last) (by simpa using word.filled)
    | some c =>
        have visible := word.visible c (List.mem_of_getLast? last)
        simp [endsVisible, last, visible]

end ComposeStability.Program
