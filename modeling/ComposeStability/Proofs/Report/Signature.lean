/-
# Proofs.Report.Signature -- which signatures are read back

The line of a signature is divided by four searches: the first ` func `, the
first parenthesis, the last `): ` and the commas outside brackets.  The first
two end where the writer put its marks, because names hold none of the marks
(`mark_not_mem_name`).  The others do if the result does not look like the end
of a parameter list, and if commas and brackets of the types are paired
(`elements_join_iff`).  So exactly the legible signatures are read back whole
(`signatureOf_line_iff`).
-/
import ComposeStability.Program.Function
import ComposeStability.Proofs.Outcome
import ComposeStability.Proofs.Text.Identifier
import ComposeStability.Proofs.Text.Occurrence
import ComposeStability.Proofs.Text.Separated
import ComposeStability.Report.Parse
import Mathlib.Data.List.Infix

namespace ComposeStability.Report

set_option autoImplicit false

open Stability (Summary Parameter Value)

/-! ## Names -/

/-- A parameter has no name, or an identifier for one. -/
def Named (p : Parameter) : Prop :=
  p.name = "" ∨ Text.isIdentifier p.name = true

theorem Named.characters {p : Parameter} (named : Named p) :
    ∀ c ∈ p.name.toList, Text.isNameChar c = true := by
  intro c member
  rcases named with unnamed | identifier
  · simp [unnamed] at member
  · exact (Text.identifier_chars identifier).2 c member

theorem mark_not_mem_name {p : Parameter} (named : Named p) {c : Char} (mark : c ∈ Text.marks) :
    c ∉ p.name.toList := by
  intro member
  simpa [Text.mark_not_nameChar c mark] using named.characters c member

theorem Named.first_visible {p : Parameter} (named : Named p) :
    ∀ c ∈ p.name.toList.head?, Text.isBlank c = false :=
  fun c first => Text.nameChar_visible (named.characters c (List.mem_of_mem_head? first))

/-! ## Brackets -/

/-- How much a character changes the depth of brackets, of all kinds together. -/
def bracketStep (c : Char) : Int :=
  if c == '(' || c == '[' || c == '\x7b' then 1
  else if c == ')' || c == ']' || c == '\x7d' then -1
  else 0

/-- How deep in brackets a text ends. -/
def bracketDepth : List Char → Int
  | [] => 0
  | c :: cs => bracketStep c + bracketDepth cs

/-- Brackets are balanced and commas stand inside them. -/
structure Enclosed (cs : List Char) : Prop where
  balanced : bracketDepth cs = 0
  comma_inside : ∀ n < cs.length, cs[n]? = some ',' → 0 < bracketDepth (cs.take n)

instance (cs : List Char) : Decidable (Enclosed cs) :=
  decidable_of_iff
    (bracketDepth cs = 0 ∧
      ∀ n < cs.length, cs[n]? = some ',' → 0 < bracketDepth (cs.take n))
    ⟨fun ⟨balanced, inside⟩ => ⟨balanced, inside⟩, fun enclosed => ⟨enclosed.1, enclosed.2⟩⟩

@[simp] theorem bracketDepth_nil : bracketDepth [] = 0 := rfl

@[simp] theorem bracketDepth_cons (c : Char) (cs : List Char) :
    bracketDepth (c :: cs) = bracketStep c + bracketDepth cs := rfl

@[simp] theorem bracketDepth_append (cs ds : List Char) :
    bracketDepth (cs ++ ds) = bracketDepth cs + bracketDepth ds := by
  induction cs with
  | nil => simp
  | cons c cs ih =>
      simp only [List.cons_append, bracketDepth_cons, ih]
      omega

theorem elementsFrom_step {depth : Int} {c : Char} (kept : c = ',' → 0 < depth)
    (current rest : List Char) :
    elementsFrom depth current (c :: rest) =
      elementsFrom (depth + bracketStep c) (c :: current) rest := by
  rw [elementsFrom, bracketStep]
  split
  · rfl
  · split
    · rfl
    · have no_cut : (c == ',' && decide (depth ≤ 0)) = false := by
        rw [Bool.and_eq_false_imp]
        intro comma
        have deep := kept (by simpa using comma)
        simpa using deep
      rw [no_cut, Int.add_zero]
      rfl

/-- The commas of a text stand inside brackets, of which `depth` are open before it. -/
def CommasInside (depth : Int) (cs : List Char) : Prop :=
  ∀ n < cs.length, cs[n]? = some ',' → 0 < depth + bracketDepth (cs.take n)

instance (depth : Int) (cs : List Char) : Decidable (CommasInside depth cs) :=
  inferInstanceAs (Decidable (∀ n < cs.length, _))

theorem commasInside_cons {depth : Int} {c : Char} {cs : List Char} :
    CommasInside depth (c :: cs) ↔
      (c = ',' → 0 < depth) ∧ CommasInside (depth + bracketStep c) cs := by
  constructor
  · intro inside
    refine ⟨fun comma => by simpa using inside 0 (by simp) (by simp [comma]), ?_⟩
    intro n short comma
    have deep := inside (n + 1) (by simpa using short) (by simpa using comma)
    simp only [List.take_succ_cons, bracketDepth_cons] at deep
    omega
  · rintro ⟨here, later⟩ n short comma
    cases n with
    | zero => simpa using here (by simpa using comma)
    | succ n =>
        have deep := later n (by simpa using short) (by simpa using comma)
        simp only [List.take_succ_cons, bracketDepth_cons]
        omega

theorem commasInside_append {depth : Int} {cs ds : List Char} :
    CommasInside depth (cs ++ ds) ↔
      CommasInside depth cs ∧ CommasInside (depth + bracketDepth cs) ds := by
  induction cs generalizing depth with
  | nil => simp [CommasInside]
  | cons c cs ih =>
      rw [List.cons_append, commasInside_cons, commasInside_cons, ih, bracketDepth_cons,
        Int.add_assoc, and_assoc]

theorem CommasInside.deeper {depth deep : Int} {cs : List Char} (inside : CommasInside depth cs)
    (deeper : depth ≤ deep) : CommasInside deep cs := by
  intro n short comma
  have := inside n short comma
  omega

theorem Enclosed.commasInside {cs : List Char} (enclosed : Enclosed cs) : CommasInside 0 cs := by
  intro n short comma
  simpa using enclosed.comma_inside n short comma

/-- Reading goes over a text whose commas are all inside brackets. -/
theorem elementsFrom_over {cs : List Char} {depth : Int} (inside : CommasInside depth cs)
    (current rest : List Char) :
    elementsFrom depth current (cs ++ rest) =
      elementsFrom (depth + bracketDepth cs) (cs.reverse ++ current) rest := by
  induction cs generalizing depth current with
  | nil => simp
  | cons c cs ih =>
      obtain ⟨here, later⟩ := commasInside_cons.1 inside
      rw [List.cons_append, elementsFrom_step here, ih later]
      simp [Int.add_assoc]

/-- Reading ends the first element at the first comma outside brackets, if there is one. -/
theorem elementsFrom_first (depth : Int) (current cs : List Char) :
    (CommasInside depth cs ∧ elementsFrom depth current cs = [current.reverse ++ cs]) ∨
      ∃ first rest, cs = first ++ ',' :: rest ∧ CommasInside depth first ∧
        depth + bracketDepth first ≤ 0 ∧
        elementsFrom depth current cs =
          (current.reverse ++ first) :: elementsFrom (depth + bracketDepth first) [] rest := by
  induction cs generalizing depth current with
  | nil => exact .inl ⟨fun n short => absurd short (Nat.not_lt_zero n), by simp [elementsFrom]⟩
  | cons c cs ih =>
      by_cases cuts : c = ',' ∧ depth ≤ 0
      · obtain ⟨rfl, outside⟩ := cuts
        refine .inr ⟨[], cs, rfl, fun n short => absurd short (Nat.not_lt_zero n), ?_, ?_⟩
        · simpa using outside
        simp [elementsFrom, outside]
      · have kept : c = ',' → 0 < depth := fun comma => by
          have := not_and.1 cuts comma
          omega
        rw [elementsFrom_step kept]
        rcases ih (depth + bracketStep c) (c :: current) with
          ⟨inside, whole⟩ | ⟨first, rest, rfl, inside, outside, divided⟩
        · exact .inl ⟨commasInside_cons.2 ⟨kept, inside⟩, by simp [whole]⟩
        · refine .inr ⟨c :: first, rest, rfl, commasInside_cons.2 ⟨kept, inside⟩, ?_, ?_⟩
          · simpa [Int.add_assoc] using outside
          · simp [divided, Int.add_assoc]

theorem elementsFrom_ne_nil (depth : Int) (current cs : List Char) :
    elementsFrom depth current cs ≠ [] := by
  rcases elementsFrom_first depth current cs with ⟨-, whole⟩ | ⟨_, _, -, -, -, divided⟩
  · simp [whole]
  · simp [divided]

theorem unmarked_level {c : Char} (unmarked : c ∉ Text.marks) : bracketStep c = 0 ∧ c ≠ ',' := by
  simp only [Text.marks, List.mem_cons, List.not_mem_nil, or_false, not_or] at unmarked
  exact ⟨by simp [bracketStep, unmarked], unmarked.2.1⟩

/-- A text without brackets and commas may stand before another. -/
theorem plain_prepend {label : List Char} (plain : ∀ c ∈ label, bracketStep c = 0 ∧ c ≠ ',')
    (depth : Int) (cs : List Char) :
    bracketDepth (label ++ cs) = bracketDepth cs ∧
      (CommasInside depth (label ++ cs) ↔ CommasInside depth cs) := by
  induction label with
  | nil => simp
  | cons c label ih =>
      obtain ⟨level, no_comma⟩ := plain c List.mem_cons_self
      obtain ⟨balance, inside⟩ := ih fun d member => plain d (List.mem_cons_of_mem c member)
      rw [List.cons_append, bracketDepth_cons, commasInside_cons, level, Int.add_zero, inside]
      exact ⟨by simpa using balance, by simp [no_comma]⟩

/-! ## Elements -/

/-- Commas stand inside brackets in every part and no bracket is open between two parts, where
brackets are counted from the first part on. -/
def Divided : Int → List (List Char) → Prop
  | _, [] => True
  | depth, [part] => CommasInside depth part
  | depth, part :: rest =>
      CommasInside depth part ∧ depth + bracketDepth part ≤ 0 ∧
        Divided (depth + bracketDepth part) rest

instance Divided.decidable : ∀ (depth : Int) (parts : List (List Char)),
    Decidable (Divided depth parts)
  | _, [] => isTrue trivial
  | depth, [part] => inferInstanceAs (Decidable (CommasInside depth part))
  | depth, part :: next :: rest =>
      have := Divided.decidable (depth + bracketDepth part) (next :: rest)
      inferInstanceAs (Decidable (CommasInside depth part ∧ depth + bracketDepth part ≤ 0 ∧
        Divided (depth + bracketDepth part) (next :: rest)))

theorem divided_of_enclosed {parts : List (List Char)}
    (enclosed : ∀ part ∈ parts, Enclosed part) : Divided 0 parts := by
  induction parts with
  | nil => trivial
  | cons part parts ih =>
      have here := enclosed part List.mem_cons_self
      have later := ih fun other member => enclosed other (List.mem_cons_of_mem part member)
      cases parts with
      | nil => exact here.commasInside
      | cons next parts =>
          refine ⟨here.commasInside, ?_, ?_⟩
          · simp [here.balanced]
          · simpa [here.balanced] using later

/-- The first element ends where the first part does, if its commas allow for that. -/
theorem elementsFrom_part {depth : Int} {part : List Char} (inside : CommasInside depth part)
    (outside : depth + bracketDepth part ≤ 0) (lead rest : List Char) :
    elementsFrom depth lead (part ++ ',' :: ' ' :: rest) =
      (lead.reverse ++ part) :: elementsFrom (depth + bracketDepth part) [' '] rest := by
  rw [elementsFrom_over inside]
  simp [elementsFrom, outside]

/-- If an element without blanks around it is a part, it ends where the part does. -/
theorem first_eq_part {lead first part rest rest' : List Char}
    (blank : ∀ c ∈ lead, Text.isBlank c = true)
    (same : first ++ ',' :: rest = part ++ ',' :: rest')
    (trims : Text.trimBlanks (lead ++ first) = part) : first = part := by
  have visible : Text.isBlank ',' = false := by decide
  have commas : first.count ',' = part.count ',' := by
    rw [← trims, Text.trimBlanks_lead blank, Text.count_trimBlanks visible]
  rcases List.append_eq_append_iff.1 same with ⟨more, rfl, after⟩ | ⟨more, rfl, after⟩
  · cases more with
    | nil => simp
    | cons c more =>
        obtain rfl : ',' = c := by simpa using (List.cons.inj after).1
        simp at commas
  · cases more with
    | nil => simp
    | cons c more =>
        obtain rfl : ',' = c := by simpa using (List.cons.inj after).1
        simp at commas

/-- A text is read as the last part exactly if its commas allow for that. -/
theorem elementsFrom_last_iff {lead part : List Char}
    (trims : Text.trimBlanks (lead.reverse ++ part) = part) (depth : Int) :
    (elementsFrom depth lead part).map Text.trimBlanks = [part] ↔ CommasInside depth part := by
  constructor
  · intro read
    rcases elementsFrom_first depth lead part with ⟨inside, -⟩ | ⟨first, rest, -, -, -, divided⟩
    · exact inside
    · rw [divided, List.map_cons, List.cons.injEq, List.map_eq_nil_iff] at read
      exact absurd read.2 (elementsFrom_ne_nil _ _ _)
  · intro inside
    have passed := elementsFrom_over inside lead []
    rw [List.append_nil] at passed
    simp [passed, elementsFrom, trims]

/-- A part is read before others exactly if its commas and brackets allow for that, and the others
are read behind it. -/
theorem elementsFrom_next_iff {lead part rest : List Char} {others : List (List Char)}
    (blank : ∀ c ∈ lead.reverse, Text.isBlank c = true)
    (trims : Text.trimBlanks (lead.reverse ++ part) = part) (more : others ≠ []) (depth : Int) :
    (elementsFrom depth lead (part ++ ',' :: ' ' :: rest)).map Text.trimBlanks = part :: others ↔
      CommasInside depth part ∧ depth + bracketDepth part ≤ 0 ∧
        (elementsFrom (depth + bracketDepth part) [' '] rest).map Text.trimBlanks = others := by
  constructor
  · intro read
    rcases elementsFrom_first depth lead (part ++ ',' :: ' ' :: rest) with
      ⟨-, whole⟩ | ⟨first, behind, same, inside, outside, divided⟩
    · rw [whole, List.map_singleton, List.cons.injEq] at read
      exact absurd read.2.symm more
    · obtain rfl : first = part := first_eq_part blank same.symm (by
        rw [divided, List.map_cons] at read
        exact (List.cons.inj read).1)
      rw [elementsFrom_part inside outside, List.map_cons] at read
      exact ⟨inside, outside, (List.cons.inj read).2⟩
  · rintro ⟨inside, outside, read⟩
    rw [elementsFrom_part inside outside, List.map_cons, trims, read]

/-- Reading divides a list where its parts were joined exactly if commas and brackets allow it. -/
theorem elementsFrom_join_iff {part : List Char} {parts : List (List Char)}
    (trimmed : ∀ other ∈ part :: parts, Text.Trimmed other) (depth : Int) {lead : List Char}
    (blank : ∀ c ∈ lead.reverse, Text.isBlank c = true) :
    (elementsFrom depth lead (", ".toList.intercalate (part :: parts))).map Text.trimBlanks =
      part :: parts ↔ Divided depth (part :: parts) := by
  have trims : Text.trimBlanks (lead.reverse ++ part) = part := by
    rw [Text.trimBlanks_lead blank, (trimmed part List.mem_cons_self).trimBlanks_eq]
  induction parts generalizing part depth lead with
  | nil =>
      have joined : ", ".toList.intercalate [part] = part := by simp
      rw [joined, Divided, elementsFrom_last_iff trims]
  | cons next parts ih =>
      have joined : ", ".toList.intercalate (part :: next :: parts) =
          part ++ ',' :: ' ' :: ", ".toList.intercalate (next :: parts) := by
        rw [List.intercalate_cons_cons, List.append_assoc]
        rfl
      have space : ∀ c ∈ [' '].reverse, Text.isBlank c = true := by simp [Text.isBlank]
      have later := ih (fun other member => trimmed other (List.mem_cons_of_mem part member))
        (depth + bracketDepth part) space (by
          rw [Text.trimBlanks_lead space,
            (trimmed next (List.mem_cons_of_mem part List.mem_cons_self)).trimBlanks_eq])
      rw [joined, elementsFrom_next_iff blank trims (List.cons_ne_nil next parts)]
      exact and_congr_right fun _ => and_congr_right fun _ => later

theorem elements_join_iff {parts : List (List Char)}
    (trimmed : ∀ part ∈ parts, Text.Trimmed part) (filled : ∀ part ∈ parts, part ≠ []) :
    elements (", ".toList.intercalate parts) = parts ↔ Divided 0 parts := by
  cases parts with
  | nil => exact iff_of_true rfl trivial
  | cons part parts =>
      have some_text : (", ".toList.intercalate (part :: parts)).isEmpty = false := by
        have first := filled part List.mem_cons_self
        cases parts <;> simp [first]
      rw [elements, some_text]
      exact elementsFrom_join_iff trimmed 0 (by simp)

/-! ## Signatures -/

/-- What a parameter has to be like to be written and read back. -/
structure WritableParameter (p : Parameter) : Prop where
  named : Named p
  type_filled : p.type ≠ ""
  type_on_line : '\n' ∉ p.type.toList
  type_trimmed : Text.Trimmed p.type.toList
  type_enclosed : Enclosed p.type.toList
  stability_named : p.stability ∈ [Value.stable, Value.unstable, Value.runtime]
  reason_on_line : '\n' ∉ p.reason.toList

instance (p : Parameter) : Decidable (Named p) := inferInstanceAs (Decidable (_ ∨ _))

instance (p : Parameter) : Decidable (WritableParameter p) :=
  decidable_of_iff
    ((Named p ∧ p.type ≠ "" ∧ '\n' ∉ p.type.toList) ∧
      (Text.Trimmed p.type.toList ∧ Enclosed p.type.toList) ∧
      p.stability ∈ [Value.stable, Value.unstable, Value.runtime] ∧ '\n' ∉ p.reason.toList)
    ⟨fun ⟨⟨named, filled, line⟩, ⟨trimmed, enclosed⟩, value, reason⟩ =>
        ⟨named, filled, line, trimmed, enclosed, value, reason⟩,
      fun fits => ⟨⟨fits.1, fits.2, fits.3⟩, ⟨fits.4, fits.5⟩, fits.6, fits.7⟩⟩

/-- What a summary has to be like to be written and read back. -/
structure Writable (s : Summary) : Prop where
  visibility_word : s.visibility = Program.exportedText ∨ s.visibility = Program.unexportedText
  name_filled : s.qualifiedName ≠ ""
  name_open : '(' ∉ s.qualifiedName.toList
  name_on_line : '\n' ∉ s.qualifiedName.toList
  name_last : s.name = lastName s.qualifiedName
  result_open : ¬ "): ".toList <:+: s.returnType.toList
  result_on_line : '\n' ∉ s.returnType.toList
  result_end : s.returnType.toList.getLast? ≠ some '\x0d'
  parameters : ∀ p ∈ s.parameters, WritableParameter p

/-- What a parameter has to be like to be shown in an entry. -/
structure PresentableParameter (p : Parameter) : Prop where
  named : Named p
  type_filled : p.type ≠ ""
  type_on_line : '\n' ∉ p.type.toList
  type_trimmed : Text.Trimmed p.type.toList
  stability_named : p.stability ∈ [Value.stable, Value.unstable, Value.runtime]
  reason_on_line : '\n' ∉ p.reason.toList

/-- What a summary has to be like to be shown as an entry, whether or not its signature can be read
back. -/
structure Presentable (s : Summary) : Prop where
  visibility_word : s.visibility = Program.exportedText ∨ s.visibility = Program.unexportedText
  name_filled : s.qualifiedName ≠ ""
  name_open : '(' ∉ s.qualifiedName.toList
  name_on_line : '\n' ∉ s.qualifiedName.toList
  name_last : s.name = lastName s.qualifiedName
  result_on_line : '\n' ∉ s.returnType.toList
  result_end : s.returnType.toList.getLast? ≠ some '\x0d'
  parameters : ∀ p ∈ s.parameters, PresentableParameter p

/-- The types of a signature do not mislead its reader: commas and brackets of the parameters are
paired, and the result does not look like the end of a parameter list. -/
structure Legible (s : Summary) : Prop where
  types_divided : Divided 0 (s.parameters.map (·.type.toList))
  result_open : ¬ "): ".toList <:+: s.returnType.toList

instance (s : Summary) : Decidable (Legible s) :=
  decidable_of_iff (Divided 0 (s.parameters.map (·.type.toList)) ∧
      ¬ "): ".toList <:+: s.returnType.toList)
    ⟨fun legible => ⟨legible.1, legible.2⟩, fun legible => ⟨legible.1, legible.2⟩⟩

theorem WritableParameter.presentable {p : Parameter} (writable : WritableParameter p) :
    PresentableParameter p :=
  ⟨writable.1, writable.2, writable.3, writable.4, writable.6, writable.7⟩

theorem Writable.presentable {s : Summary} (writable : Writable s) : Presentable s :=
  ⟨writable.1, writable.2, writable.3, writable.4, writable.5, writable.7, writable.8,
    fun p listed => (writable.parameters p listed).presentable⟩

theorem Writable.legible {s : Summary} (writable : Writable s) : Legible s := by
  refine ⟨divided_of_enclosed fun part member => ?_, writable.result_open⟩
  obtain ⟨p, listed, rfl⟩ := List.mem_map.1 member
  exact (writable.parameters p listed).type_enclosed

/-- A parameter as signatures list it. -/
def element (p : Parameter) : List Char :=
  p.name.toList ++ (": ".toList ++ p.type.toList)

/-- The entry that a signature opens. -/
def opened (s : Summary) : Entry where
  visibility := s.visibility
  qualifiedName := s.qualifiedName
  returnType := s.returnType
  pending := s.parameters.map fun p => (p.name, p.type)

theorem parameterOf_element {p : Parameter} (named : Named p) :
    parameterOf (element p) = .ok (p.name, p.type) := by
  have no_colon : ':' ∉ p.name.toList := mark_not_mem_name named (by decide)
  have found := Text.cut_append no_colon [' '] p.type.toList
  have colon : ": ".toList = [':', ' '] := rfl
  rw [parameterOf, element, colon, found]
  simp

/-- What is read as a name and a type is put together from them. -/
theorem element_of_parameterOf {cs : List Char} {parameter : String × String}
    (read : parameterOf cs = .ok parameter) :
    cs = parameter.1.toList ++ (": ".toList ++ parameter.2.toList) := by
  rw [parameterOf] at read
  split at read
  · next found =>
    obtain rfl := Except.ok.inj read
    simpa using Text.cut_eq_append found
  · cases read

/-- The name in front of a type changes nothing about commas and brackets. -/
theorem element_brackets {p : Parameter} (named : Named p) (depth : Int) :
    bracketDepth (element p) = bracketDepth p.type.toList ∧
      (CommasInside depth (element p) ↔ CommasInside depth p.type.toList) := by
  have colon : ∀ c ∈ ": ".toList, bracketStep c = 0 ∧ c ≠ ',' := by simp [bracketStep]
  have plain : ∀ c ∈ p.name.toList, bracketStep c = 0 ∧ c ≠ ',' :=
    fun c member => unmarked_level fun mark => mark_not_mem_name named mark member
  obtain ⟨balance, inside⟩ := plain_prepend plain depth (": ".toList ++ p.type.toList)
  obtain ⟨balance', inside'⟩ := plain_prepend colon depth p.type.toList
  exact ⟨balance.trans balance', inside.trans inside'⟩

theorem divided_elements {params : List Parameter} (named : ∀ p ∈ params, Named p) (depth : Int) :
    Divided depth (params.map element) ↔ Divided depth (params.map (·.type.toList)) := by
  induction params generalizing depth with
  | nil => rfl
  | cons p params ih =>
      obtain ⟨balance, inside⟩ := element_brackets (named p List.mem_cons_self) depth
      have later := ih fun q member => named q (List.mem_cons_of_mem p member)
      cases params with
      | nil => exact inside
      | cons q params =>
          simp only [List.map_cons, Divided] at later ⊢
          rw [inside, balance, later]

theorem element_trimmed {p : Parameter} (presentable : PresentableParameter p) :
    Text.Trimmed (element p) := by
  have some_type : p.type.toList ≠ [] := by simpa using presentable.type_filled
  constructor
  · intro c first
    cases name : p.name.toList with
    | nil =>
        obtain rfl : ':' = c := by simpa [element, name] using first
        decide
    | cons d rest =>
        refine presentable.named.first_visible c ?_
        simpa [element, name] using first
  · intro c last
    refine presentable.type_trimmed.last c ?_
    cases ends : p.type.toList.getLast? with
    | none => exact absurd (List.getLast?_eq_none_iff.1 ends) some_type
    | some d => simpa [element, List.getLast?_append, List.getLast?_cons, ends] using last

theorem signatureLine_toList (s : Summary) :
    (signatureLine s).toList = s.visibility.toList ++ (" func ".toList ++ (s.qualifiedName.toList ++
      ("(".toList ++ (", ".toList.intercalate (s.parameters.map element) ++
        ("): ".toList ++ s.returnType.toList))))) := by
  have listed : (String.toList ∘ fun p : Parameter => p.name ++ ": " ++ p.type) = element := by
    funext p
    simp [element]
  simp only [signatureLine, String.toList_append, String.toList_intercalate, List.map_map,
    List.append_assoc, listed]

/-- Everything after the parenthesis that ends the name of a function. -/
def afterName (s : Summary) : List Char :=
  ", ".toList.intercalate (s.parameters.map element) ++ ("): ".toList ++ s.returnType.toList)

/-- Visibility and name are always read back; the rest is read from what follows. -/
theorem signatureOf_eq {s : Summary} (presentable : Presentable s) :
    signatureOf (signatureLine s).toList =
      match Text.cutLast "): ".toList (afterName s) with
      | none => .error .malformedSignature
      | some (params, result) => ((elements params).mapM parameterOf).map fun pending =>
          { opened s with returnType := String.ofList result, pending } := by
  have no_space : ' ' ∉ s.visibility.toList ∧ s.visibility.toList ≠ [] := by
    rcases presentable.visibility_word with word | word <;> rw [word] <;> decide
  have some_name : s.qualifiedName.toList ≠ [] := by simpa using presentable.name_filled
  obtain ⟨v, visibility, visibility_eq⟩ := List.exists_cons_of_ne_nil no_space.2
  obtain ⟨n, name, name_eq⟩ := List.exists_cons_of_ne_nil some_name
  have func_found (rest : List Char) :
      Text.cut " func ".toList (s.visibility.toList ++ (" func ".toList ++ rest)) =
        some (s.visibility.toList, rest) :=
    Text.cut_append no_space.1 "func ".toList rest
  have paren_found (rest : List Char) :
      Text.cut ['('] (s.qualifiedName.toList ++ ("(".toList ++ rest)) =
        some (s.qualifiedName.toList, rest) :=
    Text.cut_append presentable.name_open [] rest
  rw [signatureLine_toList, signatureOf, func_found, visibility_eq]
  simp only
  rw [paren_found, name_eq]
  simp only
  rw [← visibility_eq, ← name_eq, ← afterName]
  cases Text.cutLast "): ".toList (afterName s) with
  | none => rfl
  | some parts =>
      obtain ⟨params, result⟩ := parts
      simp only
      cases (elements params).mapM parameterOf with
      | error problem => rfl
      | ok pending => simp [opened, bind, Except.bind, pure, Except.pure, Except.map]

theorem elements_iff {s : Summary} (presentable : Presentable s) :
    elements (", ".toList.intercalate (s.parameters.map element)) = s.parameters.map element ↔
      Divided 0 (s.parameters.map (·.type.toList)) := by
  rw [← divided_elements fun p listed => (presentable.parameters p listed).named]
  refine elements_join_iff ?_ ?_ <;> intro part member <;>
    obtain ⟨p, listed, rfl⟩ := List.mem_map.1 member
  · exact element_trimmed (presentable.parameters p listed)
  · simp [element]

/-- The signature of a legible summary is read back. -/
theorem signatureOf_line {s : Summary} (presentable : Presentable s) (legible : Legible s) :
    signatureOf (signatureLine s).toList = .ok (opened s) := by
  have divided := (elements_iff presentable).2 legible.types_divided
  have named : (s.parameters.map element).mapM parameterOf =
      .ok (s.parameters.map fun p => (p.name, p.type)) :=
    mapM_map_ok fun p listed => parameterOf_element (presentable.parameters p listed).named
  have result_found : Text.cutLast "): ".toList (afterName s) =
      some (", ".toList.intercalate (s.parameters.map element), s.returnType.toList) :=
    Text.cutLast_append (by decide) legible.result_open _
  rw [signatureOf_eq presentable, result_found]
  simp only [divided, named, Except.map, String.ofList_toList]
  rfl

/-- If result and parameters are read back, nothing misled the reader. -/
theorem legible_of_signatureOf {s : Summary} (presentable : Presentable s)
    (read : signatureOf (signatureLine s).toList = .ok (opened s)) : Legible s := by
  rw [signatureOf_eq presentable] at read
  cases found : Text.cutLast "): ".toList (afterName s) with
  | none => rw [found] at read; cases read
  | some parts =>
      obtain ⟨params, result⟩ := parts
      rw [found] at read
      cases named : (elements params).mapM parameterOf with
      | error problem => simp only [named] at read; cases read
      | ok pending =>
          simp only [named, Except.map, Except.ok.injEq, opened, Entry.mk.injEq, true_and] at read
          obtain ⟨same_result, rfl⟩ := read
          obtain rfl : result = s.returnType.toList := by simp [← same_result]
          have whole := Text.cutLast_eq_append found
          have same_params : params = ", ".toList.intercalate (s.parameters.map element) := by
            rw [afterName, ← List.append_assoc] at whole
            simpa using whole.symm
          have divided : elements params = s.parameters.map element := by
            rw [eq_map_of_mapM_ok element_of_parameterOf named, List.map_map]
            rfl
          rw [same_params] at divided
          exact ⟨(elements_iff presentable).1 divided, Text.cutLast_after (by decide) found⟩

/-- A signature is read back exactly if it is legible. -/
theorem signatureOf_line_iff {s : Summary} (presentable : Presentable s) :
    signatureOf (signatureLine s).toList = .ok (opened s) ↔ Legible s :=
  ⟨legible_of_signatureOf presentable, signatureOf_line presentable⟩

/-- Only the result and the parameters of a signature can be read wrongly. -/
theorem signatureOf_fields {s : Summary} (presentable : Presentable s) {e : Entry}
    (read : signatureOf (signatureLine s).toList = .ok e) :
    e = { opened s with returnType := e.returnType, pending := e.pending } := by
  rw [signatureOf_eq presentable] at read
  split at read
  · cases read
  · next params result found =>
    cases named : (elements params).mapM parameterOf with
    | error problem => rw [named] at read; cases read
    | ok pending =>
        rw [named] at read
        rw [← Except.ok.inj read]

end ComposeStability.Report
