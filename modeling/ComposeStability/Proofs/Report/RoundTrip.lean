/-
# Proofs.Report.RoundTrip -- a written report is read back

Reading is a run over lines (`Reads`).  The lines of an entry lead from any state
whose entry is complete to a state whose entry is the one written
(`entry_reads`), so the lines of a report complete the entries in the order in
which they were written (`entries_read`).  That order is the same for every
arrangement of the summaries, as long as their names are distinct.
-/
import ComposeStability.Proofs.Report.Signature
import Mathlib.Data.List.Nodup

namespace ComposeStability.Report

set_option autoImplicit false

open Stability (Summary Parameter Value)

/-! ## Items -/

theorem parse_text {v : Value} (named : v ∈ [Value.stable, Value.unstable, Value.runtime]) :
    Value.parse v.text = .ok v ∧ ' ' ∉ v.text.toList := by
  simp only [List.mem_cons, List.not_mem_nil, or_false] at named
  rcases named with rfl | rfl | rfl <;> decide

/-- What follows the stability of a parameter. -/
def reasonText (reason : List Char) : List Char :=
  if reason.isEmpty then [] else " (".toList ++ (reason ++ [')'])

theorem itemLine_toList (p : Parameter) :
    (itemLine p).toList = itemIndent.toList ++ (p.name.toList ++ (": ".toList ++
      (p.stability.text.toList ++ reasonText p.reason.toList))) := by
  by_cases unexplained : p.reason = ""
  · simp [itemLine, reasonText, unexplained]
  · have explained : p.reason.isEmpty = false := by simpa using unexplained
    simp [itemLine, reasonText, unexplained]

/-- The reason is what stands in parentheses after the first blank. -/
theorem cut_reasonText {text : List Char} (no_space : ' ' ∉ text) (reason : List Char) :
    ∃ written, (Text.cut [' '] (text ++ reasonText reason)).getD (text ++ reasonText reason, []) =
      (text, written) ∧ reasonOf written = .ok reason := by
  cases reason with
  | nil =>
      refine ⟨[], ?_, rfl⟩
      simp [reasonText, Text.cut_absent no_space]
  | cons c rest =>
      refine ⟨'(' :: (c :: rest ++ [')']), ?_, ?_⟩
      · have found := Text.cut_append no_space [] ('(' :: (c :: rest ++ [')']))
        have shape : reasonText (c :: rest) = [' '] ++ '(' :: (c :: rest ++ [')']) := rfl
        rw [shape, found]
        rfl
      · have ends : [')'].isSuffixOf? (c :: rest ++ [')']) = some (c :: rest) :=
          List.isSuffixOf?_eq_some_iff_append_eq.2 rfl
        rw [reasonOf, ends]

/-- The item of a parameter is read as that of the next parameter, if this has its name. -/
theorem itemOf_line {p : Parameter} (presentable : PresentableParameter p) (e : Entry) :
    itemOf e (p.name.toList ++ (": ".toList ++
      (p.stability.text.toList ++ reasonText p.reason.toList))) =
      match e.pending with
      | [] => .error (.parameterMismatch p.name)
      | (expected, type) :: pending =>
          if expected = p.name then .ok { e with listed := e.listed ++ [{ p with type }], pending }
          else .error (.parameterMismatch p.name) := by
  have no_colon : ':' ∉ p.name.toList := mark_not_mem_name presentable.named (by decide)
  have colon_found (rest : List Char) :
      Text.cut ": ".toList (p.name.toList ++ (": ".toList ++ rest)) = some (p.name.toList, rest) :=
    Text.cut_append no_colon [' '] rest
  obtain ⟨value_read, no_space⟩ := parse_text presentable.stability_named
  obtain ⟨written, reason_found, reason_read⟩ := cut_reasonText no_space p.reason.toList
  rw [itemOf, colon_found]
  simp only
  rw [reason_found]
  simp only [String.ofList_toList, value_read, reason_read, bind, Except.bind, pure, Except.pure]
  cases e.pending with
  | nil => rfl
  | cons next pending =>
      by_cases same : next.1 = p.name <;> simp [same]

/-! ## Single lines -/

/-- Lines lead from one state to another and complete entries on the way. -/
inductive Reads : State → List String → List Summary → State → Prop where
  | nil (state : State) : Reads state [] [] state
  | cons {state next last : State} {line : String} {rest : List String}
      {done more : List Summary} (step : readLine state line.toList = .ok (done, next))
      (run : Reads next rest more last) : Reads state (line :: rest) (done ++ more) last

theorem Reads.append {first middle last : State} {lines rest : List String}
    {done more : List Summary} (run : Reads first lines done middle)
    (onward : Reads middle rest more last) : Reads first (lines ++ rest) (done ++ more) last := by
  induction run with
  | nil state => exact onward
  | cons step run ih =>
      rw [List.append_assoc]
      exact .cons step (ih onward)

theorem finish_within_iff {e : Entry} {late : List Summary} :
    finish (.within e) = .ok late ↔ e.pending = [] ∧ late = [e.summary] := by
  rw [finish]
  split
  · next empty => simp [List.isEmpty_iff.1 empty, eq_comm]
  · next more => simp [List.isEmpty_iff.not.1 more]

theorem readLine_comment (state : State) {line : List Char} (comment : ['/', '/'] <+: line) :
    readLine state line = .ok ([], state) := by
  simp [readLine, List.isPrefixOf_iff_prefix.2 comment]

theorem readLine_blank {state next : State} {done : List Summary} :
    readLine state "".toList = .ok (done, next) ↔ finish state = .ok done ∧ next = .outside := by
  have comment : ['/', '/'].isPrefixOf "".toList = false := by decide
  have blank : (Text.trimBlanks "".toList).isEmpty = true := by decide
  simp only [readLine, comment, blank, Bool.false_eq_true, if_false, if_true]
  cases finish state <;> simp [Except.map, eq_comm]

theorem readLine_heading {state : State} {done : List Summary}
    (complete : finish state = .ok done) :
    readLine state heading.toList = .ok (done, .headed) := by
  have comment : ['/', '/'].isPrefixOf heading.toList = false := by decide
  have blank : (Text.trimBlanks heading.toList).isEmpty = false := by decide
  simp [readLine, complete, comment, blank, Except.map]

/-- A line that is no comment, not blank and no heading is read by the state it is met in. -/
theorem readLine_ordinary {first : Char} {rest : List Char} (no_comment : first ≠ '/')
    (no_heading : first ≠ '@') {c : Char} (member : c ∈ first :: rest)
    (visible : Text.isBlank c = false) :
    ['/', '/'].isPrefixOf (first :: rest) = false ∧
      (Text.trimBlanks (first :: rest)).isEmpty = false ∧ first :: rest ≠ heading.toList := by
  refine ⟨?_, ?_, ?_⟩
  · simp [List.isPrefixOf, no_comment.symm]
  · simpa using Text.trimBlanks_ne_nil member visible
  · intro same
    have at_sign : heading.toList = '@' :: "Composable".toList := rfl
    rw [at_sign, List.cons.injEq] at same
    exact no_heading same.1

theorem readLine_signature {s : Summary} (presentable : Presentable s) :
    readLine .headed (signatureLine s).toList =
      withText (signatureLine s).toList
        ((signatureOf (signatureLine s).toList).map fun e => ([], .within e)) := by
  obtain ⟨first, rest, shape, no_comment, no_heading, visible⟩ :
      ∃ first rest, (signatureLine s).toList = first :: rest ∧ first ≠ '/' ∧ first ≠ '@' ∧
        Text.isBlank first = false := by
    rw [signatureLine_toList]
    rcases presentable.visibility_word with word | word <;> rw [word]
    · exact ⟨'e', _, rfl, by decide⟩
    · exact ⟨'u', _, rfl, by decide⟩
  obtain ⟨comment, blank, ordinary⟩ :=
    readLine_ordinary no_comment no_heading (@List.mem_cons_self _ first rest) visible
  rw [← shape] at comment blank ordinary
  simp [readLine, comment, blank, ordinary]

theorem readLine_item {p : Parameter} (presentable : PresentableParameter p) {e : Entry}
    (listing : e.listing = true) {done : List Summary} {next : State} :
    readLine (.within e) (itemLine p).toList = .ok (done, next) ↔
      done = [] ∧ ∃ type pending, e.pending = (p.name, type) :: pending ∧
        next = .within { e with listed := e.listed ++ [{ p with type }], pending } := by
  rw [itemLine_toList]
  have shape (text : List Char) : itemIndent.toList ++ text = ' ' :: ("   - ".toList ++ text) := rfl
  have dash (text : List Char) : '-' ∈ ' ' :: ("   - ".toList ++ text) := by simp
  obtain ⟨comment, blank, ordinary⟩ := readLine_ordinary (by decide) (by decide)
    (dash (p.name.toList ++ (": ".toList ++
      (p.stability.text.toList ++ reasonText p.reason.toList)))) (by decide)
  rw [← shape] at comment blank ordinary
  simp only [readLine, comment, blank, ordinary, Bool.false_eq_true, if_false,
    Text.afterStart?_append, listing, if_true, itemOf_line presentable]
  rcases e.pending with _ | ⟨⟨expected, type⟩, pending⟩
  · simp [withText, Except.map, Except.mapError]
  · by_cases same : expected = p.name
    · simp only [same, if_true, withText, Except.map, Except.mapError, Except.ok.injEq,
        Prod.mk.injEq, List.cons.injEq, true_and]
      constructor
      · rintro ⟨rfl, rfl⟩
        exact ⟨rfl, type, pending, ⟨rfl, rfl⟩, rfl⟩
      · rintro ⟨rfl, _, _, ⟨rfl, rfl⟩, rfl⟩
        exact ⟨rfl, rfl⟩
    · simp [same, withText, Except.map, Except.mapError]

/-- A line with the indentation of properties, and no more, is a property. -/
theorem readLine_property {e next : Entry} {first : Char} {rest : List Char}
    (flush : first ≠ ' ') (visible : Text.isBlank first = false)
    (read : propertyOf e (first :: rest) = .ok next) :
    readLine (.within e) (propertyIndent.toList ++ first :: rest) = .ok ([], .within next) := by
  have shape : propertyIndent.toList ++ first :: rest = ' ' :: ' ' :: first :: rest := rfl
  have no_item : Text.afterStart? itemIndent.toList (' ' :: ' ' :: first :: rest) = none := by
    have indent : itemIndent.toList = [' ', ' ', ' ', ' ', '-', ' '] := rfl
    simp [indent, Text.afterStart?, flush.symm]
  have member : first ∈ ' ' :: ' ' :: first :: rest := by simp
  obtain ⟨comment, blank, ordinary⟩ := readLine_ordinary (by decide) (by decide) member visible
  rw [← shape] at no_item comment blank ordinary
  simp only [readLine, comment, blank, ordinary, Bool.false_eq_true, if_false, no_item,
    Text.afterStart?_append, read]
  rfl

theorem readLine_skippable (e : Entry) (b : Bool) :
    readLine (.within e) (propertyIndent ++ "skippable: " ++ Text.truthText b).toList =
      .ok ([], .within { e with skippable := b }) := by
  cases b <;> exact readLine_property (by decide) (by decide) rfl

theorem readLine_restartable (e : Entry) (b : Bool) :
    readLine (.within e) (propertyIndent ++ "restartable: " ++ Text.truthText b).toList =
      .ok ([], .within { e with restartable := b }) := by
  cases b <;> exact readLine_property (by decide) (by decide) rfl

theorem readLine_params (e : Entry) :
    readLine (.within e) (propertyIndent ++ "params:").toList =
      .ok ([], .within { e with listing := true }) :=
  readLine_property (by decide) (by decide) rfl

/-! ## Entries -/

/-- A summary without what reports leave out. -/
def asReported (s : Summary) : Summary :=
  { s with readonly := false, strongSkipping := false, receivers := [] }

theorem items_read {params : List Parameter} (presentable : ∀ p ∈ params, PresentableParameter p)
    {e : Entry} (listing : e.listing = true)
    (next : e.pending = params.map fun p => (p.name, p.type)) :
    Reads (.within e) (params.map itemLine) []
      (.within { e with listed := e.listed ++ params, pending := [] }) := by
  induction params generalizing e with
  | nil =>
      have none_pending : e.pending = [] := next
      rw [List.append_nil, ← none_pending]
      exact .nil _
  | cons p params ih =>
      have here := presentable p List.mem_cons_self
      have later := fun q member => presentable q (List.mem_cons_of_mem p member)
      have step := (readLine_item here listing).2 ⟨rfl, p.type, _, next, rfl⟩
      have run := ih later (e := { e with
        listed := e.listed ++ [p], pending := params.map fun p => (p.name, p.type) }) listing rfl
      simp only [List.append_assoc, List.singleton_append] at run
      exact .cons step run

/-- The lines of an entry are read from any state whose own entry is complete, and
leave the entry written. -/
theorem entry_reads {s : Summary} (presentable : Presentable s) (legible : Legible s)
    {state : State} {done : List Summary} (complete : finish state = .ok done) :
    ∃ last, Reads state ("" :: entryLines s) done last ∧ finish last = .ok [asReported s] := by
  have outside : finish .outside = .ok [] := rfl
  have signature : readLine .headed (signatureLine s).toList = .ok ([], .within (opened s)) := by
    rw [readLine_signature presentable, (signatureOf_line_iff presentable).2 legible]
    rfl
  have unlisted : Reads state
      ["", heading, signatureLine s,
        propertyIndent ++ "skippable: " ++ Text.truthText s.skippable,
        propertyIndent ++ "restartable: " ++ Text.truthText s.restartable] (done ++ [])
      (.within { opened s with skippable := s.skippable, restartable := s.restartable }) :=
    .cons (readLine_blank.2 ⟨complete, rfl⟩) <| .cons (readLine_heading outside) <|
      .cons signature <| .cons (readLine_skippable _ _) <|
        .cons (readLine_restartable _ _) <| .nil _
  rw [List.append_nil] at unlisted
  by_cases none_listed : s.parameters = []
  · refine ⟨_, by simpa [entryLines, none_listed] using unlisted, ?_⟩
    simp [finish, opened, none_listed, Entry.summary, asReported, ← presentable.name_last]
  · have listed := Reads.cons (readLine_params { opened s with
        skippable := s.skippable, restartable := s.restartable })
      (items_read presentable.parameters rfl rfl)
    refine ⟨_, by simpa [entryLines, none_listed] using unlisted.append listed, ?_⟩
    simp [finish, opened, Entry.summary, asReported, ← presentable.name_last]

/-- Entries are completed in the order in which they are written. -/
theorem entries_read {summaries : List Summary} (presentable : ∀ s ∈ summaries, Presentable s)
    (legible : ∀ s ∈ summaries, Legible s)
    {state : State} {done : List Summary} (complete : finish state = .ok done) :
    ∃ last early late, Reads state (summaries.flatMap fun s => "" :: entryLines s) early last ∧
      finish last = .ok late ∧ early ++ late = done ++ summaries.map asReported := by
  induction summaries generalizing state done with
  | nil => exact ⟨state, [], done, .nil state, complete, by simp⟩
  | cons s rest ih =>
      obtain ⟨middle, run, finished⟩ := entry_reads (presentable s List.mem_cons_self)
        (legible s List.mem_cons_self) complete
      obtain ⟨last, early, late, onward, ends, order⟩ :=
        ih (fun other member => presentable other (List.mem_cons_of_mem s member))
          (fun other member => legible other (List.mem_cons_of_mem s member)) finished
      refine ⟨last, done ++ early, late, ?_, ends, ?_⟩
      · exact run.append onward
      · simp [List.append_assoc, order]

/-- Lines are read to the end as these summaries: they are a run, and its last state is complete. -/
def Accepts (state : State) (lines : List String) (all : List Summary) : Prop :=
  ∃ last early late, Reads state lines early last ∧ finish last = .ok late ∧ all = early ++ late

theorem accepts_nil_iff {state : State} {all : List Summary} :
    Accepts state [] all ↔ finish state = .ok all := by
  constructor
  · rintro ⟨last, early, late, run, finished, rfl⟩
    cases run with
    | nil => exact finished
  · exact fun finished => ⟨state, [], all, .nil state, finished, rfl⟩

theorem accepts_cons_iff {state : State} {line : String} {rest : List String}
    {all : List Summary} :
    Accepts state (line :: rest) all ↔
      ∃ done next more, readLine state line.toList = .ok (done, next) ∧
        Accepts next rest more ∧ all = done ++ more := by
  constructor
  · rintro ⟨last, early, late, run, finished, rfl⟩
    cases run with
    | cons step run => exact ⟨_, _, _, step, ⟨last, _, late, run, finished, rfl⟩, by simp⟩
  · rintro ⟨done, next, more, step, ⟨last, early, late, run, finished, rfl⟩, rfl⟩
    exact ⟨last, done ++ early, late, .cons step run, finished, by simp⟩

theorem onLine_eq_ok {α : Type} {number : Nat} {result : Except (String × Problem) α} {value : α} :
    onLine number result = .ok value ↔ result = .ok value := by
  cases result <;> simp [onLine, Except.mapError]

/-- Reading succeeds exactly if all lines fit and are accepted without their returns. -/
theorem readLines_eq_ok_iff {number : Nat} {state : State} {raws : List (List Char)}
    {all : List Summary} :
    readLines number state raws = .ok all ↔
      (∀ raw ∈ raws, byteLength raw ≤ lineLimit) ∧
        Accepts state (raws.map fun raw => String.ofList (withoutReturn raw)) all := by
  induction raws generalizing number state all with
  | nil => simp [readLines, onLine_eq_ok, accepts_nil_iff]
  | cons raw raws ih =>
      rw [readLines, List.map_cons, accepts_cons_iff, List.forall_mem_cons, String.toList_ofList]
      split
      · next fits =>
        rw [bind_eq_ok]
        simp only [onLine_eq_ok, bind_eq_ok, ih]
        constructor
        · rintro ⟨⟨done, next⟩, step, more, ⟨fit, onward⟩, same⟩
          exact ⟨⟨fits, fit⟩, done, next, more, step, onward, (Except.ok.inj same).symm⟩
        · rintro ⟨⟨-, fit⟩, done, next, more, step, onward, rfl⟩
          exact ⟨⟨done, next⟩, step, more, ⟨fit, onward⟩, rfl⟩
      · next long => simp [long]

/-! ## Whole reports -/

/-- A text is one line, which reading leaves as it is. -/
structure OneLine (line : List Char) : Prop where
  unbroken : '\n' ∉ line
  no_return : line.getLast? ≠ some '\x0d'

theorem OneLine.withoutReturn_eq {line : List Char} (one : OneLine line) :
    withoutReturn line = line := by
  cases found : ['\x0d'].isSuffixOf? line with
  | none => simp [withoutReturn, found]
  | some start =>
      have shape := List.isSuffixOf?_eq_some_iff_append_eq.1 found
      exact absurd (by simp [← shape]) one.no_return

theorem not_mem_intercalate {c : Char} {sep : List Char} {parts : List (List Char)}
    (not_sep : c ∉ sep) (not_parts : ∀ part ∈ parts, c ∉ part) : c ∉ sep.intercalate parts := by
  induction parts with
  | nil => simp
  | cons part parts ih =>
      have here := not_parts part List.mem_cons_self
      have later := ih fun other member => not_parts other (List.mem_cons_of_mem part member)
      cases parts with
      | nil => simpa using here
      | cons next parts =>
          rw [List.intercalate_cons_cons]
          simp only [List.mem_append, not_or]
          exact ⟨⟨here, not_sep⟩, later⟩

theorem signatureLine_oneLine {s : Summary} (presentable : Presentable s) :
    OneLine (signatureLine s).toList := by
  rw [signatureLine_toList]
  constructor
  · have word : '\n' ∉ s.visibility.toList := by
      rcases presentable.visibility_word with word | word <;> rw [word] <;> decide
    have params : '\n' ∉ ", ".toList.intercalate (s.parameters.map element) := by
      refine not_mem_intercalate (by decide) fun part member => ?_
      obtain ⟨p, listed, rfl⟩ := List.mem_map.1 member
      have good := presentable.parameters p listed
      simp only [element, List.mem_append, not_or]
      exact ⟨mark_not_mem_name good.named (by decide), by decide, good.type_on_line⟩
    simp only [List.mem_append, not_or]
    exact ⟨word, by decide, presentable.name_on_line, by decide, params, by decide,
      presentable.result_on_line⟩
  · have ends := presentable.result_end
    cases last : s.returnType.toList.getLast? with
    | none => simp [List.getLast?_append, List.getLast?_cons, last]
    | some c => simpa [List.getLast?_append, List.getLast?_cons, last] using ends

theorem text_oneLine {v : Value} (named : v ∈ [Value.stable, Value.unstable, Value.runtime]) :
    OneLine v.text.toList ∧ v.text.toList ≠ [] := by
  simp only [List.mem_cons, List.not_mem_nil, or_false] at named
  rcases named with rfl | rfl | rfl <;> exact ⟨⟨by decide, by decide⟩, by decide⟩

theorem itemLine_oneLine {p : Parameter} (presentable : PresentableParameter p) :
    OneLine (itemLine p).toList := by
  obtain ⟨value, some_text⟩ := text_oneLine presentable.stability_named
  rw [itemLine_toList]
  constructor
  · have reason : '\n' ∉ reasonText p.reason.toList := by
      rw [reasonText]
      split
      · simp
      · simpa using presentable.reason_on_line
    simp only [List.mem_append, not_or]
    exact ⟨by decide, mark_not_mem_name presentable.named (by decide), by decide, value.unbroken,
      reason⟩
  · have ends := value.no_return
    cases last : p.stability.text.toList.getLast? with
    | none => exact absurd (List.getLast?_eq_none_iff.1 last) some_text
    | some c =>
        rw [last] at ends
        rw [reasonText]
        split
        · simpa [List.getLast?_append, List.getLast?_cons, last] using ends
        · simp [List.getLast?_append, List.getLast?_cons]

theorem entryLines_oneLine {s : Summary} (presentable : Presentable s) :
    ∀ line ∈ entryLines s, OneLine line.toList := by
  have truth (b : Bool) : Text.truthText b = "true" ∨ Text.truthText b = "false" := by
    cases b <;> decide
  intro line member
  simp only [entryLines, List.mem_append, List.mem_cons, List.not_mem_nil, or_false] at member
  rcases member with (rfl | rfl | rfl | rfl) | listed
  · exact ⟨by decide, by decide⟩
  · exact signatureLine_oneLine presentable
  · rcases truth s.skippable with word | word <;> rw [word] <;> exact ⟨by decide, by decide⟩
  · rcases truth s.restartable with word | word <;> rw [word] <;> exact ⟨by decide, by decide⟩
  · split at listed
    · simp at listed
    · rcases List.mem_cons.1 listed with rfl | item
      · exact ⟨by decide, by decide⟩
      · obtain ⟨p, member, rfl⟩ := List.mem_map.1 item
        exact itemLine_oneLine (presentable.parameters p member)

theorem mem_sortByName {s : Summary} {summaries : List Summary} :
    s ∈ sortByName summaries ↔ s ∈ summaries :=
  List.mem_mergeSort

theorem mem_lines {summaries : List Summary} {s : Summary} (member : s ∈ summaries) {line : String}
    (entry : line ∈ entryLines s) : line ∈ lines summaries :=
  List.mem_append_right opening
    (List.mem_flatMap.2 ⟨s, mem_sortByName.2 member, List.mem_cons_of_mem "" entry⟩)

theorem lines_oneLine {summaries : List Summary}
    (entries : ∀ s ∈ summaries, ∀ line ∈ entryLines s, OneLine line.toList) :
    ∀ line ∈ lines summaries, OneLine line.toList := by
  intro line member
  rcases List.mem_append.1 member with first | later
  · simp only [opening, List.mem_cons, List.not_mem_nil, or_false] at first
    rcases first with rfl | rfl <;> exact ⟨by decide, by decide⟩
  · obtain ⟨s, listed, here⟩ := List.mem_flatMap.1 later
    rcases List.mem_cons.1 here with rfl | entry
    · exact ⟨by decide, by decide⟩
    · exact entries s (mem_sortByName.1 listed) line entry

/-- A written text is cut into the lines it was written from, if each of them is one line. -/
theorem rawLines_write {summaries : List Summary}
    (one : ∀ line ∈ lines summaries, OneLine line.toList) :
    rawLines (write summaries).toList = (lines summaries).map String.toList := by
  have joined : (write summaries).toList =
      ((lines summaries).map String.toList).flatMap (· ++ ['\n']) := by
    simp [write, String.toList_join, List.flatMap_map]
  have unbroken : ∀ line ∈ (lines summaries).map String.toList, '\n' ∉ line := by
    intro line member
    obtain ⟨text, listed, rfl⟩ := List.mem_map.1 member
    exact (one text listed).unbroken
  rw [rawLines, joined, Text.splitChar_join unbroken]
  simp

theorem withoutReturn_write {summaries : List Summary}
    (one : ∀ line ∈ lines summaries, OneLine line.toList) :
    (rawLines (write summaries).toList).map (fun raw => String.ofList (withoutReturn raw)) =
      lines summaries := by
  rw [rawLines_write one, List.map_map]
  conv_rhs => rw [← List.map_id (lines summaries)]
  refine List.map_congr_left fun line member => ?_
  simp [(one line member).withoutReturn_eq]

/-- A written text is read exactly as its lines are accepted, if they fit. -/
theorem parse_write_iff {summaries all : List Summary}
    (one : ∀ line ∈ lines summaries, OneLine line.toList) :
    parse (write summaries) = .ok all ↔
      (∀ line ∈ lines summaries, byteLength line.toList ≤ lineLimit) ∧
        Accepts .outside (lines summaries) all := by
  rw [parse, readLines_eq_ok_iff, withoutReturn_write one, rawLines_write one, List.forall_mem_map]

/-! ## The order of entries -/

theorem sortByName_pairwise (summaries : List Summary) :
    (sortByName summaries).Pairwise fun a b => a.qualifiedName ≤ b.qualifiedName := by
  have sorted : (sortByName summaries).Pairwise fun a b =>
      decide (a.qualifiedName ≤ b.qualifiedName) = true :=
    List.pairwise_mergeSort
      (fun a b c ab bc => by simpa using String.le_trans (by simpa using ab) (by simpa using bc))
      (fun a b => by simpa using String.le_total a.qualifiedName b.qualifiedName) summaries
  exact sorted.imp fun before => by simpa using before

theorem sortByName_strict {summaries : List Summary}
    (distinct : (summaries.map (·.qualifiedName)).Nodup) :
    (sortByName summaries).Pairwise fun a b => a.qualifiedName < b.qualifiedName := by
  have perm : (sortByName summaries).Perm summaries := List.mergeSort_perm _ _
  have apart : (sortByName summaries).Pairwise fun a b => a.qualifiedName ≠ b.qualifiedName :=
    List.pairwise_map.1 ((perm.map _).nodup_iff.2 distinct)
  refine ((sortByName_pairwise summaries).and apart).imp fun {a b} order => ?_
  exact String.not_le.1 fun back => order.2 (String.le_antisymm order.1 back)

/-- Summaries with distinct names have one order. -/
theorem sortByName_perm {summaries others : List Summary} (same : others.Perm summaries)
    (distinct : (summaries.map (·.qualifiedName)).Nodup) :
    sortByName others = sortByName summaries := by
  have perm : (sortByName others).Perm (sortByName summaries) :=
    (List.mergeSort_perm _ _).trans (same.trans (List.mergeSort_perm _ _).symm)
  refine perm.eq_of_pairwise ?_ (sortByName_pairwise others) (sortByName_pairwise summaries)
  intro a b listed_a listed_b before after
  have member_a : a ∈ summaries := same.mem_iff.1 (mem_sortByName.1 listed_a)
  have member_b : b ∈ summaries := mem_sortByName.1 listed_b
  exact List.inj_on_of_nodup_map distinct member_a member_b (String.le_antisymm before after)

/-! ## Reading what was written -/

theorem lines_fit {summaries : List Summary}
    (fit : ∀ s ∈ summaries, ∀ line ∈ entryLines s, byteLength line.toList ≤ lineLimit) :
    ∀ line ∈ lines summaries, byteLength line.toList ≤ lineLimit := by
  intro line member
  rcases List.mem_append.1 member with first | later
  · simp only [opening, List.mem_cons, List.not_mem_nil, or_false] at first
    rcases first with rfl | rfl <;> decide
  · obtain ⟨s, listed, here⟩ := List.mem_flatMap.1 later
    rcases List.mem_cons.1 here with rfl | entry
    · decide
    · exact fit s (mem_sortByName.1 listed) line entry

theorem opening_reads : Reads .outside opening [] .outside :=
  .cons (readLine_comment .outside (by decide)) <|
    .cons (readLine_comment .outside (by decide)) <| .nil _

/-- Legible summaries are read back in the order of their names. -/
theorem parse_legible {summaries : List Summary} (presentable : ∀ s ∈ summaries, Presentable s)
    (legible : ∀ s ∈ summaries, Legible s)
    (fit : ∀ s ∈ summaries, ∀ line ∈ entryLines s, byteLength line.toList ≤ lineLimit) :
    parse (write summaries) = .ok ((sortByName summaries).map asReported) := by
  have outside : finish .outside = .ok [] := rfl
  obtain ⟨last, early, late, run, finished, order⟩ := entries_read
    (fun s member => presentable s (mem_sortByName.1 member))
    (fun s member => legible s (mem_sortByName.1 member)) outside
  have whole : Reads .outside (lines summaries) early last := opening_reads.append run
  rw [parse_write_iff (lines_oneLine fun s member => entryLines_oneLine (presentable s member))]
  exact ⟨lines_fit fit, last, early, late, whole, finished, order.symm⟩

/-- Reading a written report gives the summaries in the order of their names, without
what reports leave out, and writing does not depend on the order they are given in. -/
theorem parse_write (summaries : List Summary)
    (distinct : (summaries.map (·.qualifiedName)).Nodup)
    (writable : ∀ s ∈ summaries, Writable s)
    (fit : ∀ s ∈ summaries, ∀ line ∈ entryLines s, byteLength line.toList ≤ lineLimit) :
    (∃ sorted : List Summary, sorted.Perm summaries ∧
      sorted.Pairwise (fun a b => a.qualifiedName < b.qualifiedName) ∧
      parse (write summaries) = .ok (sorted.map asReported)) ∧
    ∀ others, others.Perm summaries → write others = write summaries := by
  constructor
  · have read := parse_legible (fun s member => (writable s member).presentable)
      (fun s member => (writable s member).legible) fit
    exact ⟨sortByName summaries, List.mergeSort_perm _ _, sortByName_strict distinct, read⟩
  · intro others same
    simp only [write, lines, sortByName_perm same distinct]

/-- Two functions, not in the order of their names: types nest all brackets, and a
reason looks like the end of a signature. -/
def gallery : List Summary :=
  [{ name := "Row", qualifiedName := "ui.Row", visibility := "unexported"
     returnType := "(int, error)", restartable := true, skippable := false
     parameters :=
       [⟨"cells", "map[string]func(a, b int) (c []T, d struct\x7bX, Y int\x7d)", .unstable,
          "func (x): y, z"⟩,
        ⟨"", "...ui.Modifier", .runtime, ""⟩]
     receivers := [⟨"ui.Grid", .stable, "", .dispatch⟩] },
   { name := "Card", qualifiedName := "ui.Card", visibility := "exported", returnType := "()"
     restartable := true, skippable := true, readonly := true }]

/-- The gallery is read back in the order of names, and does not depend on its own order. -/
theorem gallery_parse_write :
    (∃ sorted : List Summary, sorted.Perm gallery ∧
      sorted.Pairwise (fun a b => a.qualifiedName < b.qualifiedName) ∧
      parse (write gallery) = .ok (sorted.map asReported)) ∧
    ∀ others, others.Perm gallery → write others = write gallery := by
  refine parse_write gallery (by decide +kernel) (fun s member => ?_) (by decide +kernel)
  simp only [gallery, List.mem_cons, List.not_mem_nil, or_false] at member
  rcases member with rfl | rfl
  · exact ⟨.inr rfl, by decide, by decide, by decide, by decide, by decide, by decide, by decide,
      by decide +kernel⟩
  · exact ⟨.inl rfl, by decide, by decide, by decide, by decide, by decide, by decide, by decide,
      by decide⟩

end ComposeStability.Report
