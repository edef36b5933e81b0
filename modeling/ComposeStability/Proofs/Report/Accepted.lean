/-
# Proofs.Report.Accepted -- the texts that are read as reports

A line is read by what it is alone: a border between entries, a signature, or a
note that the entry can hear (`readLine_within_iff`).  An entry hears its notes one
by one, and what it has heard at the end is what the notes tell together
(`accepts_within_iff`).  So the reader accepts exactly the texts that have the form
of a report (`parse_eq_ok_iff`).
-/
import ComposeStability.Proofs.Report.Grammar
import Mathlib.Data.List.TakeWhile

namespace ComposeStability.Report

set_option autoImplicit false

open Stability (Summary Parameter Value)

/-! ## Lines -/

theorem trimBlanks_isEmpty_iff {line : String} :
    (Text.trimBlanks line.toList).isEmpty = true ↔ Blank line := by
  constructor
  · intro empty c member
    by_contra visible
    exact Text.trimBlanks_ne_nil member (by simpa using visible) (by simpa using empty)
  · intro blank
    have rest : line.toList.dropWhile Text.isBlank = [] := List.dropWhile_eq_nil_iff.2 blank
    simp [Text.trimBlanks, rest, Text.trimRight]

theorem map_pair_eq_ok_iff {result : Except (String × Problem) (List Summary)} {state next : State}
    {done : List Summary} :
    result.map (·, state) = .ok (done, next) ↔ result = .ok done ∧ next = state := by
  cases result <;> simp [Except.map, eq_comm]

/-- A line that is neither a comment nor blank nor a heading is read by the state it is met in. -/
theorem ordinary_line {line : String} (content : Text.startsWith "//" line = false)
    (some_text : ¬ Blank line) (no_heading : line ≠ heading) :
    ['/', '/'].isPrefixOf line.toList = false ∧ (Text.trimBlanks line.toList).isEmpty = false ∧
      line.toList ≠ heading.toList := by
  refine ⟨content, ?_, fun same => no_heading (String.toList_inj.1 same)⟩
  rw [← Bool.not_eq_true, trimBlanks_isEmpty_iff]
  exact some_text

/-- A blank line or a heading completes the entry it is met in. -/
theorem readLine_border_iff {line : String} (content : Text.startsWith "//" line = false)
    {state next : State} {done : List Summary} (border : Blank line ∨ line = heading) :
    readLine state line.toList = .ok (done, next) ↔ finish state = .ok done ∧
      (Blank line ∧ next = .outside ∨ line = heading ∧ next = .headed) := by
  have comment : ['/', '/'].isPrefixOf line.toList = false := content
  have not_both : line = heading → ¬ Blank line := by
    rintro rfl blank
    exact absurd (blank '@' (by decide)) (by decide)
  by_cases blank : Blank line
  · have no_heading : line ≠ heading := fun same => not_both same blank
    simp [readLine, comment, trimBlanks_isEmpty_iff.2 blank, map_pair_eq_ok_iff, blank, no_heading]
  · obtain rfl := border.resolve_left blank
    have some_text : (Text.trimBlanks heading.toList).isEmpty = false := by decide
    simp only [readLine, comment, some_text, blank, Bool.false_eq_true, if_false, if_true,
      map_pair_eq_ok_iff, false_and, false_or, true_and]

/-- Between entries only blank lines and headings are read. -/
theorem readLine_outside_iff {line : String} (content : Text.startsWith "//" line = false)
    {done : List Summary} {next : State} :
    readLine .outside line.toList = .ok (done, next) ↔
      done = [] ∧ (Blank line ∧ next = .outside ∨ line = heading ∧ next = .headed) := by
  by_cases border : Blank line ∨ line = heading
  · rw [readLine_border_iff content border]
    simp [finish, eq_comm]
  · obtain ⟨some_text, no_heading⟩ := not_or.1 border
    obtain ⟨comment, blank, ordinary⟩ := ordinary_line content some_text no_heading
    simp [readLine, comment, blank, ordinary, some_text, no_heading]

/-- A line of notes is indented and has some text. -/
theorem Says.shape {line : String} {note : Note} (written : Says line note) :
    ∃ rest c, line.toList = ' ' :: rest ∧ c ∈ rest ∧ Text.isBlank c = false := by
  cases written with
  | property truth => exact ⟨_, ':', by simp; rfl, by simp, by decide⟩
  | params => exact ⟨_, ':', rfl, by decide, by decide⟩
  | item named explained => exact ⟨_, '-', by simp; rfl, by simp, by decide⟩

/-- A line of notes is no comment, not blank and no heading. -/
theorem Says.ordinary {line : String} {note : Note} (written : Says line note) :
    Text.startsWith "//" line = false ∧ ¬ Blank line ∧ line ≠ heading := by
  obtain ⟨rest, c, shape, member, visible⟩ := written.shape
  refine ⟨?_, ?_, ?_⟩
  · simp [Text.startsWith, shape, List.isPrefixOf]
  · intro blank
    have hidden := blank c (shape ▸ List.mem_cons_of_mem _ member)
    simp [visible] at hidden
  · rintro rfl
    have start : heading.toList = '@' :: "Composable".toList := rfl
    simp [start] at shape

theorem withText_eq_ok_iff {text : List Char} {result : Except Problem Entry}
    {done : List Summary} {next : State} :
    withText text (result.map fun e => ([], .within e)) = .ok (done, next) ↔
      ∃ after, result = .ok after ∧ done = [] ∧ next = .within after := by
  cases result <;> simp [withText, Except.map, Except.mapError, eq_comm]

theorem Says.indented {line : String} {note : Note} (written : Says line note) :
    (∃ said text, note = .item said ∧ line = itemIndent ++ text) ∨
      note.item? = none ∧ ∃ text, line = propertyIndent ++ text := by
  cases written with
  | @property property text value truth =>
      refine .inr ⟨rfl, property.key ++ (": " ++ text), ?_⟩
      simp only [String.append_assoc]
      rfl
  | params => exact .inr ⟨rfl, "params:", by decide⟩
  | @item said tail named explained =>
      refine .inl ⟨said, said.name ++ (": " ++ (said.stability.text ++ tail)), rfl, ?_⟩
      simp only [String.append_assoc]
      rfl

/-- Only the lines of items begin as items do. -/
theorem Says.no_item {text : String} {note : Note} (written : Says (propertyIndent ++ text) note)
    (other : note.item? = none) :
    Text.afterStart? itemIndent.toList (propertyIndent ++ text).toList = none := by
  cases note with
  | property property b =>
      obtain ⟨value, -, rfl⟩ := says_property_iff.1 written
      cases property <;> simp [Property.key] <;> rfl
  | params =>
      obtain rfl := says_params_iff.1 written
      rfl
  | item said => cases other

/-- In an entry, the lines of notes are read if the entry can hear the notes. -/
theorem readNote_iff {line : String} (content : Text.startsWith "//" line = false)
    (some_text : ¬ Blank line) (no_heading : line ≠ heading) {e : Entry} (labelled : e.Labelled)
    {done : List Summary} {next : State} :
    readLine (.within e) line.toList = .ok (done, next) ↔
      ∃ note after, Says line note ∧ e.hear? note = some after ∧ done = [] ∧
        next = .within after := by
  obtain ⟨comment, blank, ordinary⟩ := ordinary_line content some_text no_heading
  simp only [readLine, comment, blank, ordinary, Bool.false_eq_true, if_false]
  constructor
  · intro read
    split at read
    · next item found =>
      obtain rfl : line = itemIndent ++ String.ofList item := by
        simpa [← String.toList_inj] using Text.afterStart?_eq_some_iff.1 found
      split at read
      · next listing =>
        obtain ⟨after, heard, rfl, rfl⟩ := withText_eq_ok_iff.1 read
        rw [← String.toList_ofList (l := item), itemOf_eq_ok_iff_hear labelled listing] at heard
        obtain ⟨said, written, heard⟩ := heard
        exact ⟨_, after, written, heard, rfl, rfl⟩
      · cases read
    · split at read
      · next property found =>
        obtain rfl : line = propertyIndent ++ String.ofList property := by
          simpa [← String.toList_inj] using Text.afterStart?_eq_some_iff.1 found
        obtain ⟨after, heard, rfl, rfl⟩ := withText_eq_ok_iff.1 read
        rw [← String.toList_ofList (l := property), propertyOf_eq_ok_iff_hear] at heard
        obtain ⟨note, written, -, heard⟩ := heard
        exact ⟨note, after, written, heard, rfl, rfl⟩
      · cases read
  · rintro ⟨note, after, written, heard, rfl, rfl⟩
    rcases written.indented with ⟨said, text, rfl, rfl⟩ | ⟨no_item, text, rfl⟩
    · have listing := (hear?_item_iff.1 heard).1
      rw [String.toList_append, Text.afterStart?_append]
      simp only [listing, if_true]
      rw [withText_eq_ok_iff]
      exact ⟨after, (itemOf_eq_ok_iff_hear labelled listing).2 ⟨said, written, heard⟩, rfl, rfl⟩
    · rw [written.no_item no_item, String.toList_append, Text.afterStart?_append]
      simp only
      rw [withText_eq_ok_iff]
      exact ⟨after, propertyOf_eq_ok_iff_hear.2 ⟨note, written, no_item, heard⟩, rfl, rfl⟩

/-- Within an entry, a line is read as between entries if the entry is complete, or it is a note
that the entry can hear. -/
theorem readLine_within_iff {line : String} (content : Text.startsWith "//" line = false)
    {e : Entry} (labelled : e.Labelled) {done : List Summary} {next : State} :
    readLine (.within e) line.toList = .ok (done, next) ↔
      (e.pending = [] ∧ done = [e.summary] ∧ readLine .outside line.toList = .ok ([], next)) ∨
      ∃ note after, Says line note ∧ e.hear? note = some after ∧ done = [] ∧
        next = .within after := by
  rw [readLine_outside_iff content]
  by_cases border : Blank line ∨ line = heading
  · rw [readLine_border_iff content border, finish_within_iff]
    have no_note : ∀ note, ¬ Says line note := fun note written =>
      (not_or.2 written.ordinary.2) border
    simp [no_note, and_assoc]
  · obtain ⟨some_text, no_heading⟩ := not_or.1 border
    rw [readNote_iff content some_text no_heading labelled]
    simp [some_text, no_heading]

/-! ## Entries -/

/-- An entry can hear all of these notes and is complete after them. -/
structure Entry.Admits (e : Entry) (notes : List Note) : Prop where
  opened : ∀ before said after, notes = before ++ .item said :: after →
    e.listing = true ∨ .params ∈ before
  names : (notes.filterMap Note.item?).map (·.name) = e.pending.map (·.1)

/-- What an entry tells after these notes. -/
def Entry.told (e : Entry) (notes : List Note) : Summary :=
  { e.summary with
    parameters := e.listed ++ List.zipWith described e.pending (notes.filterMap Note.item?)
    skippable := (notes.filterMap (Note.value? .skippable)).getLast?.getD e.skippable
    restartable := (notes.filterMap (Note.value? .restartable)).getLast?.getD e.restartable }

theorem admits_nil_iff {e : Entry} : e.Admits [] ↔ e.pending = [] :=
  ⟨fun admits => by simpa using admits.names.symm,
    fun complete => ⟨by simp, by simp [complete]⟩⟩

theorem told_nil {e : Entry} (complete : e.pending = []) : e.told [] = e.summary := by
  simp [Entry.told, complete, Entry.summary]

/-- A list is opened before the items after a note, by the note or behind it. -/
theorem opened_cons_iff {opened : Prop} {note : Note} {notes : List Note} :
    (∀ before said after, note :: notes = before ++ .item said :: after →
        opened ∨ .params ∈ before) ↔
      (∀ said, note = .item said → opened) ∧
        ∀ before said after, notes = before ++ .item said :: after →
          (opened ∨ .params = note) ∨ .params ∈ before := by
  constructor
  · intro always
    refine ⟨fun said same => by simpa using always [] said notes (by simp [same]), ?_⟩
    intro before said after split
    have found := always (note :: before) said after (by simp [split])
    rwa [List.mem_cons, ← or_assoc] at found
  · rintro ⟨here, later⟩ before said after split
    cases before with
    | nil => exact .inl (here said (List.cons.inj split).1)
    | cons first before =>
        obtain ⟨rfl, rest⟩ := List.cons.inj split
        rw [List.mem_cons, ← or_assoc]
        exact later before said after rest

theorem admits_iff {e : Entry} {notes : List Note} :
    e.Admits notes ↔
      (∀ before said after, notes = before ++ .item said :: after →
        e.listing = true ∨ .params ∈ before) ∧
      (notes.filterMap Note.item?).map (·.name) = e.pending.map (·.1) :=
  ⟨fun admits => ⟨admits.1, admits.2⟩, fun admits => ⟨admits.1, admits.2⟩⟩

/-- Notes are heard one by one. -/
theorem admits_cons_iff {e : Entry} {note : Note} {notes : List Note} :
    e.Admits (note :: notes) ↔ ∃ after, e.hear? note = some after ∧ after.Admits notes := by
  rw [admits_iff, opened_cons_iff]
  simp only [admits_iff]
  cases note with
  | property property value =>
      cases property <;> simp [Entry.hear?, List.filterMap_cons, Note.item?]
  | params => simp [Entry.hear?, List.filterMap_cons, Note.item?]
  | item said =>
      simp only [hear?_item_iff]
      constructor
      · rintro ⟨⟨here, -⟩, names⟩
        have listing := here said rfl
        obtain ⟨⟨name, type⟩, pending, next_param, rfl, names⟩ := List.map_eq_cons_iff.1 names.symm
        exact ⟨_, ⟨listing, type, pending, next_param, rfl⟩, fun _ _ _ _ => .inl listing,
          names.symm⟩
      · rintro ⟨_, ⟨listing, type, pending, next_param, rfl⟩, -, names⟩
        refine ⟨⟨fun _ _ => listing, fun _ _ _ _ => .inl (.inl listing)⟩, ?_⟩
        simpa [List.filterMap_cons, Note.item?, next_param] using names

/-- What was heard first is part of what is told. -/
theorem told_cons {e after : Entry} {note : Note} {notes : List Note}
    (heard : e.hear? note = some after) : after.told notes = e.told (note :: notes) := by
  cases note with
  | property property value =>
      cases property <;>
        · obtain rfl := Option.some.inj heard
          simp [Entry.told, Entry.summary, List.filterMap_cons, Note.value?, Note.item?,
            List.getLast?_cons]
  | params =>
      obtain rfl := Option.some.inj heard
      simp [Entry.told, Entry.summary, List.filterMap_cons, Note.value?, Note.item?]
  | item said =>
      obtain ⟨-, type, pending, next_param, rfl⟩ := hear?_item_iff.1 heard
      simp [Entry.told, Entry.summary, List.filterMap_cons, Note.value?, Note.item?, next_param,
        described]

theorem Entry.Labelled.hear {e after : Entry} (labelled : e.Labelled) {note : Note}
    (heard : e.hear? note = some after) : after.Labelled := by
  cases note with
  | property property value =>
      cases property <;>
        · obtain rfl := Option.some.inj heard
          exact labelled
  | params =>
      obtain rfl := Option.some.inj heard
      exact labelled
  | item said =>
      obtain ⟨-, type, pending, next_param, rfl⟩ := hear?_item_iff.1 heard
      exact fun param member => labelled param (next_param ▸ List.mem_cons_of_mem _ member)

/-- The lines of an entry are notes that it can hear, up to where lines are read as between
entries. -/
theorem accepts_within_iff {lines : List String}
    (content : ∀ line ∈ lines, Text.startsWith "//" line = false) {e : Entry}
    (labelled : e.Labelled) {all : List Summary} :
    Accepts (.within e) lines all ↔ ∃ body notes rest more, lines = body ++ rest ∧
      List.Forall₂ Says body notes ∧ e.Admits notes ∧ Accepts .outside rest more ∧
        all = e.told notes :: more := by
  induction lines generalizing e all with
  | nil =>
      rw [accepts_nil_iff, finish_within_iff]
      constructor
      · rintro ⟨complete, rfl⟩
        exact ⟨[], [], [], [], rfl, .nil, admits_nil_iff.2 complete, accepts_nil_iff.2 rfl,
          by rw [told_nil complete]⟩
      · rintro ⟨body, notes, rest, more, whole, written, admits, ends, rfl⟩
        obtain ⟨rfl, rfl⟩ := List.append_eq_nil_iff.1 whole.symm
        cases written
        have complete := admits_nil_iff.1 admits
        obtain rfl := Except.ok.inj (accepts_nil_iff.1 ends)
        exact ⟨complete, by rw [told_nil complete]⟩
  | cons line lines ih =>
      have here := content line List.mem_cons_self
      have later := fun other member => content other (List.mem_cons_of_mem line member)
      rw [accepts_cons_iff]
      constructor
      · rintro ⟨done, next, more, step, onward, rfl⟩
        rcases (readLine_within_iff here labelled).1 step with
          ⟨complete, rfl, border⟩ | ⟨note, after, written, heard, rfl, rfl⟩
        · exact ⟨[], [], line :: lines, more, rfl, .nil, admits_nil_iff.2 complete,
            accepts_cons_iff.2 ⟨[], next, more, border, onward, rfl⟩,
            by rw [told_nil complete]; rfl⟩
        · obtain ⟨body, notes, rest, more, rfl, rest_written, admits, ends, rfl⟩ :=
            (ih later (labelled.hear heard)).1 onward
          exact ⟨line :: body, note :: notes, rest, more, rfl, .cons written rest_written,
            admits_cons_iff.2 ⟨after, heard, admits⟩, ends, by rw [told_cons heard]; rfl⟩
      · rintro ⟨body, notes, rest, more, whole, written, admits, ends, rfl⟩
        cases written with
        | nil =>
            obtain rfl : line :: lines = rest := whole
            have complete := admits_nil_iff.1 admits
            obtain ⟨done, next, more, border, onward, rfl⟩ := accepts_cons_iff.1 ends
            obtain ⟨rfl, -⟩ := (readLine_outside_iff here).1 border
            exact ⟨[e.summary], next, more,
              (readLine_within_iff here labelled).2 (.inl ⟨complete, rfl, border⟩), onward,
              by rw [told_nil complete]; rfl⟩
        | cons written rest_written =>
            obtain ⟨rfl, rfl⟩ := List.cons.inj whole
            obtain ⟨after, heard, admits⟩ := admits_cons_iff.1 admits
            refine ⟨[], .within after, _, (readLine_within_iff here labelled).2
              (.inr ⟨_, after, written, heard, rfl, rfl⟩), (ih later (labelled.hear heard)).2
              ⟨_, _, rest, more, rfl, rest_written, admits, ends, rfl⟩, ?_⟩
            rw [told_cons heard]
            rfl

/-! ## Names -/

theorem isLastName_lastName (qualifiedName : String) :
    IsLastName qualifiedName (lastName qualifiedName) := by
  rw [lastName, Text.cutLastString]
  cases found : Text.cutLast ".".toList qualifiedName.toList with
  | none =>
      refine ⟨fun dot => ?_, .inl rfl⟩
      obtain ⟨parts, some_parts⟩ := Text.cutLast_isSome ((List.singleton_infix_iff _ _).2 dot)
      cases found.symm.trans some_parts
  | some parts =>
      have no_dot := Text.cutLast_after (by decide) found
      rw [Option.map_some]
      refine ⟨fun dot => no_dot ((List.singleton_infix_iff _ _).2 ?_), .inr ⟨.ofList parts.1, ?_⟩⟩
      · rwa [String.toList_ofList] at dot
      simpa [← String.toList_inj] using Text.cutLast_eq_append found

/-- The name after the last dot is the one read. -/
theorem isLastName_iff {qualifiedName name : String} :
    IsLastName qualifiedName name ↔ name = lastName qualifiedName := by
  constructor
  · rintro ⟨no_dot, rfl | ⟨qualifier, rfl⟩⟩
    · have absent : Text.cutLast ".".toList qualifiedName.toList = none :=
        Text.cutLast_absent fun dot => no_dot ((List.singleton_infix_iff _ _).1 dot)
      simp only [lastName, Text.cutLastString, absent, Option.map_none]
    · have found : Text.cutLast ".".toList (qualifier ++ "." ++ name).toList =
          some (qualifier.toList, name.toList) := by
        have behind : ¬ ['.'] <:+: name.toList := fun dot =>
          no_dot ((List.singleton_infix_iff _ _).1 dot)
        have placed := Text.cutLast_append (List.not_mem_nil) behind qualifier.toList
        simpa using placed
      simp only [lastName, Text.cutLastString, found, Option.map_some, String.ofList_toList]
  · rintro rfl
    exact isLastName_lastName qualifiedName

/-! ## Reports -/

/-- In the parts of a signature the names of parameters end at the first colon with a space. -/
theorem IsSignature.labelled {line visibility name result : String}
    {params : List (String × String)} (signature : IsSignature line visibility name result params) :
    Entry.Labelled
      { visibility, qualifiedName := name, returnType := result, pending := params } := by
  obtain ⟨-, -, -, -, -, lists⟩ := signature
  intro param member rest
  cases lists with
  | none => cases member
  | some filled divided each =>
      obtain ⟨part, -, here⟩ := exists_of_forall₂ each.flip member
      exact here.withAfter rest

theorem labelled_of_signatureOf {line : List Char} {e : Entry} (read : signatureOf line = .ok e) :
    e.Labelled := by
  obtain ⟨_, _, _, _, signature, rfl⟩ := signatureOf_eq_ok_iff.1 read
  exact signature.labelled

/-- A line with a signature is not blank and no heading. -/
theorem signature_ordinary {line : String} {e : Entry} (read : signatureOf line.toList = .ok e) :
    ¬ Blank line ∧ line ≠ heading := by
  obtain ⟨_, _, _, _, signature, -⟩ := signatureOf_eq_ok_iff.1 read
  obtain ⟨-, -, func, -, -, -⟩ := signature
  have whole := func.whole
  rw [String.ofList_toList] at whole
  constructor
  · intro blank
    have hidden := blank 'f' (by simp [whole])
    exact absurd hidden (by decide)
  · rintro rfl
    have space : ' ' ∈ heading.toList := by simp [whole]
    exact absurd space (by decide)

/-- After a heading only signatures are read. -/
theorem readLine_headed_iff {line : String} (content : Text.startsWith "//" line = false)
    {done : List Summary} {next : State} :
    readLine .headed line.toList = .ok (done, next) ↔
      ∃ e, signatureOf line.toList = .ok e ∧ done = [] ∧ next = .within e := by
  by_cases border : Blank line ∨ line = heading
  · rw [readLine_border_iff content border]
    refine iff_of_false (fun complete => nomatch complete.1) ?_
    rintro ⟨e, read, -, -⟩
    exact (not_or.2 (signature_ordinary read)) border
  · obtain ⟨some_text, no_heading⟩ := not_or.1 border
    obtain ⟨comment, blank, ordinary⟩ := ordinary_line content some_text no_heading
    simp only [readLine, comment, blank, ordinary, Bool.false_eq_true, if_false]
    exact withText_eq_ok_iff

/-- An entry is a heading, what is read as a signature, and notes that it admits. -/
theorem isEntry_iff {entry : List String} {s : Summary} :
    IsEntry entry s ↔ ∃ signature body notes e, entry = heading :: signature :: body ∧
      signatureOf signature.toList = .ok e ∧ List.Forall₂ Says body notes ∧ e.Admits notes ∧
        s = e.told notes := by
  constructor
  · rintro ⟨⟨signature, body, params, notes, rfl, header, written, opened, names, parameters,
      skippable, restartable⟩, name, readonly, strong, receivers⟩
    have read := signatureOf_eq_ok_iff.2
      ⟨_, _, _, params, (String.ofList_toList (s := signature)).symm ▸ header, rfl⟩
    refine ⟨signature, body, notes, _, rfl, read, written, ⟨?_, names⟩, ?_⟩
    · exact fun before said after split => .inr (opened before said after split)
    · rw [isLastName_iff] at name
      cases s
      simp_all [Entry.told, Entry.summary]
  · rintro ⟨signature, body, notes, e, rfl, read, written, admits, rfl⟩
    obtain ⟨visibility, name, result, params, header, rfl⟩ := signatureOf_eq_ok_iff.1 read
    rw [String.ofList_toList] at header
    refine ⟨⟨signature, body, params, notes, rfl, header, written, ?_, admits.names,
      by simp [Entry.told], rfl, rfl⟩, isLastName_lastName _, rfl, rfl, rfl⟩
    intro before said after split
    simpa using admits.opened before said after split

/-- After a heading, lines are accepted if they go on as an entry does. -/
theorem accepts_headed_iff {lines : List String}
    (content : ∀ line ∈ lines, Text.startsWith "//" line = false) {all : List Summary} :
    Accepts .headed lines all ↔ ∃ signature body rest s more,
      lines = signature :: body ++ rest ∧ IsEntry (heading :: signature :: body) s ∧
        Accepts .outside rest more ∧ all = s :: more := by
  cases lines with
  | nil =>
      rw [accepts_nil_iff]
      exact iff_of_false (fun complete => nomatch complete) fun ⟨_, _, _, _, _, whole, _⟩ =>
        nomatch whole
  | cons line lines =>
      obtain ⟨here, later⟩ := List.forall_mem_cons.1 content
      rw [accepts_cons_iff]
      simp only [readLine_headed_iff here]
      constructor
      · rintro ⟨_, _, all, ⟨e, read, rfl, rfl⟩, onward, rfl⟩
        obtain ⟨body, notes, rest, more, rfl, written, admits, ends, rfl⟩ :=
          (accepts_within_iff later (labelled_of_signatureOf read)).1 onward
        exact ⟨line, body, rest, _, more, rfl,
          isEntry_iff.2 ⟨line, body, notes, e, rfl, read, written, admits, rfl⟩, ends, rfl⟩
      · rintro ⟨signature, body, rest, s, more, whole, entry, ends, rfl⟩
        obtain ⟨_, _, notes, e, same, read, written, admits, rfl⟩ := isEntry_iff.1 entry
        obtain ⟨rfl, rfl⟩ := List.cons.inj (List.cons.inj same).2
        obtain ⟨rfl, rfl⟩ := List.cons.inj whole
        exact ⟨[], .within e, _, ⟨e, read, rfl, rfl⟩,
          (accepts_within_iff later (labelled_of_signatureOf read)).2
            ⟨body, notes, rest, more, rfl, written, admits, ends, rfl⟩, rfl⟩

/-- Lines are accepted between entries exactly if they are a report. -/
theorem accepts_outside_iff {lines : List String}
    (content : ∀ line ∈ lines, Text.startsWith "//" line = false) {all : List Summary} :
    Accepts .outside lines all ↔ IsReport lines all := by
  constructor
  · intro accepts
    induction length : lines.length using Nat.strongRecOn generalizing lines all with
    | ind n ih =>
        cases lines with
        | nil =>
            obtain rfl := Except.ok.inj (accepts_nil_iff.1 accepts)
            exact .nil
        | cons line lines =>
            obtain ⟨here, later⟩ := List.forall_mem_cons.1 content
            obtain ⟨done, next, more, step, onward, rfl⟩ := accepts_cons_iff.1 accepts
            obtain ⟨rfl, ⟨blank, rfl⟩ | ⟨rfl, rfl⟩⟩ := (readLine_outside_iff here).1 step
            · exact .blank blank (ih lines.length (by simp [← length]) later onward rfl)
            · obtain ⟨signature, body, rest, s, more, rfl, entry, ends, rfl⟩ :=
                (accepts_headed_iff later).1 onward
              have shorter : rest.length < n := by simp [← length]; omega
              have after := (List.forall_mem_append.1 (List.forall_mem_cons.1 later).2).2
              exact .entry entry (ih rest.length shorter after ends rfl)
  · intro report
    induction report with
    | nil => exact accepts_nil_iff.2 rfl
    | blank blank more ih =>
        obtain ⟨here, later⟩ := List.forall_mem_cons.1 content
        exact accepts_cons_iff.2 ⟨[], .outside, _,
          (readLine_outside_iff here).2 ⟨rfl, .inl ⟨blank, rfl⟩⟩, ih later, rfl⟩
    | @entry entry rest s more here _ ih =>
        obtain ⟨signature, body, _, _, rfl, -⟩ := isEntry_iff.1 here
        obtain ⟨first, later⟩ := List.forall_mem_cons.1 content
        have after := (List.forall_mem_append.1 (List.forall_mem_cons.1 later).2).2
        refine accepts_cons_iff.2 ⟨[], .headed, _,
          (readLine_outside_iff first).2 ⟨rfl, .inr ⟨rfl, rfl⟩⟩, ?_, rfl⟩
        exact (accepts_headed_iff later).2
          ⟨signature, body, rest, s, more, rfl, here, ih after, rfl⟩

/-- Comments are passed over wherever they stand. -/
theorem accepts_filter_iff {state : State} {lines : List String} {all : List Summary} :
    Accepts state (lines.filter (!Text.startsWith "//" ·)) all ↔ Accepts state lines all := by
  induction lines generalizing state all with
  | nil => rfl
  | cons line lines ih =>
      cases content : Text.startsWith "//" line with
      | false =>
          rw [List.filter_cons_of_pos (by simp [content])]
          simp only [accepts_cons_iff, ih]
      | true =>
          have passed := readLine_comment state (List.isPrefixOf_iff_prefix.1 content)
          rw [List.filter_cons_of_neg (by simp [content]), ih, accepts_cons_iff, passed]
          simp

theorem contentLines_content (text : String) :
    ∀ line ∈ contentLines text, Text.startsWith "//" line = false := by
  intro line member
  simpa using (List.mem_filter.1 member).2

/-- A text is read exactly if its lines fit and form a report, and as the summaries of the entries
of this report, in their order. -/
theorem parse_eq_ok_iff {text : String} {summaries : List Summary} :
    parse text = .ok summaries ↔
      (∀ line ∈ rawLines text.toList, byteLength line ≤ lineLimit) ∧
        IsReport (contentLines text) summaries := by
  rw [parse, readLines_eq_ok_iff, ← accepts_outside_iff (contentLines_content text), contentLines,
    accepts_filter_iff]

end ComposeStability.Report
