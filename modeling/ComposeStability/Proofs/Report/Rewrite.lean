/-
# Proofs.Report.Rewrite -- writing what was read

The entries of a report may be spaced and ordered in many ways, and a signature may
hold brackets that do not match.  Written again, an entry still divides where it
did: each separator is found by one side of it alone, which writing leaves as it
was, and trimming an element takes away neither commas nor brackets
(`elements_rejoined`).  So every entry that was read is one again when it is
written (`isEntry_entryLines`), and a report that was read is read as the same
functions after it was rewritten (`parse_rewrite`).
-/
import ComposeStability.Proofs.Report.Accepted

namespace ComposeStability.Report

set_option autoImplicit false

open Stability (Summary Parameter Value)
open Text (FirstAt LastAt)

/-! ## Elements -/

theorem blank_level {c : Char} (blank : Text.isBlank c = true) : bracketStep c = 0 ∧ c ≠ ',' := by
  have visible (d : Char) (mark : d ∈ ['(', '[', '\x7b', ')', ']', '\x7d', ',']) : c ≠ d := by
    rintro rfl
    simp only [List.mem_cons, List.not_mem_nil, or_false] at mark
    rcases mark with rfl | rfl | rfl | rfl | rfl | rfl | rfl <;> exact absurd blank (by decide)
  refine ⟨?_, visible ',' (by simp)⟩
  simp [bracketStep, visible '(' (by simp), visible '[' (by simp), visible '\x7b' (by simp),
    visible ')' (by simp), visible ']' (by simp), visible '\x7d' (by simp)]

/-- Trimming an element changes nothing about its commas and brackets. -/
theorem trimBlanks_brackets (cs : List Char) (depth : Int) :
    bracketDepth (Text.trimBlanks cs) = bracketDepth cs ∧
      (CommasInside depth cs → CommasInside depth (Text.trimBlanks cs)) := by
  obtain ⟨lead, tail, whole, blank_lead, blank_tail⟩ := Text.trimBlanks_parts cs
  have lead_plain := plain_prepend (fun c member => blank_level (blank_lead c member)) depth
    (Text.trimBlanks cs ++ tail)
  have tail_level := (plain_prepend (fun c member => blank_level (blank_tail c member)) depth []).1
  rw [← List.append_assoc, ← whole] at lead_plain
  rw [List.append_nil, bracketDepth_nil] at tail_level
  constructor
  · rw [lead_plain.1, bracketDepth_append, tail_level, Int.add_zero]
  · intro inside
    exact (commasInside_append.1 (lead_plain.2.1 inside)).1

theorem divided_trimmed {parts : List (List Char)} {depth : Int} (divided : Divided depth parts) :
    Divided depth (parts.map Text.trimBlanks) := by
  induction parts generalizing depth with
  | nil => trivial
  | cons part parts ih =>
      obtain ⟨level, inside⟩ := trimBlanks_brackets part depth
      by_cases more : parts = []
      · subst more
        exact inside divided
      · obtain ⟨here, outside, later⟩ := (divided_cons_iff more).1 divided
        rw [List.map_cons, divided_cons_iff (by simpa using more), level]
        exact ⟨inside here, outside, ih later⟩

/-- Elements that are joined again are the same elements. -/
theorem elements_rejoined {cs : List Char} (filled : ∀ part ∈ elements cs, part ≠ []) :
    elements (", ".toList.intercalate (elements cs)) = elements cs := by
  refine (elements_join_iff (fun part member => ?_) filled).2 ?_
  · rw [elements] at member
    split at member
    · cases member
    · obtain ⟨piece, -, rfl⟩ := List.mem_map.1 member
      exact Text.trimmed_trimBlanks piece
  · rw [elements]
    split
    · trivial
    · exact divided_trimmed (elementsFrom_eq_iff.1 rfl).2.2

/-- Parameters that were read from a list are read again when they are written as one. -/
theorem lists_rejoined {list : String} {params : List (String × String)}
    (lists : ListsParameters list params) :
    ListsParameters (.ofList (", ".toList.intercalate
      (params.map fun param => param.1.toList ++ (": ".toList ++ param.2.toList)))) params := by
  have read : (elements list.toList).mapM parameterOf = .ok params :=
    elements_eq_ok_iff.2 (by rwa [String.ofList_toList])
  have parts := eq_map_of_mapM_ok element_of_parameterOf read
  rw [← parts, ← elements_eq_ok_iff, elements_rejoined ?_]
  · exact read
  · intro part member
    rw [parts] at member
    obtain ⟨param, -, rfl⟩ := List.mem_map.1 member
    simp

/-! ## Entries -/

/-- The names and types in the signature of a function. -/
def signed (s : Summary) : List (String × String) :=
  s.parameters.map fun p => (p.name, p.type)

/-- What the entry of a function says about each parameter. -/
def itemsOf (s : Summary) : List Item :=
  s.parameters.map fun p => ⟨p.name, p.stability, p.reason⟩

theorem signature_rewritten {line : String} {s : Summary}
    (signature : IsSignature line s.visibility s.qualifiedName s.returnType (signed s)) :
    IsSignature (signatureLine s) s.visibility s.qualifiedName s.returnType (signed s) := by
  obtain ⟨some_visibility, some_name, func, opens, closes, lists⟩ := signature
  have written := signatureLine_toList s
  have params : s.parameters.map element =
      (signed s).map fun param => param.1.toList ++ (": ".toList ++ param.2.toList) := by
    simp [signed, element]
  rw [params] at written
  refine .of_chars some_visibility some_name ?_ (opens.withAfter _) (closes.withBefore _)
    (lists_rejoined lists)
  simpa only [written, List.append_assoc] using func.withAfter _

theorem truthText_read (b : Bool) : Text.truth? (Text.truthText b) = some b := by
  cases b <;> decide

theorem property_written (property : Property) (b : Bool) :
    Says ("  " ++ property.key ++ ": " ++ Text.truthText b) (.property property b) :=
  .property (truthText_read b)

theorem item_written {p : Parameter}
    (named : p.stability ∈ [Value.stable, Value.unstable, Value.runtime]) :
    Says (itemLine p) (.item ⟨p.name, p.stability, p.reason⟩) := by
  refine says_item_iff.2 ⟨named, ?_⟩
  by_cases unexplained : p.reason = ""
  · exact ⟨"", by simpa [unexplained] using Explains.nothing, by
      simp [itemLine, unexplained, itemIndent, String.append_assoc]⟩
  · exact ⟨_, .reason p.reason, by
      simp [itemLine, unexplained, itemIndent, String.append_assoc]⟩

/-- The notes of the entry that is written for a function. -/
def notesOf (s : Summary) : List Note :=
  [.property .skippable s.skippable, .property .restartable s.restartable] ++
    if s.parameters.isEmpty then [] else .params :: (itemsOf s).map .item

/-- The lines after the signature. -/
def bodyLines (s : Summary) : List String :=
  [propertyIndent ++ "skippable: " ++ Text.truthText s.skippable,
    propertyIndent ++ "restartable: " ++ Text.truthText s.restartable] ++
    if s.parameters.isEmpty then [] else (propertyIndent ++ "params:") :: s.parameters.map itemLine

theorem entryLines_eq (s : Summary) :
    entryLines s = heading :: signatureLine s :: bodyLines s := rfl

theorem bodyLines_notes {s : Summary}
    (named : ∀ p ∈ s.parameters, p.stability ∈ [Value.stable, Value.unstable, Value.runtime]) :
    List.Forall₂ Says (bodyLines s) (notesOf s) := by
  have items : List.Forall₂ Says (s.parameters.map itemLine) ((itemsOf s).map .item) := by
    rw [itemsOf, List.map_map, List.forall₂_map_left_iff, List.forall₂_map_right_iff,
      List.forall₂_same]
    exact fun p listed => item_written (named p listed)
  have skippable := property_written .skippable s.skippable
  have restartable := property_written .restartable s.restartable
  rw [bodyLines, notesOf]
  split
  · exact .cons skippable (.cons restartable .nil)
  · exact .cons skippable (.cons restartable (.cons .params items))

/-- What the notes of a written entry tell. -/
theorem notesOf_items (s : Summary) : (notesOf s).filterMap Note.item? = itemsOf s := by
  have items : ((itemsOf s).map Note.item).filterMap Note.item? = itemsOf s := by
    rw [List.filterMap_map]
    exact List.filterMap_some
  by_cases none_listed : s.parameters = []
  · simp [notesOf, none_listed, List.filterMap_cons, Note.item?, itemsOf]
  · simp [notesOf, none_listed, List.filterMap_cons, Note.item?, items]

theorem notesOf_property (s : Summary) :
    (notesOf s).filterMap (Note.value? .skippable) = [s.skippable] ∧
      (notesOf s).filterMap (Note.value? .restartable) = [s.restartable] := by
  have items (property : Property) :
      ((itemsOf s).map Note.item).filterMap (Note.value? property) = [] := by
    rw [List.filterMap_map, List.filterMap_eq_nil_iff]
    exact fun said _ => rfl
  by_cases none_listed : s.parameters = []
  · simp [notesOf, none_listed, Note.value?]
  · simp [notesOf, none_listed, List.filterMap_cons, Note.value?, items]

theorem notesOf_opened (s : Summary) :
    ∀ before said after, notesOf s = before ++ .item said :: after → .params ∈ before := by
  have always (opened : Prop) : ∀ before said after, notesOf s = before ++ .item said :: after →
      opened ∨ .params ∈ before := by
    rw [notesOf]
    split
    · simp [opened_cons_iff]
    · simp [opened_cons_iff]
  simpa only [false_or] using always False

/-- Names and items of the same parameters are put together and taken apart again. -/
theorem described_parts {params : List (String × String)} {items : List Item}
    (names : items.map (·.name) = params.map (·.1)) :
    (List.zipWith described params items).map (fun p => (p.name, p.type)) = params ∧
      (List.zipWith described params items).map
        (fun p => (⟨p.name, p.stability, p.reason⟩ : Item)) = items := by
  induction params generalizing items with
  | nil =>
      obtain rfl : items = [] := by simpa using names
      exact ⟨rfl, rfl⟩
  | cons param params ih =>
      obtain ⟨⟨name, stability, reason⟩, items, rfl, same, rest⟩ := List.map_eq_cons_iff.1 names
      obtain rfl : name = param.1 := same
      obtain ⟨signed, told⟩ := ih rest
      simp [described, signed, told]

theorem says_of_item {body : List String} {notes : List Note}
    (written : List.Forall₂ Says body notes) {said : Item}
    (listed : said ∈ notes.filterMap Note.item?) : ∃ line ∈ body, Says line (.item said) := by
  obtain ⟨note, noted, is_item⟩ := List.mem_filterMap.1 listed
  cases note with
  | item other =>
      obtain rfl : other = said := Option.some.inj is_item
      exact exists_of_forall₂ written.flip noted
  | params => cases is_item
  | property => cases is_item

/-- The signature of an entry lists the parameters of its function, and each has an item. -/
theorem IsEntry.parts {entry : List String} {s : Summary} (here : IsEntry entry s) :
    ∃ signature body, entry = heading :: signature :: body ∧
      IsSignature signature s.visibility s.qualifiedName s.returnType (signed s) ∧
      ∀ p ∈ s.parameters, ∃ line ∈ body, Says line (.item ⟨p.name, p.stability, p.reason⟩) := by
  obtain ⟨⟨signature, body, params, notes, rfl, header, written, -, names, parameters, -, -⟩, -⟩ :=
    here
  obtain ⟨signed_eq, items_eq⟩ := described_parts names
  rw [← parameters] at signed_eq items_eq
  obtain rfl : signed s = params := signed_eq
  exact ⟨signature, body, rfl, header, fun p listed =>
    says_of_item written (items_eq ▸ List.mem_map_of_mem listed)⟩

/-- A parameter that was read has one of the three values that lines name. -/
theorem IsEntry.named {entry : List String} {s : Summary} (here : IsEntry entry s) :
    ∀ p ∈ s.parameters, p.stability ∈ [Value.stable, Value.unstable, Value.runtime] := by
  intro p listed
  obtain ⟨_, _, _, _, items⟩ := here.parts
  obtain ⟨line, -, written⟩ := items p listed
  exact (says_item_iff.1 written).1

theorem described_signed (s : Summary) :
    List.zipWith described (signed s) (itemsOf s) = s.parameters := by
  rw [signed, itemsOf, List.zipWith_map, List.zipWith_self]
  exact List.map_id s.parameters

/-- An entry that was read is one again when it is written. -/
theorem isEntry_entryLines {entry : List String} {s : Summary} (here : IsEntry entry s) :
    IsEntry (entryLines s) s := by
  obtain ⟨signature, body, rfl, header, -⟩ := here.parts
  refine ⟨⟨signatureLine s, bodyLines s, signed s, notesOf s, rfl, signature_rewritten header,
    bodyLines_notes here.named, notesOf_opened s, ?_, ?_, ?_, ?_⟩, here.name, here.unsaid⟩
  · simp [notesOf_items, itemsOf, signed]
  · rw [notesOf_items, described_signed]
  · simp [notesOf_property]
  · simp [notesOf_property]

/-! ## Characters -/

theorem mem_intercalate {c : Char} {sep part : List Char} {parts : List (List Char)}
    (listed : part ∈ parts) (inside : c ∈ part) : c ∈ sep.intercalate parts := by
  induction parts with
  | nil => cases listed
  | cons first parts ih =>
      by_cases more : parts = []
      · subst more
        obtain rfl := List.mem_singleton.1 listed
        simpa using inside
      · rw [List.intercalate_cons_of_ne_nil more]
        rcases List.mem_cons.1 listed with rfl | later
        · simp [inside]
        · simp [ih later]

theorem mem_of_mem_trimBlanks {c : Char} {cs : List Char} (inside : c ∈ Text.trimBlanks cs) :
    c ∈ cs := by
  obtain ⟨lead, tail, whole, -⟩ := Text.trimBlanks_parts cs
  rw [whole]
  simp [inside]

/-- Names and types have their characters from the list in which they stand. -/
theorem ListsParameters.not_mem {list : String} {params : List (String × String)}
    (lists : ListsParameters list params) {c : Char} (absent : c ∉ list.toList) :
    ∀ param ∈ params, c ∉ param.1.toList ∧ c ∉ param.2.toList := by
  intro param member
  cases lists with
  | none => cases member
  | some filled divided each =>
      obtain ⟨part, listed, here⟩ := exists_of_forall₂ each.flip member
      rw [String.toList_intercalate] at absent
      have outside : c ∉ (Text.trim part).toList := fun inside =>
        absent (mem_intercalate (List.mem_map_of_mem listed)
          (mem_of_mem_trimBlanks (by simpa [Text.trim] using inside)))
      rw [here.whole] at outside
      simp only [List.mem_append, not_or] at outside
      exact ⟨outside.1.1, outside.2⟩

/-- A character that ends or breaks lines. -/
def Breaks (c : Char) : Prop :=
  c = '\n' ∨ c = '\x0d'

theorem Breaks.not_mem {c : Char} (breaks : Breaks c) {text : String}
    (plain : '\n' ∉ text.toList ∧ '\x0d' ∉ text.toList) : c ∉ text.toList := by
  rcases breaks with rfl | rfl
  · exact plain.1
  · exact plain.2

theorem signatureLine_not_mem {c : Char} (breaks : Breaks c) {line : String} {s : Summary}
    (signature : IsSignature line s.visibility s.qualifiedName s.returnType (signed s))
    (absent : c ∉ line.toList) : c ∉ (signatureLine s).toList := by
  obtain ⟨-, -, func, opens, closes, lists⟩ := signature
  rw [func.whole, opens.whole, closes.whole] at absent
  simp only [List.mem_append, not_or] at absent
  obtain ⟨⟨visibility, func_absent⟩, ⟨name, open_absent⟩, ⟨list_absent, close_absent⟩, result⟩ :=
    absent
  have params : c ∉ ", ".toList.intercalate (s.parameters.map element) := by
    refine not_mem_intercalate (breaks.not_mem (by decide)) fun part member => ?_
    obtain ⟨p, listed, rfl⟩ := List.mem_map.1 member
    obtain ⟨name, type⟩ := lists.not_mem list_absent (p.name, p.type) (List.mem_map_of_mem listed)
    simp only [element, List.mem_append, not_or]
    exact ⟨name, breaks.not_mem (by decide), type⟩
  rw [signatureLine_toList]
  simp only [List.mem_append, not_or]
  exact ⟨visibility, func_absent, name, open_absent, params, close_absent, result⟩

theorem Explains.not_mem {tail reason : String} (explained : Explains tail reason) {c : Char}
    (absent : c ∉ tail.toList) : c ∉ reason.toList := by
  cases explained with
  | nothing => simp
  | space => simp
  | reason =>
      simp only [String.toList_append, List.mem_append, not_or] at absent
      exact absent.1.2

theorem itemLine_not_mem {c : Char} (breaks : Breaks c) {line : String} {p : Parameter}
    (written : Says line (.item ⟨p.name, p.stability, p.reason⟩)) (absent : c ∉ line.toList) :
    c ∉ (itemLine p).toList := by
  obtain ⟨-, tail, explained, rfl⟩ := says_item_iff.1 written
  simp only [String.toList_append, List.mem_append, not_or] at absent
  obtain ⟨indent, ⟨name, colon⟩, value, rest⟩ := absent
  have reason : c ∉ reasonText p.reason.toList := by
    rw [reasonText]
    split
    · exact List.not_mem_nil
    · have closing : c ∉ ")".toList := breaks.not_mem (by decide)
      simp only [List.mem_append, not_or]
      exact ⟨breaks.not_mem (by decide), explained.not_mem rest, closing⟩
  rw [itemLine_toList]
  simp only [List.mem_append, not_or]
  exact ⟨indent, name, colon, value, reason⟩

theorem bodyLines_not_mem {c : Char} (breaks : Breaks c) {s : Summary}
    (items : ∀ p ∈ s.parameters, c ∉ (itemLine p).toList) :
    ∀ line ∈ bodyLines s, c ∉ line.toList := by
  have property (key : String) (b : Bool) (plain : '\n' ∉ key.toList ∧ '\x0d' ∉ key.toList) :
      c ∉ (propertyIndent ++ key ++ Text.truthText b).toList := by
    simp only [String.toList_append, List.mem_append, not_or]
    exact ⟨⟨breaks.not_mem (by decide), breaks.not_mem plain⟩,
      breaks.not_mem (by cases b <;> decide)⟩
  rw [bodyLines]
  simp only [List.forall_mem_append, List.forall_mem_cons, List.not_mem_nil, false_implies,
    implies_true, and_true]
  refine ⟨⟨property _ _ (by decide), property _ _ (by decide)⟩, ?_⟩
  split
  · simp
  · rw [List.forall_mem_cons, List.forall_mem_map]
    exact ⟨breaks.not_mem (by decide), items⟩

/-- A written entry has no line breaks that the entry read for it did not have. -/
theorem entryLines_not_mem {c : Char} (breaks : Breaks c) {entry : List String} {s : Summary}
    (here : IsEntry entry s) (absent : ∀ line ∈ entry, c ∉ line.toList) :
    ∀ line ∈ entryLines s, c ∉ line.toList := by
  obtain ⟨signature, body, rfl, header, items⟩ := here.parts
  simp only [List.forall_mem_cons] at absent
  obtain ⟨heading_absent, signature_absent, body_absent⟩ := absent
  rw [entryLines_eq, List.forall_mem_cons, List.forall_mem_cons]
  refine ⟨heading_absent, signatureLine_not_mem breaks header signature_absent,
    bodyLines_not_mem breaks fun p listed => ?_⟩
  obtain ⟨line, member, written⟩ := items p listed
  exact itemLine_not_mem breaks written (body_absent line member)

/-- Whether a signature looks like a comment is decided by its visibility. -/
theorem signatureLine_content {line : String} {s : Summary}
    (signature : IsSignature line s.visibility s.qualifiedName s.returnType (signed s))
    (content : Text.startsWith "//" line = false) :
    Text.startsWith "//" (signatureLine s) = false := by
  obtain ⟨some_visibility, -, func, -, -, -⟩ := signature
  rw [Text.startsWith, func.whole] at content
  rw [Text.startsWith, signatureLine_toList]
  have some_chars : s.visibility.toList ≠ [] := by simpa using some_visibility
  rcases visibility : s.visibility.toList with _ | ⟨a, _ | ⟨b, chars⟩⟩
  · exact absurd visibility some_chars
  · simp [List.isPrefixOf]
  · simpa [visibility, List.isPrefixOf] using content

theorem entryLines_content {entry : List String} {s : Summary} (here : IsEntry entry s)
    (content : ∀ line ∈ entry, Text.startsWith "//" line = false) :
    ∀ line ∈ entryLines s, Text.startsWith "//" line = false := by
  obtain ⟨signature, body, rfl, header, -⟩ := here.parts
  simp only [List.forall_mem_cons] at content
  rw [entryLines_eq, List.forall_mem_cons, List.forall_mem_cons]
  refine ⟨content.1, signatureLine_content header content.2.1, fun line member => ?_⟩
  obtain ⟨note, -, written⟩ := exists_of_forall₂ (bodyLines_notes here.named) member
  exact written.ordinary.1

/-! ## Reports -/

/-- Every function of a report has an entry among its lines. -/
theorem IsReport.entries {lines : List String} {summaries : List Summary}
    (report : IsReport lines summaries) :
    ∀ s ∈ summaries, ∃ entry, (∀ line ∈ entry, line ∈ lines) ∧ IsEntry entry s := by
  induction report with
  | nil => simp
  | blank _ _ ih =>
      intro s member
      obtain ⟨entry, inside, here⟩ := ih s member
      exact ⟨entry, fun line listed => List.mem_cons_of_mem _ (inside line listed), here⟩
  | entry here _ ih =>
      intro s member
      rcases List.mem_cons.1 member with rfl | later
      · exact ⟨_, fun line listed => List.mem_append_left _ listed, here⟩
      · obtain ⟨entry, inside, here⟩ := ih s later
        exact ⟨entry, fun line listed => List.mem_append_right _ (inside line listed), here⟩

/-- Entries with blank lines between them are a report. -/
theorem isReport_entries {summaries : List Summary}
    (entries : ∀ s ∈ summaries, IsEntry (entryLines s) s) :
    IsReport (summaries.flatMap fun s => "" :: entryLines s) summaries := by
  induction summaries with
  | nil => exact .nil
  | cons s summaries ih =>
      obtain ⟨here, later⟩ := List.forall_mem_cons.1 entries
      exact .blank (by simp [Blank]) (.entry here (ih later))

/-- Without the comments it starts with, a written report is its entries. -/
theorem lines_content {summaries : List Summary}
    (content : ∀ s ∈ summaries, ∀ line ∈ entryLines s, Text.startsWith "//" line = false) :
    (lines summaries).filter (!Text.startsWith "//" ·) =
      (sortByName summaries).flatMap fun s => "" :: entryLines s := by
  have comments : opening.filter (!Text.startsWith "//" ·) = [] := by decide
  rw [lines, List.filter_append, comments, List.nil_append, List.filter_eq_self]
  intro line member
  obtain ⟨s, listed, inside⟩ := List.mem_flatMap.1 member
  rcases List.mem_cons.1 inside with rfl | inside
  · decide
  · simp [content s (mem_sortByName.1 listed) line inside]

theorem mem_of_mem_withoutReturn {c : Char} {line : List Char} (inside : c ∈ withoutReturn line) :
    c ∈ line := by
  cases found : ['\x0d'].isSuffixOf? line with
  | none => simpa [withoutReturn, found] using inside
  | some start =>
      rw [← List.isSuffixOf?_eq_some_iff_append_eq.1 found]
      rw [withoutReturn, found, Option.getD_some] at inside
      exact List.mem_append_left _ inside

theorem mem_rawLines {text raw : List Char} (listed : raw ∈ rawLines text) :
    raw ∈ Text.splitChar '\n' text := by
  simp only [rawLines] at listed
  split at listed
  · exact List.mem_of_mem_dropLast listed
  · exact listed

/-- The lines of a text without returns hold nothing that breaks lines. -/
theorem contentLines_not_mem {text : String} (no_return : '\x0d' ∉ text.toList) {c : Char}
    (breaks : Breaks c) : ∀ line ∈ contentLines text, c ∉ line.toList := by
  intro line member inside
  obtain ⟨raw, listed, rfl⟩ := List.mem_map.1 (List.mem_of_mem_filter member)
  rw [String.toList_ofList] at inside
  have piece := mem_rawLines listed
  have here := mem_of_mem_withoutReturn inside
  rcases breaks with rfl | rfl
  · exact Text.sep_not_mem_piece piece here
  · exact no_return (Text.mem_of_mem_piece piece here)

/-- A report without returns that was read is read as the same functions, in the order of their
names, after it was written again, and writing these changes nothing any more. -/
theorem parse_rewrite {text : String} {summaries : List Summary}
    (no_return : '\x0d' ∉ text.toList) (read : parse text = .ok summaries)
    (distinct : (summaries.map (·.qualifiedName)).Nodup)
    (fit : ∀ line ∈ rawLines (write summaries).toList, byteLength line ≤ lineLimit) :
    ∃ sorted : List Summary, sorted.Perm summaries ∧
      sorted.Pairwise (fun a b => a.qualifiedName < b.qualifiedName) ∧
      parse (write summaries) = .ok sorted ∧ write sorted = write summaries := by
  have report : IsReport (contentLines text) summaries := by
    rw [parse, readLines_eq_ok_iff, ← accepts_filter_iff] at read
    exact (accepts_outside_iff (contentLines_content text)).1 read.2
  have entries : ∀ s ∈ summaries, ∃ entry, (∀ line ∈ entry, line ∈ contentLines text) ∧
      IsEntry entry s := report.entries
  have one : ∀ line ∈ lines summaries, OneLine line.toList := by
    refine lines_oneLine fun s member line written => ?_
    obtain ⟨entry, inside, here⟩ := entries s member
    have absent {c : Char} (breaks : Breaks c) : c ∉ line.toList :=
      entryLines_not_mem breaks here (fun other listed =>
        contentLines_not_mem no_return breaks other (inside other listed)) line written
    exact ⟨absent (.inl rfl), fun last => absent (.inr rfl) (List.mem_of_getLast? last)⟩
  have content : ∀ s ∈ summaries, ∀ line ∈ entryLines s, Text.startsWith "//" line = false := by
    intro s member
    obtain ⟨entry, inside, here⟩ := entries s member
    exact entryLines_content here fun line listed =>
      contentLines_content text line (inside line listed)
  have sorted : (sortByName summaries).Perm summaries := List.mergeSort_perm _ _
  refine ⟨sortByName summaries, sorted, sortByName_strict distinct, ?_, ?_⟩
  · rw [parse_write_iff one, ← accepts_filter_iff, lines_content content]
    refine ⟨?_, (accepts_outside_iff ?_).2 (isReport_entries fun s member => ?_)⟩
    · rwa [rawLines_write one, List.forall_mem_map] at fit
    · rw [← lines_content content]
      exact fun line member => by simpa using (List.mem_filter.1 member).2
    · obtain ⟨entry, -, here⟩ := entries s (mem_sortByName.1 member)
      exact isEntry_entryLines here
  · simp only [write, lines, sortByName_perm sorted distinct]

/-- A report written by hand: brackets do not match, a parameter has no name, and a comment and
repeated properties stand within an entry. -/
def draft : String :=
  "\n".intercalate
    ["   ", "@Composable", "// moved",
      "x func ui.Row(b: T]\x7d ,: int,  c::  \x7b((K, V\x7d ): x): error",
      "  params:", "    - b: RUNTIME ", "  skippable: T", "// twice", "    - : STABLE ()",
      "    - c:: UNSTABLE (why (not))", "  skippable: 0", "  restartable: True",
      "@Composable", "pub func .A(): "]

/-- What the draft says. -/
def drafted : List Summary :=
  [{ name := "Row", qualifiedName := "ui.Row", visibility := "x", returnType := "error"
     restartable := true, skippable := false
     parameters :=
       [⟨"b", "T]\x7d", .runtime, ""⟩, ⟨"", "int", .stable, ""⟩,
        ⟨"c:", " \x7b((K, V\x7d ): x", .unstable, "why (not)"⟩] },
   { name := "A", qualifiedName := ".A", visibility := "pub", returnType := ""
     restartable := false, skippable := false }]

/-- The draft is read again after it was rewritten. -/
theorem drafted_rewrite :
    parse draft = .ok drafted ∧ ∃ sorted : List Summary, sorted.Perm drafted ∧
      sorted.Pairwise (fun a b => a.qualifiedName < b.qualifiedName) ∧
      parse (write drafted) = .ok sorted ∧ write sorted = write drafted := by
  have read : parse draft = .ok drafted := by
    rw [parse, draft, String.toList_intercalate]
    decide +kernel
  have no_return : '\x0d' ∉ draft.toList := by
    rw [draft, String.toList_intercalate]
    decide +kernel
  have distinct : (drafted.map (·.qualifiedName)).Nodup := by decide
  have ordered : sortByName drafted = drafted.reverse := by
    rw [← sortByName_perm (List.reverse_perm drafted) distinct]
    exact List.mergeSort_of_pairwise (by decide)
  refine ⟨read, parse_rewrite no_return read distinct ?_⟩
  rw [write, lines, ordered, String.toList_join]
  decide +kernel

end ComposeStability.Report
