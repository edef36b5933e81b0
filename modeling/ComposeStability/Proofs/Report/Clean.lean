/-
# Proofs.Report.Clean -- when checking against a fresh report finds nothing

A report is read line by line, so a run that succeeds can be taken apart again
into what was read for every entry (`entries_read_inv`): everything comes back
as it was written, except for the result and the types, which are what the
reader makes of the signature (`ReadAs`).  A comparison finds nothing exactly if
these are also the ones written, so checking against a fresh report is clean
exactly if every signature is legible (`clean_iff_legible`).
-/
import ComposeStability.Proofs.Report.Regression
import ComposeStability.Proofs.Report.RoundTrip

namespace ComposeStability.Report

set_option autoImplicit false

open Stability (Summary Parameter)

/-! ## Taking runs apart -/

theorem reads_cons_iff {state last : State} {line : String} {rest : List String}
    {all : List Summary} :
    Reads state (line :: rest) all last ↔
      ∃ done next more, readLine state line.toList = .ok (done, next) ∧
        Reads next rest more last ∧ all = done ++ more := by
  constructor
  · intro run
    cases run with
    | cons step run => exact ⟨_, _, _, step, run, rfl⟩
  · rintro ⟨done, next, more, step, run, rfl⟩
    exact .cons step run

theorem reads_append_iff {state last : State} {front back : List String} {all : List Summary} :
    Reads state (front ++ back) all last ↔
      ∃ middle done more, Reads state front done middle ∧ Reads middle back more last ∧
        all = done ++ more := by
  constructor
  · intro run
    induction front generalizing state all with
    | nil => exact ⟨state, [], all, .nil state, run, rfl⟩
    | cons line front ih =>
        obtain ⟨done, next, more, step, onward, rfl⟩ := reads_cons_iff.1 run
        obtain ⟨middle, early, late, first, second, rfl⟩ := ih onward
        exact ⟨middle, done ++ early, late, .cons step first, second, by simp⟩
  · rintro ⟨middle, done, more, first, second, rfl⟩
    exact first.append second

/-- Lines are read in one way. -/
theorem Reads.unique {state last last' : State} {lines : List String} {done done' : List Summary}
    (run : Reads state lines done last) (other : Reads state lines done' last') :
    done = done' ∧ last = last' := by
  induction run generalizing done' with
  | nil state =>
      cases other with
      | nil => exact ⟨rfl, rfl⟩
  | cons step run ih =>
      obtain ⟨_, _, _, step', onward, rfl⟩ := reads_cons_iff.1 other
      obtain ⟨rfl, rfl⟩ := Prod.mk.inj (Except.ok.inj (step.symm.trans step'))
      obtain ⟨rfl, rfl⟩ := ih onward
      exact ⟨rfl, rfl⟩

/-! ## What an entry is read as -/

/-- A parameter with the type that was read for it. -/
def retype (p : Parameter) (read : String × String) : Parameter := { p with type := read.2 }

/-- A summary with the result and the types of an entry that was read for it. -/
def retyped (s : Summary) (e : Entry) : Summary :=
  { asReported s with
    returnType := e.returnType
    parameters := List.zipWith retype s.parameters e.pending }

/-- An entry for the summary is read as the other one. -/
def ReadAs (s read : Summary) : Prop :=
  ∃ e, signatureOf (signatureLine s).toList = .ok e ∧
    e.pending.map (·.1) = s.parameters.map (·.name) ∧ read = retyped s e

theorem items_read_inv {params : List Parameter}
    (presentable : ∀ p ∈ params, PresentableParameter p) {e : Entry} (listing : e.listing = true)
    {done : List Summary} {last : State}
    (run : Reads (.within e) (params.map itemLine) done last) :
    done = [] ∧ ∃ before after, e.pending = before ++ after ∧
      before.map (·.1) = params.map (·.name) ∧
      last = .within { e with
        listed := e.listed ++ List.zipWith retype params before, pending := after } := by
  induction params generalizing e done with
  | nil =>
      cases run with
      | nil => exact ⟨rfl, [], e.pending, rfl, rfl, by simp⟩
  | cons p params ih =>
      obtain ⟨early, next, more, step, onward, rfl⟩ := reads_cons_iff.1 run
      obtain ⟨rfl, type, pending, here, rfl⟩ :=
        (readLine_item (presentable p List.mem_cons_self) listing).1 step
      obtain ⟨rfl, before, after, later, names, rfl⟩ :=
        ih (fun q member => presentable q (List.mem_cons_of_mem p member)) (by exact listing) onward
      simp only at later
      refine ⟨rfl, (p.name, type) :: before, after, ?_, ?_, ?_⟩
      · rw [here, later, List.cons_append]
      · simp [names]
      · simp [retype]

/-- The lines that list parameters are read only if the signature has parameters of these names. -/
theorem listing_read_inv {params : List Parameter}
    (presentable : ∀ p ∈ params, PresentableParameter p) {e : Entry} (unlisted : e.listed = [])
    {done late : List Summary} {last : State}
    (run : Reads (.within e) (if params.isEmpty then []
      else (propertyIndent ++ "params:") :: params.map itemLine) done last)
    (finished : finish last = .ok late) :
    done = [] ∧ e.pending.map (·.1) = params.map (·.name) ∧
      late = [{ e.summary with parameters := List.zipWith retype params e.pending }] := by
  cases params with
  | nil =>
      cases run with
      | nil =>
          obtain ⟨none_pending, rfl⟩ := finish_within_iff.1 finished
          simp [none_pending, Entry.summary, unlisted]
  | cons p params =>
      obtain ⟨_, _, _, header, run, rfl⟩ := reads_cons_iff.1 run
      obtain ⟨rfl, rfl⟩ := Prod.mk.inj (Except.ok.inj ((readLine_params e).symm.trans header))
      obtain ⟨rfl, before, after, pending, names, rfl⟩ := items_read_inv presentable rfl run
      obtain ⟨none_pending, rfl⟩ := finish_within_iff.1 finished
      simp only at pending none_pending
      rw [none_pending, List.append_nil] at pending
      simp [pending, names, Entry.summary, unlisted]

/-- A run over the lines of an entry first completes the entry before, and goes on from what the
signature is read as. -/
theorem entry_read_inv {s : Summary} (presentable : Presentable s) {state last : State}
    {done late : List Summary} (run : Reads state ("" :: entryLines s) done last)
    (finished : finish last = .ok late) :
    finish state = .ok done ∧ ∃ read, late = [read] ∧ ReadAs s read := by
  have outside : finish .outside = .ok [] := rfl
  obtain ⟨before, _, _, blank, run, rfl⟩ := reads_cons_iff.1 run
  obtain ⟨complete, rfl⟩ := readLine_blank.1 blank
  obtain ⟨_, _, _, head, run, rfl⟩ := reads_cons_iff.1 run
  obtain ⟨rfl, rfl⟩ := Prod.mk.inj (Except.ok.inj ((readLine_heading outside).symm.trans head))
  obtain ⟨_, _, _, signature, run, rfl⟩ := reads_cons_iff.1 run
  rw [readLine_signature presentable] at signature
  cases read : signatureOf (signatureLine s).toList with
  | error problem => rw [read] at signature; cases signature
  | ok e =>
      rw [read] at signature
      obtain ⟨rfl, rfl⟩ := Prod.mk.inj (Except.ok.inj signature)
      obtain ⟨_, _, _, skippable, run, rfl⟩ := reads_cons_iff.1 run
      obtain ⟨rfl, rfl⟩ :=
        Prod.mk.inj (Except.ok.inj ((readLine_skippable e _).symm.trans skippable))
      obtain ⟨_, _, _, restartable, run, rfl⟩ := reads_cons_iff.1 run
      obtain ⟨rfl, rfl⟩ :=
        Prod.mk.inj (Except.ok.inj ((readLine_restartable _ _).symm.trans restartable))
      have fields := signatureOf_fields presentable read
      obtain ⟨rfl, names, rfl⟩ := listing_read_inv presentable.parameters
        (by rw [fields]; rfl) run finished
      refine ⟨by simpa using complete, _, rfl, e, read, names, ?_⟩
      rw [fields]
      simp [Entry.summary, retyped, asReported, opened, ← presentable.name_last]

/-- A run over the lines of entries is one over each of them, and each is completed by the next
or by the end. -/
theorem entries_read_inv {summaries : List Summary} (presentable : ∀ s ∈ summaries, Presentable s)
    {state last : State} {early late : List Summary}
    (run : Reads state (summaries.flatMap fun s => "" :: entryLines s) early last)
    (finished : finish last = .ok late) :
    ∃ done read, finish state = .ok done ∧ early ++ late = done ++ read ∧
      List.Forall₂ ReadAs summaries read := by
  induction summaries generalizing state early with
  | nil =>
      cases run with
      | nil => exact ⟨late, [], finished, by simp, .nil⟩
  | cons s summaries ih =>
      rw [List.flatMap_cons] at run
      obtain ⟨middle, done, more, entry, onward, rfl⟩ := reads_append_iff.1 run
      obtain ⟨between, rest, complete, order, later⟩ :=
        ih (fun other member => presentable other (List.mem_cons_of_mem s member)) onward
      obtain ⟨before, read, rfl, here⟩ :=
        entry_read_inv (presentable s List.mem_cons_self) entry complete
      exact ⟨done, read :: rest, before, by simp [order], .cons here later⟩

/-- Whatever a report is read as, it has an entry for each summary, in the order of names. -/
theorem parse_write_inv {summaries parsed : List Summary}
    (presentable : ∀ s ∈ summaries, Presentable s)
    (read : parse (write summaries) = .ok parsed) :
    List.Forall₂ ReadAs (sortByName summaries) parsed := by
  have one := lines_oneLine fun s member => entryLines_oneLine (presentable s member)
  rw [parse_write_iff one] at read
  obtain ⟨-, last, early, late, run, finished, rfl⟩ := read
  obtain ⟨middle, done, more, start, onward, rfl⟩ := reads_append_iff.1 run
  obtain ⟨rfl, rfl⟩ := opening_reads.unique start
  obtain ⟨before, entries, complete, order, each⟩ := entries_read_inv
    (fun s member => presentable s (mem_sortByName.1 member)) onward finished
  obtain rfl : [] = before := Except.ok.inj complete
  rw [List.nil_append] at order ⊢
  rwa [order]

/-! ## Comparisons that find nothing -/

theorem parameterChange?_eq_none_iff {olds curs : List Parameter}
    (length : olds.length = curs.length) :
    parameterChange? olds curs = none ↔ List.Forall₂ Unchanged olds curs := by
  induction olds generalizing curs with
  | nil =>
      obtain rfl : curs = [] := by simpa using length.symm
      simp [parameterChange?]
  | cons old olds ih =>
      cases curs with
      | nil => simp at length
      | cons cur curs =>
          have rest : olds.length = curs.length := by simpa using length
          rw [parameterChange?, List.forall₂_cons, Unchanged, SameParameter, ← ih rest]
          split
          · next replaced => exact iff_of_false (by simp) (by tauto)
          · split
            · next changed => exact iff_of_false (by simp) (by tauto)
            · tauto

theorem parametersChange?_eq_none_iff {olds curs : List Parameter} :
    parametersChange? olds curs = none ↔ List.Forall₂ Unchanged olds curs := by
  rw [parametersChange?]
  split
  · next differ => exact iff_of_false (by simp) fun same => differ same.length_eq
  · next length => exact parameterChange?_eq_none_iff (by simpa using length)

/-- Comparing two entries finds nothing exactly if they agree in all that reports record. -/
theorem compare?_eq_none_iff {old cur : Summary} :
    compare? old cur = none ↔
      (old.restartable = cur.restartable ∧ old.skippable = cur.skippable) ∧
      List.Forall₂ Unchanged old.parameters cur.parameters ∧
      old.returnType = cur.returnType ∧ old.visibility = cur.visibility := by
  rw [← parametersChange?_eq_none_iff, compare?]
  cases old.restartable <;> cases cur.restartable <;> cases old.skippable <;>
    cases cur.skippable <;> cases parametersChange? old.parameters cur.parameters <;> simp

theorem diff_eq_nil_iff {golden current : List Summary} :
    diff golden current = [] ↔
      ∀ name ∈ (golden ++ current).map (·.qualifiedName), change? golden current name = none := by
  simp only [diff, List.filterMap_eq_nil_iff, mem_allNames]

/-- Reports on the same functions are compared entry by entry. -/
theorem diff_eq_nil_iff_compare? {golden current : List Summary}
    (distinct : (current.map (·.qualifiedName)).Nodup)
    (same : (golden.map (·.qualifiedName)).Perm (current.map (·.qualifiedName))) :
    diff golden current = [] ↔
      ∀ old ∈ golden, ∀ cur ∈ current, old.qualifiedName = cur.qualifiedName →
        compare? old cur = none := by
  have goldenDistinct : (golden.map (·.qualifiedName)).Nodup := same.nodup_iff.2 distinct
  have compared {old cur : Summary} (inGolden : old ∈ golden) (inCurrent : cur ∈ current)
      (named : old.qualifiedName = cur.qualifiedName) :
      change? golden current cur.qualifiedName = compare? old cur := by
    rw [change?, ← named, entry?_of_mem goldenDistinct inGolden, named,
      entry?_of_mem distinct inCurrent]
  rw [diff_eq_nil_iff]
  constructor
  · intro unchanged old inGolden cur inCurrent named
    rw [← compared inGolden inCurrent named]
    exact unchanged _ (List.mem_map_of_mem (List.mem_append_right golden inCurrent))
  · intro unchanged name listed
    have inCurrent : name ∈ current.map (·.qualifiedName) := by
      rw [List.map_append, List.mem_append, same.mem_iff, or_self] at listed
      exact listed
    obtain ⟨cur, kept, rfl⟩ := List.mem_map.1 inCurrent
    obtain ⟨old, recorded, named⟩ := List.mem_map.1 (same.mem_iff.2 inCurrent)
    rw [compared recorded kept named]
    exact unchanged old recorded cur kept named

/-! ## Fresh reports -/

/-- The report on the functions can be read, and comparing it to them finds nothing. -/
def Clean (summaries : List Summary) : Prop :=
  ∃ parsed, parse (write summaries) = .ok parsed ∧ diff parsed summaries = []

theorem readAs_qualifiedName {s read : Summary} (here : ReadAs s read) :
    read.qualifiedName = s.qualifiedName := by
  obtain ⟨e, -, -, rfl⟩ := here
  rfl

theorem pending_eq {params : List Parameter} {pending : List (String × String)}
    (names : pending.map (·.1) = params.map (·.name))
    (unchanged : List.Forall₂ Unchanged (List.zipWith retype params pending) params) :
    pending = params.map fun p => (p.name, p.type) := by
  induction params generalizing pending with
  | nil => simpa using names
  | cons p params ih =>
      cases pending with
      | nil => simp at names
      | cons first pending =>
          obtain ⟨name, names⟩ := List.cons.inj names
          obtain ⟨here, later⟩ := List.forall₂_cons.1 unchanged
          rw [List.map_cons, ← ih names later]
          exact congrArg (· :: pending) (Prod.ext name here.1.2)

/-- Only a legible signature is read as something that compares equal. -/
theorem ReadAs.legible {s read : Summary} (presentable : Presentable s) (here : ReadAs s read)
    (unchanged : compare? read s = none) : Legible s := by
  obtain ⟨e, signature, names, rfl⟩ := here
  obtain ⟨-, types, result, -⟩ := compare?_eq_none_iff.1 unchanged
  have pending := pending_eq names types
  have whole : e = opened s := by
    have same_result : e.returnType = s.returnType := result
    rw [signatureOf_fields presentable signature, pending, same_result]
    rfl
  exact (signatureOf_line_iff presentable).1 (whole ▸ signature)

theorem compare?_asReported (s : Summary) : compare? (asReported s) s = none :=
  compare?_eq_none_iff.2 ⟨⟨rfl, rfl⟩, List.forall₂_same.2 fun _ _ => ⟨⟨rfl, rfl⟩, rfl⟩, rfl, rfl⟩

/-- Checking against a fresh report is clean exactly if all signatures are legible. -/
theorem clean_iff_legible {summaries : List Summary}
    (distinct : (summaries.map (·.qualifiedName)).Nodup)
    (presentable : ∀ s ∈ summaries, Presentable s)
    (fit : ∀ s ∈ summaries, ∀ line ∈ entryLines s, byteLength line.toList ≤ lineLimit) :
    Clean summaries ↔ ∀ s ∈ summaries, Legible s := by
  have sorted : (sortByName summaries).Perm summaries := List.mergeSort_perm _ _
  constructor
  · rintro ⟨parsed, read, unchanged⟩ s member
    have each := parse_write_inv presentable read
    have names : parsed.map (·.qualifiedName) = (sortByName summaries).map (·.qualifiedName) := by
      refine List.forall₂_eq_eq_eq ▸ ?_
      rw [List.forall₂_map_left_iff, List.forall₂_map_right_iff]
      exact each.flip.imp fun _ _ here => readAs_qualifiedName here
    rw [diff_eq_nil_iff_compare? distinct (names ▸ sorted.map _)] at unchanged
    obtain ⟨r, listed, here⟩ := exists_of_forall₂ each (mem_sortByName.2 member)
    exact here.legible (presentable s member)
      (unchanged r listed s member (readAs_qualifiedName here))
  · intro legible
    refine ⟨_, parse_legible presentable legible fit, ?_⟩
    have names : ((sortByName summaries).map asReported).map (·.qualifiedName) =
        (sortByName summaries).map (·.qualifiedName) := by
      rw [List.map_map]
      rfl
    rw [diff_eq_nil_iff_compare? distinct (names ▸ sorted.map _)]
    intro old listed cur member named
    obtain ⟨s, kept, rfl⟩ := List.mem_map.1 listed
    obtain rfl : s = cur :=
      List.inj_on_of_nodup_map distinct (mem_sortByName.1 kept) member named
    exact compare?_asReported s

end ComposeStability.Report
