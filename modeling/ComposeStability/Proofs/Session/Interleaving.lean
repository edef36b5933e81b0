/-
# Proofs.Session.Interleaving -- what overlapping calls find

The two halves of a call, one right after the other, are a call
(`Shared.run_call`).  Whatever comes between and around the halves of calls, what
a lookup finds was stored by the second half of an earlier call about a type of
the same key, at the version of the lookup (`Shared.found_origin`).  But it was
read in the first half, and a new version may have come in between: then it is
older than the version it is found at.  Such a verdict is really found, by any
lookup that comes right after (`Shared.found_overtaken`).  Versions are numbers of
64 bits, which tell apart fewer new versions than that.
-/
import ComposeStability.Session.Interleaving
import ComposeStability.Proofs.Session.Requests

namespace ComposeStability.Session

set_option autoImplicit false

open Stability (Verdict)
open TypeGraph (Failure)
open Program (Ty Packages MarkerSource)

section
variable {μ φ : Type} [Store μ String Verdict]

/-! ## Halves of calls -/

/-- The answer that a call gives after its lookup. -/
def Looked.answer : Looked → Except Failure Verdict
  | .found verdict => .ok verdict
  | .missed result => result

namespace State

variable {s : State μ φ} {ps : Packages} {source : MarkerSource} {t : Ty}

@[simp] theorem look_version : (s.look ps source t).2.version = s.version := by
  unfold look
  split <;> rfl

@[simp] theorem look_options : (s.look ps source t).2.options = s.options := by
  unfold look
  split <;> rfl

/-- A lookup uses the memory once, whatever it tells. -/
theorem look_verdicts :
    (s.look ps source t).2.verdicts =
      (Store.get s.verdicts (versionedKey s.version (ps.key t))).2 := by
  unfold look
  split <;> next asked => rw [asked]

theorem get_of_found {verdict : Verdict} (found : (s.look ps source t).1 = .found verdict) :
    (Store.get s.verdicts (versionedKey s.version (ps.key t))).1 = some verdict := by
  unfold look at found
  split at found
  · next asked =>
      rw [asked, Looked.found.inj found]
  · cases found

theorem classify_of_missed {result : Except Failure Verdict}
    (missed : (s.look ps source t).1 = .missed result) :
    TypeGraph.classify (ps.graph source) s.options.stableTypes (some t) = result := by
  unfold look at missed
  split at missed
  · cases missed
  · exact Looked.missed.inj missed

end State

namespace Shared

variable {w : Shared μ φ} {ps : Packages} {source : MarkerSource} {t : Ty} {thread : Nat}

theorem run_append (w : Shared μ φ) (before after : List Event) :
    w.run (before ++ after) = (w.run before).run after := by
  simp [run]

theorem run_cons (w : Shared μ φ) (e : Event) (after : List Event) :
    w.run (e :: after) = (w.step e).run after := rfl

theorem run_snoc (w : Shared μ φ) (before : List Event) (e : Event) :
    w.run (before ++ [e]) = (w.run before).step e := by
  simp [run]

/-- A lookup by an idle thread uses the memory once.  What is pending afterwards was pending, or is
the verdict that the types gave when nothing was found. -/
theorem step_look (ps : Packages) (source : MarkerSource) (t : Ty)
    (idle : w.pending thread = none) :
    (w.step (.look thread ps source t)).state = (w.state.look ps source t).2 ∧
      ∀ other p, (w.step (.look thread ps source t)).pending other = some p →
        w.pending other = some p ∨ other = thread ∧ ∃ verdict,
          (w.state.look ps source t).1 = .missed (.ok verdict) ∧ p = (ps.key t, verdict) := by
  simp only [step, idle]
  generalize w.state.look ps source t = looked
  obtain ⟨looked, state⟩ := looked
  cases looked with
  | found verdict => exact ⟨rfl, fun _ _ => .inl⟩
  | missed result =>
      cases result with
      | error failure => exact ⟨rfl, fun _ _ => .inl⟩
      | ok verdict =>
          refine ⟨rfl, fun other p isPending => ?_⟩
          simp only [setPending] at isPending
          split at isPending
          · next same => exact .inr ⟨same, verdict, rfl, (Option.some.inj isPending).symm⟩
          · exact .inl isPending

/-- How many new versions there are. -/
def bumps (es : List Event) : Nat := es.countP (· matches .bump)

theorem bumps_append (before after : List Event) :
    bumps (before ++ after) = bumps before + bumps after :=
  List.countP_append

theorem bumps_eq_zero_iff (es : List Event) : bumps es = 0 ↔ .bump ∉ es := by
  rw [bumps, List.countP_eq_zero]
  constructor
  · exact fun none isBump => absurd rfl (none _ isBump)
  · intro none e member
    cases e with
    | bump => exact absurd member none
    | _ => simp

theorem step_version (w : Shared μ φ) (e : Event) :
    (w.step e).state.version = w.state.version + UInt64.ofNat (bumps [e]) := by
  cases e with
  | look thread ps source t =>
      refine Eq.trans ?_ (UInt64.add_zero _).symm
      cases idle : w.pending thread with
      | some p => simp [step, idle]
      | none => simp [(step_look ps source t idle).1]
  | store thread =>
      refine Eq.trans ?_ (UInt64.add_zero _).symm
      simp only [step]
      split <;> rfl
  | bump => rfl

@[simp] theorem step_options (w : Shared μ φ) (e : Event) :
    (w.step e).state.options = w.state.options := by
  cases e with
  | look thread ps source t =>
      cases idle : w.pending thread with
      | some p => simp [step, idle]
      | none => simp [(step_look ps source t idle).1]
  | store thread =>
      simp only [step]
      split <;> rfl
  | bump => rfl

theorem run_options (w : Shared μ φ) (es : List Event) :
    (w.run es).state.options = w.state.options := by
  induction es generalizing w with
  | nil => rfl
  | cons e es ih => rw [run_cons, ih, step_options]

/-- The version tells how many new versions there were. -/
theorem run_version (w : Shared μ φ) (es : List Event) :
    (w.run es).state.version = w.state.version + UInt64.ofNat (bumps es) := by
  induction es generalizing w with
  | nil => exact (UInt64.add_zero _).symm
  | cons e es ih =>
      rw [run_cons, ih, step_version, UInt64.add_assoc, ← UInt64.ofNat_add, ← bumps_append,
        List.singleton_append]

theorem run_version_eq_iff (w : Shared μ φ) {es : List Event} (few : bumps es < 2 ^ 64) :
    w.state.version = (w.run es).state.version ↔ .bump ∉ es := by
  rw [run_version, UInt64.left_eq_add, ← bumps_eq_zero_iff, ← UInt64.toNat_inj,
    UInt64.toNat_ofNat_of_lt' few]
  rfl

/-- Without steps in between, the halves of a call are the call. -/
theorem run_call (idle : w.pending thread = none) :
    (w.state.look ps source t).1.answer = (w.state.classify ps source t).1 ∧
      w.run [.look thread ps source t, .store thread] =
        { w with state := (w.state.classify ps source t).2 } := by
  have told : (ps.graph source).key t = .ok (ps.key t) := rfl
  simp only [run, List.foldl_cons, List.foldl_nil, step, idle, State.look, State.classify,
    TypeGraph.classifyMemo, told, verdictMemo]
  generalize Store.get w.state.verdicts _ = asked
  obtain ⟨found, verdicts⟩ := asked
  cases found with
  | some verdict => exact ⟨rfl, by simp [idle]⟩
  | none =>
      cases TypeGraph.classify (ps.graph source) w.state.options.stableTypes (some t) with
      | error failure => exact ⟨rfl, by simp [idle]⟩
      | ok verdict =>
          refine ⟨rfl, ?_⟩
          simp only [setPending, State.store, if_true, Shared.mk.injEq, true_and]
          funext other
          by_cases same : other = thread <;> simp [same, idle]

/-! ## Where verdicts come from -/

/-- `thread` read `verdict` from the types in the first half of a call about a type with the key
`key`, after the steps `before`. -/
def Reads (w : Shared μ φ) (before : List Event) (read : Event) (thread : Nat) (key : String)
    (verdict : Verdict) : Prop :=
  ∃ ps source t, read = .look thread ps source t ∧ ps.key t = key ∧
    (w.run before).pending thread = none ∧
    ((w.run before).state.look ps source t).1 = .missed (.ok verdict)

/-- After the steps `es`, `thread` has read `verdict` and not stored it yet. -/
def Holding (w : Shared μ φ) (es : List Event) (thread : Nat) (key : String) (verdict : Verdict) :
    Prop :=
  ∃ before read middle, es = before ++ read :: middle ∧ w.Reads before read thread key verdict ∧
    .store thread ∉ middle

/-- In the course of the steps `es`, `verdict` was stored under `stored`. -/
def Stored (w : Shared μ φ) (es : List Event) (stored : String) (verdict : Verdict) : Prop :=
  ∃ during thread after key, es = during ++ .store thread :: after ∧
    w.Holding during thread key verdict ∧
    stored = versionedKey (w.run during).state.version key

theorem Holding.snoc {es : List Event} {key : String} {verdict : Verdict}
    (holding : w.Holding es thread key verdict) {e : Event} (other : e ≠ .store thread) :
    w.Holding (es ++ [e]) thread key verdict := by
  obtain ⟨before, read, middle, rfl, reads, unstored⟩ := holding
  refine ⟨before, read, middle ++ [e], by simp, reads, ?_⟩
  simpa [unstored] using other.symm

theorem Stored.snoc {es : List Event} {stored : String} {verdict : Verdict}
    (isStored : w.Stored es stored verdict) (e : Event) : w.Stored (es ++ [e]) stored verdict := by
  obtain ⟨during, thread, after, key, rfl, holding, same⟩ := isStored
  exact ⟨during, thread, after ++ [e], key, by simp, holding, same⟩

/-- What a session and its threads have after some steps: verdicts in memory that were stored in
the course of them, and pending ones that were read. -/
structure Accounted (w : Shared μ φ) (es : List Event) : Prop where
  memory : Store.Holds (w.Stored es) (w.run es).state.verdicts
  pending : ∀ thread key verdict, (w.run es).pending thread = some (key, verdict) →
    w.Holding es thread key verdict

theorem Accounted.step {es : List Event} (accounted : w.Accounted es) (e : Event) :
    w.Accounted (es ++ [e]) := by
  have kept : Store.Holds (w.Stored (es ++ [e])) (w.run es).state.verdicts :=
    accounted.memory.mono fun stored verdict isStored => isStored.snoc e
  cases e with
  | look thread ps source t =>
      have other (thread' : Nat) : Event.look thread ps source t ≠ .store thread' := nofun
      cases idle : (w.run es).pending thread with
      | some p =>
          have same : w.run (es ++ [.look thread ps source t]) = w.run es := by
            simp [run_snoc, Shared.step, idle]
          refine ⟨same ▸ kept, fun thread' key verdict isPending => ?_⟩
          rw [same] at isPending
          exact (accounted.pending thread' key verdict isPending).snoc (other thread')
      | none =>
          obtain ⟨state, pending⟩ := step_look ps source t idle
          refine ⟨?_, fun thread' key verdict isPending => ?_⟩
          · rw [run_snoc, state, State.look_verdicts]
            exact kept.get _
          · rw [run_snoc] at isPending
            rcases pending thread' (key, verdict) isPending with
              earlier | ⟨rfl, verdict', missed, same⟩
            · exact (accounted.pending thread' key verdict earlier).snoc (other thread')
            · obtain ⟨rfl, rfl⟩ := Prod.mk.inj same
              exact ⟨es, _, [], rfl, ⟨ps, source, t, rfl, rfl, idle, missed⟩, by simp⟩
  | store thread =>
      cases idle : (w.run es).pending thread with
      | none =>
          have same : w.run (es ++ [.store thread]) = w.run es := by
            simp [run_snoc, Shared.step, idle]
          refine ⟨same ▸ kept, fun thread' key verdict isPending => ?_⟩
          rw [same] at isPending
          refine (accounted.pending thread' key verdict isPending).snoc fun same => ?_
          obtain rfl := Event.store.inj same
          exact absurd isPending (by simp [idle])
      | some p =>
          obtain ⟨key, verdict⟩ := p
          have next : w.run (es ++ [.store thread]) =
              { w.run es with state := (w.run es).state.store key verdict }.setPending thread
                none := by
            simp [run_snoc, Shared.step, idle]
          refine ⟨?_, fun thread' key' verdict' isPending => ?_⟩
          · rw [next]
            have holding := accounted.pending thread key verdict idle
            exact kept.add ⟨es, thread, [], key, rfl, holding, rfl⟩
          · rw [next, setPending] at isPending
            by_cases same : thread' = thread
            · exact absurd isPending (by simp [same])
            · refine (accounted.pending thread' key' verdict' ?_).snoc fun stores => ?_
              · simpa [same] using isPending
              · exact same (Event.store.inj stores).symm
  | bump =>
      have same : (w.run (es ++ [.bump])).state.verdicts = (w.run es).state.verdicts := by
        rw [run_snoc]
        rfl
      refine ⟨same ▸ kept, fun thread key verdict isPending => ?_⟩
      rw [run_snoc] at isPending
      exact (accounted.pending thread key verdict isPending).snoc nofun

theorem accounted (blank : Store.Blank w.state.verdicts) (idle : ∀ thread, w.pending thread = none)
    (es : List Event) : w.Accounted es := by
  induction es using List.reverseRecOn with
  | nil => exact ⟨blank.holds, fun thread key verdict isPending => by simp [run, idle] at isPending⟩
  | append_singleton es e ih => exact ih.step e

/-- What a lookup finds was read from the types by an earlier call about a type of the same key,
which stored it at the version of the lookup.  So it was read at that version exactly if there was
no new version in the course of that call. -/
theorem found_origin (blank : Store.Blank w.state.verdicts)
    (idle : ∀ thread, w.pending thread = none) {es : List Event} (few : bumps es < 2 ^ 64)
    (ps : Packages) (source : MarkerSource) (t : Ty) (verdict : Verdict)
    (found : ((w.run es).state.look ps source t).1 = .found verdict) :
    ∃ before thread ps' source' t' middle after,
      es = before ++ .look thread ps' source' t' :: (middle ++ .store thread :: after) ∧
      ps'.key t' = ps.key t ∧
      TypeGraph.classify (ps'.graph source') w.state.options.stableTypes (some t') = .ok verdict ∧
      .store thread ∉ middle ∧ .bump ∉ after ∧
      ((w.run before).state.version = (w.run es).state.version ↔ .bump ∉ middle) := by
  obtain ⟨during, thread, after, key, rfl, holding, stored⟩ :=
    (accounted blank idle es).memory.right_of_get (State.get_of_found found)
  obtain ⟨before, read, middle, rfl, ⟨ps', source', t', rfl, rfl, -, missed⟩, unstored⟩ := holding
  obtain ⟨version, key⟩ := versionedKey_inj stored
  have older (es later : List Event) (few : bumps (es ++ later) < 2 ^ 64) :
      (w.run es).state.version = (w.run (es ++ later)).state.version ↔ .bump ∉ later := by
    rw [bumps_append] at few
    rw [run_append, run_version_eq_iff _ (by omega)]
  have late : Event.bump ∉ after := fun isBump =>
    (older _ (.store thread :: after) few).1 version.symm (List.mem_cons_of_mem _ isBump)
  refine ⟨before, thread, ps', source', t', middle, after, by simp, key.symm, ?_, unstored, late,
    ?_⟩
  · rw [← run_options w before]
    exact State.classify_of_missed missed
  · rw [List.append_assoc] at few ⊢
    rw [older _ _ few]
    simp [late]

/-! ## Calls that are overtaken -/

/-- What is pending stays so until it is stored. -/
theorem step_pending {p : String × Verdict} {e : Event} (busy : w.pending thread = some p)
    (unstored : e ≠ .store thread) : (w.step e).pending thread = some p := by
  cases e with
  | look thread' ps source t =>
      cases idle : w.pending thread' with
      | some q => simp [step, idle, busy]
      | none =>
          have other : thread ≠ thread' := fun same => by simp [← same, busy] at idle
          simp only [step, idle]
          split <;> simp [setPending, other, busy]
  | store thread' =>
      have other : thread ≠ thread' := fun same => unstored (same ▸ rfl)
      simp only [step]
      split <;> simp [setPending, other, busy]
  | bump => exact busy

theorem run_pending {p : String × Verdict} {es : List Event} (busy : w.pending thread = some p)
    (unstored : .store thread ∉ es) : (w.run es).pending thread = some p := by
  induction es generalizing w with
  | nil => exact busy
  | cons e es ih =>
      rw [List.mem_cons, not_or] at unstored
      exact ih (step_pending busy (Ne.symm unstored.1)) unstored.2

/-- The memory of verdicts after some steps is the memory after some uses. -/
theorem run_verdicts (w : Shared μ φ) (es : List Event) :
    ∃ uses, (w.run es).state.verdicts = Store.after w.state.verdicts uses := by
  induction es using List.reverseRecOn with
  | nil => exact ⟨[], rfl⟩
  | append_singleton es e ih =>
      obtain ⟨uses, ih⟩ := ih
      have used (u : Use String Verdict) {verdicts : μ}
          (same : verdicts = Store.use (w.run es).state.verdicts u) :
          ∃ uses, verdicts = Store.after w.state.verdicts uses :=
        ⟨uses ++ [u], by rw [Store.after_snoc, ← ih, same]⟩
      rw [run_snoc]
      cases e with
      | look thread ps source t =>
          cases idle : (w.run es).pending thread with
          | some p => exact ⟨uses, by simp [step, idle, ih]⟩
          | none =>
              refine used (.get (versionedKey (w.run es).state.version (ps.key t))) ?_
              rw [(step_look ps source t idle).1, State.look_verdicts]
              rfl
      | store thread =>
          cases idle : (w.run es).pending thread with
          | none => exact ⟨uses, by simp [step, idle, ih]⟩
          | some p =>
              refine used (.add (versionedKey (w.run es).state.version p.1) p.2) ?_
              simp only [step, idle]
              rfl
      | bump => exact ⟨uses, ih⟩

/-- Right after a call has stored its verdict, a lookup of the same key finds it, however many new
versions there were in the course of the call. -/
theorem found_overtaken (lasting : Store.Lasting w.state.verdicts) (before middle : List Event)
    {ps' : Packages} {source' : MarkerSource} {t' : Ty} {verdict : Verdict}
    (idle : (w.run before).pending thread = none)
    (missed : ((w.run before).state.look ps source t).1 = .missed (.ok verdict))
    (unstored : .store thread ∉ middle) (keys : ps'.key t' = ps.key t) :
    ((w.run (before ++ .look thread ps source t :: (middle ++ [.store thread]))).state.look
      ps' source' t').1 = .found verdict := by
  have begun : ((w.run before).step (.look thread ps source t)).pending thread =
      some (ps.key t, verdict) := by
    simp only [step, idle]
    generalize (w.run before).state.look ps source t = looked at missed
    obtain ⟨looked, state⟩ := looked
    subst missed
    simp [setPending]
  have during := run_pending begun unstored
  have split : w.run (before ++ .look thread ps source t :: (middle ++ [.store thread])) =
      (((w.run before).step (.look thread ps source t)).run middle).step (.store thread) := by
    rw [run_append, run_cons, run_snoc]
  obtain ⟨uses, used⟩ := w.run_verdicts (before ++ .look thread ps source t :: middle)
  rw [run_append, run_cons] at used
  rw [split]
  generalize ((w.run before).step (.look thread ps source t)).run middle = busy at during used
  simp only [step, during, setPending, State.look, State.store, keys, used]
  have last := lasting uses (versionedKey busy.state.version (ps.key t)) verdict
  generalize Store.get (Store.add (Store.after w.state.verdicts uses)
    (versionedKey busy.state.version (ps.key t)) verdict) _ = asked at last
  obtain ⟨answer, verdicts⟩ := asked
  subst last
  rfl

end Shared

end

/-! ## A marker that is removed -/

namespace Demo

/-- A new session, and no calls. -/
def idleSession : Shared where
  state := State.new .bounded {}

/-- The interface is looked up while it is marked, and the verdict is stored when it is not any
more, after a new version. -/
def overtaken : List Event :=
  [.look 0 program (markersOfAll [ui, theme]).source themeType, .bump, .store 0]

/-- The verdict on the marked interface is found when it is not marked any more. -/
theorem overtaken_found :
    ((idleSession.run overtaken).state.look program (markersOfAll [ui]).source themeType).1 =
      .found (.stable "theme.Theme is declared stable") := by
  have lasting : Store.Lasting idleSession.state.verdicts := Recency.empty_lasting (by decide)
  have missed : (idleSession.state.look program (markersOfAll [ui, theme]).source themeType).1 =
      .missed (.ok (.stable "theme.Theme is declared stable")) :=
    congrArg Looked.missed ui_with_theme
  exact Shared.found_overtaken lasting [] [.bump] rfl missed (by simp) rfl

theorem overtaken_origin :
    Store.Blank idleSession.state.verdicts ∧ (∀ thread, idleSession.pending thread = none) ∧
      ∃ before thread ps' source' t' middle after,
        overtaken = before ++ .look thread ps' source' t' :: (middle ++ .store thread :: after) ∧
        ps'.key t' = program.key themeType ∧
        TypeGraph.classify (ps'.graph source') [] (some t') =
          .ok (.stable "theme.Theme is declared stable") ∧
        .store thread ∉ middle ∧ .bump ∉ after ∧
        ((idleSession.run before).state.version = (idleSession.run overtaken).state.version ↔
          .bump ∉ middle) := by
  have blank : Store.Blank idleSession.state.verdicts := Recency.empty_blank _
  have few : Shared.bumps overtaken < 2 ^ 64 := by decide
  exact ⟨blank, fun _ => rfl,
    Shared.found_origin blank (fun _ => rfl) few program _ themeType _ overtaken_found⟩

/-- What is found need not have been read at the version of the lookup. -/
theorem overtaken_found_stale :
    ¬ ∀ (es : List Event) (ps : Packages) (source : MarkerSource) (t : Ty) (verdict : Verdict),
      ((idleSession.run es).state.look ps source t).1 = .found verdict →
      ∃ before thread ps' source' t' later,
        es = before ++ .look thread ps' source' t' :: later ∧ ps'.key t' = ps.key t ∧
        TypeGraph.classify (ps'.graph source') [] (some t') = .ok verdict ∧
        (idleSession.run before).state.version = (idleSession.run es).state.version := by
  intro fresh
  obtain ⟨before, thread, ps', source', t', later, split, -, -, version⟩ :=
    fresh overtaken program _ themeType _ overtaken_found
  -- only the first step is a lookup, and the new version comes after it
  rw [overtaken] at split
  rcases before with _ | ⟨first, _ | ⟨second, _ | ⟨third, rest⟩⟩⟩
  · exact absurd ((Shared.run_version_eq_iff _ (by decide)).1 version) (by simp [overtaken])
  all_goals simp at split

end Demo

end ComposeStability.Session
