/-
# Proofs.Tracing.Interleaving -- one tracker for each call site

The steps of a call, one right after the other, acquire a tracker (`run_alone`).
Several calls may find a site unknown and each make a tracker for it, but only
the first that stores its own does: entries stay (`Took.find?_kept`), and all
calls for the site return the entry (`Accounted.returned`).  Trackers bear the
names and tags of their sites, so different sites have different trackers.
Every call returns after three steps of its own, whatever the others do
(`stepsLeft_run`).
-/
import ComposeStability.Tracing.Interleaving
import ComposeStability.Proofs.Tracing.History

namespace ComposeStability.Tracing

set_option autoImplicit false

/-- The tracker that a call makes. -/
def Request.tracker (r : Request) : Tracker := .new r.site.name r.site.tag r.threshold

/-- How many steps a call has to take at most. -/
def Progress.stepsLeft : Progress → Nat
  | .waiting => 3
  | .missed => 2
  | .made _ => 1
  | .returned _ => 0

namespace Overlap

variable {requests : Nat → Request} {w w' : Overlap} {call other : Nat} {h own : Handle}
  {site : Site}

/-! ## Steps -/

@[simp] theorem setProgress_registry (w : Overlap) (call : Nat) (p : Progress) :
    (w.setProgress call p).registry = w.registry := rfl

@[simp] theorem setProgress_self (w : Overlap) (call : Nat) (p : Progress) :
    (w.setProgress call p).progress call = p := if_pos rfl

/-- Only the latest progress of a call counts. -/
theorem setProgress_again (w : Overlap) (registry : Registry) (call : Nat) (p q : Progress) :
    setProgress ⟨registry, (w.setProgress call p).progress⟩ call q =
      setProgress ⟨registry, w.progress⟩ call q := by
  show Overlap.mk registry _ = Overlap.mk registry _
  congr 1
  funext other
  show (if other = call then q else if other = call then p else w.progress other) =
    if other = call then q else w.progress other
  by_cases same : other = call
  · rw [if_pos same, if_pos same]
  · rw [if_neg same, if_neg same, if_neg same]

theorem setProgress_other (different : other ≠ call) (w : Overlap) (p : Progress) :
    (w.setProgress call p).progress other = w.progress other := if_neg different

/-- What a step of a call does. -/
inductive Took (requests : Nat → Request) (w : Overlap) (call : Nat) : Overlap → Prop where
  | found {h : Handle} (waiting : w.progress call = .waiting)
      (known : w.registry.find? (requests call).site = some h) :
      Took requests w call (w.setProgress call (.returned h))
  | missed (waiting : w.progress call = .waiting)
      (unknown : w.registry.find? (requests call).site = none) :
      Took requests w call (w.setProgress call .missed)
  /-- A tracker is made, and not shared. -/
  | made (missed : w.progress call = .missed) :
      Took requests w call
        ({ w with registry := ⟨w.registry.trackers ++ [(requests call).tracker],
          w.registry.shared⟩ }.setProgress call (.made w.registry.trackers.length))
  /-- The own tracker becomes the one of the site. -/
  | stored {own : Handle} (made : w.progress call = .made own)
      (unknown : w.registry.find? (requests call).site = none) :
      Took requests w call
        ({ w with registry := ⟨w.registry.trackers,
          ((requests call).site, own) :: w.registry.shared⟩ }.setProgress call (.returned own))
  /-- The site has got a tracker meanwhile, and the own one is given up. -/
  | lost {own h : Handle} (made : w.progress call = .made own)
      (known : w.registry.find? (requests call).site = some h) :
      Took requests w call (w.setProgress call (.returned h))
  | ended {h : Handle} (returned : w.progress call = .returned h) : Took requests w call w

theorem step_took (requests : Nat → Request) (w : Overlap) (call : Nat) :
    Took requests w call (step requests w call) := by
  unfold step
  cases come : w.progress call with
  | waiting =>
      cases asked : w.registry.find? (requests call).site with
      | none =>
          simp only [asked]
          exact .missed come asked
      | some h =>
          simp only [asked]
          exact .found come asked
  | missed => exact .made come
  | made own =>
      cases asked : w.registry.find? (requests call).site with
      | none =>
          simp only [Registry.findOrStore, asked]
          exact .stored come asked
      | some h =>
          simp only [Registry.findOrStore, asked]
          exact .lost come asked
  | returned h => exact .ended come

namespace Took

/-- Trackers stay as they are. -/
theorem get?_kept (took : Took requests w call w') {t : Tracker}
    (held : w.registry.get? h = some t) : w'.registry.get? h = some t := by
  cases took with
  | made missed => exact Recorder.get?_create held (requests call).site
  | found | missed | stored | lost | ended => exact held

/-- An entry stays as it is. -/
theorem find?_kept (took : Took requests w call w') (entry : w.registry.find? site = some h) :
    w'.registry.find? site = some h := by
  cases took with
  | @stored own made unknown =>
      have different : site ≠ (requests call).site := by
        rintro rfl
        rw [entry] at unknown
        cases unknown
      have apart : (site == (requests call).site) = false := by simpa using different
      show ((((requests call).site, own) :: w.registry.shared).lookup site) = some h
      rw [List.lookup_cons, apart]
      exact entry
  | found | missed | made | lost | ended => exact entry

/-- A new entry is the tracker that the call has made for its site. -/
theorem find?_new (took : Took requests w call w') (entry : w'.registry.find? site = some h) :
    w.registry.find? site = some h ∨
      site = (requests call).site ∧ w.registry.find? site = none ∧ w.progress call = .made h := by
  cases took with
  | @stored own made unknown =>
      change ((((requests call).site, own) :: w.registry.shared).lookup site) = some h at entry
      rw [List.lookup_cons] at entry
      by_cases same : site = (requests call).site
      · subst same
        rw [beq_self_eq_true] at entry
        obtain rfl := Option.some.inj entry
        exact .inr ⟨rfl, unknown, made⟩
      · have apart : (site == (requests call).site) = false := by simpa using same
        rw [apart] at entry
        exact .inl entry
  | found | missed | made | lost | ended => exact .inl entry

/-- A call returns the entry of its site. -/
theorem returns (took : Took requests w call w') (entries : ∀ k, w.progress call = .returned k →
      w.registry.find? (requests call).site = some k)
    (returned : w'.progress call = .returned h) :
    w'.registry.find? (requests call).site = some h := by
  cases took with
  | found waiting known | lost made known =>
      rw [setProgress_self] at returned
      obtain rfl := Progress.returned.inj returned
      exact known
  | missed | made =>
      rw [setProgress_self] at returned
      cases returned
  | stored made unknown =>
      rw [setProgress_self] at returned
      obtain rfl := Progress.returned.inj returned
      exact List.lookup_cons_self
  | ended => exact entries h returned

/-- A tracker that is made is the one that was asked for. -/
theorem makes (took : Took requests w call w') (held : ∀ k, w.progress call = .made k →
      w.registry.get? k = some (requests call).tracker)
    (made : w'.progress call = .made own) :
    w'.registry.get? own = some (requests call).tracker := by
  cases took with
  | found | missed | stored | lost =>
      rw [setProgress_self] at made
      cases made
  | made =>
      rw [setProgress_self] at made
      obtain rfl := Progress.made.inj made
      exact List.getElem?_concat_length
  | ended => exact held own made

/-- The steps of a call are its own. -/
theorem progress_other (took : Took requests w call w') (different : other ≠ call) :
    w'.progress other = w.progress other := by
  cases took with
  | ended => rfl
  | _ => exact setProgress_other different _ _

/-- A step brings a call nearer to its end. -/
theorem stepsLeft (took : Took requests w call w') :
    (w'.progress call).stepsLeft ≤ (w.progress call).stepsLeft - 1 := by
  cases took with
  | ended returned =>
      rw [returned]
      exact Nat.zero_le _
  | missed waiting =>
      rw [setProgress_self, waiting]
      exact Nat.le_refl 2
  | made missed =>
      rw [setProgress_self, missed]
      exact Nat.le_refl 1
  | found | stored | lost =>
      rw [setProgress_self]
      exact Nat.zero_le _

theorem mem_trackers (took : Took requests w call w') {t : Tracker}
    (listed : t ∈ w'.registry.trackers) :
    t ∈ w.registry.trackers ∨ t = (requests call).tracker := by
  cases took with
  | made missed =>
      rcases List.mem_append.1 listed with earlier | new
      · exact .inl earlier
      · exact .inr (List.mem_singleton.1 new)
  | found | missed | stored | lost | ended => exact .inl listed

end Took

/-! ## Runs -/

section
variable {schedule : List Nat}

theorem run_snoc (requests : Nat → Request) (schedule : List Nat) (call : Nat) :
    run requests (schedule ++ [call]) = step requests (run requests schedule) call := by
  simp [run]

theorem run_took (requests : Nat → Request) (schedule : List Nat) (call : Nat) :
    Took requests (run requests schedule) call (run requests (schedule ++ [call])) := by
  rw [run_snoc]
  exact step_took requests _ call

/-- An entry that a step of this call has put there: the site was unknown before the step. -/
def StoredBy (requests : Nat → Request) (schedule : List Nat) (call : Nat) (site : Site)
    (h : Handle) : Prop :=
  (requests call).site = site ∧ ∃ before after, schedule = before ++ call :: after ∧
    (run requests before).registry.find? site = none ∧
    (run requests (before ++ [call])).registry.find? site = some h

theorem StoredBy.append (stored : StoredBy requests schedule call site h) (later : List Nat) :
    StoredBy requests (schedule ++ later) call site h := by
  obtain ⟨asked, before, after, rfl, unknown, entry⟩ := stored
  exact ⟨asked, before, after ++ later, by simp, unknown, entry⟩

/-- What holds at any moment, whatever the order of the steps. -/
structure Accounted (requests : Nat → Request) (schedule : List Nat) : Prop where
  made : ∀ call own, (run requests schedule).progress call = .made own →
    (run requests schedule).registry.get? own = some (requests call).tracker
  returned : ∀ call h, (run requests schedule).progress call = .returned h →
    (run requests schedule).registry.find? (requests call).site = some h
  stored : ∀ site h, (run requests schedule).registry.find? site = some h →
    ∃ call, StoredBy requests schedule call site h ∧
      (run requests schedule).registry.get? h = some (requests call).tracker
  /-- Trackers are made by calls only. -/
  asked : ∀ t ∈ (run requests schedule).registry.trackers, ∃ call, t = (requests call).tracker

theorem accounted (requests : Nat → Request) (schedule : List Nat) :
    Accounted requests schedule := by
  induction schedule using List.reverseRecOn with
  | nil =>
      constructor
      · intro call own made
        cases made
      · intro call h returned
        cases returned
      · intro site h entry
        cases entry
      · intro t listed
        cases listed
  | append_singleton schedule call ih =>
      have took := run_took requests schedule call
      constructor
      · intro other own made
        by_cases same : other = call
        · subst same
          exact took.makes (ih.made other) made
        · rw [took.progress_other same] at made
          exact took.get?_kept (ih.made other own made)
      · intro other h returned
        by_cases same : other = call
        · subst same
          exact took.returns (ih.returned other) returned
        · rw [took.progress_other same] at returned
          exact took.find?_kept (ih.returned other h returned)
      · intro site h entry
        rcases took.find?_new entry with earlier | ⟨rfl, unknown, made⟩
        · obtain ⟨owner, stored, held⟩ := ih.stored site h earlier
          exact ⟨owner, stored.append [call], took.get?_kept held⟩
        · exact ⟨call, ⟨rfl, schedule, [], rfl, unknown, entry⟩,
            took.get?_kept (ih.made call h made)⟩
      · intro t listed
        rcases took.mem_trackers listed with earlier | rfl
        · exact ih.asked t earlier
        · exact ⟨call, rfl⟩

/-- Entries and the trackers at them stay for the rest of a run. -/
theorem find?_later (entry : (run requests schedule).registry.find? site = some h)
    (later : List Nat) : (run requests (schedule ++ later)).registry.find? site = some h := by
  induction later using List.reverseRecOn with
  | nil => rwa [List.append_nil]
  | append_singleton later call ih =>
      rw [← List.append_assoc]
      exact (run_took requests _ call).find?_kept ih

theorem get?_later {t : Tracker} (held : (run requests schedule).registry.get? h = some t)
    (later : List Nat) : (run requests (schedule ++ later)).registry.get? h = some t := by
  induction later using List.reverseRecOn with
  | nil => rwa [List.append_nil]
  | append_singleton later call ih =>
      rw [← List.append_assoc]
      exact (run_took requests _ call).get?_kept ih

/-- Sites whose entries are the same tracker are the same. -/
theorem Accounted.site_unique (account : Accounted requests schedule) {site' : Site}
    (entry : (run requests schedule).registry.find? site = some h)
    (entry' : (run requests schedule).registry.find? site' = some h) : site = site' := by
  obtain ⟨call, ⟨rfl, -⟩, held⟩ := account.stored site h entry
  obtain ⟨call', ⟨rfl, -⟩, held'⟩ := account.stored site' h entry'
  rw [held, Option.some_inj] at held'
  have name : (requests call).site.name = (requests call').site.name :=
    congrArg Tracker.name held'
  have tag : (requests call).site.tag = (requests call').site.tag := congrArg Tracker.tag held'
  cases asked : (requests call).site
  cases asked' : (requests call').site
  rw [asked, asked'] at name tag
  rw [Site.mk.injEq]
  exact ⟨name, tag⟩

/-- An entry has one call that put it there. -/
theorem StoredBy.unique {call' : Nat} (stored : StoredBy requests schedule call site h)
    (stored' : StoredBy requests schedule call' site h) : call = call' := by
  obtain ⟨-, before, after, rfl, unknown, entry⟩ := stored
  obtain ⟨-, before', after', same, unknown', entry'⟩ := stored'
  -- Neither moment comes before the other: the site is known from then on.
  rcases List.append_eq_append_iff.1 same with ⟨between, rfl, rest⟩ | ⟨between, rfl, rest⟩
  · cases between with
    | nil =>
        rw [List.nil_append, List.cons_eq_cons] at rest
        exact rest.1
    | cons first between =>
        rw [List.cons_append, List.cons_eq_cons] at rest
        obtain ⟨rfl, -⟩ := rest
        have known := find?_later entry between
        rw [List.append_assoc, List.singleton_append, unknown'] at known
        cases known
  · cases between with
    | nil =>
        rw [List.nil_append, List.cons_eq_cons] at rest
        exact rest.1.symm
    | cons first between =>
        rw [List.cons_append, List.cons_eq_cons] at rest
        obtain ⟨rfl, -⟩ := rest
        have known := find?_later entry' between
        rw [List.append_assoc, List.singleton_append, unknown] at known
        cases known

/-- Each step of a call counts, whatever the others do in between. -/
theorem stepsLeft_run (requests : Nat → Request) (schedule : List Nat) (call : Nat) :
    ((run requests schedule).progress call).stepsLeft ≤ 3 - schedule.count call := by
  induction schedule using List.reverseRecOn with
  | nil => exact Nat.le_refl 3
  | append_singleton schedule next ih =>
      have took := run_took requests schedule next
      rw [List.count_append, List.count_singleton]
      by_cases same : next = call
      · subst same
        have nearer := took.stepsLeft
        simp only [beq_self_eq_true, if_true]
        omega
      · have apart : (next == call) = false := by simpa using same
        rw [took.progress_other (Ne.symm same), apart]
        exact ih

/-- A call has returned after three steps. -/
theorem returns_run (steps : 3 ≤ schedule.count call) :
    ∃ h, (run requests schedule).progress call = .returned h := by
  have left := stepsLeft_run requests schedule call
  rw [Nat.sub_eq_zero_of_le steps] at left
  cases come : (run requests schedule).progress call with
  | returned h => exact ⟨h, rfl⟩
  | waiting | missed | made own =>
      rw [come] at left
      cases left

end

/-- The steps of a call, one right after the other, acquire a tracker. -/
theorem run_alone (waiting : w.progress call = .waiting) :
    [call, call, call].foldl (step requests) w =
      let (h, registry) := w.registry.acquire (requests call).site (requests call).threshold
      { w with registry }.setProgress call (.returned h) := by
  show step requests (step requests (step requests w call) call) call = _
  cases asked : w.registry.find? (requests call).site with
  | some h =>
      have found : step requests w call = w.setProgress call (.returned h) := by
        simp only [step, waiting, asked]
      have stays : step requests (w.setProgress call (.returned h)) call =
          w.setProgress call (.returned h) := by
        simp only [step, setProgress_self]
      simp only [found, stays, Registry.acquire, asked]
  | none =>
      have missed : step requests w call = w.setProgress call .missed := by
        simp only [step, waiting, asked]
      have unknown : (w.registry.create (requests call).site (requests call).threshold).2.find?
          (requests call).site = none := asked
      rw [missed]
      simp only [step, setProgress_self, setProgress_registry, Registry.acquire, asked,
        Registry.findOrStore, unknown, setProgress_again]

/-! ## One tracker for each site -/

/-- Calls acquire trackers at the same time, their steps in any order.  Each returns after three
steps of its own, and two calls return the same tracker exactly if they ask for the same site.  The
tracker that a call returns is the entry of its site.  An entry was put there by one call; it has
the name, the tag and the threshold of that call, or the threshold one if that is below one, and
neither the entry nor its tracker changes afterwards. -/
theorem one_tracker_per_site (requests : Nat → Request) (schedule : List Nat) :
    (∀ call, 3 ≤ schedule.count call →
      ∃ h, (run requests schedule).progress call = .returned h) ∧
    (∀ call call' h h', (run requests schedule).progress call = .returned h →
      (run requests schedule).progress call' = .returned h' →
      (h = h' ↔ (requests call).site = (requests call').site)) ∧
    (∀ call h, (run requests schedule).progress call = .returned h →
      (run requests schedule).registry.find? (requests call).site = some h) ∧
    (∀ site h, (run requests schedule).registry.find? site = some h →
      (∃! call, StoredBy requests schedule call site h) ∧
      ∃ t, t.name = site.name ∧ t.tag = site.tag ∧
        (∀ call, StoredBy requests schedule call site h →
          t.threshold = max 1 (requests call).threshold) ∧
        ∀ later, (run requests (schedule ++ later)).registry.find? site = some h ∧
          (run requests (schedule ++ later)).registry.get? h = some t) ∧
    (∀ t ∈ (run requests schedule).registry.trackers, 1 ≤ t.threshold) := by
  have account := accounted requests schedule
  refine ⟨fun call steps => returns_run steps, ?_, account.returned, ?_, ?_⟩
  · intro call call' h h' returned returned'
    have entry := account.returned call h returned
    have entry' := account.returned call' h' returned'
    constructor
    · rintro rfl
      exact account.site_unique entry entry'
    · intro same
      rw [same, entry'] at entry
      exact (Option.some_inj.1 entry).symm
  · intro site h entry
    obtain ⟨call, stored, held⟩ := account.stored site h entry
    obtain ⟨rfl, -⟩ := id stored
    refine ⟨⟨call, stored, fun other stored' => stored'.unique stored⟩,
      (requests call).tracker, rfl, rfl, ?_, ?_⟩
    · intro other stored'
      rw [stored'.unique stored]
      exact Int.max_comm _ _
    · intro later
      exact ⟨find?_later entry later, get?_later held later⟩
  · intro t listed
    obtain ⟨call, rfl⟩ := account.asked t listed
    exact Int.le_max_right _ _

/-- Two calls for one badge, with different thresholds, and one for a label. -/
def badges : Nat → Request
  | 0 => ⟨⟨"ui.Badge", "top"⟩, 5⟩
  | 1 => ⟨⟨"ui.Badge", "top"⟩, 0⟩
  | _ => ⟨⟨"ui.Label", "top"⟩, 3⟩

/-- Both badges are unknown at first, and the second is stored before the first. -/
def badgeRace : List Nat := [0, 1, 2, 0, 1, 1, 2, 0, 2]

theorem badges_share :
    (∃ h, (run badges badgeRace).progress 0 = .returned h ∧
      (run badges badgeRace).progress 1 = .returned h ∧
      (run badges badgeRace).progress 2 ≠ .returned h ∧
      ∃ t, (run badges badgeRace).registry.get? h = some t ∧ t.threshold = 1) ∧
    (run badges badgeRace).registry.trackers.length = 3 := by
  obtain ⟨returns, shared, entries, stored, -⟩ := one_tracker_per_site badges badgeRace
  obtain ⟨h, first⟩ := returns 0 (by decide)
  obtain ⟨h', second⟩ := returns 1 (by decide)
  obtain rfl : h = h' := (shared 0 1 h h' first second).2 rfl
  obtain ⟨-, t, -, -, threshold, kept⟩ := stored _ h (entries 0 h first)
  have held := (kept []).2
  have byTheSecond : StoredBy badges badgeRace 1 ⟨"ui.Badge", "top"⟩ h :=
    ⟨rfl, [0, 1, 2, 0, 1], [2, 0, 2], rfl, rfl, entries 0 h first⟩
  refine ⟨⟨h, first, second, ?_, t, held, threshold 1 byTheSecond⟩, rfl⟩
  intro third
  have same := (shared 0 2 h h first third).1 rfl
  exact absurd same (by decide)

end Overlap

end ComposeStability.Tracing
