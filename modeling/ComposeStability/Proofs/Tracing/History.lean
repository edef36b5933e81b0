/-
# Proofs.Tracing.History -- events follow from the history of their call site

A run is a list of actions from the start of a program.  For one call site it
comes down to what happened to the tracker of the site since the site was first
acquired (`historyOf`): the arguments of the current call are those since the
last flush (`currentCall`), and the previous value of a parameter is the last
one before that flush (`lastFlushed?`).  `trackerOf` is the tracker that such a
history leaves, whatever happened elsewhere (`run_tracker`), so a flush delivers
what `eventOf` says, to the logger of that moment, if tracing is switched on and
the threshold is met (`flush_delivers`).
-/
import ComposeStability.Tracing.Recorder
import Mathlib.Data.List.Induction
import Mathlib.Data.List.TakeWhile

namespace ComposeStability.Tracing

set_option autoImplicit false

open Recorder (Action Outcome)

/-! ## Runs -/

namespace Recorder

/-- The trackers, the switch and the logger after a run. -/
def run (past : List Action) : Recorder := past.foldl (fun r a => (r.step a).2) {}

/-- Acquiring a site gave this tracker somewhere in a run. -/
def Issued (past : List Action) (site : Site) (h : Handle) : Prop :=
  ∃ before threshold after, past = before ++ .acquire site threshold :: after ∧
    ((run before).step (.acquire site threshold)).1.handle = some h

namespace Action

def switch? : Action → Option Bool
  | .enable on => some on
  | _ => none

def logger? : Action → Option Logger
  | .useLogger logger => some logger
  | _ => none

def acquires (site : Site) : Action → Bool
  | .acquire other _ => other = site
  | _ => false

end Action

/-- Tracing is switched on at first. -/
def enabledAfter (past : List Action) : Bool := (past.filterMap Action.switch?).getLast?.getD true

/-- Without a logger there is the standard one. -/
def loggerAfter (past : List Action) : Logger :=
  (past.filterMap Action.logger?).getLast?.getD .standard

end Recorder

/-! ## The history of a call site -/

/-- An argument of a call. -/
structure Argument where
  name : String
  type : String
  value : Value
  stable : Bool

/-- What concerns one call site. -/
inductive SiteAction where
  | acquire (threshold : Int)
  | track (argument : Argument)
  | flush

namespace SiteAction

def threshold? : SiteAction → Option Int
  | .acquire threshold => some threshold
  | _ => none

def argument? : SiteAction → Option Argument
  | .track argument => some argument
  | _ => none

def isFlush : SiteAction → Bool
  | .flush => true
  | _ => false

end SiteAction

/-- What an action means to a site with this tracker. -/
def Recorder.Action.on? (site : Site) (h : Handle) : Action → Option SiteAction
  | .acquire other threshold => if other = site then some (.acquire threshold) else none
  | .track other name type value stable =>
      if other = h then some (.track ⟨name, type, value, stable⟩) else none
  | .flush other => if other = h then some .flush else none
  | _ => none

/-- What happened to a site and its tracker since the site was first acquired. -/
def historyOf (site : Site) (h : Handle) (past : List Action) : List SiteAction :=
  (past.dropWhile fun a => !a.acquires site).filterMap (Action.on? site h)

section
variable (history : List SiteAction)

/-- The threshold that the site was first acquired with. -/
def firstThreshold? : Option Int := (history.filterMap SiteAction.threshold?).head?

/-- The number of the current call, from one. -/
def callNumber : Nat := history.countP SiteAction.isFlush + 1

/-- The arguments since the last flush. -/
def currentCall : List Argument :=
  ((history.reverse.takeWhile fun a => !a.isFlush).filterMap SiteAction.argument?).reverse

/-- The arguments up to the last flush, the latest first. -/
def flushedArguments : List Argument :=
  (history.reverse.dropWhile fun a => !a.isFlush).filterMap SiteAction.argument?

/-- The value most recently flushed under a name. -/
def lastFlushed? (name : String) : Option Value :=
  ((flushedArguments history).find? fun a => a.name == name).map (·.value)

/-- An argument compared with the value most recently flushed. -/
def changeOf (argument : Argument) : Change where
  name := argument.name
  type := argument.type
  old := (lastFlushed? history argument.name).getD .absent
  new := argument.value
  changed := !(lastFlushed? history argument.name).any fun old => old.equal argument.value
  stable := argument.stable

/-- The event of the current call. -/
def eventOf (site : Site) : Event where
  name := site.name
  tag := site.tag
  count := callNumber history
  changes := (currentCall history).map (changeOf history)
  unstable :=
    let names := ((currentCall history).filter fun a => !a.stable).map (·.name)
    if names.isEmpty then none else some names

/-- The tracker that a history leaves. -/
def trackerOf (site : Site) (threshold : Int) : Tracker where
  name := site.name
  tag := site.tag
  threshold := max threshold 1
  count := history.countP SiteAction.isFlush
  staged := (currentCall history).map (changeOf history)
  baseline := (flushedArguments history).map fun a => (a.name, a.value)

end

/-! ## One more action of a site -/

section
variable {history : List SiteAction} {site : Site} {threshold : Int}

theorem lookup_flushed (arguments : List Argument) (name : String) :
    (arguments.map fun a => (a.name, a.value)).lookup name =
      (arguments.find? fun a => a.name == name).map (·.value) := by
  induction arguments with
  | nil => rfl
  | cons a arguments ih =>
      rw [List.map_cons, List.lookup_cons, List.find?_cons, ih]
      by_cases same : name = a.name
      · simp [same]
      · have other : (name == a.name) = false := by simpa using same
        have other' : (a.name == name) = false := by simpa using Ne.symm same
        rw [other, other']

theorem trackerOf_compare (a : Argument) :
    (trackerOf history site threshold).compare a.name a.type a.value a.stable =
      changeOf history a := by
  have previous : (trackerOf history site threshold).previous? a.name =
      lastFlushed? history a.name := lookup_flushed _ _
  unfold Tracker.compare changeOf
  rw [previous]
  cases lastFlushed? history a.name <;> rfl

theorem trackerOf_start : trackerOf [.acquire threshold] site threshold =
    Tracker.new site.name site.tag threshold := rfl

/-- Until a flush, arguments are added to the current call, and nothing to what was flushed. -/
theorem currentCall_append {a : SiteAction} (unflushed : a.isFlush = false) :
    currentCall (history ++ [a]) = currentCall history ++ a.argument?.toList := by
  have listed : ([a].filterMap SiteAction.argument?).reverse = a.argument?.toList := by
    cases argument : a.argument? <;> simp [argument]
  rw [currentCall, currentCall, List.reverse_append, List.reverse_singleton,
    List.singleton_append, List.takeWhile_cons_of_pos (by simp [unflushed]),
    ← List.singleton_append, List.filterMap_append, List.reverse_append, listed]

theorem flushedArguments_append {a : SiteAction} (unflushed : a.isFlush = false) :
    flushedArguments (history ++ [a]) = flushedArguments history := by
  simp [flushedArguments, unflushed]

theorem changeOf_append {a : SiteAction} (unflushed : a.isFlush = false) :
    changeOf (history ++ [a]) = changeOf history := by
  funext argument
  simp only [changeOf, lastFlushed?, flushedArguments_append unflushed]

/-- Acquiring a site again changes nothing. -/
theorem trackerOf_acquire (again : Int) :
    trackerOf (history ++ [.acquire again]) site threshold = trackerOf history site threshold := by
  have unflushed : (SiteAction.acquire again).isFlush = false := rfl
  simp [trackerOf, currentCall_append unflushed, flushedArguments_append unflushed,
    changeOf_append unflushed, unflushed, SiteAction.argument?]

theorem trackerOf_track (a : Argument) :
    trackerOf (history ++ [.track a]) site threshold =
      (trackerOf history site threshold).track a.name a.type a.value a.stable := by
  have unflushed : (SiteAction.track a).isFlush = false := rfl
  rw [Tracker.track, trackerOf_compare]
  simp [trackerOf, currentCall_append unflushed, flushedArguments_append unflushed,
    changeOf_append unflushed, unflushed, SiteAction.argument?]

/-- A flush makes the current call part of what was flushed, whether or not there is an event. -/
theorem trackerOf_flush :
    trackerOf (history ++ [.flush]) site threshold =
      (trackerOf history site threshold).flush.2 := by
  have current : currentCall (history ++ [.flush]) = [] := by
    simp [currentCall, SiteAction.isFlush]
  have flushed : flushedArguments (history ++ [.flush]) =
      (currentCall history).reverse ++ flushedArguments history := by
    have all := List.takeWhile_append_dropWhile
      (p := fun a : SiteAction => !a.isFlush) (l := history.reverse)
    rw [currentCall, flushedArguments, flushedArguments, List.reverse_reverse,
      ← List.filterMap_append, all]
    simp [SiteAction.isFlush, SiteAction.argument?, List.filterMap_cons]
  have values : ((currentCall history).map (changeOf history)).map (fun c => (c.name, c.new)) =
      (currentCall history).map fun a => (a.name, a.value) := List.map_map
  simp only [Tracker.flush, trackerOf, current, flushed, values]
  simp [SiteAction.isFlush]

theorem unstableNames_changes (arguments : List Argument) :
    unstableNames (arguments.map (changeOf history)) =
      let names := (arguments.filter fun a => !a.stable).map (·.name)
      if names.isEmpty then none else some names := by
  have same : ((arguments.map (changeOf history)).filter fun c => !c.stable).map (·.name) =
      (arguments.filter fun a => !a.stable).map (·.name) := by
    rw [List.filter_map, List.map_map]
    rfl
  rw [unstableNames, same]
  cases (arguments.filter fun a => !a.stable).map (·.name) <;> rfl

/-- A tracker has an event for its current call from the threshold on. -/
theorem trackerOf_event : (trackerOf history site threshold).flush.1 =
    if max 1 threshold ≤ (callNumber history : Int) then some (eventOf history site) else none := by
  have event : (trackerOf history site threshold).event (callNumber history) =
      eventOf history site := by
    simp only [Tracker.event, trackerOf, unstableNames_changes, eventOf]
  rw [← event, Int.max_comm]
  rfl

end

/-! ## The trackers after a run -/

namespace Recorder

theorem run_append (past : List Action) (a : Action) :
    run (past ++ [a]) = ((run past).step a).2 := by
  simp [run]

theorem run_enabled (past : List Action) : (run past).enabled = enabledAfter past := by
  induction past using List.reverseRecOn with
  | nil => rfl
  | append_singleton past a ih =>
      rw [run_append, enabledAfter, List.filterMap_append]
      cases a with
      | enable on => simp [step, Action.switch?]
      | track h name type value stable =>
          simp only [step]
          split <;> simpa [Action.switch?, enabledAfter] using ih
      | flush h =>
          simp only [step]
          split <;> simpa [Action.switch?, enabledAfter] using ih
      | _ => simpa [step, Action.switch?, enabledAfter] using ih

theorem run_logger (past : List Action) : (run past).logger = loggerAfter past := by
  induction past using List.reverseRecOn with
  | nil => rfl
  | append_singleton past a ih =>
      rw [run_append, loggerAfter, List.filterMap_append]
      cases a with
      | useLogger logger => simp [step, Action.logger?]
      | track h name type value stable =>
          simp only [step]
          split <;> simpa [Action.logger?, loggerAfter] using ih
      | flush h =>
          simp only [step]
          split <;> simpa [Action.logger?, loggerAfter] using ih
      | _ => simpa [step, Action.logger?, loggerAfter] using ih

/-! ### Shared trackers -/

section
variable {r : Recorder} {site other : Site} {h : Handle}

/-- The tracker of a site stays the same. -/
theorem step_find? (a : Action) (found : r.registry.find? site = some h) :
    (r.step a).2.registry.find? site = some h := by
  cases a with
  | acquire other threshold =>
      simp only [step, Registry.acquire]
      split
      · exact found
      · rename_i unknown
        have different : site ≠ other := by
          rintro rfl
          simp [found] at unknown
        have different' : (site == other) = false := by simpa using different
        simp only [Registry.create, Registry.findOrStore, Registry.find?] at unknown found ⊢
        rw [unknown]
        simpa [List.lookup_cons, different'] using found
  | track h name type value stable =>
      simp only [step]
      split <;> exact found
  | flush h =>
      simp only [step]
      split <;> exact found
  | _ => exact found

/-- Acquiring a site gives the tracker that the site has from then on. -/
theorem step_acquire_find? (threshold : Int) :
    (r.step (.acquire site threshold)).2.registry.find? site =
      (r.step (.acquire site threshold)).1.handle := by
  simp only [step, Registry.acquire]
  split
  · assumption
  · rename_i unknown
    simp only [Registry.create, Registry.findOrStore, Registry.find?] at unknown ⊢
    rw [unknown]
    simp

end

theorem Issued.find? {past : List Action} {site : Site} {h : Handle}
    (issued : Issued past site h) : (run past).registry.find? site = some h := by
  obtain ⟨before, threshold, after, rfl, given⟩ := issued
  induction after using List.reverseRecOn with
  | nil =>
      rw [run_append, step_acquire_find?, given]
  | append_singleton after a ih =>
      rw [← List.cons_append, ← List.append_assoc, run_append]
      exact step_find? a ih

/-- A site without a tracker has not been acquired. -/
theorem not_acquired {past : List Action} {site : Site}
    (unknown : (run past).registry.find? site = none) :
    past.any (Action.acquires site) = false := by
  induction past using List.reverseRecOn with
  | nil => rfl
  | append_singleton past a ih =>
      rw [run_append] at unknown
      have before : (run past).registry.find? site = none := by
        cases found : (run past).registry.find? site with
        | none => rfl
        | some h => simp [step_find? a found] at unknown
      have other : a.acquires site = false := by
        cases a with
        | acquire other threshold =>
            refine decide_eq_false ?_
            rintro rfl
            rw [step_acquire_find?] at unknown
            simp [step] at unknown
        | _ => rfl
      simp [ih before, other]

/-! ### Histories -/

section
variable {past : List Action} {site : Site} {h : Handle}

theorem historyOf_start (first : past.any (Action.acquires site) = false) (threshold : Int) :
    historyOf site h (past ++ [.acquire site threshold]) = [.acquire threshold] := by
  have skipped : past.dropWhile (fun a => !a.acquires site) = [] := by
    simpa [List.dropWhile_eq_nil_iff] using first
  rw [historyOf, List.dropWhile_append, skipped]
  simp [Action.acquires, Action.on?]

theorem historyOf_append (acquired : past.any (Action.acquires site) = true) (a : Action) :
    historyOf site h (past ++ [a]) = historyOf site h past ++ (a.on? site h).toList := by
  have kept : (past.dropWhile fun a => !a.acquires site).isEmpty = false := by
    simpa [List.dropWhile_eq_nil_iff] using acquired
  rw [historyOf, List.dropWhile_append, kept]
  cases on : a.on? site h <;> simp [historyOf, on]

/-- The threshold of a history is that of its first acquisition. -/
theorem firstThreshold?_append {history rest : List SiteAction} {threshold : Int}
    (first : firstThreshold? history = some threshold) :
    firstThreshold? (history ++ rest) = some threshold := by
  simp only [firstThreshold?] at first ⊢
  rw [List.filterMap_append, List.head?_append, first, Option.some_or]

end

/-! ### One step -/

section
variable {r : Recorder} {history : List SiteAction} {site : Site} {h : Handle} {threshold : Int}

theorem get?_create {registry : Registry} {t : Tracker} (held : registry.get? h = some t)
    (other : Site) : (registry.create other threshold).2.get? h = some t := by
  obtain ⟨bound, -⟩ := List.getElem?_eq_some_iff.1 held
  exact (List.getElem?_append_left bound).trans held

theorem get?_findOrStore (registry : Registry) (other : Site) (new : Handle) :
    (registry.findOrStore other new).2.get? h = registry.get? h := by
  unfold Registry.findOrStore
  split <;> rfl

theorem get?_acquire {t : Tracker} (held : r.registry.get? h = some t) (other : Site) :
    (r.registry.acquire other threshold).2.get? h = some t := by
  unfold Registry.acquire
  cases r.registry.find? other with
  | some found => exact held
  | none => exact (get?_findOrStore _ _ _).trans (get?_create held other)

theorem get?_set_self {t : Tracker} (held : r.registry.get? h = some t) (t' : Tracker) :
    (r.registry.set h t').get? h = some t' := by
  obtain ⟨bound, -⟩ := List.getElem?_eq_some_iff.1 held
  exact List.getElem?_set_self bound

theorem get?_set_ne {other : Handle} (different : other ≠ h) (t' : Tracker) :
    (r.registry.set other t').get? h = r.registry.get? h :=
  List.getElem?_set_ne different

/-- A step adds to the history of a site what concerns the site, and does nothing else to its
tracker. -/
theorem step_tracker (held : r.registry.get? h = some (trackerOf history site threshold))
    (a : Action) : (r.step a).2.registry.get? h =
      some (trackerOf (history ++ (a.on? site h).toList) site threshold) := by
  cases a with
  | acquire other again =>
      rw [show (r.step (.acquire other again)).2.registry =
        (r.registry.acquire other again).2 from rfl, get?_acquire held other]
      by_cases same : other = site <;> simp [Action.on?, same, trackerOf_acquire]
  | create other again => simpa [step, Action.on?] using get?_create held other
  | track other name type value stable =>
      by_cases same : other = h
      · subst same
        simp only [step, held, get?_set_self held, Action.on?, if_pos, Option.toList_some,
          trackerOf_track]
      · simp only [step, Action.on?, if_neg same, Option.toList_none, List.append_nil]
        split
        · exact held
        · exact (get?_set_ne same _).trans held
  | flush other =>
      by_cases same : other = h
      · subst same
        simp only [step, held, get?_set_self held, Action.on?, if_pos, Option.toList_some,
          trackerOf_flush]
      · simp only [step, Action.on?, if_neg same, Option.toList_none, List.append_nil]
        split
        · exact held
        · exact (get?_set_ne same _).trans held
  | enable on => simpa [step, Action.on?] using held
  | useLogger logger => simpa [step, Action.on?] using held

/-- A site that has just got a tracker has been acquired for the first time. -/
theorem step_new {a : Action} (unknown : r.registry.find? site = none)
    (found : (r.step a).2.registry.find? site = some h) :
    ∃ threshold, a = .acquire site threshold ∧
      (r.step a).2.registry.get? h = some (.new site.name site.tag threshold) := by
  cases a with
  | acquire other threshold =>
      by_cases same : other = site
      · subst same
        refine ⟨threshold, rfl, ?_⟩
        simp only [Registry.find?] at unknown
        simp only [step, Registry.acquire, Registry.create, Registry.findOrStore, Registry.find?,
          unknown] at found ⊢
        obtain rfl : r.registry.trackers.length = h := by simpa using found
        simp [Registry.get?]
      · have different : (site == other) = false := by simpa using Ne.symm same
        simp only [step, Registry.acquire] at found
        split at found
        · simp [unknown] at found
        · rename_i new
          simp only [Registry.find?] at unknown new
          simp [Registry.create, Registry.findOrStore, Registry.find?, new, unknown,
            List.lookup_cons, different] at found
  | track other name type value stable =>
      simp only [step] at found
      split at found <;> exact absurd (unknown.symm.trans found) (by simp)
  | flush other =>
      simp only [step] at found
      split at found <;> exact absurd (unknown.symm.trans found) (by simp)
  | create other threshold => exact absurd (unknown.symm.trans found) (by simp)
  | enable on => exact absurd (unknown.symm.trans found) (by simp)
  | useLogger logger => exact absurd (unknown.symm.trans found) (by simp)

end

/-! ### Whole runs -/

section
variable {past : List Action} {site : Site} {h : Handle}

/-- After a run, the tracker of a site is what the history of the site makes of it. -/
theorem run_tracker (found : (run past).registry.find? site = some h) :
    past.any (Action.acquires site) = true ∧
      ∃ threshold, firstThreshold? (historyOf site h past) = some threshold ∧
        (run past).registry.get? h = some (trackerOf (historyOf site h past) site threshold) := by
  induction past using List.reverseRecOn with
  | nil => simp [run, Registry.find?] at found
  | append_singleton past a ih =>
      rw [run_append] at found ⊢
      cases before : (run past).registry.find? site with
      | none =>
          obtain ⟨threshold, rfl, held⟩ := step_new before found
          have history := historyOf_start (h := h) (not_acquired before) threshold
          refine ⟨by simp [Action.acquires], threshold, ?_, ?_⟩
          · rw [history]
            rfl
          · rw [held, history, trackerOf_start]
      | some h' =>
          obtain rfl : h' = h := by simpa [step_find? a before] using found
          obtain ⟨acquired, threshold, first, held⟩ := ih before
          refine ⟨by simp [acquired], threshold, ?_, ?_⟩
          · rw [historyOf_append acquired]
            exact firstThreshold?_append first
          · rw [historyOf_append acquired]
            exact step_tracker held a

/-- Different sites have different trackers. -/
theorem Issued.site_unique {other : Site} (issued : Issued past site h)
    (issued' : Issued past other h) : site = other := by
  obtain ⟨-, threshold, -, held⟩ := run_tracker issued.find?
  obtain ⟨-, threshold', -, held'⟩ := run_tracker issued'.find?
  rw [held, Option.some_inj] at held'
  have name : site.name = other.name := congrArg Tracker.name held'
  have tag : site.tag = other.tag := congrArg Tracker.tag held'
  cases site
  cases other
  simp_all

/-- What a flush delivers, given the first threshold of the site: an event if tracing is switched
on and the threshold is met. -/
theorem flush_tracker {threshold : Int}
    (held : (run past).registry.get? h = some (trackerOf (historyOf site h past) site threshold)) :
    ((run past).step (.flush h)).1.delivered =
      if enabledAfter past = true ∧ max 1 threshold ≤ (callNumber (historyOf site h past) : Int)
      then some (loggerAfter past, eventOf (historyOf site h past) site)
      else none := by
  simp only [step, held, publish, trackerOf_event, run_enabled, run_logger]
  by_cases on : enabledAfter past = true <;>
    by_cases met : max 1 threshold ≤ (callNumber (historyOf site h past) : Int) <;>
    simp [on, met]

/-- A flush delivers the event of its call site if tracing is switched on and the threshold that
the site was first acquired with is met; the event goes to the logger of the moment.  It is the one
that the history of the site gives: no other site has the same tracker, and wherever the site has
the same history, whatever else happened, the same is delivered. -/
theorem flush_delivers (issued : Issued past site h) :
    (∃ threshold, firstThreshold? (historyOf site h past) = some threshold ∧
      ((run past).step (.flush h)).1.delivered =
        if enabledAfter past = true ∧ max 1 threshold ≤ (callNumber (historyOf site h past) : Int)
        then some (loggerAfter past, eventOf (historyOf site h past) site)
        else none) ∧
    (∀ other h', Issued past other h' → other ≠ site → h' ≠ h) ∧
    (∀ past' h', Issued past' site h' → historyOf site h' past' = historyOf site h past →
      enabledAfter past' = enabledAfter past → loggerAfter past' = loggerAfter past →
      ((run past').step (.flush h')).1.delivered = ((run past).step (.flush h)).1.delivered) := by
  obtain ⟨-, threshold, first, held⟩ := run_tracker issued.find?
  refine ⟨⟨threshold, first, flush_tracker held⟩, ?_, ?_⟩
  · rintro other h' issued' different rfl
    exact different (issued'.site_unique issued)
  · intro past' h' issued' history enabled logger
    obtain ⟨-, threshold', first', held'⟩ := run_tracker issued'.find?
    obtain rfl : threshold' = threshold := by
      rw [history, first] at first'
      exact (Option.some_inj.1 first').symm
    rw [flush_tracker held', flush_tracker held, history, enabled, logger]

end

/-- A badge is traced from its second call on, next to a label.  Its first call is suppressed by
the threshold, the second has its parameter twice and a failing logger, and the third is under
way. -/
def badgeRun : List Action :=
  [.useLogger .failing,
   .acquire ⟨"ui.Badge", "top"⟩ 2,
   .acquire ⟨"ui.Label", ""⟩ 1,
   .track 0 "count" "int" (.int .int 1) true,
   .track 1 "count" "int" (.int .int 7) true,
   .flush 0,
   .acquire ⟨"ui.Badge", "top"⟩ 9,
   .track 0 "count" "int" (.int .int 2) true,
   .track 0 "count" "int" (.int .int 3) true,
   .flush 0,
   .flush 1,
   .useLogger .callback,
   .track 0 "count" "int" (.int .int 3) true,
   .track 0 "style" "ui.Style" (.text "bold") false]

theorem badge_third_call : Issued badgeRun ⟨"ui.Badge", "top"⟩ 0 ∧
    ((run badgeRun).step (.flush 0)).1.delivered = some (.callback,
      { name := "ui.Badge"
        tag := "top"
        count := 3
        changes := [⟨"count", "int", .int .int 3, .int .int 3, false, true⟩,
          ⟨"style", "ui.Style", .absent, .text "bold", true, false⟩]
        unstable := some ["style"] }) := by
  have issued : Issued badgeRun ⟨"ui.Badge", "top"⟩ 0 :=
    ⟨[.useLogger .failing], 2, _, rfl, rfl⟩
  obtain ⟨⟨threshold, first, delivers⟩, -⟩ := flush_delivers issued
  obtain rfl : 2 = threshold := Option.some_inj.1 first
  refine ⟨issued, delivers.trans ?_⟩
  rw [if_pos (by decide)]
  rfl

end Recorder

end ComposeStability.Tracing
