/-
# Proofs.TypeGraph.PlainRecursion -- without cycles the guard is never seen

The rules of classification are written down once more, apart from how the
recursion is kept from running in circles (`rulesBy`): plain recursion applies
them as they are (`plainWalk`), and a walk with one set of types in progress,
which every branch changes and has to restore, puts a guard around the rules
that ask for neighbours (`sharedWalk`).

Where no type contains itself at any distance, a type that is being classified is
not met again below it, only beside it.  So the guard does not hold anything
up (`OnTheWay.new`), the shared set is left as it was found
(`sharedWalk_run`), and `Plain.eq_walk` says that the walk finds what every
solution of the plain equations finds.
-/
import ComposeStability.Proofs.TypeGraph.Reachability
import ComposeStability.Proofs.Outcome

namespace ComposeStability.TypeGraph

set_option autoImplicit false

open Relation (TransGen)
open Stability (Verdict)

variable {τ : Type}

/-! ## The rules -/

section
variable {m : Type → Type} [Monad m] [MonadLiftT (Except Failure) m]

/-- The verdict on the members of a type together with the given supertypes, from the verdicts that
`self` finds on them. -/
def partsBy (g : TypeGraph τ) (self : Option τ → m Verdict) (t : τ)
    (supertypes : List (Option τ)) : m Verdict :=
  match (g.membersOf t).find? (·.mutable) with
  | some member => pure (.unstable (g.textOf t ++ "." ++ member.name ++ " is mutable"))
  | none => do
      let own ← (g.membersOf t).mapM fun member => do
        let verdict ← self member.type
        pure (inMember (g.textOf t) member.name verdict)
      let inherited ← supertypes.mapM self
      pure (.combine ((own ++ inherited).map some))

/-- The rules in their order.  `self` finds the verdicts on neighbours; `guard` stands around the
rules that make a type wait for its parts. -/
def rulesBy (g : TypeGraph τ) (patterns : List Pattern) (guard : τ → m Verdict → m Verdict)
    (self : Option τ → m Verdict) : Option τ → m Verdict
  | none => pure unresolved
  | some t => do
      let kind ← liftM (g.kind t)
      match kind with
      | .nullable => self (g.elemOf t)
      | .typeParameter => pure (.obstacle (.parametric (g.textOf t)))
      | .function => pure (.stable (g.textOf t ++ " is a function type"))
      | _ =>
      if isKnownStable patterns (g.nameOf t) then
        pure (.stable (g.nameOf t ++ " is known to be stable"))
      else do
      let declared ← liftM (declaredStable g t)
      if declared then pure (.stable (g.textOf t ++ " is declared stable"))
      else if immutableCollections.contains (g.nameOf t) then
        pure (.stable (g.textOf t ++ " is an immutable collection"))
      else if mutableCollections.contains (g.nameOf t) then
        pure (.unstable (g.textOf t ++ " is a mutable collection"))
      else match kind with
      | .primitive => pure (.stable (g.textOf t ++ " is a primitive type"))
      | .immutableCollection => pure (.stable (g.textOf t ++ " is an immutable collection"))
      | .mutableCollection => pure (.unstable (g.textOf t ++ " is a mutable collection"))
      | .enum => pure (.stable (g.textOf t ++ " is an enum"))
      | .value => guard t (self (g.elemOf t))
      | _ => do
      let markers ← liftM (g.markers t)
      if markers.has .serializable then guard t (partsBy g self t [])
      else match kind with
        | .composite => guard t (partsBy g self t (g.supertypesOf t))
        | .hidden =>
            if markers.has .runtime then pure (.runtime (g.textOf t) "")
            else pure (.unknown (g.textOf t))
        | _ => pure (.unknown (g.textOf t))

end

/-- The verdict on a type that is met while it is in progress. -/
def cutVerdict (g : TypeGraph τ) (t : τ) : Verdict := .runtime (g.textOf t) "recursive type reference"

/-- Plain recursion: the rules with nothing around them. -/
def plainWalk (g : TypeGraph τ) (patterns : List Pattern) : Nat → Option τ → Except Failure Verdict
  | 0, _ => .error .tooDeep
  | fuel + 1, p => rulesBy g patterns (fun _ body => body) (plainWalk g patterns fuel) p

/-- Enters a type in the one set of types in progress, and removes it afterwards, also when the
classification in between fails. -/
def enterShared (g : TypeGraph τ) (t : τ) (body : ExceptT Failure (StateM (List String)) Verdict) :
    ExceptT Failure (StateM (List String)) Verdict :=
  ExceptT.mk fun visiting =>
    if visiting.contains (g.keyOf t) then (.ok (g.cutVerdict t), visiting)
    else
      let (result, after) := body.run (g.keyOf t :: visiting)
      (result, after.erase (g.keyOf t))

/-- The walk with one set of types in progress that all branches share. -/
def sharedWalk (g : TypeGraph τ) (patterns : List Pattern) :
    Nat → Option τ → ExceptT Failure (StateM (List String)) Verdict
  | 0, _ => throw .tooDeep
  | fuel + 1, p => rulesBy g patterns g.enterShared (sharedWalk g patterns fuel) p

/-- `f` solves the plain equations on the types of a list. -/
def Plain (g : TypeGraph τ) (patterns : List Pattern) (nodes : List τ)
    (f : Option τ → Except Failure Verdict) : Prop :=
  ∀ p, InChart nodes p → f p = rulesBy g patterns (fun _ body => body) f p

/-! ## Graphs without cycles -/

/-- The type is wrapped by, declared in or a supertype of the other. -/
def Contains (g : TypeGraph τ) (t u : τ) : Prop :=
  g.elemOf t = some u ∨ (∃ m ∈ g.membersOf t, m.type = some u) ∨ some u ∈ g.supertypesOf t

/-- No type contains itself at any distance. -/
def Acyclic (g : TypeGraph τ) (nodes : List τ) : Prop := ∀ t ∈ nodes, ¬ TransGen g.Contains t t

/-- Neighbours of listed types are listed, and the graph is deep enough for all of them. -/
structure Enclosed (g : TypeGraph τ) (nodes : List τ) : Prop where
  contained_mem : ∀ t ∈ nodes, ∀ u, g.Contains t u → u ∈ nodes
  length_le : nodes.length ≤ g.depth

/-- The type is a neighbour, resolved or not. -/
def Part (g : TypeGraph τ) (t : τ) (p : Option τ) : Prop :=
  p = g.elemOf t ∨ p ∈ (g.membersOf t).map (·.type) ∨ p ∈ g.supertypesOf t

/-- Different types on the way to the type at hand. -/
structure OnTheWay (g : TypeGraph τ) (nodes path : List τ) (p : Option τ) : Prop where
  nodup : path.Nodup
  listed : path ⊆ nodes
  leads : ∀ t ∈ path, ∀ u, p = some u → TransGen g.Contains t u

variable {g : TypeGraph τ} {nodes path : List τ} {patterns : List Pattern} {p : Option τ} {t : τ}

theorem Part.contains {u : τ} (part : g.Part t (some u)) : g.Contains t u := by
  rcases part with wrapped | member | inherited
  · exact .inl wrapped.symm
  · obtain ⟨m, owned, type⟩ := List.mem_map.1 member
    exact .inr (.inl ⟨m, owned, type⟩)
  · exact .inr (.inr inherited)

theorem Enclosed.part (enclosed : g.Enclosed nodes) (mem : t ∈ nodes) (part : g.Part t p) :
    InChart nodes p := by
  rintro u rfl
  exact enclosed.contained_mem t mem u part.contains

theorem OnTheWay.start : g.OnTheWay nodes [] p where
  nodup := List.nodup_nil
  listed := List.nil_subset _
  leads := by simp

/-- A type is not on the way to itself. -/
theorem OnTheWay.new (way : g.OnTheWay nodes path (some t)) (acyclic : g.Acyclic nodes) :
    t ∉ path :=
  fun old => acyclic t (way.listed old) (way.leads t old t rfl)

theorem OnTheWay.pass (way : g.OnTheWay nodes path (some t)) (part : g.Part t p) :
    g.OnTheWay nodes path p where
  nodup := way.nodup
  listed := way.listed
  leads := by
    rintro s old u rfl
    exact (way.leads s old t rfl).tail part.contains

theorem OnTheWay.step (way : g.OnTheWay nodes path (some t)) (acyclic : g.Acyclic nodes)
    (mem : t ∈ nodes) (part : g.Part t p) : g.OnTheWay nodes (t :: path) p where
  nodup := List.nodup_cons.2 ⟨way.new acyclic, way.nodup⟩
  listed := List.cons_subset.2 ⟨mem, way.listed⟩
  leads := by
    rintro s old u rfl
    rcases List.mem_cons.1 old with rfl | old
    · exact .single part.contains
    · exact (way.pass part).leads s old u rfl

theorem OnTheWay.length_le (way : g.OnTheWay nodes path p) (enclosed : g.Enclosed nodes) :
    path.length ≤ g.depth :=
  Nat.le_trans (way.nodup.length_le_of_subset way.listed) enclosed.length_le

/-- Types with keys of their own are in progress exactly if their keys are. -/
theorem OnTheWay.key_new (way : g.OnTheWay nodes path (some t)) (acyclic : g.Acyclic nodes)
    (distinct : g.KeysDistinct nodes) (mem : t ∈ nodes) : g.keyOf t ∉ path.map g.keyOf := by
  intro carried
  obtain ⟨s, old, same⟩ := List.mem_map.1 carried
  obtain rfl := distinct s (way.listed old) t mem same
  exact way.new acyclic old

/-! ## Two ways to follow the rules -/

section
variable {m n : Type → Type} [Monad m] [Monad n] [LawfulMonad m] [LawfulMonad n]
  [MonadLiftT (Except Failure) m] [MonadLiftT (Except Failure) n]

/-- A relation of computations that sequences keep. -/
structure Respects (R : ∀ α : Type, m α → n α → Prop) : Prop where
  pure {α : Type} (a : α) : R α (Pure.pure a) (Pure.pure a)
  bind {α β : Type} {x : m α} {y : n α} {k : α → m β} {l : α → n β} (first : R α x y)
    (later : ∀ a, R β (k a) (l a)) : R β (x >>= k) (y >>= l)
  lift {α : Type} (x : Except Failure α) : R α (liftM x) (liftM x)

variable {R R' : ∀ α : Type, m α → n α → Prop}

theorem Respects.mapM (respects : Respects R) {α β : Type} {f : α → m β} {f' : α → n β}
    {xs : List α} (each : ∀ x ∈ xs, R β (f x) (f' x)) : R (List β) (xs.mapM f) (xs.mapM f') := by
  induction xs with
  | nil =>
      rw [List.mapM_nil, List.mapM_nil]
      exact respects.pure []
  | cons x xs ih =>
      rw [List.mapM_cons, List.mapM_cons]
      refine respects.bind (each x List.mem_cons_self) fun b => ?_
      refine respects.bind (ih fun y later => each y (List.mem_cons_of_mem x later)) fun bs => ?_
      exact respects.pure (b :: bs)

theorem partsBy_related (respects : Respects R) {self : Option τ → m Verdict}
    {self' : Option τ → n Verdict} {supertypes : List (Option τ)}
    (below : supertypes ⊆ g.supertypesOf t) (each : ∀ p, g.Part t p → R _ (self p) (self' p)) :
    R _ (partsBy g self t supertypes) (partsBy g self' t supertypes) := by
  unfold partsBy
  split
  · exact respects.pure _
  · refine respects.bind (respects.mapM fun member owned => ?_) fun own => ?_
    · exact respects.bind (each _ (.inr (.inl (List.mem_map_of_mem owned))))
        fun verdict => respects.pure _
    · exact respects.bind (respects.mapM fun p above => each p (.inr (.inr (below above))))
        fun inherited => respects.pure _

/-- Rules that are followed in two ways are followed alike, if neighbours and guards are. -/
theorem rulesBy_related (respects : Respects R) (inside : Respects R')
    {guard : τ → m Verdict → m Verdict} {guard' : τ → n Verdict → n Verdict}
    {self : Option τ → m Verdict} {self' : Option τ → n Verdict}
    (guarded : ∀ {body : m Verdict} {body' : n Verdict}, R' _ body body' →
      R _ (guard t body) (guard' t body'))
    (wrapped : R _ (self (g.elemOf t)) (self' (g.elemOf t)))
    (each : ∀ p, g.Part t p → R' _ (self p) (self' p)) :
    R _ (rulesBy g patterns guard self (some t)) (rulesBy g patterns guard' self' (some t)) := by
  have parts {supertypes : List (Option τ)} (below : supertypes ⊆ g.supertypesOf t) :=
    guarded (partsBy_related inside below each)
  refine respects.bind (respects.lift _) fun kind => ?_
  split
  · exact wrapped
  · exact respects.pure _
  · exact respects.pure _
  split
  · exact respects.pure _
  refine respects.bind (respects.lift _) fun declared => ?_
  iterate 3
    split
    · exact respects.pure _
  split
  · exact respects.pure _
  · exact respects.pure _
  · exact respects.pure _
  · exact respects.pure _
  · exact guarded (each _ (.inl rfl))
  refine respects.bind (respects.lift _) fun markers => ?_
  split
  · exact parts (List.nil_subset _)
  split
  · exact parts (List.Subset.refl _)
  · split <;> exact respects.pure _
  · exact respects.pure _

end

/-! ## Plain recursion -/

theorem respects_eq : Respects (fun α (x y : Except Failure α) => x = y) where
  pure a := rfl
  bind first later := by
    rw [first]
    exact congrArg _ (funext later)
  lift x := rfl

/-- What the rules find depends on what is found on the neighbours alone. -/
theorem rulesBy_congr {guard : τ → Except Failure Verdict → Except Failure Verdict}
    {self self' : Option τ → Except Failure Verdict} (each : ∀ p, g.Part t p → self p = self' p) :
    rulesBy g patterns guard self (some t) = rulesBy g patterns guard self' (some t) :=
  rulesBy_related respects_eq respects_eq (fun same => congrArg _ same) (each _ (.inl rfl)) each

/-- Bounds that the way to a type leaves enough of do not matter. -/
theorem plainWalk_enough (enclosed : g.Enclosed nodes) (acyclic : g.Acyclic nodes) :
    ∀ (fuel fuel' : Nat) (path : List τ) (p : Option τ), InChart nodes p →
      g.OnTheWay nodes path p → g.depth < fuel + path.length → g.depth < fuel' + path.length →
      plainWalk g patterns fuel p = plainWalk g patterns fuel' p
  | 0, _, path, _, _, way, enough, _ => by
      have := way.length_le enclosed
      omega
  | _, 0, path, _, _, way, _, enough => by
      have := way.length_le enclosed
      omega
  | _ + 1, _ + 1, _, none, _, _, _, _ => rfl
  | fuel + 1, fuel' + 1, path, some t, charted, way, enough, enough' => by
      have mem := charted t rfl
      refine rulesBy_congr fun p part => ?_
      exact plainWalk_enough enclosed acyclic fuel fuel' (t :: path) p (enclosed.part mem part)
        (way.step acyclic mem part) (by simp only [List.length_cons]; omega)
        (by simp only [List.length_cons]; omega)

/-- Plain recursion with enough bound solves the plain equations. -/
theorem plain_plainWalk (enclosed : g.Enclosed nodes) (acyclic : g.Acyclic nodes) {fuel : Nat}
    (enough : g.depth < fuel) : g.Plain patterns nodes (plainWalk g patterns fuel) := by
  intro p charted
  obtain ⟨fuel, rfl⟩ : ∃ less, fuel = less + 1 := ⟨fuel - 1, by omega⟩
  cases p with
  | none => rfl
  | some t =>
      have mem := charted t rfl
      refine rulesBy_congr fun p part => ?_
      have way : g.OnTheWay nodes [t] p := OnTheWay.start.step acyclic mem part
      exact plainWalk_enough enclosed acyclic fuel (fuel + 1) [t] p (enclosed.part mem part) way
        (by simpa using enough) (by simp only [List.length_singleton]; omega)

/-! ## The walk with a guard -/

/-- A type that is in progress is cut off. -/
def cutOff (g : TypeGraph τ) (visiting : List String) (t : τ) (body : Except Failure Verdict) :
    Except Failure Verdict :=
  if visiting.contains (g.keyOf t) then .ok (g.cutVerdict t) else body

section
variable {fuel : Nat} {visiting : List String}

theorem walkMembers_eq_mapM [g.Tells] (owner : τ) (members : List (Member τ)) :
    walkMembers g patterns fuel visiting owner members =
      members.mapM (fun m => do
        let verdict ← walk g patterns fuel visiting m.type
        pure (inMember (g.textOf owner) m.name verdict)) := by
  induction members with
  | nil => rw [walkMembers, List.mapM_nil]; rfl
  | cons m members ih =>
      rw [walkMembers_told, ih, List.mapM_cons]
      cases walk g patterns fuel visiting m.type <;> rfl

theorem walkAll_eq_mapM (types : List (Option τ)) :
    walkAll g patterns fuel visiting types = types.mapM (walk g patterns fuel visiting) := by
  induction types with
  | nil => rw [walkAll, List.mapM_nil]; rfl
  | cons p types ih => rw [walkAll, ih, List.mapM_cons]

theorem walkParts_eq_partsBy [g.Tells] (t : τ) (supertypes : List (Option τ)) :
    walkParts g patterns fuel visiting t (.ok supertypes) =
      g.cutOff visiting t
        (partsBy g (walk g patterns fuel (g.keyOf t :: visiting)) t supertypes) := by
  rw [walkParts_told, cutOff, partsBy]
  split
  · rfl
  · cases (g.membersOf t).find? (·.mutable) with
    | some m => rfl
    | none => rw [walkMembers_eq_mapM, walkAll_eq_mapM]

/-- One step of the walk follows the rules at the type behind the wrappers, with the guard around
them. -/
theorem walk_eq_rulesBy [g.Tells] (found : unwrap g (g.depth + 1) p = .ok (some t))
    (bare : g.kind t ≠ .ok .nullable) :
    walk g patterns (fuel + 1) visiting p =
      rulesBy g patterns (g.cutOff visiting) (walk g patterns fuel (g.keyOf t :: visiting))
        (some t) := by
  rw [walk, found, rulesBy]
  simp only [Tells.key, Tells.name, Tells.text, Tells.elem, Tells.supertypes,
    walkParts_eq_partsBy]
  simp only [bind, Except.bind, liftM, monadLift, pure, Except.pure]
  cases kind : g.kind t with
  | error failure => rfl
  | ok k =>
      cases k with
      | nullable => exact absurd kind bare
      | _ => rfl

end

section
variable {f : Option τ → Except Failure Verdict} {fuel : Nat}

/-- What stands behind the wrappers around a type; `f` looks through them as well. -/
inductive LooksThrough (g : TypeGraph τ) (nodes path : List τ)
    (f : Option τ → Except Failure Verdict) (fuel : Nat) (p : Option τ) : Prop where
  | fails (failure : Failure) (unwrapped : unwrap g fuel p = .error failure)
      (same : f p = .error failure) : LooksThrough g nodes path f fuel p
  | unresolved (unwrapped : unwrap g fuel p = .ok none) (same : f p = .ok unresolved) :
      LooksThrough g nodes path f fuel p
  | found (t : τ) (mem : t ∈ nodes) (unwrapped : unwrap g fuel p = .ok (some t))
      (bare : g.kind t ≠ .ok .nullable) (same : f p = f (some t))
      (way : g.OnTheWay nodes path (some t)) : LooksThrough g nodes path f fuel p

/-- Wrappers around a type are looked through one by one; `passed` are those already behind. -/
theorem Plain.looksThrough [g.Tells] (plain : g.Plain patterns nodes f) (enclosed : g.Enclosed nodes)
    (acyclic : g.Acyclic nodes) :
    ∀ (fuel : Nat) (passed : List τ) (p : Option τ), InChart nodes p →
      g.OnTheWay nodes passed p → g.OnTheWay nodes path p → g.depth < fuel + passed.length →
      g.LooksThrough nodes path f fuel p
  | fuel, _, none, charted, _, _, _ =>
      .unresolved (by cases fuel <;> rw [unwrap]) (plain none charted)
  | 0, passed, some _, _, behind, _, enough => by
      have := behind.length_le enclosed
      omega
  | fuel + 1, passed, some t, charted, behind, way, enough => by
      have mem := charted t rfl
      have rules := plain (some t) charted
      rw [rulesBy] at rules
      cases kind : g.kind t with
      | error failure =>
          rw [kind] at rules
          exact .fails failure (by rw [unwrap, kind]; rfl) rules
      | ok k =>
          rw [kind] at rules
          by_cases wrapper : k = .nullable
          · subst wrapper
            have step : unwrap g (fuel + 1) (some t) = unwrap g fuel (g.elemOf t) := by
              rw [unwrap, kind, Tells.elem]
              rfl
            have inside : g.Part t (g.elemOf t) := .inl rfl
            have same : f (some t) = f (g.elemOf t) := rules
            cases plain.looksThrough enclosed acyclic fuel (t :: passed) (g.elemOf t)
                (enclosed.part mem inside) (behind.step acyclic mem inside) (way.pass inside)
                (by simp only [List.length_cons]; omega) with
            | fails failure unwrapped found =>
                exact .fails failure (step.trans unwrapped) (same.trans found)
            | unresolved unwrapped found =>
                exact .unresolved (step.trans unwrapped) (same.trans found)
            | found u mem unwrapped bare found way =>
                exact .found u mem (step.trans unwrapped) bare (same.trans found) way
          · refine .found t mem ?_ (by simpa [kind] using wrapper) rfl way
            rw [unwrap, kind]
            exact if_neg wrapper

/-- Without cycles the walk finds what every solution of the plain equations finds: the types in
progress are on the way, and a type is not on the way to itself. -/
theorem Plain.eq_walk [g.Tells] (plain : g.Plain patterns nodes f) (enclosed : g.Enclosed nodes)
    (acyclic : g.Acyclic nodes) (distinct : g.KeysDistinct nodes) :
    ∀ (fuel : Nat) (path : List τ) (p : Option τ), InChart nodes p →
      g.OnTheWay nodes path p → g.depth < fuel + path.length →
      walk g patterns fuel (path.map g.keyOf) p = f p
  | 0, path, _, _, way, enough => by
      have := way.length_le enclosed
      omega
  | fuel + 1, path, p, charted, way, enough => by
      cases plain.looksThrough enclosed acyclic (g.depth + 1) [] p charted .start way
          (by simp) with
      | fails failure unwrapped same =>
          rw [walk, unwrapped, same]
          rfl
      | unresolved unwrapped same =>
          rw [walk, unwrapped, same]
          rfl
      | found t mem unwrapped bare same way =>
          have new := way.key_new acyclic distinct mem
          have inside (q : Option τ) (part : g.Part t q) :
              walk g patterns fuel (g.keyOf t :: path.map g.keyOf) q = f q :=
            plain.eq_walk enclosed acyclic distinct fuel (t :: path) q (enclosed.part mem part)
              (way.step acyclic mem part) (by simp only [List.length_cons]; omega)
          rw [walk_eq_rulesBy unwrapped bare, same,
            plain (some t) fun u found => Option.some.inj found ▸ mem]
          refine rulesBy_related respects_eq respects_eq (fun same => ?_) ?_ inside
          · rw [cutOff, if_neg (by simpa using new), same]
          · exact inside _ (.inl rfl)

/-- Without cycles classification is the one solution of the plain equations. -/
theorem Plain.eq_classify [g.Tells] (plain : g.Plain patterns nodes f) (enclosed : g.Enclosed nodes)
    (acyclic : g.Acyclic nodes) (distinct : g.KeysDistinct nodes) (charted : InChart nodes p) :
    f p = classify g patterns p := by
  cases p with
  | none => exact plain none charted
  | some t =>
      rw [classify_told]
      exact (plain.eq_walk enclosed acyclic distinct (g.depth + 1) [] (some t) charted .start
        (by simp)).symm

/-- Solutions of the plain equations are told apart only where nothing is listed. -/
theorem Plain.congr (plain : g.Plain patterns nodes f) (enclosed : g.Enclosed nodes)
    {f' : Option τ → Except Failure Verdict} (same : ∀ p, InChart nodes p → f' p = f p) :
    g.Plain patterns nodes f' := by
  intro p charted
  rw [same p charted, plain p charted]
  cases p with
  | none => rfl
  | some t =>
      exact rulesBy_congr fun q part => (same q (enclosed.part (charted t rfl) part)).symm

end

/-! ## The shared set -/

/-- A computation with the set of types in progress that leaves the set as it was. -/
def Quiet (visiting : List String) (α : Type) (x : ExceptT Failure (StateM (List String)) α)
    (y : Except Failure α) : Prop :=
  x.run visiting = (y, visiting)

theorem respects_quiet (visiting : List String) : Respects (Quiet visiting) where
  pure a := rfl
  bind {α β x y k l} first later := by
    change StateT.bind x.run (ExceptT.bindCont k) visiting = _
    rw [StateT.bind, first]
    cases y with
    | error failure => rfl
    | ok a => exact later a
  lift x := rfl

/-- The guard lets a type in that is not in progress, and takes it out again. -/
theorem enterShared_quiet {visiting : List String} (new : g.keyOf t ∉ visiting)
    {body : ExceptT Failure (StateM (List String)) Verdict} {body' : Except Failure Verdict}
    (quiet : Quiet (g.keyOf t :: visiting) Verdict body body') :
    Quiet visiting Verdict (g.enterShared t body) body' := by
  have entered : (g.enterShared t body).run visiting =
      ((body.run (g.keyOf t :: visiting)).1, (body.run (g.keyOf t :: visiting)).2.erase (g.keyOf t)) :=
    if_neg (by simpa using new)
  rw [Quiet, entered, quiet]
  simp

/-- Without cycles the walk with the shared set finds what plain recursion finds, under every bound,
and leaves the set as it was: each type is removed before another branch is entered. -/
theorem sharedWalk_run (enclosed : g.Enclosed nodes) (acyclic : g.Acyclic nodes)
    (distinct : g.KeysDistinct nodes) :
    ∀ (fuel : Nat) (path : List τ) (p : Option τ), InChart nodes p → g.OnTheWay nodes path p →
      (sharedWalk g patterns fuel p).run (path.map g.keyOf) =
        (plainWalk g patterns fuel p, path.map g.keyOf)
  | 0, _, _, _, _ => rfl
  | _ + 1, _, none, _, _ => rfl
  | fuel + 1, path, some t, charted, way => by
      have mem := charted t rfl
      have new := way.key_new acyclic distinct mem
      refine rulesBy_related (respects_quiet _) (respects_quiet (g.keyOf t :: path.map g.keyOf))
        (enterShared_quiet new) ?_ fun q part => ?_
      · exact sharedWalk_run enclosed acyclic distinct fuel path _ (enclosed.part mem (.inl rfl))
          (way.pass (.inl rfl))
      · exact sharedWalk_run enclosed acyclic distinct fuel (t :: path) q (enclosed.part mem part)
          (way.step acyclic mem part)

/-! ## Parts that were cut off -/

/-- No part of the verdict is a type that was met while it was in progress. -/
def Uncut (verdict : Verdict) : Prop :=
  ∀ text, .runtime text "recursive type reference" ∉ verdict.obstacles

theorem uncut_inMember (owner member : String) {verdict : Verdict} (uncut : Uncut verdict) :
    Uncut (inMember owner member verdict) := by
  unfold inMember
  split
  · simp [Uncut, Verdict.unstable, Verdict.obstacles]
  · exact uncut

theorem uncut_combine {verdicts : List Verdict} (each : ∀ v ∈ verdicts, Uncut v) :
    Uncut (.combine (verdicts.map some)) := by
  intro text listed
  have kept := Verdict.dropRepeats_subset _ listed
  simp only [Verdict.sortByText, List.mem_mergeSort, List.mem_flatMap, List.mem_map] at kept
  obtain ⟨_, ⟨v, given, rfl⟩, found⟩ := kept
  exact each v given text found

theorem partsBy_uncut {self : Option τ → Except Failure Verdict}
    (each : ∀ {p verdict}, self p = .ok verdict → Uncut verdict)
    {supertypes : List (Option τ)} {verdict : Verdict}
    (found : partsBy g self t supertypes = .ok verdict) : Uncut verdict := by
  unfold partsBy at found
  split at found
  · cases found
    simp [Uncut, Verdict.unstable, Verdict.obstacles]
  · obtain ⟨own, members, found⟩ := bind_eq_ok.1 found
    obtain ⟨inherited, above, found⟩ := bind_eq_ok.1 found
    cases found
    refine uncut_combine fun v listed => ?_
    rcases List.mem_append.1 listed with mine | theirs
    · obtain ⟨m, -, named⟩ := exists_of_forall₂ (mapM_eq_ok_iff.1 members).flip mine
      obtain ⟨verdict, found, same⟩ := bind_eq_ok.1 named
      exact Except.ok.inj same ▸ uncut_inMember _ _ (each found)
    · obtain ⟨p, -, found⟩ := exists_of_forall₂ (mapM_eq_ok_iff.1 above).flip theirs
      exact each found

/-- The rules by themselves cut nothing off. -/
theorem rulesBy_uncut {self : Option τ → Except Failure Verdict}
    (each : ∀ {p verdict}, self p = .ok verdict → Uncut verdict) {verdict : Verdict}
    (found : rulesBy g patterns (fun _ body => body) self p = .ok verdict) : Uncut verdict := by
  have obstacle {o : Stability.Obstacle}
      (other : ∀ text, o ≠ .runtime text "recursive type reference") : Uncut (.obstacle o) :=
    fun text listed => other text (List.mem_singleton.1 listed).symm
  have stable (reason : String) : Uncut (.stable reason) := fun _ => List.not_mem_nil
  cases p with
  | none =>
      cases found
      exact obstacle (by simp)
  | some t =>
      obtain ⟨kind, -, found⟩ := bind_eq_ok.1 found
      split at found
      · exact each found
      · cases found; exact obstacle (by simp)
      · cases found; exact stable _
      split at found
      · cases found; exact stable _
      obtain ⟨declared, -, found⟩ := bind_eq_ok.1 found
      split at found
      · cases found; exact stable _
      split at found
      · cases found; exact stable _
      split at found
      · cases found; exact obstacle (by simp)
      split at found
      · cases found; exact stable _
      · cases found; exact stable _
      · cases found; exact obstacle (by simp)
      · cases found; exact stable _
      · exact each found
      obtain ⟨markers, -, found⟩ := bind_eq_ok.1 found
      split at found
      · exact partsBy_uncut each found
      split at found
      · exact partsBy_uncut each found
      · split at found
        · cases found; exact obstacle (by simp)
        · cases found; exact obstacle (by simp)
      · cases found; exact obstacle (by simp)

theorem plainWalk_uncut {fuel : Nat} {verdict : Verdict}
    (found : plainWalk g patterns fuel p = .ok verdict) : Uncut verdict := by
  induction fuel generalizing p verdict with
  | zero => cases found
  | succ fuel ih => exact rulesBy_uncut ih found

/-! ## Tables -/

/-- A graph whose types can be ranked above everything they contain has no cycles. -/
theorem acyclic_of_rank (enclosed : g.Enclosed nodes) (rank : τ → Nat)
    (falls : ∀ t ∈ nodes, ∀ u, g.Contains t u → rank u < rank t) : g.Acyclic nodes := by
  have below : ∀ t ∈ nodes, ∀ u, TransGen g.Contains t u → u ∈ nodes ∧ rank u < rank t := by
    intro t mem u way
    induction way with
    | single step => exact ⟨enclosed.contained_mem t mem _ step, falls t mem _ step⟩
    | tail _ step ih =>
        exact ⟨enclosed.contained_mem _ ih.1 _ step, Nat.lt_trans (falls _ ih.1 _ step) ih.2⟩
  intro t mem cycle
  exact Nat.lt_irrefl _ (below t mem t cycle).2

namespace Table

theorem enclosed (table : Table) : table.graph.Enclosed table.nodes where
  contained_mem n mem u contains := by
    rcases contains with wrapped | ⟨m, owned, type⟩ | above
    · exact mem_nodes_of_resolve wrapped
    · obtain ⟨p, -, rfl⟩ := List.mem_map.1 owned
      exact mem_nodes_of_resolve type
    · obtain ⟨id, -, found⟩ := List.mem_map.1 above
      exact mem_nodes_of_resolve found
  length_le := List.length_filterMap_le _ _

/-- Where nothing contains itself, wrappers end. -/
theorem wrappersEnd_of_acyclic {table : Table} (acyclic : table.graph.Acyclic table.nodes) :
    table.graph.WrappersEnd := by
  intro t cycle
  obtain ⟨s, -, last⟩ := TransGen.tail'_iff.1 cycle
  exact acyclic t (mem_nodes_of_resolve last.2)
    (TransGen.mono (fun _ _ step => Or.inl step.2) _ _ cycle)

/-- In a table where no type contains itself and types have keys of their own, classification is
plain recursion, failures included: it is the one solution of the plain equations, and what plain
recursion under any bound larger than the table gives.  The walk with the one shared set of types in
progress gives the same and leaves the set empty.  So no part of a verdict is cut off, and a verdict
there is, if all types answer. -/
theorem classify_eq_plainWalk (table : Table) (patterns : List Pattern)
    (distinct : table.graph.KeysDistinct table.nodes)
    (acyclic : table.graph.Acyclic table.nodes) :
    (∀ f, table.graph.Plain patterns table.nodes f ↔
      ∀ p, InChart table.nodes p → f p = classify table.graph patterns p) ∧
    ∀ id,
      (∀ fuel, table.entries.length < fuel →
        plainWalk table.graph patterns fuel (table.resolve id) =
            classify table.graph patterns (table.resolve id) ∧
          (sharedWalk table.graph patterns fuel (table.resolve id)).run [] =
            (classify table.graph patterns (table.resolve id), [])) ∧
      (∀ verdict, classify table.graph patterns (table.resolve id) = .ok verdict →
        Uncut verdict) ∧
      ((∀ n ∈ table.nodes, n.refusal = none) →
        ∃ verdict, classify table.graph patterns (table.resolve id) = .ok verdict) := by
  have enclosed := table.enclosed
  have charted (id : Option String) : InChart table.nodes (table.resolve id) :=
    fun n found => mem_nodes_of_resolve found
  have plain (fuel : Nat) (enough : table.entries.length < fuel) :
      table.graph.Plain patterns table.nodes (plainWalk table.graph patterns fuel) :=
    plain_plainWalk enclosed acyclic enough
  have same (fuel : Nat) (enough : table.entries.length < fuel) {p : Option Node}
      (known : InChart table.nodes p) :
      plainWalk table.graph patterns fuel p = classify table.graph patterns p :=
    (plain fuel enough).eq_classify enclosed acyclic distinct known
  refine ⟨fun f => ⟨fun solves p known => ?_, fun agrees => ?_⟩, fun id => ⟨?_, ?_, ?_⟩⟩
  · exact solves.eq_classify enclosed acyclic distinct known
  · refine (plain _ (Nat.lt_succ_self _)).congr enclosed fun p known => ?_
    rw [agrees p known, same _ (Nat.lt_succ_self _) known]
  · intro fuel enough
    refine ⟨same fuel enough (charted id), ?_⟩
    rw [← same fuel enough (charted id)]
    exact sharedWalk_run enclosed acyclic distinct fuel [] _ (charted id) .start
  · intro verdict found
    rw [← same _ (Nat.lt_succ_self _) (charted id)] at found
    exact plainWalk_uncut found
  · intro answers
    obtain ⟨-, verdict, -, found, -⟩ := classify_answers (table.charted answers) distinct
      (wrappersEnd_of_acyclic acyclic) (charted id)
    exact ⟨verdict, found⟩

/-- A page whose foot may have the style that its head has, which depends on a theme. -/
def diamond : Table where
  entries :=
    [("page", ⟨.composite, "ui.Page", "ui.Page", "ui.Page", none, Flags.empty,
        [⟨"head", false, some "head"⟩, ⟨"foot", false, some "foot"⟩], [], none⟩),
     ("head", ⟨.composite, "ui.Head", "ui.Head", "ui.Head", none, Flags.empty,
        [⟨"style", false, some "style"⟩], [], none⟩),
     ("foot", ⟨.nullable, "*ui.Style", "*ui.Style", "", some "style", Flags.empty, [], [], none⟩),
     ("style", ⟨.composite, "ui.Style", "ui.Style", "ui.Style", none, Flags.empty,
        [⟨"theme", false, some "theme"⟩], [], none⟩),
     ("theme", ⟨.interface, "ui.Theme", "ui.Theme", "ui.Theme", none, Flags.empty, [], [], none⟩)]

/-- How far a type of the diamond is above the theme. -/
def diamondRank (n : Node) : Nat :=
  (["ui.Theme", "ui.Style", "*ui.Style", "ui.Head", "ui.Page"].idxOf n.key)

theorem diamond_plain :
    diamond.graph.KeysDistinct diamond.nodes ∧ diamond.graph.Acyclic diamond.nodes ∧
      ∃ verdict, classify diamond.graph [] (diamond.resolve (some "page")) = .ok verdict ∧
        plainWalk diamond.graph [] 6 (diamond.resolve (some "page")) = .ok verdict ∧
        Uncut verdict := by
  have distinct : diamond.graph.KeysDistinct diamond.nodes := keysDistinct_of_nodup (by decide)
  have acyclic : diamond.graph.Acyclic diamond.nodes := by
    refine acyclic_of_rank diamond.enclosed diamondRank fun t mem u contains => ?_
    have falls : ∀ n ∈ diamond.nodes, ∀ p ∈ diamond.graph.elemOf n ::
        ((diamond.graph.membersOf n).map (·.type) ++ diamond.graph.supertypesOf n), ∀ u ∈ p,
        diamondRank u < diamondRank n := by decide
    refine falls t mem (some u) ?_ u rfl
    rcases contains with wrapped | ⟨m, owned, type⟩ | above
    · simp [wrapped]
    · simpa using .inr (.inl ⟨m, owned, type⟩)
    · simp [above]
  obtain ⟨agrees, uncut, returns⟩ := (classify_eq_plainWalk diamond [] distinct acyclic).2
    (some "page")
  obtain ⟨verdict, found⟩ := returns (by decide)
  exact ⟨distinct, acyclic, verdict, found, (agrees 6 (by decide)).1.trans found,
    uncut verdict found⟩

end Table

end ComposeStability.TypeGraph
