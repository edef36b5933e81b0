/-
# Proofs.Session.Discovery -- the packages that a key covers, in order

The visit for the key of a package goes depth first through the imports and
enters each package once.  `discover` is the order in which it does, without the
files.  The bound on the depth is never met, so that what is found is the package
and everything that it imports, directly or not (`mem_discover_iff`).  The items
of a key are those of the packages in this order (`keyItems_eq`), and nothing
but the shape of the packages matters to it (`keyItems_shape`).
-/
import ComposeStability.Proofs.Outcome
import ComposeStability.Proofs.Text.SortedNames
import ComposeStability.Session.Packages
import Mathlib.Data.Finset.Card
import Mathlib.Data.List.Basic
import Mathlib.Logic.Relation

namespace ComposeStability.Session

set_option autoImplicit false

open Program (Package Packages)
open Relation (ReflTransGen)

/-! ## Imports -/

/-- A package imports another directly. -/
def Requires (ps : Packages) (p q : Package) : Prop :=
  ∃ path ∈ p.imports, ps.find? path = some q

/-- A package is another, or is imported by it, directly or not. -/
def Covers (ps : Packages) (p q : Package) : Prop := ReflTransGen (Requires ps) p q

section
variable {ps : Packages}

theorem mem_importsOf {p q : Package} : q ∈ importsOf ps p ↔ Requires ps p q := by
  simp only [importsOf, List.mem_filterMap, Text.mem_eraseReps, List.mem_mergeSort, Requires]

theorem mem_of_requires {p q : Package} (required : Requires ps p q) : q ∈ ps := by
  obtain ⟨path, -, found⟩ := required
  exact List.mem_of_find?_eq_some found

/-! ## The order of a visit -/

/-- The names of the packages found so far. -/
def ids (found : List Package) : List String := found.map (·.id)

/-- The packages found, with those that a visit of `p` finds behind them. -/
def discover (ps : Packages) : Nat → List Package → Package → List Package
  | 0, found, _ => found
  | fuel + 1, found, p =>
      if (ids found).contains p.id then found
      else (importsOf ps p).foldl (discover ps fuel) (found ++ [p])

/-- Nothing is found but what the visited package covers. -/
theorem discover_covered {fuel : Nat} {found : List Package} {p q : Package}
    (member : q ∈ discover ps fuel found p) : q ∈ found ∨ Covers ps p q := by
  induction fuel generalizing found p q with
  | zero => exact .inl member
  | succ fuel ih =>
      rw [discover] at member
      split at member
      · exact .inl member
      · have inside : ∀ r ∈ (importsOf ps p).foldl (discover ps fuel) (found ++ [p]),
            r ∈ found ∨ Covers ps p r := by
          refine List.foldlRecOn (motive := fun acc => ∀ r ∈ acc, r ∈ found ∨ Covers ps p r)
            _ _ (fun r listed => ?_) (fun acc held next required r listed => ?_)
          · rcases List.mem_append.1 listed with old | new
            · exact .inl old
            · exact .inr (List.mem_singleton.1 new ▸ .refl)
          · rcases ih listed with old | covered
            · exact held r old
            · exact .inr (.head (mem_importsOf.1 required) covered)
        exact inside q member

/-! ## Everything is found -/

/-- From `before` to `after`, packages were added together with all that they import. -/
structure Explored (ps : Packages) (before after : List Package) : Prop where
  grows : before <+: after
  closed : ∀ q ∈ after, q ∈ before ∨ ∀ r, Requires ps q r → r.id ∈ ids after

theorem ids_grow {before after : List Package} (grows : before <+: after) :
    ids before ⊆ ids after :=
  (grows.map _).subset

theorem Explored.refl (found : List Package) : Explored ps found found :=
  ⟨List.prefix_refl _, fun _ member => .inl member⟩

theorem Explored.trans {before between after : List Package} (first : Explored ps before between)
    (later : Explored ps between after) : Explored ps before after := by
  refine ⟨first.grows.trans later.grows, fun q member => ?_⟩
  rcases later.closed q member with earlier | closed
  · rcases first.closed q earlier with old | closed
    · exact .inl old
    · exact .inr fun r required => ids_grow later.grows (closed r required)
  · exact .inr closed

/-- The number of names that are not found yet. -/
def idsLeft (nodes found : List Package) : Nat :=
  ((ids nodes).toFinset \ (ids found).toFinset).card

theorem idsLeft_anti {nodes before after : List Package} (grows : before <+: after) :
    idsLeft nodes after ≤ idsLeft nodes before := by
  refine Finset.card_le_card (Finset.sdiff_subset_sdiff (Finset.Subset.refl _) fun id listed => ?_)
  exact List.mem_toFinset.2 (ids_grow grows (List.mem_toFinset.1 listed))

theorem idsLeft_snoc_lt {nodes found : List Package} {p : Package} (mem : p ∈ nodes)
    (new : p.id ∉ ids found) : idsLeft nodes (found ++ [p]) < idsLeft nodes found := by
  have listed : p.id ∈ ids nodes := List.mem_map_of_mem mem
  refine Finset.card_lt_card (Finset.ssubset_iff_of_subset ?_ |>.2 ⟨p.id, ?_, ?_⟩)
  · refine Finset.sdiff_subset_sdiff (Finset.Subset.refl _) fun id old => ?_
    exact List.mem_toFinset.2 (ids_grow (List.prefix_append _ _) (List.mem_toFinset.1 old))
  · simp [listed, new]
  · simp [ids]

/-- A fold of visits explores what each of them does. -/
theorem foldl_explored {visit : List Package → Package → List Package} {packages : List Package}
    {found : List Package}
    (each : ∀ acc, found <+: acc → ∀ r ∈ packages,
      Explored ps acc (visit acc r) ∧ r.id ∈ ids (visit acc r)) :
    Explored ps found (packages.foldl visit found) ∧
      ∀ r ∈ packages, r.id ∈ ids (packages.foldl visit found) := by
  induction packages generalizing found with
  | nil => exact ⟨.refl _, by simp⟩
  | cons p packages ih =>
      obtain ⟨here, listed⟩ := each found (List.prefix_refl _) p List.mem_cons_self
      obtain ⟨later, others⟩ := ih fun acc grows r member =>
        each acc (here.grows.trans grows) r (List.mem_cons_of_mem p member)
      refine ⟨here.trans later, fun r member => ?_⟩
      rcases List.mem_cons.1 member with rfl | member
      · exact ids_grow later.grows listed
      · exact others r member

/-- With more steps than names are left, a visit finds the package and explores what it adds. -/
theorem discover_explored {nodes : List Package} (closed : ∀ q ∈ ps, q ∈ nodes) {fuel : Nat}
    {found : List Package} {p : Package} (mem : p ∈ nodes) (enough : idsLeft nodes found < fuel) :
    Explored ps found (discover ps fuel found p) ∧ p.id ∈ ids (discover ps fuel found p) := by
  induction fuel generalizing found p with
  | zero => omega
  | succ fuel ih =>
      rw [discover]
      split
      · next old => exact ⟨.refl _, by simpa using old⟩
      · next new =>
        have fewer := idsLeft_snoc_lt mem (by simpa using new)
        have left : idsLeft nodes (found ++ [p]) < fuel := by omega
        obtain ⟨later, required⟩ := foldl_explored fun acc grows r member =>
          ih (closed r (mem_of_requires (mem_importsOf.1 member)))
            (Nat.lt_of_le_of_lt (idsLeft_anti grows) left)
        refine ⟨⟨(List.prefix_append _ _).trans later.grows, fun q listed => ?_⟩, ?_⟩
        · rcases later.closed q listed with earlier | closed
          · rcases List.mem_append.1 earlier with old | same
            · exact .inl old
            · obtain rfl := List.mem_singleton.1 same
              exact .inr fun r requires => required r (mem_importsOf.2 requires)
          · exact .inr closed
        · exact ids_grow later.grows (by simp [ids])

/-- The packages that a key covers, in the order of the visit. -/
def order (ps : Packages) (p : Package) : List Package := discover ps (ps.length + 2) [] p

/-- What is found is the package and everything it imports, directly or not. -/
theorem mem_order_iff {p : Package}
    (distinct : ∀ q r, Covers ps p q → Covers ps p r → q.id = r.id → q = r) {q : Package} :
    q ∈ order ps p ↔ Covers ps p q := by
  have covered {r : Package} (member : r ∈ order ps p) : Covers ps p r := by
    rcases discover_covered member with old | covered
    · cases old
    · exact covered
  refine ⟨covered, fun way => ?_⟩
  have few : idsLeft (p :: ps) [] < ps.length + 2 := by
    have bound : idsLeft (p :: ps) [] ≤ (ids (p :: ps)).length :=
      (Finset.card_le_card Finset.sdiff_subset).trans (List.toFinset_card_le _)
    rw [ids, List.length_map, List.length_cons] at bound
    omega
  have closed : ∀ q ∈ ps, q ∈ p :: ps := fun _ member => List.mem_cons_of_mem p member
  obtain ⟨explored, start⟩ := discover_explored closed List.mem_cons_self few
  have found {r : Package} (reached : Covers ps p r) (listed : r.id ∈ ids (order ps p)) :
      r ∈ order ps p := by
    obtain ⟨r', member, same⟩ := List.mem_map.1 listed
    exact distinct r' r (covered member) reached same ▸ member
  induction way with
  | refl => exact found .refl start
  | tail way required ih =>
      rcases explored.closed _ ih with old | closed
      · cases old
      · exact found (way.tail required) (closed _ required)

/-! ## The items of a key -/

/-- The content of a file that can be read. -/
def contentOf (files : FileSystem) (path : String) : List UInt8 :=
  (files.read path).toOption.getD []

/-- What a key says of packages: their names, and their files. -/
def itemsOf (content : String → List UInt8) (packages : List Package) : List Cache.Item :=
  packages.flatMap fun q => .text q.id :: q.sources.map fun path => .file path (content path)

/-- All files of the packages that are covered can be read. -/
def AllReadable (ps : Packages) (files : FileSystem) (p : Package) : Prop :=
  ∀ q, Covers ps p q → ∀ path ∈ q.sources, ∃ content, files.read path = .ok content

theorem readItems_eq {files : FileSystem} {paths : List String}
    (readable : ∀ path ∈ paths, ∃ content, files.read path = .ok content) :
    readItems files paths = .ok (paths.map fun path => .file path (contentOf files path)) := by
  have each : ∀ path ∈ paths, (files.read path).map (Cache.Item.file path) =
      .ok (.file path (contentOf files path)) := by
    intro path listed
    obtain ⟨content, read⟩ := readable path listed
    rw [contentOf, read]
    rfl
  exact mapM_eq_ok_iff.2 (List.forall₂_map_right_iff.2 (List.forall₂_same.2 each))

/-- A visit enters the packages in their order, and adds their items. -/
theorem visit_eq {files : FileSystem} (fuel : Nat) (found : List Package) {p : Package}
    (readable : AllReadable ps files p) :
    visit ps files fuel ((ids found).reverse, itemsOf (contentOf files) found) p =
      .ok ((ids (discover ps fuel found p)).reverse,
        itemsOf (contentOf files) (discover ps fuel found p)) := by
  induction fuel generalizing found p with
  | zero => rfl
  | succ fuel ih =>
      rw [visit, discover, List.contains_reverse]
      split
      · rfl
      · have folded : ∀ packages : List Package, (∀ r ∈ packages, Requires ps p r) → ∀ acc,
            packages.foldlM (visit ps files fuel)
              ((ids acc).reverse, itemsOf (contentOf files) acc) =
            .ok ((ids (packages.foldl (discover ps fuel) acc)).reverse,
              itemsOf (contentOf files) (packages.foldl (discover ps fuel) acc)) := by
          intro packages required acc
          induction packages generalizing acc with
          | nil => rfl
          | cons r packages further =>
              obtain ⟨here, later⟩ := List.forall_mem_cons.1 required
              have reads : AllReadable ps files r := fun q covered => readable q (.head here covered)
              rw [List.foldlM_cons, ih _ reads]
              exact further later _
        refine bind_eq_ok.2 ⟨_, readItems_eq (readable p .refl), ?_⟩
        have start := folded (importsOf ps p) (fun r => mem_importsOf.1) (found ++ [p])
        simpa [ids, itemsOf] using start

/-- The items of a key are those of the packages it covers, after the toolchain and the options. -/
theorem keyItems_eq (o : Options) {files : FileSystem} {p : Package}
    (readable : AllReadable ps files p) :
    keyItems o ps files p = .ok (.text toolchain :: .text o.fingerprint ::
      itemsOf (contentOf files) (order ps p)) := by
  have visited := visit_eq (ps.length + 2) [] readable
  exact bind_eq_ok.2 ⟨_, visited, rfl⟩

end

/-! ## Shapes -/

/-- What of a package a key depends on: how it is named, what it imports, and its files. -/
def shape (p : Package) : Package where
  path := p.path
  name := ""
  imports := p.imports
  id := p.id
  sources := p.sources

theorem importsOf_shape (ps : Packages) (p : Package) :
    importsOf (ps.map shape) (shape p) = (importsOf ps p).map shape := by
  have found (path : String) :
      Packages.find? (ps.map shape) path = (ps.find? path).map shape := List.find?_map
  simp only [importsOf, List.map_filterMap, funext found]
  rfl

theorem visit_shape (ps : Packages) (files : FileSystem) (fuel : Nat)
    (acc : List String × List Cache.Item) (p : Package) :
    visit (ps.map shape) files fuel acc (shape p) = visit ps files fuel acc p := by
  induction fuel generalizing acc p with
  | zero => rfl
  | succ fuel ih =>
      rw [visit, visit, importsOf_shape]
      simp only [List.foldlM_map, ih]
      rfl

theorem keyItems_shape (o : Options) (ps : Packages) (files : FileSystem) (p : Package) :
    keyItems o (ps.map shape) files (shape p) = keyItems o ps files p := by
  rw [keyItems, keyItems, visit_shape, List.length_map]

end ComposeStability.Session
