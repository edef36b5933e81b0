/-
# Proofs.Session.Keys -- what the key of a package covers

When something changes only below a directory that was empty, the items of a key
stay the same (`keyItems_beside`).  They name the package before anything that
depends on it (`keyItems_names`), so the keys of different packages are made
from different bytes (`stream_tells`).
-/
import ComposeStability.Session.Packages
import ComposeStability.Proofs.Cache.Key
import ComposeStability.Proofs.Outcome

namespace ComposeStability

set_option autoImplicit false

open FileSystem (Place)

/-! ## Items -/

namespace Session

open Program (Package Packages)

section
variable {place : Place} {fs fs' : FileSystem} {ps : Packages}

theorem readItems_beside (beside : FileSystem.Beside place fs fs') (vacant : fs.Vacant place)
    {paths : List String} {items : List Cache.Item} (read : readItems fs paths = .ok items) :
    readItems fs' paths = .ok items := by
  unfold readItems at read ⊢
  induction paths generalizing items with
  | nil => exact read
  | cons path paths ih =>
      rw [List.mapM_cons] at read ⊢
      obtain ⟨item, first, read⟩ := bind_eq_ok.1 read
      obtain ⟨others, rest, read⟩ := bind_eq_ok.1 read
      refine bind_eq_ok.2 ⟨item, ?_, bind_eq_ok.2 ⟨others, ih rest, read⟩⟩
      cases content : fs.read path with
      | error failure => simp [content, Except.map] at first
      | ok bytes =>
          rw [content] at first
          rw [beside.read_kept vacant content]
          exact first

/-- Folds of the same visits end in the same way. -/
theorem foldlM_beside {step step' : List String × List Cache.Item → Package →
      Except FileSystem.Failure (List String × List Cache.Item)}
    (does : ∀ {acc after p}, step acc p = .ok after → step' acc p = .ok after)
    {packages : List Package} {acc after : List String × List Cache.Item}
    (folded : packages.foldlM step acc = .ok after) : packages.foldlM step' acc = .ok after := by
  induction packages generalizing acc with
  | nil => exact folded
  | cons p packages ih =>
      rw [List.foldlM_cons] at folded ⊢
      obtain ⟨next, stepped, folded⟩ := bind_eq_ok.1 folded
      exact bind_eq_ok.2 ⟨next, does stepped, ih folded⟩

theorem visit_beside (beside : FileSystem.Beside place fs fs') (vacant : fs.Vacant place)
    {fuel : Nat} {acc after : List String × List Cache.Item} {p : Package}
    (visited : visit ps fs fuel acc p = .ok after) : visit ps fs' fuel acc p = .ok after := by
  induction fuel generalizing acc after p with
  | zero => exact visited
  | succ fuel ih =>
      unfold visit at visited ⊢
      split at visited
      · rw [if_pos ‹_›]
        exact visited
      · rw [if_neg ‹_›]
        obtain ⟨own, read, visited⟩ := bind_eq_ok.1 visited
        exact bind_eq_ok.2 ⟨own, readItems_beside beside vacant read, foldlM_beside ih visited⟩

/-- The key of a package stays the same. -/
theorem keyItems_beside (beside : FileSystem.Beside place fs fs') (vacant : fs.Vacant place)
    {o : Options} {p : Package} {items : List Cache.Item}
    (gathered : keyItems o ps fs p = .ok items) : keyItems o ps fs' p = .ok items := by
  obtain ⟨all, visited, gathered⟩ := bind_eq_ok.1 gathered
  exact bind_eq_ok.2 ⟨all, visit_beside beside vacant visited, gathered⟩

theorem foldlM_extends {step : List String × List Cache.Item → Package →
      Except FileSystem.Failure (List String × List Cache.Item)}
    (grows : ∀ {acc after p}, step acc p = .ok after → acc.2 <+: after.2)
    {packages : List Package} {acc after : List String × List Cache.Item}
    (folded : packages.foldlM step acc = .ok after) : acc.2 <+: after.2 := by
  induction packages generalizing acc with
  | nil =>
      obtain rfl : acc = after := Except.ok.inj folded
      exact List.prefix_refl _
  | cons p packages ih =>
      rw [List.foldlM_cons] at folded
      obtain ⟨next, stepped, folded⟩ := bind_eq_ok.1 folded
      exact (grows stepped).trans (ih folded)

/-- Visiting adds items after those there are. -/
theorem visit_extends {fuel : Nat} {acc after : List String × List Cache.Item} {p : Package}
    (visited : visit ps fs fuel acc p = .ok after) : acc.2 <+: after.2 := by
  induction fuel generalizing acc after p with
  | zero =>
      obtain rfl : acc = after := by simpa [visit] using visited
      exact List.prefix_refl _
  | succ fuel ih =>
      unfold visit at visited
      split at visited
      · obtain rfl := Except.ok.inj visited
        exact List.prefix_refl _
      · obtain ⟨own, -, visited⟩ := bind_eq_ok.1 visited
        exact (List.prefix_append _ _).trans (foldlM_extends ih visited)

/-- The items of a key name the package after the toolchain and the options. -/
theorem keyItems_names {o : Options} {p : Package} {items : List Cache.Item}
    (gathered : keyItems o ps fs p = .ok items) :
    ∃ rest, items = [.text toolchain, .text o.fingerprint] ++ .text p.id :: rest := by
  obtain ⟨⟨seen, all⟩, visited, gathered⟩ := bind_eq_ok.1 gathered
  obtain rfl : .text toolchain :: .text o.fingerprint :: all = items := Except.ok.inj gathered
  unfold visit at visited
  rw [if_neg (by simp)] at visited
  obtain ⟨own, -, visited⟩ := bind_eq_ok.1 visited
  obtain ⟨rest, rfl⟩ := foldlM_extends visit_extends visited
  exact ⟨own ++ rest, by simp⟩

/-- Packages with different names have keys that are made from different bytes. -/
theorem stream_tells {o : Options} {p q : Package} {items items' : List Cache.Item}
    (gathered : keyItems o ps fs p = .ok items) (gathered' : keyItems o ps fs q = .ok items')
    (short : p.id.utf8ByteSize < 2 ^ 64) (short' : q.id.utf8ByteSize < 2 ^ 64)
    (same : Cache.stream items = Cache.stream items') : p.id = q.id := by
  obtain ⟨rest, rfl⟩ := keyItems_names gathered
  obtain ⟨rest', rfl⟩ := keyItems_names gathered'
  exact Cache.stream_text_inj short short' same

end

end Session

end ComposeStability
