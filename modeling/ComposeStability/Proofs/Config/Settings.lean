/-
# Proofs.Config.Settings -- what a configuration file says

Settings are independent parts of a configuration (`settings_apart`).  So a
configuration has, for each setting, the value of a key that names it, or the
default if there is no such key (`Describes`).  `Reading` says what comes of a
configuration file, whatever it is read with: a configuration that its document
describes, or the first thing that is wrong with it.
-/
import ComposeStability.Config.Load
import Mathlib.Data.List.Pairwise

namespace ComposeStability.Config

set_option autoImplicit false

/-! ## Settings -/

/-- Giving a value to one of two settings leaves the other as it is. -/
def Setting.Apart (s s' : Setting) : Prop :=
  (∀ v c, s.get (s'.set v c) = s.get c) ∧ ∀ v c, s'.get (s.set v c) = s'.get c

instance : Std.Symm Setting.Apart := ⟨fun _ _ apart => ⟨apart.2, apart.1⟩⟩

theorem settings_apart {s s' : Setting} (listed : s ∈ settings) (listed' : s' ∈ settings)
    (differ : s ≠ s') : s.Apart s' := by
  have pairwise : settings.Pairwise Setting.Apart := by simp [settings, Setting.Apart]
  exact pairwise.forall listed listed' differ

theorem get_set {s : Setting} (listed : s ∈ settings) (v : s.α) (c : Config) :
    s.get (s.set v c) = v := by
  have all : ∀ s ∈ settings, ∀ v c, s.get (s.set v c) = v := by simp [settings]
  exact all s listed v c

theorem mem_of_setting? {key : String} {s : Setting} (named : setting? key = some s) :
    s ∈ settings := by
  rw [setting?, Option.orElse_eq_or, Option.or_eq_some_iff] at named
  rcases named with exact | ⟨-, folded⟩
  · exact List.mem_of_find?_eq_some exact
  · exact List.mem_of_find?_eq_some folded

/-! ## Documents -/

section
variable {d : Toml.Document} {c : Config}

/-- A configuration has the values that the keys of a document give to settings, and the default of
each setting that no key names.  Of several keys for one setting, one is taken. -/
def Describes (d : Toml.Document) (c : Config) : Prop :=
  ∀ s ∈ settings,
    (∃ entry ∈ d.root, setting? entry.1 = some s ∧ s.read entry.2 = some (s.get c)) ∨
      (∀ entry ∈ d.root, setting? entry.1 ≠ some s) ∧ s.get c = s.get default

/-- A key that names a setting has a value of another type. -/
def Mistyped (d : Toml.Document) : Prop :=
  ∃ entry ∈ d.root, ∃ s, setting? entry.1 = some s ∧ s.read entry.2 = none

/-- The configuration with one more key of a document. -/
def take (c : Config) (entry : String × Toml.Node) : Option Config :=
  match setting? entry.1 with
  | none => some c
  | some s => s.apply entry.2 c

theorem ofDocument_eq (d : Toml.Document) : ofDocument d = d.root.foldlM take default := rfl

/-- One key gives a value to the setting that it names, and leaves the others. -/
theorem take_spec {entry : String × Toml.Node} {c c' : Config} (taken : take c entry = some c') :
    ∀ s ∈ settings, (setting? entry.1 = some s → s.read entry.2 = some (s.get c')) ∧
      (setting? entry.1 ≠ some s → s.get c' = s.get c) := by
  rw [take] at taken
  split at taken
  · next unnamed =>
    obtain rfl := Option.some.inj taken
    exact fun s _ => ⟨fun named => by simp [unnamed] at named, fun _ => rfl⟩
  · next s named =>
    obtain ⟨v, read, rfl⟩ := Option.map_eq_some_iff.1 taken
    have listed := mem_of_setting? named
    refine fun other listed' => ⟨fun same => ?_, fun differ => ?_⟩
    · obtain rfl : s = other := Option.some.inj (named.symm.trans same)
      rw [get_set listed, read]
    · exact (settings_apart listed' listed fun same => differ (same ▸ named)).1 v c

theorem foldlM_take {entries : List (String × Toml.Node)} {c c' : Config}
    (taken : entries.foldlM take c = some c') :
    ∀ s ∈ settings,
      (∃ entry ∈ entries, setting? entry.1 = some s ∧ s.read entry.2 = some (s.get c')) ∨
        (∀ entry ∈ entries, setting? entry.1 ≠ some s) ∧ s.get c' = s.get c := by
  induction entries generalizing c with
  | nil =>
      obtain rfl := Option.some.inj taken
      exact fun s _ => .inr ⟨nofun, rfl⟩
  | cons entry entries ih =>
      rw [List.foldlM_cons, Option.bind_eq_bind, Option.bind_eq_some_iff] at taken
      obtain ⟨middle, first, later⟩ := taken
      intro s listed
      obtain ⟨own, other⟩ := take_spec first s listed
      rcases ih later s listed with ⟨given, member, named, read⟩ | ⟨unnamed, same⟩
      · exact .inl ⟨given, List.mem_cons_of_mem _ member, named, read⟩
      · by_cases named : setting? entry.1 = some s
        · exact .inl ⟨entry, List.mem_cons_self, named, same ▸ own named⟩
        · exact .inr ⟨List.forall_mem_cons.2 ⟨named, unnamed⟩, same.trans (other named)⟩

/-- What is read from a document is described by it. -/
theorem ofDocument_describes (read : ofDocument d = some c) : Describes d c := by
  rw [ofDocument_eq] at read
  exact foldlM_take read

/-- Where a configuration is from is no setting. -/
theorem Describes.from (described : Describes d c) (path : String) :
    Describes d { c with path } := by
  have kept : ∀ s ∈ settings, s.get { c with path } = s.get c := by simp [settings]
  intro s listed
  rw [kept s listed]
  exact described s listed

theorem foldlM_take_eq_none_iff {entries : List (String × Toml.Node)} {c : Config} :
    entries.foldlM take c = none ↔
      ∃ entry ∈ entries, ∃ s, setting? entry.1 = some s ∧ s.read entry.2 = none := by
  have refused (c : Config) (entry : String × Toml.Node) :
      take c entry = none ↔ ∃ s, setting? entry.1 = some s ∧ s.read entry.2 = none := by
    rw [take]
    cases setting? entry.1 <;> simp [Setting.apply]
  induction entries generalizing c with
  | nil => simp
  | cons entry entries ih =>
      simp only [List.foldlM_cons, List.mem_cons, exists_eq_or_imp]
      rw [← refused c entry]
      cases take c entry with
      | none => simp
      | some middle => simpa using ih

/-- A document is refused exactly if it gives a setting a value of another type. -/
theorem ofDocument_eq_none_iff : ofDocument d = none ↔ Mistyped d :=
  foldlM_take_eq_none_iff

end

/-! ## Files -/

/-- What comes of a configuration file. -/
inductive Reading (reader : Reader) (fs : FileSystem) (path : String) :
    Except LoadError Config → Prop where
  | unreadable {cause : FileSystem.Failure} (refused : fs.read path = .error cause) :
      Reading reader fs path (.error (.unreadable path cause))
  | noDocument {bytes : List UInt8} (content : fs.read path = .ok bytes)
      (none_read : reader bytes = none) : Reading reader fs path (.error (.malformed path))
  | mistyped {bytes : List UInt8} {d : Toml.Document} (content : fs.read path = .ok bytes)
      (document : reader bytes = some d) (wrong : Mistyped d) :
      Reading reader fs path (.error (.malformed path))
  /-- All keys that name no setting are told. -/
  | unknownKeys {bytes : List UInt8} {d : Toml.Document} (content : fs.read path = .ok bytes)
      (document : reader bytes = some d) (typed : ¬ Mistyped d)
      (unknown : ∃ key ∈ d.keys, isKnown key = false) :
      Reading reader fs path (.error (.unknownKeys path (d.keys.filter (!isKnown ·))))
  | negativeJobs {bytes : List UInt8} {d : Toml.Document} {c : Config}
      (content : fs.read path = .ok bytes) (document : reader bytes = some d)
      (known : ∀ key ∈ d.keys, isKnown key = true) (described : Describes d c)
      (negative : c.jobs < 0) : Reading reader fs path (.error (.negativeJobs path))
  /-- Otherwise there is a configuration, which remembers its file. -/
  | config {bytes : List UInt8} {d : Toml.Document} {c : Config}
      (content : fs.read path = .ok bytes) (document : reader bytes = some d)
      (known : ∀ key ∈ d.keys, isKnown key = true) (described : Describes d c)
      (jobs : 0 ≤ c.jobs) (remembered : c.path = path) : Reading reader fs path (.ok c)

theorem load_reading (reader : Reader) (fs : FileSystem) (path : String) :
    Reading reader fs path (load reader fs path) := by
  rw [load]
  split
  · next cause refused => exact .unreadable refused
  · next bytes content =>
    rw [ofBytes]
    split
    · next none_read => exact .noDocument content none_read
    · next d document =>
      split
      · next refused => exact .mistyped content document (ofDocument_eq_none_iff.1 refused)
      · next c read =>
        have described := ofDocument_describes read
        have typed : ¬ Mistyped d := fun wrong => by
          simp [ofDocument_eq_none_iff.2 wrong] at read
        split
        · next none_unknown =>
          have known : ∀ key ∈ d.keys, isKnown key = true := by
            simpa [List.filter_eq_nil_iff] using none_unknown
          split
          · next negative => exact .negativeJobs content document known described negative
          · next enough =>
            exact .config content document known (described.from path) (Int.not_lt.1 enough) rfl
        · next some_unknown =>
          refine .unknownKeys content document typed ?_
          simpa [List.filter_eq_nil_iff] using some_unknown

end ComposeStability.Config
