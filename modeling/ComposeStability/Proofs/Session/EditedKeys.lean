/-
# Proofs.Session.EditedKeys -- keys notice every edit

The text of the options tells the behavior and the patterns
(`fingerprint_inj`), and the bytes that are hashed tell the content of each file
(`chunks_inj`), since every chunk is preceded by its length and packages are
entered in the same order whatever their files hold.  So the keys of a package in
two states of the files and under two lists of options are the same exactly if
nothing that they cover differs (`key_notices_edits`).
-/
import ComposeStability.Proofs.Cache.Key
import ComposeStability.Proofs.Session.Discovery
import ComposeStability.Proofs.Text.Words

namespace ComposeStability.Session

set_option autoImplicit false

open Program (Package Packages)

/-! ## The text of options -/

theorem toList_intercalate_cons (s : String) (rest : List String) :
    (" ".intercalate (s :: rest)).toList = s.toList ++ rest.flatMap fun t => ' ' :: t.toList := by
  induction rest generalizing s with
  | nil => simp
  | cons t rest ih => simp [String.intercalate_cons_cons, ih]

/-- Quoted texts behind spaces, up to the closing bracket. -/
theorem quotes_inj {texts texts' : List String}
    (same : (texts.flatMap fun t => ' ' :: (Text.quote t).toList) ++ [']'] =
      (texts'.flatMap fun t => ' ' :: (Text.quote t).toList) ++ [']']) : texts = texts' := by
  induction texts generalizing texts' with
  | nil =>
      cases texts' with
      | nil => rfl
      | cons t texts' => exact absurd (List.cons.inj same).1 (by decide)
  | cons t texts ih =>
      cases texts' with
      | nil => exact absurd (List.cons.inj same).1 (by decide)
      | cons t' texts' =>
          simp only [List.flatMap_cons, List.cons_append, List.append_assoc, List.cons.injEq,
            true_and] at same
          obtain ⟨rfl, later⟩ := Text.quote_append_inj same
          rw [ih later]

/-- A list of quoted texts in brackets tells the texts. -/
theorem quotedList_inj {texts texts' : List String}
    (same : (" ".intercalate (texts.map Text.quote)).toList ++ [']'] =
      (" ".intercalate (texts'.map Text.quote)).toList ++ [']']) : texts = texts' := by
  have marked (t : String) : ∃ rest, (Text.quote t).toList = '"' :: rest :=
    ⟨_, Text.quote_toList t⟩
  cases texts with
  | nil =>
      cases texts' with
      | nil => rfl
      | cons t texts' =>
          obtain ⟨rest, start⟩ := marked t
          rw [List.map_cons, toList_intercalate_cons, start] at same
          exact absurd (List.cons.inj same).1 (by decide)
  | cons t texts =>
      cases texts' with
      | nil =>
          obtain ⟨rest, start⟩ := marked t
          rw [List.map_cons, toList_intercalate_cons, start] at same
          exact absurd (List.cons.inj same).1 (by decide)
      | cons t' texts' =>
          simp only [List.map_cons, toList_intercalate_cons, List.flatMap_map,
            List.append_assoc] at same
          obtain ⟨rfl, later⟩ := Text.quote_append_inj same
          rw [quotes_inj later]

/-- Two texts with a space in them are divided at the first one. -/
theorem append_space_inj {word word' rest rest' : List Char} (spaceless : ' ' ∉ word)
    (spaceless' : ' ' ∉ word') (same : word ++ ' ' :: rest = word' ++ ' ' :: rest') :
    word = word' ∧ rest = rest' := by
  have here := Text.cut_append spaceless [] rest
  have there := Text.cut_append spaceless' [] rest'
  rw [List.singleton_append] at here there
  rw [same, there] at here
  obtain ⟨first, later⟩ := Prod.mk.inj (Option.some.inj here)
  exact ⟨first.symm, later.symm⟩

theorem toDigits_injective {m n : Nat} (same : Nat.toDigits 10 m = Nat.toDigits 10 n) : m = n := by
  have read (k : Nat) : Text.digitsValue? 10 (Nat.toDigits 10 k) = some k :=
    Text.digitsValue?_toDigits (by decide) (by decide) k
  exact Option.some.inj ((read m).symm.trans (same ▸ read n))

/-- The text of the options tells the behavior and the patterns. -/
theorem fingerprint_inj {o o' : Options} :
    o.fingerprint = o'.fingerprint ↔ o.behavior = o'.behavior ∧ o.stableTypes = o'.stableTypes := by
  have digits (n : Nat) : (toString n).toList = Nat.toDigits 10 n := by
    rw [Nat.toString_eq_repr, Nat.toList_repr]
  have spaceless (n : Nat) : ' ' ∉ Nat.toDigits 10 n := fun member =>
    absurd (Text.visible_toDigits (by decide) (by decide) n ' ' member) (by decide)
  have text (p : Options) : p.fingerprint.toList =
      Nat.toDigits 10 p.behavior.bits.toNat ++ ' ' :: '[' ::
        ((" ".intercalate ((p.stableTypes.map (·.text)).map Text.quote)).toList ++ [']']) := by
    simp [Options.fingerprint, Function.comp_def]
  constructor
  · intro same
    have chars := congrArg String.toList same
    rw [text, text] at chars
    obtain ⟨number, listed⟩ := append_space_inj (spaceless _) (spaceless _) chars
    have bits := BitVec.eq_of_toNat_eq (toDigits_injective number)
    have texts := quotedList_inj (List.cons.inj listed).2
    refine ⟨?_, ?_⟩
    · exact congrArg Flags.mk bits
    · have inverse (p : TypeGraph.Pattern) : TypeGraph.Pattern.mk p.text = p := rfl
      have back := congrArg (List.map TypeGraph.Pattern.mk) texts
      simpa [Function.comp_def, inverse] using back
  · rintro ⟨behavior, types⟩
    rw [Options.fingerprint, Options.fingerprint, behavior, types]

/-! ## The bytes that are hashed -/

section
variable {content content' : String → List UInt8}

/-- The bytes that are hashed for files. -/
def bytesOfFiles (content : String → List UInt8) (paths : List String) : List UInt8 :=
  paths.flatMap fun path =>
    Cache.chunk (Text.toBytes (Path.base path)) ++ Cache.chunk (content path)

/-- The bytes that are hashed for packages. -/
def bytesOfPackages (content : String → List UInt8) (packages : List Package) : List UInt8 :=
  packages.flatMap fun q => Cache.chunk (Text.toBytes q.id) ++ bytesOfFiles content q.sources

theorem stream_itemsOf (first second : String) (packages : List Package) :
    Cache.stream (.text first :: .text second :: itemsOf content packages) =
      Cache.littleEndian 2 Cache.schemaVersion ++ (Cache.chunk (Text.toBytes first) ++
        (Cache.chunk (Text.toBytes second) ++ bytesOfPackages content packages)) := by
  simp [Cache.stream, Cache.Item.chunks, itemsOf, bytesOfPackages, bytesOfFiles,
    List.flatMap_assoc, List.flatMap_map]

/-- The number of bytes in each file fits the prefix of a chunk. -/
def Short (content : String → List UInt8) (paths : List String) : Prop :=
  ∀ path ∈ paths, (content path).length < 2 ^ 64

/-- The bytes that are hashed tell the contents of files. -/
theorem bytesOfFiles_inj {paths : List String} (short : Short content paths)
    (short' : Short content' paths) {rest rest' : List UInt8}
    (same : bytesOfFiles content paths ++ rest = bytesOfFiles content' paths ++ rest') :
    (∀ path ∈ paths, content path = content' path) ∧ rest = rest' := by
  induction paths with
  | nil => exact ⟨nofun, same⟩
  | cons path paths ih =>
      obtain ⟨here, later⟩ := List.forall_mem_cons.1 short
      obtain ⟨here', later'⟩ := List.forall_mem_cons.1 short'
      simp only [bytesOfFiles, List.flatMap_cons, List.append_assoc,
        List.append_cancel_left_eq] at same
      obtain ⟨alike, same⟩ := Cache.chunk_append_inj here here' same
      obtain ⟨others, rest⟩ := ih later later' same
      exact ⟨List.forall_mem_cons.2 ⟨alike, others⟩, rest⟩

/-- The bytes that are hashed tell the contents of all files of packages. -/
theorem bytesOfPackages_inj {packages : List Package}
    (short : ∀ q ∈ packages, Short content q.sources)
    (short' : ∀ q ∈ packages, Short content' q.sources)
    (same : bytesOfPackages content packages = bytesOfPackages content' packages) :
    ∀ q ∈ packages, ∀ path ∈ q.sources, content path = content' path := by
  induction packages with
  | nil => nofun
  | cons q packages ih =>
      obtain ⟨here, later⟩ := List.forall_mem_cons.1 short
      obtain ⟨here', later'⟩ := List.forall_mem_cons.1 short'
      simp only [bytesOfPackages, List.flatMap_cons, List.append_assoc,
        List.append_cancel_left_eq] at same
      obtain ⟨alike, rest⟩ := bytesOfFiles_inj here here' same
      exact List.forall_mem_cons.2 ⟨alike, ih later later' rest⟩

/-- Files with the same contents are hashed as the same bytes. -/
theorem itemsOf_congr {packages : List Package}
    (alike : ∀ q ∈ packages, ∀ path ∈ q.sources, content path = content' path) :
    itemsOf content packages = itemsOf content' packages := by
  refine List.flatMap_congr fun q member => congrArg _ (List.map_congr_left fun path listed => ?_)
  rw [alike q member path listed]

end

/-! ## Two states -/

/-- A file can be read, and its size is within the bounds of a file. -/
def Hashable (files : FileSystem) (path : String) : Prop :=
  ∃ content, files.read path = .ok content ∧ content.length < 2 ^ 64

/-- A package in two states of the files and under two lists of options.  The packages that its key
covers are named, import and are made of files in the same way in both. -/
structure Compared (o o' : Options) (ps ps' : Packages) (fs fs' : FileSystem) (p p' : Package) :
    Prop where
  shapes : ps.map shape = ps'.map shape
  root : shape p = shape p'
  /-- Packages have different identifiers. -/
  distinct : ∀ q r, Covers ps p q → Covers ps p r → q.id = r.id → q = r
  /-- All source files can be read in both states. -/
  hashable : ∀ q, Covers ps p q → ∀ path ∈ q.sources, Hashable fs path ∧ Hashable fs' path
  /-- Patterns are within the bounds of a text. -/
  short : o.fingerprint.utf8ByteSize < 2 ^ 64 ∧ o'.fingerprint.utf8ByteSize < 2 ^ 64
  /-- There are no collisions. -/
  hashed : ∀ items items', keyItems o ps fs p = .ok items → keyItems o' ps' fs' p' = .ok items' →
    Cache.Key.ofItems items = Cache.Key.ofItems items' → Cache.stream items = Cache.stream items'

theorem contentOf_of_read {files : FileSystem} {path : String} {content : List UInt8}
    (read : files.read path = .ok content) : contentOf files path = content := by
  rw [contentOf, read]
  rfl

theorem Hashable.short {files : FileSystem} {path : String} (hashable : Hashable files path) :
    (contentOf files path).length < 2 ^ 64 := by
  obtain ⟨content, read, small⟩ := hashable
  rwa [contentOf_of_read read]

theorem Hashable.contentOf_eq_iff {files files' : FileSystem} {path : String}
    (here : Hashable files path) (there : Hashable files' path) :
    contentOf files path = contentOf files' path ↔ files.read path = files'.read path := by
  obtain ⟨content, read, -⟩ := here
  obtain ⟨content', read', -⟩ := there
  rw [contentOf_of_read read, contentOf_of_read read', read, read', Except.ok.injEq]

/-- Whatever the packages are otherwise, their keys are made from the same items. -/
theorem Compared.keyItems_eq {o o' : Options} {ps ps' : Packages} {fs fs' : FileSystem}
    {p p' : Package} (compared : Compared o o' ps ps' fs fs' p p') (o₁ : Options)
    (files : FileSystem) : keyItems o₁ ps' files p' = keyItems o₁ ps files p := by
  rw [← keyItems_shape, ← compared.shapes, ← compared.root, keyItems_shape]

/-- The keys of a package in two states are the same exactly if the behavior, the patterns, and the
files of the package and of everything it imports, directly or not, are. -/
theorem key_notices_edits {o o' : Options} {ps ps' : Packages} {fs fs' : FileSystem}
    {p p' : Package} (compared : Compared o o' ps ps' fs fs' p p') :
    ∃ items items', keyItems o ps fs p = .ok items ∧ keyItems o' ps' fs' p' = .ok items' ∧
      (Cache.Key.ofItems items = Cache.Key.ofItems items' ↔
        o.behavior = o'.behavior ∧ o.stableTypes = o'.stableTypes ∧
          ∀ q, Covers ps p q → ∀ path ∈ q.sources, fs.read path = fs'.read path) := by
  have members (q : Package) : q ∈ order ps p ↔ Covers ps p q := mem_order_iff compared.distinct
  have gathered := Session.keyItems_eq o fun q covered path listed =>
    (compared.hashable q covered path listed).1.imp fun _ found => found.1
  have gathered' : keyItems o' ps' fs' p' = _ := (compared.keyItems_eq o' fs').trans <|
    Session.keyItems_eq o' fun q covered path listed =>
      (compared.hashable q covered path listed).2.imp fun _ found => found.1
  have alike : (∀ q ∈ order ps p, ∀ path ∈ q.sources,
      contentOf fs path = contentOf fs' path) ↔
      ∀ q, Covers ps p q → ∀ path ∈ q.sources, fs.read path = fs'.read path := by
    refine forall_congr' fun q => ?_
    rw [members]
    refine forall₂_congr fun covered path => forall_congr' fun listed => ?_
    obtain ⟨here, there⟩ := compared.hashable q covered path listed
    exact here.contentOf_eq_iff there
  refine ⟨_, _, gathered, gathered', ?_⟩
  rw [← alike, ← and_assoc, ← fingerprint_inj]
  constructor
  · intro same
    have streams := compared.hashed _ _ gathered gathered' same
    simp only [stream_itemsOf, List.append_cancel_left_eq] at streams
    obtain ⟨options, packages⟩ := Cache.chunk_append_inj
      (by rw [Text.length_toBytes]; exact compared.short.1)
      (by rw [Text.length_toBytes]; exact compared.short.2) streams
    refine ⟨Cache.toBytes_injective options, bytesOfPackages_inj ?_ ?_ packages⟩
    · exact fun q member path listed =>
        (compared.hashable q ((members q).1 member) path listed).1.short
    · exact fun q member path listed =>
        (compared.hashable q ((members q).1 member) path listed).2.short
  · rintro ⟨options, contents⟩
    rw [options, itemsOf_congr contents]

/-! ## Two packages that import each other -/

namespace Demo

/-- Two packages that import each other. -/
def cycle : Packages :=
  [{ path := "a", name := "a", imports := ["b"], sources := ["/a.go"] },
   { path := "b", name := "b", imports := ["a"], sources := ["/b.go"] }]

/-- The package that is asked for. -/
def cycleStart : Package := { path := "a", name := "a", imports := ["b"], sources := ["/a.go"] }

/-- Their files, with a byte each. -/
def cycleFiles (second : UInt8) : FileSystem where
  entries := [(["a.go"], .file [1]), (["b.go"], .file [second])]

theorem cycle_covers {q : Package} (covered : Covers cycle cycleStart q) : q ∈ cycle := by
  cases Relation.ReflTransGen.cases_tail covered with
  | inl same => exact same ▸ List.mem_cons_self
  | inr last => exact mem_of_requires last.choose_spec.2

theorem cycle_hashable {second : UInt8} (listed : second ∈ [2, 3]) {q : Package}
    (member : q ∈ cycle) {path : String} (own : path ∈ q.sources) :
    Hashable (cycleFiles second) path := by
  have first : (cycleFiles second).read "/a.go" = .ok [1] := by
    revert listed second
    decide +kernel
  have other : (cycleFiles second).read "/b.go" = .ok [second] := by
    revert listed second
    decide +kernel
  simp only [cycle, List.mem_cons, List.not_mem_nil, or_false] at member
  rcases member with rfl | rfl
  · exact List.mem_singleton.1 own ▸ ⟨[1], first, by decide⟩
  · exact List.mem_singleton.1 own ▸ ⟨[second], other, by simp⟩

theorem cycle_keys :
    ((keyItems {} cycle (cycleFiles 2) cycleStart).toOption.bind fun items =>
      (keyItems {} cycle (cycleFiles 3) cycleStart).toOption.map fun items' =>
        decide (Cache.Key.ofItems items = Cache.Key.ofItems items')) = some false := by
  decide +kernel

theorem cycle_compared :
    Compared {} {} cycle cycle (cycleFiles 2) (cycleFiles 3) cycleStart cycleStart := by
  constructor
  · rfl
  · rfl
  · have distinct : ∀ q ∈ cycle, ∀ r ∈ cycle, q.id = r.id → q = r := by
      simp [cycle]
    exact fun q r covered covered' => distinct q (cycle_covers covered) r (cycle_covers covered')
  · exact fun q covered path own =>
      ⟨cycle_hashable (by decide) (cycle_covers covered) own,
        cycle_hashable (by decide) (cycle_covers covered) own⟩
  · decide
  · intro items items' gathered gathered' same
    have differ := cycle_keys
    rw [gathered, gathered'] at differ
    simp [Except.toOption, same] at differ

/-- An edit of the second package is noticed by the key of the first. -/
theorem key_notices_edit_of_import :
    Compared {} {} cycle cycle (cycleFiles 2) (cycleFiles 3) cycleStart cycleStart ∧
    ∃ items items', keyItems {} cycle (cycleFiles 2) cycleStart = .ok items ∧
      keyItems {} cycle (cycleFiles 3) cycleStart = .ok items' ∧
      Cache.Key.ofItems items ≠ Cache.Key.ofItems items' := by
  obtain ⟨items, items', gathered, gathered', same_iff⟩ := key_notices_edits cycle_compared
  refine ⟨cycle_compared, items, items', gathered, gathered', fun same => ?_⟩
  obtain ⟨-, -, alike⟩ := same_iff.1 same
  have required : Requires cycle cycleStart
      { path := "b", name := "b", imports := ["a"], sources := ["/b.go"] } :=
    ⟨"b", List.mem_cons_self, rfl⟩
  have read := alike _ (.single required) "/b.go" List.mem_cons_self
  exact absurd read (by decide +kernel)

end Demo

end ComposeStability.Session
