/-
# Proofs.Cache.Key -- keys and the input they stand for

A key has 32 bytes (`Key.ofItems_whole`).  A chunk is read back from the front
of bytes (`chunk_append_inj`), so the bytes that are hashed determine the first
text that differs (`stream_text_inj`) and, one chunk after the other, all chunks
(`hashed_inj`).  Nothing else is determined by them: two lists of items are
hashed as the same bytes exactly if they flatten to the same chunks
(`stream_decodable`), whatever items the chunks came from and however much a
content looks like chunks of its own.
-/
import ComposeStability.Proofs.Cache.Disk

namespace ComposeStability.Cache

set_option autoImplicit false

theorem Key.ofItems_whole (items : List Item) : (Key.ofItems items).Whole := by
  show (Sha256.hash (stream items)).length = 32
  simp [Sha256.hash, MessagePack.bigEndian_length]

/-! ## Chunks -/

theorem littleEndian_length (width n : Nat) : (littleEndian width n).length = width := by
  simp [littleEndian]

theorem littleEndian_succ (width n : Nat) :
    littleEndian (width + 1) n = n.toUInt8 :: littleEndian width (n / 256) := by
  unfold littleEndian
  rw [List.range_succ_eq_map, List.map_cons, List.map_map]
  refine congr (congrArg _ (by simp)) (List.map_congr_left fun i _ => ?_)
  have shift : n >>> (8 * (i + 1)) = (n / 256) >>> (8 * i) := by
    rw [Nat.mul_add, Nat.add_comm, Nat.shiftRight_add, Nat.shiftRight_eq_div_pow n]
  simp only [Function.comp_apply, Nat.succ_eq_add_one, shift]

theorem littleEndian_injective {width m n : Nat} (small : m < 256 ^ width)
    (small' : n < 256 ^ width) (same : littleEndian width m = littleEndian width n) : m = n := by
  induction width generalizing m n with
  | zero =>
      simp at small small'
      omega
  | succ width ih =>
      rw [littleEndian_succ, littleEndian_succ, List.cons.injEq] at same
      rw [Nat.pow_succ] at small small'
      have low : m % 256 = n % 256 := by simpa using congrArg UInt8.toNat same.1
      have high := ih (Nat.div_lt_of_lt_mul (by omega)) (Nat.div_lt_of_lt_mul (by omega)) same.2
      omega

/-- A chunk is told from what follows it. -/
theorem chunk_append_inj {bytes others rest rest' : List UInt8} (short : bytes.length < 2 ^ 64)
    (short' : others.length < 2 ^ 64) (same : chunk bytes ++ rest = chunk others ++ rest') :
    bytes = others ∧ rest = rest' := by
  simp only [chunk, List.append_assoc] at same
  obtain ⟨header, body⟩ := List.append_inj same (by simp [littleEndian_length])
  have lengths : bytes.length = others.length := littleEndian_injective short short' header
  exact List.append_inj body lengths

theorem toBytes_injective {s t : String} (same : Text.toBytes s = Text.toBytes t) : s = t := by
  rw [← Text.ofBytes_toBytes s, same, Text.ofBytes_toBytes]

/-- The first text that differs is seen in the bytes that are hashed. -/
theorem stream_text_inj {front : List Item} {s t : String} {items items' : List Item}
    (short : s.utf8ByteSize < 2 ^ 64) (short' : t.utf8ByteSize < 2 ^ 64)
    (same : stream (front ++ .text s :: items) = stream (front ++ .text t :: items')) : s = t := by
  rw [← Text.length_toBytes] at short short'
  simp only [stream, List.flatMap_append, List.flatMap_cons, Item.chunks,
    List.append_cancel_left_eq, List.flatMap_nil, List.append_nil] at same
  exact toBytes_injective (chunk_append_inj short short' same).1

/-! ## Lists of chunks -/

/-- The length of every chunk fits the bytes before it. -/
def Fit (parts : List (List UInt8)) : Prop := ∀ bytes ∈ parts, bytes.length < 2 ^ 64

instance (parts : List (List UInt8)) : Decidable (Fit parts) :=
  inferInstanceAs (Decidable (∀ bytes ∈ parts, bytes.length < 2 ^ 64))

/-- The bytes that are hashed for chunks. -/
def hashed (parts : List (List UInt8)) : List UInt8 :=
  littleEndian 2 schemaVersion ++ parts.flatMap chunk

theorem chunk_append_ne_nil (bytes rest : List UInt8) : chunk bytes ++ rest ≠ [] := by
  intro empty
  have length := congrArg List.length empty
  simp [chunk, littleEndian_length] at length

/-- Chunks put after each other are told from their bytes. -/
theorem flatMap_chunk_inj {parts parts' : List (List UInt8)} (fit : Fit parts) (fit' : Fit parts')
    (same : parts.flatMap chunk = parts'.flatMap chunk) : parts = parts' := by
  -- Both lists are taken apart together.  An empty one has no bytes, but an empty chunk has.
  induction parts generalizing parts' with
  | nil =>
      cases parts' with
      | nil => rfl
      | cons bytes' parts' =>
          rw [List.flatMap_cons] at same
          exact absurd same.symm (chunk_append_ne_nil _ _)
  | cons bytes parts ih =>
      cases parts' with
      | nil =>
          rw [List.flatMap_cons] at same
          exact absurd same (chunk_append_ne_nil _ _)
      | cons bytes' parts' =>
          obtain ⟨here, later⟩ := List.forall_mem_cons.1 fit
          obtain ⟨here', later'⟩ := List.forall_mem_cons.1 fit'
          rw [List.flatMap_cons, List.flatMap_cons] at same
          obtain ⟨rfl, rest⟩ := chunk_append_inj here here' same
          rw [ih later later' rest]

theorem hashed_inj {parts parts' : List (List UInt8)} (fit : Fit parts) (fit' : Fit parts') :
    hashed parts = hashed parts' ↔ parts = parts' := by
  constructor
  · intro same
    exact flatMap_chunk_inj fit fit' (List.append_cancel_left same)
  · rintro rfl
    rfl

/-! ## Items and their chunks -/

/-- The chunks that items stand for, in order: a text is one, and a file is two, the last step of
its path and its content. -/
inductive Flattens : List Item → List (List UInt8) → Prop where
  | nil : Flattens [] []
  | text (s : String) {items : List Item} {parts : List (List UInt8)} :
      Flattens items parts → Flattens (.text s :: items) (Text.toBytes s :: parts)
  | file (path : String) (content : List UInt8) {items : List Item} {parts : List (List UInt8)} :
      Flattens items parts →
        Flattens (.file path content :: items) (Text.toBytes (Path.base path) :: content :: parts)

/-- The sizes of an item are within the bounds of the prefix of a chunk. -/
def Item.Sized : Item → Prop
  | .text s => s.utf8ByteSize < 2 ^ 64
  | .file path content => (Path.base path).utf8ByteSize < 2 ^ 64 ∧ content.length < 2 ^ 64

instance : (item : Item) → Decidable item.Sized
  | .text s => inferInstanceAs (Decidable (s.utf8ByteSize < 2 ^ 64))
  | .file path content =>
      inferInstanceAs
        (Decidable ((Path.base path).utf8ByteSize < 2 ^ 64 ∧ content.length < 2 ^ 64))

/-- Items flatten to chunks in one way. -/
theorem flattens_iff {items : List Item} {parts : List (List UInt8)} :
    Flattens items parts ↔ parts = items.flatMap Item.chunks := by
  constructor
  · intro flat
    induction flat with
    | nil => rfl
    | text s _ ih => rw [ih, List.flatMap_cons, Item.chunks, List.singleton_append]
    | file path content _ ih => rw [ih, List.flatMap_cons]; rfl
  · rintro rfl
    induction items with
    | nil => exact .nil
    | cons item items ih =>
        cases item with
        | text s => exact .text s ih
        | file path content => exact .file path content ih

theorem Flattens.fit {items : List Item} {parts : List (List UInt8)} (flat : Flattens items parts)
    (sized : ∀ item ∈ items, item.Sized) : Fit parts := by
  induction flat with
  | nil => exact nofun
  | text s _ ih =>
      obtain ⟨here, later⟩ := List.forall_mem_cons.1 sized
      exact List.forall_mem_cons.2 ⟨by rwa [Text.length_toBytes], ih later⟩
  | file path content _ ih =>
      obtain ⟨⟨name, whole⟩, later⟩ := List.forall_mem_cons.1 sized
      refine List.forall_mem_cons.2 ⟨by rwa [Text.length_toBytes], ?_⟩
      exact List.forall_mem_cons.2 ⟨whole, ih later⟩

theorem Flattens.stream_eq {items : List Item} {parts : List (List UInt8)}
    (flat : Flattens items parts) : stream items = hashed parts := by
  rw [flattens_iff.1 flat, stream, hashed]

/-- Two lists of items are hashed as the same bytes exactly if they flatten to the same chunks.
Texts are well formed, but nothing depends on it: chunks of any bytes are told from each other. -/
theorem stream_decodable :
    (∀ items items' : List Item, (∀ item ∈ items, item.Sized) → (∀ item ∈ items', item.Sized) →
      (stream items = stream items' ↔ ∃ parts, Flattens items parts ∧ Flattens items' parts)) ∧
    ∀ parts parts' : List (List UInt8), Fit parts → Fit parts' →
      (hashed parts = hashed parts' ↔ parts = parts') := by
  refine ⟨fun items items' sized sized' => ?_, fun parts parts' => hashed_inj⟩
  have flat : Flattens items _ := flattens_iff.2 rfl
  have flat' : Flattens items' _ := flattens_iff.2 rfl
  constructor
  · intro same
    rw [flat.stream_eq, flat'.stream_eq, hashed_inj (flat.fit sized) (flat'.fit sized')] at same
    exact ⟨_, flat, same ▸ flat'⟩
  · rintro ⟨parts, flat, flat'⟩
    rw [flat.stream_eq, flat'.stream_eq]

/-! ## A content that looks like a chunk -/

namespace Demo

/-- A file whose content is the chunk of a text. -/
def nested : List Item := [.file "ui/a.go" (chunk [98])]

/-- The name of the file, an empty text, and the text of the chunk. -/
def unnested : List Item := [.text "a.go", .text "", .text "b"]

/-- The name and the content of the file as texts. -/
def untied : List Item := [.text "a.go", .text "\x01\x00\x00\x00\x00\x00\x00\x00b"]

/-- The first two have as many bytes and differ in the prefixes only; the first and the last have the
same bytes.  Chunks that are no texts are told from each other as well. -/
theorem nested_told :
    (∀ item ∈ nested, item.Sized) ∧ (∀ item ∈ unnested, item.Sized) ∧
      (∀ item ∈ untied, item.Sized) ∧ Fit [[0xff], []] ∧ Fit [[], [0xff]] ∧
      (stream nested).length = (stream unnested).length ∧ stream nested ≠ stream unnested ∧
      stream nested = stream untied ∧ hashed [[0xff], []] ≠ hashed [[], [0xff]] := by
  have first : ∀ item ∈ nested, item.Sized := by decide +kernel
  have second : ∀ item ∈ unnested, item.Sized := by decide +kernel
  have third : ∀ item ∈ untied, item.Sized := by decide +kernel
  have stray : Fit [[0xff], []] := by decide
  have stray' : Fit [[], [0xff]] := by decide
  refine ⟨first, second, third, stray, stray', by decide +kernel, ?_, ?_, ?_⟩
  · intro same
    obtain ⟨parts, flat, flat'⟩ := (stream_decodable.1 _ _ first second).1 same
    have alike := (flattens_iff.1 flat).symm.trans (flattens_iff.1 flat')
    exact absurd (congrArg List.length alike) (by decide)
  · refine (stream_decodable.1 _ _ first third).2 ⟨_, flattens_iff.2 rfl, flattens_iff.2 ?_⟩
    decide +kernel
  · intro same
    exact absurd ((stream_decodable.2 _ _ stray stray').1 same) (by decide)

end Demo

end ComposeStability.Cache
