/-
# Proofs.Cache.MessagePack -- what is written is read back

A reader takes back bytes if it reads their value from the front of any bytes
that begin with them (`TakesBack`).  Numbers, texts, lists and structures are
taken back in all their length classes; a structure is filled field by field
(`Fills`), in the order in which its fields were written.
-/
import ComposeStability.Cache.MessagePack
import ComposeStability.Proofs.Text.Utf8
import Mathlib.Algebra.Group.Nat.Defs

namespace ComposeStability.MessagePack

set_option autoImplicit false

open Sha256 (bigEndian)

/-- A reader finds a value in bytes, whatever follows them. -/
def TakesBack {α : Type} (read : Reader α) (bytes : List UInt8) (x : α) : Prop :=
  ∀ rest, read (bytes ++ rest) = some (x, rest)

/-! ## Numbers -/

theorem take_append {n : Nat} {bytes : List UInt8} (long : bytes.length = n) :
    TakesBack (take n) bytes bytes := by
  intro rest
  subst long
  simp [take]

theorem bigEndian_succ (width n : Nat) :
    bigEndian (width + 1) n = (n >>> (8 * width)).toUInt8 :: bigEndian width n := by
  unfold bigEndian
  rw [List.range_succ_eq_map, List.map_cons, List.map_map]
  refine congr (congrArg _ (by simp)) (List.map_congr_left fun i member => ?_)
  have shift : width + 1 - 1 - (i + 1) = width - 1 - i := by omega
  simp only [Function.comp_apply, Nat.succ_eq_add_one, shift]

theorem bigEndian_length (width n : Nat) : (bigEndian width n).length = width := by
  simp [bigEndian]

theorem foldl_bigEndian (width n start : Nat) :
    (bigEndian width n).foldl (fun n b => n * 256 + b.toNat) start =
      start * 256 ^ width + n % 256 ^ width := by
  induction width generalizing start with
  | zero => simp [bigEndian, Nat.mod_one]
  | succ width ih =>
      have digit : ((n >>> (8 * width)).toUInt8).toNat = n / 256 ^ width % 256 := by
        have power : (256 : Nat) ^ width = 2 ^ (8 * width) := by rw [Nat.pow_mul]
        rw [Nat.shiftRight_eq_div_pow, power]
        simp
      rw [bigEndian_succ, List.foldl_cons, ih, digit, Nat.pow_succ, Nat.mod_mul]
      generalize n / 256 ^ width % 256 = high
      calc (start * 256 + high) * 256 ^ width + n % 256 ^ width
          _ = start * 256 * 256 ^ width + high * 256 ^ width + n % 256 ^ width := by
            rw [Nat.add_mul]
          _ = start * (256 ^ width * 256) + (n % 256 ^ width + 256 ^ width * high) := by
            rw [Nat.mul_assoc, Nat.mul_comm 256, Nat.mul_comm high]
            omega

/-- A number is taken back from as many bytes as it fits. -/
theorem readNat_bigEndian (width : Nat) {n : Nat} (small : n < 256 ^ width) :
    TakesBack (readNat width) (bigEndian width n) n := by
  intro rest
  rw [readNat, take_append (bigEndian_length width n) rest]
  simp [foldl_bigEndian, Nat.mod_eq_of_lt small]

theorem toNat_toUInt8 {n : Nat} (small : n < 256) : n.toUInt8.toNat = n := by
  show (UInt8.ofNat n).toNat = n
  exact Text.toNat_ofNat_small small

theorem readNumber_byte (n : UInt8) : TakesBack readNumber (writeByte n) n.toNat := by
  intro rest
  have written : bigEndian 1 n.toNat = [n] := by simp [bigEndian]
  have read := readNat_bigEndian 1 (by simpa using n.toNat_lt) rest
  rw [written] at read
  simpa [readNumber, writeByte] using read

theorem readNumber_word {n : Nat} (small : n < 65536) :
    TakesBack readNumber (writeWord n) n := by
  intro rest
  have read := readNat_bigEndian 2 (by simpa using small) rest
  simpa [readNumber, writeWord] using read

theorem readBool_writeBool (b : Bool) : TakesBack readBool (writeBool b) b := by
  intro rest
  cases b <;> rfl

/-! ## Texts -/

/-- The number of bytes or elements that a header can count is below this. -/
def countLimit : Nat := 2 ^ 32

theorem readTextHeader_write {length : Nat} (small : length < countLimit) :
    TakesBack readTextHeader (writeTextHeader length) length := by
  intro rest
  unfold writeTextHeader
  split
  · next short =>
    have code : (0xa0 + length).toUInt8.toNat = 0xa0 + length := toNat_toUInt8 (by omega)
    have low : ¬ (0xa0 + length = 0xc0) := by omega
    have high : 0xa0 + length ≤ 0xbf := by omega
    simp only [List.cons_append, List.nil_append, readTextHeader, code]
    simp [low, high]
  split
  · next byte =>
    have read := readNat_bigEndian 1 (by simpa using byte) rest
    simpa [readTextHeader] using read
  split
  · next word =>
    have read := readNat_bigEndian 2 (by simpa using word) rest
    simpa [readTextHeader] using read
  · have read := readNat_bigEndian 4 (show length < 256 ^ 4 from small) rest
    simpa [readTextHeader] using read

/-- A text is short enough for its length to be written. -/
def Countable (s : String) : Prop := s.utf8ByteSize < countLimit

instance (s : String) : Decidable (Countable s) := inferInstanceAs (Decidable (_ < _))

theorem readText_writeText {s : String} (short : Countable s) :
    TakesBack readText (writeText s) s := by
  intro rest
  have fits : (Text.toBytes s).length < countLimit := by rw [Text.length_toBytes]; exact short
  have header := readTextHeader_write fits (Text.toBytes s ++ rest)
  have body : take (Text.toBytes s).length (Text.toBytes s ++ rest) = some (Text.toBytes s, rest) :=
    take_append rfl rest
  simp [readText, writeText, header, body, Text.ofBytes_toBytes]

/-! ## Lists -/

theorem readListHeader_write {length : Nat} (small : length < countLimit) :
    TakesBack readListHeader (writeListHeader length) (some length) := by
  intro rest
  unfold writeListHeader
  split
  · next short =>
    have code : (0x90 + length).toUInt8.toNat = 0x90 + length := toNat_toUInt8 (by omega)
    have low : ¬ (0x90 + length = 0xc0) := by omega
    have high : 0x90 + length ≤ 0x9f := by omega
    simp only [List.cons_append, List.nil_append, readListHeader, code]
    simp [low, high]
  split
  · next word =>
    have read := readNat_bigEndian 2 (by simpa using word) rest
    simp [readListHeader, read]
  · have read := readNat_bigEndian 4 (show length < 256 ^ 4 from small) rest
    simp [readListHeader, read]

theorem readElements_flatMap {α β : Type} {read : β → Reader β} {default : β}
    {write : α → List UInt8} {value : α → β} {xs : List α}
    (each : ∀ x ∈ xs, TakesBack (read default) (write x) (value x)) :
    TakesBack (readElements read default xs.length []) (xs.flatMap write) (xs.map value) := by
  induction xs with
  | nil => exact fun rest => rfl
  | cons x xs ih =>
      intro rest
      have here := each x List.mem_cons_self (xs.flatMap write ++ rest)
      have later := ih (fun y member => each y (List.mem_cons_of_mem x member)) rest
      simp [readElements, here, later]

/-- A list is taken back into empty slots. -/
theorem readSlots_writeList {α β : Type} {read : β → Reader β} {default : β}
    {write : α → List UInt8} {value : α → β} {xs : List α} (few : xs.length < countLimit)
    (each : ∀ x ∈ xs, TakesBack (read default) (write x) (value x)) :
    TakesBack (readSlots read default {}) (writeList write xs)
      { items := some (xs.map value) } := by
  intro rest
  have header := readListHeader_write few (xs.flatMap write ++ rest)
  have body := readElements_flatMap each rest
  simp [readSlots, writeList, header, body]

/-- A list that may be absent is taken back as it was. -/
theorem readSlots_writeOptional {α β : Type} {read : β → Reader β} {default : β}
    {write : α → List UInt8} {value : α → β} {listed : Option (List α)}
    (few : ∀ xs ∈ listed, xs.length < countLimit)
    (each : ∀ xs ∈ listed, ∀ x ∈ xs, TakesBack (read default) (write x) (value x)) :
    TakesBack (readSlots read default {}) (writeOptional write listed)
      { items := listed.map (·.map value) } := by
  cases listed with
  | none => exact fun rest => rfl
  | some xs => exact readSlots_writeList (few xs rfl) (each xs rfl)

/-! ## Structures -/

/-- Written fields lead from one structure to another, each read by its own reader. -/
inductive Fills {σ : Type} (fields : FieldReaders σ) :
    σ → List (String × List UInt8) → σ → Prop where
  | nil (s : σ) : Fills fields s [] s
  | cons {s next last : σ} {name : String} {value : List UInt8} {read : σ → Reader σ}
      {rest : List (String × List UInt8)} (short : Countable name)
      (known : (fields.find? fun f => f.1 == name) = some (name, read))
      (taken : TakesBack (read s) value next) (more : Fills fields next rest last) :
      Fills fields s ((name, value) :: rest) last

theorem Fills.append {σ : Type} {fields : FieldReaders σ} {first middle last : σ}
    {written more : List (String × List UInt8)} (start : Fills fields first written middle)
    (onward : Fills fields middle more last) : Fills fields first (written ++ more) last := by
  induction start with
  | nil s => exact onward
  | cons short known taken more ih => exact .cons short known taken (ih onward)

theorem Fills.readNamed {σ : Type} {fields : FieldReaders σ} {s last : σ}
    {written : List (String × List UInt8)} (fills : Fills fields s written last) :
    TakesBack (readNamed fields written.length s)
      (written.flatMap fun (name, value) => writeText name ++ value) last := by
  intro rest
  induction fills with
  | nil s => rfl
  | cons short known taken more ih =>
      next s next last name value read others =>
      have label := readText_writeText short
        (value ++ (others.flatMap (fun (name, value) => writeText name ++ value) ++ rest))
      have body := taken (others.flatMap (fun (name, value) => writeText name ++ value) ++ rest)
      simp [MessagePack.readNamed, label, known, body, ih]

theorem readMapHeader_write {length : Nat} (small : length < 16) :
    TakesBack readMapHeader [(0x80 + length).toUInt8] (some length) := by
  intro rest
  have code : (0x80 + length).toUInt8.toNat = 0x80 + length := toNat_toUInt8 (by omega)
  have low : ¬ (0x80 + length = 0xc0) := by omega
  have high : 0x80 + length ≤ 0x8f := by omega
  simp only [List.cons_append, List.nil_append, readMapHeader, code]
  simp [low, high]

/-- A structure is taken back once its fields lead to it. -/
theorem Fills.readStructure {σ : Type} {fields : FieldReaders σ} {default s last : σ}
    {written : List (String × List UInt8)} (fills : Fills fields s written last)
    (few : written.length < 16) :
    TakesBack (readStructure fields default s) (writeFields written) last := by
  intro rest
  have header := readMapHeader_write few
    (written.flatMap (fun (name, value) => writeText name ++ value) ++ rest)
  have body := fills.readNamed rest
  simp only [List.cons_append, List.nil_append] at header
  simp only [MessagePack.readStructure, writeFields, List.cons_append, header, body]

end ComposeStability.MessagePack
