/-
# Proofs.Text.Utf8 -- text survives its bytes

The bytes of a text are those of its characters (`toBytes_eq`).  Each character
is read back from its bytes, whatever follows them (`firstChar?_encoded`), so
reading the bytes of a text gives the text (`ofBytes_toBytes`).
-/
import ComposeStability.Text.Bytes

namespace ComposeStability.Text

set_option autoImplicit false

/-! ## Bytes of characters -/

theorem toList_loop_eq (bytes : ByteArray) (i : Nat) (taken : List UInt8) :
    ByteArray.toList.loop bytes i taken = taken.reverse ++ bytes.data.toList.drop i := by
  fun_induction ByteArray.toList.loop bytes i taken with
  | case1 i taken inside ih =>
      have here : i < bytes.data.toList.length := by simpa using inside
      have head : bytes.get! i = bytes.data.toList[i] := by
        show bytes.data[i]! = _
        rw [getElem!_pos bytes.data i inside]
        rfl
      rw [ih, List.drop_eq_getElem_cons here, head]
      simp
  | case2 i taken outside =>
      have past : bytes.data.toList.length ≤ i := by simpa using outside
      simp [List.drop_eq_nil_of_le past]

theorem toList_eq_data (bytes : ByteArray) : bytes.toList = bytes.data.toList := by
  show ByteArray.toList.loop bytes 0 [] = bytes.data.toList
  rw [toList_loop_eq]
  simp

/-- The bytes of a text are the bytes of its characters, one after the other. -/
theorem toBytes_eq (s : String) : toBytes s = s.toList.flatMap String.utf8EncodeChar := by
  rw [toBytes, toList_eq_data, String.toUTF8_eq_toByteArray, ← String.utf8Encode_toList,
    List.utf8Encode, List.toList_data_toByteArray]

theorem length_toBytes (s : String) : (toBytes s).length = s.utf8ByteSize := by
  rw [toBytes, toList_eq_data]
  rfl

/-! ## Reading characters -/

theorem toNat_ofNat_small {n : Nat} (small : n < 256) : (UInt8.ofNat n).toNat = n := by
  rw [UInt8.toNat_ofNat']
  omega

theorem continuation?_ofNat {low : Nat} (small : low < 64) :
    continuation? (UInt8.ofNat (low + 0x80)) = some low := by
  rw [continuation?, toNat_ofNat_small (by omega), if_pos (by omega)]
  simp

theorem codePoint?_val (c : Char) (least : Nat) (enough : least ≤ c.val.toNat) :
    codePoint? least c.val.toNat = some c := by
  have whole : Char.ofNat c.val.toNat = c := Char.ofNat_toNat c
  have valid : c.val.toNat < 0xd800 ∨ 0xdfff < c.val.toNat ∧ c.val.toNat < 0x110000 := c.valid
  rw [codePoint?, whole, if_pos]
  omega

/-- A character is read back from its bytes, whatever follows them. -/
theorem firstChar?_encoded (c : Char) (rest : List UInt8) :
    firstChar? (String.utf8EncodeChar c ++ rest) =
      some (c, (String.utf8EncodeChar c).length) := by
  have valid : c.val.toNat < 0xd800 ∨ 0xdfff < c.val.toNat ∧ c.val.toNat < 0x110000 := c.valid
  have whole : Char.ofNat c.val.toNat = c := Char.ofNat_toNat c
  rw [String.utf8EncodeChar]
  generalize code : c.val.toNat = n at valid whole ⊢
  split
  · next one =>
    have lead : (UInt8.ofNat n).toNat = n := toNat_ofNat_small (by omega)
    simp only [List.cons_append, List.nil_append, firstChar?, lead]
    rw [if_pos (by omega), whole]
    rfl
  split
  · next two =>
    have lead : (UInt8.ofNat (n / 64 % 32 + 0xc0)).toNat = n / 64 + 0xc0 := by
      rw [toNat_ofNat_small (by omega)]
      omega
    have joined : n / 64 * 64 + n % 64 = n := by omega
    have point := codePoint?_val c 0x80 (by omega)
    rw [code] at point
    simp only [List.cons_append, List.nil_append, firstChar?, lead]
    rw [if_neg (by omega), if_pos (by omega), continuation?_ofNat (by omega)]
    simp [joined, point]
  split
  · next three =>
    have lead : (UInt8.ofNat (n / 4096 % 16 + 0xe0)).toNat = n / 4096 + 0xe0 := by
      rw [toNat_ofNat_small (by omega)]
      omega
    have joined : (n / 4096 * 64 + n / 64 % 64) * 64 + n % 64 = n := by omega
    have point := codePoint?_val c 0x800 (by omega)
    rw [code] at point
    simp only [List.cons_append, List.nil_append, firstChar?, lead]
    rw [if_neg (by omega), if_neg (by omega), if_pos (by omega), continuation?_ofNat (by omega),
      continuation?_ofNat (by omega)]
    simp [joined, point]
  · next four =>
    have lead : (UInt8.ofNat (n / 262144 % 8 + 0xf0)).toNat = n / 262144 + 0xf0 := by
      rw [toNat_ofNat_small (by omega)]
      omega
    have joined : ((n / 262144 * 64 + n / 4096 % 64) * 64 + n / 64 % 64) * 64 + n % 64 = n := by
      omega
    have point := codePoint?_val c 0x10000 (by omega)
    rw [code] at point
    simp only [List.cons_append, List.nil_append, firstChar?, lead]
    rw [if_neg (by omega), if_neg (by omega), if_neg (by omega), if_pos (by omega),
      continuation?_ofNat (by omega), continuation?_ofNat (by omega),
      continuation?_ofNat (by omega)]
    simp [joined, point]

/-! ## Reading texts -/

theorem charsFrom_skip (skipped : List UInt8) (rest : List UInt8) :
    charsFrom skipped.length (skipped ++ rest) = charsFrom 0 rest := by
  induction skipped with
  | nil => rfl
  | cons b skipped ih => simpa [charsFrom] using ih

theorem charsFrom_encoded (cs : List Char) :
    charsFrom 0 (cs.flatMap String.utf8EncodeChar) = cs := by
  induction cs with
  | nil => rfl
  | cons c cs ih =>
      rw [List.flatMap_cons]
      cases bytes : String.utf8EncodeChar c with
      | nil =>
          have positive := String.length_utf8EncodeChar c
          rw [bytes] at positive
          have := c.utf8Size_pos
          simp at positive
          omega
      | cons b more =>
          have read := firstChar?_encoded c (cs.flatMap String.utf8EncodeChar)
          rw [bytes, List.cons_append] at read
          rw [List.cons_append, charsFrom, read]
          simpa [ih] using charsFrom_skip more (cs.flatMap String.utf8EncodeChar)

/-- Reading the bytes of a text gives the text. -/
theorem ofBytes_toBytes (s : String) : ofBytes (toBytes s) = s := by
  rw [ofBytes, toBytes_eq, charsFrom_encoded, String.ofList_toList]

end ComposeStability.Text
