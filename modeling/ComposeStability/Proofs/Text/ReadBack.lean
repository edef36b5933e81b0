/-
# Proofs.Text.ReadBack -- a quoted text reads back

A literal is read piece by piece, and each piece is read back from the way it is
written, whatever follows it (`piecesWithin_escaped`).  The pieces of bytes hold
all the bytes (`bytes_piecesFrom`), so the literal of any bytes denotes them
(`unquoteBytes?_quoteBytes`), and that of a text its bytes
(`unquoteBytes?_quote`).  Decimal digits read back as well (`decimal?_toDigits`).
-/
import ComposeStability.Proofs.Text.Literal
import ComposeStability.Proofs.Text.Utf8

namespace ComposeStability.Text

set_option autoImplicit false

/-! ## Bytes of a first character -/

theorem val_ofNat {code : Nat} (valid : code.isValidChar) : (Char.ofNat code).val.toNat = code := by
  rw [Char.ofNat, dif_pos valid]
  rfl

theorem codePoint?_eq_some {least code : Nat} {c : Char} (found : codePoint? least code = some c) :
    least ≤ code ∧ code ≤ 0x10ffff ∧ c.val.toNat = code := by
  unfold codePoint? at found
  split at found
  · next inside =>
      cases found
      refine ⟨inside.1, inside.2.1, val_ofNat ?_⟩
      show code < 0xd800 ∨ 0xdfff < code ∧ code < 0x110000
      omega
  · cases found

theorem eq_ofNat {b : UInt8} {n : Nat} (same : b.toNat = n) : b = UInt8.ofNat n := by
  rw [← same, UInt8.ofNat_toNat]

theorem continuation?_eq_some {b : UInt8} {low : Nat} (found : continuation? b = some low) :
    low < 64 ∧ b = UInt8.ofNat (low + 0x80) := by
  unfold continuation? at found
  split at found
  · next inside =>
      have value := Option.some.inj found
      exact ⟨by omega, eq_ofNat (by omega)⟩
  · cases found

/-- The character that bytes start with is written with as many of them as were read. -/
theorem take_of_firstChar? {bytes : List UInt8} {c : Char} {width : Nat}
    (found : firstChar? bytes = some (c, width)) :
    bytes.take width = String.utf8EncodeChar c := by
  cases bytes with
  | nil => cases found
  | cons b rest =>
      have byte : b.toNat < 256 := b.toNat_lt
      simp only [firstChar?] at found
      split at found
      · next one =>
          cases found
          have code : (Char.ofNat b.toNat).val.toNat = b.toNat := val_ofNat (.inl (by omega))
          simp only [String.utf8EncodeChar, code, if_pos (show b.toNat ≤ 0x7f by omega)]
          simp
      split at found
      · next two =>
          cases rest with
          | nil => cases found
          | cons first rest =>
              simp only [Option.bind_eq_bind, Option.bind_eq_some_iff, Option.pure_def,
                Option.some.injEq, Prod.mk.injEq] at found
              obtain ⟨low, readLow, c, point, rfl, rfl⟩ := found
              obtain ⟨small, rfl⟩ := continuation?_eq_some readLow
              obtain ⟨least, -, code⟩ := codePoint?_eq_some point
              have lead : b = UInt8.ofNat (c.val.toNat / 64 % 32 + 0xc0) := eq_ofNat (by omega)
              have last : c.val.toNat % 64 = low := by omega
              simp only [String.utf8EncodeChar]
              rw [if_neg (by omega), if_pos (by omega), ← lead, last]
              rfl
      split at found
      · next three =>
          rcases rest with - | ⟨first, - | ⟨second, rest⟩⟩
          · cases found
          · cases found
          · simp only [Option.bind_eq_bind, Option.bind_eq_some_iff, Option.pure_def,
              Option.some.injEq, Prod.mk.injEq] at found
            obtain ⟨mid, readMid, low, readLow, c, point, rfl, rfl⟩ := found
            obtain ⟨small, rfl⟩ := continuation?_eq_some readMid
            obtain ⟨small', rfl⟩ := continuation?_eq_some readLow
            obtain ⟨least, -, code⟩ := codePoint?_eq_some point
            have lead : b = UInt8.ofNat (c.val.toNat / 4096 % 16 + 0xe0) := eq_ofNat (by omega)
            have middle : c.val.toNat / 64 % 64 = mid := by omega
            have last : c.val.toNat % 64 = low := by omega
            simp only [String.utf8EncodeChar]
            rw [if_neg (by omega), if_neg (by omega), if_pos (by omega), ← lead, middle, last]
            rfl
      split at found
      · next four =>
          rcases rest with - | ⟨first, - | ⟨second, - | ⟨third, rest⟩⟩⟩
          · cases found
          · cases found
          · cases found
          · simp only [Option.bind_eq_bind, Option.bind_eq_some_iff, Option.pure_def,
              Option.some.injEq, Prod.mk.injEq] at found
            obtain ⟨high, readHigh, mid, readMid, low, readLow, c, point, rfl, rfl⟩ := found
            obtain ⟨small, rfl⟩ := continuation?_eq_some readHigh
            obtain ⟨small', rfl⟩ := continuation?_eq_some readMid
            obtain ⟨small'', rfl⟩ := continuation?_eq_some readLow
            obtain ⟨least, -, code⟩ := codePoint?_eq_some point
            have lead : b = UInt8.ofNat (c.val.toNat / 262144 % 8 + 0xf0) := eq_ofNat (by omega)
            have upper : c.val.toNat / 4096 % 64 = high := by omega
            have middle : c.val.toNat / 64 % 64 = mid := by omega
            have last : c.val.toNat % 64 = low := by omega
            simp only [String.utf8EncodeChar]
            rw [if_neg (by omega), if_neg (by omega), if_neg (by omega), ← lead, upper, middle,
              last]
            rfl
      · cases found

/-! ## Pieces of bytes -/

theorem piecesFrom_skip (k : Nat) (bytes : List UInt8) :
    piecesFrom k bytes = piecesFrom 0 (bytes.drop k) := by
  induction bytes generalizing k with
  | nil => simp [piecesFrom]
  | cons b rest ih =>
      cases k with
      | zero => rfl
      | succ k => simpa [piecesFrom] using ih k

theorem width_pos {bytes : List UInt8} {c : Char} {width : Nat}
    (read : firstChar? bytes = some (c, width)) : 0 < width := by
  have positive := c.utf8Size_pos
  rw [← String.length_utf8EncodeChar, ← take_of_firstChar? read, List.length_take] at positive
  omega

theorem piecesFrom_char {bytes : List UInt8} {c : Char} {width : Nat}
    (read : firstChar? bytes = some (c, width)) :
    piecesFrom 0 bytes = .char c :: piecesFrom 0 (bytes.drop width) := by
  obtain ⟨k, rfl⟩ : ∃ k, width = k + 1 := Nat.exists_eq_add_one.2 (width_pos read)
  cases bytes with
  | nil => cases read
  | cons b rest =>
      rw [piecesFrom, read]
      exact congrArg _ (piecesFrom_skip k rest)

/-- Bytes at or above 128 are the only ones that start no character. -/
theorem high_of_stray {b : UInt8} {rest : List UInt8} (stray : firstChar? (b :: rest) = none) :
    0x80 ≤ b.toNat := by
  refine Nat.le_of_not_lt fun low => ?_
  simp [firstChar?, low] at stray

/-- A piece is a character or a byte that is none. -/
def Piece.Proper : Piece → Prop
  | .char _ => True
  | .byte b => 0x80 ≤ b.toNat

/-- The pieces of bytes hold all the bytes, in order. -/
theorem bytes_piecesFrom (bytes : List UInt8) :
    (piecesFrom 0 bytes).flatMap Piece.bytes = bytes ∧ ∀ p ∈ piecesFrom 0 bytes, p.Proper := by
  induction size : bytes.length using Nat.strongRecOn generalizing bytes with
  | ind n ih =>
      -- A character takes several bytes, so the induction is on the length and not on the list.
      cases bytes with
      | nil => simp [piecesFrom]
      | cons b rest =>
          simp only [List.length_cons] at size
          cases read : firstChar? (b :: rest) with
          | none =>
              obtain ⟨whole, proper⟩ := ih rest.length (by omega) rest rfl
              simp only [piecesFrom, read, List.flatMap_cons, whole, Piece.bytes]
              exact ⟨rfl, List.forall_mem_cons.2 ⟨high_of_stray read, proper⟩⟩
          | some found =>
              obtain ⟨c, width⟩ := found
              have filled := width_pos read
              have shorter : ((b :: rest).drop width).length < n := by
                rw [List.length_drop, List.length_cons]
                omega
              obtain ⟨whole, proper⟩ := ih _ shorter _ rfl
              rw [piecesFrom_char read, List.flatMap_cons, whole, Piece.bytes, toBytes_eq,
                String.toList_singleton, List.flatMap_singleton, ← take_of_firstChar? read,
                List.take_append_drop]
              exact ⟨rfl, List.forall_mem_cons.2 ⟨trivial, proper⟩⟩

/-! ## Reading pieces -/

theorem hexChar?_padded {width : Nat} (c : Char) (rest : List Char) (positive : 0 < width)
    (bound : c.toNat < 16 ^ width) :
    hexChar? width ((padded 16 width c.toNat).toList ++ rest) = some (.char c, rest) := by
  have length := padded_length positive bound
  have point : codePoint? 0 c.toNat = some c := codePoint?_val c 0 (Nat.zero_le _)
  simp only [hexChar?, List.take_left' length, List.drop_left' length, digitsValue?_padded,
    length, Nat.lt_irrefl, if_false, Option.bind_eq_bind, Option.bind_some, point]
  rfl

theorem escape?_byte {code : Nat} (rest : List Char) (bound : code < 256) :
    escape? '"' ('x' :: ((padded 16 2 code).toList ++ rest)) = some (pieceOfByte code, rest) := by
  have length := padded_length (show 0 < 2 by decide) bound
  simp only [escape?, List.take_left' length, List.drop_left' length, digitsValue?_padded, length,
    Nat.lt_irrefl, if_false, Option.map_some]

theorem escape?_short (cs : List Char) : escape? '"' ('u' :: cs) = hexChar? 4 cs := rfl

theorem escape?_long (cs : List Char) : escape? '"' ('U' :: cs) = hexChar? 8 cs := rfl

theorem escape?_letter {c letter : Char} (rest : List Char)
    (found : escapeLetter? c = some letter) :
    escape? '"' (letter :: rest) = some (.char c, rest) := by
  obtain ⟨pair, first, rfl⟩ := Option.map_eq_some_iff.1 found
  have same : pair.2 = c := by simpa using List.find?_some first
  have listed := List.mem_of_find?_eq_some first
  rw [← same]
  simp only [namedEscapes, List.mem_cons, List.not_mem_nil, or_false] at listed
  rcases listed with rfl | rfl | rfl | rfl | rfl | rfl | rfl <;> rfl

/-- A piece behind a backslash is read with what follows it. -/
theorem piecesWithin_escape {p : Piece} {code rest : List Char} (fuel : Nat)
    (read : escape? '"' code = some (p, rest)) :
    piecesWithin '"' (fuel + 1) ('\\' :: code) = (piecesWithin '"' fuel rest).map (p :: ·) := by
  rw [piecesWithin, if_neg (by decide), read, Option.map_eq_bind]
  rfl

theorem piecesWithin_plain {c : Char} (rest : List Char) (fuel : Nat) (inside : c ≠ '"')
    (ordinary : c ≠ '\\') (line : c ≠ '\n') :
    piecesWithin '"' (fuel + 1) (c :: rest) =
      (piecesWithin '"' fuel rest).map (Piece.char c :: ·) := by
  rw [piecesWithin]
  · rw [if_neg (by simpa using inside), Option.map_eq_bind]
    rfl
  · exact fun start => line start
  · exact fun start => ordinary start

/-- A piece is read back from the way it is written. -/
theorem piecesWithin_escaped {p : Piece} (rest : List Char) (fuel : Nat) (proper : p.Proper) :
    piecesWithin '"' (fuel + 1) (p.escaped ++ rest) =
      (piecesWithin '"' fuel rest).map (p :: ·) := by
  cases p with
  | byte b =>
      have high : pieceOfByte b.toNat = .byte b := by
        rw [pieceOfByte, if_neg (Nat.not_lt.2 proper)]
        exact congrArg _ (UInt8.ofNat_toNat)
      refine piecesWithin_escape fuel ?_
      rw [← high]
      exact escape?_byte rest b.toNat_lt
  | char c =>
      rw [Piece.escaped, escapeChar]
      split
      · next mark =>
          refine piecesWithin_escape fuel ?_
          simp only [Bool.or_eq_true, beq_iff_eq] at mark
          rcases mark with rfl | rfl <;> rfl
      · next unmarked =>
          simp only [Bool.or_eq_true, beq_iff_eq, not_or] at unmarked
          split
          · next printable =>
              refine piecesWithin_plain rest fuel unmarked.1 unmarked.2 ?_
              rintro rfl
              exact absurd printable (by decide)
          split
          · next letter found => exact piecesWithin_escape fuel (escape?_letter rest found)
          split
          · next small =>
              have low : pieceOfByte c.toNat = .char c := by
                rw [pieceOfByte, if_pos small, Char.ofNat_toNat]
              refine piecesWithin_escape fuel ?_
              rw [← low]
              exact escape?_byte rest (by omega)
          split
          · next small =>
              refine piecesWithin_escape fuel ?_
              rw [List.append_eq, List.cons_append, escape?_short]
              exact hexChar?_padded c rest (by decide) small
          · have bound : c.toNat < 2 ^ 32 := c.val.toNat_lt
            refine piecesWithin_escape fuel ?_
            rw [List.append_eq, List.cons_append, escape?_long]
            exact hexChar?_padded c rest (by decide) bound

theorem piecesWithin_closed {pieces : List Piece} (proper : ∀ p ∈ pieces, p.Proper) {fuel : Nat}
    (enough : pieces.length < fuel) :
    piecesWithin '"' fuel (pieces.flatMap Piece.escaped ++ ['"']) = some pieces := by
  obtain ⟨fuel, rfl⟩ : ∃ k, fuel = k + 1 := Nat.exists_eq_add_one.2 (by omega)
  induction pieces generalizing fuel with
  | nil => rfl
  | cons p pieces ih =>
      obtain ⟨first, later⟩ := List.forall_mem_cons.1 proper
      rw [List.length_cons] at enough
      obtain ⟨fuel, rfl⟩ : ∃ k, fuel = k + 1 := Nat.exists_eq_add_one.2 (by omega)
      rw [List.flatMap_cons, List.append_assoc, piecesWithin_escaped _ _ first,
        ih later fuel (by omega), Option.map_some]

/-! ## Literals -/

theorem escaped_filled (p : Piece) : 1 ≤ p.escaped.length := by
  cases p with
  | byte b => simp [Piece.escaped]
  | char c =>
      obtain ⟨first, more, code, -⟩ := (escapeChar_code c).filled
      simp [Piece.escaped, code]

/-- A literal that is written piece by piece denotes the pieces. -/
theorem unquotePieces?_written {pieces : List Piece} (proper : ∀ p ∈ pieces, p.Proper) :
    unquotePieces? (String.ofList ('"' :: pieces.flatMap Piece.escaped ++ ['"'])) =
      some pieces := by
  rw [unquotePieces?, String.toList_ofList]
  refine piecesWithin_closed proper ?_
  have long : pieces.length ≤ (pieces.flatMap Piece.escaped).length := by
    induction pieces with
    | nil => simp
    | cons p pieces ih =>
        have more := ih (List.forall_mem_cons.1 proper).2
        have filled := escaped_filled p
        rw [List.flatMap_cons, List.length_append, List.length_cons]
        omega
  have closed : ((pieces.flatMap Piece.escaped).append ['"']).length =
      (pieces.flatMap Piece.escaped).length + 1 := List.length_append
  omega

/-- The literal of any bytes denotes them. -/
theorem unquoteBytes?_quoteBytes (bytes : List UInt8) :
    unquoteBytes? (quoteBytes bytes) = some bytes := by
  obtain ⟨whole, proper⟩ := bytes_piecesFrom bytes
  rw [unquoteBytes?, quoteBytes, unquotePieces?_written proper, Option.map_some, whole]

theorem unquotePieces?_quote (s : String) :
    unquotePieces? (quote s) = some (s.toList.map Piece.char) := by
  have written : s.toList.flatMap escapeChar = (s.toList.map Piece.char).flatMap Piece.escaped := by
    rw [List.flatMap_map]
    rfl
  have proper : ∀ p ∈ s.toList.map Piece.char, p.Proper := by
    simp [Piece.Proper]
  rw [quote, written, unquotePieces?_written proper]

/-- The literal of a text denotes the bytes of the text. -/
theorem unquoteBytes?_quote (s : String) : unquoteBytes? (quote s) = some (toBytes s) := by
  have whole : (s.toList.map Piece.char).flatMap Piece.bytes = toBytes s := by
    rw [List.flatMap_map, toBytes_eq]
    refine congrArg (s.toList.flatMap ·) (funext fun c => ?_)
    rw [Piece.bytes, toBytes_eq, String.toList_singleton, List.flatMap_singleton]
  rw [unquoteBytes?, unquotePieces?_quote, Option.map_some, whole]

/-- The literal of a text denotes the text. -/
theorem unquote?_quote (s : String) : unquote? (quote s) = some s := by
  have chars : (s.toList.map Piece.char).mapM Piece.char? = some s.toList := by
    induction s.toList with
    | nil => rfl
    | cons c chars ih => rw [List.map_cons, List.mapM_cons, ih]; rfl
  rw [unquote?, unquotePieces?_quote, Option.map_some, Piece.text, chars]
  exact congrArg some (String.ofList_toList)

/-! ## Numbers -/

/-- The number that decimal digits denote.  They start with zero only if that is all. -/
def decimal? : List Char → Option Nat
  | '0' :: _ :: _ => none
  | digits => natural? digits

theorem digitChar_ne_zero {value : Nat} (positive : 0 < value) (small : value < 10) :
    value.digitChar ≠ '0' := by
  intro zero
  have read : digitValue? 10 value.digitChar = some value :=
    digitValue?_digitChar (by decide) small
  rw [zero] at read
  exact absurd (Option.some.inj read) (by omega)

/-- The digits of a number above zero start with another digit than zero. -/
theorem exists_toDigits_cons {n : Nat} (positive : 0 < n) :
    ∃ first more, Nat.toDigits 10 n = first :: more ∧ first ≠ '0' := by
  induction n using Nat.strongRecOn with
  | ind n ih =>
      rw [Nat.toDigits_eq_if (by decide)]
      split
      · next small => exact ⟨_, [], rfl, digitChar_ne_zero positive small⟩
      · next large =>
          obtain ⟨first, more, digits, other⟩ := ih (n / 10) (by omega) (by omega)
          exact ⟨first, more ++ [(n % 10).digitChar], by rw [digits, List.cons_append], other⟩

/-- The digits of a number above zero denote it. -/
theorem decimal?_toDigits {n : Nat} (positive : 0 < n) : decimal? (Nat.toDigits 10 n) = some n := by
  obtain ⟨first, more, digits, other⟩ := exists_toDigits_cons positive
  have read : digitsValue? 10 (Nat.toDigits 10 n) = some n :=
    digitsValue?_toDigits (by decide) (by decide) n
  rw [digits] at read ⊢
  rw [decimal?, natural?, if_neg (by simp), read]
  rintro start tail same
  exact other (List.cons.inj same).1

end ComposeStability.Text
