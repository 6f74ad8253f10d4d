import CssTypings.Text.Utf8
import Mathlib.Logic.Basic

/-!
# Texts survive their encoding

Whatever is written as bytes is read back unchanged: `decode_encode`. The bytes of one character are
read one after the other (`decodeFrom_encodeChar`), and how many there are depends on the size of
its code point. The two ranges that narrow the second byte are those of the least code points that
need three or four bytes, of the surrogates, and of the greatest code point.
-/

namespace CssTypings.Utf8

theorem toNat_ofNat_of_lt {n : Nat} (h : n < 256) : (UInt8.ofNat n).toNat = n := by
  rw [UInt8.toNat_ofNat']
  exact Nat.mod_eq_of_lt h

variable {position n : Nat} {p : Pending} {rest : Bytes}

/-! ### One byte -/

theorem decodeFrom_ascii (h : n < 0x80) (position : Nat) (rest : Bytes) :
    decodeFrom position none (UInt8.ofNat n :: rest) =
      (decodeFrom (position + 1) none rest).map (Char.ofNat n :: ·) := by
  have hbyte : (UInt8.ofNat n).toNat = n := toNat_ofNat_of_lt (by omega)
  rw [decodeFrom, if_pos (by omega), hbyte]

theorem decodeFrom_lead (h : 0x80 ≤ n) (hlt : n < 256)
    (hlead : lead? (UInt8.ofNat n) position = some p) (rest : Bytes) :
    decodeFrom position none (UInt8.ofNat n :: rest) =
      decodeFrom (position + 1) (some p) rest := by
  have hbyte : (UInt8.ofNat n).toNat = n := toNat_ofNat_of_lt hlt
  rw [decodeFrom, if_neg (by omega), hlead]

theorem decodeFrom_last (hlow : p.low ≤ n) (hhigh : n ≤ p.high) (hlt : n < 256)
    (hmissing : p.missing = 0) (position : Nat) (rest : Bytes) :
    decodeFrom position (some p) (UInt8.ofNat n :: rest) =
      (decodeFrom (position + 1) none rest).map
        (Char.ofNat (p.bits * 0x40 + (n - 0x80)) :: ·) := by
  have hbyte : (UInt8.ofNat n).toNat = n := toNat_ofNat_of_lt hlt
  rw [decodeFrom, hbyte, if_pos ⟨hlow, hhigh⟩, hmissing]

theorem decodeFrom_middle {missing : Nat} (hlow : p.low ≤ n) (hhigh : n ≤ p.high) (hlt : n < 256)
    (hmissing : p.missing = missing + 1) (position : Nat) (rest : Bytes) :
    decodeFrom position (some p) (UInt8.ofNat n :: rest) =
      decodeFrom (position + 1)
        (some ⟨p.byte, p.start, p.bits * 0x40 + (n - 0x80), missing, 0x80, 0xBF⟩) rest := by
  have hbyte : (UInt8.ofNat n).toNat = n := toNat_ofNat_of_lt hlt
  rw [decodeFrom, hbyte, if_pos ⟨hlow, hhigh⟩, hmissing]

/-! ### One character -/

variable {v : Nat}

theorem decodeFrom_two (h : 127 < v) (h' : v ≤ 2047) (position : Nat) (rest : Bytes) :
    decodeFrom position none
        (UInt8.ofNat (v / 64 % 32 + 192) :: UInt8.ofNat (v % 64 + 128) :: rest) =
      (decodeFrom (position + 2) none rest).map (Char.ofNat v :: ·) := by
  have hlead : lead? (UInt8.ofNat (v / 64 % 32 + 192)) position =
      some ⟨UInt8.ofNat (v / 64 % 32 + 192), position, v / 64, 0, 0x80, 0xBF⟩ := by
    have hbits : v / 64 % 32 + 192 - 0xC0 = v / 64 := by omega
    rw [lead?, toNat_ofNat_of_lt (by omega), if_neg (by omega), if_pos (by omega), hbits]
  have hbits : v / 64 * 0x40 + (v % 64 + 128 - 0x80) = v := by omega
  rw [decodeFrom_lead (by omega) (by omega) hlead,
    decodeFrom_last (by simp) (by simp; omega) (by omega) rfl, hbits]

/-- The two bytes behind the first of three, whatever range the first of the two is in. -/
theorem decodeFrom_three (hlead : lead? (UInt8.ofNat (v / 4096 % 16 + 224)) position = some p)
    (hbits : p.bits = v / 4096) (hmissing : p.missing = 1) (hlow : p.low ≤ v / 64 % 64 + 128)
    (hhigh : v / 64 % 64 + 128 ≤ p.high) (rest : Bytes) :
    decodeFrom position none (UInt8.ofNat (v / 4096 % 16 + 224) ::
        UInt8.ofNat (v / 64 % 64 + 128) :: UInt8.ofNat (v % 64 + 128) :: rest) =
      (decodeFrom (position + 3) none rest).map (Char.ofNat v :: ·) := by
  have hv : (p.bits * 0x40 + (v / 64 % 64 + 128 - 0x80)) * 0x40 + (v % 64 + 128 - 0x80) = v := by
    omega
  rw [decodeFrom_lead (by omega) (by omega) hlead,
    decodeFrom_middle hlow hhigh (by omega) hmissing,
    decodeFrom_last (by simp) (by simp; omega) (by omega) rfl]
  simp only [hv]

/-- The three bytes behind the first of four. -/
theorem decodeFrom_four (hlead : lead? (UInt8.ofNat (v / 262144 % 8 + 240)) position = some p)
    (hbits : p.bits = v / 262144) (hmissing : p.missing = 2)
    (hlow : p.low ≤ v / 4096 % 64 + 128) (hhigh : v / 4096 % 64 + 128 ≤ p.high)
    (rest : Bytes) :
    decodeFrom position none (UInt8.ofNat (v / 262144 % 8 + 240) ::
        UInt8.ofNat (v / 4096 % 64 + 128) :: UInt8.ofNat (v / 64 % 64 + 128) ::
        UInt8.ofNat (v % 64 + 128) :: rest) =
      (decodeFrom (position + 4) none rest).map (Char.ofNat v :: ·) := by
  have hv : ((p.bits * 0x40 + (v / 4096 % 64 + 128 - 0x80)) * 0x40 +
      (v / 64 % 64 + 128 - 0x80)) * 0x40 + (v % 64 + 128 - 0x80) = v := by
    omega
  rw [decodeFrom_lead (by omega) (by omega) hlead,
    decodeFrom_middle hlow hhigh (by omega) hmissing,
    decodeFrom_middle (by simp) (by simp; omega) (by omega) rfl,
    decodeFrom_last (by simp) (by simp; omega) (by omega) rfl]
  simp only [hv]

/-- What the first of three bytes asks for. -/
theorem exists_lead_three (h : 2047 < v) (h' : v ≤ 65535)
    (hvalid : v < 0xD800 ∨ 0xDFFF < v) (position : Nat) :
    ∃ p, lead? (UInt8.ofNat (v / 4096 % 16 + 224)) position = some p ∧ p.bits = v / 4096 ∧
      p.missing = 1 ∧ p.low ≤ v / 64 % 64 + 128 ∧ v / 64 % 64 + 128 ≤ p.high := by
  rw [lead?, toNat_ofNat_of_lt (by omega)]
  rw [if_neg (by omega), if_neg (by omega)]
  by_cases hleast : v / 4096 % 16 + 224 = 0xE0
  · rw [if_pos hleast]
    refine ⟨_, rfl, ?_, rfl, ?_, ?_⟩ <;> dsimp only <;> omega
  · rw [if_neg hleast]
    by_cases hsurrogate : v / 4096 % 16 + 224 = 0xED
    · rw [if_pos hsurrogate]
      refine ⟨_, rfl, ?_, rfl, ?_, ?_⟩ <;> dsimp only <;> omega
    · rw [if_neg hsurrogate, if_pos (by omega)]
      refine ⟨_, rfl, ?_, rfl, ?_, ?_⟩ <;> dsimp only <;> omega

/-- What the first of four bytes asks for. -/
theorem exists_lead_four (h : 65535 < v) (h' : v < 0x110000) (position : Nat) :
    ∃ p, lead? (UInt8.ofNat (v / 262144 % 8 + 240)) position = some p ∧ p.bits = v / 262144 ∧
      p.missing = 2 ∧ p.low ≤ v / 4096 % 64 + 128 ∧ v / 4096 % 64 + 128 ≤ p.high := by
  rw [lead?, toNat_ofNat_of_lt (by omega)]
  rw [if_neg (by omega), if_neg (by omega), if_neg (by omega), if_neg (by omega),
    if_neg (by omega)]
  by_cases hleast : v / 262144 % 8 + 240 = 0xF0
  · rw [if_pos hleast]
    refine ⟨_, rfl, ?_, rfl, ?_, ?_⟩ <;> dsimp only <;> omega
  · rw [if_neg hleast]
    by_cases hmiddle : v / 262144 % 8 + 240 < 0xF4
    · rw [if_pos hmiddle]
      refine ⟨_, rfl, ?_, rfl, ?_, ?_⟩ <;> dsimp only <;> omega
    · rw [if_neg hmiddle, if_pos (by omega)]
      refine ⟨_, rfl, ?_, rfl, ?_, ?_⟩ <;> dsimp only <;> omega

/-- **The bytes of a character are read as this character**, whatever follows them. -/
theorem decodeFrom_encodeChar (c : Char) (position : Nat) (rest : Bytes) :
    ∃ next, decodeFrom position none (String.utf8EncodeChar c ++ rest) =
      (decodeFrom next none rest).map (c :: ·) := by
  have hvalid : c.val.toNat < 0xD800 ∨ 0xDFFF < c.val.toNat ∧ c.val.toNat < 0x110000 := c.valid
  have hchar : Char.ofNat c.val.toNat = c := Char.ofNat_toNat c
  rw [String.utf8EncodeChar]
  generalize c.val.toNat = v at hvalid hchar ⊢
  rw [← hchar]
  by_cases h1 : v ≤ 127
  · rw [if_pos h1]
    exact ⟨position + 1, decodeFrom_ascii (by omega) position rest⟩
  · by_cases h2 : v ≤ 2047
    · rw [if_neg h1, if_pos h2]
      exact ⟨position + 2, decodeFrom_two (by omega) h2 position rest⟩
    · by_cases h3 : v ≤ 65535
      · obtain ⟨p, hlead, hbits, hmissing, hlow, hhigh⟩ :=
          exists_lead_three (v := v) (by omega) h3 (by omega) position
        rw [if_neg h1, if_neg h2, if_pos h3]
        exact ⟨position + 3, decodeFrom_three hlead hbits hmissing hlow hhigh rest⟩
      · obtain ⟨p, hlead, hbits, hmissing, hlow, hhigh⟩ :=
          exists_lead_four (v := v) (by omega) (by omega) position
        rw [if_neg h1, if_neg h2, if_neg h3]
        exact ⟨position + 4, decodeFrom_four hlead hbits hmissing hlow hhigh rest⟩

/-! ### Texts -/

/-- **Texts survive their encoding.** -/
theorem decode_encode (t : Text) : decode (encode t) = .ok t := by
  have hfrom (position : Nat) : decodeFrom position none (encode t) = .ok t := by
    induction t generalizing position with
    | nil => rfl
    | cons c t ih =>
      obtain ⟨next, hchar⟩ := decodeFrom_encodeChar c position (encode t)
      rw [encode, List.flatMap_cons]
      exact hchar.trans (by rw [ih]; rfl)
  exact hfrom 0

end CssTypings.Utf8
