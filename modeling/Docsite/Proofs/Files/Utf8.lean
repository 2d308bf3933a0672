import Docsite.Files.Utf8

/-!
# Docsite.Proofs.Files.Utf8

What is encoded can be decoded.

A character is read byte by byte, so the theory follows the reader: what the first byte
of an encoded character calls for, one step for each further byte, and one equation for
each number of bytes.  Encoded characters never stop the reader: their second byte lies
between the bounds that the first one sets.
-/

namespace Docsite.Files.Utf8

/-! ## one byte -/

theorem decodeFrom_lead {position : Nat} {b : UInt8} {bs : List UInt8} {l : Lead}
    (h : lead? b.toNat = some l) (hl : l.following ≠ 0) :
    decodeFrom position none (b :: bs)
      = decodeFrom (position + 1) (some ⟨l.following, l.least, l.greatest, l.bits, b, 1⟩) bs := by
  simp [decodeFrom, h, hl]

theorem decodeFrom_owed {position : Nat} {p : Pending} {b : UInt8} {bs : List UInt8}
    (h : p.least ≤ b.toNat ∧ b.toNat ≤ p.greatest) (ho : p.owed ≠ 1) :
    decodeFrom position (some p) (b :: bs)
      = decodeFrom (position + 1)
          (some ⟨p.owed - 1, 0x80, 0xBF, p.bits * 64 + (b.toNat - 0x80), p.first, p.count + 1⟩) bs := by
  simp [decodeFrom, h, ho]

theorem decodeFrom_last {position : Nat} {p : Pending} {b : UInt8} {bs : List UInt8}
    (h : p.least ≤ b.toNat ∧ b.toNat ≤ p.greatest) (ho : p.owed = 1) :
    decodeFrom position (some p) (b :: bs)
      = (decodeFrom (position + 1) none bs).map
          (Char.ofNat (p.bits * 64 + (b.toNat - 0x80)) :: ·) := by
  simp [decodeFrom, h, ho]

/-! ## first bytes -/

theorem lead?_two {v : Nat} (h : 0x7F < v) (h' : v ≤ 0x7FF) :
    lead? (v / 64 % 32 + 0xC0) = some ⟨1, 0x80, 0xBF, v / 64⟩ := by
  have e : v / 64 % 32 = v / 64 := by omega
  rw [e, lead?, if_neg (by omega), if_neg (by omega), if_pos (by omega)]
  simp

theorem lead?_three {v : Nat} (h : 0x7FF < v) (h' : v ≤ 0xFFFF) (hv : v < 0xD800 ∨ 0xDFFF < v) :
    ∃ l, lead? (v / 4096 % 16 + 0xE0) = some l ∧ l.following = 2 ∧ l.bits = v / 4096
      ∧ l.least ≤ v / 64 % 64 + 0x80 ∧ v / 64 % 64 + 0x80 ≤ l.greatest := by
  have e : v / 4096 % 16 = v / 4096 := by omega
  rw [e, lead?, if_neg (by omega), if_neg (by omega), if_neg (by omega)]
  by_cases h0 : v / 4096 = 0
  · exact ⟨_, if_pos (by omega), rfl, h0.symm, by simp; omega, by simp; omega⟩
  · rw [if_neg (by omega)]
    by_cases hd : v / 4096 = 13
    · exact ⟨_, if_pos (by omega), rfl, hd.symm, by simp, by simp; omega⟩
    · rw [if_neg (by omega), if_pos (by omega)]
      exact ⟨_, rfl, rfl, by simp, by simp, by simp; omega⟩

theorem lead?_four {v : Nat} (h : 0xFFFF < v) (h' : v < 0x110000) :
    ∃ l, lead? (v / 262144 % 8 + 0xF0) = some l ∧ l.following = 3 ∧ l.bits = v / 262144
      ∧ l.least ≤ v / 4096 % 64 + 0x80 ∧ v / 4096 % 64 + 0x80 ≤ l.greatest := by
  have e : v / 262144 % 8 = v / 262144 := by omega
  rw [e, lead?, if_neg (by omega), if_neg (by omega), if_neg (by omega), if_neg (by omega),
    if_neg (by omega), if_neg (by omega)]
  by_cases h0 : v / 262144 = 0
  · exact ⟨_, if_pos (by omega), rfl, h0.symm, by simp; omega, by simp; omega⟩
  · rw [if_neg (by omega)]
    by_cases h4 : v / 262144 = 4
    · rw [if_neg (by omega), if_pos (by omega)]
      exact ⟨_, rfl, rfl, h4.symm, by simp, by simp; omega⟩
    · rw [if_pos (by omega)]
      exact ⟨_, rfl, rfl, by simp, by simp, by simp; omega⟩

/-! ## characters and texts -/

theorem decodeFrom_two {position v : Nat} {b₁ b₂ : UInt8} {bs : List UInt8}
    (h : 0x7F < v) (h' : v ≤ 0x7FF)
    (h₁ : b₁.toNat = v / 64 % 32 + 0xC0) (h₂ : b₂.toNat = v % 64 + 0x80) :
    decodeFrom position none (b₁ :: b₂ :: bs)
      = (decodeFrom (position + 2) none bs).map (Char.ofNat v :: ·) := by
  have bits : v / 64 * 64 + (b₂.toNat - 0x80) = v := by omega
  rw [decodeFrom_lead (h₁ ▸ lead?_two h h') (by simp),
    decodeFrom_last ⟨by simp; omega, by simp; omega⟩ rfl, bits]

theorem decodeFrom_three {position v : Nat} {b₁ b₂ b₃ : UInt8} {bs : List UInt8}
    (h : 0x7FF < v) (h' : v ≤ 0xFFFF) (hv : v < 0xD800 ∨ 0xDFFF < v)
    (h₁ : b₁.toNat = v / 4096 % 16 + 0xE0) (h₂ : b₂.toNat = v / 64 % 64 + 0x80)
    (h₃ : b₃.toNat = v % 64 + 0x80) :
    decodeFrom position none (b₁ :: b₂ :: b₃ :: bs)
      = (decodeFrom (position + 3) none bs).map (Char.ofNat v :: ·) := by
  obtain ⟨l, hl, hf, hb, least, greatest⟩ := lead?_three h h' hv
  have bits : (l.bits * 64 + (b₂.toNat - 0x80)) * 64 + (b₃.toNat - 0x80) = v := by omega
  rw [decodeFrom_lead (h₁ ▸ hl) (by omega), decodeFrom_owed ⟨h₂ ▸ least, h₂ ▸ greatest⟩ (by simp [hf]),
    decodeFrom_last ⟨by simp; omega, by simp; omega⟩ (by simp [hf]), bits]

theorem decodeFrom_four {position v : Nat} {b₁ b₂ b₃ b₄ : UInt8} {bs : List UInt8}
    (h : 0xFFFF < v) (h' : v < 0x110000)
    (h₁ : b₁.toNat = v / 262144 % 8 + 0xF0) (h₂ : b₂.toNat = v / 4096 % 64 + 0x80)
    (h₃ : b₃.toNat = v / 64 % 64 + 0x80) (h₄ : b₄.toNat = v % 64 + 0x80) :
    decodeFrom position none (b₁ :: b₂ :: b₃ :: b₄ :: bs)
      = (decodeFrom (position + 4) none bs).map (Char.ofNat v :: ·) := by
  obtain ⟨l, hl, hf, hb, least, greatest⟩ := lead?_four h h'
  have bits : ((l.bits * 64 + (b₂.toNat - 0x80)) * 64 + (b₃.toNat - 0x80)) * 64
      + (b₄.toNat - 0x80) = v := by omega
  rw [decodeFrom_lead (h₁ ▸ hl) (by omega), decodeFrom_owed ⟨h₂ ▸ least, h₂ ▸ greatest⟩ (by simp [hf]),
    decodeFrom_owed ⟨by simp; omega, by simp; omega⟩ (by simp [hf]),
    decodeFrom_last ⟨by simp; omega, by simp; omega⟩ (by simp [hf]), bits]

/-- The bytes of a character are read as that character. -/
theorem decodeFrom_utf8EncodeChar (position : Nat) (c : Char) (bs : List UInt8) :
    decodeFrom position none (String.utf8EncodeChar c ++ bs)
      = (decodeFrom (position + (String.utf8EncodeChar c).length) none bs).map (c :: ·) := by
  have hv : c.toNat < 0xD800 ∨ (0xDFFF < c.toNat ∧ c.toNat < 0x110000) := c.valid
  have hc : Char.ofNat c.toNat = c := Char.ofNat_toNat c
  have e : c.val.toNat = c.toNat := rfl
  simp only [String.utf8EncodeChar, e]
  generalize c.toNat = v at hv hc
  subst hc
  split
  · have hl : lead? (v % 256) = some ⟨0, 0, 0, v⟩ := by
      rw [lead?, if_pos (by omega), Nat.mod_eq_of_lt (by omega)]
    simp [decodeFrom, hl]
  · split
    · exact decodeFrom_two (by omega) (by omega) (by simp; omega) (by simp; omega)
    · split
      · exact decodeFrom_three (by omega) (by omega) (by omega) (by simp; omega) (by simp; omega)
          (by simp; omega)
      · exact decodeFrom_four (by omega) (by omega) (by simp; omega) (by simp; omega)
          (by simp; omega) (by simp; omega)

/-- What is encoded can be decoded. -/
theorem decode_encode (s : List Char) : decode (encode s) = .ok s := by
  suffices h : ∀ position, decodeFrom position none (encode s) = .ok s from h 0
  induction s with
  | nil => intro position; rfl
  | cons c cs ih =>
    intro position
    rw [encode, List.flatMap_cons, decodeFrom_utf8EncodeChar, ← encode, ih]
    rfl

end Docsite.Files.Utf8
