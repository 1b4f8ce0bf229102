import Mathlib.Tactic
import ComponentLoader.Proofs.Text.Utf8

/-
  The UTF-8 forms of texts are in the order of the texts:
  a character with a smaller code has a smaller byte where
  the two forms first differ.

  Main declarations:
    * `Utf8.encodeChar_append_lt`
    * `Utf8.encode_lt_of_lt`
-/

------------------------------------------------------------
-- Bytes By Their Number
------------------------------------------------------------

namespace ComponentLoader

namespace Utf8

/- Of two forms, the one with the smaller byte is first. -/
theorem ofNat_cons_lt_iff
    {n m : Nat}
    (hFirst : n < 256)
    (hSecond : m < 256)
    (rest more : List UInt8) :
    UInt8.ofNat n :: rest < UInt8.ofNat m :: more ↔
      n < m ∨ n = m ∧ rest < more := by
  rw [List.cons_lt_cons_iff, UInt8.lt_iff_toNat_lt,
    ← UInt8.toNat_inj, toNat_ofNat_of_lt hFirst,
    toNat_ofNat_of_lt hSecond]

/- The first byte of a character, by the number of bytes. -/
theorem encodeChar_cases
    (c : Char) :
    (c.val.toNat ≤ 0x7f ∧
        String.utf8EncodeChar c =
          [UInt8.ofNat c.val.toNat]) ∨
      (0x7f < c.val.toNat ∧ c.val.toNat ≤ 0x7ff ∧
        String.utf8EncodeChar c =
          [UInt8.ofNat (c.val.toNat / 64 + 0xc0),
            UInt8.ofNat (c.val.toNat % 0x40 + 0x80)]) ∨
      (0x7ff < c.val.toNat ∧ c.val.toNat ≤ 0xffff ∧
        String.utf8EncodeChar c =
          [UInt8.ofNat (c.val.toNat / 4096 + 0xe0),
            UInt8.ofNat (c.val.toNat / 64 % 0x40 + 0x80),
            UInt8.ofNat (c.val.toNat % 0x40 + 0x80)]) ∨
      (0xffff < c.val.toNat ∧ c.val.toNat < 0x110000 ∧
        String.utf8EncodeChar c =
          [UInt8.ofNat (c.val.toNat / 262144 + 0xf0),
            UInt8.ofNat (c.val.toNat / 4096 % 0x40 + 0x80),
            UInt8.ofNat (c.val.toNat / 64 % 0x40 + 0x80),
            UInt8.ofNat (c.val.toNat % 0x40 + 0x80)]) := by
  have hTop := val_lt c
  by_cases hOne : c.val.toNat ≤ 0x7f
  · exact Or.inl ⟨hOne, encodeChar_one hOne⟩
  · by_cases hTwo : c.val.toNat ≤ 0x7ff
    · refine Or.inr (Or.inl ⟨by omega, hTwo, ?_⟩)
      rw [encodeChar_two hOne hTwo,
        Nat.mod_eq_of_lt (by omega : c.val.toNat / 64 < 32)]
    · by_cases hThree : c.val.toNat ≤ 0xffff
      · refine Or.inr (Or.inr (Or.inl
          ⟨by omega, hThree, ?_⟩))
        rw [encodeChar_three hTwo hThree, Nat.mod_eq_of_lt
          (by omega : c.val.toNat / 4096 < 16)]
      · refine Or.inr (Or.inr (Or.inr
          ⟨by omega, hTop, ?_⟩))
        rw [encodeChar_four hThree, Nat.mod_eq_of_lt
          (by omega : c.val.toNat / 262144 < 8)]

------------------------------------------------------------
-- Texts
------------------------------------------------------------

/-
  A smaller character is first, whatever follows.  Of two
  characters with different numbers of bytes, the first
  byte decides.
-/
theorem encodeChar_append_lt
    {c d : Char}
    (hLess : c < d)
    (rest more : List UInt8) :
    String.utf8EncodeChar c ++ rest <
      String.utf8EncodeChar d ++ more := by
  have hCode : c.val.toNat < d.val.toNat := hLess
  rcases encodeChar_cases c with
    ⟨hC, hBytes⟩ | ⟨hC, hC', hBytes⟩ |
      ⟨hC, hC', hBytes⟩ | ⟨hC, hC', hBytes⟩ <;>
  rcases encodeChar_cases d with
    ⟨hD, hBytes'⟩ | ⟨hD, hD', hBytes'⟩ |
      ⟨hD, hD', hBytes'⟩ | ⟨hD, hD', hBytes'⟩ <;>
  rw [hBytes, hBytes'] <;>
  simp (disch := omega) only [List.cons_append,
    List.nil_append, ofNat_cons_lt_iff] <;>
  omega

/- The form of a smaller text is the smaller form. -/
theorem encode_lt_of_lt
    {a b : Text}
    (hLess : a < b) :
    encode a < encode b := by
  induction hLess with
  | @nil d ds =>
      rcases encodeChar_cases d with
        ⟨-, hBytes⟩ | ⟨-, -, hBytes⟩ | ⟨-, -, hBytes⟩ |
          ⟨-, -, hBytes⟩ <;>
      simp only [encode, List.flatMap_nil,
        List.flatMap_cons, hBytes, List.cons_append] <;>
      exact List.nil_lt_cons _ _
  | cons hRest ih => exact List.append_left_lt ih
  | rel hChars => exact encodeChar_append_lt hChars _ _

end Utf8

end ComponentLoader
