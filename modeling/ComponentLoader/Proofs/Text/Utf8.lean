import Mathlib.Tactic
import ComponentLoader.Text.Utf8

/-
  The UTF-8 form of a text can be read back, and lossy
  reading puts no replacement into what was encoded.

  Main declarations:
    * `high_encodeChar`
    * `headsFrom_encodeChar`
    * `decodeLossy_encode`
-/

------------------------------------------------------------
-- The Code Of A Character
------------------------------------------------------------

namespace ComponentLoader

namespace Utf8

/- A character is the one of its code. -/
theorem ofNat_val
    (c : Char) :
    Char.ofNat c.val.toNat = c :=
  Char.ofNat_toNat c

/- The code of a character is below the last plane's end. -/
theorem val_lt
    (c : Char) :
    c.val.toNat < 0x110000 := by
  rcases c.valid with hLow | ⟨_, hHigh⟩
  · have hLow' : c.val.toNat < 0xd800 := hLow
    omega
  · exact hHigh

/- The code of a character is not half a surrogate pair. -/
theorem val_not_surrogate
    (c : Char) :
    c.val.toNat < 0xd800 ∨ 0xdfff < c.val.toNat := by
  rcases c.valid with hLow | ⟨hHigh, _⟩
  · exact Or.inl hLow
  · exact Or.inr hHigh

/- A byte made of a small number is that number. -/
theorem toNat_ofNat_of_lt
    {n : Nat}
    (hSmall : n < 256) :
    (UInt8.ofNat n).toNat = n := by
  simpa using Nat.mod_eq_of_lt hSmall

------------------------------------------------------------
-- The Bytes Of A Character, By Their Number
------------------------------------------------------------

theorem encodeChar_one
    {c : Char}
    (hCode : c.val.toNat ≤ 0x7f) :
    String.utf8EncodeChar c =
      [UInt8.ofNat c.val.toNat] := by
  simp only [String.utf8EncodeChar, if_pos hCode]

theorem encodeChar_two
    {c : Char}
    (hLow : ¬ c.val.toNat ≤ 0x7f)
    (hCode : c.val.toNat ≤ 0x7ff) :
    String.utf8EncodeChar c =
      [UInt8.ofNat (c.val.toNat / 64 % 0x20 + 0xc0),
        UInt8.ofNat (c.val.toNat % 0x40 + 0x80)] := by
  simp only [String.utf8EncodeChar, if_neg hLow,
    if_pos hCode]

theorem encodeChar_three
    {c : Char}
    (hLow : ¬ c.val.toNat ≤ 0x7ff)
    (hCode : c.val.toNat ≤ 0xffff) :
    String.utf8EncodeChar c =
      [UInt8.ofNat (c.val.toNat / 4096 % 0x10 + 0xe0),
        UInt8.ofNat (c.val.toNat / 64 % 0x40 + 0x80),
        UInt8.ofNat (c.val.toNat % 0x40 + 0x80)] := by
  have hLow' : ¬ c.val.toNat ≤ 0x7f := by omega
  simp only [String.utf8EncodeChar, if_neg hLow',
    if_neg hLow, if_pos hCode]

theorem encodeChar_four
    {c : Char}
    (hLow : ¬ c.val.toNat ≤ 0xffff) :
    String.utf8EncodeChar c =
      [UInt8.ofNat (c.val.toNat / 262144 % 0x08 + 0xf0),
        UInt8.ofNat (c.val.toNat / 4096 % 0x40 + 0x80),
        UInt8.ofNat (c.val.toNat / 64 % 0x40 + 0x80),
        UInt8.ofNat (c.val.toNat % 0x40 + 0x80)] := by
  have hLow' : ¬ c.val.toNat ≤ 0x7f := by omega
  have hLow'' : ¬ c.val.toNat ≤ 0x7ff := by omega
  simp only [String.utf8EncodeChar, if_neg hLow',
    if_neg hLow'', if_neg hLow]

/-
  A character of ASCII is one byte, and every byte of any
  other character is above them.
-/
theorem high_encodeChar
    {c : Char}
    (hCode : ¬ c.val.toNat ≤ 0x7f)
    {b : UInt8}
    (hByte : b ∈ String.utf8EncodeChar c) :
    0x80 ≤ b.toNat := by
  have hTop := val_lt c
  by_cases hTwo : c.val.toNat ≤ 0x7ff
  · rw [encodeChar_two hCode hTwo] at hByte
    simp only [List.mem_cons, List.not_mem_nil,
      or_false] at hByte
    rcases hByte with rfl | rfl <;>
      rw [toNat_ofNat_of_lt (by omega)] <;> omega
  · by_cases hThree : c.val.toNat ≤ 0xffff
    · rw [encodeChar_three hTwo hThree] at hByte
      simp only [List.mem_cons, List.not_mem_nil,
        or_false] at hByte
      rcases hByte with rfl | rfl | rfl <;>
        rw [toNat_ofNat_of_lt (by omega)] <;> omega
    · rw [encodeChar_four hThree] at hByte
      simp only [List.mem_cons, List.not_mem_nil,
        or_false] at hByte
      rcases hByte with rfl | rfl | rfl | rfl <;>
        rw [toNat_ofNat_of_lt (by omega)] <;> omega

------------------------------------------------------------
-- Heads
------------------------------------------------------------

theorem head_one
    {n : Nat}
    (hCode : n ≤ 0x7f)
    (rest : List UInt8) :
    head n rest = character n 1 := by
  have hFirst : n < 0x80 := by omega
  simp only [head, if_pos hFirst]

/- Six bits make a byte that continues a character. -/
theorem isTail_mod
    (n : Nat) :
    isTail (n % 0x40 + 0x80) = true := by
  simp only [isTail, Bool.and_eq_true, decide_eq_true_eq]
  omega

theorem head_two
    {n : Nat}
    (hLow : ¬ n ≤ 0x7f)
    (hCode : n ≤ 0x7ff)
    (rest : List UInt8) :
    head (n / 64 % 0x20 + 0xc0)
        (UInt8.ofNat (n % 0x40 + 0x80) :: rest) =
      character n 2 := by
  have hTail : (UInt8.ofNat (n % 0x40 + 0x80)).toNat =
      n % 0x40 + 0x80 := toNat_ofNat_of_lt (by omega)
  have hFirst : ¬ n / 64 % 0x20 + 0xc0 < 0x80 := by omega
  have hTwo : (decide (0xc2 ≤ n / 64 % 0x20 + 0xc0) &&
      decide (n / 64 % 0x20 + 0xc0 ≤ 0xdf)) = true := by
    simp only [Bool.and_eq_true, decide_eq_true_eq]
    omega
  have hBack : (n / 64 % 0x20 + 0xc0 - 0xc0) * 0x40 +
      (n % 0x40 + 0x80 - 0x80) = n := by omega
  simp only [head, if_neg hFirst, if_pos hTwo, hTail,
    if_pos (isTail_mod n), hBack]

/- The second byte of a character of three is in bounds. -/
theorem secondBounds_three
    {n : Nat}
    (hLow : ¬ n ≤ 0x7ff)
    (hCode : n ≤ 0xffff)
    (hHalf : n < 0xd800 ∨ 0xdfff < n) :
    (secondBounds (n / 4096 % 0x10 + 0xe0)).1 ≤
        n / 64 % 0x40 + 0x80 ∧
      n / 64 % 0x40 + 0x80 ≤
        (secondBounds (n / 4096 % 0x10 + 0xe0)).2 := by
  simp only [secondBounds, beq_iff_eq]
  split_ifs <;> dsimp only <;> omega

/- The second byte of a character of four is in bounds. -/
theorem secondBounds_four
    {n : Nat}
    (hLow : ¬ n ≤ 0xffff)
    (hCode : n < 0x110000) :
    (secondBounds (n / 262144 % 0x08 + 0xf0)).1 ≤
        n / 4096 % 0x40 + 0x80 ∧
      n / 4096 % 0x40 + 0x80 ≤
        (secondBounds (n / 262144 % 0x08 + 0xf0)).2 := by
  simp only [secondBounds, beq_iff_eq]
  split_ifs <;> dsimp only <;> omega

theorem head_three
    {n : Nat}
    (hLow : ¬ n ≤ 0x7ff)
    (hCode : n ≤ 0xffff)
    (hHalf : n < 0xd800 ∨ 0xdfff < n)
    (rest : List UInt8) :
    head (n / 4096 % 0x10 + 0xe0)
        (UInt8.ofNat (n / 64 % 0x40 + 0x80) ::
          UInt8.ofNat (n % 0x40 + 0x80) :: rest) =
      character n 3 := by
  have hSecond :
      (UInt8.ofNat (n / 64 % 0x40 + 0x80)).toNat =
        n / 64 % 0x40 + 0x80 := toNat_ofNat_of_lt (by omega)
  have hTail : (UInt8.ofNat (n % 0x40 + 0x80)).toNat =
      n % 0x40 + 0x80 := toNat_ofNat_of_lt (by omega)
  have hFirst : ¬ n / 4096 % 0x10 + 0xe0 < 0x80 := by omega
  have hTwo : ¬ (decide (0xc2 ≤ n / 4096 % 0x10 + 0xe0) &&
      decide (n / 4096 % 0x10 + 0xe0 ≤ 0xdf)) = true := by
    simp only [Bool.and_eq_true, decide_eq_true_eq]
    omega
  have hThree : (decide (0xe0 ≤ n / 4096 % 0x10 + 0xe0) &&
      decide (n / 4096 % 0x10 + 0xe0 ≤ 0xef)) = true := by
    simp only [Bool.and_eq_true, decide_eq_true_eq]
    omega
  have hBounds := secondBounds_three hLow hCode hHalf
  have hBack : (n / 4096 % 0x10 + 0xe0 - 0xe0) * 0x1000 +
      (n / 64 % 0x40 + 0x80 - 0x80) * 0x40 +
      (n % 0x40 + 0x80 - 0x80) = n := by omega
  simp only [head, if_neg hFirst, if_neg hTwo,
    if_pos hThree, hSecond, hBounds.1, hBounds.2, hTail,
    isTail_mod, hBack, decide_true, Bool.and_self, if_true]

theorem head_four
    {n : Nat}
    (hLow : ¬ n ≤ 0xffff)
    (hCode : n < 0x110000)
    (rest : List UInt8) :
    head (n / 262144 % 0x08 + 0xf0)
        (UInt8.ofNat (n / 4096 % 0x40 + 0x80) ::
          UInt8.ofNat (n / 64 % 0x40 + 0x80) ::
          UInt8.ofNat (n % 0x40 + 0x80) :: rest) =
      character n 4 := by
  have hSecond :
      (UInt8.ofNat (n / 4096 % 0x40 + 0x80)).toNat =
        n / 4096 % 0x40 + 0x80 :=
    toNat_ofNat_of_lt (by omega)
  have hThird :
      (UInt8.ofNat (n / 64 % 0x40 + 0x80)).toNat =
        n / 64 % 0x40 + 0x80 := toNat_ofNat_of_lt (by omega)
  have hTail : (UInt8.ofNat (n % 0x40 + 0x80)).toNat =
      n % 0x40 + 0x80 := toNat_ofNat_of_lt (by omega)
  have hFirst : ¬ n / 262144 % 0x08 + 0xf0 < 0x80 := by
    omega
  have hTwo : ¬ (decide (0xc2 ≤ n / 262144 % 0x08 + 0xf0) &&
      decide (n / 262144 % 0x08 + 0xf0 ≤ 0xdf)) = true := by
    simp only [Bool.and_eq_true, decide_eq_true_eq]
    omega
  have hThree :
      ¬ (decide (0xe0 ≤ n / 262144 % 0x08 + 0xf0) &&
        decide (n / 262144 % 0x08 + 0xf0 ≤ 0xef)) =
          true := by
    simp only [Bool.and_eq_true, decide_eq_true_eq]
    omega
  have hFour : (decide (0xf0 ≤ n / 262144 % 0x08 + 0xf0) &&
      decide (n / 262144 % 0x08 + 0xf0 ≤ 0xf4)) = true := by
    simp only [Bool.and_eq_true, decide_eq_true_eq]
    omega
  have hBounds := secondBounds_four hLow hCode
  have hBack : (n / 262144 % 0x08 + 0xf0 - 0xf0) * 0x40000 +
      (n / 4096 % 0x40 + 0x80 - 0x80) * 0x1000 +
      (n / 64 % 0x40 + 0x80 - 0x80) * 0x40 +
      (n % 0x40 + 0x80 - 0x80) = n := by omega
  simp only [head, if_neg hFirst, if_neg hTwo,
    if_neg hThree, if_pos hFour, hSecond, hBounds.1,
    hBounds.2, hThird, hTail, isTail_mod, hBack,
    decide_true, Bool.and_self, if_true]

------------------------------------------------------------
-- Reading Back
------------------------------------------------------------

/- The first head of a character's bytes is that character. -/
theorem headsFrom_encodeChar
    (c : Char)
    (rest : List UInt8) :
    headsFrom 0 (String.utf8EncodeChar c ++ rest) =
      character c.val.toNat
          (String.utf8EncodeChar c).length ::
        headsFrom 0 rest := by
  have hTop := val_lt c
  by_cases hOne : c.val.toNat ≤ 0x7f
  · rw [encodeChar_one hOne]
    simp only [List.cons_append, List.nil_append, headsFrom,
      toNat_ofNat_of_lt (show c.val.toNat < 256 by omega),
      head_one hOne]
    rfl
  · by_cases hTwo : c.val.toNat ≤ 0x7ff
    · rw [encodeChar_two hOne hTwo]
      simp only [List.cons_append, List.nil_append,
        headsFrom,
        toNat_ofNat_of_lt (show c.val.toNat / 64 % 0x20 +
          0xc0 < 256 by omega),
        head_two hOne hTwo]
      rfl
    · by_cases hThree : c.val.toNat ≤ 0xffff
      · rw [encodeChar_three hTwo hThree]
        simp only [List.cons_append, List.nil_append,
          headsFrom,
          toNat_ofNat_of_lt (show c.val.toNat / 4096 % 0x10 +
            0xe0 < 256 by omega),
          head_three hTwo hThree (val_not_surrogate c)]
        rfl
      · rw [encodeChar_four hThree]
        simp only [List.cons_append, List.nil_append,
          headsFrom,
          toNat_ofNat_of_lt (show c.val.toNat / 262144 %
            0x08 + 0xf0 < 256 by omega),
          head_four hThree hTop]
        rfl

/- Lossy reading gives back what was encoded. -/
theorem decodeLossy_encode
    (t : Text) :
    decodeLossy (encode t) = t := by
  induction t with
  | nil => rfl
  | cons c cs ih =>
      have hStep : encode (c :: cs) =
          String.utf8EncodeChar c ++ encode cs := rfl
      simp only [decodeLossy, heads] at ih ⊢
      rw [hStep, headsFrom_encodeChar, List.map_cons, ih]
      simp only [character, Option.getD_some, ofNat_val]

end Utf8

end ComponentLoader
