import ComponentLoader.Proofs.Text.Bytes
import ComponentLoader.Query.Escape

/-
  Escapes in a query: what is written with them is read
  back, and nothing written splits a query.

  Main declarations:
    * `unescape_escape`
    * `mem_escape`
    * `escape_append`
-/

------------------------------------------------------------
-- Written Characters
------------------------------------------------------------

namespace ComponentLoader

namespace Query

/- The characters that are written as escapes. -/
def isEscaped
    (c : Char) : Bool :=
  c = '%' || c = '&' || c = '=' || c = '#' || c = '+' ||
    c = ' '

/- Any other character is written as it is. -/
theorem escapeChar_of_plain
    {c : Char}
    (hPlain : isEscaped c = false) :
    escapeChar c = [c] := by
  simp only [isEscaped, Bool.or_eq_false_iff,
    decide_eq_false_iff_not] at hPlain
  rcases hPlain with
    ⟨⟨⟨⟨⟨hPercent, hAnd⟩, hEq⟩, hHash⟩, hPlus⟩, hBlank⟩
  simp only [escapeChar, if_neg hPercent, if_neg hAnd,
    if_neg hEq, if_neg hHash, if_neg hPlus, if_neg hBlank]

/- An escaped character is a percent sign and two digits. -/
theorem eq_of_isEscaped
    {c : Char}
    (hEscaped : isEscaped c = true) :
    c = '%' ∨ c = '&' ∨ c = '=' ∨ c = '#' ∨ c = '+' ∨
      c = ' ' := by
  simpa [isEscaped, or_assoc] using hEscaped

/- Joined texts are written one after another. -/
@[simp] theorem escape_append
    (s t : Text) :
    escape (s ++ t) = escape s ++ escape t :=
  List.flatMap_append

@[simp] theorem escape_nil :
    escape [] = [] :=
  rfl

theorem escape_cons
    (c : Char)
    (t : Text) :
    escape (c :: t) = escapeChar c ++ escape t :=
  rfl

/- A text of plain characters is written as it is. -/
theorem escape_of_plain
    {t : Text}
    (hPlain : ∀ c ∈ t, isEscaped c = false) :
    escape t = t := by
  induction t with
  | nil => rfl
  | cons c cs ih =>
      rw [escape_cons,
        escapeChar_of_plain (hPlain c (by simp)),
        ih fun d hMem => hPlain d (by simp [hMem])]
      rfl

/- Of the escaped characters, only `%` is ever written. -/
theorem mem_escape
    {c : Char}
    (hEscaped : isEscaped c = true)
    (hPercent : c ≠ '%')
    (t : Text) :
    c ∉ escape t := by
  intro hMem
  rcases List.mem_flatMap.mp hMem with ⟨d, -, hMem⟩
  by_cases hPlain : isEscaped d = true
  · rcases eq_of_isEscaped hPlain with
      rfl | rfl | rfl | rfl | rfl | rfl <;>
    rcases eq_of_isEscaped hEscaped with
      rfl | rfl | rfl | rfl | rfl | rfl <;>
    simp [escapeChar] at hMem hPercent
  · have hPlain : isEscaped d = false := by
      simpa using hPlain
    rw [escapeChar_of_plain hPlain] at hMem
    have hEq : c = d := by simpa using hMem
    rw [hEq, hPlain] at hEscaped
    exact Bool.false_ne_true hEscaped

------------------------------------------------------------
-- Reading Bytes
------------------------------------------------------------

/-
  A byte that starts no escape: it is no percent sign, or
  there are not two hexadecimal digits after it.
-/
def StartsNone
    (b : UInt8)
    (rest : List UInt8) : Prop :=
  b = 0x25 → ∀ hi lo more, rest = hi :: lo :: more →
    escapedByte? hi lo = none

theorem startsNone_or_exists
    (b : UInt8)
    (rest : List UInt8) :
    StartsNone b rest ∨
      ∃ hi lo more byte,
        b = 0x25 ∧ rest = hi :: lo :: more ∧
          escapedByte? hi lo = some byte := by
  by_cases hNone : StartsNone b rest
  · exact Or.inl hNone
  · right
    simp only [StartsNone, not_forall] at hNone
    rcases hNone with ⟨hPercent, hi, lo, more, hRest, hByte⟩
    rcases Option.ne_none_iff_exists'.mp hByte with
      ⟨byte, hByte⟩
    exact ⟨hi, lo, more, byte, hPercent, hRest, hByte⟩

/- A byte that starts no escape is read on its own. -/
theorem unescapeBytes_cons
    {b : UInt8}
    {rest : List UInt8}
    (hNone : StartsNone b rest) :
    unescapeBytes (b :: rest) =
      (if b = 0x2b then 0x20 else b) ::
        unescapeBytes rest := by
  match rest with
  | [] => rfl
  | [_] => rfl
  | hi :: lo :: more =>
      rw [unescapeBytes]
      split
      · next hPercent =>
          subst hPercent
          rw [hNone rfl hi lo more rfl]
          rfl
      · rfl

/- Bytes that are neither `%` nor `+` are read as they are. -/
theorem unescapeBytes_append
    {bytes : List UInt8}
    (hBytes : ∀ b ∈ bytes, b ≠ 0x25 ∧ b ≠ 0x2b)
    (rest : List UInt8) :
    unescapeBytes (bytes ++ rest) =
      bytes ++ unescapeBytes rest := by
  induction bytes with
  | nil => rfl
  | cons b bs ih =>
      rcases hBytes b (by simp) with ⟨hPercent, hPlus⟩
      rw [List.cons_append,
        unescapeBytes_cons fun h => absurd h hPercent,
        if_neg hPlus,
        ih fun d hMem => hBytes d (by simp [hMem])]
      rfl

/- Only two characters have bytes with a meaning. -/
theorem ne_of_mem_encodeChar
    {c : Char}
    (hPercent : c ≠ '%')
    (hPlus : c ≠ '+')
    {b : UInt8}
    (hByte : b ∈ String.utf8EncodeChar c) :
    b ≠ 0x25 ∧ b ≠ 0x2b := by
  constructor <;> rintro rfl
  · exact Utf8.toNat_ne_of_mem_encodeChar (d := '%')
      (by decide) hPercent hByte rfl
  · exact Utf8.toNat_ne_of_mem_encodeChar (d := '+')
      (by decide) hPlus hByte rfl

/- Any other character is read as it is. -/
theorem unescapeBytes_encodeChar
    {c : Char}
    (hPercent : c ≠ '%')
    (hPlus : c ≠ '+')
    (rest : List UInt8) :
    unescapeBytes (String.utf8EncodeChar c ++ rest) =
      String.utf8EncodeChar c ++ unescapeBytes rest :=
  unescapeBytes_append
    (fun _ hByte => ne_of_mem_encodeChar hPercent hPlus hByte)
    rest

/- A written character is read back as its bytes. -/
theorem unescapeBytes_escapeChar
    (c : Char)
    (rest : List UInt8) :
    unescapeBytes (Utf8.encode (escapeChar c) ++ rest) =
      String.utf8EncodeChar c ++ unescapeBytes rest := by
  by_cases hEscaped : isEscaped c = true
  · rcases eq_of_isEscaped hEscaped with
      rfl | rfl | rfl | rfl | rfl | rfl <;> rfl
  · have hPlain : isEscaped c = false := by
      simpa using hEscaped
    have hPercent : c ≠ '%' := by
      rintro rfl
      exact absurd hPlain (by decide)
    have hPlus : c ≠ '+' := by
      rintro rfl
      exact absurd hPlain (by decide)
    have hBytes : Utf8.encode [c] =
        String.utf8EncodeChar c :=
      List.append_nil _
    rw [escapeChar_of_plain hPlain, hBytes]
    exact unescapeBytes_encodeChar hPercent hPlus rest

------------------------------------------------------------
-- Reading Back
------------------------------------------------------------

theorem unescapeBytes_escape
    (t : Text) :
    unescapeBytes (Utf8.encode (escape t)) =
      Utf8.encode t := by
  induction t with
  | nil => rfl
  | cons c cs ih =>
      rw [escape_cons, Utf8.encode_append,
        unescapeBytes_escapeChar, ih]
      rfl

/- What is written with escapes is read back. -/
theorem unescape_escape
    (t : Text) :
    unescape (escape t) = t := by
  rw [unescape, unescapeBytes_escape,
    Utf8.decodeLossy_encode]

end Query

end ComponentLoader
