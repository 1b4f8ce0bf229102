import Mathlib.Tactic
import ComponentLoader.Proofs.Loop
import ComponentLoader.Proofs.Query.Escape

/-
  Escapes are exact: a text that is written has only the
  escapes it needs, all of them complete, and a text in
  which nothing has a meaning is read as it is.

  Reading looks two bytes ahead.  It is described once more
  as a loop over the positions of bytes, in which a byte
  past the end cannot be read.

  Main declarations:
    * `Query.startsEscape`
    * `Query.Written`
    * `Query.Verbatim`
    * `Query.scanStep`
    * `Query.unescape_exact`
-/

------------------------------------------------------------
-- Complete Escapes
------------------------------------------------------------

namespace ComponentLoader

namespace Query

open Utf8 (encode)

/- Whether a percent sign before a text starts an escape. -/
def startsEscape : Text → Bool
  | hi :: lo :: _ =>
      (Text.hexValue? hi).isSome &&
        (Text.hexValue? lo).isSome
  | _ => false

/-
  A text as it is written in a query: nothing in it splits
  the query, and each percent sign starts an escape.
-/
structure Written
    (t : Text) : Prop where
  separator : ∀ c ∈ ['&', '=', '#', '+', ' '], c ∉ t
  percent :
    ∀ before after, t = before ++ '%' :: after →
      startsEscape after = true

/- A text in which each character stands for itself. -/
structure Verbatim
    (t : Text) : Prop where
  plus : '+' ∉ t
  percent :
    ∀ before after, t = before ++ '%' :: after →
      startsEscape after = false

/- Whether this is so can be told from the ends of a text. -/
theorem verbatim_iff
    {t : Text} :
    Verbatim t ↔
      '+' ∉ t ∧
        ∀ s ∈ t.tails, s.head? = some '%' →
          startsEscape s.tail = false := by
  constructor
  · rintro ⟨hPlus, hPercent⟩
    refine ⟨hPlus, ?_⟩
    intro s hTail hHead
    rcases List.head?_eq_some_iff.mp hHead with ⟨after, rfl⟩
    rcases (List.mem_tails _ _).mp hTail with ⟨before, hText⟩
    exact hPercent before after hText.symm
  · rintro ⟨hPlus, hPercent⟩
    refine ⟨hPlus, ?_⟩
    rintro before after rfl
    exact hPercent ('%' :: after)
      ((List.mem_tails _ _).mpr ⟨before, rfl⟩) rfl

instance
    (t : Text) :
    Decidable (Verbatim t) :=
  decidable_of_iff _ verbatim_iff.symm

theorem ne_percent_of_hexValue?
    {c : Char}
    (hDigit : (Text.hexValue? c).isSome = true) :
    c ≠ '%' := by
  rintro rfl
  exact absurd hDigit (by decide)

/- A character is written as it is or as an escape. -/
theorem escapeChar_cases
    (c : Char) :
    (c ≠ '%' ∧ escapeChar c = [c]) ∨
      ∃ hi lo,
        escapeChar c = ['%', hi, lo] ∧
          (Text.hexValue? hi).isSome = true ∧
          (Text.hexValue? lo).isSome = true := by
  by_cases hEscaped : isEscaped c = true
  · right
    rcases eq_of_isEscaped hEscaped with
      rfl | rfl | rfl | rfl | rfl | rfl <;>
    exact ⟨_, _, rfl, by decide, by decide⟩
  · left
    have hPlain : isEscaped c = false := by
      simpa using hEscaped
    refine ⟨?_, escapeChar_of_plain hPlain⟩
    rintro rfl
    exact absurd hPlain (by decide)

/- Every percent sign that is written starts an escape. -/
theorem startsEscape_of_escape
    {t before after : Text}
    (hText : escape t = before ++ '%' :: after) :
    startsEscape after = true := by
  induction t generalizing before with
  | nil => simp at hText
  | cons c cs ih =>
      rw [escape_cons] at hText
      rcases escapeChar_cases c with
        ⟨hPercent, hChar⟩ | ⟨hi, lo, hChar, hHi, hLo⟩
      · rw [hChar] at hText
        cases before with
        | nil =>
            rw [List.nil_append, List.singleton_append,
              List.cons.injEq] at hText
            exact absurd hText.1 hPercent
        | cons d ds =>
            rw [List.singleton_append, List.cons_append,
              List.cons.injEq] at hText
            exact ih hText.2
      · have hFirst := ne_percent_of_hexValue? hHi
        have hSecond := ne_percent_of_hexValue? hLo
        rw [hChar] at hText
        -- of the three characters only the first counts
        match before with
        | [] =>
            rw [List.nil_append, List.cons_append,
              List.cons.injEq] at hText
            rw [← hText.2]
            simp [startsEscape, hHi, hLo]
        | [_] =>
            simp only [List.cons_append, List.nil_append,
              List.cons.injEq] at hText
            exact absurd hText.2.1 hFirst
        | [_, _] =>
            simp only [List.cons_append, List.nil_append,
              List.cons.injEq] at hText
            exact absurd hText.2.2.1 hSecond
        | _ :: _ :: _ :: more =>
            simp only [List.cons_append, List.nil_append,
              List.cons.injEq] at hText
            exact ih hText.2.2.2

theorem written_escape
    (t : Text) :
    Written (escape t) where
  separator := by
    intro c hMem
    simp only [List.mem_cons, List.not_mem_nil, or_false]
      at hMem
    rcases hMem with rfl | rfl | rfl | rfl | rfl <;>
    exact mem_escape (by decide) (by decide) t
  percent _ _ hText := startsEscape_of_escape hText

------------------------------------------------------------
-- Texts That Are Read As They Are
------------------------------------------------------------

theorem ascii_of_hexValue?
    {c : Char}
    (hDigit : (Text.hexValue? c).isSome = true) :
    c.val.toNat ≤ 0x7f := by
  have hBound :
      ∀ {d : Char}, d.val.toNat ≤ 0x7f → c ≤ d →
        c.val.toNat ≤ 0x7f := by
    intro d hAscii hLe
    rw [Char.le_def, UInt32.le_iff_toNat_le] at hLe
    omega
  unfold Text.hexValue? at hDigit
  simp only [Bool.and_eq_true, decide_eq_true_eq] at hDigit
  split at hDigit
  · next hRange => exact hBound (by decide) hRange.2
  · split at hDigit
    · next hRange => exact hBound (by decide) hRange.2
    · split at hDigit
      · next hRange => exact hBound (by decide) hRange.2
      · cases hDigit

/- A byte that is a digit is the byte of that digit. -/
theorem encodeChar_of_hexByte?
    {b : UInt8}
    (hDigit : (hexByte? b).isSome = true) :
    String.utf8EncodeChar (Char.ofNat b.toNat) = [b] := by
  have hAscii := ascii_of_hexValue? hDigit
  have hCode : (Char.ofNat b.toNat).val.toNat = b.toNat := by
    have hSmall := UInt8.toNat_lt b
    rw [Char.ofNat, dif_pos (Or.inl (by omega))]
    rfl
  rw [Utf8.encodeChar_one hAscii, hCode, UInt8.ofNat_toNat]

/- Two bytes that make an escape are two characters. -/
theorem startsEscape_of_encode
    {t : Text}
    {hi lo byte : UInt8}
    {rest : List UInt8}
    (hBytes : encode t = hi :: lo :: rest)
    (hByte : escapedByte? hi lo = some byte) :
    startsEscape t = true := by
  have hDigits : (hexByte? hi).isSome = true ∧
      (hexByte? lo).isSome = true := by
    unfold escapedByte? at hByte
    split at hByte
    · next hHi hLo => simp [hHi, hLo]
    · cases hByte
  have hWord :
      encode [Char.ofNat hi.toNat, Char.ofNat lo.toNat] =
        [hi, lo] := by
    rw [Utf8.encode_cons, Utf8.encode_cons,
      encodeChar_of_hexByte? hDigits.1,
      encodeChar_of_hexByte? hDigits.2]
    rfl
  have hAscii :
      Utf8.IsAscii
        [Char.ofNat hi.toNat, Char.ofNat lo.toNat] := by
    intro c hMem
    rcases List.mem_pair.mp hMem with rfl | rfl
    · exact ascii_of_hexValue? hDigits.1
    · exact ascii_of_hexValue? hDigits.2
  have hPrefix :
      encode t =
        encode [Char.ofNat hi.toNat, Char.ofNat lo.toNat] ++
          rest := by
    rw [hBytes, hWord]
    rfl
  rcases Utf8.exists_of_encode_prefix hAscii hPrefix with
    ⟨more, hText, _⟩
  rw [hText]
  exact Bool.and_eq_true _ _ |>.mpr hDigits

theorem Verbatim.tail
    {c : Char}
    {t : Text}
    (hVerbatim : Verbatim (c :: t)) :
    Verbatim t where
  plus hMem :=
    hVerbatim.plus (List.mem_cons_of_mem c hMem)
  percent before after hText :=
    hVerbatim.percent (c :: before) after (by rw [hText]; rfl)

theorem unescapeBytes_of_verbatim
    {t : Text}
    (hVerbatim : Verbatim t) :
    unescapeBytes (encode t) = encode t := by
  induction t with
  | nil => rfl
  | cons c cs ih =>
      rw [Utf8.encode_cons]
      by_cases hPercent : c = '%'
      · subst hPercent
        rcases startsNone_or_exists 0x25 (encode cs) with
          hNone | ⟨hi, lo, more, byte, _, hBytes, hByte⟩
        · have hRead := unescapeBytes_cons hNone
          rw [ih hVerbatim.tail] at hRead
          exact hRead
        · have hStarts := startsEscape_of_encode hBytes hByte
          rw [hVerbatim.percent [] cs rfl] at hStarts
          cases hStarts
      · have hPlus : c ≠ '+' := by
          rintro rfl
          exact hVerbatim.plus List.mem_cons_self
        rw [unescapeBytes_encodeChar hPercent hPlus,
          ih hVerbatim.tail]

theorem unescape_of_verbatim
    {t : Text}
    (hVerbatim : Verbatim t) :
    unescape t = t := by
  rw [unescape, unescapeBytes_of_verbatim hVerbatim,
    Utf8.decodeLossy_encode]

------------------------------------------------------------
-- Reading At Positions
------------------------------------------------------------

/- How far bytes are read, and what they meant so far. -/
structure Scan where
  position : Nat
  read : List UInt8

/- Before the first byte. -/
def Scan.start : Scan :=
  { position := 0, read := [] }

/- Go on behind some bytes that mean one. -/
def Scan.push
    (s : Scan)
    (width : Nat)
    (byte : UInt8) : Scan :=
  { position := s.position + width
    read := s.read ++ [byte] }

/-
  Read the byte at a position.  The two bytes after it are
  read only if they are there.
-/
def scanStep
    (bytes : List UInt8)
    (s : Scan) : Loop.State Scan Text :=
  if s.position < bytes.length then
    Loop.reading bytes[s.position]? fun b =>
      if b = 0x2b then
        .running (s.push 1 0x20)
      else if b = 0x25 ∧ s.position + 2 < bytes.length then
        Loop.reading bytes[s.position + 1]? fun hi =>
          Loop.reading bytes[s.position + 2]? fun lo =>
            match escapedByte? hi lo with
            | some byte => .running (s.push 3 byte)
            | none => .running (s.push 1 b)
      else
        .running (s.push 1 b)
  else
    .finished (Utf8.decodeLossy s.read)

section

variable {before rest : List UInt8}
variable {read : List UInt8}

/- A byte that starts no escape is read in a step. -/
theorem scanStep_cons
    {b : UInt8}
    (hNone : StartsNone b rest) :
    scanStep (before ++ b :: rest)
        { position := before.length, read := read } =
      .running
        { position := (before ++ [b]).length
          read := read ++ [if b = 0x2b then 0x20 else b] } := by
  have hInside :
      before.length < (before ++ b :: rest).length := by
    simp
  unfold scanStep
  simp only [if_pos hInside, List.getElem?_append_right,
    Nat.le_refl, Nat.sub_self, List.getElem?_cons_zero,
    Loop.reading_some]
  by_cases hPlus : b = 0x2b
  · simp [hPlus, Scan.push]
  · rw [if_neg hPlus, if_neg hPlus]
    split
    · next hAhead =>
        -- two bytes can be read, but they are no digits
        match rest with
        | [] => simp at hAhead
        | [_] => simp at hAhead
        | hi :: lo :: more =>
            simp [hNone hAhead.1 hi lo more rfl, Scan.push]
    · simp [Scan.push]

/- An escape is read in a step. -/
theorem scanStep_escape
    {hi lo byte : UInt8}
    (hByte : escapedByte? hi lo = some byte) :
    scanStep (before ++ 0x25 :: hi :: lo :: rest)
        { position := before.length, read := read } =
      .running
        { position := (before ++ [0x25, hi, lo]).length
          read := read ++ [byte] } := by
  simp [scanStep, Scan.push, hByte]

end

/- What is read from a position on is what the rest means. -/
theorem returns_scanStep
    (before rest read : List UInt8) :
    Loop.Returns (scanStep (before ++ rest))
      { position := before.length, read := read }
      (Utf8.decodeLossy (read ++ unescapeBytes rest)) := by
  induction hLength : rest.length using Nat.strong_induction_on
    generalizing before rest read with
  | h n ih =>
      cases rest with
      | nil =>
          apply Loop.returns_of_finished
          simp [scanStep, unescapeBytes]
      | cons b rest =>
          subst hLength
          rcases startsNone_or_exists b rest with
            hNone | ⟨hi, lo, more, byte, rfl, rfl, hByte⟩
          · rw [Loop.returns_iff (scanStep_cons hNone),
              unescapeBytes_cons hNone,
              List.append_cons before,
              List.append_cons read _ (unescapeBytes rest)]
            exact ih rest.length (by simp) _ rest _ rfl
          · have hRead :
                unescapeBytes (0x25 :: hi :: lo :: more) =
                  byte :: unescapeBytes more := by
              rw [unescapeBytes, if_pos rfl, hByte]
            have hBytes :
                before ++ 0x25 :: hi :: lo :: more =
                  before ++ [0x25, hi, lo] ++ more := by
              simp
            rw [Loop.returns_iff (scanStep_escape hByte),
              hRead, hBytes,
              List.append_cons read _ (unescapeBytes more)]
            exact ih more.length (by simp; omega) _ more _ rfl

------------------------------------------------------------
-- Exact Escapes
------------------------------------------------------------

/-
  Every text is written so that it is read back, and with
  no more than complete escapes.  A text without any, and
  without `+`, is read as it is.  What a text means is what
  is read at its positions, none of them past the end.
-/
theorem unescape_exact
    (t : Text) :
    (unescape (escape t) = t ∧ Written (escape t)) ∧
      (Verbatim t → unescape t = t) ∧
      Loop.Returns (scanStep (encode t)) Scan.start
        (unescape t) :=
  ⟨⟨unescape_escape t, written_escape t⟩,
    unescape_of_verbatim,
    returns_scanStep [] (encode t) []⟩

namespace Sample

/- Percent signs without two digits, the last at the end. -/
def percents : Text :=
  "50%é% a%4".toList

end Sample

theorem unescape_exact_sample :
    Verbatim Sample.percents ∧
      unescape Sample.percents = Sample.percents ∧
      escape Sample.percents =
        "50%25é%25%20a%254".toList := by
  have hVerbatim : Verbatim Sample.percents := by decide
  exact ⟨hVerbatim,
    (unescape_exact Sample.percents).2.1 hVerbatim,
    by decide⟩

end Query

end ComponentLoader
