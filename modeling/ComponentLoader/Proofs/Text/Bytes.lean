import Mathlib.Tactic
import ComponentLoader.Proofs.Text.Cuts
import ComponentLoader.Proofs.Text.Utf8

/-
  The bytes of a text and its characters.

  A byte of ASCII is a character of its own wherever it
  stands.  So a word of ASCII that is found among the bytes
  of a text is found in the text, and cuts it.

  Main declarations:
    * `Utf8.length_encode`
    * `Utf8.getElem?_encode`
    * `Utf8.encodeChar_of_low`
    * `Utf8.toNat_ne_of_mem_encodeChar`
    * `Utf8.IsAscii`
    * `Utf8.exists_append_of_encode`
-/

------------------------------------------------------------
-- Bytes Of Joined Texts
------------------------------------------------------------

namespace ComponentLoader

namespace Utf8

theorem encode_append
    (s t : Text) :
    encode (s ++ t) = encode s ++ encode t :=
  List.flatMap_append

theorem encode_cons
    (c : Char)
    (t : Text) :
    encode (c :: t) =
      String.utf8EncodeChar c ++ encode t :=
  rfl

/- The size of a text is the number of its bytes. -/
theorem length_encode
    (t : Text) :
    (encode t).length = t.size := by
  induction t with
  | nil => rfl
  | cons c cs ih =>
      rw [encode_cons, List.length_append, ih,
        String.length_utf8EncodeChar, Text.size]

/- The bytes after a text are those of what follows it. -/
theorem getElem?_encode
    (before rest : Text)
    (k : Nat) :
    (encode (before ++ rest))[before.size + k]? =
      (encode rest)[k]? := by
  rw [encode_append, List.getElem?_append_right
    (by rw [length_encode]; omega), length_encode,
    Nat.add_sub_cancel_left]

theorem getElem?_encode_size
    (before rest : Text) :
    (encode (before ++ rest))[before.size]? =
      (encode rest)[0]? :=
  getElem?_encode before rest 0

------------------------------------------------------------
-- Bytes Of ASCII
------------------------------------------------------------

/- A byte of ASCII is no part of a longer character. -/
theorem encodeChar_of_low
    {c : Char}
    {b : UInt8}
    (hByte : b ∈ String.utf8EncodeChar c)
    (hLow : b.toNat < 0x80) :
    String.utf8EncodeChar c = [b] ∧
      c.val.toNat = b.toNat := by
  by_cases hCode : c.val.toNat ≤ 0x7f
  · rw [encodeChar_one hCode, List.mem_singleton] at hByte
    have hValue : b.toNat = c.val.toNat := by
      rw [hByte]
      exact toNat_ofNat_of_lt (by omega)
    exact ⟨by rw [encodeChar_one hCode, hByte], hValue.symm⟩
  · have hHigh := high_encodeChar hCode hByte
    omega

/- The bytes of a character are no other one of ASCII. -/
theorem toNat_ne_of_mem_encodeChar
    {c d : Char}
    (hAscii : d.val.toNat ≤ 0x7f)
    (hNe : c ≠ d)
    {b : UInt8}
    (hByte : b ∈ String.utf8EncodeChar c) :
    b.toNat ≠ d.val.toNat := by
  intro hValue
  have hCode := (encodeChar_of_low hByte (by omega)).2
  apply hNe
  rw [← ofNat_val c, ← ofNat_val d, hCode, hValue]

/- So the bytes of a text start with one if the text does. -/
theorem getElem?_encode_ne
    {c : Char}
    (hAscii : c.val.toNat ≤ 0x7f)
    {t : Text}
    (hHead : ∀ d ds, t = d :: ds → d ≠ c) :
    (encode t)[0]? ≠ some (UInt8.ofNat c.val.toNat) := by
  intro hByte
  cases t with
  | nil => simp [encode] at hByte
  | cons d ds =>
      have hLength : 0 < (String.utf8EncodeChar d).length := by
        rw [String.length_utf8EncodeChar]
        exact Char.utf8Size_pos d
      rw [encode_cons, List.getElem?_append_left hLength]
        at hByte
      have hValue : (UInt8.ofNat c.val.toNat).toNat =
          c.val.toNat := toNat_ofNat_of_lt (by omega)
      exact toNat_ne_of_mem_encodeChar hAscii
        (hHead d ds rfl) (List.mem_of_getElem? hByte) hValue

/- Whether a text has only characters of ASCII. -/
def IsAscii
    (t : Text) : Prop :=
  ∀ c ∈ t, c.val.toNat ≤ 0x7f

instance
    (t : Text) :
    Decidable (IsAscii t) :=
  -- not by going through all characters
  List.decidableBAll _ t

/- A character of ASCII at the start of some bytes. -/
theorem exists_cons_of_encode
    {t : Text}
    {c : Char}
    (hAscii : c.val.toNat ≤ 0x7f)
    {rest : List UInt8}
    (hBytes : encode t =
      String.utf8EncodeChar c ++ rest) :
    ∃ more, t = c :: more ∧ encode more = rest := by
  rw [encodeChar_one hAscii, List.singleton_append]
    at hBytes
  have hValue : (UInt8.ofNat c.val.toNat).toNat =
      c.val.toNat := toNat_ofNat_of_lt (by omega)
  cases t with
  | nil => cases hBytes
  | cons d ds =>
      have hPositive : 0 < (String.utf8EncodeChar d).length := by
        rw [String.length_utf8EncodeChar]
        exact Char.utf8Size_pos d
      rcases List.exists_cons_of_length_pos hPositive with
        ⟨b, bs, hChar⟩
      rw [encode_cons, hChar, List.cons_append,
        List.cons.injEq] at hBytes
      rcases hBytes with ⟨hFirst, hRest⟩
      have hLow := encodeChar_of_low
        (c := d) (b := b) (by simp [hChar])
        (by rw [hFirst, hValue]; omega)
      rw [hChar, List.cons.injEq] at hLow
      refine ⟨ds, ?_, ?_⟩
      · rw [← ofNat_val c, ← ofNat_val d, hLow.2, hFirst,
          hValue]
      · rw [← hRest, hLow.1.2, List.nil_append]

/- A word of ASCII at the start of some bytes. -/
theorem exists_of_encode_prefix
    {word t : Text}
    (hAscii : IsAscii word)
    {rest : List UInt8}
    (hBytes : encode t = encode word ++ rest) :
    ∃ more, t = word ++ more ∧ encode more = rest := by
  induction word generalizing t with
  | nil => exact ⟨t, rfl, hBytes⟩
  | cons c cs ih =>
      rw [encode_cons, List.append_assoc] at hBytes
      rcases exists_cons_of_encode
          (hAscii c List.mem_cons_self) hBytes with
        ⟨ds, rfl, hRest⟩
      rcases ih
          (fun d hMem => hAscii d
            (List.mem_cons_of_mem c hMem))
          hRest with
        ⟨more, rfl, hMore⟩
      exact ⟨more, rfl, hMore⟩

/- Bytes that cut a character have no byte of ASCII next. -/
theorem eq_nil_of_cut
    {c : Char}
    {first more : List UInt8}
    {b : UInt8}
    (hChar : String.utf8EncodeChar c = first ++ b :: more)
    (hLow : b.toNat < 0x80) :
    first = [] := by
  have hOnly := (encodeChar_of_low (c := c) (b := b)
    (by simp [hChar]) hLow).1
  have hLength := congrArg List.length (hChar.symm.trans hOnly)
  simp only [List.length_append, List.length_cons,
    List.length_nil] at hLength
  exact List.eq_nil_of_length_eq_zero (by omega)

/- A byte of ASCII is cut off before a character or behind. -/
theorem cut_cons
    {c : Char}
    {cs : Text}
    {first more : List UInt8}
    {b : UInt8}
    (hBytes : encode (c :: cs) = first ++ b :: more)
    (hLow : b.toNat < 0x80) :
    first = [] ∨
      ∃ behind,
        first = String.utf8EncodeChar c ++ behind ∧
          encode cs = behind ++ b :: more := by
  rw [encode_cons] at hBytes
  rcases List.append_eq_append_iff.mp hBytes with
    ⟨behind, hFirst, hBehind⟩ | ⟨inside, hChar, hInside⟩
  · exact Or.inr ⟨behind, hFirst, hBehind⟩
  · cases inside with
    | nil =>
        rw [List.append_nil] at hChar
        refine Or.inr ⟨[], ?_, hInside.symm⟩
        rw [hChar, List.append_nil]
    | cons d ds =>
        rw [List.cons_append, List.cons.injEq] at hInside
        rw [← hInside.1] at hChar
        exact Or.inl (eq_nil_of_cut hChar hLow)

/-
  A word of ASCII that is found among the bytes of a text
  stands in the text, at the same place.
-/
theorem exists_append_of_encode
    {word t : Text}
    (hAscii : IsAscii word)
    (hSome : word ≠ [])
    {first rest : List UInt8}
    (hBytes : encode t = first ++ encode word ++ rest) :
    ∃ before after,
      t = before ++ word ++ after ∧
        encode before = first ∧ encode after = rest := by
  rcases List.exists_cons_of_ne_nil hSome with ⟨w, ws, rfl⟩
  have hHead : w.val.toNat ≤ 0x7f :=
    hAscii w List.mem_cons_self
  have hLow : (UInt8.ofNat w.val.toNat).toNat < 0x80 := by
    rw [toNat_ofNat_of_lt (by omega)]
    omega
  have hWord : encode (w :: ws) =
      UInt8.ofNat w.val.toNat :: encode ws := by
    rw [encode_cons, encodeChar_one hHead,
      List.singleton_append]
  induction t generalizing first with
  | nil =>
      rw [hWord] at hBytes
      simp [encode] at hBytes
  | cons c cs ih =>
      have hCut := hBytes
      rw [hWord, List.append_assoc, List.cons_append] at hCut
      rcases cut_cons hCut hLow with
        rfl | ⟨behind, rfl, hBehind⟩
      · rcases exists_of_encode_prefix hAscii hBytes with
          ⟨after, hText, hAfter⟩
        exact ⟨[], after, hText, rfl, hAfter⟩
      · have hRest : encode cs =
            behind ++ encode (w :: ws) ++ rest := by
          rw [hBehind, hWord, List.append_assoc,
            List.cons_append]
        rcases ih hRest with ⟨before, after, rfl, rfl, hAfter⟩
        exact ⟨c :: before, after, rfl,
          encode_cons c before, hAfter⟩

end Utf8

end ComponentLoader
