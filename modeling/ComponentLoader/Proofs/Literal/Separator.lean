import Mathlib.Tactic
import ComponentLoader.Proofs.Loop
import ComponentLoader.Proofs.Script.Comments
import ComponentLoader.Proofs.Text.Bytes
import ComponentLoader.Proofs.Text.Offset

/-
  The comma that is dropped from a gap is the one that
  separates two entries: the first that is in no comment.

  A gap is also read byte by byte, from comment to comment.
  This is described as a loop over positions, in which a
  gap can only be cut between characters; it drops the same
  comma.

  Main declarations:
    * `Draft.Passable`
    * `Draft.Passable.dropSeparator_append`
    * `Draft.separatorStep`
    * `Draft.returns_separatorStep`
    * `Draft.separator_dropped`
-/

------------------------------------------------------------
-- What Is Passed Over
------------------------------------------------------------

namespace ComponentLoader

namespace Draft

open Script.Gap
  (Stays dropSeparator_stays dropSeparator_line
    dropSeparator_block not_infix_tail)

/-
  Texts that are passed over in search of a comma: commas
  and slashes stand only in comments, and all of them end.
-/
inductive Passable : Text → Prop where
  | nil : Passable []
  | other
      {c : Char}
      {t : Text}
      (hComma : c ≠ ',')
      (hSlash : c ≠ '/')
      (hRest : Passable t) :
      Passable (c :: t)
  /- A comment up to the end of its line. -/
  | line
      {body t : Text}
      (hBody : '\n' ∉ body)
      (hRest : Passable t) :
      Passable ('/' :: '/' :: (body ++ '\n' :: t))
  /- A comment that is closed. -/
  | block
      {body t : Text}
      (hBody : ¬ ['*', '/'] <:+: body)
      (hRest : Passable t) :
      Passable ('/' :: '*' :: (body ++ '*' :: '/' :: t))

/- What can stand at the start of a text. -/
theorem start_cases
    (t : Text) :
    t = [] ∨
      (∃ rest, t = ',' :: rest) ∨
      (∃ rest, t = '/' :: '/' :: rest) ∨
      (∃ rest, t = '/' :: '*' :: rest) ∨
      ∃ c rest, t = c :: rest ∧ Stays c rest := by
  cases t with
  | nil => exact Or.inl rfl
  | cons c rest =>
      right
      by_cases hComma : c = ','
      · exact Or.inl ⟨rest, by rw [hComma]⟩
      · right
        by_cases hLine :
            c = '/' ∧ ∃ more, rest = '/' :: more
        · rcases hLine with ⟨rfl, more, rfl⟩
          exact Or.inl ⟨more, rfl⟩
        · right
          by_cases hBlock :
              c = '/' ∧ ∃ more, rest = '*' :: more
          · rcases hBlock with ⟨rfl, more, rfl⟩
            exact Or.inl ⟨more, rfl⟩
          · right
            refine ⟨c, rest, rfl, hComma, ?_⟩
            rintro hSlash d ds rfl
            constructor
            · rintro rfl
              exact hLine ⟨hSlash, ds, rfl⟩
            · rintro rfl
              exact hBlock ⟨hSlash, ds, rfl⟩

/- A comment that is not ended hides every comma. -/
theorem dropSeparator_open_line
    {t : Text}
    (hText : '\n' ∉ t) :
    dropSeparator .line t = t := by
  induction t with
  | nil => rfl
  | cons c cs ih =>
      rw [List.mem_cons, not_or] at hText
      rw [dropSeparator, ih hText.2]
      exact Ne.symm hText.1

theorem dropSeparator_open_block
    {t : Text}
    (hText : ¬ ['*', '/'] <:+: t) :
    dropSeparator .block t = t := by
  induction t with
  | nil => rfl
  | cons c cs ih =>
      rw [dropSeparator, ih (not_infix_tail hText)]
      rintro ds rfl rfl
      exact hText ⟨[], ds, rfl⟩

/- What is passed over stays as it is. -/
theorem Passable.dropSeparator_append
    {s : Text}
    (hPassable : Passable s)
    (t : Text) :
    dropSeparator .outside (s ++ t) =
      s ++ dropSeparator .outside t := by
  induction hPassable with
  | nil => rfl
  | other hComma hSlash _ ih =>
      rw [List.cons_append,
        dropSeparator_stays ⟨hComma, fun h => absurd h hSlash⟩,
        ih]
      rfl
  | @line body s hBody _ ih =>
      have hLine := dropSeparator_line hBody (s ++ t)
      simp [dropSeparator, hLine, ih]
  | @block body s hBody _ ih =>
      have hBlock := dropSeparator_block hBody (s ++ t)
      simp [dropSeparator, hBlock, ih]

------------------------------------------------------------
-- Positions
------------------------------------------------------------

/-
  Go on at the first occurrence of a word behind a position,
  or behind it by some bytes, or else at the end.
-/
def searchFrom
    (gap : Text)
    (i : Nat)
    (word : Text)
    (width : Nat) : Loop.State Nat Text :=
  Loop.reading (gap.splitAt? i) fun cut =>
    match Text.offset? word cut.2 with
    | some n => .running (i + n + width)
    | none => .running gap.size

/-
  What follows from the byte at a position: at a comma the
  gap is cut, and a comment is left where it ends.
-/
def separatorByte
    (gap : Text)
    (i : Nat)
    (b : UInt8) : Loop.State Nat Text :=
  if b = 0x2c then
    Loop.reading (gap.splitAt? i) fun first =>
      Loop.reading (gap.splitAt? (i + 1)) fun second =>
        .finished (first.1 ++ second.2)
  else if b = 0x2f ∧
      (Utf8.encode gap)[i + 1]? = some 0x2f then
    searchFrom gap i ['\n'] 0
  else if b = 0x2f ∧
      (Utf8.encode gap)[i + 1]? = some 0x2a then
    searchFrom gap (i + 2) ['*', '/'] 2
  else
    .running (i + 1)

/- Look at the byte at a position. -/
def separatorStep
    (gap : Text)
    (i : Nat) : Loop.State Nat Text :=
  let bytes := Utf8.encode gap
  if i < bytes.length then
    Loop.reading bytes[i]? (separatorByte gap i)
  else
    .finished gap

/- At the end nothing was found. -/
theorem separatorStep_end
    (gap : Text) :
    separatorStep gap gap.size = .finished gap := by
  simp [separatorStep, Utf8.length_encode]

theorem separatorStep_eq
    {gap : Text}
    {i : Nat}
    {b : UInt8}
    (hByte : (Utf8.encode gap)[i]? = some b) :
    separatorStep gap i = separatorByte gap i b := by
  rcases List.getElem?_eq_some_iff.mp hByte with
    ⟨hInside, _⟩
  simp only [separatorStep, if_pos hInside, hByte,
    Loop.reading_some]

section

variable {before rest : Text}

theorem separatorStep_comma :
    separatorStep (before ++ ',' :: rest) before.size =
      .finished (before ++ rest) := by
  have hByte :
      (Utf8.encode (before ++ ',' :: rest))[before.size]? =
        some 0x2c :=
    Utf8.getElem?_encode_size before (',' :: rest)
  have hFirst := Text.splitAt?_append before (',' :: rest)
  have hSecond := Text.splitAt?_append (before ++ [',']) rest
  rw [← List.append_cons, Text.size_append,
    show Text.size [','] = 1 from rfl] at hSecond
  rw [separatorStep_eq hByte, separatorByte, if_pos rfl,
    hFirst, Loop.reading_some, hSecond, Loop.reading_some]

/- A slash that stays is not followed by an opener. -/
theorem encode_ne_of_stays
    (hStays : Stays '/' rest) :
    (Utf8.encode (before ++ '/' :: rest))[
        before.size + 1]? ≠ some 0x2f ∧
      (Utf8.encode (before ++ '/' :: rest))[
        before.size + 1]? ≠ some 0x2a := by
  have hNext :
      (Utf8.encode (before ++ '/' :: rest))[
          before.size + 1]? =
        (Utf8.encode rest)[0]? :=
    Utf8.getElem?_encode before ('/' :: rest) 1
  rw [hNext]
  constructor
  · exact Utf8.getElem?_encode_ne (c := '/') (by decide)
      fun d ds hRest => (hStays.2 rfl d ds hRest).1
  · exact Utf8.getElem?_encode_ne (c := '*') (by decide)
      fun d ds hRest => (hStays.2 rfl d ds hRest).2

/- Inside of a character the next byte is next. -/
theorem separatorStep_stays
    {c : Char}
    (hStays : Stays c rest)
    {k : Nat}
    (hInside : k < c.utf8Size) :
    separatorStep (before ++ c :: rest) (before.size + k) =
      .running (before.size + k + 1) := by
  have hLength : k < (String.utf8EncodeChar c).length := by
    rw [String.length_utf8EncodeChar]
    exact hInside
  have hByte := Utf8.getElem?_encode before (c :: rest) k
  rw [Utf8.encode_cons,
    List.getElem?_append_left hLength,
    List.getElem?_eq_getElem hLength] at hByte
  have hMem := List.getElem_mem hLength
  rw [separatorStep_eq hByte, separatorByte]
  generalize (String.utf8EncodeChar c)[k] = b at hMem
  have hComma : b ≠ 0x2c := by
    rintro rfl
    exact Utf8.toNat_ne_of_mem_encodeChar (d := ',')
      (by decide) hStays.1 hMem rfl
  have hOpens : b = 0x2f →
      (Utf8.encode (before ++ c :: rest))[
          before.size + k + 1]? ≠ some 0x2f ∧
        (Utf8.encode (before ++ c :: rest))[
          before.size + k + 1]? ≠ some 0x2a := by
    rintro rfl
    have hSlash : c = '/' := by
      by_contra hNe
      exact Utf8.toNat_ne_of_mem_encodeChar (d := '/')
        (by decide) hNe hMem rfl
    subst hSlash
    have hZero : k = 0 := by
      have hWidth : '/'.utf8Size = 1 := by decide
      omega
    subst hZero
    exact encode_ne_of_stays hStays
  rw [if_neg hComma, if_neg fun h => (hOpens h.1).1 h.2,
    if_neg fun h => (hOpens h.1).2 h.2]

/- A search ends at the first occurrence of a word. -/
theorem searchFrom_append
    (before rest : Text)
    {word : Text}
    (hSome : word ≠ [])
    (width : Nat) :
    (¬ word <:+: rest ∧
        searchFrom (before ++ rest) before.size word width =
          .running (before ++ rest).size) ∨
      ∃ body after,
        rest = body ++ word ++ after ∧
          ¬ word <:+: body ++ word.dropLast ∧
          searchFrom (before ++ rest) before.size word
              width =
            .running ((before ++ body).size + width) := by
  unfold searchFrom
  rw [Text.splitAt?_append, Loop.reading_some]
  rcases Text.offset?_cases hSome rest with
    ⟨hNone, hNot⟩ | ⟨body, after, hRest, hOffset, hFirst⟩
  · left
    rw [hNone]
    exact ⟨hNot, rfl⟩
  · right
    refine ⟨body, after, hRest, hFirst, ?_⟩
    simp only [hOffset, Text.size_append]

/- A comment is left at the end of its line. -/
theorem separatorStep_line
    (before rest : Text) :
    ('\n' ∉ rest ∧
        separatorStep (before ++ '/' :: '/' :: rest)
            before.size =
          .running (before ++ '/' :: '/' :: rest).size) ∨
      ∃ body after,
        rest = body ++ '\n' :: after ∧ '\n' ∉ body ∧
          separatorStep (before ++ '/' :: '/' :: rest)
              before.size =
            .running (before ++ '/' :: '/' :: body).size := by
  have hByte :
      (Utf8.encode (before ++ '/' :: '/' :: rest))[
        before.size]? = some 0x2f :=
    Utf8.getElem?_encode_size before ('/' :: '/' :: rest)
  have hNext :
      (Utf8.encode (before ++ '/' :: '/' :: rest))[
        before.size + 1]? = some 0x2f :=
    Utf8.getElem?_encode before ('/' :: '/' :: rest) 1
  rw [separatorStep_eq hByte, separatorByte,
    if_neg (by decide), if_pos ⟨rfl, hNext⟩]
  have hSome : ['\n'] ≠ [] := by decide
  rcases searchFrom_append before ('/' :: '/' :: rest) hSome 0
      with
    ⟨hNot, hStep⟩ | ⟨body, after, hText, hFirst, hStep⟩
  · left
    rw [List.singleton_infix_iff] at hNot
    exact ⟨fun hMem => hNot (by simp [hMem]), hStep⟩
  · right
    rw [List.dropLast_singleton, List.append_nil,
      List.singleton_infix_iff] at hFirst
    -- the line does not end in the two slashes
    match body with
    | [] => simp at hText
    | [_] => simp at hText
    | c :: d :: body =>
        simp only [List.cons_append, List.cons.injEq,
          List.append_assoc, List.nil_append] at hText
        rcases hText with ⟨rfl, rfl, hText⟩
        refine ⟨body, after, hText, ?_, hStep⟩
        exact fun hMem => hFirst (by simp [hMem])

/- A comment is left where it is closed. -/
theorem separatorStep_block
    (before rest : Text) :
    (¬ ['*', '/'] <:+: rest ∧
        separatorStep (before ++ '/' :: '*' :: rest)
            before.size =
          .running (before ++ '/' :: '*' :: rest).size) ∨
      ∃ body after,
        rest = body ++ '*' :: '/' :: after ∧
          ¬ ['*', '/'] <:+: body ∧
          separatorStep (before ++ '/' :: '*' :: rest)
              before.size =
            .running
              (before ++ '/' :: '*' ::
                (body ++ ['*', '/'])).size := by
  have hByte :
      (Utf8.encode (before ++ '/' :: '*' :: rest))[
        before.size]? = some 0x2f :=
    Utf8.getElem?_encode_size before ('/' :: '*' :: rest)
  have hNext :
      (Utf8.encode (before ++ '/' :: '*' :: rest))[
        before.size + 1]? = some 0x2a :=
    Utf8.getElem?_encode before ('/' :: '*' :: rest) 1
  have hOther :
      ¬ ((0x2f : UInt8) = 0x2f ∧
        (Utf8.encode (before ++ '/' :: '*' :: rest))[
          before.size + 1]? = some 0x2f) := by
    rw [hNext]
    decide
  rw [separatorStep_eq hByte, separatorByte,
    if_neg (by decide), if_neg hOther, if_pos ⟨rfl, hNext⟩]
  have hSome : ['*', '/'] ≠ [] := by decide
  have hSearch :=
    searchFrom_append (before ++ ['/', '*']) rest hSome 2
  have hSize : (before ++ ['/', '*']).size =
      before.size + 2 := Text.size_append before ['/', '*']
  have hText : before ++ ['/', '*'] ++ rest =
      before ++ '/' :: '*' :: rest := by
    simp
  rw [hText, hSize] at hSearch
  rcases hSearch with
    ⟨hNot, hStep⟩ | ⟨body, after, hRest, hFirst, hStep⟩
  · exact Or.inl ⟨hNot, hStep⟩
  · right
    refine ⟨body, after, by simpa using hRest, ?_, ?_⟩
    · exact fun hInfix => hFirst
        (hInfix.trans (List.infix_append [] body ['*']))
    · have hEnd :
          before ++ '/' :: '*' :: (body ++ ['*', '/']) =
            before ++ ['/', '*'] ++ body ++ ['*', '/'] := by
        simp
      rw [hStep, hEnd, Text.size_append _ ['*', '/']]
      rfl

/- Every byte of a character is passed over. -/
theorem returns_inside
    (before out : Text)
    {c : Char}
    (hStays : Stays c rest)
    {k n : Nat}
    (hWidth : c.utf8Size = k + n) :
    Loop.Returns (separatorStep (before ++ c :: rest))
        (before.size + k) out ↔
      Loop.Returns (separatorStep (before ++ c :: rest))
        (before ++ [c]).size out := by
  induction n generalizing k with
  | zero =>
      have hSize : (before ++ [c]).size = before.size + k := by
        rw [Text.size_append, Text.size, Text.size]
        omega
      rw [hSize]
  | succ n ih =>
      rw [Loop.returns_iff
        (separatorStep_stays hStays (by omega))]
      exact ih (k := k + 1) (by omega)

end

/-
  How the loop goes on from a position between characters:
  it comes to another one, and what lies between stays.
-/
structure Passes
    (before passed more : Text) : Prop where
  ne_nil : passed ≠ []
  stays :
    dropSeparator .outside (passed ++ more) =
      passed ++ dropSeparator .outside more
  returns_iff (result : Text) :
    Loop.Returns (separatorStep (before ++ (passed ++ more)))
        before.size result ↔
      Loop.Returns
        (separatorStep (before ++ (passed ++ more)))
        (before ++ passed).size result

/- A comment that does not end is passed up to the end. -/
theorem passes_end
    {before rest : Text}
    (hSome : rest ≠ [])
    (hStays : dropSeparator .outside rest = rest)
    (hStep : separatorStep (before ++ rest) before.size =
      .running (before ++ rest).size) :
    Passes before rest [] where
  ne_nil := hSome
  stays := by
    rw [List.append_nil, hStays, dropSeparator,
      List.append_nil]
  returns_iff result := by
    rw [List.append_nil]
    exact Loop.returns_iff hStep

theorem exists_passes_line
    (before rest : Text) :
    ∃ passed more,
      '/' :: '/' :: rest = passed ++ more ∧
        Passes before passed more := by
  rcases separatorStep_line before rest with
    ⟨hNot, hStep⟩ | ⟨body, after, rfl, hBody, hStep⟩
  · refine ⟨_, [], (List.append_nil _).symm,
      passes_end (by simp) ?_ hStep⟩
    rw [dropSeparator, dropSeparator_open_line hNot]
  · have hNewline : Stays '\n' after :=
      ⟨by decide, fun h => absurd h (by decide)⟩
    exact ⟨'/' :: '/' :: body, '\n' :: after, rfl,
      { ne_nil := by simp
        stays := by
          rw [List.cons_append, List.cons_append,
            dropSeparator, dropSeparator_line hBody,
            dropSeparator_stays hNewline]
          rfl
        returns_iff := fun result =>
          Loop.returns_iff hStep }⟩

theorem exists_passes_block
    (before rest : Text) :
    ∃ passed more,
      '/' :: '*' :: rest = passed ++ more ∧
        Passes before passed more := by
  rcases separatorStep_block before rest with
    ⟨hNot, hStep⟩ | ⟨body, after, rfl, hBody, hStep⟩
  · refine ⟨_, [], (List.append_nil _).symm,
      passes_end (by simp) ?_ hStep⟩
    rw [dropSeparator, dropSeparator_open_block hNot]
  · have hText :
        '/' :: '*' :: (body ++ ['*', '/']) ++ after =
          '/' :: '*' :: (body ++ '*' :: '/' :: after) := by
      simp
    refine ⟨'/' :: '*' :: (body ++ ['*', '/']), after,
      hText.symm, by simp, ?_, ?_⟩
    · rw [hText, dropSeparator, dropSeparator_block hBody]
      simp
    · intro result
      rw [hText]
      exact Loop.returns_iff hStep

theorem passes_of_stays
    (before : Text)
    {c : Char}
    {rest : Text}
    (hStays : Stays c rest) :
    Passes before [c] rest where
  ne_nil := by simp
  stays := dropSeparator_stays hStays
  returns_iff result :=
    returns_inside before result hStays
      (Nat.zero_add c.utf8Size).symm

/- The loop is at the end or at a comma, or it goes on. -/
theorem passes_cases
    (before rest : Text) :
    rest = [] ∨
      (∃ more, rest = ',' :: more) ∨
      ∃ passed more,
        rest = passed ++ more ∧
          Passes before passed more := by
  rcases start_cases rest with
    hEnd | hComma | ⟨more, rfl⟩ | ⟨more, rfl⟩ |
    ⟨c, more, rfl, hStays⟩
  · exact Or.inl hEnd
  · exact Or.inr (Or.inl hComma)
  · exact Or.inr (Or.inr (exists_passes_line before more))
  · exact Or.inr (Or.inr (exists_passes_block before more))
  · exact Or.inr (Or.inr
      ⟨[c], more, rfl, passes_of_stays before hStays⟩)

/-
  From a position between characters on, the loop drops the
  comma that is dropped from the rest.
-/
theorem returns_separatorStep
    (before rest : Text) :
    Loop.Returns (separatorStep (before ++ rest))
      before.size
      (before ++ dropSeparator .outside rest) := by
  induction hLength : rest.length using Nat.strong_induction_on
    generalizing before rest with
  | h n ih =>
      subst hLength
      rcases passes_cases before rest with
        rfl | ⟨more, rfl⟩ | ⟨passed, more, rfl, hPasses⟩
      · rw [dropSeparator, List.append_nil]
        exact Loop.returns_of_finished
          (separatorStep_end before)
      · exact Loop.returns_of_finished separatorStep_comma
      · have hPositive :=
          List.length_pos_of_ne_nil hPasses.ne_nil
        rw [hPasses.returns_iff, hPasses.stays,
          ← List.append_assoc, ← List.append_assoc]
        exact ih more.length
          (by rw [List.length_append]; omega)
          (before ++ passed) more rfl

------------------------------------------------------------
-- The Separating Comma
------------------------------------------------------------

/-
  Behind what is passed over just the comma is dropped, and
  without a comma there nothing is, not even if a comment
  up to the end of its line follows.  The loop over the
  positions of a gap comes to its end with what is left,
  and cuts the gap only between characters.
-/
theorem separator_dropped
    (gap : Text) :
    (Passable gap →
        (∀ rest,
          dropSeparator .outside (gap ++ ',' :: rest) =
            gap ++ rest) ∧
          dropSeparator .outside gap = gap ∧
          ∀ body, '\n' ∉ body →
            dropSeparator .outside
                (gap ++ '/' :: '/' :: body) =
              gap ++ '/' :: '/' :: body) ∧
      Loop.Returns (separatorStep gap) 0
        (dropSeparator .outside gap) := by
  refine ⟨?_, returns_separatorStep [] gap⟩
  intro hPassable
  refine ⟨?_, ?_, ?_⟩
  · intro rest
    rw [hPassable.dropSeparator_append, dropSeparator]
  · have hAll := hPassable.dropSeparator_append []
    rw [List.append_nil, dropSeparator, List.append_nil]
      at hAll
    exact hAll
  · intro body hBody
    rw [hPassable.dropSeparator_append, dropSeparator,
      dropSeparator_open_line hBody]

namespace Sample

/- A comment that is not closed by its own star. -/
def hiddenCommas : Text :=
  "é /*/ a, */// b, /*\n".toList

theorem passable_hiddenCommas :
    Passable hiddenCommas := by
  have hBlock : ¬ ['*', '/'] <:+: "/ a, ".toList := by
    decide
  have hLine : '\n' ∉ " b, /*".toList := by
    decide
  exact .other (by decide) (by decide)
    (.other (by decide) (by decide)
      (.block hBlock (.line hLine .nil)))

end Sample

theorem separator_dropped_sample :
    Passable Sample.hiddenCommas ∧
      dropSeparator .outside
          (Sample.hiddenCommas ++ ", c".toList) =
        Sample.hiddenCommas ++ " c".toList ∧
      Loop.Returns
        (separatorStep (Sample.hiddenCommas ++ ", c".toList)) 0
        (Sample.hiddenCommas ++ " c".toList) := by
  have hDropped :=
    ((separator_dropped Sample.hiddenCommas).1
      Sample.passable_hiddenCommas).1 " c".toList
  have hLoop :=
    (separator_dropped
      (Sample.hiddenCommas ++ ',' :: " c".toList)).2
  rw [hDropped] at hLoop
  exact ⟨Sample.passable_hiddenCommas, hDropped, hLoop⟩

end Draft

end ComponentLoader
