import Mathlib.Tactic
import ComponentLoader.Literal.Draft
import ComponentLoader.Proofs.Script.Gaps

/-
  The comments of a gap, and the pieces that gaps are made
  of when the lines of their comments end in newlines.

  Comments are found by reading, as a script is read: one
  that goes up to the end of its line ends at any character
  that ends a line, and the others where they are closed.

  Main declarations:
    * `Script.Gap.comments`
    * `Script.Gap.Piece`
    * `Script.Gap.Spaced`
    * `Script.Gap.comments_textOf`
    * `Script.Gap.isGap_textOf`
    * `Script.Gap.Spaced.exists_trimmed`
    * `Script.Gap.endTrimmed_comments`
-/

------------------------------------------------------------
-- Comments
------------------------------------------------------------

namespace ComponentLoader

namespace Script

namespace Gap

/- A text put before the first of some comments. -/
def before
    (t : Text) : List Text → List Text
  | [] => []
  | comment :: rest => (t ++ comment) :: rest

/-
  The comments of a text in order.  For a reader that is
  inside of a comment, the first is what is left of it.
-/
def commentsFrom : Within → Text → List Text
  | .outside, [] => []
  | .outside, '/' :: '/' :: cs =>
      before ['/', '/'] (commentsFrom .line cs)
  | .outside, '/' :: '*' :: cs =>
      before ['/', '*'] (commentsFrom .block cs)
  | .outside, _ :: cs => commentsFrom .outside cs
  | .line, [] => [[]]
  | .line, c :: cs =>
      if Text.isLineEnd c then
        [] :: commentsFrom .outside cs
      else
        before [c] (commentsFrom .line cs)
  | .block, [] => [[]]
  | .block, '*' :: '/' :: cs =>
      ['*', '/'] :: commentsFrom .outside cs
  | .block, c :: cs => before [c] (commentsFrom .block cs)

/- The comments of what stands between two tokens. -/
def comments
    (t : Text) : List Text :=
  commentsFrom .outside t

/- A character that opens no comment does not matter. -/
theorem comments_cons
    {c : Char}
    (hSlash : c ≠ '/')
    (t : Text) :
    comments (c :: t) = comments t := by
  unfold comments
  rw [commentsFrom]
  · rintro cs rfl
    exact absurd rfl hSlash
  · rintro cs rfl
    exact absurd rfl hSlash

/- Nor does a text of such characters. -/
theorem comments_append_left
    {s : Text}
    (hSlash : '/' ∉ s)
    (t : Text) :
    comments (s ++ t) = comments t := by
  induction s with
  | nil => rfl
  | cons c cs ih =>
      rw [List.mem_cons, not_or] at hSlash
      rw [List.cons_append, comments_cons (Ne.symm hSlash.1),
        ih hSlash.2]

------------------------------------------------------------
-- Pieces
------------------------------------------------------------

/- What a gap is made of. -/
inductive Piece where
  | blank
      (c : Char)
      (hBlank : isGapChar c = true)
  /- A comment up to the end of its line, and this end. -/
  | line
      (body : Text)
      (hBody : ∀ c ∈ body, Text.isLineEnd c = false)
      (hasReturn : Bool)
  /- A comment that is closed. -/
  | block
      (body : Text)
      (hBody : ¬ ['*', '/'] <:+: body)

namespace Piece

/- How a piece is written. -/
def text : Piece → Text
  | blank c _ => [c]
  | line body _ hasReturn =>
      '/' :: '/' ::
        (body ++ if hasReturn then ['\r', '\n'] else ['\n'])
  | block body _ => '/' :: '*' :: (body ++ ['*', '/'])

/- The comment of a piece, without the end of its line. -/
def comment? : Piece → Option Text
  | blank _ _ => none
  | line body _ _ => some ('/' :: '/' :: body)
  | block body _ =>
      some ('/' :: '*' :: (body ++ ['*', '/']))

end Piece

/- The text of some pieces. -/
def textOf
    (ps : List Piece) : Text :=
  ps.flatMap Piece.text

/-
  What may stand around an entry: blanks and comments, the
  lines of comments ending in newlines, and at most one
  comma between them.
-/
inductive Spaced : Text → Prop where
  | plain
      (ps : List Piece) :
      Spaced (textOf ps)
  | comma
      (ps qs : List Piece) :
      Spaced (textOf ps ++ ',' :: textOf qs)

theorem textOf_cons
    (p : Piece)
    (ps : List Piece) :
    textOf (p :: ps) = p.text ++ textOf ps :=
  List.flatMap_cons

theorem textOf_append
    (ps qs : List Piece) :
    textOf (ps ++ qs) = textOf ps ++ textOf qs :=
  List.flatMap_append

theorem ne_slash_of_isGapChar
    {c : Char}
    (hBlank : isGapChar c = true) :
    c ≠ '/' := by
  rintro rfl
  rw [not_isGapChar_slash] at hBlank
  exact absurd hBlank (by decide)

/- A comment that is not closed goes on. -/
theorem not_closed
    {c : Char}
    {body rest : Text}
    (hBody : ¬ ['*', '/'] <:+: c :: body)
    (cs : Text)
    (hStar : c = '*')
    (hSlash : body ++ '*' :: rest = '/' :: cs) :
    False := by
  subst hStar
  cases body with
  | nil =>
      rw [List.nil_append, List.cons.injEq] at hSlash
      exact absurd hSlash.1 (by decide)
  | cons d ds =>
      rw [List.cons_append, List.cons.injEq] at hSlash
      rcases hSlash with ⟨rfl, _⟩
      exact hBody ⟨[], ds, rfl⟩

theorem not_infix_tail
    {c : Char}
    {body : Text}
    (hBody : ¬ ['*', '/'] <:+: c :: body) :
    ¬ ['*', '/'] <:+: body :=
  fun hInfix => hBody (hInfix.trans (List.infix_cons
    (List.infix_refl body)))

------------------------------------------------------------
-- Reading Pieces
------------------------------------------------------------

theorem commentsFrom_line
    {body : Text}
    (hBody : ∀ c ∈ body, Text.isLineEnd c = false)
    {c : Char}
    (hEnd : Text.isLineEnd c = true)
    (t : Text) :
    commentsFrom .line (body ++ c :: t) =
      body :: comments t := by
  induction body with
  | nil => simp [commentsFrom, hEnd, comments]
  | cons d ds ih =>
      have hRest := ih fun e hMem =>
        hBody e (List.mem_cons_of_mem d hMem)
      simp [commentsFrom, hBody d List.mem_cons_self, hRest,
        before]

theorem commentsFrom_block
    {body : Text}
    (hBody : ¬ ['*', '/'] <:+: body)
    (t : Text) :
    commentsFrom .block (body ++ '*' :: '/' :: t) =
      (body ++ ['*', '/']) :: comments t := by
  induction body with
  | nil => rfl
  | cons c cs ih =>
      rw [List.cons_append, commentsFrom,
        ih (not_infix_tail hBody)]
      · rfl
      · exact not_closed hBody

/- The comment of a piece is the next one. -/
theorem comments_piece
    (p : Piece)
    (t : Text) :
    comments (p.text ++ t) =
      p.comment?.toList ++ comments t := by
  cases p with
  | blank c hBlank =>
      exact comments_cons (ne_slash_of_isGapChar hBlank) t
  | line body hBody hasReturn =>
      have hNewline : Text.isLineEnd '\n' = true := by decide
      have hReturn : Text.isLineEnd '\r' = true := by decide
      have hSlash : '\n' ≠ '/' := by decide
      cases hasReturn with
      | false =>
          have hLine := commentsFrom_line hBody hNewline t
          simp [Piece.text, Piece.comment?, comments,
            commentsFrom, hLine, before]
      | true =>
          have hLine := commentsFrom_line hBody hReturn
            ('\n' :: t)
          rw [comments_cons hSlash] at hLine
          simp [Piece.text, Piece.comment?, comments,
            commentsFrom, hLine, before]
  | block body hBody =>
      have hBlock := commentsFrom_block hBody t
      simp [Piece.text, Piece.comment?, comments,
        commentsFrom, hBlock, before]

/- The comments of pieces are those that they are. -/
theorem comments_textOf_append
    (ps : List Piece)
    (t : Text) :
    comments (textOf ps ++ t) =
      ps.filterMap Piece.comment? ++ comments t := by
  induction ps with
  | nil => rfl
  | cons p ps ih =>
      rw [textOf_cons, List.append_assoc, comments_piece, ih]
      cases hComment : p.comment? <;> simp [hComment]

theorem comments_textOf
    (ps : List Piece) :
    comments (textOf ps) =
      ps.filterMap Piece.comment? := by
  have hAll := comments_textOf_append ps []
  rw [List.append_nil] at hAll
  exact hAll.trans (List.append_nil _)

------------------------------------------------------------
-- Pieces Without The Separator
------------------------------------------------------------

open Draft (dropSeparator)

/- A character that is no comma and opens no comment. -/
def Stays
    (c : Char)
    (rest : Text) : Prop :=
  c ≠ ',' ∧
    (c = '/' → ∀ d ds, rest = d :: ds → d ≠ '/' ∧ d ≠ '*')

theorem dropSeparator_stays
    {c : Char}
    {rest : Text}
    (hStays : Stays c rest) :
    dropSeparator .outside (c :: rest) =
      c :: dropSeparator .outside rest := by
  rw [dropSeparator]
  · exact hStays.1
  · rintro cs rfl rfl
    exact (hStays.2 rfl '/' cs rfl).1 rfl
  · rintro cs rfl rfl
    exact (hStays.2 rfl '*' cs rfl).2 rfl

theorem dropSeparator_line
    {body : Text}
    (hBody : '\n' ∉ body)
    (t : Text) :
    dropSeparator .line (body ++ '\n' :: t) =
      body ++ '\n' :: dropSeparator .outside t := by
  induction body with
  | nil => rfl
  | cons c cs ih =>
      rw [List.mem_cons, not_or] at hBody
      rw [List.cons_append, dropSeparator, ih hBody.2]
      · rfl
      · exact Ne.symm hBody.1

theorem dropSeparator_block
    {body : Text}
    (hBody : ¬ ['*', '/'] <:+: body)
    (t : Text) :
    dropSeparator .block (body ++ '*' :: '/' :: t) =
      body ++ '*' :: '/' :: dropSeparator .outside t := by
  induction body with
  | nil => rfl
  | cons c cs ih =>
      rw [List.cons_append, dropSeparator,
        ih (not_infix_tail hBody)]
      · rfl
      · exact not_closed hBody

/- A piece is passed over in search of a comma. -/
theorem dropSeparator_piece
    (p : Piece)
    (t : Text) :
    dropSeparator .outside (p.text ++ t) =
      p.text ++ dropSeparator .outside t := by
  cases p with
  | blank c hBlank =>
      have hSlash := ne_slash_of_isGapChar hBlank
      have hComma : c ≠ ',' := by
        rintro rfl
        exact absurd hBlank (by decide)
      rw [Piece.text, List.singleton_append,
        dropSeparator_stays
          ⟨hComma, fun h => absurd h hSlash⟩]
      rfl
  | line body hBody hasReturn =>
      have hPlain : '\n' ∉ body := by
        intro hMem
        exact absurd (hBody _ hMem) (by decide)
      cases hasReturn with
      | false =>
          have hLine := dropSeparator_line hPlain t
          simp [Piece.text, dropSeparator, hLine]
      | true =>
          have hReturn : '\n' ∉ body ++ ['\r'] := by
            simp [hPlain]
          have hLine := dropSeparator_line hReturn t
          rw [List.append_assoc, List.append_assoc] at hLine
          simp only [List.singleton_append] at hLine
          simp [Piece.text, dropSeparator, hLine]
  | block body hBody =>
      have hBlock := dropSeparator_block hBody t
      simp [Piece.text, dropSeparator, hBlock]

theorem dropSeparator_textOf
    (ps : List Piece)
    (t : Text) :
    dropSeparator .outside (textOf ps ++ t) =
      textOf ps ++ dropSeparator .outside t := by
  induction ps with
  | nil => rfl
  | cons p ps ih =>
      rw [textOf_cons, List.append_assoc,
        dropSeparator_piece, ih, List.append_assoc]

/- Without its comma a gap is made of the same pieces. -/
theorem Spaced.exists_pieces
    {t : Text}
    (hSpaced : Spaced t) :
    ∃ ps,
      dropSeparator .outside t = textOf ps ∧
        ps.filterMap Piece.comment? = comments t := by
  cases hSpaced with
  | plain ps =>
      refine ⟨ps, ?_, (comments_textOf ps).symm⟩
      have hDrop := dropSeparator_textOf ps []
      rw [List.append_nil] at hDrop
      rw [hDrop, dropSeparator, List.append_nil]
  | comma ps qs =>
      have hSlash : ',' ≠ '/' := by decide
      refine ⟨ps ++ qs, ?_, ?_⟩
      · rw [dropSeparator_textOf, dropSeparator,
          textOf_append]
      · rw [comments_textOf_append, comments_cons hSlash,
          comments_textOf, List.filterMap_append]

------------------------------------------------------------
-- Pieces Between Tokens
------------------------------------------------------------

theorem run_line
    {body : Text}
    (hBody : ∀ c ∈ body, Text.isLineEnd c = false)
    (t : Text) :
    Reader.line.run (body ++ t) = Reader.line.run t := by
  induction body with
  | nil => rfl
  | cons c cs ih =>
      rw [List.cons_append, Reader.run_cons, Reader.step,
        hBody c List.mem_cons_self]
      exact ih fun d hMem =>
        hBody d (List.mem_cons_of_mem c hMem)

/- Until a comment is closed the reader stays inside. -/
theorem run_block
    {body : Text}
    (hBody : ¬ ['*', '/'] <:+: body)
    (t : Text) :
    Reader.block.run (body ++ '*' :: '/' :: t) =
        Reader.between.run t ∧
      (body.head? ≠ some '/' →
        Reader.star.run (body ++ '*' :: '/' :: t) =
          Reader.between.run t) := by
  induction body with
  | nil => exact ⟨rfl, fun _ => rfl⟩
  | cons c cs ih =>
      rcases ih (not_infix_tail hBody) with ⟨hBlock, hStar⟩
      have hStep :
          Reader.block.run (c :: (cs ++ '*' :: '/' :: t)) =
            Reader.between.run t := by
        by_cases hChar : c = '*'
        · subst hChar
          apply hStar
          intro hSlash
          rcases List.head?_eq_some_iff.mp hSlash with
            ⟨ds, rfl⟩
          exact hBody ⟨[], ds, rfl⟩
        · rw [Reader.run_cons, Reader.step, if_neg hChar]
          exact hBlock
      refine ⟨hStep, ?_⟩
      intro hSlash
      have hOther : c ≠ '/' := by
        rintro rfl
        exact hSlash rfl
      rw [List.cons_append, Reader.run_cons] at *
      simpa [Reader.step, hOther] using hStep

theorem isGap_piece
    (p : Piece) :
    isGap p.text = true := by
  cases p with
  | blank c hBlank =>
      exact (isGap_cons_iff hBlank).mpr rfl
  | line body hBody hasReturn =>
      rw [isGap_iff, Piece.text]
      change Reader.line.run _ = _
      rw [run_line hBody]
      cases hasReturn <;> decide
  | block body hBody =>
      rw [isGap_iff, Piece.text]
      exact (run_block hBody []).1

theorem isGap_textOf
    (ps : List Piece) :
    isGap (textOf ps) = true := by
  induction ps with
  | nil => rfl
  | cons p ps ih =>
      rw [textOf_cons]
      exact isGap_append (isGap_piece p) ih

------------------------------------------------------------
-- Trimmed Pieces
------------------------------------------------------------

/- Blanks at the start of pieces are pieces. -/
theorem exists_trimStart_textOf
    (ps : List Piece) :
    ∃ qs,
      Text.trimStart (textOf ps) = textOf qs ∧
        qs.filterMap Piece.comment? =
          ps.filterMap Piece.comment? := by
  have hSlash : Text.isBlank '/' = false := by decide
  induction ps with
  | nil => exact ⟨[], rfl, rfl⟩
  | cons p ps ih =>
      cases p with
      | blank c hBlank =>
          rw [textOf_cons, Piece.text, List.singleton_append]
          unfold Text.trimStart at ih ⊢
          by_cases hChar : Text.isBlank c = true
          · rw [List.dropWhile_cons_of_pos hChar]
            exact ih
          · rw [List.dropWhile_cons_of_neg hChar]
            exact ⟨.blank c hBlank :: ps, rfl, rfl⟩
      | line body hBody hasReturn =>
          refine ⟨_, ?_, rfl⟩
          simp [textOf_cons, Piece.text, Text.trimStart,
            hSlash]
      | block body hBody =>
          refine ⟨_, ?_, rfl⟩
          simp [textOf_cons, Piece.text, Text.trimStart,
            hSlash]

/-
  Without its comma and the blanks at its start, what may
  stand around an entry is pieces with the same comments.
-/
theorem Spaced.exists_trimmed
    {t : Text}
    (hSpaced : Spaced t) :
    ∃ ps,
      Text.trimStart (dropSeparator .outside t) =
          textOf ps ∧
        ps.filterMap Piece.comment? = comments t := by
  rcases hSpaced.exists_pieces with ⟨ps, hDrop, hComments⟩
  rcases exists_trimStart_textOf ps with ⟨qs, hTrim, hSame⟩
  refine ⟨qs, ?_, hSame.trans hComments⟩
  rw [hDrop, hTrim]

/- Comments up to blanks at the end of the last line. -/
def endTrimmed : List Text → List Text
  | [] => []
  | [comment] =>
      if ['/', '/'].isPrefixOf comment then
        [Text.trimEnd comment]
      else
        [comment]
  | comment :: rest => comment :: endTrimmed rest

theorem endTrimmed_append_line
    (cs : List Text)
    (body : Text) :
    endTrimmed (cs ++ ['/' :: '/' :: body]) =
      cs ++ [Text.trimEnd ('/' :: '/' :: body)] := by
  induction cs with
  | nil => rfl
  | cons c cs ih =>
      rw [List.cons_append, endTrimmed, ih]
      · rfl
      · simp

theorem endTrimmed_eq_nil_iff
    {cs : List Text} :
    endTrimmed cs = [] ↔ cs = [] := by
  cases cs with
  | nil => simp [endTrimmed]
  | cons c rest =>
      cases rest with
      | nil =>
          rw [endTrimmed]
          split <;> simp
      | cons d ds =>
          rw [endTrimmed]
          · simp
          · simp

/- More comments before the last do not matter. -/
theorem endTrimmed_append
    {cs ds : List Text}
    (hSame : endTrimmed cs = endTrimmed ds)
    (first : List Text) :
    endTrimmed (first ++ cs) = endTrimmed (first ++ ds) := by
  induction first with
  | nil => exact hSame
  | cons c rest ih =>
      by_cases hNone : rest ++ cs = []
      · have hOther : rest ++ ds = [] := by
          rw [← endTrimmed_eq_nil_iff, ← ih, hNone]
          rfl
        rw [List.cons_append, List.cons_append, hNone, hOther]
      · have hOther : rest ++ ds ≠ [] := by
          rw [ne_eq, ← endTrimmed_eq_nil_iff, ← ih,
            endTrimmed_eq_nil_iff]
          exact hNone
        rw [List.cons_append, List.cons_append, endTrimmed,
          endTrimmed, ih]
        · exact hOther
        · exact hNone

theorem not_mem_of_isBlank
    {blanks : Text}
    (hBlanks : ∀ c ∈ blanks, Text.isBlank c = true) :
    '/' ∉ blanks := by
  intro hMem
  exact absurd (hBlanks _ hMem) (by decide)

theorem comments_blanks
    {blanks : Text}
    (hBlanks : ∀ c ∈ blanks, Text.isBlank c = true) :
    comments blanks = [] := by
  have hAll := comments_append_left
    (not_mem_of_isBlank hBlanks) []
  rw [List.append_nil] at hAll
  exact hAll

/- A comment at the end takes in blanks of its line. -/
theorem commentsFrom_line_blanks
    {body blanks : Text}
    (hBody : ∀ c ∈ body, Text.isLineEnd c = false)
    (hBlanks : ∀ c ∈ blanks, Text.isBlank c = true) :
    ∃ more,
      commentsFrom .line (body ++ blanks) =
          [body ++ more] ∧
        ∀ c ∈ more, Text.isBlank c = true := by
  induction body with
  | nil =>
      induction blanks with
      | nil => exact ⟨[], rfl, by simp⟩
      | cons c cs ih =>
          have hRest : ∀ d ∈ cs, Text.isBlank d = true :=
            fun d hMem =>
              hBlanks d (List.mem_cons_of_mem c hMem)
          by_cases hEnd : Text.isLineEnd c = true
          · refine ⟨[], ?_, by simp⟩
            have hNone := comments_blanks hRest
            unfold comments at hNone
            simp [commentsFrom, hEnd, hNone]
          · rcases ih hRest with ⟨more, hMore, hBlank⟩
            rw [List.nil_append] at hMore
            refine ⟨c :: more, ?_, ?_⟩
            · simp [commentsFrom, hEnd, hMore, before]
            · intro d hMem
              rcases List.mem_cons.mp hMem with rfl | hMem
              · exact hBlanks d List.mem_cons_self
              · exact hBlank d hMem
  | cons c cs ih =>
      rcases ih fun d hMem =>
          hBody d (List.mem_cons_of_mem c hMem) with
        ⟨more, hMore, hBlank⟩
      refine ⟨more, ?_, hBlank⟩
      simp [commentsFrom, hBody c List.mem_cons_self, hMore,
        before]

end Gap

end Script

namespace Text

/- Blanks at the end are cut off. -/
theorem trimEnd_append_blanks
    {blanks : Text}
    (hBlanks : ∀ c ∈ blanks, isBlank c = true)
    (t : Text) :
    trimEnd (t ++ blanks) = trimEnd t := by
  unfold trimEnd
  rw [List.reverse_append, List.dropWhile_append_of_pos]
  intro c hMem
  exact hBlanks c (List.mem_reverse.mp hMem)

/- Nothing is cut off before what is left. -/
theorem trimEnd_append
    {t : Text}
    (hSome : trimEnd t ≠ [])
    (s : Text) :
    trimEnd (s ++ t) = s ++ trimEnd t := by
  have hLeft :
      (t.reverse.dropWhile isBlank).isEmpty = false := by
    rw [List.isEmpty_eq_false_iff]
    intro hNone
    apply hSome
    rw [trimEnd, hNone, List.reverse_nil]
  unfold trimEnd
  rw [List.reverse_append, List.dropWhile_append]
  simp [hLeft]

/- What is cut off are blanks. -/
theorem exists_eq_trimEnd_append
    (t : Text) :
    ∃ blanks,
      t = trimEnd t ++ blanks ∧
        ∀ c ∈ blanks, isBlank c = true := by
  refine ⟨trailingBlanks t, ?_, ?_⟩
  · unfold trimEnd trailingBlanks
    rw [← List.reverse_append,
      List.takeWhile_append_dropWhile, List.reverse_reverse]
  · intro c hMem
    exact List.mem_takeWhile_imp (List.mem_reverse.mp hMem)

theorem trimEnd_concat
    {c : Char}
    (hChar : isBlank c = false)
    (t : Text) :
    trimEnd (t ++ [c]) = t ++ [c] := by
  simp [trimEnd, hChar]

end Text

namespace Script

namespace Gap

theorem trimEnd_line
    (body : Text) :
    Text.trimEnd ('/' :: '/' :: body) =
      '/' :: '/' :: Text.trimEnd body := by
  have hSlash : Text.isBlank '/' = false := by decide
  unfold Text.trimEnd
  rw [List.reverse_cons, List.reverse_cons,
    List.append_assoc, List.dropWhile_append]
  split
  · next hNone =>
      rw [List.isEmpty_iff] at hNone
      simp [hNone, hSlash]
  · simp

theorem textOf_concat
    (ps : List Piece)
    (p : Piece) :
    textOf (ps ++ [p]) = textOf ps ++ p.text := by
  rw [textOf_append, textOf_cons]
  exact congrArg _ (List.append_nil _)

/- Of a comment at the end its blanks are cut off. -/
theorem trimEnd_textOf_line
    (ps : List Piece)
    {body : Text}
    (hBody : ∀ c ∈ body, Text.isLineEnd c = false)
    (hasReturn : Bool) :
    Text.trimEnd
        (textOf (ps ++ [.line body hBody hasReturn])) =
      textOf ps ++ '/' :: '/' :: Text.trimEnd body := by
  have hSome : Text.trimEnd ('/' :: '/' :: body) ≠ [] := by
    rw [trimEnd_line]
    simp
  have hNewline : Text.isBlank '\n' = true := by decide
  have hReturn : Text.isBlank '\r' = true := by decide
  have hEnd :
      ∀ c ∈ (if hasReturn then ['\r', '\n'] else ['\n'] :
          Text),
        Text.isBlank c = true := by
    cases hasReturn <;> simp [hNewline, hReturn]
  rw [textOf_concat, Piece.text, ← List.cons_append,
    ← List.cons_append, ← List.append_assoc,
    Text.trimEnd_append_blanks hEnd,
    Text.trimEnd_append hSome, trimEnd_line]

/- A closed comment at the end is left as it is. -/
theorem trimEnd_textOf_block
    (ps : List Piece)
    {body : Text}
    (hBody : ¬ ['*', '/'] <:+: body) :
    Text.trimEnd (textOf (ps ++ [.block body hBody])) =
      textOf (ps ++ [.block body hBody]) := by
  have hSplit :
      textOf (ps ++ [.block body hBody]) =
        textOf ps ++ '/' :: '*' :: (body ++ ['*']) ++
          ['/'] := by
    rw [textOf_concat, Piece.text]
    simp
  rw [hSplit]
  exact Text.trimEnd_concat (by decide) _

/- A comment at the end takes in blanks only. -/
theorem endTrimmed_comments_line
    (ps : List Piece)
    {body : Text}
    (hBody : ∀ c ∈ body, Text.isLineEnd c = false)
    {close : Text}
    (hClose : ∀ c ∈ close, Text.isBlank c = true) :
    endTrimmed
        (comments
          (textOf ps ++
            '/' :: '/' :: Text.trimEnd body ++ close)) =
      ps.filterMap Piece.comment? ++
        [Text.trimEnd ('/' :: '/' :: body)] := by
  rcases Text.exists_eq_trimEnd_append body with
    ⟨cut, hCut, hCutBlank⟩
  have hLeft :
      ∀ c ∈ Text.trimEnd body,
        Text.isLineEnd c = false := by
    intro c hMem
    apply hBody
    rw [hCut]
    exact List.mem_append_left _ hMem
  rcases commentsFrom_line_blanks hLeft hClose with
    ⟨more, hMore, hBlank⟩
  have hComment :
      comments
          ('/' :: '/' :: (Text.trimEnd body ++ close)) =
        ['/' :: '/' :: (Text.trimEnd body ++ more)] := by
    rw [comments, commentsFrom, hMore]
    rfl
  have hTrim :
      Text.trimEnd
          ('/' :: '/' :: (Text.trimEnd body ++ more)) =
        Text.trimEnd ('/' :: '/' :: body) := by
    conv_rhs => rw [hCut]
    rw [← List.cons_append, ← List.cons_append,
      ← List.cons_append, ← List.cons_append,
      Text.trimEnd_append_blanks hBlank,
      Text.trimEnd_append_blanks hCutBlank]
  rw [List.append_assoc, comments_textOf_append,
    List.cons_append, List.cons_append, hComment,
    endTrimmed_append_line, hTrim]

/-
  Pieces without the blanks at their end have the same
  comments, up to blanks at the end of the last line, even
  if other blanks follow.
-/
theorem endTrimmed_comments
    (ps : List Piece)
    {close : Text}
    (hClose : ∀ c ∈ close, Text.isBlank c = true) :
    endTrimmed
        (comments (Text.trimEnd (textOf ps) ++ close)) =
      endTrimmed (ps.filterMap Piece.comment?) := by
  have hWhole :
      ∀ qs, Text.trimEnd (textOf qs) = textOf qs →
        endTrimmed
            (comments (Text.trimEnd (textOf qs) ++ close)) =
          endTrimmed (qs.filterMap Piece.comment?) := by
    intro qs hSame
    rw [hSame, comments_textOf_append,
      comments_blanks hClose, List.append_nil]
  induction ps using List.reverseRecOn with
  | nil => exact hWhole [] rfl
  | append_singleton ps p ih =>
      cases p with
      | blank c hBlank =>
          cases hChar : Text.isBlank c with
          | true =>
              have hCut : ∀ d ∈ [c], Text.isBlank d = true := by
                simpa using hChar
              rw [textOf_concat, Piece.text,
                Text.trimEnd_append_blanks hCut, ih,
                List.filterMap_append]
              exact congrArg _ (List.append_nil _).symm
          | false =>
              apply hWhole
              rw [textOf_concat, Piece.text]
              exact Text.trimEnd_concat hChar _
      | line body hBody hasReturn =>
          rw [trimEnd_textOf_line,
            endTrimmed_comments_line ps hBody hClose,
            List.filterMap_append]
          exact (endTrimmed_append_line _ _).symm
      | block body hBody =>
          exact hWhole _ (trimEnd_textOf_block ps hBody)

end Gap

end Script

end ComponentLoader
