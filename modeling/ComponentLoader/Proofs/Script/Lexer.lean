import Mathlib.Tactic
import ComponentLoader.Script.Lexer
import ComponentLoader.Proofs.Text.Keyword

/-
  What a reader of tokens leaves is an end of the text it
  was given, and a word it reads stands in that text, as
  it is or with escapes.

  Main declarations:
    * `Script.escapesTo`
    * `Script.isEscapedIn`
    * `Script.skipGap_suffix`
    * `Script.Scanned`
    * `Script.scanned_scanToken`
    * `Script.Unmentioned`
-/

------------------------------------------------------------
-- Gaps
------------------------------------------------------------

namespace ComponentLoader

namespace Script

theorem Place.after_suffix
    (p : Place)
    (read : Text) :
    (p.after read).rest <:+ p.rest :=
  List.drop_suffix _ _

theorem Place.skip_suffix
    (p : Place)
    (n : Nat) :
    (p.skip n).rest <:+ p.rest :=
  List.drop_suffix _ _

/- What is left after a gap. -/
theorem skipGap_suffix
    (within : Within)
    (text : Text)
    (pos : Nat)
    (newline : Bool)
    (mark : Option Nat) :
    (skipGap within text pos newline mark).next.rest <:+
      text := by
  fun_induction skipGap within text pos newline mark with
  | case1 => exact List.suffix_rfl
  | case2 cs pos newline mark ih =>
      exact ih.trans (List.suffix_append ['/', '/'] cs)
  | case3 cs pos newline mark ih =>
      exact ih.trans (List.suffix_append ['/', '*'] cs)
  | case4 cs pos newline mark ih =>
      exact ih.trans
        (List.suffix_append ['<', '!', '-', '-'] cs)
  | case5 c cs _ _ _ _ _ _ _ ih =>
      exact ih.trans (List.suffix_cons c cs)
  | case6 c cs _ _ _ _ _ _ _ _ ih =>
      exact ih.trans (List.suffix_cons c cs)
  | case7 => exact List.suffix_rfl
  | case8 c cs _ _ _ _ ih =>
      exact ih.trans (List.suffix_cons c cs)
  | case9 c cs _ _ _ _ ih =>
      exact ih.trans (List.suffix_cons c cs)
  | case10 cs _ _ _ ih =>
      exact ih.trans (List.suffix_append ['*', '/'] cs)
  | case11 c cs _ _ _ _ ih =>
      exact ih.trans (List.suffix_cons c cs)

------------------------------------------------------------
-- Words
------------------------------------------------------------

theorem scanEscapedWord_suffix
    {fuel : Nat}
    {read name : Text}
    {p next : Place}
    (hScan : scanEscapedWord fuel read p = some (name, next)) :
    next.rest <:+ p.rest := by
  fun_induction scanEscapedWord fuel read p with
  | case1 => cases hScan
  | case2 => cases hScan
  | case3 _ _ p _ _ _ width _ _ _ _ ih =>
      exact (ih hScan).trans (p.skip_suffix (width + 2))
  | case4 => cases hScan
  | case5 fuel read p c cs _ hRest _ _ ih =>
      rw [hRest]
      exact (ih hScan).trans (List.suffix_cons c cs)
  | case6 => cases hScan
  | case7 =>
      cases hScan
      exact List.suffix_rfl
  | case8 => cases hScan
  | case9 =>
      cases hScan
      exact List.suffix_rfl

theorem scanWord_suffix
    {p next : Place}
    {name : Text}
    {escaped : Bool}
    (hScan : scanWord p = some (name, escaped, next)) :
    next.rest <:+ p.rest := by
  unfold scanWord at hScan
  simp only at hScan
  split at hScan
  · rcases Option.map_eq_some_iff.mp hScan with
      ⟨⟨word, last⟩, hWord, hEq⟩
    cases hEq
    exact scanEscapedWord_suffix hWord
  · split at hScan
    · cases hScan
    · cases hScan
      exact p.after_suffix _

/- A word without escapes stands at the start. -/
theorem scanWord_plain
    {p next : Place}
    {name : Text}
    (hScan : scanWord p = some (name, false, next)) :
    name <+: p.rest := by
  unfold scanWord at hScan
  simp only at hScan
  split at hScan
  · rcases Option.map_eq_some_iff.mp hScan with
      ⟨r, _, hEq⟩
    cases hEq
  · split at hScan
    · cases hScan
    · cases hScan
      exact List.takeWhile_prefix _

/- The position of a word with escapes does not matter. -/
theorem scanEscapedWord_fst
    (fuel : Nat)
    (read : Text)
    (p : Place)
    (pos : Nat) :
    (scanEscapedWord fuel read { p with pos := pos }).map
        Prod.fst =
      (scanEscapedWord fuel read p).map Prod.fst := by
  induction fuel generalizing read p pos with
  | zero => rfl
  | succ fuel ih =>
      rw [scanEscapedWord, scanEscapedWord]
      simp only
      split
      · split
        · rfl
        · next n width _ =>
            simp only [apply_ite (Option.map Prod.fst)]
            congr 1
            exact ih _ (p.skip (width + 2)) _
      · next c cs _ _ =>
          simp only [apply_ite (Option.map Prod.fst)]
          congr 1
          exact ih _ { rest := cs, pos := _ } _
      · simp only [apply_ite (Option.map Prod.fst)]
        rfl

/- Whether a word with escapes at a start is a name. -/
def escapesTo
    (name text : Text) : Bool :=
  match scanWord { rest := text, pos := 0 } with
  | some (word, true, _) => word == name
  | _ => false

theorem scanWord_escaped
    {p next : Place}
    {name : Text}
    (hScan : scanWord p = some (name, true, next)) :
    escapesTo name p.rest = true := by
  have hOther :
      ∃ other,
        scanWord { rest := p.rest, pos := 0 } =
          some (name, true, other) := by
    unfold scanWord at hScan ⊢
    simp only [Place.after] at hScan ⊢
    split at hScan
    · rcases Option.map_eq_some_iff.mp hScan with
        ⟨⟨word, last⟩, hWord, hEq⟩
      cases hEq
      have hFst := scanEscapedWord_fst
        (p.rest.length + 1) [] p 0
      rw [hWord, Option.map_some,
        Option.map_eq_some_iff] at hFst
      rcases hFst with ⟨⟨word, other⟩, hOther, rfl⟩
      exact ⟨other, by simp only [hOther, Option.map_some]⟩
    · split at hScan
      · cases hScan
      · cases hScan
  rcases hOther with ⟨other, hOther⟩
  simp [escapesTo, hOther]

------------------------------------------------------------
-- Scanned Tokens
------------------------------------------------------------

/- Whether a word stands at the start of a text. -/
def StandsAt
    (word text : Text) : Prop :=
  word <+: text ∨ escapesTo word text = true

/- A token read from a text, and what is left of that. -/
structure Scanned
    (text : Text)
    (read : Token × Place) : Prop where
  rest : read.2.rest <:+ text
  word :
    ∀ word escaped, read.1 = .word word escaped →
      StandsAt word text

/- Tokens other than words only leave an end. -/
theorem Scanned.of_not_word
    {text : Text}
    {read : Token × Place}
    (hToken : read.1.isAnyWord = false)
    (hRest : read.2.rest <:+ text) :
    Scanned text read where
  rest := hRest
  word := by
    intro word escaped hWord
    rw [hWord] at hToken
    cases hToken

theorem scanned_wordToken
    (first : Bool)
    (p : Place) :
    Scanned p.rest (wordToken first p) := by
  unfold wordToken
  split
  · next name next hScan =>
      refine ⟨scanWord_suffix hScan, ?_⟩
      intro word escaped hWord
      cases hWord
      exact Or.inl (scanWord_plain hScan)
  · next name next hScan =>
      have hEscaped := scanWord_escaped hScan
      split
      · refine ⟨scanWord_suffix hScan, ?_⟩
        intro word escaped hWord
        cases hWord
        exact Or.inr hEscaped
      · refine ⟨scanWord_suffix hScan, ?_⟩
        intro word escaped hWord
        simp only [escapedToken] at hWord
        split_ifs at hWord
        · cases hWord
          exact Or.inr hEscaped
        · cases hWord
          exact Or.inl (List.take_prefix _ _)
        · cases hWord
          exact Or.inr hEscaped
  · exact .of_not_word rfl (p.skip_suffix 1)

theorem scanned_hashToken
    (p : Place) :
    Scanned p.rest (hashToken p) := by
  unfold hashToken
  split
  · split
    · split
      · next hScan =>
          exact .of_not_word rfl
            ((scanWord_suffix hScan).trans (p.skip_suffix 1))
      · exact .of_not_word rfl (p.skip_suffix 1)
    · exact .of_not_word rfl (p.skip_suffix 1)
  · exact .of_not_word rfl (p.skip_suffix 1)

------------------------------------------------------------
-- Numbers
------------------------------------------------------------

theorem scanDigits_suffix
    {base : Nat}
    {p next : Place}
    {digits : List Nat}
    (hScan : scanDigits base p = (digits, next)) :
    next.rest <:+ p.rest := by
  cases hScan
  exact p.after_suffix _

theorem scanned_endNumber
    {text : Text}
    {token : Token}
    {p : Place}
    (hToken : token.isAnyWord = false)
    (hRest : p.rest <:+ text) :
    Scanned text (endNumber token p) := by
  unfold endNumber
  split
  · split
    · exact .of_not_word rfl hRest
    · exact .of_not_word hToken hRest
  · exact .of_not_word hToken hRest

theorem scanned_scanBased
    {text : Text}
    {p : Place}
    (hRest : p.rest <:+ text)
    (base : Nat) :
    Scanned text (scanBased base p) := by
  unfold scanBased
  split
  next digits next hScan =>
    have hNext := (scanDigits_suffix hScan).trans hRest
    split
    · exact .of_not_word rfl hNext
    · split
      · exact .of_not_word rfl
          ((next.skip_suffix 1).trans hNext)
      · exact scanned_endNumber rfl hNext

theorem scanExponent_suffix
    {p last : Place}
    {exponent : Int}
    (hScan : scanExponent p = some (exponent, last)) :
    last.rest <:+ p.rest := by
  unfold scanExponent at hScan
  split at hScan
  next c cs hRest =>
    split at hScan
    · split at hScan
      next sign from_ hSign =>
        have hFrom : from_.rest <:+ p.rest := by
          split at hSign
          · cases hSign
            exact p.skip_suffix 2
          · cases hSign
            exact p.skip_suffix 2
          · cases hSign
            exact p.skip_suffix 1
        split at hScan
        next digits next hDigits =>
          split at hScan
          · cases hScan
          · cases hScan
            exact (scanDigits_suffix hDigits).trans hFrom
    · cases hScan
      exact List.suffix_rfl
  · cases hScan
    exact List.suffix_rfl

theorem scanned_scanFraction
    {text : Text}
    {p : Place}
    (hRest : p.rest <:+ text)
    (whole : List Nat) :
    Scanned text (scanFraction whole p) := by
  unfold scanFraction
  split
  next fraction next hFraction =>
    have hNext : next.rest <:+ p.rest := by
      split at hFraction
      · exact (scanDigits_suffix hFraction).trans
          (p.skip_suffix 1)
      · cases hFraction
        exact List.suffix_rfl
    split
    · exact .of_not_word rfl (hNext.trans hRest)
    · next exponent last hExponent =>
        apply scanned_endNumber rfl
        exact (scanExponent_suffix hExponent).trans
          (hNext.trans hRest)

theorem scanned_scanDecimal
    (p : Place) :
    Scanned p.rest (scanDecimal p) := by
  unfold scanDecimal
  split
  next digits next hScan =>
    have hNext := scanDigits_suffix hScan
    split
    · exact .of_not_word rfl
        ((next.skip_suffix 1).trans hNext)
    · exact scanned_scanFraction hNext digits

theorem scanned_scanZero
    (p : Place) :
    Scanned p.rest (scanZero p) := by
  unfold scanZero
  split
  next digits next hScan =>
    have hNext := scanDigits_suffix hScan
    split
    · exact scanned_scanDecimal p
    · split
      · exact scanned_endNumber rfl hNext
      · exact scanned_scanFraction hNext digits

theorem scanned_scanNumber
    (p : Place) :
    Scanned p.rest (scanNumber p) := by
  unfold scanNumber
  split
  · split_ifs
    · exact scanned_scanBased (p.skip_suffix 2) 16
    · exact scanned_scanBased (p.skip_suffix 2) 8
    · exact scanned_scanBased (p.skip_suffix 2) 2
    · exact scanned_scanZero p
  · exact scanned_scanDecimal p

------------------------------------------------------------
-- Strings, Templates, Regular Expressions And Markup
------------------------------------------------------------

theorem scanUnits_suffix
    {quote : Char}
    {skip pos : Nat}
    {read : Units}
    {text : Text}
    {units : List Nat}
    {next : Place}
    (hScan :
      scanUnits quote skip read text pos =
        some (units, next)) :
    next.rest <:+ text := by
  fun_induction scanUnits quote skip read text pos with
  | case1 =>
      cases hScan
      exact List.suffix_rfl
  | case2 skip units c cs pos ih =>
      exact (ih hScan).trans (List.suffix_cons c cs)
  | case3 units cs pos =>
      cases hScan
      exact List.suffix_cons _ cs
  | case4 =>
      cases hScan
      exact List.suffix_rfl
  | case5 => cases hScan
  | case6 units cs pos _ _ codes width _ ih =>
      exact (ih hScan).trans (List.suffix_cons _ cs)
  | case7 units c cs pos _ _ _ ih =>
      exact (ih hScan).trans (List.suffix_cons c cs)

theorem scanned_scanString
    (quote : Char)
    (p : Place) :
    Scanned p.rest (scanString quote p) := by
  unfold scanString
  split
  · next units next hScan =>
      exact .of_not_word rfl
        ((scanUnits_suffix hScan).trans
          (List.drop_suffix 1 p.rest))
  · exact .of_not_word rfl (p.skip_suffix 1)

theorem scanTemplate_suffix
    {cooked : Bool}
    {text : Text}
    {pos : Nat}
    {stretch : Stretch}
    (hScan : scanTemplate cooked text pos = some stretch) :
    stretch.next.rest <:+ text := by
  fun_induction scanTemplate cooked text pos with
  | case1 => cases hScan
  | case2 cooked c cs pos ih =>
      exact (ih hScan).trans (List.suffix_append ['\\', c] cs)
  | case3 cooked cs pos =>
      cases hScan
      exact List.suffix_append ['$', '{'] cs
  | case4 cooked cs pos =>
      cases hScan
      exact List.suffix_cons _ cs
  | case5 cooked c cs pos _ _ _ ih =>
      exact (ih hScan).trans (List.suffix_cons c cs)

theorem scanRegexBody_suffix
    {inClass : Bool}
    {text : Text}
    {pos : Nat}
    {next : Place}
    (hScan : scanRegexBody inClass text pos = some next) :
    next.rest <:+ text := by
  fun_induction scanRegexBody inClass text pos with
  | case1 => cases hScan
  | case2 => cases hScan
  | case3 inClass c cs pos _ ih =>
      exact (ih hScan).trans (List.suffix_append ['\\', c] cs)
  | case4 => cases hScan
  | case5 inClass c cs pos =>
      cases hScan
      exact List.suffix_cons c cs
  | case6 inClass cs pos _ _ _ ih =>
      exact (ih hScan).trans (List.suffix_cons _ cs)
  | case7 inClass cs pos _ _ _ _ ih =>
      exact (ih hScan).trans (List.suffix_cons _ cs)
  | case8 inClass c cs pos _ _ _ _ _ ih =>
      exact (ih hScan).trans (List.suffix_cons c cs)

theorem scanRegex_suffix
    {p next : Place}
    (hScan : scanRegex p = some next) :
    next.rest <:+ p.rest := by
  unfold scanRegex at hScan
  split at hScan
  · cases hScan
  · next body hBody =>
      have hNext : body.rest <:+ p.rest :=
        (scanRegexBody_suffix hBody).trans
          (List.drop_suffix 1 p.rest)
      split at hScan
      · split at hScan
        · cases hScan
          exact (body.after_suffix _).trans hNext
        · cases hScan
          exact hNext
      · cases hScan
        exact hNext

theorem scanMarkupText_suffix
    (p : Place) :
    (scanMarkupText p).rest <:+ p.rest :=
  p.after_suffix _

theorem scanMarkupString_suffix
    {p next : Place}
    (hScan : scanMarkupString p = some next) :
    next.rest <:+ p.rest := by
  unfold scanMarkupString at hScan
  split at hScan
  · simp only at hScan
    split at hScan
    · cases hScan
      exact (Place.skip_suffix _ 1).trans
        ((Place.after_suffix _ _).trans (p.skip_suffix 1))
    · cases hScan
  · cases hScan

theorem scanMarkupTail_suffix
    (p : Place) :
    (scanMarkupTail p).2.rest <:+ p.rest := by
  unfold scanMarkupTail
  split
  · exact p.after_suffix _
  · exact List.suffix_rfl

------------------------------------------------------------
-- Tokens
------------------------------------------------------------

/- A token is read from the text at its place. -/
theorem scanned_scanToken
    (first : Bool)
    (p : Place) :
    Scanned p.rest (scanToken first p) := by
  unfold scanToken
  split
  · exact .of_not_word rfl List.suffix_rfl
  · next c cs hRest =>
      split_ifs
      · exact scanned_wordToken first p
      · exact scanned_scanNumber p
      · exact scanned_scanString c p
      · exact scanned_hashToken p
      · exact scanned_scanFraction List.suffix_rfl []
      · split
        · exact .of_not_word rfl (p.skip_suffix _)
        · exact .of_not_word rfl (p.after_suffix _)

------------------------------------------------------------
-- Names That Are Not Mentioned
------------------------------------------------------------

/-
  Whether a word with escapes, wherever it may start in a
  text, is a name.
-/
def isEscapedIn
    (name text : Text) : Bool :=
  text.tails.any (escapesTo name)

/- A name that stands nowhere in a text. -/
structure Unmentioned
    (name text : Text) : Prop where
  plain : Text.occursIn name text = false
  escaped : isEscapedIn name text = false

theorem occursIn_of_startsWith
    {word text : Text}
    (hPrefix : word <+: text) :
    Text.occursIn word text = true := by
  rcases hPrefix with ⟨rest, rfl⟩
  have hAfter := Text.after?_append word rest
  cases hText : word ++ rest with
  | nil =>
      rcases List.append_eq_nil_iff.mp hText with ⟨rfl, _⟩
      rfl
  | cons c cs =>
      rw [hText] at hAfter
      simp [Text.occursIn, hAfter]

theorem occursIn_of_suffix
    {word text whole : Text}
    (hOccurs : Text.occursIn word text = true)
    (hSuffix : text <:+ whole) :
    Text.occursIn word whole = true := by
  rcases hSuffix with ⟨before, rfl⟩
  induction before with
  | nil => exact hOccurs
  | cons c before ih =>
      rw [List.cons_append, Text.occursIn, ih,
        Bool.or_true]

/- A name that is not mentioned stands nowhere. -/
theorem Unmentioned.not_standsAt
    {name text rest : Text}
    (hName : Unmentioned name text)
    (hRest : rest <:+ text) :
    ¬ StandsAt name rest := by
  rintro (hPrefix | hEscapes)
  · have hOccurs := occursIn_of_suffix
      (occursIn_of_startsWith hPrefix) hRest
    rw [hName.plain] at hOccurs
    cases hOccurs
  · have hEscaped : isEscapedIn name text = true :=
      List.any_eq_true.mpr
        ⟨rest, (List.mem_tails rest text).mpr hRest,
          hEscapes⟩
    rw [hName.escaped] at hEscaped
    cases hEscaped

/- An end of a text mentions no more than the text. -/
theorem Unmentioned.of_suffix
    {name text rest : Text}
    (hName : Unmentioned name text)
    (hRest : rest <:+ text) :
    Unmentioned name rest where
  plain := by
    by_contra hOccurs
    rw [Bool.not_eq_false] at hOccurs
    have hWhole := occursIn_of_suffix hOccurs hRest
    rw [hName.plain] at hWhole
    cases hWhole
  escaped := by
    unfold isEscapedIn
    rw [List.any_eq_false]
    intro tail hTail hEscapes
    have hSuffix := (List.mem_tails tail rest).mp hTail
    exact hName.not_standsAt (hSuffix.trans hRest)
      (Or.inr hEscapes)

end Script

end ComponentLoader
