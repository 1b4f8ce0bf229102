import Mathlib.Tactic
import ComponentLoader.Proofs.Component.Spelling
import ComponentLoader.Script.Lexer

/-
  The tokens of a text, read one after the other as where
  no slash divides and no template goes on, and what is
  read of the pieces of generated code.

  A text is read as some tokens in front of a rest if the
  tokens of both are these and those of the rest.

  Main declarations:
    * `Script.tokens`
    * `Script.ReadAs`
    * `Script.readAs_punct`
    * `Script.readAs_word`
    * `Script.readAs_quote`
-/

------------------------------------------------------------
-- Tokens In A Row
------------------------------------------------------------

namespace ComponentLoader

namespace Script

/- The next token at a place, and the place after it. -/
def nextToken
    (p : Place) : Token × Place :=
  scanToken false
    (skipGap .outside p.rest p.pos false none).next

/- At most some number of tokens from a place on. -/
def tokensUpTo : Nat → Place → List Token
  | 0, _ => []
  | fuel + 1, p =>
      let read := nextToken p
      if read.1 = .finish then
        []
      else
        read.1 :: tokensUpTo fuel read.2

/- The tokens of a text.  Each has a character or more. -/
def tokens
    (t : Text) : List Token :=
  tokensUpTo t.length { rest := t, pos := 0 }

/-
  A text that is read as some tokens in front of a rest,
  wherever it stands.
-/
structure ReadAs
    (t : Text)
    (ts : List Token)
    (rest : Text) : Prop where
  length : ts.length ≤ t.length
  tokens :
    ∀ fuel pos, ∃ next,
      tokensUpTo (ts.length + fuel)
          { rest := t ++ rest, pos := pos } =
        ts ++ tokensUpTo fuel { rest := rest, pos := next }

theorem readAs_nil
    (rest : Text) :
    ReadAs [] [] rest where
  length := Nat.le_refl 0
  tokens := by
    intro fuel pos
    refine ⟨pos, ?_⟩
    rw [List.length_nil, Nat.zero_add]
    rfl

/- Texts that follow each other are read in order. -/
theorem ReadAs.append
    {t u rest : Text}
    {ts us : List Token}
    (hFirst : ReadAs t ts (u ++ rest))
    (hSecond : ReadAs u us rest) :
    ReadAs (t ++ u) (ts ++ us) rest where
  length := by
    rw [List.length_append, List.length_append]
    exact Nat.add_le_add hFirst.length hSecond.length
  tokens := by
    intro fuel pos
    rcases hFirst.tokens (us.length + fuel) pos with
      ⟨middle, hMiddle⟩
    rcases hSecond.tokens fuel middle with ⟨next, hNext⟩
    refine ⟨next, ?_⟩
    rw [List.length_append, Nat.add_assoc, List.append_assoc,
      hMiddle, hNext, List.append_assoc]

/- One token is read if it is the next one. -/
theorem readAs_of_nextToken
    {t rest : Text}
    {token : Token}
    (hSome : t ≠ [])
    (hToken : token ≠ .finish)
    (hNext :
      ∀ pos, ∃ next,
        nextToken { rest := t ++ rest, pos := pos } =
          (token, { rest := rest, pos := next })) :
    ReadAs t [token] rest where
  length := List.length_pos_of_ne_nil hSome
  tokens := by
    intro fuel pos
    rcases hNext pos with ⟨next, hRead⟩
    refine ⟨next, ?_⟩
    rw [List.length_singleton, Nat.add_comm, tokensUpTo]
    simp [hRead, hToken]

/- At the end of a text there is no token. -/
theorem tokensUpTo_nil
    (fuel pos : Nat) :
    tokensUpTo fuel { rest := [], pos := pos } = [] := by
  cases fuel <;> rfl

/- The tokens of a text are those that it is read as. -/
theorem ReadAs.tokens_eq
    {t : Text}
    {ts : List Token}
    (hRead : ReadAs t ts []) :
    Script.tokens t = ts := by
  rcases hRead.tokens (t.length - ts.length) 0 with
    ⟨next, hNext⟩
  have hFuel : ts.length + (t.length - ts.length) = t.length :=
    Nat.add_sub_cancel' hRead.length
  rw [List.append_nil, hFuel, tokensUpTo_nil,
    List.append_nil] at hNext
  exact hNext

------------------------------------------------------------
-- Where Tokens Start
------------------------------------------------------------

/- Whether a character starts a token wherever it stands. -/
def isSolid
    (c : Char) : Bool :=
  !isGapChar c && c != '/' && c != '<'

/- Before such a character nothing is skipped. -/
theorem skipGap_solid
    {c : Char}
    (hSolid : isSolid c = true)
    (cs : Text)
    (pos : Nat) :
    (skipGap .outside (c :: cs) pos false none).next =
      { rest := c :: cs, pos := pos } := by
  unfold skipGap
  split <;> simp_all [isSolid]

theorem nextToken_solid
    {c : Char}
    (hSolid : isSolid c = true)
    (cs : Text)
    (pos : Nat) :
    nextToken { rest := c :: cs, pos := pos } =
      scanToken false { rest := c :: cs, pos := pos } := by
  rw [nextToken, skipGap_solid hSolid]

/- A space before tokens does not matter. -/
theorem ReadAs.space
    {t rest : Text}
    {ts : List Token}
    (hRead : ReadAs t ts rest) :
    ReadAs (' ' :: t) ts rest where
  length := Nat.le_succ_of_le hRead.length
  tokens := by
    intro fuel pos
    have hSkip :
        nextToken { rest := ' ' :: (t ++ rest), pos := pos } =
          nextToken
            { rest := t ++ rest, pos := pos + 1 } := rfl
    have hSame :
        ∀ n,
          tokensUpTo n
              { rest := ' ' :: (t ++ rest), pos := pos } =
            tokensUpTo n
              { rest := t ++ rest, pos := pos + 1 } := by
      intro n
      cases n with
      | zero => rfl
      | succ n => rw [tokensUpTo, tokensUpTo, hSkip]
    rw [List.cons_append]
    simp only [hSame]
    exact hRead.tokens fuel (pos + 1)

------------------------------------------------------------
-- Punctuators
------------------------------------------------------------

/- Characters that are punctuators wherever they stand. -/
def solidPuncts : List (Char × Punct) :=
  [('{', .lbrace), ('}', .rbrace), ('(', .lparen),
    (')', .rparen), ('[', .lbracket), (']', .rbracket),
    (',', .comma), (':', .colon)]

theorem readAs_punct
    (c : Char)
    (p : Punct)
    (hPunct : (c, p) ∈ solidPuncts)
    (rest : Text) :
    ReadAs [c] [.punct p] rest := by
  apply readAs_of_nextToken (by simp) (by simp)
  intro pos
  refine ⟨pos + 1, ?_⟩
  simp only [solidPuncts, List.mem_cons, Prod.mk.injEq,
    List.not_mem_nil, or_false] at hPunct
  rcases hPunct with ⟨rfl, rfl⟩ | ⟨rfl, rfl⟩ | ⟨rfl, rfl⟩ |
    ⟨rfl, rfl⟩ | ⟨rfl, rfl⟩ | ⟨rfl, rfl⟩ | ⟨rfl, rfl⟩ |
    ⟨rfl, rfl⟩ <;>
    rfl

theorem readAs_ellipsis
    (rest : Text) :
    ReadAs ['.', '.', '.'] [.punct .ellipsis] rest :=
  readAs_of_nextToken (by simp) (by simp)
    fun pos => ⟨pos + 3, rfl⟩

------------------------------------------------------------
-- Words
------------------------------------------------------------

/- Whether a word ends before a text. -/
def endsWord : Text → Bool
  | [] => true
  | c :: _ => !Text.isIdentPart c && c != '\\'

/- What starts a plain word starts it wherever it stands. -/
theorem isSolid_of_isPlainStart
    {c : Char}
    (hStart : Text.isPlainStart c = true) :
    isSolid c = true := by
  have hAll :
      ∀ n : Fin 0x80,
        Text.isPlainStart (Char.ofNat n) = true →
          isSolid (Char.ofNat n) = true := by
    decide +kernel
  have hPart : Text.isPlainPart c = true := by
    simp only [Text.isPlainStart, Text.isPlainPart,
      Char.isAlphanum, Bool.or_eq_true] at hStart ⊢
    tauto
  have hChar := hAll
    ⟨c.toNat, Text.toNat_lt_of_isPlainPart hPart⟩
  rw [Char.ofNat_toNat] at hChar
  exact hChar hStart

theorem scanWord_of_endsWord
    {w rest : Text}
    (hSome : w ≠ [])
    (hParts : ∀ c ∈ w, Text.isIdentPart c = true)
    (hEnd : endsWord rest = true)
    (pos : Nat) :
    scanWord { rest := w ++ rest, pos := pos } =
      some (w, false,
        { rest := rest, pos := pos + Text.size w }) := by
  have hTake :
      (w ++ rest).takeWhile Text.isIdentPart = w := by
    rw [List.takeWhile_append_of_pos hParts]
    cases rest with
    | nil => simp
    | cons c cs =>
        simp only [endsWord, Bool.and_eq_true,
          Bool.not_eq_true'] at hEnd
        simp [hEnd.1]
  unfold scanWord
  simp only [hTake, Place.after, List.drop_left]
  split
  · exact absurd hEnd (by simp [endsWord])
  · rw [if_neg (by simpa using hSome)]

theorem scanToken_word
    {w rest : Text}
    (hPlain : Text.isPlainIdentifier w = true)
    (hEnd : endsWord rest = true)
    (pos : Nat) :
    scanToken false { rest := w ++ rest, pos := pos } =
      (.word w false,
        { rest := rest, pos := pos + Text.size w }) := by
  cases w with
  | nil => exact absurd hPlain (by decide)
  | cons c cs =>
      rw [Text.isPlainIdentifier, Bool.and_eq_true,
        List.all_eq_true] at hPlain
      rcases hPlain with ⟨hStart, hParts⟩
      have hFirst := Text.isIdentStart_of_isPlainStart hStart
      have hAll :
          ∀ d ∈ c :: cs, Text.isIdentPart d = true := by
        intro d hMem
        rcases List.mem_cons.mp hMem with rfl | hMem
        · exact Text.isIdentPart_of_isIdentStart d hFirst
        · exact Text.isIdentPart_of_isPlainPart
            (hParts d hMem)
      have hScan := scanWord_of_endsWord (by simp) hAll hEnd
        pos
      rw [List.cons_append] at hScan ⊢
      unfold scanToken
      simp only [hFirst, Bool.true_or, if_true]
      rw [wordToken, hScan]

/- A plain identifier is a word. -/
theorem readAs_word
    {w rest : Text}
    (hPlain : Text.isPlainIdentifier w = true)
    (hEnd : endsWord rest = true) :
    ReadAs w [.word w false] rest := by
  cases w with
  | nil => exact absurd hPlain (by decide)
  | cons c cs =>
      apply readAs_of_nextToken (by simp) (by simp)
      intro pos
      refine ⟨pos + Text.size (c :: cs), ?_⟩
      have hScan := scanToken_word hPlain hEnd pos
      rw [Text.isPlainIdentifier, Bool.and_eq_true] at hPlain
      rw [List.cons_append] at hScan ⊢
      rw [nextToken_solid (isSolid_of_isPlainStart hPlain.1),
        hScan]

------------------------------------------------------------
-- Strings
------------------------------------------------------------

theorem Units.all_push
    (u : Units)
    (c : Char) :
    (u.push c).all = u.all ++ [c.toNat] := by
  simp [Units.all, Units.push]

theorem Units.all_escape
    (u : Units)
    (code : Nat) :
    (u.escape [code]).all = u.all ++ [code] := by
  simp [Units.all, Units.escape]

/- Reading a string from where some code points are read. -/
def ReadsOn
    (t : Text)
    (codes : List Nat)
    (rest : Text) : Prop :=
  ∀ u pos, ∃ v next,
    scanUnits '"' 0 u (t ++ rest) pos =
        scanUnits '"' 0 v rest next ∧
      v.all = u.all ++ codes

/- A character that is passed over within an escape. -/
theorem scanUnits_skip
    (skip : Text)
    (u : Units)
    (rest : Text)
    (pos : Nat) :
    scanUnits '"' skip.length u (skip ++ rest) pos =
      scanUnits '"' 0 u rest (pos + Text.size skip) := by
  induction skip generalizing pos with
  | nil => rfl
  | cons c cs ih =>
      rw [List.length_cons, List.cons_append, scanUnits, ih,
        Text.size, Nat.add_assoc]

/- An escape is read as the code that it has. -/
theorem readsOn_escape
    {escape rest : Text}
    {code : Nat}
    (hEscape :
      stringEscape? (escape ++ rest) =
        some ([code], escape.length)) :
    ReadsOn ('\\' :: escape) [code] rest := by
  have hQuote : '\\' ≠ '"' := by decide
  have hLine : ¬ ('\\' = '\n' ∨ '\\' = '\r') := by decide
  intro u pos
  refine ⟨u.escape [code], pos + 1 + Text.size escape, ?_,
    u.all_escape code⟩
  rw [List.cons_append, scanUnits, if_neg hQuote]
  simp only [Bool.or_eq_true, decide_eq_true_eq, hLine,
    if_false, if_true, hEscape]
  exact scanUnits_skip escape _ rest (pos + 1)

/- Two zeros and two digits are the code of a control. -/
theorem hexEscape?_control
    (n : Fin 0x20)
    (rest : Text) :
    hexEscape? 4 (Text.padLeft 4 (Text.hex n) ++ rest) =
      some (n.val, 4) := by
  fin_cases n <;> cases rest <;> rfl

theorem stringEscape?_control
    (n : Fin 0x20)
    (rest : Text) :
    stringEscape?
        ('u' :: Text.padLeft 4 (Text.hex n) ++ rest) =
      some ([n.val], 5) := by
  have hHex := hexEscape?_control n rest
  have hHigh : isHighHalf n = false := by
    simp [isHighHalf]
    omega
  have hFirst :
      ∃ cs, Text.padLeft 4 (Text.hex n) = '0' :: cs := by
    fin_cases n <;> exact ⟨_, rfl⟩
  have hCode :
      unicodeEscape?
          (Text.padLeft 4 (Text.hex n) ++ rest) =
        some (n.val, 4) := by
    rcases hFirst with ⟨cs, hFirst⟩
    rw [hFirst] at hHex ⊢
    unfold unicodeEscape?
    split
    · next hOpen =>
        exact absurd (List.cons.inj hOpen).1 (by decide)
    · simp only [hHex, hHigh]
      split <;> rfl
  rw [List.cons_append, stringEscape?, hCode]
  rfl

/- A quoted character is read as its code. -/
theorem readsOn_quoteChar
    (c : Char)
    (rest : Text) :
    ReadsOn (Text.quoteChar c) [c.toNat] rest := by
  unfold Text.quoteChar
  split_ifs with hQuote hSlash hBack hFeed hLine hReturn
    hTab hControl
  · subst hQuote
    exact readsOn_escape rfl
  · subst hSlash
    exact readsOn_escape rfl
  · subst hBack
    exact readsOn_escape rfl
  · subst hFeed
    exact readsOn_escape rfl
  · subst hLine
    exact readsOn_escape rfl
  · subst hReturn
    exact readsOn_escape rfl
  · subst hTab
    exact readsOn_escape rfl
  · have hLength :=
      (Text.hexCode?_control ⟨c.toNat, hControl⟩).1
    have hEscape :=
      stringEscape?_control ⟨c.toNat, hControl⟩ rest
    have hWidth :
        ('u' :: Text.padLeft 4 (Text.hex c.toNat)).length =
          5 := by
      rw [List.length_cons, hLength]
    apply readsOn_escape
    refine hEscape.trans ?_
    rw [← hWidth]
    rfl
  · intro u pos
    refine ⟨u.push c, pos + c.utf8Size, ?_, u.all_push c⟩
    rw [List.singleton_append, scanUnits, if_neg hQuote]
    simp [hLine, hReturn, hSlash]

/- The characters of a string are read in order. -/
theorem readsOn_flatMap_quoteChar
    (value rest : Text) :
    ReadsOn (value.flatMap Text.quoteChar)
      (value.map Char.toNat) rest := by
  induction value with
  | nil => exact fun u pos => ⟨u, pos, rfl, by simp⟩
  | cons c cs ih =>
      intro u pos
      rw [List.flatMap_cons, List.append_assoc]
      rcases readsOn_quoteChar c _ u pos with
        ⟨v, middle, hFirst, hV⟩
      rcases ih v middle with ⟨w, next, hSecond, hW⟩
      refine ⟨w, next, hFirst.trans hSecond, ?_⟩
      rw [hW, hV, List.map_cons, List.append_assoc]
      rfl

/- No character is a half of a pair. -/
theorem isHalf_toNat
    (c : Char) :
    Surrogates.isLead c.toNat = false ∧
      Surrogates.isTrail c.toNat = false := by
  have hValid : c.toNat.isValidChar := c.valid
  simp only [Surrogates.isLead, Surrogates.isTrail,
    Bool.and_eq_false_iff, decide_eq_false_iff_not]
  unfold Nat.isValidChar at hValid
  omega

/- Whole characters make their text. -/
theorem text?_map_toNat
    (value : Text) :
    Surrogates.text? (value.map Char.toNat) =
      some value := by
  induction value with
  | nil => rfl
  | cons c cs ih =>
      rcases isHalf_toNat c with ⟨hLead, hTrail⟩
      cases cs with
      | nil => simp [Surrogates.text?, hLead, hTrail]
      | cons d ds =>
          rw [List.map_cons] at ih
          simp [Surrogates.text?, hLead, hTrail, ih]

/- A quoted text is a string with this text. -/
theorem readAs_quote
    (value rest : Text) :
    ReadAs (Text.quote value) [.string (some value)]
      rest := by
  have hSolid : isSolid '"' = true := by decide
  have hStart : Text.isIdentStart '"' = false := by decide
  have hDigit : '"'.isDigit = false := by decide
  apply readAs_of_nextToken (by simp [Text.quote]) (by simp)
  intro pos
  rcases readsOn_flatMap_quoteChar value ('"' :: rest)
      ⟨[], []⟩ (pos + 1) with
    ⟨v, next, hRead, hAll⟩
  have hClose :
      scanUnits '"' 0 v ('"' :: rest) next =
        some (v.all, { rest := rest, pos := next + 1 }) := by
    rw [scanUnits, if_pos rfl]
  have hText :
      Text.quote value ++ rest =
        '"' :: (value.flatMap Text.quoteChar ++
          '"' :: rest) := by
    simp [Text.quote]
  refine ⟨next + 1, ?_⟩
  rw [hText, nextToken_solid hSolid]
  unfold scanToken
  simp only [hStart, hDigit]
  have hCodes : v.all = value.map Char.toNat := hAll
  simp [scanString, hRead, hClose, hCodes, text?_map_toNat]

end Script

end ComponentLoader
