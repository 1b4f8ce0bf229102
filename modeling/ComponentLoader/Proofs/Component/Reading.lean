import Mathlib.Tactic
import ComponentLoader.Proofs.Script.Tokens

/-
  Generated code is read back as what it was made from.

  The reader below follows the rules of scripts for string,
  object and array literals and for calls of the import
  function.  In an array literal a comma without an item
  before it leaves a hole, and one comma after the last
  item adds nothing.

  Main declarations:
    * `Node.readFrom`
    * `Node.read?`
    * `Node.tokens`
    * `Node.readAs_render`
    * `Node.readFrom_tokens`
    * `Node.read?_render_iff`
-/

------------------------------------------------------------
-- The Reader
------------------------------------------------------------

namespace ComponentLoader

open Script (Token ReadAs endsWord)

/- The words of the truth values. -/
def trueWord : Text :=
  "true".toList

def falseWord : Text :=
  "false".toList

/- The import of a resource, after the name of the function. -/
def Node.importFrom? :
    List Token → Option (Node × List Token)
  | .punct .lparen :: .string (some request) ::
      .punct .rparen :: rest =>
      some (.resource request, rest)
  | _ => none

/- The expression that a word starts. -/
def Node.wordFrom?
    (word : Text)
    (rest : List Token) : Option (Node × List Token) :=
  if word = trueWord then
    some (.bool true, rest)
  else if word = falseWord then
    some (.bool false, rest)
  else if word = importName then
    Node.importFrom? rest
  else
    none

mutual

/- An expression at the start of some tokens. -/
def Node.readFrom :
    Nat → List Token → Option (Node × List Token)
  | 0, _ => none
  | fuel + 1, ts =>
      match ts with
      | .string (some value) :: rest =>
          some (.str value, rest)
      | .word word false :: rest =>
          Node.wordFrom? word rest
      | .punct .lbrace :: rest =>
          (PropNode.readAll fuel rest).map fun r =>
            (.object r.1, r.2)
      | .punct .lbracket :: rest =>
          (Node.readItems fuel rest).map fun r =>
            (.array r.1, r.2)
      | _ => none
termination_by structural fuel => fuel

/- The items of an array literal, with its bracket. -/
def Node.readItems :
    Nat → List Token → Option (List Node × List Token)
  | 0, _ => none
  | fuel + 1, ts =>
      match ts with
      | .punct .rbracket :: rest => some ([], rest)
      | .punct .comma :: rest =>
          (Node.readItems fuel rest).map fun r =>
            (.hole :: r.1, r.2)
      | _ =>
          match Node.readFrom fuel ts with
          | some (n, .punct .rbracket :: rest) =>
              some ([n], rest)
          | some (n, .punct .comma :: rest) =>
              (Node.readItems fuel rest).map fun r =>
                (n :: r.1, r.2)
          | _ => none
termination_by structural fuel => fuel

/- An entry of an object literal. -/
def PropNode.readFrom :
    Nat → List Token → Option (PropNode × List Token)
  | 0, _ => none
  | fuel + 1, ts =>
      match ts with
      | .punct .ellipsis :: rest =>
          (Node.readFrom fuel rest).map fun r =>
            (.spread r.1, r.2)
      | .word key false :: .punct .colon :: rest =>
          (Node.readFrom fuel rest).map fun r =>
            (.keyValue key r.1, r.2)
      | .string (some key) :: .punct .colon :: rest =>
          (Node.readFrom fuel rest).map fun r =>
            (.keyValue key r.1, r.2)
      | _ => none
termination_by structural fuel => fuel

/- The entries of an object literal, with its brace. -/
def PropNode.readAll :
    Nat → List Token → Option (List PropNode × List Token)
  | 0, _ => none
  | fuel + 1, ts =>
      match ts with
      | .punct .rbrace :: rest => some ([], rest)
      | _ =>
          match PropNode.readFrom fuel ts with
          | some (p, .punct .rbrace :: rest) =>
              some ([p], rest)
          | some (p, .punct .comma :: rest) =>
              (PropNode.readAll fuel rest).map fun r =>
                (p :: r.1, r.2)
          | _ => none
termination_by structural fuel => fuel

end

/- The expression that a text is.  A token takes two steps. -/
def Node.read?
    (t : Text) : Option Node :=
  let ts := Script.tokens t
  match Node.readFrom (2 * ts.length) ts with
  | some (n, []) => some n
  | _ => none

------------------------------------------------------------
-- The Tokens Of Nodes
------------------------------------------------------------

/- The token of a key. -/
def keyToken
    (key : Text) : Token :=
  if Text.isPlainIdentifier key then
    .word key false
  else
    .string (some key)

mutual

/- The tokens that an expression is written with. -/
def Node.tokens : Node → List Token
  | .str value => [.string (some value)]
  | .bool true => [.word trueWord false]
  | .bool false => [.word falseWord false]
  | .resource request =>
      [.word importName false, .punct .lparen,
        .string (some request), .punct .rparen]
  | .object props => .punct .lbrace :: PropNode.allTokens props
  | .array items => .punct .lbracket :: Node.allTokens items
  | .hole => []
  | .source _ => []
termination_by structural n => n

/- The tokens of the items of an array, with its bracket. -/
def Node.allTokens : List Node → List Token
  | [] => [.punct .rbracket]
  | .hole :: ns => .punct .comma :: Node.allTokens ns
  | [n] => n.tokens ++ [.punct .rbracket]
  | n :: ns => n.tokens ++ .punct .comma :: Node.allTokens ns
termination_by structural ns => ns

/- The tokens that an entry is written with. -/
def PropNode.tokens : PropNode → List Token
  | .keyValue key value =>
      keyToken key :: .punct .colon :: value.tokens
  | .spread value => .punct .ellipsis :: value.tokens
  | .source _ => []
termination_by structural p => p

/- The tokens of the entries of an object, with its brace. -/
def PropNode.allTokens : List PropNode → List Token
  | [] => [.punct .rbrace]
  | [p] => p.tokens ++ [.punct .rbrace]
  | p :: ps =>
      p.tokens ++ .punct .comma :: PropNode.allTokens ps
termination_by structural ps => ps

end

theorem Node.allTokens_singleton
    {n : Node}
    (hNode : n ≠ .hole) :
    Node.allTokens [n] =
      n.tokens ++ [.punct .rbracket] := by
  cases n with
  | hole => exact absurd rfl hNode
  | _ => simp [Node.allTokens]

theorem Node.allTokens_cons
    {n : Node}
    (hNode : n ≠ .hole)
    (m : Node)
    (ns : List Node) :
    Node.allTokens (n :: m :: ns) =
      n.tokens ++
        .punct .comma :: Node.allTokens (m :: ns) := by
  cases n with
  | hole => exact absurd rfl hNode
  | _ => simp [Node.allTokens]

------------------------------------------------------------
-- Written Nodes As Tokens
------------------------------------------------------------

/- A key is written as one token. -/
theorem readAs_renderKey
    (key rest : Text)
    (hEnd : endsWord rest = true) :
    ReadAs (renderKey key) [keyToken key] rest := by
  unfold renderKey keyToken
  split
  · next hPlain => exact Script.readAs_word hPlain hEnd
  · exact Script.readAs_quote key rest

/- A comma and the blank after it are one token. -/
theorem ReadAs.comma
    {t rest : Text}
    {ts : List Token}
    (hRead : ReadAs t ts rest) :
    ReadAs (',' :: ' ' :: t) (.punct .comma :: ts) rest :=
  (Script.readAs_punct ',' .comma (by decide) _).append
    hRead.space

mutual

/- A written expression is read as its tokens. -/
theorem Node.readAs_render :
    (n : Node) →
    n.isGenerated = true →
    (rest : Text) →
    endsWord rest = true →
    ReadAs n.render n.tokens rest
  | .str value, _, rest, _ => Script.readAs_quote value rest
  | .bool true, _, _, hEnd =>
      Script.readAs_word (by decide) hEnd
  | .bool false, _, _, hEnd =>
      Script.readAs_word (by decide) hEnd
  | .resource request, _, rest, _ => by
      have hName : ReadAs importName
          [.word importName false]
          ('(' :: Text.quote request ++ [')'] ++ rest) :=
        Script.readAs_word (by decide) rfl
      have hOpen := Script.readAs_punct '(' .lparen
        (by decide)
        (Text.quote request ++ [')'] ++ rest)
      have hString := Script.readAs_quote request
        ([')'] ++ rest)
      have hClose := Script.readAs_punct ')' .rparen
        (by decide) rest
      have hArgument := hString.append hClose
      have hCall := hOpen.append hArgument
      have hAll := hName.append hCall
      simpa [Node.render, renderImport, Node.tokens]
        using hAll
  | .object [], _, rest, _ => by
      have hOpen := Script.readAs_punct '{' .lbrace
        (by decide) ('}' :: rest)
      have hClose := Script.readAs_punct '}' .rbrace
        (by decide) rest
      have hAll := hOpen.append hClose
      simpa [Node.render, Node.tokens, PropNode.allTokens]
        using hAll
  | .object (p :: ps), hGenerated, rest, _ => by
      have hEntries := PropNode.readAs_renderAll (p :: ps)
        (by simpa [Node.isGenerated] using hGenerated)
        (by simp) rest
      have hOpen := Script.readAs_punct '{' .lbrace
        (by decide)
        (' ' :: (PropNode.renderAll (p :: ps) ++
          [' ', '}']) ++ rest)
      have hAll := hOpen.append hEntries.space
      simpa [Node.render, Node.tokens] using hAll
  | .array items, hGenerated, rest, _ => by
      have hItems := Node.readAs_renderAll items
        (by simpa [Node.isGenerated] using hGenerated) rest
      have hOpen := Script.readAs_punct '[' .lbracket
        (by decide)
        (Node.renderAll items ++
          (if endsWithHole items then [','] else []) ++
          [']'] ++ rest)
      have hAll := hOpen.append hItems
      simpa [Node.render, Node.tokens] using hAll
  | .hole, _, rest, _ => Script.readAs_nil rest
  | .source _, hGenerated, _, _ =>
      absurd hGenerated (by simp [Node.isGenerated])
termination_by structural n => n

theorem Node.readAs_renderAll :
    (items : List Node) →
    Node.areGenerated items = true →
    (rest : Text) →
    ReadAs
      (Node.renderAll items ++
        (if endsWithHole items then [','] else []) ++ [']'])
      (Node.allTokens items) rest
  | [], _, rest =>
      Script.readAs_punct ']' .rbracket (by decide) rest
  | [n], hGenerated, rest => by
      have hClose := Script.readAs_punct ']' .rbracket
        (by decide) rest
      by_cases hNode : n = .hole
      · subst hNode
        have hComma := Script.readAs_punct ',' .comma
          (by decide)
          ([']'] ++ rest)
        exact hComma.append hClose
      · simp only [Node.areGenerated, Bool.and_true]
          at hGenerated
        have hItem := Node.readAs_render n hGenerated
          (']' :: rest) rfl
        rw [endsWithHole_singleton hNode,
          Node.allTokens_singleton hNode]
        simpa [Node.renderAll] using hItem.append hClose
  | n :: m :: rest, hGenerated, more => by
      rw [Node.areGenerated, Bool.and_eq_true]
        at hGenerated
      rw [endsWithHole_cons]
      have hRest := ReadAs.comma
        (Node.readAs_renderAll (m :: rest) hGenerated.2 more)
      by_cases hNode : n = .hole
      · subst hNode
        simpa [Node.renderAll, Node.render, Node.allTokens]
          using hRest
      · have hItem := Node.readAs_render n hGenerated.1
          (',' :: ' ' ::
            (Node.renderAll (m :: rest) ++
              (if endsWithHole (m :: rest) then [','] else [])
              ++ [']']) ++ more) rfl
        rw [Node.allTokens_cons hNode]
        simpa [Node.renderAll] using hItem.append hRest
termination_by structural items => items

theorem PropNode.readAs_render :
    (p : PropNode) →
    p.isGenerated = true →
    (rest : Text) →
    endsWord rest = true →
    ReadAs p.render p.tokens rest
  | .keyValue key value, hGenerated, rest, hEnd => by
      have hValue := Node.readAs_render value
        (by simpa [PropNode.isGenerated] using hGenerated)
        rest hEnd
      have hKey := readAs_renderKey key
        (':' :: ' ' :: value.render ++ rest) rfl
      have hColon := Script.readAs_punct ':' .colon
        (by decide)
        (' ' :: value.render ++ rest)
      have hAll := hKey.append (hColon.append hValue.space)
      simpa [PropNode.render, PropNode.tokens] using hAll
  | .spread value, hGenerated, rest, hEnd => by
      have hValue := Node.readAs_render value
        (by simpa [PropNode.isGenerated] using hGenerated)
        rest hEnd
      have hDots := Script.readAs_ellipsis
        (value.render ++ rest)
      simpa [PropNode.render, PropNode.tokens]
        using hDots.append hValue
  | .source _, hGenerated, _, _ =>
      absurd hGenerated (by simp [PropNode.isGenerated])
termination_by structural p => p

theorem PropNode.readAs_renderAll :
    (props : List PropNode) →
    PropNode.areGenerated props = true →
    props ≠ [] →
    (rest : Text) →
    ReadAs (PropNode.renderAll props ++ [' ', '}'])
      (PropNode.allTokens props) rest
  | [], _, hSome, _ => absurd rfl hSome
  | [p], hGenerated, _, rest => by
      simp only [PropNode.areGenerated, Bool.and_true]
        at hGenerated
      have hEntry := PropNode.readAs_render p hGenerated
        (' ' :: '}' :: rest) rfl
      have hClose := Script.readAs_punct '}' .rbrace
        (by decide) rest
      simpa [PropNode.renderAll, PropNode.allTokens]
        using hEntry.append hClose.space
  | p :: q :: more, hGenerated, _, rest => by
      rw [PropNode.areGenerated, Bool.and_eq_true]
        at hGenerated
      have hRest := ReadAs.comma
        (PropNode.readAs_renderAll (q :: more) hGenerated.2
          (by simp) rest)
      have hEntry := PropNode.readAs_render p hGenerated.1
        (',' :: ' ' ::
          (PropNode.renderAll (q :: more) ++ [' ', '}']) ++
            rest) rfl
      simpa [PropNode.renderAll, PropNode.allTokens]
        using hEntry.append hRest
termination_by structural props => props

end

------------------------------------------------------------
-- Reading Tokens
------------------------------------------------------------

section

variable {fuel : Nat}
variable {ts rest : List Token}

/- No expression starts with what ends or parts items. -/
theorem Node.readFrom_punct
    {p : Script.Punct}
    (hOpen : p ≠ .lbrace ∧ p ≠ .lbracket) :
    Node.readFrom fuel (.punct p :: rest) = none := by
  cases fuel with
  | zero => rfl
  | succ fuel =>
      cases p <;> first | rfl | simp at hOpen

/- An item is read in front of a bracket. -/
theorem Node.readItems_last
    {n : Node}
    (hItem :
      Node.readFrom fuel ts =
        some (n, .punct .rbracket :: rest)) :
    Node.readItems (fuel + 1) ts = some ([n], rest) := by
  unfold Node.readItems
  split
  · rw [Node.readFrom_punct (by decide)] at hItem
    exact absurd hItem (by simp)
  · rw [Node.readFrom_punct (by decide)] at hItem
    exact absurd hItem (by simp)
  · simp only [hItem]

/- An item is read in front of a comma and more items. -/
theorem Node.readItems_cons
    {n : Node}
    {items : List Node}
    {more : List Token}
    (hItem :
      Node.readFrom fuel ts =
        some (n, .punct .comma :: more))
    (hRest : Node.readItems fuel more = some (items, rest)) :
    Node.readItems (fuel + 1) ts =
      some (n :: items, rest) := by
  unfold Node.readItems
  split
  · rw [Node.readFrom_punct (by decide)] at hItem
    exact absurd hItem (by simp)
  · rw [Node.readFrom_punct (by decide)] at hItem
    exact absurd hItem (by simp)
  · simp only [hItem, hRest]
    rfl

/- No entry starts with a closing brace. -/
theorem PropNode.readFrom_rbrace :
    PropNode.readFrom fuel (.punct .rbrace :: rest) =
      none := by
  cases fuel <;> rfl

theorem PropNode.readAll_last
    {p : PropNode}
    (hEntry :
      PropNode.readFrom fuel ts =
        some (p, .punct .rbrace :: rest)) :
    PropNode.readAll (fuel + 1) ts = some ([p], rest) := by
  unfold PropNode.readAll
  split
  · rw [PropNode.readFrom_rbrace] at hEntry
    exact absurd hEntry (by simp)
  · simp only [hEntry]

theorem PropNode.readAll_cons
    {p : PropNode}
    {props : List PropNode}
    {more : List Token}
    (hEntry :
      PropNode.readFrom fuel ts =
        some (p, .punct .comma :: more))
    (hRest : PropNode.readAll fuel more = some (props, rest)) :
    PropNode.readAll (fuel + 1) ts =
      some (p :: props, rest) := by
  unfold PropNode.readAll
  split
  · rw [PropNode.readFrom_rbrace] at hEntry
    exact absurd hEntry (by simp)
  · simp only [hEntry, hRest]
    rfl

/- A key and a colon are read before a value. -/
theorem PropNode.readFrom_key
    {n : Node}
    (key : Text)
    (hValue : Node.readFrom fuel ts = some (n, rest)) :
    PropNode.readFrom (fuel + 1)
        (keyToken key :: .punct .colon :: ts) =
      some (.keyValue key n, rest) := by
  unfold keyToken
  split <;> simp [PropNode.readFrom, hValue]

end

/- Any fuel for two steps a token is some fuel and one. -/
theorem exists_fuel
    {n fuel : Nat}
    (hFuel : 2 * (n + 1) ≤ fuel) :
    ∃ less, fuel = less + 1 ∧ 2 * n < less :=
  ⟨fuel - 1, by omega, by omega⟩

mutual

/- The tokens of an expression are read as it. -/
theorem Node.readFrom_tokens :
    (n : Node) →
    n.isGenerated = true →
    n.isComplete = true →
    (fuel : Nat) →
    2 * n.tokens.length ≤ fuel →
    (rest : List Token) →
    Node.readFrom fuel (n.tokens ++ rest) = some (n, rest)
  | .str value, _, _, fuel, hFuel, rest => by
      rcases exists_fuel hFuel with ⟨less, rfl, _⟩
      rfl
  | .bool true, _, _, fuel, hFuel, rest => by
      rcases exists_fuel hFuel with ⟨less, rfl, _⟩
      rfl
  | .bool false, _, _, fuel, hFuel, rest => by
      rcases exists_fuel hFuel with ⟨less, rfl, _⟩
      rfl
  | .resource request, _, _, fuel, hFuel, rest => by
      rcases exists_fuel hFuel with ⟨less, rfl, _⟩
      rfl
  | .object props, hGenerated, hComplete, fuel, hFuel,
      rest => by
      rw [Node.tokens, List.length_cons] at hFuel
      rcases exists_fuel hFuel with ⟨less, rfl, hLess⟩
      have hProps := PropNode.readAll_tokens props
        (by simpa [Node.isGenerated] using hGenerated)
        (by simpa [Node.isComplete] using hComplete)
        less hLess.le rest
      rw [Node.tokens, List.cons_append, Node.readFrom,
        hProps]
      rfl
  | .array items, hGenerated, hComplete, fuel, hFuel,
      rest => by
      rw [Node.tokens, List.length_cons] at hFuel
      rcases exists_fuel hFuel with ⟨less, rfl, hLess⟩
      have hItems := Node.readItems_tokens items
        (by simpa [Node.isGenerated] using hGenerated)
        (by simpa [Node.isComplete] using hComplete)
        less hLess.le rest
      rw [Node.tokens, List.cons_append, Node.readFrom,
        hItems]
      rfl
  | .hole, _, hComplete, _, _, _ =>
      absurd hComplete (by simp [Node.isComplete])
  | .source _, hGenerated, _, _, _, _ =>
      absurd hGenerated (by simp [Node.isGenerated])
termination_by structural n => n

theorem Node.readItems_tokens :
    (items : List Node) →
    Node.areGenerated items = true →
    Node.areItems items = true →
    (fuel : Nat) →
    2 * (Node.allTokens items).length ≤ fuel →
    (rest : List Token) →
    Node.readItems fuel (Node.allTokens items ++ rest) =
      some (items, rest)
  | [], _, _, fuel, hFuel, rest => by
      rcases exists_fuel hFuel with ⟨less, rfl, _⟩
      rfl
  | [n], hGenerated, hItems, fuel, hFuel, rest => by
      by_cases hNode : n = .hole
      · subst hNode
        rcases exists_fuel hFuel with ⟨less, rfl, hLess⟩
        cases less with
        | zero => exact absurd hLess (by simp)
        | succ less => rfl
      · rw [Node.areItems_cons hNode, Bool.and_eq_true]
          at hItems
        simp only [Node.areGenerated, Bool.and_true]
          at hGenerated
        rw [Node.allTokens_singleton hNode,
          List.length_append] at hFuel
        rcases exists_fuel hFuel with ⟨less, rfl, hLess⟩
        rw [Node.allTokens_singleton hNode,
          List.append_assoc]
        exact Node.readItems_last
          (Node.readFrom_tokens n hGenerated hItems.1 less
            hLess.le _)
  | n :: m :: ns, hGenerated, hItems, fuel, hFuel, rest => by
      rw [Node.areGenerated, Bool.and_eq_true] at hGenerated
      by_cases hNode : n = .hole
      · subst hNode
        rcases exists_fuel hFuel with ⟨less, rfl, hLess⟩
        have hRest := Node.readItems_tokens (m :: ns)
          hGenerated.2 hItems less hLess.le rest
        rw [Node.allTokens, List.cons_append,
          Node.readItems, hRest]
        rfl
      · rw [Node.areItems_cons hNode, Bool.and_eq_true]
          at hItems
        rw [Node.allTokens_cons hNode, List.length_append,
          List.length_cons, ← Nat.add_assoc] at hFuel
        rcases exists_fuel hFuel with ⟨less, rfl, hLess⟩
        have hRest := Node.readItems_tokens (m :: ns)
          hGenerated.2 hItems.2 less (by omega) rest
        rw [Node.allTokens_cons hNode, List.append_assoc]
        exact Node.readItems_cons
          (Node.readFrom_tokens n hGenerated.1 hItems.1 less
            (by omega) _)
          hRest
termination_by structural items => items

theorem PropNode.readFrom_tokens :
    (p : PropNode) →
    p.isGenerated = true →
    p.isComplete = true →
    (fuel : Nat) →
    2 * p.tokens.length ≤ fuel →
    (rest : List Token) →
    PropNode.readFrom fuel (p.tokens ++ rest) =
      some (p, rest)
  | .keyValue key value, hGenerated, hComplete, fuel,
      hFuel, rest => by
      rw [PropNode.tokens, List.length_cons,
        List.length_cons] at hFuel
      rcases exists_fuel hFuel with ⟨less, rfl, hLess⟩
      have hValue := Node.readFrom_tokens value
        (by simpa [PropNode.isGenerated] using hGenerated)
        (by simpa [PropNode.isComplete] using hComplete)
        less (by omega) rest
      exact PropNode.readFrom_key key hValue
  | .spread value, hGenerated, hComplete, fuel, hFuel,
      rest => by
      rw [PropNode.tokens, List.length_cons] at hFuel
      rcases exists_fuel hFuel with ⟨less, rfl, hLess⟩
      have hValue := Node.readFrom_tokens value
        (by simpa [PropNode.isGenerated] using hGenerated)
        (by simpa [PropNode.isComplete] using hComplete)
        less hLess.le rest
      rw [PropNode.tokens, List.cons_append,
        PropNode.readFrom, hValue]
      rfl
  | .source _, hGenerated, _, _, _, _ =>
      absurd hGenerated (by simp [PropNode.isGenerated])
termination_by structural p => p

theorem PropNode.readAll_tokens :
    (props : List PropNode) →
    PropNode.areGenerated props = true →
    PropNode.areComplete props = true →
    (fuel : Nat) →
    2 * (PropNode.allTokens props).length ≤ fuel →
    (rest : List Token) →
    PropNode.readAll fuel (PropNode.allTokens props ++ rest) =
      some (props, rest)
  | [], _, _, fuel, hFuel, rest => by
      rcases exists_fuel hFuel with ⟨less, rfl, _⟩
      rfl
  | [p], hGenerated, hComplete, fuel, hFuel, rest => by
      simp only [PropNode.areGenerated, Bool.and_true]
        at hGenerated
      simp only [PropNode.areComplete, Bool.and_true]
        at hComplete
      rw [PropNode.allTokens, List.length_append] at hFuel
      rcases exists_fuel hFuel with ⟨less, rfl, hLess⟩
      rw [PropNode.allTokens, List.append_assoc]
      exact PropNode.readAll_last
        (PropNode.readFrom_tokens p hGenerated hComplete
          less hLess.le _)
  | p :: q :: ps, hGenerated, hComplete, fuel, hFuel,
      rest => by
      rw [PropNode.areGenerated, Bool.and_eq_true]
        at hGenerated
      rw [PropNode.areComplete, Bool.and_eq_true]
        at hComplete
      rw [PropNode.allTokens, List.length_append,
        List.length_cons, ← Nat.add_assoc] at hFuel
      · rcases exists_fuel hFuel with ⟨less, rfl, hLess⟩
        have hRest := PropNode.readAll_tokens (q :: ps)
          hGenerated.2 hComplete.2 less (by omega) rest
        rw [PropNode.allTokens, List.append_assoc]
        · exact PropNode.readAll_cons
            (PropNode.readFrom_tokens p hGenerated.1
              hComplete.1 less (by omega) _)
            hRest
        · simp
      · simp
termination_by structural props => props

end

------------------------------------------------------------
-- What Can Be Read
------------------------------------------------------------

/-
  Whether all that is read with some fuel is generated and
  has no hole outside of an array.
-/
structure ReadsComplete
    (fuel : Nat) : Prop where
  node :
    ∀ ts n rest, Node.readFrom fuel ts = some (n, rest) →
      n.isGenerated = true ∧ n.isComplete = true
  items :
    ∀ ts ns rest, Node.readItems fuel ts = some (ns, rest) →
      Node.areGenerated ns = true ∧
        Node.areItems ns = true
  prop :
    ∀ ts p rest, PropNode.readFrom fuel ts = some (p, rest) →
      p.isGenerated = true ∧ p.isComplete = true
  props :
    ∀ ts ps rest, PropNode.readAll fuel ts = some (ps, rest) →
      PropNode.areGenerated ps = true ∧
        PropNode.areComplete ps = true

theorem Node.ne_hole_of_isComplete
    {n : Node}
    (hComplete : n.isComplete = true) :
    n ≠ .hole := by
  rintro rfl
  exact absurd hComplete (by simp [Node.isComplete])

/- Words start truth values and imports only. -/
theorem Node.isComplete_of_wordFrom?
    {word : Text}
    {ts rest : List Token}
    {n : Node}
    (hRead : Node.wordFrom? word ts = some (n, rest)) :
    n.isGenerated = true ∧ n.isComplete = true := by
  unfold Node.wordFrom? Node.importFrom? at hRead
  split_ifs at hRead
  · cases hRead
    exact ⟨rfl, rfl⟩
  · cases hRead
    exact ⟨rfl, rfl⟩
  · split at hRead
    · cases hRead
      exact ⟨rfl, rfl⟩
    · cases hRead

theorem readsComplete_succ
    {fuel : Nat}
    (hLess : ReadsComplete fuel) :
    ReadsComplete (fuel + 1) := by
  constructor
  case node =>
    intro ts n rest hRead
    unfold Node.readFrom at hRead
    split at hRead
    · cases hRead
      exact ⟨rfl, rfl⟩
    · exact Node.isComplete_of_wordFrom? hRead
    · rcases Option.map_eq_some_iff.mp hRead with
        ⟨⟨props, more⟩, hProps, hEq⟩
      cases hEq
      simpa [Node.isGenerated, Node.isComplete] using
        hLess.props _ _ _ hProps
    · rcases Option.map_eq_some_iff.mp hRead with
        ⟨⟨items, more⟩, hItems, hEq⟩
      cases hEq
      simpa [Node.isGenerated, Node.isComplete] using
        hLess.items _ _ _ hItems
    · cases hRead
  case items =>
    intro ts ns rest hRead
    unfold Node.readItems at hRead
    split at hRead
    · cases hRead
      exact ⟨rfl, rfl⟩
    · rcases Option.map_eq_some_iff.mp hRead with
        ⟨⟨items, more⟩, hItems, hEq⟩
      cases hEq
      simpa [Node.areGenerated, Node.areItems,
        Node.isGenerated] using hLess.items _ _ _ hItems
    · split at hRead
      · next n more hItem =>
          cases hRead
          have hNode := hLess.node _ _ _ hItem
          rw [Node.areItems_cons
            (Node.ne_hole_of_isComplete hNode.2)]
          simp [Node.areGenerated, Node.areItems, hNode]
      · next n more hItem =>
          rcases Option.map_eq_some_iff.mp hRead with
            ⟨⟨items, last⟩, hItems, hEq⟩
          cases hEq
          have hNode := hLess.node _ _ _ hItem
          have hRest := hLess.items _ _ _ hItems
          rw [Node.areItems_cons
            (Node.ne_hole_of_isComplete hNode.2)]
          simp [Node.areGenerated, hNode, hRest]
      · cases hRead
  case prop =>
    intro ts p rest hRead
    unfold PropNode.readFrom at hRead
    split at hRead
    case h_4 => cases hRead
    all_goals
      rcases Option.map_eq_some_iff.mp hRead with
        ⟨⟨n, more⟩, hValue, hEq⟩
      cases hEq
      simpa [PropNode.isGenerated, PropNode.isComplete]
        using hLess.node _ _ _ hValue
  case props =>
    intro ts ps rest hRead
    unfold PropNode.readAll at hRead
    split at hRead
    · cases hRead
      exact ⟨rfl, rfl⟩
    · split at hRead
      · next p more hEntry =>
          cases hRead
          simpa [PropNode.areGenerated,
            PropNode.areComplete] using
            hLess.prop _ _ _ hEntry
      · next p more hEntry =>
          rcases Option.map_eq_some_iff.mp hRead with
            ⟨⟨props, last⟩, hProps, hEq⟩
          cases hEq
          have hFirst := hLess.prop _ _ _ hEntry
          have hRest := hLess.props _ _ _ hProps
          simp [PropNode.areGenerated,
            PropNode.areComplete, hFirst, hRest]
      · cases hRead

theorem readsComplete
    (fuel : Nat) :
    ReadsComplete fuel := by
  induction fuel with
  | zero =>
      constructor
      case node => exact fun _ _ _ hRead => nomatch hRead
      case items => exact fun _ _ _ hRead => nomatch hRead
      case prop => exact fun _ _ _ hRead => nomatch hRead
      case props => exact fun _ _ _ hRead => nomatch hRead
  | succ fuel ih => exact readsComplete_succ ih

/-
  A written expression is read back as itself just if
  nothing in it is from a source and all of its holes are
  items of arrays.
-/
theorem Node.read?_render_iff
    (n : Node) :
    Node.read? n.render = some n ↔
      n.isGenerated = true ∧ n.isComplete = true := by
  constructor
  · intro hRead
    unfold Node.read? at hRead
    simp only at hRead
    split at hRead
    · next m hFrom =>
        cases hRead
        exact (readsComplete _).node _ _ _ hFrom
    · cases hRead
  · rintro ⟨hGenerated, hComplete⟩
    have hTokens :=
      (Node.readAs_render n hGenerated [] rfl).tokens_eq
    have hRead := Node.readFrom_tokens n hGenerated hComplete
      (2 * n.tokens.length) (Nat.le_refl _) []
    rw [List.append_nil] at hRead
    unfold Node.read?
    simp only [hTokens, hRead]

/- One comma after the last item adds nothing. -/
example :
    Node.read? "[, 'a', , \x7b b: true, \x7d, ]".toList =
      some (.array
        [.hole, .str ['a'], .hole,
          .object [.keyValue ['b'] (.bool true)]]) := by
  rfl

/-
  Two expressions that are written in the same way are the
  same, down to the holes at the end of an array.
-/
theorem Node.render_injective
    {n m : Node}
    (hFirst : n.isGenerated = true ∧ n.isComplete = true)
    (hSecond : m.isGenerated = true ∧ m.isComplete = true)
    (hSame : n.render = m.render) :
    n = m := by
  have hRead := (Node.read?_render_iff n).mpr hFirst
  rw [hSame, (Node.read?_render_iff m).mpr hSecond] at hRead
  exact (Option.some.inj hRead).symm

end ComponentLoader
