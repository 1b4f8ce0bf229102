import Mathlib.Tactic
import ComponentLoader.Component.Node
import ComponentLoader.Proofs.Script.Gaps

/-
  What generated code spells.  The relations below are the
  rules of scripts for the expressions that nodes stand
  for, with any gaps between their tokens; they do not
  follow how nodes are written.

  A hole is no expression: only an array literal can leave
  one out.  Generated code spells what it was made from as
  long as it has no hole anywhere else.

  Main declarations:
    * `Text.SpelledBy`
    * `Node.SpelledBy`
    * `PropNode.SpelledBy`
    * `Text.spelledBy_quote`
    * `PropNode.spelledBy_render`
    * `PropNode.isComplete_of_spelledBy`
-/

------------------------------------------------------------
-- String Literals
------------------------------------------------------------

namespace ComponentLoader

open Script (isGap isGap_nil IsSeparator Frame Listed)

namespace Text

/- What a character after a backslash stands for. -/
def escaped? : Char → Option Char
  | '"' => some '"'
  | '\\' => some '\\'
  | 'b' => some '\x08'
  | 'f' => some '\x0c'
  | 'n' => some '\n'
  | 'r' => some '\r'
  | 't' => some '\t'
  | _ => none

/- The number that hexadecimal digits stand for. -/
def hexCode? : List Char → Option Nat
  | [] => some 0
  | c :: cs =>
      match hexValue? c, hexCode? cs with
      | some digit, some rest =>
          some (digit * 16 ^ cs.length + rest)
      | _, _ => none

/- A value and what spells it between double quotes. -/
inductive SpelledBy : Text → Text → Prop where
  | nil : SpelledBy [] []
  /- Any character but a quote, a backslash or a line end. -/
  | plain
      {c : Char}
      {value body : Text}
      (hPlain : c ∉ ['"', '\\', '\n', '\r'])
      (hRest : SpelledBy value body) :
      SpelledBy (c :: value) (c :: body)
  /- A backslash and a character. -/
  | escape
      {c e : Char}
      {value body : Text}
      (hEscape : escaped? e = some c)
      (hRest : SpelledBy value body) :
      SpelledBy (c :: value) ('\\' :: e :: body)
  /- A backslash, `u` and four hexadecimal digits. -/
  | code
      {c : Char}
      {digits value body : Text}
      (hLength : digits.length = 4)
      (hCode : hexCode? digits = some c.toNat)
      (hRest : SpelledBy value body) :
      SpelledBy (c :: value) ('\\' :: 'u' :: digits ++ body)

/- The digits of a control character are its code. -/
theorem hexCode?_control
    (n : Fin 0x20) :
    (padLeft 4 (hex n)).length = 4 ∧
      hexCode? (padLeft 4 (hex n)) = some n := by
  decide +revert

/- A quoted character spells that character. -/
theorem spelledBy_quoteChar
    (c : Char)
    {value body : Text}
    (hRest : SpelledBy value body) :
    SpelledBy (c :: value) (quoteChar c ++ body) := by
  unfold quoteChar
  split_ifs with hQuote hSlash hBack hFeed hLine hReturn
    hTab hControl
  · subst hQuote
    exact .escape rfl hRest
  · subst hSlash
    exact .escape rfl hRest
  · subst hBack
    exact .escape rfl hRest
  · subst hFeed
    exact .escape rfl hRest
  · subst hLine
    exact .escape rfl hRest
  · subst hReturn
    exact .escape rfl hRest
  · subst hTab
    exact .escape rfl hRest
  · rcases hexCode?_control ⟨c.toNat, hControl⟩ with
      ⟨hLength, hCode⟩
    exact .code hLength hCode hRest
  · exact .plain (by simp [*]) hRest

theorem spelledBy_flatMap_quoteChar
    (value : Text) :
    SpelledBy value (value.flatMap quoteChar) := by
  induction value with
  | nil => exact .nil
  | cons c cs ih =>
      rw [List.flatMap_cons]
      exact spelledBy_quoteChar c ih

end Text

------------------------------------------------------------
-- Expressions And Entries
------------------------------------------------------------

/- A key of an entry and what spells it. -/
inductive KeySpelledBy : Text → Text → Prop where
  /- A name stands for itself. -/
  | name
      {c : Char}
      {cs : Text}
      (hStart : Text.isIdentStart c = true)
      (hParts : cs.all Text.isIdentPart = true) :
      KeySpelledBy (c :: cs) (c :: cs)
  | quoted
      {key body : Text}
      (hBody : Text.SpelledBy key body) :
      KeySpelledBy key ('"' :: body ++ ['"'])

mutual

/- An expression and what spells it. -/
inductive Node.SpelledBy : Node → Text → Prop where
  | str
      {value body : Text}
      (hBody : Text.SpelledBy value body) :
      Node.SpelledBy (.str value) ('"' :: body ++ ['"'])
  | yes :
      Node.SpelledBy (.bool true) ['t', 'r', 'u', 'e']
  | no :
      Node.SpelledBy (.bool false)
        ['f', 'a', 'l', 's', 'e']
  /- A call of the import function with a string. -/
  | resource
      {request body before opened closed : Text}
      (hBefore : isGap before = true)
      (hOpened : isGap opened = true)
      (hBody : Text.SpelledBy request body)
      (hClosed : isGap closed = true) :
      Node.SpelledBy (.resource request)
        (importName ++ before ++ '(' :: opened ++
          '"' :: body ++ '"' :: closed ++ [')'])
  | object
      {props : List PropNode}
      {frames : List Frame}
      {tail : Text}
      (hEntries : PropNode.AllSpelledBy props frames)
      (hListed : Listed frames tail) :
      Node.SpelledBy (.object props)
        ('{' :: Frame.weave frames tail ++ ['}'])
  | array
      {items : List Node}
      {body : Text}
      (hItems : Node.ItemsSpelledBy items body) :
      Node.SpelledBy (.array items) ('[' :: body ++ [']'])

/- The items of an array literal and what spells them. -/
inductive Node.ItemsSpelledBy :
    List Node → Text → Prop where
  /- Nothing, also after the last comma. -/
  | none
      {rest : Text}
      (hRest : isGap rest = true) :
      Node.ItemsSpelledBy [] rest
  /- The last item, without a comma. -/
  | last
      {item : Node}
      {before text after : Text}
      (hBefore : isGap before = true)
      (hItem : Node.SpelledBy item text)
      (hAfter : isGap after = true) :
      Node.ItemsSpelledBy [item]
        (before ++ text ++ after)
  /- An item with its comma. -/
  | item
      {item : Node}
      {items : List Node}
      {before text after rest : Text}
      (hBefore : isGap before = true)
      (hItem : Node.SpelledBy item text)
      (hAfter : isGap after = true)
      (hRest : Node.ItemsSpelledBy items rest) :
      Node.ItemsSpelledBy (item :: items)
        (before ++ text ++ after ++ ',' :: rest)
  /- A comma without an item. -/
  | hole
      {items : List Node}
      {before rest : Text}
      (hBefore : isGap before = true)
      (hRest : Node.ItemsSpelledBy items rest) :
      Node.ItemsSpelledBy (.hole :: items)
        (before ++ ',' :: rest)

/- An entry of an object literal and what spells it. -/
inductive PropNode.SpelledBy :
    PropNode → Text → Prop where
  | keyValue
      {key keyText before after text : Text}
      {value : Node}
      (hKey : KeySpelledBy key keyText)
      (hBefore : isGap before = true)
      (hAfter : isGap after = true)
      (hValue : Node.SpelledBy value text) :
      PropNode.SpelledBy (.keyValue key value)
        (keyText ++ before ++ ':' :: after ++ text)
  | spread
      {before text : Text}
      {value : Node}
      (hBefore : isGap before = true)
      (hValue : Node.SpelledBy value text) :
      PropNode.SpelledBy (.spread value)
        ('.' :: '.' :: '.' :: before ++ text)

/- Entries and what spells them, one by one. -/
inductive PropNode.AllSpelledBy :
    List PropNode → List Frame → Prop where
  | nil : PropNode.AllSpelledBy [] []
  | cons
      {prop : PropNode}
      {props : List PropNode}
      {frame : Frame}
      {frames : List Frame}
      (hEntry : PropNode.SpelledBy prop frame.text)
      (hRest : PropNode.AllSpelledBy props frames) :
      PropNode.AllSpelledBy (prop :: props)
        (frame :: frames)

end

------------------------------------------------------------
-- Generated And Complete Nodes
------------------------------------------------------------

mutual

/- Whether nothing in an expression is from a source. -/
def Node.isGenerated : Node → Bool
  | .object props => PropNode.areGenerated props
  | .array items => Node.areGenerated items
  | .source _ => false
  | _ => true
termination_by structural n => n

def Node.areGenerated : List Node → Bool
  | [] => true
  | n :: ns => n.isGenerated && Node.areGenerated ns
termination_by structural ns => ns

/- Whether nothing in an entry is from a source. -/
def PropNode.isGenerated : PropNode → Bool
  | .keyValue _ value => value.isGenerated
  | .spread value => value.isGenerated
  | .source _ => false
termination_by structural p => p

def PropNode.areGenerated : List PropNode → Bool
  | [] => true
  | p :: ps => p.isGenerated && PropNode.areGenerated ps
termination_by structural ps => ps

end

mutual

/- Whether all holes of an expression are in arrays. -/
def Node.isComplete : Node → Bool
  | .object props => PropNode.areComplete props
  | .array items => Node.areItems items
  | .hole => false
  | _ => true
termination_by structural n => n

/- Whether the items of an array are complete or holes. -/
def Node.areItems : List Node → Bool
  | [] => true
  | .hole :: ns => Node.areItems ns
  | n :: ns => n.isComplete && Node.areItems ns
termination_by structural ns => ns

/- Whether all holes of an entry are in arrays. -/
def PropNode.isComplete : PropNode → Bool
  | .keyValue _ value => value.isComplete
  | .spread value => value.isComplete
  | .source _ => true
termination_by structural p => p

def PropNode.areComplete : List PropNode → Bool
  | [] => true
  | p :: ps => p.isComplete && PropNode.areComplete ps
termination_by structural ps => ps

end

------------------------------------------------------------
-- Written Nodes
------------------------------------------------------------

/- Plain characters of identifiers are ASCII ones. -/
theorem Text.toNat_lt_of_isPlainPart
    {c : Char}
    (hPart : Text.isPlainPart c = true) :
    c.toNat < 0x80 := by
  have hUpTo :
      ∀ last : Char, c.val ≤ last.val →
        last.toNat < 0x80 → c.toNat < 0x80 := by
    intro last hLe hLast
    rw [UInt32.le_iff_toNat_le] at hLe
    exact Nat.lt_of_le_of_lt hLe hLast
  have hLetter : c.isAlpha = true → c.toNat < 0x80 := by
    intro hAlpha
    rcases Bool.or_eq_true_iff.mp hAlpha with
      hUpper | hLower
    · have hRange : c.val ≥ 'A'.val ∧ c.val ≤ 'Z'.val :=
        of_decide_eq_true hUpper
      exact hUpTo 'Z' hRange.2 (by decide)
    · have hRange := Bool.and_eq_true_iff.mp hLower
      exact hUpTo 'z' (of_decide_eq_true hRange.2) (by decide)
  simp only [Text.isPlainPart, Char.isAlphanum,
    Bool.or_eq_true, beq_iff_eq] at hPart
  rcases hPart with ((hAlpha | hDigit) | rfl) | rfl
  · exact hLetter hAlpha
  · have hRange := Bool.and_eq_true_iff.mp hDigit
    exact hUpTo '9' (of_decide_eq_true hRange.2) (by decide)
  · decide
  · decide

theorem Text.isIdentPart_of_isPlainPart
    {c : Char}
    (hPart : Text.isPlainPart c = true) :
    Text.isIdentPart c = true := by
  unfold Text.isIdentPart
  rw [if_pos (Text.toNat_lt_of_isPlainPart hPart)]
  exact hPart

theorem Text.isIdentStart_of_isPlainStart
    {c : Char}
    (hStart : Text.isPlainStart c = true) :
    Text.isIdentStart c = true := by
  have hPart : Text.isPlainPart c = true := by
    simp only [Text.isPlainStart, Text.isPlainPart,
      Char.isAlphanum, Bool.or_eq_true] at hStart ⊢
    tauto
  unfold Text.isIdentStart
  rw [if_pos (Text.toNat_lt_of_isPlainPart hPart)]
  exact hStart

theorem spelledBy_renderKey
    (key : Text) :
    KeySpelledBy key (renderKey key) := by
  unfold renderKey
  split
  · next hPlain =>
      cases key with
      | nil => exact absurd hPlain (by decide)
      | cons c cs =>
          simp only [Text.isPlainIdentifier,
            Bool.and_eq_true, List.all_eq_true] at hPlain
          refine .name ?_ ?_
          · exact Text.isIdentStart_of_isPlainStart hPlain.1
          · rw [List.all_eq_true]
            intro d hMem
            exact Text.isIdentPart_of_isPlainPart
              (hPlain.2 d hMem)
  · exact .quoted (Text.spelledBy_flatMap_quoteChar key)

/- Written entries, with what is written before each. -/
def PropNode.frames
    (before : Text) : List PropNode → List Frame
  | [] => []
  | p :: ps =>
      { before := before, text := p.render } ::
        frames [',', ' '] ps

theorem PropNode.weave_frames
    {props : List PropNode}
    (hSome : props ≠ [])
    (before tail : Text) :
    Frame.weave (PropNode.frames before props) tail =
      before ++ PropNode.renderAll props ++ tail := by
  induction props generalizing before with
  | nil => exact absurd rfl hSome
  | cons p ps ih =>
      cases ps with
      | nil => simp [frames, Frame.weave, renderAll]
      | cons q qs =>
          have hRest := ih (by simp) [',', ' ']
          simp only [frames, Frame.weave] at hRest ⊢
          rw [hRest]
          simp [renderAll]

/- Entries are written with a comma between them. -/
theorem PropNode.before_of_mem_frames
    {props : List PropNode}
    {frame : Frame}
    (hMem : frame ∈ PropNode.frames [',', ' '] props) :
    frame.before = [',', ' '] := by
  induction props with
  | nil => exact absurd hMem (by simp [frames])
  | cons p ps ih =>
      rw [frames, List.mem_cons] at hMem
      rcases hMem with rfl | hMem
      · rfl
      · exact ih hMem

theorem PropNode.listed_frames
    (prop : PropNode)
    (props : List PropNode) :
    Listed (PropNode.frames [' '] (prop :: props))
      [' '] := by
  have hBlank : isGap [' '] = true := by decide
  refine ⟨hBlank, ?_, Or.inl hBlank⟩
  intro frame hMem
  rw [PropNode.before_of_mem_frames hMem,
    Script.isSeparator_comma_iff]
  exact hBlank

/- An item that is no hole is to be complete. -/
theorem Node.areItems_cons
    {n : Node}
    (hNode : n ≠ .hole)
    (ns : List Node) :
    Node.areItems (n :: ns) =
      (n.isComplete && Node.areItems ns) := by
  cases n with
  | hole => exact absurd rfl hNode
  | _ => simp [Node.areItems]

theorem endsWithHole_singleton
    {n : Node}
    (hNode : n ≠ .hole) :
    endsWithHole [n] = false := by
  cases n with
  | hole => exact absurd rfl hNode
  | _ => simp [endsWithHole]

theorem endsWithHole_cons
    (n m : Node)
    (ns : List Node) :
    endsWithHole (n :: m :: ns) =
      endsWithHole (m :: ns) := by
  simp [endsWithHole]

mutual

/- A written expression spells it. -/
theorem Node.spelledBy_render :
    (n : Node) →
    n.isGenerated = true →
    n.isComplete = true →
    n.SpelledBy n.render
  | .str value, _, _ =>
      .str (Text.spelledBy_flatMap_quoteChar value)
  | .bool true, _, _ => .yes
  | .bool false, _, _ => .no
  | .resource request, _, _ => by
      have hBody :=
        Text.spelledBy_flatMap_quoteChar request
      have hCall := Node.SpelledBy.resource
        isGap_nil isGap_nil hBody isGap_nil
      simpa [Node.render, renderImport, Text.quote]
        using hCall
  | .object [], _, _ => by
      have hListed : Listed [] [] := rfl
      exact .object .nil hListed
  | .object (p :: ps), hGenerated, hComplete => by
      have hEntries :=
        PropNode.allSpelledBy_frames (p :: ps) [' ']
          (by simpa [Node.isGenerated] using hGenerated)
          (by simpa [Node.isComplete] using hComplete)
      have hObject := Node.SpelledBy.object hEntries
        (PropNode.listed_frames p ps)
      rw [PropNode.weave_frames (by simp)] at hObject
      simpa [Node.render] using hObject
  | .array items, hGenerated, hComplete => by
      have hItems := Node.itemsSpelledBy_render items []
        rfl
        (by simpa [Node.isGenerated] using hGenerated)
        (by simpa [Node.isComplete] using hComplete)
      have hArray := Node.SpelledBy.array hItems
      simpa [Node.render] using hArray
  | .hole, _, hComplete =>
      absurd hComplete (by simp [Node.isComplete])
  | .source _, hGenerated, _ =>
      absurd hGenerated (by simp [Node.isGenerated])
termination_by structural n => n

theorem Node.itemsSpelledBy_render :
    (items : List Node) →
    (before : Text) →
    isGap before = true →
    Node.areGenerated items = true →
    Node.areItems items = true →
    Node.ItemsSpelledBy items
      (before ++ Node.renderAll items ++
        if endsWithHole items then [','] else [])
  | [], before, hBefore, _, _ => by
      simpa [Node.renderAll, endsWithHole] using
        Node.ItemsSpelledBy.none hBefore
  | [n], before, hBefore, hGenerated, hItems => by
      simp only [Node.areGenerated, Bool.and_true]
        at hGenerated
      by_cases hNode : n = .hole
      · subst hNode
        simpa [Node.renderAll, Node.render, endsWithHole]
          using Node.ItemsSpelledBy.hole hBefore
            (.none rfl)
      · rw [Node.areItems_cons hNode] at hItems
        have hItem := Node.spelledBy_render n hGenerated
          (by simpa [Node.areItems] using hItems)
        rw [endsWithHole_singleton hNode]
        exact .last hBefore hItem rfl
  | n :: m :: rest, before, hBefore, hGenerated, hItems => by
      have hBlank : isGap [' '] = true := by decide
      rw [Node.areGenerated, Bool.and_eq_true]
        at hGenerated
      rw [endsWithHole_cons]
      by_cases hNode : n = .hole
      · subst hNode
        have hRest := Node.itemsSpelledBy_render
          (m :: rest) [' '] hBlank hGenerated.2
          (by simpa [Node.areItems] using hItems)
        simpa [Node.renderAll, Node.render] using
          Node.ItemsSpelledBy.hole hBefore hRest
      · rw [Node.areItems_cons hNode, Bool.and_eq_true]
          at hItems
        have hItem := Node.spelledBy_render n hGenerated.1
          hItems.1
        have hRest := Node.itemsSpelledBy_render
          (m :: rest) [' '] hBlank hGenerated.2 hItems.2
        simpa [Node.renderAll] using
          Node.ItemsSpelledBy.item hBefore hItem isGap_nil
            hRest
termination_by structural items => items

theorem PropNode.spelledBy_render :
    (p : PropNode) →
    p.isGenerated = true →
    p.isComplete = true →
    p.SpelledBy p.render
  | .keyValue key value, hGenerated, hComplete => by
      have hValue := Node.spelledBy_render value
        (by simpa [PropNode.isGenerated] using hGenerated)
        (by simpa [PropNode.isComplete] using hComplete)
      have hBlank : isGap [' '] = true := by decide
      have hEntry := PropNode.SpelledBy.keyValue
        (spelledBy_renderKey key) isGap_nil hBlank hValue
      simpa [PropNode.render] using hEntry
  | .spread value, hGenerated, hComplete => by
      have hValue := Node.spelledBy_render value
        (by simpa [PropNode.isGenerated] using hGenerated)
        (by simpa [PropNode.isComplete] using hComplete)
      have hEntry :=
        PropNode.SpelledBy.spread isGap_nil hValue
      simpa [PropNode.render] using hEntry
  | .source _, hGenerated, _ =>
      absurd hGenerated (by simp [PropNode.isGenerated])
termination_by structural p => p

theorem PropNode.allSpelledBy_frames :
    (props : List PropNode) →
    (before : Text) →
    PropNode.areGenerated props = true →
    PropNode.areComplete props = true →
    PropNode.AllSpelledBy props
      (PropNode.frames before props)
  | [], _, _, _ => .nil
  | p :: ps, before, hGenerated, hComplete => by
      simp only [PropNode.areGenerated,
        Bool.and_eq_true] at hGenerated
      simp only [PropNode.areComplete,
        Bool.and_eq_true] at hComplete
      refine .cons ?_ ?_
      · exact PropNode.spelledBy_render p hGenerated.1
          hComplete.1
      · exact PropNode.allSpelledBy_frames ps _
          hGenerated.2 hComplete.2
termination_by structural props => props

end

------------------------------------------------------------
-- Spelled Nodes
------------------------------------------------------------

mutual

/- No hole is spelled outside of an array. -/
theorem Node.isComplete_of_spelledBy :
    (n : Node) →
    {t : Text} →
    n.SpelledBy t →
    n.isComplete = true
  | .str _, _, _ => by simp [Node.isComplete]
  | .bool _, _, _ => by simp [Node.isComplete]
  | .resource _, _, _ => by simp [Node.isComplete]
  | .object props, _, hSpelled => by
      cases hSpelled with
      | object hEntries _ =>
          simpa [Node.isComplete] using
            PropNode.areComplete_of_spelledBy props hEntries
  | .array items, _, hSpelled => by
      cases hSpelled with
      | array hItems =>
          simpa [Node.isComplete] using
            Node.areItems_of_spelledBy items hItems
  | .hole, _, hSpelled => nomatch hSpelled
  | .source _, _, hSpelled => nomatch hSpelled
termination_by structural n => n

theorem Node.areItems_of_spelledBy :
    (items : List Node) →
    {t : Text} →
    Node.ItemsSpelledBy items t →
    Node.areItems items = true
  | [], _, _ => rfl
  | n :: ns, _, hSpelled => by
      by_cases hNode : n = .hole
      · subst hNode
        rw [Node.areItems]
        cases hSpelled with
        | last _ hItem _ => exact nomatch hItem
        | item _ hItem _ _ => exact nomatch hItem
        | hole _ hRest =>
            exact Node.areItems_of_spelledBy ns hRest
      · rw [Node.areItems_cons hNode, Bool.and_eq_true]
        cases hSpelled with
        | last _ hItem _ =>
            exact ⟨Node.isComplete_of_spelledBy n hItem,
              rfl⟩
        | item _ hItem _ hRest =>
            exact ⟨Node.isComplete_of_spelledBy n hItem,
              Node.areItems_of_spelledBy ns hRest⟩
        | hole _ _ => exact absurd rfl hNode
termination_by structural items => items

theorem PropNode.isComplete_of_spelledBy :
    (p : PropNode) →
    {t : Text} →
    p.SpelledBy t →
    p.isComplete = true
  | .keyValue _ value, _, hSpelled => by
      cases hSpelled with
      | keyValue _ _ _ hValue =>
          simpa [PropNode.isComplete] using
            Node.isComplete_of_spelledBy value hValue
  | .spread value, _, hSpelled => by
      cases hSpelled with
      | spread _ hValue =>
          simpa [PropNode.isComplete] using
            Node.isComplete_of_spelledBy value hValue
  | .source _, _, hSpelled => nomatch hSpelled
termination_by structural p => p

theorem PropNode.areComplete_of_spelledBy :
    (props : List PropNode) →
    {frames : List Frame} →
    PropNode.AllSpelledBy props frames →
    PropNode.areComplete props = true
  | [], _, _ => rfl
  | p :: ps, _, hSpelled => by
      rw [PropNode.areComplete, Bool.and_eq_true]
      cases hSpelled with
      | cons hEntry hRest =>
          exact ⟨PropNode.isComplete_of_spelledBy p hEntry,
            PropNode.areComplete_of_spelledBy ps hRest⟩
termination_by structural props => props

end

/- Written code is readable unless a hole is misplaced. -/
theorem PropNode.spelledBy_render_iff
    {p : PropNode}
    (hGenerated : p.isGenerated = true) :
    p.SpelledBy p.render ↔ p.isComplete = true :=
  ⟨PropNode.isComplete_of_spelledBy p,
    PropNode.spelledBy_render p hGenerated⟩

end ComponentLoader
