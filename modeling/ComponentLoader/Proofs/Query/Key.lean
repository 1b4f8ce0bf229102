import Mathlib.Data.List.TakeWhile
import Mathlib.Tactic
import ComponentLoader.Query.Key

/-
  Keys with brackets: which keys are split, and what the
  segments that address a list stand for.

  Main declarations:
    * `Key.brackets`
    * `Key.segmentsFrom_eq_some_iff`
    * `Key.split_append_brackets`
    * `Key.split_cases`
    * `Key.Bracketed`
    * `Key.splits_bracketed`
    * `Key.index?_ofNat`
-/

------------------------------------------------------------
-- Runs Of Brackets
------------------------------------------------------------

namespace ComponentLoader

namespace Query

namespace Key

/- Segments in brackets, one after another. -/
def brackets
    (segments : List Text) : Text :=
  segments.flatMap fun segment =>
    '[' :: segment ++ [']']

@[simp] theorem brackets_nil :
    brackets [] = [] :=
  rfl

theorem brackets_cons
    (segment : Text)
    (segments : List Text) :
    brackets (segment :: segments) =
      '[' :: segment ++ ']' :: brackets segments := by
  simp [brackets]

/- A segment ends at the first closing bracket. -/
theorem segmentsFrom_some
    (opened segment rest : Text)
    (hSegment : ']' ∉ segment) :
    segmentsFrom (some opened) (segment ++ ']' :: rest) =
      (segmentsFrom none rest).map
        ((opened.reverse ++ segment) :: ·) := by
  induction segment generalizing opened with
  | nil =>
      simp only [List.nil_append, segmentsFrom, if_true]
      cases segmentsFrom none rest <;> simp
  | cons c cs ih =>
      have hHead : c ≠ ']' :=
        (List.ne_of_not_mem_cons hSegment).symm
      have hTail : ']' ∉ cs :=
        List.not_mem_of_not_mem_cons hSegment
      simp only [List.cons_append, segmentsFrom,
        if_neg hHead, ih (c :: opened) hTail]
      simp

/- A run of brackets holds its segments. -/
theorem segmentsFrom_brackets
    {segments : List Text}
    (hSegments : ∀ segment ∈ segments, ']' ∉ segment) :
    segmentsFrom none (brackets segments) =
      some segments := by
  induction segments with
  | nil => rfl
  | cons segment rest ih =>
      have hRest := ih fun s hMem =>
        hSegments s (List.mem_cons_of_mem segment hMem)
      have hFirst := segmentsFrom_some [] segment
        (brackets rest) (hSegments segment (by simp))
      rw [hRest] at hFirst
      simpa [brackets_cons, segmentsFrom] using hFirst

/-
  Only a run of brackets has segments.  The second part is
  for a text behind an opening bracket.
-/
theorem brackets_of_segmentsFrom
    (t : Text) :
    (∀ segments, segmentsFrom none t = some segments →
      t = brackets segments ∧
        ∀ segment ∈ segments, ']' ∉ segment) ∧
    (∀ opened segments, ']' ∉ opened →
      segmentsFrom (some opened) t = some segments →
      opened.reverse ++ t =
          (brackets segments).drop 1 ∧
        segments ≠ [] ∧
        ∀ segment ∈ segments, ']' ∉ segment) := by
  induction t with
  | nil =>
      constructor
      · intro segments hSome
        simp only [segmentsFrom, Option.some.injEq] at hSome
        subst hSome
        simp
      · intro opened segments _ hSome
        simp [segmentsFrom] at hSome
  | cons c cs ih =>
      rcases ih with ⟨ihNone, ihSome⟩
      constructor
      · intro segments hSome
        by_cases hOpen : c = '['
        · subst hOpen
          simp only [segmentsFrom, if_true] at hSome
          rcases ihSome [] segments (by simp) hSome with
            ⟨hText, hNe, hClean⟩
          refine ⟨?_, hClean⟩
          cases segments with
          | nil => exact absurd rfl hNe
          | cons segment rest =>
              simp only [brackets_cons, List.reverse_nil,
                List.nil_append, List.cons_append,
                List.drop_succ_cons, List.drop_zero]
                at hText ⊢
              rw [hText]
        · simp [segmentsFrom, hOpen] at hSome
      · intro opened segments hOpened hSome
        by_cases hClose : c = ']'
        · subst hClose
          simp only [segmentsFrom, if_true] at hSome
          cases hRest : segmentsFrom none cs with
          | none => simp [hRest] at hSome
          | some rest =>
              simp only [hRest, Option.some.injEq] at hSome
              subst hSome
              rcases ihNone rest hRest with ⟨hText, hClean⟩
              refine ⟨?_, by simp, ?_⟩
              · simp [brackets_cons, hText]
              · intro segment hMem
                rcases List.mem_cons.mp hMem with rfl | hMem
                · simpa using hOpened
                · exact hClean segment hMem
        · simp only [segmentsFrom, if_neg hClose] at hSome
          have hOpened' : ']' ∉ c :: opened := by
            intro hMem
            rcases List.mem_cons.mp hMem with hEq | hMem
            · exact hClose hEq.symm
            · exact hOpened hMem
          rcases ihSome (c :: opened) segments hOpened' hSome
              with
            ⟨hText, hNe, hClean⟩
          refine ⟨?_, hNe, hClean⟩
          simpa using hText

/- A text has segments just if it is a run of brackets. -/
theorem segmentsFrom_eq_some_iff
    (t : Text)
    (segments : List Text) :
    segmentsFrom none t = some segments ↔
      t = brackets segments ∧
        ∀ segment ∈ segments, ']' ∉ segment := by
  constructor
  · exact (brackets_of_segmentsFrom t).1 segments
  · rintro ⟨rfl, hSegments⟩
    exact segmentsFrom_brackets hSegments

------------------------------------------------------------
-- Splitting
------------------------------------------------------------

/- A key is cut where its first bracket opens. -/
theorem takeWhile_append_brackets
    {root : Text}
    (hRoot : '[' ∉ root)
    (segments : List Text) :
    (root ++ brackets segments).takeWhile (· ≠ '[') =
        root ∧
      (root ++ brackets segments).dropWhile (· ≠ '[') =
        brackets segments := by
  have hAll : ∀ c ∈ root, (decide (c ≠ '[')) = true := by
    intro c hMem
    simp only [decide_eq_true_eq]
    intro hEq
    exact hRoot (hEq ▸ hMem)
  rw [List.takeWhile_append_of_pos hAll,
    List.dropWhile_append_of_pos hAll]
  cases segments with
  | nil => simp
  | cons segment rest => simp [brackets_cons]

/- A root and its segments are found again. -/
theorem split_append_brackets
    {root : Text}
    {segments : List Text}
    (hSome : root ≠ [])
    (hRoot : '[' ∉ root)
    (hSegments : ∀ segment ∈ segments, ']' ∉ segment) :
    split (root ++ brackets segments) =
      { root := root, segments := segments } := by
  rcases takeWhile_append_brackets hRoot segments with
    ⟨hTake, hDrop⟩
  have hEmpty : root.isEmpty = false := by
    simpa using hSome
  simp only [split, hTake, hDrop, hEmpty,
    segmentsFrom_brackets hSegments, Bool.false_eq_true,
    if_false]

/-
  A key is either a root with at least one segment, or a
  root on its own.
-/
theorem split_cases
    (key : Text) :
    (∃ root segments, root ≠ [] ∧ '[' ∉ root ∧
        segments ≠ [] ∧
        (∀ segment ∈ segments, ']' ∉ segment) ∧
        key = root ++ brackets segments ∧
        split key =
          { root := root, segments := segments }) ∨
      split key = { root := key, segments := [] } := by
  by_cases hEmpty :
      (key.takeWhile (· ≠ '[')).isEmpty = true
  · right
    simp only [split, hEmpty, if_true]
  · cases hRest :
        segmentsFrom none (key.dropWhile (· ≠ '[')) with
    | none =>
        right
        simp only [split, hRest, ite_self]
    | some segments =>
        rcases (segmentsFrom_eq_some_iff _ _).mp hRest with
          ⟨hText, hClean⟩
        have hKey : key =
            key.takeWhile (· ≠ '[') ++ brackets segments := by
          rw [← hText]
          exact (List.takeWhile_append_dropWhile).symm
        have hSplit : split key =
            { root := key.takeWhile (· ≠ '[')
              segments := segments } := by
          simp only [split, hRest, hEmpty, if_false,
            Bool.false_eq_true]
        cases segments with
        | nil =>
            right
            rw [brackets_nil, List.append_nil] at hKey
            rw [hSplit, ← hKey]
        | cons segment rest =>
            left
            refine ⟨_, segment :: rest, ?_, ?_, by simp,
              hClean, hKey, hSplit⟩
            · simpa using hEmpty
            · intro hMem
              have hNe := List.mem_takeWhile_imp hMem
              simp at hNe

/-
  Every key has a root, which is a root on its own, and
  segments, of which there are none if the root contains a
  bracket.
-/
theorem split_root
    {key : Text}
    (hKey : key ≠ []) :
    ∃ root segments,
      split key = { root := root, segments := segments } ∧
      root ≠ [] ∧
      split root = { root := root, segments := [] } ∧
      (∀ segment ∈ segments, ']' ∉ segment) ∧
      ('[' ∈ root → segments = []) := by
  rcases split_cases key with
    ⟨root, segments, hNonempty, hOpen, -, hClosed, -, hSplit⟩ |
    hSplit
  · have hWhole : split (root ++ brackets []) =
        { root := root, segments := [] } :=
      split_append_brackets hNonempty hOpen (by simp)
    rw [brackets_nil, List.append_nil] at hWhole
    exact ⟨root, segments, hSplit, hNonempty, hWhole,
      hClosed, fun hMem => absurd hMem hOpen⟩
  · exact ⟨key, [], hSplit, hKey, hSplit, by simp,
      fun _ => rfl⟩

------------------------------------------------------------
-- The Keys That Are Split
------------------------------------------------------------

/- A root followed by its segments in brackets. -/
def text
    (k : Key) : Text :=
  k.root ++ brackets k.segments

/-
  A root and segments that can be told apart once they are
  written: the root ends at the first opening bracket, and
  a segment at the next closing one.
-/
structure Bracketed
    (k : Key) : Prop where
  root_ne_nil : k.root ≠ []
  unopened : '[' ∉ k.root
  segments_ne_nil : k.segments ≠ []
  unclosed : ∀ segment ∈ k.segments, ']' ∉ segment

theorem text_singleton
    (root : Text) :
    text { root := root, segments := [] } = root :=
  List.append_nil root

/- What is written in brackets is split there again. -/
theorem Bracketed.split_text
    {k : Key}
    (hKey : k.Bracketed) :
    split k.text = k :=
  split_append_brackets hKey.root_ne_nil hKey.unopened
    hKey.unclosed

/- A key with segments was written in brackets. -/
theorem bracketed_split
    {key : Text}
    (hSome : (split key).segments ≠ []) :
    (split key).Bracketed := by
  rcases split_cases key with
    ⟨root, segments, hRoot, hOpen, hSegments, hClosed, -,
      hSplit⟩ |
    hSplit
  · rw [hSplit]
    exact
      { root_ne_nil := hRoot
        unopened := hOpen
        segments_ne_nil := hSegments
        unclosed := hClosed }
  · rw [hSplit] at hSome
    exact absurd rfl hSome

/- Splitting loses nothing of a key. -/
theorem text_split
    (key : Text) :
    (split key).text = key := by
  rcases split_cases key with
    ⟨root, segments, -, -, -, -, hKey, hSplit⟩ | hSplit
  · rw [hSplit]
    exact hKey.symm
  · rw [hSplit]
    exact text_singleton key

/-
  A key has segments just if it is a root with segments in
  brackets, and then these are the only ones it can be made
  of.  Any other key is a root on its own.  The root and the
  segments always make the key.
-/
theorem splits_bracketed
    (key : Text) :
    ((split key).segments ≠ [] ↔
        ∃ k : Key, k.Bracketed ∧ k.text = key) ∧
      (∀ k : Key, k.Bracketed → k.text = key →
        split key = k) ∧
      ((¬ ∃ k : Key, k.Bracketed ∧ k.text = key) →
        split key = { root := key, segments := [] }) ∧
      (split key).text = key := by
  have hFound : ∀ k : Key, k.Bracketed → k.text = key →
      split key = k := by
    rintro k hKey rfl
    exact hKey.split_text
  refine ⟨⟨?_, ?_⟩, hFound, ?_, text_split key⟩
  · intro hSome
    exact ⟨split key, bracketed_split hSome, text_split key⟩
  · rintro ⟨k, hKey, hText⟩
    rw [hFound k hKey hText]
    exact hKey.segments_ne_nil
  · intro hNone
    rcases split_cases key with
      ⟨root, segments, -, -, hSegments, -, -, hSplit⟩ |
      hSplit
    · exfalso
      apply hNone
      refine ⟨split key, bracketed_split ?_, text_split key⟩
      rw [hSplit]
      exact hSegments
    · exact hSplit

/- Brackets may stand in a root and in segments. -/
example :
    split "a][b[c][]".toList =
      { root := "a]".toList
        segments := ["b[c".toList, []] } := by
  decide

------------------------------------------------------------
-- List Positions
------------------------------------------------------------

/- The digits of a number are digits. -/
theorem isDigit_of_mem_ofNat
    {c : Char}
    {i : Nat}
    (hMem : c ∈ Text.ofNat i) :
    c.isDigit = true :=
  Nat.isDigit_of_mem_toDigits (by decide) (by decide) hMem

@[simp] theorem isIndex_nil :
    isIndex [] = true :=
  rfl

/- A number addresses a list. -/
@[simp] theorem isIndex_ofNat
    (i : Nat) :
    isIndex (Text.ofNat i) = true := by
  simp only [isIndex, List.all_eq_true]
  intro c hMem
  exact isDigit_of_mem_ofNat hMem

/- A segment that addresses a list closes no bracket. -/
theorem not_mem_of_isIndex
    {segment : Text}
    (hIndex : isIndex segment = true) :
    ']' ∉ segment := by
  intro hMem
  have hDigit := List.all_eq_true.mp hIndex _ hMem
  exact absurd hDigit (by decide)

/- The number of its own digits. -/
theorem digitsValue_ofNat
    (i : Nat) :
    digitsValue (Text.ofNat i) = i := by
  have hFold : ∀ (digits : Text) (n : Nat),
      digits.foldl
          (fun n c => n * 10 + (c.toNat - '0'.toNat)) n =
        Nat.ofDigitChars 10 digits n := by
    intro digits
    induction digits with
    | nil => intro n; rfl
    | cons c cs ih =>
        intro n
        rw [List.foldl_cons, ih, Nat.ofDigitChars_cons,
          Nat.mul_comm]
  rw [digitsValue, hFold, Text.ofNat]
  exact Nat.ofDigitChars_toDigits (by decide) (by decide)

/- A number addresses its position, if it fits. -/
theorem index?_ofNat
    (i : Nat) :
    index? (Text.ofNat i) =
      if i < UInt64.size then some i else none := by
  have hSome : (Text.ofNat i).isEmpty = false := by
    have hNe : Text.ofNat i ≠ [] := Nat.toDigits_ne_nil
    simpa using hNe
  simp only [index?, hSome, digitsValue_ofNat,
    Bool.false_eq_true, if_false]

end Key

end Query

end ComponentLoader
