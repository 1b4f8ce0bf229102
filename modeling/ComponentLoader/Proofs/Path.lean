import Mathlib.Tactic
import Mathlib.Data.List.DropRight
import ComponentLoader.Path
import ComponentLoader.Proofs.Text.Cuts

/-
  Paths by the names they are made of.

  A path is followed name by name, and two dots take back
  the last name.  Followed from a directory, a path goes up
  some way and then down by names; it leads inside of the
  directory if it comes back down by the names that it went
  up, and goes on.

  Main declarations:
    * `Path.names`
    * `Path.names_join`
    * `Path.components_join`
    * `Path.names_relative`
    * `Path.resolve`
    * `Path.resolve_join`
    * `Path.Along`
    * `Path.Move`
    * `Path.foldl_follow`
    * `Path.Inside`
    * `Path.Move.inside_apply_iff_returns`
-/

------------------------------------------------------------
-- Names
------------------------------------------------------------

namespace ComponentLoader

namespace Path

/- Whether a text can be the name of a file. -/
def IsName
    (t : Text) : Prop :=
  '/' ∉ t ∧ isSkipped t = false ∧ t ≠ ['.', '.']

instance
    (t : Text) :
    Decidable (IsName t) :=
  inferInstanceAs (Decidable (_ ∧ _ ∧ _))

/- The pieces of a path that are not skipped. -/
def names
    (path : Text) : List Text :=
  (Text.splitAll '/' path).filter fun piece =>
    !isSkipped piece

@[simp]
theorem names_nil :
    names [] = [] :=
  rfl

/- A start of a path is no name of it. -/
theorem body_parts
    (path : Text) :
    (parts path).body = names path := by
  unfold parts Parts.body names
  split
  · next hStart =>
      rw [Bool.or_eq_true] at hStart
      rcases hStart with hRoot | hDot
      · cases path with
        | nil => cases hRoot
        | cons c cs =>
            have hSlash : c = '/' := by
              simpa [isAbsolute] using hRoot
            simp [hSlash, Text.splitAll, isSkipped]
      · unfold startsWithDot at hDot
        split at hDot
        · rfl
        · simp [Text.splitAll, isSkipped]
        · cases hDot
  · rfl

theorem components_of_isAbsolute
    {path : Text}
    (hRoot : isAbsolute path = true) :
    components path = ['/'] :: names path := by
  cases path with
  | nil => cases hRoot
  | cons c cs =>
      have hSlash : c = '/' := by
        simpa [isAbsolute] using hRoot
      subst hSlash
      have hStart : (parts ('/' :: cs)).start = ['/'] := rfl
      unfold components
      simp only [hStart, body_parts]
      rfl

theorem mem_components_of_mem_names
    {path name : Text}
    (hName : name ∈ names path) :
    name ∈ components path := by
  unfold components
  simp only [body_parts]
  split
  · exact hName
  · exact List.mem_cons_of_mem _ hName

theorem names_append_slash
    (dir path : Text) :
    names (dir ++ '/' :: path) = names dir ++ names path := by
  unfold names
  rw [Text.splitAll_append_sep, List.filter_append]

theorem names_of_isName
    {name : Text}
    (hName : IsName name) :
    names name = [name] := by
  rcases hName with ⟨hSlash, hSkipped, _⟩
  simp [names, Text.splitAll_of_not_mem hSlash, hSkipped]

theorem isAbsolute_of_isName
    {name : Text}
    (hName : IsName name) :
    isAbsolute name = false := by
  cases name with
  | nil => rfl
  | cons c cs =>
      have hSlash : '/' ≠ c := by
        rintro rfl
        exact hName.1 List.mem_cons_self
      simp [isAbsolute, Ne.symm hSlash]

/- Names put together are the names of what they make. -/
theorem names_join_pieces
    {pieces : List Text}
    (hPieces : ∀ piece ∈ pieces, '/' ∉ piece) :
    names (Text.join ['/'] pieces) =
      pieces.filter fun piece => !isSkipped piece := by
  by_cases hNil : pieces = []
  · subst hNil
    rfl
  · unfold names
    rw [Text.splitAll_join hNil hPieces]

theorem fileName?_eq_some_iff
    {path name : Text} :
    fileName? path = some name ↔
      (names path).getLast? = some name ∧
        name ≠ ['.', '.'] := by
  unfold fileName?
  rw [body_parts]
  cases (names path).getLast? with
  | none => simp
  | some last =>
      by_cases hDots : last = ['.', '.']
      · subst hDots
        simp [eq_comm]
      · simp only [beq_iff_eq, if_neg hDots,
          Option.some.injEq]
        constructor
        · rintro rfl
          exact ⟨rfl, hDots⟩
        · exact And.left

theorem isName_of_mem_names
    {path name : Text}
    (hName : name ∈ names path)
    (hDots : name ≠ ['.', '.']) :
    IsName name := by
  unfold names at hName
  rcases List.mem_filter.mp hName with ⟨hPiece, hKept⟩
  refine ⟨Text.not_mem_of_mem_splitAll hPiece, ?_, hDots⟩
  simpa using hKept

theorem isName_of_fileName?
    {path name : Text}
    (hName : fileName? path = some name) :
    IsName name := by
  rcases fileName?_eq_some_iff.mp hName with
    ⟨hLast, hDots⟩
  exact isName_of_mem_names (List.mem_of_getLast? hLast)
    hDots

------------------------------------------------------------
-- Joined Paths
------------------------------------------------------------

section Join

variable {dir path : Text}

theorem isAbsolute_join
    (hRelative : isAbsolute path = false) :
    isAbsolute (join dir path) = isAbsolute dir := by
  unfold join
  rw [hRelative]
  cases dir with
  | nil => simpa [isAbsolute] using hRelative
  | cons c cs =>
      simp only [Bool.false_eq_true, if_false]
      split
      · rfl
      · rfl

/- What is below an absolute path is absolute. -/
theorem isAbsolute_join_of_isAbsolute
    (hRoot : isAbsolute dir = true) :
    isAbsolute (join dir path) = true := by
  cases hPath : isAbsolute path with
  | false => rw [isAbsolute_join hPath, hRoot]
  | true => rw [join, if_pos hPath, hPath]

/- A joined path is cut before what is joined to it. -/
theorem join_cases
    (hRelative : isAbsolute path = false) :
    (dir = [] ∧ join dir path = path) ∨
      ∃ before,
        names before = names dir ∧
          join dir path = before ++ '/' :: path := by
  unfold join
  rw [hRelative]
  simp only [Bool.false_eq_true, if_false]
  split
  · next hEnd =>
      rw [Bool.or_eq_true, List.isEmpty_iff] at hEnd
      rcases hEnd with rfl | hSlash
      · exact Or.inl ⟨rfl, rfl⟩
      · rcases Text.endsWith_iff.mp hSlash with
          ⟨before, rfl⟩
        refine Or.inr ⟨before, ?_, by simp⟩
        rw [names_append_slash, names_nil, List.append_nil]
  · exact Or.inr ⟨dir, rfl, by simp⟩

theorem names_join
    (hRelative : isAbsolute path = false) :
    names (join dir path) = names dir ++ names path := by
  rcases @join_cases dir path hRelative with
    ⟨rfl, hJoin⟩ | ⟨before, hNames, hJoin⟩
  · rw [hJoin, names_nil, List.nil_append]
  · rw [hJoin, names_append_slash, hNames]

theorem getLast?_splitAll_join
    (hRelative : isAbsolute path = false) :
    (Text.splitAll '/' (join dir path)).getLast? =
      (Text.splitAll '/' path).getLast? := by
  rcases @join_cases dir path hRelative with
    ⟨_, hJoin⟩ | ⟨before, _, hJoin⟩
  · rw [hJoin]
  · rw [hJoin, Text.splitAll_append_sep,
      List.getLast?_append_of_ne_nil _
        (Text.splitAll_ne_nil '/' path)]

section Start

variable (hSome : dir ≠ [])

include hSome

theorem join_ne_nil
    (hRelative : isAbsolute path = false) :
    join dir path ≠ [] := by
  rcases @join_cases dir path hRelative with
    ⟨hNone, -⟩ | ⟨before, -, hJoin⟩
  · exact absurd hNone hSome
  · simp [hJoin]

/- A path starts like the directory that it is below. -/
theorem start_append_slash
    (path : Text) :
    (parts (dir ++ '/' :: path)).start =
      (parts dir).start := by
  have hRoot :
      isAbsolute (dir ++ '/' :: path) = isAbsolute dir := by
    unfold isAbsolute
    rw [List.head?_append_of_ne_nil _ hSome]
  have hDot :
      startsWithDot (dir ++ '/' :: path) =
        startsWithDot dir := by
    match dir, hSome with
    | [c], _ =>
        by_cases hC : c = '.' <;> simp [startsWithDot, hC]
    | c :: d :: rest, _ =>
        by_cases hC : c = '.' <;> by_cases hD : d = '/' <;>
        simp [startsWithDot, hC, hD]
  have hTake :
      (dir ++ '/' :: path).take 1 = dir.take 1 := by
    rw [List.take_append_of_le_length]
    exact List.length_pos_of_ne_nil hSome
  unfold parts
  rw [hRoot, hDot]
  split
  · exact hTake
  · rfl

theorem start_join
    (hRelative : isAbsolute path = false) :
    (parts (join dir path)).start = (parts dir).start := by
  rw [join, if_neg (by simp [hRelative])]
  cases hEnd : Text.endsWith '/' dir with
  | false =>
      simpa [hSome] using start_append_slash hSome path
  | true =>
      rcases Text.endsWith_iff.mp hEnd with ⟨before, rfl⟩
      rw [Bool.or_true, if_pos rfl, List.append_assoc]
      by_cases hRoot : before = []
      · rw [hRoot]
        rfl
      · exact (start_append_slash hRoot path).trans
          (start_append_slash hRoot []).symm

theorem components_join
    {name : Text}
    (hName : IsName name) :
    components (join dir name) = components dir ++ [name] := by
  have hRelative := isAbsolute_of_isName hName
  unfold components
  simp only [start_join hSome hRelative, body_parts,
    names_join hRelative, names_of_isName hName]
  split
  · rfl
  · rw [List.cons_append]

end Start

end Join

------------------------------------------------------------
-- Relative Paths
------------------------------------------------------------

/- Skipped pieces that are taken off the end are no names. -/
theorem filter_reverse_dropWhile
    {drops : Text → Bool}
    (hSkipped :
      ∀ piece, drops piece = true → isSkipped piece = true)
    (pieces : List Text) :
    ((pieces.reverse.dropWhile drops).reverse.filter
        fun piece => !isSkipped piece) =
      pieces.filter fun piece => !isSkipped piece := by
  have hDrop :
      ∀ ps : List Text,
        ((ps.dropWhile drops).filter fun piece =>
            !isSkipped piece) =
          ps.filter fun piece => !isSkipped piece := by
    intro ps
    induction ps with
    | nil => rfl
    | cons p ps ih =>
        cases hDrops : drops p with
        | true => simp [hDrops, hSkipped p hDrops, ih]
        | false => simp [hDrops]
  rw [List.filter_reverse, hDrop, List.filter_reverse,
    List.reverse_reverse]

theorem filter_trimPieces
    (pieces : List Text) :
    ((trimPieces pieces).filter fun piece =>
        !isSkipped piece) =
      pieces.filter fun piece => !isSkipped piece :=
  filter_reverse_dropWhile (fun _ => id) pieces

/- Dropping pieces is dropping names. -/
theorem filter_dropPieces
    (n : Nat)
    (pieces : List Text) :
    ((dropPieces n pieces).filter fun piece =>
        !isSkipped piece) =
      (pieces.filter fun piece =>
        !isSkipped piece).drop n := by
  fun_induction dropPieces n pieces with
  | case1 n => simp
  | case2 n piece rest hSkipped ih => simp [hSkipped, ih]
  | case3 piece rest hSkipped => rfl
  | case4 piece rest hSkipped n ih => simp [hSkipped, ih]

theorem mem_of_mem_dropPieces
    {n : Nat}
    {pieces : List Text}
    {piece : Text}
    (hMem : piece ∈ dropPieces n pieces) :
    piece ∈ pieces := by
  fun_induction dropPieces n pieces with
  | case1 n => exact hMem
  | case2 n first rest hSkipped ih =>
      exact List.mem_cons_of_mem first (ih hMem)
  | case3 first rest hSkipped => exact hMem
  | case4 first rest hSkipped n ih =>
      exact List.mem_cons_of_mem first (ih hMem)

/- What is left of the pieces starts with a name. -/
theorem head?_dropPieces
    {n : Nat}
    {pieces : List Text}
    {piece : Text}
    (hHead : (dropPieces n pieces).head? = some piece) :
    isSkipped piece = false := by
  fun_induction dropPieces n pieces with
  | case1 n => cases hHead
  | case2 n first rest hSkipped ih => exact ih hHead
  | case3 first rest hSkipped =>
      cases hHead
      simpa using hSkipped
  | case4 first rest hSkipped n ih => exact ih hHead

theorem trimPieces_isPrefix
    (pieces : List Text) :
    trimPieces pieces <+: pieces :=
  List.rdropWhile_prefix isSkipped pieces

/- Pieces that start with a name make no absolute path. -/
theorem isAbsolute_join_pieces
    {pieces : List Text}
    (hPieces : ∀ piece ∈ pieces, '/' ∉ piece)
    (hHead :
      ∀ piece, pieces.head? = some piece →
        isSkipped piece = false) :
    isAbsolute (Text.join ['/'] pieces) = false := by
  cases pieces with
  | nil => rfl
  | cons piece rest =>
      have hSlash := hPieces piece List.mem_cons_self
      have hKept := hHead piece rfl
      cases piece with
      | nil => cases hKept
      | cons c cs =>
          have hFirst : c ≠ '/' := by
            rintro rfl
            exact hSlash List.mem_cons_self
          cases rest with
          | nil => simp [Text.join, isAbsolute, hFirst]
          | cons other rest =>
              simp [Text.join, isAbsolute, hFirst]

/- What is left of the pieces of a path is relative. -/
theorem isAbsolute_trimPieces_dropPieces
    {n : Nat}
    {pieces : List Text}
    (hPieces : ∀ piece ∈ pieces, '/' ∉ piece) :
    isAbsolute (Text.join ['/']
      (trimPieces (dropPieces n pieces))) = false := by
  have hStart := trimPieces_isPrefix (dropPieces n pieces)
  apply isAbsolute_join_pieces
  · intro piece hMem
    exact hPieces piece
      (mem_of_mem_dropPieces (hStart.subset hMem))
  · intro piece hHead
    rcases hStart with ⟨rest, hRest⟩
    have hFirst :
        (dropPieces n pieces).head? = some piece := by
      rw [← hRest, List.head?_append, hHead]
      rfl
    exact head?_dropPieces hFirst

theorem names_trimPieces_dropPieces
    {n : Nat}
    {pieces : List Text}
    (hPieces : ∀ piece ∈ pieces, '/' ∉ piece) :
    names (Text.join ['/']
        (trimPieces (dropPieces n pieces))) =
      (pieces.filter fun piece =>
        !isSkipped piece).drop n := by
  rw [names_join_pieces, filter_trimPieces,
    filter_dropPieces]
  intro piece hMem
  exact hPieces piece (mem_of_mem_dropPieces
    ((trimPieces_isPrefix _).subset hMem))

theorem relative?_eq_none_iff
    {root path : Text} :
    relative? root path = none ↔
      relativeComponents? root path = none := by
  unfold relative?
  simp only
  split
  · next hNone => simp [hNone]
  · next comps hSome =>
      split
      · simp [hSome]
      · simp [hSome]

section Relative

variable {root path : Text}
variable (hRoot : isAbsolute root = true)
variable (hPath : isAbsolute path = true)

include hRoot hPath

theorem relativeComponents?_eq :
    relativeComponents? root path =
      if names root <+: names path then
        some ((names path).drop (names root).length)
      else
        none := by
  unfold relativeComponents?
  rw [components_of_isAbsolute hRoot,
    components_of_isAbsolute hPath]
  by_cases hBelow : names root <+: names path
  · simp [hBelow]
  · simp [hBelow]

/- A path below a root, by its names. -/
theorem names_relative
    {relative : Text}
    (hRelative : relative? root path = some relative) :
    relativeComponents? root path = some (names relative) ∧
      isAbsolute relative = false := by
  have hStart : (parts path).start = ['/'] := by
    unfold parts
    rw [hPath]
    cases path with
    | nil => cases hPath
    | cons c cs => simpa [isAbsolute] using hPath
  have hPieces :
      ∀ piece ∈ (parts path).pieces, '/' ∉ piece := by
    intro piece hMem
    unfold parts at hMem
    split at hMem
    · exact Text.not_mem_of_mem_splitAll hMem
    · exact Text.not_mem_of_mem_splitAll hMem
  have hBody := body_parts path
  unfold Parts.body at hBody
  have hEq := relativeComponents?_eq hRoot hPath
  unfold relative? at hRelative
  simp only at hRelative
  split at hRelative
  · cases hRelative
  · next comps hComps =>
      rw [hComps] at hEq ⊢
      split at hEq
      · cases hEq
        -- The root slash is the one component of the root
        -- that stands for no piece of the path.
        rw [components_of_isAbsolute hRoot, hStart]
          at hRelative
        simp only [List.length_cons, Nat.add_eq_zero_iff,
          one_ne_zero, and_false, if_false,
          List.isEmpty_cons, Bool.false_eq_true,
          Nat.add_sub_cancel, Option.some.injEq]
          at hRelative
        subst hRelative
        rw [names_trimPieces_dropPieces hPieces, hBody]
        exact ⟨rfl, isAbsolute_trimPieces_dropPieces hPieces⟩
      · cases hEq

end Relative

------------------------------------------------------------
-- Following A Path
------------------------------------------------------------

/- The place after one name more. -/
def follow
    (place : List Text)
    (name : Text) : List Text :=
  if name = ['.', '.'] then
    place.dropLast
  else
    place ++ [name]

/- Where a path leads to, whatever there is on its way. -/
def resolve
    (current : List Text)
    (path : Text) : List Text :=
  (names path).foldl follow
    (if isAbsolute path then [] else current)

theorem resolve_join
    {dir path : Text}
    (hRelative : isAbsolute path = false)
    (current : List Text) :
    resolve current (join dir path) =
      (names path).foldl follow (resolve current dir) := by
  unfold resolve
  rw [names_join hRelative, isAbsolute_join hRelative,
    List.foldl_append]

theorem foldl_follow_of_not_mem
    {names : List Text}
    (hDots : ['.', '.'] ∉ names)
    (place : List Text) :
    names.foldl follow place = place ++ names := by
  induction names generalizing place with
  | nil => simp
  | cons name names ih =>
      rw [List.mem_cons, not_or] at hDots
      rw [List.foldl_cons, follow, if_neg (Ne.symm hDots.1),
        ih hDots.2, List.append_assoc,
        List.singleton_append]

/- Whether something holds of all places on a way. -/
def Along
    (holds : List Text → Prop) :
    List Text → List Text → Prop
  | place, [] => holds place
  | place, name :: names =>
      holds place ∧ Along holds (follow place name) names

section Along

variable {holds others : List Text → Prop}
variable {place names : List Text}

theorem Along.imp
    (hImp : ∀ q, holds q → others q)
    (hAlong : Along holds place names) :
    Along others place names := by
  induction names generalizing place with
  | nil => exact hImp place hAlong
  | cons name names ih =>
      exact ⟨hImp place hAlong.1, ih hAlong.2⟩

theorem Along.and
    (hAlong : Along holds place names)
    (hOthers : Along others place names) :
    Along (fun q => holds q ∧ others q) place names := by
  induction names generalizing place with
  | nil => exact ⟨hAlong, hOthers⟩
  | cons name names ih =>
      exact ⟨⟨hAlong.1, hOthers.1⟩, ih hAlong.2 hOthers.2⟩

theorem along_concat_iff
    (name : Text) :
    Along holds place (names ++ [name]) ↔
      Along holds place names ∧
        holds ((names ++ [name]).foldl follow place) := by
  induction names generalizing place with
  | nil => exact Iff.rfl
  | cons first names ih =>
      rw [List.cons_append, Along, ih, Along, and_assoc]
      rfl

theorem Along.first
    (hAlong : Along holds place names) :
    holds place := by
  cases names with
  | nil => exact hAlong
  | cons name names => exact hAlong.1

/- What holds on a way holds at its end. -/
theorem Along.last
    (hAlong : Along holds place names) :
    holds (names.foldl follow place) := by
  induction names generalizing place with
  | nil => exact hAlong
  | cons name names ih => exact ih hAlong.2

end Along

------------------------------------------------------------
-- Moves
------------------------------------------------------------

/- A way up by a number of names, and down by others. -/
structure Move where
  ups : Nat
  names : List Text

namespace Move

/- A way that goes on by one name more. -/
def next
    (m : Move)
    (name : Text) : Move :=
  if name = ['.', '.'] then
    if m.names = [] then
      { m with ups := m.ups + 1 }
    else
      { m with names := m.names.dropLast }
  else
    { m with names := m.names ++ [name] }

/- The way that names make. -/
def ofNames
    (names : List Text) : Move :=
  names.foldl next { ups := 0, names := [] }

/- Where a way leads to from a place. -/
def apply
    (m : Move)
    (place : List Text) : List Text :=
  place.take (place.length - m.ups) ++ m.names

theorem follow_apply
    (m : Move)
    (place : List Text)
    (name : Text) :
    follow (m.apply place) name =
      (m.next name).apply place := by
  unfold follow next
  by_cases hDots : name = ['.', '.']
  · rw [if_pos hDots, if_pos hDots]
    split
    · next hNil =>
        -- Nothing is left to take back but a name of the
        -- place; at the top there is none, and it stays.
        simp only [apply, hNil, List.append_nil]
        rw [List.dropLast_eq_take, List.take_take,
          List.length_take]
        congr 1
        omega
    · next hNames =>
        exact List.dropLast_append_of_ne_nil hNames
  · rw [if_neg hDots, if_neg hDots]
    exact List.append_assoc _ _ _

theorem foldl_follow_apply
    (names : List Text)
    (m : Move)
    (place : List Text) :
    names.foldl follow (m.apply place) =
      (names.foldl next m).apply place := by
  induction names generalizing m with
  | nil => rfl
  | cons name names ih =>
      rw [List.foldl_cons, List.foldl_cons, follow_apply, ih]

/- A way that ends with a name leads down. -/
theorem names_ofNames_concat
    {names : List Text}
    {name : Text}
    (hName : name ≠ ['.', '.']) :
    (ofNames (names ++ [name])).names ≠ [] := by
  unfold ofNames
  rw [List.foldl_append, List.foldl_cons, List.foldl_nil,
    next, if_neg hName]
  exact List.concat_ne_nil _ _

theorem ups_ofNames
    {names : List Text}
    (hDots : ['.', '.'] ∉ names) :
    (ofNames names).ups = 0 := by
  have hNext :
      ∀ (ns : List Text) (m : Move), ['.', '.'] ∉ ns →
        (ns.foldl next m).ups = m.ups := by
    intro ns
    induction ns with
    | nil => exact fun _ _ => rfl
    | cons n ns ih =>
        intro m hNone
        rw [List.mem_cons, not_or] at hNone
        rw [List.foldl_cons, ih _ hNone.2, next,
          if_neg (Ne.symm hNone.1)]
  exact hNext names _ hDots

end Move

theorem foldl_follow
    (names place : List Text) :
    names.foldl follow place =
      (Move.ofNames names).apply place := by
  have hStart :
      place =
        Move.apply { ups := 0, names := [] } place := by
    simp [Move.apply]
  calc
    names.foldl follow place =
        names.foldl follow
          (Move.apply { ups := 0, names := [] } place) := by
      rw [← hStart]
    _ = (Move.ofNames names).apply place :=
      Move.foldl_follow_apply names _ place

------------------------------------------------------------
-- Inside Of A Directory
------------------------------------------------------------

/- Whether a place is strictly below another one. -/
def Inside
    (dir place : List Text) : Prop :=
  dir <+: place ∧ dir ≠ place

instance
    (dir place : List Text) :
    Decidable (Inside dir place) :=
  inferInstanceAs (Decidable (_ ∧ _))

theorem inside_append_iff
    (dir place more : List Text) :
    Inside (dir ++ place) (dir ++ more) ↔
      Inside place more := by
  unfold Inside
  rw [List.prefix_append_right_inj, Ne,
    List.append_right_inj]

theorem inside_nil_iff
    {place : List Text} :
    Inside [] place ↔ place ≠ [] := by
  simp [Inside, eq_comm]

/-
  A way from a directory leads inside of it if and only if
  it comes down by the names that it went up, and goes on.
-/
theorem Move.inside_apply_iff
    (m : Move)
    (dir : List Text) :
    Inside dir (m.apply dir) ↔
      Inside (dir.drop (dir.length - m.ups)) m.names := by
  have hDir :
      dir =
        dir.take (dir.length - m.ups) ++
          dir.drop (dir.length - m.ups) :=
    (List.take_append_drop _ _).symm
  calc
    Inside dir (m.apply dir) ↔
        Inside
          (dir.take (dir.length - m.ups) ++
            dir.drop (dir.length - m.ups))
          (dir.take (dir.length - m.ups) ++ m.names) := by
      rw [← hDir]
      rfl
    _ ↔ _ := inside_append_iff _ _ _

/-
  Whether a way from a directory leads inside of it: it
  does not go up, or it comes back.
-/
def Move.Returns
    (m : Move)
    (dir : List Text) : Prop :=
  m.ups = 0 ∨
    Inside (dir.drop (dir.length - m.ups)) m.names

theorem Move.inside_apply_iff_returns
    {m : Move}
    (hNames : m.names ≠ [])
    (dir : List Text) :
    Inside dir (m.apply dir) ↔ m.Returns dir := by
  rw [Move.inside_apply_iff, Returns]
  constructor
  · exact Or.inr
  · rintro (hLevel | hInside)
    · rw [hLevel, Nat.sub_zero, List.drop_length,
        inside_nil_iff]
      exact hNames
    · exact hInside

end Path

end ComponentLoader
