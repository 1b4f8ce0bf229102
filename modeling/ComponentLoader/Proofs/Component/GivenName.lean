import Mathlib.Tactic
import ComponentLoader.Digest.Short
import ComponentLoader.Proofs.Component.Placement
import ComponentLoader.Proofs.Query.Key
import ComponentLoader.Proofs.Script.DefaultExport

/-
  The name given to a class without one, and where it is
  put: a plain word that is not reserved, after the first
  keyword that stands alone from the start of the class.

  Main declarations:
    * `Component.isPlainIdentifier_givenName`
    * `Component.isReserved_givenName`
    * `Component.nameEdit?_of_not_obstructs`
    * `Component.exists_nameEdit?_of_obstructs`
-/

------------------------------------------------------------
-- Digits
------------------------------------------------------------

namespace ComponentLoader

/- The digits of a number may stand in a word. -/
theorem Text.isPlainPart_of_mem_hex
    {c : Char}
    {n : Nat}
    (hMem : c ∈ Text.hex n) :
    Text.isPlainPart c = true := by
  have hDigit :
      ∀ d : Fin 16,
        Text.isPlainPart (Nat.digitChar d) = true := by
    decide
  unfold Text.hex at hMem
  induction n using Nat.strongRecOn with
  | ind n ih =>
      rw [Nat.toDigits_eq_if (by decide)] at hMem
      split at hMem
      · next hSmall =>
          rw [List.mem_singleton] at hMem
          exact hMem ▸ hDigit ⟨n, hSmall⟩
      · next hLarge =>
          rcases List.mem_append.mp hMem with hMem | hMem
          · exact ih (n / 16)
              (Nat.div_lt_self (by omega) (by decide)) hMem
          · rw [List.mem_singleton] at hMem
            exact hMem ▸ hDigit
              ⟨n % 16, Nat.mod_lt n (by decide)⟩

theorem Digest.isPlainPart_of_mem_byteDigits
    {c : Char}
    {n : Nat}
    (hMem : c ∈ Digest.byteDigits n) :
    Text.isPlainPart c = true := by
  unfold Digest.byteDigits Text.padLeft at hMem
  rcases List.mem_append.mp hMem with hMem | hMem
  · rw [List.eq_of_mem_replicate hMem]
    decide
  · exact Text.isPlainPart_of_mem_hex hMem

/- A digest may stand in a word. -/
theorem Digest.isPlainPart_of_mem_file
    {c : Char}
    {path source : Text}
    {production : Bool}
    (hMem : c ∈ Digest.file path source production) :
    Text.isPlainPart c = true := by
  have hShort :
      ∀ t, c ∈ Digest.short t →
        Text.isPlainPart c = true := by
    intro t hMem
    unfold Digest.short Digest.wordDigits at hMem
    simp only [List.mem_append] at hMem
    rcases hMem with ((hMem | hMem) | hMem) | hMem <;>
      exact Digest.isPlainPart_of_mem_byteDigits hMem
  unfold Digest.file at hMem
  split at hMem
  · exact hShort _ hMem
  · exact hShort _ hMem

namespace Component

------------------------------------------------------------
-- Given Names
------------------------------------------------------------

section GivenName

variable {f : File}

theorem name_of_anonymous
    {c : Component}
    (hAnonymous : c.candidate.name = none) :
    c.name f = c.givenName f := by
  unfold name
  rw [hAnonymous]

theorem isPlainPart_of_mem_givenName
    (hDigest : ∀ d ∈ f.digest, Text.isPlainPart d = true)
    (c : Component)
    {d : Char}
    (hMem : d ∈ c.givenName f) :
    Text.isPlainPart d = true := by
  have hFirst :
      "Component_".toList.all Text.isPlainPart = true := by
    decide
  unfold givenName at hMem
  simp only [List.mem_append, List.mem_singleton] at hMem
  rcases hMem with ((hMem | hMem) | rfl) | hMem
  · exact List.all_eq_true.mp hFirst d hMem
  · exact hDigest d hMem
  · decide
  · have hDigit := Query.Key.isDigit_of_mem_ofNat hMem
    simp [Text.isPlainPart, Char.isAlphanum, hDigit]

theorem exists_givenName
    (c : Component)
    (f : File) :
    ∃ rest, c.givenName f = 'C' :: rest :=
  ⟨"omponent_".toList ++ f.digest ++ ['_'] ++
    Text.ofNat (c.ordinal + 1), rfl⟩

theorem isPlainIdentifier_givenName
    (hDigest : ∀ d ∈ f.digest, Text.isPlainPart d = true)
    (c : Component) :
    Text.isPlainIdentifier (c.givenName f) = true := by
  rcases exists_givenName c f with ⟨rest, hName⟩
  have hStart : Text.isPlainStart 'C' = true := by decide
  rw [hName, Text.isPlainIdentifier, hStart, Bool.true_and,
    List.all_eq_true]
  intro d hMem
  apply isPlainPart_of_mem_givenName hDigest c
  rw [hName]
  exact List.mem_cons_of_mem _ hMem

/- No reserved word starts with a capital letter. -/
theorem isReserved_givenName
    (c : Component)
    (f : File) :
    Script.isReserved (c.givenName f) = false := by
  have hReserved :
      ∀ w ∈ Script.keywords ++ Script.strictWords,
        w.head? ≠ some 'C' := by
    decide
  rcases exists_givenName c f with ⟨rest, hName⟩
  have hNot :
      c.givenName f ∉
        Script.keywords ++ Script.strictWords := by
    intro hMem
    exact hReserved _ hMem (by rw [hName]; rfl)
  rw [List.mem_append, not_or] at hNot
  simpa [Script.isReserved] using hNot

end GivenName

------------------------------------------------------------
-- Where The Name Is Put
------------------------------------------------------------

section NameEdit

variable {c : Component}
variable {f : File}
variable {types : Bool}
variable {h : Script.Heading}

/- No decorator ends after the start of the class. -/
theorem keywordStart_of_heads
    {decl : Script.Class}
    {source : Source}
    (hHeads : h.Heads decl source types) :
    keywordStart decl = decl.lo := by
  rcases keywordStart_spec decl with
    ⟨hSame | ⟨d, hMem, hSame⟩, hLo, _⟩
  · exact hSame
  · have hEnd := hHeads.decorators d hMem
    have hStart := hHeads.start
    rw [Text.size_append] at hStart
    omega

/- The keyword is looked for from the start of the class. -/
theorem nameEdit?_of_heads
    {found : Text}
    (hHeads :
      h.Heads c.candidate.decl f.source types)
    (hFind :
      Text.findKeyword Text.classKeyword
          (h.crossed ++ Text.classKeyword ++ h.after) =
        some (Text.size found)) :
    c.nameEdit? f =
      some
        [c.nameAfter f (h.before ++ h.skipped ++ found)] := by
  have hText :
      f.source.text =
        h.before ++ h.skipped ++
          (h.crossed ++ Text.classKeyword ++ h.after) := by
    rw [hHeads.text]
    simp only [List.append_assoc]
  have hStart := keywordStart_of_heads hHeads
  rw [hHeads.start] at hStart
  exact nameEdit?_of_findKeyword hText hStart hFind

/- The name is put after the keyword of the class. -/
theorem nameEdit?_of_not_obstructs
    (hHeads :
      h.Heads c.candidate.decl f.source types)
    (hClear : ¬ Text.Obstructs h.crossed) :
    c.nameEdit? f =
      some
        [c.nameAfter f
          (h.before ++ h.skipped ++
            (h.crossed ++ Text.classKeyword))] :=
  nameEdit?_of_heads hHeads
    (Text.findKeyword_of_not_obstructs hHeads.standsAlone
      hClear)

/- The name is put after a keyword in a comment. -/
theorem exists_nameEdit?_of_obstructs
    (hDigest : ∀ d ∈ f.digest, Text.isPlainPart d = true)
    (hAnonymous : c.candidate.name = none)
    (hHeads :
      h.Heads c.candidate.decl f.source types)
    (hObstructs : Text.Obstructs h.crossed) :
    ∃ first rest,
      h.crossed = first ++ Text.classKeyword ++ rest ∧
        c.nameEdit? f =
          some
            [c.nameAfter f
              (h.before ++ h.skipped ++
                (first ++ Text.classKeyword))] ∧
        Script.Lead types
          (h.skipped ++ (first ++ Text.classKeyword) ++
            ' ' :: c.name f ++ rest) := by
  rcases Text.exists_of_obstructs hHeads.standsAlone
      hObstructs with
    ⟨first, rest, hCrossed, hStands, hFind⟩
  refine ⟨first, rest, hCrossed,
    nameEdit?_of_heads hHeads hFind, ?_⟩
  have hQuiet :
      ∀ d ∈ ' ' :: c.name f, Script.isQuiet d = true := by
    intro d hMem
    rcases List.mem_cons.mp hMem with rfl | hMem
    · decide
    · rw [name_of_anonymous hAnonymous] at hMem
      exact Script.isQuiet_of_isPlainPart
        (isPlainPart_of_mem_givenName hDigest c hMem)
  have hLead := hHeads.lead
  have hAlone : Text.isBoundary rest.head? = true := by
    cases rest with
    | nil => rfl
    | cons d ds => exact hStands.2
  rw [hCrossed, ← List.append_assoc, ← List.append_assoc]
    at hLead
  simpa only [List.append_assoc, List.cons_append] using
    hLead.insert hAlone hQuiet

end NameEdit

end Component

end ComponentLoader
