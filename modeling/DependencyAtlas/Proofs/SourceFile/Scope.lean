import DependencyAtlas.SourceFile.Scope

namespace DependencyAtlas.Scope

open Text

/-- The indentation of a line by its index. -/
def depthAt (lines : List Text) (i : Nat) : Nat :=
  indent (lines.getD i [])

variable {lines : List Text} {i j k : Nat} {l : Text}

theorem depthAt_eq (h : lines[i]? = some l) : depthAt lines i = indent l := by
  rw [depthAt, List.getD_eq_getElem?_getD, h, Option.getD_some]

theorem scopeEnd_eq (lines : List Text) (i : Nat) :
    scopeEnd lines i = i + 1 + (lines.drop (i + 1)).findIdx (ends (depthAt lines i)) := by
  have hle : (lines.drop (i + 1)).findIdx (ends (depthAt lines i)) ≤ (lines.drop (i + 1)).length :=
    List.findIdx_le_length
  rw [scopeEnd, List.takeWhile_eq_take_findIdx_not, List.length_take]
  simp only [Bool.not_not]
  exact congrArg _ (Nat.min_eq_left hle)

theorem lt_scopeEnd (lines : List Text) (i : Nat) : i < scopeEnd lines i := by
  rw [scopeEnd]
  omega

/-- A line is in the scope of an earlier one if no line up to it ends that scope. -/
theorem lt_scopeEnd_iff (h : i < k) :
    k < scopeEnd lines i ↔
      k < lines.length ∧ ∀ j l, i < j → j ≤ k → lines[j]? = some l →
        ends (depthAt lines i) l = false := by
  have hshift : k < scopeEnd lines i ↔ k - (i + 1) <
      (lines.drop (i + 1)).findIdx (ends (depthAt lines i)) := by
    rw [scopeEnd_eq]
    omega
  rw [hshift, List.lt_findIdx_iff]
  constructor
  · intro ⟨hlength, hnone⟩
    rw [List.length_drop] at hlength
    refine ⟨by omega, ?_⟩
    intro j l hij hjk hl
    obtain ⟨hj, rfl⟩ := List.getElem?_eq_some_iff.1 hl
    have hj' := hnone (j - (i + 1)) (by omega)
    simpa only [List.getElem_drop, show i + 1 + (j - (i + 1)) = j by omega] using hj'
  · intro ⟨hlength, hnone⟩
    refine ⟨by rw [List.length_drop]; omega, ?_⟩
    intro j hj
    rw [List.getElem_drop]
    exact hnone (i + 1 + j) _ (by omega) (by omega) (List.getElem?_eq_getElem (by omega))

theorem lt_scopeEnd_iff_of_le (h : i < k) (hle : k ≤ scopeEnd lines i) (hl : lines[k]? = some l) :
    k < scopeEnd lines i ↔ ends (depthAt lines i) l = false := by
  constructor
  · intro hlt
    exact ((lt_scopeEnd_iff h).1 hlt).2 k l h (Nat.le_refl k) hl
  · intro hends
    refine (lt_scopeEnd_iff h).2 ⟨(List.getElem?_eq_some_iff.1 hl).1, ?_⟩
    intro j m hij hjk hm
    rcases Nat.lt_or_eq_of_le hjk with hjk | rfl
    · exact ((lt_scopeEnd_iff hij).1 (Nat.lt_of_lt_of_le hjk hle)).2 j m hij (Nat.le_refl j) hm
    · rw [hl] at hm
      rwa [← Option.some.inj hm]

theorem not_significant_or_deeper (h : ends (depthAt lines i) l = false) :
    isSignificant l = false ∨ depthAt lines i < indent l := by
  rw [ends, Bool.and_eq_false_iff, decide_eq_false_iff_not, Nat.not_le] at h
  exact h

theorem depthAt_lt (h : i < j) (hlt : j < scopeEnd lines i) (hl : lines[j]? = some l)
    (hsig : isSignificant l = true) :
    depthAt lines i < depthAt lines j := by
  have hends := ((lt_scopeEnd_iff h).1 hlt).2 j l h (Nat.le_refl j) hl
  rw [depthAt_eq hl]
  rcases not_significant_or_deeper hends with hnot | hdeeper
  · rw [hsig] at hnot
    cases hnot
  · exact hdeeper

theorem scopeEnd_le_scopeEnd (h : i < j) (hlt : j < scopeEnd lines i) (hl : lines[j]? = some l)
    (hsig : isSignificant l = true) : scopeEnd lines j ≤ scopeEnd lines i := by
  have hdepth := depthAt_lt h hlt hl hsig
  rw [← Nat.not_lt]
  intro hlonger
  -- the line that ends the outer scope is indented no deeper than the inner one
  obtain ⟨hlength, hinner⟩ := (lt_scopeEnd_iff hlt).1 hlonger
  have hstop := List.getElem?_eq_getElem hlength
  apply Nat.lt_irrefl (scopeEnd lines i)
  apply (lt_scopeEnd_iff_of_le (Nat.lt_trans h hlt) (Nat.le_refl _) hstop).2
  have hends := hinner _ _ hlt (Nat.le_refl _) hstop
  rcases not_significant_or_deeper hends with hnot | hdeeper
  · rw [ends, hnot, Bool.false_and]
  · rw [ends, Bool.and_eq_false_iff, decide_eq_false_iff_not]
    right
    omega

end DependencyAtlas.Scope
