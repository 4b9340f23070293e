import DependencyAtlas.Text.Word

namespace DependencyAtlas.Text

theorem inRanges_eq_false {s t : List (Nat × Nat)}
    (h : (s.all fun r => t.all fun q => Nat.blt r.2 q.1 || Nat.blt q.2 r.1) = true) {c : Char}
    (hc : inRanges s c = true) : inRanges t c = false := by
  obtain ⟨r, hr, hrc⟩ := List.any_eq_true.1 hc
  rw [inRanges, List.any_eq_false]
  intro q hq hqc
  have hapart := List.all_eq_true.1 (List.all_eq_true.1 h r hr) q hq
  simp only [Bool.and_eq_true, Bool.or_eq_true, decide_eq_true_eq, Nat.blt_eq] at hrc hqc hapart
  omega

theorem inRanges_of_isWord {c : Char} (h : isWord c = true) :
    inRanges [(0x30, 0x39), (0x41, 0x5A), (0x5F, 0x5F), (0x61, 0x7A)] c = true ∨
    inRanges wordRanges c = true := by
  rw [isWord, Bool.or_eq_true, Bool.or_eq_true] at h
  rcases h with (h | h) | h
  · left
    delta Char.isAlphanum Char.isAlpha Char.isUpper Char.isLower Char.isDigit at h
    simp only [Bool.or_eq_true, Bool.and_eq_true, decide_eq_true_eq, ge_iff_le,
      UInt32.le_iff_toNat_le] at h
    change (65 ≤ c.toNat ∧ c.toNat ≤ 90 ∨ 97 ≤ c.toNat ∧ c.toNat ≤ 122) ∨ 48 ≤ c.toNat ∧
      c.toNat ≤ 57 at h
    simp only [inRanges, List.any_cons, List.any_nil, Bool.or_false, Bool.or_eq_true,
      Bool.and_eq_true, decide_eq_true_eq]
    omega
  · left
    rw [eq_of_beq h]
    decide
  · exact .inr h

theorem isBlank_eq_false_of_isWord {c : Char} (h : isWord c = true) : isBlank c = false := by
  rcases inRanges_of_isWord h with h | h
  · exact inRanges_eq_false (by decide) h
  · exact inRanges_eq_false (by decide +kernel) h

theorem isWord_eq_false_of_isBlank {c : Char} (hc : isBlank c = true) : isWord c = false := by
  rw [← Bool.not_eq_true]
  intro hword
  rw [isBlank_eq_false_of_isWord hword] at hc
  cases hc

theorem isNameStart_eq_false {c : Char} (hc : isWord c = false) : isNameStart c = false := by
  rw [isWord, Bool.or_assoc, Bool.or_eq_false_iff, Bool.or_eq_false_iff, Char.isAlphanum,
    Bool.or_eq_false_iff] at hc
  rw [isNameStart, hc.1.1, hc.2.1]
  rfl

theorem isWord_of_isNameStart {c : Char} (hc : isNameStart c = true) : isWord c = true := by
  cases hword : isWord c with
  | true => rfl
  | false =>
    rw [isNameStart_eq_false hword] at hc
    cases hc

theorem isNameStart_eq_false_of_isBlank {c : Char} (hc : isBlank c = true) :
    isNameStart c = false :=
  isNameStart_eq_false (isWord_eq_false_of_isBlank hc)

end DependencyAtlas.Text
