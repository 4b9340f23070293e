import DependencyAtlas.Proofs.Text.Trim

namespace DependencyAtlas.Text

namespace Nesting

variable {s : Nesting} {c : Char} {t u : Text}

/-- Where a scan that stands at `s` stands after a text. -/
def after (s : Nesting) (t : Text) : Nesting :=
  t.foldl step s

theorem after_append (s : Nesting) (t u : Text) : s.after (t ++ u) = (s.after t).after u :=
  List.foldl_append

/-- A scan is only ever inside of quotes that are quotes. -/
def Sound (s : Nesting) : Prop :=
  ∀ q, s.quote = some q → isQuote q = true

theorem sound_start : Sound {} := by
  intro q hq
  cases hq

theorem Sound.step (h : s.Sound) (c : Char) : (s.step c).Sound := by
  unfold Nesting.step
  split
  · split
    · intro q hq
      cases hq
    · exact h
  · split
    · next hc =>
      intro q hq
      cases hq
      exact hc
    · split
      · exact h
      · split
        · exact h
        · exact h

theorem Sound.after (h : s.Sound) (t : Text) : (s.after t).Sound := by
  induction t generalizing s with
  | nil => exact h
  | cons c t ih => exact ih (h.step c)

theorem Sound.step_blank (h : s.Sound) (hc : isBlank c = true) : s.step c = s := by
  rw [Nesting.step]
  split
  · next q hq =>
    apply if_neg
    rintro rfl
    have hquote := h c hq
    rw [isQuote_eq_false_of_isBlank hc] at hquote
    cases hquote
  · simp [isQuote_eq_false_of_isBlank hc, isOpener_eq_false_of_isBlank hc,
      isCloser_eq_false_of_isBlank hc]

theorem Sound.after_blank (h : s.Sound) (ht : ∀ c ∈ t, isBlank c = true) : s.after t = s := by
  induction t with
  | nil => rfl
  | cons c t ih =>
    obtain ⟨hc, ht⟩ := List.forall_mem_cons.1 ht
    change (s.step c).after t = s
    rw [h.step_blank hc, ih ht]

theorem Sound.after_trim (h : s.Sound) (t : Text) : s.after (trim t) = s.after t := by
  obtain ⟨front, back, ht, hfront, hback⟩ := exists_trim t
  have hsame := congrArg s.after ht
  rw [after_append, after_append, h.after_blank hfront, (h.after _).after_blank hback] at hsame
  exact hsame.symm

theorem eq_start_of_isFree (h : s.isFree c = true) : s = {} := by
  obtain ⟨depth, quote⟩ := s
  simp only [isFree, Bool.and_eq_true, Option.isNone_iff_eq_none, beq_iff_eq] at h
  obtain ⟨⟨⟨rfl, rfl⟩, -⟩, -⟩ := h
  rfl

theorem step_of_isFree (h : s.isFree c = true) : s.step c = s := by
  obtain rfl := eq_start_of_isFree h
  simp only [isFree, Bool.and_eq_true, Bool.not_eq_true'] at h
  simp [step, h.1.2, h.2]

end Nesting

section Find

variable {p : Char → Bool} {s : Nesting} {t u : Text}

theorem findFrom_append_eq_none_iff :
    findFrom p s (t ++ u) = none ↔ findFrom p s t = none ∧ findFrom p (s.after t) u = none := by
  induction t generalizing s with
  | nil => simp [findFrom, Nesting.after]
  | cons c t ih =>
    rw [List.cons_append, findFrom, findFrom]
    split
    · simp
    · rw [Option.map_eq_none_iff, Option.map_eq_none_iff, ih]
      rfl

theorem findFrom_eq_some {i : Nat} (h : findFrom p s t = some i) :
    ∃ u c v, t = u ++ c :: v ∧ u.length = i ∧ findFrom p s u = none ∧ s.after u = {} ∧
      Nesting.isFree {} c = true ∧ p c = true := by
  induction t generalizing s i with
  | nil => cases h
  | cons c t ih =>
    rw [findFrom] at h
    split at h
    · next hc =>
      obtain ⟨hfree, hp⟩ := Bool.and_eq_true_iff.1 hc
      obtain rfl := Nesting.eq_start_of_isFree hfree
      exact ⟨[], c, t, rfl, Option.some.inj h, rfl, rfl, hfree, hp⟩
    · next hc =>
      obtain ⟨j, hj, rfl⟩ := Option.map_eq_some_iff.1 h
      obtain ⟨u, d, v, rfl, rfl, hu, hafter, hd⟩ := ih hj
      refine ⟨c :: u, d, v, rfl, rfl, ?_, hafter, hd⟩
      rw [findFrom, if_neg hc, hu]
      rfl

theorem findFrom_eq_some_of {c : Char} {v : Text} (hu : findFrom p s u = none)
    (hafter : s.after u = {}) (hfree : Nesting.isFree {} c = true) (hp : p c = true) :
    findFrom p s (u ++ c :: v) = some u.length := by
  induction u generalizing s with
  | nil =>
    obtain rfl : s = {} := hafter
    rw [List.nil_append, findFrom, hfree, hp]
    rfl
  | cons d u ih =>
    rw [findFrom] at hu
    split at hu
    · cases hu
    · next hd =>
      rw [List.cons_append, findFrom, if_neg hd, ih (Option.map_eq_none_iff.1 hu) hafter]
      rfl

theorem findFrom_eq_none_iff :
    findFrom p s t = none ↔ ∀ u c v, t = u ++ c :: v → p c = true →
      (s.after u).isFree c = false := by
  constructor
  · rintro h u c v rfl hp
    have hrest := (findFrom_append_eq_none_iff.1 h).2
    rw [findFrom, hp, Bool.and_true] at hrest
    split at hrest
    · cases hrest
    · next hfree => exact Bool.eq_false_iff.2 hfree
  · intro h
    cases hfind : findFrom p s t with
    | none => rfl
    | some i =>
      obtain ⟨u, c, v, ht, -, -, hafter, hfree, hp⟩ := findFrom_eq_some hfind
      have hnot := h u c v ht hp
      rw [hafter, hfree] at hnot
      cases hnot

theorem findTopLevel_around {sep : Text} (ht : findTopLevel p t = none)
    (hafter : Nesting.after {} t = {}) (hsep : findTopLevel p sep = none)
    (hclosed : Nesting.after {} sep = {}) (hu : findTopLevel p u = none) :
    findTopLevel p (t ++ sep ++ u) = none := by
  rw [findTopLevel, findFrom_append_eq_none_iff, findFrom_append_eq_none_iff, Nesting.after_append,
    hafter, hclosed]
  exact ⟨⟨ht, hsep⟩, hu⟩

theorem findTopLevel_trim (h : findTopLevel p t = none) : findTopLevel p (trim t) = none := by
  obtain ⟨front, back, ht, hfront, -⟩ := exists_trim t
  generalize trim t = u at ht ⊢
  subst ht
  rw [findTopLevel, findFrom_append_eq_none_iff, findFrom_append_eq_none_iff,
    Nesting.sound_start.after_blank hfront] at h
  exact h.1.2

end Find

section Pieces

variable {cut : Char → Bool} {s : Nesting} {t u : Text}

theorem topLevelPieces_of_findFrom (h : findFrom cut s t = none) :
    topLevelPieces cut s t = [t] := by
  induction t generalizing s with
  | nil => rfl
  | cons c t ih =>
    rw [findFrom] at h
    split at h
    · cases h
    · next hc => rw [topLevelPieces, if_neg hc, ih (Option.map_eq_none_iff.1 h)]

theorem topLevelPieces_append {c : Char} (ht : findFrom cut s t = none) (hafter : s.after t = {})
    (hfree : Nesting.isFree {} c = true) (hcut : cut c = true) :
    topLevelPieces cut s (t ++ c :: u) = t :: topLevelPieces cut {} u := by
  induction t generalizing s with
  | nil =>
    obtain rfl : s = {} := hafter
    rw [List.nil_append, topLevelPieces, hfree, hcut]
    rfl
  | cons d t ih =>
    rw [findFrom] at ht
    split at ht
    · cases ht
    · next hd =>
        rw [List.cons_append, topLevelPieces, if_neg hd, ih (Option.map_eq_none_iff.1 ht) hafter]

/-- No piece has a free character to cut at, and all pieces but the last one close what they
open. -/
theorem topLevelPieces_apart (cut : Char → Bool) (t : Text) :
    (∀ q ∈ topLevelPieces cut {} t, findTopLevel cut q = none) ∧
      (topLevelPieces cut {} t).Pairwise fun q _ => Nesting.after {} q = {} := by
  induction hn : t.length using Nat.strongRecOn generalizing t with
  | ind n ih =>
    cases hfind : findTopLevel cut t with
    | none =>
      rw [topLevelPieces_of_findFrom hfind]
      exact ⟨by simpa using hfind, List.pairwise_singleton _ _⟩
    | some i =>
      obtain ⟨u, c, v, rfl, -, hu, hafter, hfree, hcut⟩ := findFrom_eq_some hfind
      rw [topLevelPieces_append hu hafter hfree hcut]
      obtain ⟨hnone, hclosed⟩ :=
        ih v.length (by rw [← hn, List.length_append, List.length_cons]; omega) v rfl
      exact ⟨List.forall_mem_cons.2 ⟨hu, hnone⟩, List.pairwise_cons.2 ⟨fun _ _ => hafter, hclosed⟩⟩

end Pieces

section Assignment

variable {s : Nesting} {before : Option Char} {t u : Text}

theorem inOperator_eq (before after : Option Char) :
    inOperator before after = (inOperator none after || inOperator before none) := by
  simp [inOperator]

theorem assignmentFrom_cons_eq_none_iff {c : Char} :
    assignmentFrom s before (c :: t) = none ↔
      (s.isFree c = true → c = '=' → inOperator before t.head? = true) ∧
        assignmentFrom (s.step c) (some c) t = none := by
  rw [assignmentFrom]
  split
  · next h =>
    simp only [Bool.and_eq_true, beq_iff_eq, Bool.not_eq_true'] at h
    obtain ⟨⟨hfree, rfl⟩, hin⟩ := h
    simp [hfree, hin]
  · next h =>
    rw [Option.map_eq_none_iff, iff_and_self]
    rintro - hfree rfl
    simpa [hfree] using h

/-- Only the first character depends on what stands in front of it. -/
theorem assignmentFrom_of_neutral (h : assignmentFrom s before t = none)
    (hbefore : inOperator before none = false) (other : Option Char) :
    assignmentFrom s other t = none := by
  cases t with
  | nil => rfl
  | cons c t =>
    rw [assignmentFrom_cons_eq_none_iff] at h ⊢
    refine ⟨?_, h.2⟩
    intro hfree hc
    have hin := h.1 hfree hc
    rw [inOperator_eq, hbefore, Bool.or_false] at hin
    rw [inOperator_eq, hin, Bool.true_or]

theorem assignmentFrom_of_append (h : assignmentFrom s before (t ++ u) = none)
    (hu : inOperator none u.head? = false) :
    assignmentFrom s before t = none := by
  induction t generalizing s before with
  | nil => rfl
  | cons c t ih =>
    rw [List.cons_append, assignmentFrom_cons_eq_none_iff] at h
    rw [assignmentFrom_cons_eq_none_iff]
    refine ⟨?_, ih h.2⟩
    intro hfree hc
    have hin := h.1 hfree hc
    cases t with
    | nil => rwa [List.nil_append, inOperator_eq, hu, Bool.false_or] at hin
    | cons d t => exact hin

theorem getLast?_cons_or (c : Char) (t : Text) (before : Option Char) :
    (c :: t).getLast?.or before = t.getLast?.or (some c) := by
  rw [List.getLast?_cons]
  cases t.getLast? <;> rfl

theorem assignmentFrom_after (h : assignmentFrom s before (t ++ u) = none) :
    assignmentFrom (s.after t) (t.getLast?.or before) u = none := by
  induction t generalizing s before with
  | nil => exact h
  | cons c t ih =>
    rw [List.cons_append, assignmentFrom_cons_eq_none_iff] at h
    rw [getLast?_cons_or]
    exact ih h.2

/-- A text without an assignment sign is passed over. -/
theorem assignmentFrom_append (h : assignmentFrom s before t = none) :
    assignmentFrom s before (t ++ u) =
      (assignmentFrom (s.after t) (t.getLast?.or before) u).map fun r => (t ++ r.1, r.2) := by
  induction t generalizing s before with
  | nil => simp [Nesting.after]
  | cons c t ih =>
    rw [assignmentFrom_cons_eq_none_iff] at h
    have hguard : ¬(s.isFree c && c == '=' && !inOperator before (t ++ u).head?) = true := by
      intro hc
      simp only [Bool.and_eq_true, beq_iff_eq, Bool.not_eq_true'] at hc
      obtain ⟨⟨hfree, hsign⟩, hout⟩ := hc
      have hin := h.1 hfree hsign
      cases t with
      | nil =>
        rw [inOperator_eq, Bool.or_eq_false_iff] at hout
        rw [List.head?_nil, hout.2] at hin
        cases hin
      | cons d t =>
        rw [List.cons_append, List.head?_cons] at hout
        rw [List.head?_cons, hout] at hin
        cases hin
    rw [List.cons_append, assignmentFrom, if_neg hguard, ih h.2, getLast?_cons_or, Option.map_map]
    rfl

/-- The first assignment sign is free and not part of an operator, and none stands in front of
it. -/
theorem assignmentFrom_eq_some {d v : Text} (h : assignmentFrom s before t = some (d, v)) :
    t = d ++ '=' :: v ∧ assignmentFrom s before d = none ∧ s.after d = {} ∧
      inOperator (d.getLast?.or before) none = false := by
  induction t generalizing s before d with
  | nil => cases h
  | cons c t ih =>
    rw [assignmentFrom] at h
    split at h
    · next hc =>
      cases h
      simp only [Bool.and_eq_true, beq_iff_eq, Bool.not_eq_true'] at hc
      obtain ⟨⟨hfree, rfl⟩, hout⟩ := hc
      rw [inOperator_eq, Bool.or_eq_false_iff] at hout
      exact ⟨rfl, rfl, Nesting.eq_start_of_isFree hfree, hout.2⟩
    · next hc =>
      obtain ⟨⟨e, w⟩, hrest, heq⟩ := Option.map_eq_some_iff.1 h
      cases heq
      obtain ⟨rfl, hnone, hafter, hout⟩ := ih hrest
      rw [assignmentFrom_cons_eq_none_iff, getLast?_cons_or]
      refine ⟨rfl, ⟨?_, hnone⟩, hafter, hout⟩
      rintro hfree rfl
      cases e with
      | nil =>
        cases hout -- an equals sign right in front of the other would make an operator of the two
      | cons b e => simpa [hfree] using hc

theorem inOperator_of_isBlank {c : Char} (hc : isBlank c = true) :
    inOperator none (some c) = false ∧ inOperator (some c) none = false := by
  have hequals : c ≠ '=' := ne_of_isBlank hc (by decide)
  have hgreater : c ≠ '>' := ne_of_isBlank hc (by decide)
  have hless : c ≠ '<' := ne_of_isBlank hc (by decide)
  have hnot : c ≠ '!' := ne_of_isBlank hc (by decide)
  simp [inOperator, hequals, hgreater, hless, hnot]

theorem assignmentFrom_trim (h : assignmentFrom {} none t = none) :
    assignmentFrom {} none (trim t) = none := by
  obtain ⟨front, back, ht, hfront, hback⟩ := exists_trim t
  generalize trim t = u at ht ⊢
  subst ht
  have hbehind : inOperator none back.head? = false := by
    cases back with
    | nil => rfl
    | cons c back => exact (inOperator_of_isBlank (hback c List.mem_cons_self)).1
  have hahead : inOperator (front.getLast?.or none) none = false := by
    rw [Option.or_none]
    cases hlast : front.getLast? with
    | none => rfl
    | some c => exact (inOperator_of_isBlank (hfront c (List.mem_of_getLast? hlast))).2
  have hrest := assignmentFrom_after (assignmentFrom_of_append h hbehind)
  rw [Nesting.sound_start.after_blank hfront] at hrest
  exact assignmentFrom_of_neutral hrest hahead none

end Assignment

section Inherited

/-- A property of texts that trimming keeps and that the parts of a text around a free `sign`
inherit. -/
structure Inherited (sign : Char) (P : Text → Prop) : Prop where
  empty : P []
  trim : ∀ t, P t → P (trim t)
  parts : ∀ t u, Nesting.after {} t = {} → P (t ++ sign :: u) → P t ∧ P u

variable {sign : Char}

theorem inherited_avoids (hsign : Nesting.isFree {} sign = true) (p : Char → Bool) :
    Inherited sign fun t => findTopLevel p t = none where
  empty := rfl
  trim _ := findTopLevel_trim
  parts t u ht h := by
    rw [findTopLevel, findFrom_append_eq_none_iff, ht, findFrom] at h
    obtain ⟨ht, hu⟩ := h
    split at hu
    · cases hu
    · rw [Option.map_eq_none_iff, Nesting.step_of_isFree hsign] at hu
      exact ⟨ht, hu⟩

theorem inherited_closed (hsign : Nesting.isFree {} sign = true) :
    Inherited sign fun t => Nesting.after {} t = {} where
  empty := rfl
  trim t ht := by rw [Nesting.sound_start.after_trim, ht]
  parts t u ht h := by
    rw [Nesting.after_append, ht] at h
    change (Nesting.step {} sign).after u = {} at h
    rw [Nesting.step_of_isFree hsign] at h
    exact ⟨ht, h⟩

theorem inherited_unassigned : Inherited ':' fun t => assignmentFrom {} none t = none where
  empty := rfl
  trim _ := assignmentFrom_trim
  parts t u ht h := by
    have hrest := assignmentFrom_after h
    rw [ht, assignmentFrom_cons_eq_none_iff, Nesting.step_of_isFree (by decide)] at hrest
    exact ⟨assignmentFrom_of_append h rfl, assignmentFrom_of_neutral hrest.2 rfl none⟩

end Inherited

end DependencyAtlas.Text
