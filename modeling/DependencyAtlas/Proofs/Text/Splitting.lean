import DependencyAtlas.Proofs.Text.TopLevel

namespace DependencyAtlas.Text

/-- The trimmed text as the only part, or no part when the text is blank. -/
def wholePart (t : Text) : List Text :=
  if trim t = [] then [] else [trim t]

/-- The character at place `i` of a text is `c`, and it stands outside of brackets and quotes. -/
def FreeAt (c : Char) (t : Text) (i : Nat) : Prop :=
  t[i]? = some c ∧ (Nesting.after {} (t.take i)).isFree c = true

section First

variable {c : Char} {t : Text} {i : Nat}

theorem freeAt_iff :
    FreeAt c t i ↔ ∃ u v, t = u ++ c :: v ∧ u.length = i ∧
      (Nesting.after {} u).isFree c = true := by
  constructor
  · rintro ⟨hc, hfree⟩
    obtain ⟨hi, rfl⟩ := List.getElem?_eq_some_iff.1 hc
    refine ⟨t.take i, t.drop (i + 1), ?_, List.length_take_of_le (Nat.le_of_lt hi), hfree⟩
    rw [List.getElem_cons_drop, List.take_append_drop]
  · rintro ⟨u, v, rfl, rfl, hfree⟩
    refine ⟨List.getElem?_append_right (Nat.le_refl _) |>.trans (by simp), ?_⟩
    rwa [List.take_left]

theorem findTopLevel_eq_some_iff :
    findTopLevel (· == c) t = some i ↔ FreeAt c t i ∧ ∀ j < i, ¬FreeAt c t j := by
  constructor
  · intro h
    obtain ⟨u, d, v, rfl, rfl, hu, hafter, hfree, hd⟩ := findFrom_eq_some h
    obtain rfl := eq_of_beq hd
    refine ⟨freeAt_iff.2 ⟨u, v, rfl, rfl, by rw [hafter, hfree]⟩, ?_⟩
    intro j hj hearlier
    obtain ⟨w, x, heq, rfl, hw⟩ := freeAt_iff.1 hearlier
    obtain ⟨rest, hrest, -⟩ | ⟨rest, rfl, hrest⟩ := List.append_eq_append_iff.1 heq
    · rw [hrest, List.length_append] at hj
      omega
    · cases rest with
      | nil => simp at hj
      | cons e rest =>
        obtain ⟨rfl, -⟩ := List.cons.inj hrest
        have hnot := findFrom_eq_none_iff.1 hu w _ rest rfl hd
        rw [hw] at hnot
        cases hnot
  · rintro ⟨h, hfirst⟩
    obtain ⟨u, v, rfl, rfl, hfree⟩ := freeAt_iff.1 h
    have hstart := Nesting.eq_start_of_isFree hfree
    have hnone : findFrom (· == c) {} u = none := by
      rw [findFrom_eq_none_iff]
      rintro w d x rfl hd
      obtain rfl := eq_of_beq hd
      apply Bool.eq_false_iff.2
      intro hw
      apply hfirst w.length (by simp)
      exact freeAt_iff.2 ⟨w, x ++ d :: v, by simp, rfl, hw⟩
    rw [hstart] at hfree
    exact findFrom_eq_some_of hnone hstart hfree (beq_self_eq_true c)

end First

section Split

variable {cut : Char → Bool} {c : Char} {t u : Text}

theorem wholePart_of_trimmed (hne : t ≠ []) (ht : trim t = t) : wholePart t = [t] := by
  rw [wholePart, ht, if_neg hne]

theorem splitTopLevel_of_findTopLevel (h : findTopLevel cut t = none) :
    splitTopLevel cut t = wholePart t := by
  rw [splitTopLevel, topLevelPieces_of_findFrom h, wholePart]
  by_cases ht : trim t = [] <;> simp [ht]

theorem splitTopLevel_append (h : findTopLevel cut t = none) (hafter : Nesting.after {} t = {})
    (hfree : Nesting.isFree {} c = true) (hcut : cut c = true) :
    splitTopLevel cut (t ++ c :: u) = wholePart t ++ splitTopLevel cut u := by
  rw [splitTopLevel, topLevelPieces_append h hafter hfree hcut, wholePart]
  by_cases ht : trim t = [] <;> simp [ht, splitTopLevel]

theorem splitTopLevel_of_findTopLevel_eq_some {i : Nat} (h : findTopLevel cut t = some i) :
    splitTopLevel cut t = wholePart (t.take i) ++ splitTopLevel cut (t.drop (i + 1)) := by
  obtain ⟨u, c, v, rfl, rfl, hu, hafter, hfree, hcut⟩ := findFrom_eq_some h
  rw [splitTopLevel_append hu hafter hfree hcut]
  simp

theorem splitTopLevel_blank_cons (hc : isBlank c = true) (hcut : cut c = false) (t : Text) :
    splitTopLevel cut (c :: t) = splitTopLevel cut t := by
  rw [splitTopLevel, topLevelPieces, hcut, Bool.and_false, if_neg Bool.false_ne_true,
    Nesting.sound_start.step_blank hc, splitTopLevel]
  cases topLevelPieces cut {} t with
  | nil =>
    have hsingle : trim [c] = [] := trim_cons hc []
    simp [hsingle]
  | cons q qs => simp [trim_cons hc q]

theorem splitTopLevel_blank_append {gap : Text} (hgap : ∀ b ∈ gap, isBlank b = true ∧ cut b = false)
    (t : Text) :
    splitTopLevel cut (gap ++ t) = splitTopLevel cut t := by
  induction gap with
  | nil => rfl
  | cons b gap ih =>
    obtain ⟨⟨hb, hcut⟩, hgap⟩ := List.forall_mem_cons.1 hgap
    rw [List.cons_append, splitTopLevel_blank_cons hb hcut, ih hgap]

/-- The parts of a text are trimmed and not empty, no part has a free character to cut at, and all
parts but the last one close what they open. -/
theorem splitTopLevel_apart (cut : Char → Bool) (t : Text) :
    (∀ q ∈ splitTopLevel cut t, q ≠ [] ∧ trim q = q ∧ findTopLevel cut q = none) ∧
      (splitTopLevel cut t).Pairwise fun q _ => Nesting.after {} q = {} := by
  obtain ⟨hnone, hclosed⟩ := topLevelPieces_apart cut t
  constructor
  · intro q hq
    obtain ⟨hq, hne⟩ := List.mem_filter.1 hq
    obtain ⟨r, hr, rfl⟩ := List.mem_map.1 hq
    exact ⟨of_decide_eq_true hne, trim_trim r, findTopLevel_trim (hnone r hr)⟩
  · apply List.Pairwise.filter
    apply List.pairwise_map.2
    apply hclosed.imp
    intro q _ hq
    rw [Nesting.sound_start.after_trim, hq]

theorem splitTopLevel_of_mem {q : Text} (hq : q ∈ splitTopLevel cut t) :
    splitTopLevel cut q = [q] := by
  obtain ⟨hne, htrim, hnone⟩ := (splitTopLevel_apart cut t).1 q hq
  rw [splitTopLevel_of_findTopLevel hnone, wholePart_of_trimmed hne htrim]

theorem splitTopLevel_join_of_isFree {gap : Text} {qs : List Text}
    (hfree : Nesting.isFree {} c = true) (hgap : ∀ b ∈ gap, isBlank b = true ∧ (b == c) = false)
    (hqs : ∀ q ∈ qs, q ≠ [] ∧ trim q = q ∧ findTopLevel (· == c) q = none)
    (hclosed : qs.Pairwise fun q _ => Nesting.after {} q = {}) :
    splitTopLevel (· == c) (join (c :: gap) qs) = qs := by
  induction qs with
  | nil => rfl
  | cons q qs ih =>
    obtain ⟨⟨hne, htrim, hnone⟩, hqs⟩ := List.forall_mem_cons.1 hqs
    obtain ⟨hq, hclosed⟩ := List.pairwise_cons.1 hclosed
    cases qs with
    | nil =>
      rw [join, List.intercalate_singleton, splitTopLevel_of_findTopLevel hnone,
        wholePart_of_trimmed hne htrim]
    | cons r qs =>
      have hjoin :
          join (c :: gap) (q :: r :: qs) = q ++ c :: (gap ++ join (c :: gap) (r :: qs)) := by
        simp [join, List.intercalate_cons_cons]
      rw [hjoin, splitTopLevel_append hnone (hq r List.mem_cons_self) hfree (beq_self_eq_true c),
        wholePart_of_trimmed hne htrim, splitTopLevel_blank_append hgap, ih hqs hclosed]
      rfl

theorem splitTopLevel_join {qs : List Text}
    (hqs : ∀ q ∈ qs, q ≠ [] ∧ trim q = q ∧ findTopLevel (· == ',') q = none)
    (hclosed : qs.Pairwise fun q _ => Nesting.after {} q = {}) :
    splitTopLevel (· == ',') (join ", ".toList qs) = qs := by
  have hcomma : ", ".toList = [',', ' '] := by decide
  rw [hcomma]
  exact splitTopLevel_join_of_isFree (by decide) (List.forall_mem_singleton.2 (by decide))
    hqs hclosed

theorem splitTopLevel_join_splitTopLevel (c : Char) (t : Text) :
    splitTopLevel (· == c) (join [c] (splitTopLevel (· == c) t)) = splitTopLevel (· == c) t := by
  cases hfind : findTopLevel (· == c) t with
  | none =>
    rw [splitTopLevel_of_findTopLevel hfind, wholePart]
    split
    · rfl
    · next hne =>
      rw [join, List.intercalate_singleton, splitTopLevel_of_findTopLevel (findTopLevel_trim hfind),
        wholePart_of_trimmed hne (trim_trim t)]
  | some i =>
    -- only a character that is free can have parted the text, so it is one between the parts as
    -- well
    obtain ⟨u, d, v, -, -, -, -, hfree, hd⟩ := findFrom_eq_some hfind
    obtain rfl := eq_of_beq hd
    obtain ⟨hparts, hclosed⟩ := splitTopLevel_apart (· == d) t
    exact splitTopLevel_join_of_isFree hfree (fun b hb => absurd hb List.not_mem_nil) hparts hclosed

end Split

section Default

variable {t : Text} {P : Text → Prop}

theorem splitDefault_cases (t : Text) :
    (assignmentFrom {} none t = none ∧ splitDefault t = (trim t, none)) ∨
      ∃ decl value, t = decl ++ '=' :: value ∧ assignmentFrom {} none decl = none ∧
        Nesting.after {} decl = {} ∧
        splitDefault t = (trim decl, if trim value = [] then none else some (trim value)) := by
  rw [splitDefault]
  split
  · next h => exact .inl ⟨h, rfl⟩
  · next decl value h =>
    obtain ⟨ht, hnone, hafter, -⟩ := assignmentFrom_eq_some h
    exact .inr ⟨decl, value, ht, hnone, hafter, rfl⟩

theorem trim_fst_splitDefault (t : Text) : trim (splitDefault t).1 = (splitDefault t).1 := by
  obtain ⟨-, heq⟩ | ⟨decl, value, -, -, -, heq⟩ := splitDefault_cases t
  · rw [heq, trim_trim]
  · rw [heq, trim_trim]

theorem trim_of_mem_splitDefault {v : Text} (h : v ∈ (splitDefault t).2) : v ≠ [] ∧ trim v = v := by
  obtain ⟨-, heq⟩ | ⟨decl, value, -, -, -, heq⟩ := splitDefault_cases t
  · rw [heq] at h
    cases h
  · rw [heq] at h
    obtain ⟨hne, rfl⟩ : trim value ≠ [] ∧ trim value = v := by simpa using h
    exact ⟨hne, trim_trim value⟩

theorem assignmentFrom_splitDefault (t : Text) :
    assignmentFrom {} none (splitDefault t).1 = none := by
  obtain ⟨hnone, heq⟩ | ⟨decl, value, -, hnone, -, heq⟩ := splitDefault_cases t
  · rw [heq]
    exact assignmentFrom_trim hnone
  · rw [heq]
    exact assignmentFrom_trim hnone

theorem after_splitDefault (h : (splitDefault t).2 ≠ none) :
    Nesting.after {} (splitDefault t).1 = {} := by
  obtain ⟨-, heq⟩ | ⟨decl, value, -, -, hafter, heq⟩ := splitDefault_cases t
  · rw [heq] at h
    exact absurd rfl h
  · rw [heq, Nesting.sound_start.after_trim, hafter]

theorem inherited_splitDefault (hP : Inherited '=' P) (h : P t) :
    P (splitDefault t).1 ∧ ∀ v ∈ (splitDefault t).2, P v := by
  obtain ⟨-, heq⟩ | ⟨decl, value, rfl, -, hafter, heq⟩ := splitDefault_cases t
  · rw [heq]
    exact ⟨hP.trim t h, fun v hv => by cases hv⟩
  · obtain ⟨hdecl, hvalue⟩ := hP.parts decl value hafter h
    rw [heq]
    refine ⟨hP.trim decl hdecl, ?_⟩
    intro v hv
    obtain ⟨-, rfl⟩ : trim value ≠ [] ∧ trim value = v := by simpa using hv
    exact hP.trim value hvalue

theorem splitDefault_fst_splitDefault (t : Text) :
    splitDefault (splitDefault t).1 = ((splitDefault t).1, none) := by
  rw [splitDefault, assignmentFrom_splitDefault t, trim_fst_splitDefault]

end Default

/-- The search finds the first place where `c` stands outside of brackets and quotes. Without such a
place a text is one part, and otherwise the split goes on behind it. The parts are trimmed, not
blank and not to be parted any further, and are found again when they are joined with `c`. A
declaration that was parted from its default value has none left. -/
theorem topLevel_splits_agree_and_normalize (c : Char) (t : Text) :
    (∀ i, findTopLevel (· == c) t = some i ↔ FreeAt c t i ∧ ∀ j < i, ¬FreeAt c t j) ∧
    (findTopLevel (· == c) t = none → splitTopLevel (· == c) t = wholePart t) ∧
    (∀ i, findTopLevel (· == c) t = some i →
      splitTopLevel (· == c) t = wholePart (t.take i) ++ splitTopLevel (· == c) (t.drop (i + 1))) ∧
    (∀ p ∈ splitTopLevel (· == c) t,
      p ≠ [] ∧ trim p = p ∧ findTopLevel (· == c) p = none ∧ splitTopLevel (· == c) p = [p]) ∧
    splitTopLevel (· == c) (join [c] (splitTopLevel (· == c) t)) = splitTopLevel (· == c) t ∧
    splitDefault (splitDefault t).1 = ((splitDefault t).1, none) := by
  refine ⟨fun i => findTopLevel_eq_some_iff, splitTopLevel_of_findTopLevel,
    fun i => splitTopLevel_of_findTopLevel_eq_some, ?_, splitTopLevel_join_splitTopLevel c t,
    splitDefault_fst_splitDefault t⟩
  intro p hp
  obtain ⟨hne, htrim, hnone⟩ := (splitTopLevel_apart (· == c) t).1 p hp
  exact ⟨hne, htrim, hnone, splitTopLevel_of_mem hp⟩

/-- Entries with a comma in brackets, with nothing in them, and with a quote that is not ended. -/
def unendedEntries : Text :=
  " a = f(b, c) ,, d == 'e, g".toList

theorem unendedEntries_split :
    splitTopLevel (· == ',') unendedEntries = ["a = f(b, c)".toList, "d == 'e, g".toList] ∧
      findTopLevel (· == ',') unendedEntries = some 13 ∧ FreeAt ',' unendedEntries 13 ∧
      splitTopLevel (· == ',') unendedEntries =
        wholePart (unendedEntries.take 13) ++ splitTopLevel (· == ',') (unendedEntries.drop 14) ∧
      splitTopLevel (· == ',') "d == 'e, g".toList = ["d == 'e, g".toList] ∧
      splitTopLevel (· == ',') "a = f(b, c),d == 'e, g".toList =
        ["a = f(b, c)".toList, "d == 'e, g".toList] ∧
      splitTopLevel (· == '(') unendedEntries = wholePart unendedEntries := by
  have hsplit : splitTopLevel (· == ',') unendedEntries =
      ["a = f(b, c)".toList, "d == 'e, g".toList] := by decide
  have hfind : findTopLevel (· == ',') unendedEntries = some 13 := by decide
  obtain ⟨hfirst, -, hbehind, hparts, hjoined, -⟩ :=
    topLevel_splits_agree_and_normalize ',' unendedEntries
  obtain ⟨-, hwhole, -⟩ := topLevel_splits_agree_and_normalize '(' unendedEntries
  rw [hsplit] at hparts hjoined
  refine ⟨hsplit, hfind, ((hfirst 13).1 hfind).1, hbehind 13 hfind, ?_, ?_, hwhole (by decide)⟩
  · exact (hparts _ (List.mem_cons_of_mem _ List.mem_cons_self)).2.2.2
  · exact hjoined

end DependencyAtlas.Text
