import DependencyAtlas.Parameter
import DependencyAtlas.Proofs.Text.Trim
import DependencyAtlas.Proofs.Text.Word

namespace DependencyAtlas

namespace Text

/-- A text with all its blanks deleted. -/
def withoutBlanks (t : Text) : Text :=
  t.filter fun c => !isBlank c

theorem withoutBlanks_append (t u : Text) :
    withoutBlanks (t ++ u) = withoutBlanks t ++ withoutBlanks u :=
  List.filter_append t u

theorem withoutBlanks_of_blank {t : Text} (ht : ∀ c ∈ t, isBlank c = true) : withoutBlanks t = [] :=
  List.filter_eq_nil_iff.2 fun c hc => by simp [ht c hc]

theorem withoutBlanks_trim (t : Text) : withoutBlanks (trim t) = withoutBlanks t := by
  obtain ⟨front, back, ht, hfront, hback⟩ := exists_trim t
  have hsame := congrArg withoutBlanks ht
  rw [withoutBlanks_append, withoutBlanks_append, withoutBlanks_of_blank hfront,
    withoutBlanks_of_blank hback, List.nil_append, List.append_nil] at hsame
  exact hsame.symm

theorem withoutBlanks_filter_space (t : Text) :
    withoutBlanks (t.filter (· ≠ ' ')) = withoutBlanks t := by
  rw [withoutBlanks, List.filter_filter, withoutBlanks]
  apply List.filter_congr
  intro c _
  by_cases hc : c = ' '
  · subst hc
    decide
  · simp [hc]

end Text

namespace Parameter

open Text

/-- A run of bracketed dimensions such as `[3] []`, each with the blanks behind it. -/
inductive DimensionRun : Text → Prop where
  | nil : DimensionRun []
  | cons {size gap rest : Text} (hsize : ']' ∉ size) (hgap : ∀ c ∈ gap, isBlank c = true)
    (hrest : DimensionRun rest) : DimensionRun ('[' :: (size ++ ']' :: (gap ++ rest)))

/-- An ASCII letter, an underscore or a dollar sign, with word characters behind it. -/
inductive Identifier : Text → Prop where
  | intro {first : Char} {run : Text} (hfirst : isNameStart first = true ∨ first = '$')
    (hrun : ∀ c ∈ run, isWord c = true) : Identifier (first :: run)

/-- A text cut up into a type on one line, a name, blanks and dimensions. -/
structure CutUp (t type name dims : Text) : Prop where
  line : '\n' ∉ type
  named : Identifier name
  sized : DimensionRun dims
  whole : ∃ gap, t = type ++ (name ++ (gap ++ dims)) ∧ ∀ c ∈ gap, isBlank c = true

section Dimensions

variable {c : Char} {t w : Text}

theorem isDimensions_true_iff : isDimensions true t = true ↔
    ∃ size rest, t = size ++ ']' :: rest ∧ ']' ∉ size ∧ isDimensions false rest = true := by
  induction t with
  | nil => simp [isDimensions]
  | cons c t ih =>
    rw [isDimensions]
    constructor
    · intro h
      by_cases hc : c = ']'
      · subst hc
        exact ⟨[], t, rfl, List.not_mem_nil, h⟩
      · rw [bne_iff_ne.2 hc] at h
        obtain ⟨size, rest, rfl, hsize, hrest⟩ := ih.1 h
        exact ⟨c :: size, rest, rfl, by simp [hsize, Ne.symm hc], hrest⟩
    · rintro ⟨size, rest, heq, hsize, hrest⟩
      cases size with
      | nil =>
        obtain ⟨rfl, rfl⟩ := List.cons.inj heq
        exact hrest
      | cons d size =>
        obtain ⟨rfl, rfl⟩ := List.cons.inj heq
        obtain ⟨hc, hsize⟩ := not_or.1 (mt List.mem_cons.2 hsize)
        rw [bne_iff_ne.2 (Ne.symm hc)]
        exact ih.2 ⟨size, rest, rfl, hsize, hrest⟩

theorem isDimensions_blank_append (hw : ∀ c ∈ w, isBlank c = true) (t : Text) :
    isDimensions false (w ++ t) = isDimensions false t := by
  induction w with
  | nil => rfl
  | cons c w ih =>
    obtain ⟨hc, hw⟩ := List.forall_mem_cons.1 hw
    rw [List.cons_append, isDimensions, if_pos hc, ih hw]

theorem isDimensions_trimLeft (t : Text) :
    isDimensions false (trimLeft t) = isDimensions false t := by
  obtain ⟨gap, ht, hgap⟩ := exists_trimLeft t
  have hsame := congrArg (isDimensions false) ht
  rw [isDimensions_blank_append hgap] at hsame
  exact hsame.symm

theorem DimensionRun.isDimensions (h : DimensionRun t) : isDimensions false t = true := by
  induction h with
  | nil => rfl
  | @cons size gap rest hsize hgap hrest ih =>
    rw [Parameter.isDimensions, if_neg (by decide), beq_self_eq_true, Bool.true_and,
      isDimensions_true_iff]
    exact ⟨size, gap ++ rest, rfl, hsize, by rw [isDimensions_blank_append hgap, ih]⟩

theorem dimensionRun_trimLeft (h : isDimensions false t = true) : DimensionRun (trimLeft t) := by
  -- on the length, as one dimension takes up many characters
  induction hn : t.length using Nat.strongRecOn generalizing t with
  | ind n ih =>
    subst hn
    cases t with
    | nil => exact .nil
    | cons c t =>
      rw [isDimensions] at h
      by_cases hc : isBlank c = true
      · rw [if_pos hc] at h
        rw [trimLeft, List.dropWhile_cons_of_pos hc]
        exact ih t.length (by simp) h rfl
      · rw [if_neg hc, Bool.and_eq_true, beq_iff_eq] at h
        obtain ⟨rfl, hinside⟩ := h
        obtain ⟨size, rest, rfl, hsize, hrest⟩ := isDimensions_true_iff.1 hinside
        obtain ⟨gap, hgap, hblank⟩ := exists_trimLeft rest
        have hshorter : rest.length < ('[' :: (size ++ ']' :: rest)).length := by
          rw [List.length_cons, List.length_append, List.length_cons]
          omega
        have hrun := ih rest.length hshorter hrest rfl
        rw [trimLeft, List.dropWhile_cons_of_neg hc, hgap]
        exact .cons hsize hblank hrun

theorem DimensionRun.trimLeft (h : DimensionRun t) : trimLeft t = t := by
  cases h with
  | nil => rfl
  | cons => exact List.dropWhile_cons_of_neg (by decide)

theorem getLast?_gap_append {rest : Text} (hw : ∀ c ∈ w, isBlank c = true)
    (hrest : rest.getLast? = some c → isBlank c = true ∨ c = ']')
    (hc : (w ++ rest).getLast? = some c) :
    isBlank c = true ∨ c = ']' := by
  rw [List.getLast?_append] at hc
  cases hlast : rest.getLast? with
  | some d =>
    rw [hlast] at hc
    exact hrest (hlast.trans hc)
  | none =>
    rw [hlast] at hc
    exact .inl (hw c (List.mem_of_getLast? hc))

theorem DimensionRun.getLast? (h : DimensionRun t) (hc : t.getLast? = some c) :
    isBlank c = true ∨ c = ']' := by
  induction h with
  | nil => cases hc
  | @cons size gap rest hsize hgap hrest ih =>
    have hsplit :
        '[' :: (size ++ ']' :: (gap ++ rest)) = '[' :: size ++ [']'] ++ (gap ++ rest) := by simp
    rw [hsplit, List.getLast?_append, List.getLast?_concat] at hc
    cases hlast : (gap ++ rest).getLast? with
    | some d =>
      rw [hlast] at hc
      exact getLast?_gap_append hgap ih (hlast.trans hc)
    | none =>
      rw [hlast] at hc
      exact .inr (Option.some.inj hc).symm

theorem DimensionRun.filter_space (h : DimensionRun t) : DimensionRun (t.filter (· ≠ ' ')) := by
  induction h with
  | nil => exact .nil
  | @cons size gap rest hsize hgap hrest ih =>
    have hsize' : ']' ∉ size.filter (· ≠ ' ') := fun h => hsize (List.mem_filter.1 h).1
    have hgap' : ∀ c ∈ gap.filter (· ≠ ' '), isBlank c = true :=
      fun c hc => hgap c (List.mem_filter.1 hc).1
    simpa using DimensionRun.cons hsize' hgap' ih

end Dimensions

section Identifier

variable {c : Char} {name : Text}

theorem Identifier.visible (h : Identifier name) (hc : c ∈ name) : isBlank c = false ∧ c ≠ ']' := by
  have hword : ∀ d, isWord d = true → isBlank d = false ∧ d ≠ ']' := by
    intro d hd
    refine ⟨isBlank_eq_false_of_isWord hd, ?_⟩
    rintro rfl
    exact absurd hd (by decide +kernel)
  obtain ⟨hfirst, hrun⟩ := h
  rcases List.mem_cons.1 hc with rfl | hc
  · rcases hfirst with hfirst | rfl
    · exact hword c (isWord_of_isNameStart hfirst)
    · decide
  · exact hword c (hrun c hc)

theorem Identifier.ne_nil (h : Identifier name) : name ≠ [] := by
  cases h
  exact List.cons_ne_nil _ _

end Identifier

section CutUp

variable {c d : Char} {t type name run gap dims : Text}

theorem head?_behind_name (hgap : ∀ c ∈ gap, isBlank c = true) (hdims : DimensionRun dims)
    (hc : (gap ++ dims).head? = some c) : isWord c = false := by
  cases gap with
  | nil =>
    cases hdims with
    | nil => cases hc
    | cons =>
      cases hc
      decide +kernel
  | cons d gap =>
    cases hc
    exact isWord_eq_false_of_isBlank (hgap c List.mem_cons_self)

theorem span_name (hrun : ∀ c ∈ run, isWord c = true) (hgap : ∀ c ∈ gap, isBlank c = true)
    (hdims : DimensionRun dims) :
    (run ++ (gap ++ dims)).takeWhile isWord = run ∧
    (run ++ (gap ++ dims)).dropWhile isWord = gap ++ dims := by
  rw [List.takeWhile_append_of_pos hrun, List.dropWhile_append_of_pos hrun]
  cases hbehind : gap ++ dims with
  | nil => simp
  | cons c rest =>
    have hc : isWord c = false := head?_behind_name hgap hdims (by rw [hbehind, List.head?_cons])
    simp [hc]

theorem cutUp_nil_iff : CutUp (c :: t) [] name dims ↔
    ((isNameStart c || c == '$') && isDimensions false (trimLeft (t.dropWhile isWord))) = true ∧
      name = c :: t.takeWhile isWord ∧ dims = trimLeft (t.dropWhile isWord) := by
  constructor
  · rintro ⟨-, hname, hdims, gap, heq, hgap⟩
    obtain ⟨hfirst, hrun⟩ := hname
    rw [List.nil_append, List.cons_append] at heq
    obtain ⟨rfl, rfl⟩ := List.cons.inj heq
    obtain ⟨htake, hdrop⟩ := span_name hrun hgap hdims
    rw [hdrop, htake, trimLeft_append hgap, hdims.trimLeft, hdims.isDimensions, Bool.and_true,
      Bool.or_eq_true, beq_iff_eq]
    exact ⟨hfirst, rfl, rfl⟩
  · rintro ⟨hcond, rfl, rfl⟩
    rw [Bool.and_eq_true, Bool.or_eq_true, beq_iff_eq, isDimensions_trimLeft] at hcond
    obtain ⟨hfirst, hdims⟩ := hcond
    obtain ⟨gap, hgap, hblank⟩ := exists_trimLeft (t.dropWhile isWord)
    refine ⟨List.not_mem_nil, ⟨hfirst, List.all_eq_true.1 List.all_takeWhile⟩,
      dimensionRun_trimLeft hdims, gap, ?_, hblank⟩
    rw [← hgap, List.nil_append, List.cons_append, List.takeWhile_append_dropWhile]

theorem cutUp_cons_iff :
    CutUp (c :: t) (d :: type) name dims ↔ d = c ∧ c ≠ '\n' ∧ CutUp t type name dims := by
  constructor
  · rintro ⟨hline, hname, hdims, gap, heq, hgap⟩
    obtain ⟨rfl, rfl⟩ := List.cons.inj heq
    obtain ⟨hc, hline⟩ := not_or.1 (mt List.mem_cons.2 hline)
    exact ⟨rfl, Ne.symm hc, hline, hname, hdims, gap, rfl, hgap⟩
  · rintro ⟨rfl, hc, hline, hname, hdims, gap, rfl, hgap⟩
    exact ⟨by simp [hline, Ne.symm hc], hname, hdims, gap, rfl, hgap⟩

theorem CutUp.ne_nil (h : CutUp t type name dims) : t ≠ [] := by
  obtain ⟨-, hname, -, gap, rfl, -⟩ := h
  simp [hname.ne_nil]

/-- The scan takes the shortest type with which a text can be cut up, and fails only on a text that
cannot be cut up. -/
theorem declarator_cases (t : Text) :
    (declarator t = none ∧ ∀ type name dims, ¬CutUp t type name dims) ∨
      ∃ type name dims, declarator t = some (type, name, dims) ∧ CutUp t type name dims ∧
        ∀ type' name' dims', CutUp t type' name' dims' → type.length ≤ type'.length := by
  induction t with
  | nil => exact .inl ⟨rfl, fun _ _ _ h => h.ne_nil rfl⟩
  | cons c t ih =>
    simp only [declarator]
    split
    · next hcond =>
      refine .inr ⟨[], _, _, rfl, cutUp_nil_iff.2 ⟨hcond, rfl, rfl⟩, ?_⟩
      intro type' name' dims' _
      exact Nat.zero_le _
    · next hcond =>
      -- no name that fits starts here, so that the character is one of the type
      have hlonger : ∀ type name dims, CutUp (c :: t) type name dims →
          ∃ rest, type = c :: rest ∧ c ≠ '\n' ∧ CutUp t rest name dims := by
        intro type name dims h
        cases type with
        | nil => exact absurd (cutUp_nil_iff.1 h).1 hcond
        | cons d type =>
          obtain ⟨rfl, hc, h⟩ := cutUp_cons_iff.1 h
          exact ⟨type, rfl, hc, h⟩
      split
      · next hc =>
        refine .inl ⟨rfl, ?_⟩
        intro type name dims h
        obtain ⟨-, -, hnot, -⟩ := hlonger type name dims h
        exact hnot hc
      · next hc =>
        rcases ih with ⟨hnone, hno⟩ | ⟨type, name, dims, hsome, hcut, hshort⟩
        · refine .inl ⟨by rw [hnone]; rfl, ?_⟩
          intro type name dims h
          obtain ⟨rest, -, -, h⟩ := hlonger type name dims h
          exact hno rest name dims h
        · refine .inr ⟨c :: type, name, dims,
            by rw [hsome]; rfl, cutUp_cons_iff.2 ⟨rfl, hc, hcut⟩, ?_⟩
          intro type' name' dims' h
          obtain ⟨rest, rfl, -, h⟩ := hlonger type' name' dims' h
          exact Nat.succ_le_succ (hshort rest name' dims' h)

theorem CutUp.ending (h : CutUp t type name dims) (hc : t.getLast? = some c)
    (hblank : isBlank c = false) (hbracket : c ≠ ']') : t = type ++ name ∧ dims = [] := by
  obtain ⟨-, -, hdims, gap, rfl, hgap⟩ := h
  have hnone : gap ++ dims = [] := by
    cases hlast : (gap ++ dims).getLast? with
    | none => exact List.getLast?_eq_none_iff.1 hlast
    | some d =>
      rw [← List.append_assoc, List.getLast?_append, hlast] at hc
      obtain rfl : d = c := Option.some.inj hc
      rcases getLast?_gap_append hgap hdims.getLast? hlast with h | h
      · rw [hblank] at h
        cases h
      · exact absurd h hbracket
  exact ⟨by rw [hnone, List.append_nil], (List.append_eq_nil_iff.1 hnone).2⟩

theorem CutUp.behind_space {type' name' : Text} (h : CutUp (type ++ ' ' :: name) type' name' dims)
    (hname : Identifier name) (hlength : type'.length ≤ (type ++ [' ']).length) :
    type' = type ++ [' '] ∧ name' = name ∧ dims = [] := by
  have hlast : (type ++ ' ' :: name).getLast? = some (name.getLast hname.ne_nil) := by
    rw [List.getLast?_append, List.getLast?_cons, List.getLast?_eq_some_getLast hname.ne_nil]
    rfl
  obtain ⟨hblank, hbracket⟩ := hname.visible (List.getLast_mem hname.ne_nil)
  obtain ⟨heq, rfl⟩ := h.ending hlast hblank hbracket
  have hspace : ' ' ∉ name' := fun hmem => absurd (h.named.visible hmem).1 (by decide)
  obtain ⟨rest, rfl, hrest⟩ | ⟨rest, -, rfl⟩ := List.append_eq_append_iff.1 heq
  · cases rest with
    | nil =>
      rw [List.nil_append] at hrest
      exact absurd (hrest ▸ List.mem_cons_self) hspace
    | cons d rest =>
      obtain ⟨rfl, rfl⟩ := List.cons.inj hrest
      obtain rfl : rest = [] := by
        apply List.eq_nil_of_length_eq_zero
        simpa using hlength
      exact ⟨rfl, rfl, rfl⟩
  · exact absurd (List.mem_append_right _ List.mem_cons_self) hspace

theorem declarator_spaced (hline : '\n' ∉ type) (hname : Identifier name) :
    declarator (type ++ ' ' :: name) = some (type ++ [' '], name, []) := by
  have hcut : CutUp (type ++ ' ' :: name) (type ++ [' ']) name [] :=
    ⟨by simpa using hline, hname, .nil, [], by simp, by simp⟩
  obtain ⟨-, hno⟩ | ⟨type', name', dims', hsome, hcut', hshort⟩ :=
    declarator_cases (type ++ ' ' :: name)
  · exact absurd hcut (hno _ _ _)
  · obtain ⟨rfl, rfl, rfl⟩ := hcut'.behind_space hname (hshort _ _ _ hcut)
    exact hsome

end CutUp

section Split

variable {decl type name dims : Text}

theorem splitTypeAndName_cases (decl : Text) :
    (splitTypeAndName decl = ([], trim decl) ∧
        ((∃ type name dims, CutUp (trim decl) type name dims) →
          ∃ name dims, CutUp (trim decl) [] name dims)) ∨
      ∃ type name dims, CutUp (trim decl) type name dims ∧ trim type ≠ [] ∧
        splitTypeAndName decl = (trim type ++ dims.filter (· ≠ ' '), name) := by
  obtain ⟨hnone, hno⟩ | ⟨type, name, dims, hsome, hcut, -⟩ := declarator_cases (trim decl)
  · refine .inl ⟨by rw [splitTypeAndName, hnone], ?_⟩
    rintro ⟨type, name, dims, hcut⟩
    exact absurd hcut (hno type name dims)
  · by_cases hblank : trim type = []
    · refine .inl ⟨by simp only [splitTypeAndName, hsome, if_pos hblank], fun _ => ?_⟩
      cases type with
      | nil => exact ⟨name, dims, hcut⟩
      | cons c type =>
        -- the declaration is trimmed, so that a type that is there does not start with a blank
        obtain ⟨-, -, -, gap, heq, -⟩ := hcut
        have hc : isBlank c = false := isBlank_head_trim (t := decl) (by rw [heq]; rfl)
        exact absurd hblank (trim_ne_nil List.mem_cons_self hc)
    · exact .inr ⟨type, name, dims, hcut, hblank,
        by simp only [splitTypeAndName, hsome, if_neg hblank]⟩

theorem withoutBlanks_cutUp (h : CutUp (trim decl) type name dims) :
    withoutBlanks (trim type ++ name ++ dims.filter (· ≠ ' ')) = withoutBlanks decl := by
  obtain ⟨-, -, -, gap, heq, hgap⟩ := h
  rw [← withoutBlanks_trim decl, heq]
  simp only [withoutBlanks_append, withoutBlanks_trim, withoutBlanks_filter_space,
    withoutBlanks_of_blank hgap, List.nil_append, List.append_assoc]

theorem getLast?_filter_dims (h : CutUp (trim decl) type name dims) {c : Char}
    (hc : (dims.filter (· ≠ ' ')).getLast? = some c) : isBlank c = false := by
  obtain rfl | ⟨front, last, rfl⟩ := List.eq_nil_or_concat dims
  · cases hc
  · obtain ⟨-, -, -, gap, heq, -⟩ := h
    have hlast : isBlank last = false := by
      apply isBlank_getLast_trim (t := decl)
      rw [heq]
      simp only [List.concat_eq_append, ← List.append_assoc, List.getLast?_concat]
    have hspace : last ≠ ' ' := by
      rintro rfl
      cases hlast
    obtain rfl : last = c := by simpa [hspace] using hc
    exact hlast

theorem trim_type_append_dims (h : CutUp (trim decl) type name dims) (hne : trim type ≠ []) :
    trim (trim type ++ dims.filter (· ≠ ' ')) = trim type ++ dims.filter (· ≠ ' ') := by
  apply trim_eq_self
  · intro c hc
    rw [List.head?_append, List.head?_eq_some_head hne] at hc
    apply isBlank_head_trim (t := type)
    rw [List.head?_eq_some_head hne]
    exact hc
  · intro c hc
    rw [List.getLast?_append] at hc
    cases hlast : (dims.filter (· ≠ ' ')).getLast? with
    | none =>
      rw [hlast] at hc
      exact isBlank_getLast_trim hc
    | some d =>
      rw [hlast] at hc
      exact getLast?_filter_dims h (hlast.trans hc)

theorem notMem_type_append_dims (h : CutUp (trim decl) type name dims) (hline : '\n' ∉ decl) :
    '\n' ∉ trim type ++ dims.filter (· ≠ ' ') := by
  obtain ⟨-, -, -, gap, heq, -⟩ := h
  intro hmem
  apply hline
  apply mem_of_mem_trim
  rw [heq]
  simp only [List.mem_append, List.mem_filter] at hmem ⊢
  rcases hmem with htype | ⟨hdims, -⟩
  · exact .inl (mem_of_mem_trim htype)
  · exact .inr (.inr (.inr hdims))

theorem splitTypeAndName_spaced (hline : '\n' ∉ type) (hne : type ≠ []) (htrim : trim type = type)
    (hname : Identifier name) : splitTypeAndName (type ++ ' ' :: name) = (type, name) := by
  have hname' : trim name = name :=
    trim_eq_self (fun _ hc => (hname.visible (List.mem_of_head? hc)).1)
      fun _ hc => (hname.visible (List.mem_of_getLast? hc)).1
  have hdecl : trim (type ++ ' ' :: name) = type ++ ' ' :: name := by
    simpa using trim_around [' '] hne hname.ne_nil htrim hname'
  have htype : trim (type ++ [' ']) = type := (trim_concat (by decide) type).trans htrim
  simp only [splitTypeAndName, hdecl, declarator_spaced hline hname, htype, if_neg hne,
    List.filter_nil, List.append_nil]

end Split

/-- A declaration on one line is split in one of two ways. Either its type is empty and all of it is
the name, because it cannot be cut up or can be cut up without a type. Or the type is a base with
dimensions and the name an identifier, which together are the declaration up to blanks, and the type
and the name with a space between are split in the same way. -/
theorem splitTypeAndName_keeps_text {decl type name : Text} (hline : '\n' ∉ decl)
    (h : splitTypeAndName decl = (type, name)) :
    (type = [] ∧ name = trim decl ∧
        ((∃ base name dims, CutUp (trim decl) base name dims) →
          ∃ name dims, CutUp (trim decl) [] name dims)) ∨
      ((∃ base dims, type = base ++ dims ∧ base ≠ [] ∧ DimensionRun dims ∧ ' ' ∉ dims ∧
        Identifier name ∧
          withoutBlanks (base ++ name ++ dims) = withoutBlanks decl) ∧
        splitTypeAndName (type ++ ' ' :: name) = (type, name)) := by
  obtain ⟨heq, huntyped⟩ | ⟨base, name', dims, hcut, hne, heq⟩ := splitTypeAndName_cases decl
  · cases heq.symm.trans h
    exact .inl ⟨rfl, rfl, huntyped⟩
  · cases heq.symm.trans h
    refine .inr ⟨⟨trim base, dims.filter (· ≠ ' '), rfl, hne, hcut.sized.filter_space,
      by simp, hcut.named, withoutBlanks_cutUp hcut⟩, ?_⟩
    exact splitTypeAndName_spaced (notMem_type_append_dims hcut hline) (by simp [hne])
      (trim_type_append_dims hcut hne) hcut.named

/-- Pointers, a name with a dollar sign, and two dimensions with spaces between and inside of
them. -/
def namesDeclaration : Text :=
  " const char **$names [2] [n + 1]".toList

theorem splitTypeAndName_namesDeclaration :
    '\n' ∉ namesDeclaration ∧
      splitTypeAndName namesDeclaration = ("const char **[2][n+1]".toList, "$names".toList) ∧
      splitTypeAndName "const char **[2][n+1] $names".toList =
        ("const char **[2][n+1]".toList, "$names".toList) := by
  have hline : '\n' ∉ namesDeclaration := by decide
  have hsplit :
      splitTypeAndName namesDeclaration = ("const char **[2][n+1]".toList, "$names".toList) := by
    decide +kernel
  obtain ⟨hnil, -⟩ | ⟨-, hagain⟩ := splitTypeAndName_keeps_text hline hsplit
  · cases hnil
  · exact ⟨hline, hsplit, hagain⟩

end Parameter

end DependencyAtlas
