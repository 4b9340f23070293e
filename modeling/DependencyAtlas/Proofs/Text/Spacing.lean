import DependencyAtlas.Proofs.Text.TopLevel
import DependencyAtlas.Text.Word

namespace DependencyAtlas.Text

def EndsClosing (d : Text) : Prop :=
  ∃ u c, d = u ++ [c] ∧ isCloser c = true ∧ (Nesting.after {} u).quote = none ∧
    0 < (Nesting.after {} u).depth

/-- A declaration without a default value: nothing in it is left open, and it ends in a word or a
closing bracket. -/
structure Declares (d : Text) : Prop where
  ne_nil : d ≠ []
  trimmed : trim d = d
  closed : Nesting.after {} d = {}
  unassigned : '=' ∉ d
  ending : (∃ c, d.getLast? = some c ∧ isWord c = true) ∨ EndsClosing d

section Sign

variable {s : Nesting} {before : Option Char} {d e t v : Text}

theorem assignmentFrom_of_notMem (ht : '=' ∉ t) : assignmentFrom s before t = none := by
  induction t generalizing s before with
  | nil => rfl
  | cons c t ih =>
    obtain ⟨hc, ht⟩ := not_or.1 (mt List.mem_cons.2 ht)
    rw [assignmentFrom_cons_eq_none_iff]
    exact ⟨fun _ heq => (hc heq.symm).elim, ih ht⟩

theorem assignmentFrom_of_head? (ht : t.head? ≠ some '=') :
    assignmentFrom s before t = assignmentFrom s none t := by
  cases t with
  | nil => rfl
  | cons c t =>
    have hc : (c == '=') = false := beq_eq_false_iff_ne.2 fun h => ht (congrArg some h)
    simp only [assignmentFrom, hc, Bool.and_false, Bool.false_and]

theorem splitDefault_at_sign (hd : '=' ∉ d) (hclosed : Nesting.after {} d = {})
    (hsign : inOperator d.getLast? v.head? = false) (hv : trim v = t) (hne : t ≠ []) :
    splitDefault (d ++ '=' :: v) = (trim d, some t) := by
  have hfound : assignmentFrom {} none (d ++ '=' :: v) = some (d, v) := by
    rw [assignmentFrom_append (assignmentFrom_of_notMem hd), hclosed, Option.or_none,
      assignmentFrom, hsign]
    simp [Nesting.isFree, isQuote, isOpener]
  simp only [splitDefault, hfound, hv, if_neg hne]

theorem splitDefault_spaced (hd : Declares d) (hne : v ≠ []) (hv : trim v = v) :
    splitDefault (d ++ " = ".toList ++ v) = (d, some v) := by
  have hblank : isBlank ' ' = true := by decide
  have hclosed : Nesting.after {} (d ++ [' ']) = {} := by
    rw [Nesting.after_append, hd.closed]
    rfl
  have hplain : '=' ∉ d ++ [' '] := by simpa using hd.unassigned
  have hvalue : trim (' ' :: v) = v := (trim_cons hblank v).trans hv
  have hsplit := splitDefault_at_sign hplain hclosed (by simp [inOperator]) hvalue hne
  rw [trim_concat hblank, hd.trimmed] at hsplit
  simpa using hsplit

theorem Declares.inOperator_getLast? (hd : Declares d) (hangle : d.getLast? ≠ some '>') :
    inOperator d.getLast? none = false := by
  obtain ⟨c, hc, hword⟩ | ⟨u, c, rfl, hc, -⟩ := hd.ending
  · have hsign : ∀ e, isWord e = false → c ≠ e := by
      rintro e he rfl
      exact Bool.false_ne_true (he.symm.trans hword)
    have hnot : c ≠ '!' := hsign '!' (by decide +kernel)
    have hless : c ≠ '<' := hsign '<' (by decide +kernel)
    have hgreater : c ≠ '>' := hsign '>' (by decide +kernel)
    have hequals : c ≠ '=' := hsign '=' (by decide +kernel)
    simp [inOperator, hc, hnot, hless, hgreater, hequals]
  · rw [List.getLast?_concat] at hangle ⊢
    have hgreater : c ≠ '>' := fun h => hangle (congrArg some h)
    simp only [isCloser, Bool.or_eq_true, beq_iff_eq] at hc
    -- of the four closing brackets only one is in operators too
    obtain ((rfl | rfl) | rfl) | rfl := hc
    · rfl
    · rfl
    · rfl
    · exact (hgreater rfl).elim

theorem exists_trim_of_head? {c : Char} (hhead : e.head? = some c) (hc : isBlank c = false) :
    ∃ back : Text, e = trim e ++ back ∧ ∀ b ∈ back, isBlank b = true := by
  obtain ⟨front, back, he, hfront, hback⟩ := exists_trim e
  cases front with
  | nil => exact ⟨back, he, hback⟩
  | cons b front =>
    rw [he, List.append_assoc, List.cons_append, List.head?_cons] at hhead
    rw [← Option.some.inj hhead, hfront b List.mem_cons_self] at hc
    cases hc

theorem trim_behind_sign (hd : Declares d) {c : Char} (hhead : e.head? = some c)
    (hc : isBlank c = false) :
    trim (d ++ '=' :: e) = d ++ '=' :: trim e := by
  obtain ⟨back, he, hback⟩ := exists_trim_of_head? hhead hc
  have hne : trim e ≠ [] := by
    intro hnil
    rw [he, hnil, List.nil_append] at hhead
    rw [hback c (List.mem_of_head? hhead)] at hc
    cases hc
  calc trim (d ++ '=' :: e) = trim ((d ++ ['='] ++ trim e) ++ back) := by
        rw [List.append_assoc _ (trim e), ← he]
        simp
    _ = d ++ ['='] ++ trim e := by
        rw [trim_append_right hback, trim_around _ hd.ne_nil hne hd.trimmed (trim_trim e)]
    _ = d ++ '=' :: trim e := by simp

/-- A sign right behind `>` is passed over, and what follows it is searched for another. -/
theorem splitDefault_behind_angle (hd : Declares d) (hangle : d.getLast? = some '>') (hne : v ≠ [])
    (hv : trim v = v) (hstart : v.head? ≠ some '=') :
    splitDefault (d ++ '=' :: v) = (d ++ '=' :: (splitDefault v).1, (splitDefault v).2) := by
  obtain ⟨c, w, rfl⟩ := List.exists_cons_of_ne_nil hne
  have hc : isBlank c = false := isBlank_head_trim (t := c :: w) (by rw [hv]; rfl)
  have hpassed : assignmentFrom {} none (d ++ '=' :: c :: w) =
      (assignmentFrom {} none (c :: w)).map fun r => (d ++ '=' :: r.1, r.2) := by
    rw [assignmentFrom_append (assignmentFrom_of_notMem hd.unassigned), hd.closed, hangle,
      Option.some_or, assignmentFrom, if_neg (by simp [inOperator]),
      Nesting.step_of_isFree (by decide), assignmentFrom_of_head? hstart, Option.map_map]
    rfl
  rw [splitDefault, splitDefault, hpassed]
  cases hfound : assignmentFrom {} none (c :: w) with
  | none => exact congrArg (·, none) (trim_behind_sign hd rfl hc)
  | some r =>
    obtain ⟨e, u⟩ := r
    -- the sign that is found is not the first character, so that the declaration goes on with that
    obtain ⟨heq, -⟩ := assignmentFrom_eq_some hfound
    have hhead : e.head? = some c := by
      cases e with
      | nil => exact (hstart (congrArg List.head? heq)).elim
      | cons b e =>
        rw [List.cons_append] at heq
        rw [(List.cons.inj heq).1]
        rfl
    exact congrArg (·, _) (trim_behind_sign hd hhead hc)

end Sign

/-- Blanks around the assignment sign make no difference to what is split, unless the declaration
ends in `>`. In that case the sign without blanks is left in the declaration, and the default value
is split in turn. -/
theorem spacing_matters_only_behind_angle {d v : Text} (hd : Declares d) (hne : v ≠ [])
    (hv : trim v = v) (hequals : v.head? ≠ some '=') (hgreater : v.head? ≠ some '>') :
    splitDefault (d ++ " = ".toList ++ v) = (d, some v) ∧
      splitDefault (d ++ '=' :: v) =
        if d.getLast? = some '>' then (d ++ '=' :: (splitDefault v).1, (splitDefault v).2)
        else (d, some v) := by
  refine ⟨splitDefault_spaced hd hne hv, ?_⟩
  split
  · next hangle => exact splitDefault_behind_angle hd hangle hne hv hequals
  · next hangle =>
    have hafter : inOperator none v.head? = false := by
      cases v with
      | nil => rfl
      | cons c v =>
        have hc : c ≠ '=' := fun h => hequals (congrArg some h)
        have hc' : c ≠ '>' := fun h => hgreater (congrArg some h)
        simp [inOperator, hc, hc']
    have hsign : inOperator d.getLast? v.head? = false := by
      rw [inOperator_eq, hafter, hd.inOperator_getLast? hangle]
      rfl
    rw [splitDefault_at_sign hd.unassigned hd.closed hsign hv hne, hd.trimmed]

theorem declares_array : Declares "x: Array<string>".toList where
  ne_nil := by decide
  trimmed := by decide
  closed := by decide
  unassigned := by decide
  ending := .inr ⟨"x: Array<string".toList, '>', by decide, by decide, by decide, by decide⟩

theorem unspaced_default_of_array :
    Declares "x: Array<string>".toList ∧
      splitDefault "x: Array<string> = []".toList = ("x: Array<string>".toList, some "[]".toList) ∧
      splitDefault "x: Array<string>=[]".toList = ("x: Array<string>=[]".toList, none) :=
  ⟨declares_array, by decide, by decide⟩

theorem spacing_of_array_and_list :
    Declares "x: Array<string>".toList ∧ Declares "x: int[]".toList ∧
      splitDefault "x: Array<string>=f(a == b)=y".toList =
        ("x: Array<string>=f(a == b)".toList, some "y".toList) ∧
      splitDefault "x: int[]=f(a == b)".toList = ("x: int[]".toList, some "f(a == b)".toList) ∧
      splitDefault "x: int[] = f(a == b)".toList =
        ("x: int[]".toList, some "f(a == b)".toList) := by
  have hends : EndsClosing "x: int[]".toList :=
    ⟨"x: int[".toList, ']', by decide, by decide, by decide, by decide⟩
  have hlist : Declares "x: int[]".toList :=
    ⟨by decide, by decide, by decide, by decide, .inr hends⟩
  obtain ⟨-, harray⟩ :=
    spacing_matters_only_behind_angle (v := "f(a == b)=y".toList) declares_array (by decide)
    (by decide) (by decide) (by decide)
  obtain ⟨hspaced, hunspaced⟩ :=
    spacing_matters_only_behind_angle (v := "f(a == b)".toList) hlist (by decide)
    (by decide) (by decide) (by decide)
  exact ⟨declares_array, hlist, harray, hunspaced, hspaced⟩

end DependencyAtlas.Text
