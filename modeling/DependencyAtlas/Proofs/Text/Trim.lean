import DependencyAtlas.Text.TopLevel

namespace DependencyAtlas.Text

theorem ne_of_isBlank {c d : Char} (hc : isBlank c = true) (hd : isBlank d = false) : c ≠ d := by
  intro h
  rw [h, hd] at hc
  cases hc

theorem isQuote_eq_false_of_isBlank {c : Char} (hc : isBlank c = true) : isQuote c = false := by
  have hdouble : c ≠ '"' := ne_of_isBlank hc (by decide)
  have hsingle : c ≠ '\'' := ne_of_isBlank hc (by decide)
  have hback : c ≠ '`' := ne_of_isBlank hc (by decide)
  simp [isQuote, hdouble, hsingle, hback]

theorem isOpener_eq_false_of_isBlank {c : Char} (hc : isBlank c = true) : isOpener c = false := by
  have hround : c ≠ '(' := ne_of_isBlank hc (by decide)
  have hsquare : c ≠ '[' := ne_of_isBlank hc (by decide)
  have hcurly : c ≠ '\x7b' := ne_of_isBlank hc (by decide)
  have hangle : c ≠ '<' := ne_of_isBlank hc (by decide)
  simp [isOpener, hround, hsquare, hcurly, hangle]

theorem isCloser_eq_false_of_isBlank {c : Char} (hc : isBlank c = true) : isCloser c = false := by
  have hround : c ≠ ')' := ne_of_isBlank hc (by decide)
  have hsquare : c ≠ ']' := ne_of_isBlank hc (by decide)
  have hcurly : c ≠ '\x7d' := ne_of_isBlank hc (by decide)
  have hangle : c ≠ '>' := ne_of_isBlank hc (by decide)
  simp [isCloser, hround, hsquare, hcurly, hangle]

section Trim

variable {t w : Text}

theorem trimLeft_append (hw : ∀ c ∈ w, isBlank c = true) (l : Text) :
    trimLeft (w ++ l) = trimLeft l :=
  List.dropWhile_append_of_pos hw

theorem trim_append (hw : ∀ c ∈ w, isBlank c = true) (l : Text) : trim (w ++ l) = trim l := by
  rw [trim, trim, trimLeft_append hw]

theorem trim_cons {c : Char} (hc : isBlank c = true) (t : Text) : trim (c :: t) = trim t :=
  trim_append (w := [c]) (by simpa using hc) t

theorem exists_trimLeft (t : Text) : ∃ gap, t = gap ++ trimLeft t ∧ ∀ c ∈ gap, isBlank c = true :=
  ⟨t.takeWhile isBlank, List.takeWhile_append_dropWhile.symm, List.all_eq_true.1 List.all_takeWhile⟩

/-- A text is its trimmed text with blanks around it. -/
theorem exists_trim (t : Text) : ∃ front back : Text, t = front ++ trim t ++ back ∧
    (∀ c ∈ front, isBlank c = true) ∧ ∀ c ∈ back, isBlank c = true := by
  refine ⟨t.takeWhile isBlank, ((trimLeft t).reverse.takeWhile isBlank).reverse, ?_, ?_, ?_⟩
  · rw [List.append_assoc, trim, trimRight, dropEndWhile, ← List.reverse_append,
      List.takeWhile_append_dropWhile, List.reverse_reverse, trimLeft,
      List.takeWhile_append_dropWhile]
  · exact List.all_eq_true.1 List.all_takeWhile
  · intro c hc
    exact List.all_eq_true.1 List.all_takeWhile c (List.mem_reverse.1 hc)

theorem mem_dropWhile {p : Char → Bool} {c : Char} (hc : c ∈ t) (hp : p c = false) :
    c ∈ t.dropWhile p := by
  rw [← List.takeWhile_append_dropWhile (p := p) (l := t)] at hc
  rcases List.mem_append.1 hc with hc | hc
  · rw [List.all_eq_true.1 List.all_takeWhile c hc] at hp
    cases hp
  · exact hc

theorem mem_trim {c : Char} (hc : c ∈ t) (hb : isBlank c = false) : c ∈ trim t := by
  have hleft : c ∈ (trimLeft t).reverse := List.mem_reverse.2 (mem_dropWhile hc hb)
  exact List.mem_reverse.2 (mem_dropWhile hleft hb)

theorem trim_ne_nil {c : Char} (hc : c ∈ t) (hb : isBlank c = false) : trim t ≠ [] :=
  List.ne_nil_of_mem (mem_trim hc hb)

theorem mem_of_mem_trim {c : Char} (hc : c ∈ trim t) : c ∈ t := by
  obtain ⟨front, back, ht, -, -⟩ := exists_trim t
  rw [ht]
  exact List.mem_append_left _ (List.mem_append_right _ hc)

theorem isBlank_head_dropWhile {c : Char} (h : (t.dropWhile isBlank).head? = some c) :
    isBlank c = false := by
  have hnot := List.head?_dropWhile_not isBlank t
  rw [h] at hnot
  exact hnot

theorem isBlank_getLast_trim {c : Char} (h : (trim t).getLast? = some c) : isBlank c = false := by
  rw [trim, trimRight, dropEndWhile, List.getLast?_reverse] at h
  exact isBlank_head_dropWhile h

theorem isBlank_head_trim {c : Char} (h : (trim t).head? = some c) : isBlank c = false := by
  have hpart : trim t <+: trimLeft t := by
    rw [trim, trimRight, dropEndWhile, ← List.reverse_suffix, List.reverse_reverse]
    exact List.dropWhile_suffix _
  obtain ⟨back, hback⟩ := hpart
  apply isBlank_head_dropWhile (t := t)
  rw [trimLeft] at hback
  rw [← hback, List.head?_append, h]
  rfl

/-- A text without blanks at its ends is trimmed. -/
theorem trim_eq_self (hhead : ∀ c, t.head? = some c → isBlank c = false)
    (hlast : ∀ c, t.getLast? = some c → isBlank c = false) : trim t = t := by
  have hleft : trimLeft t = t := by
    cases t with
    | nil => rfl
    | cons c t => exact List.dropWhile_cons_of_neg (by simp [hhead c rfl])
  rw [trim, hleft, trimRight, dropEndWhile]
  cases hr : t.reverse with
  | nil => rw [List.dropWhile_nil, ← hr, List.reverse_reverse]
  | cons c r =>
    have hc : isBlank c = false := hlast c (by rw [← List.head?_reverse, hr]; rfl)
    rw [List.dropWhile_cons_of_neg (by simp [hc]), ← hr, List.reverse_reverse]

theorem trim_trim (t : Text) : trim (trim t) = trim t :=
  trim_eq_self (fun _ => isBlank_head_trim) fun _ => isBlank_getLast_trim

theorem trim_around {u : Text} (middle : Text) (ht : t ≠ []) (hu : u ≠ []) (htrim : trim t = t)
    (hutrim : trim u = u) :
    trim (t ++ middle ++ u) = t ++ middle ++ u := by
  apply trim_eq_self
  · intro c hc
    rw [List.append_assoc, List.head?_append, List.head?_eq_some_head ht] at hc
    apply isBlank_head_trim (t := t)
    rw [htrim, List.head?_eq_some_head ht]
    exact hc
  · intro c hc
    rw [List.getLast?_append, List.getLast?_eq_some_getLast hu] at hc
    apply isBlank_getLast_trim (t := u)
    rw [hutrim, List.getLast?_eq_some_getLast hu]
    exact hc

theorem trim_append_right (hw : ∀ c ∈ w, isBlank c = true) (t : Text) : trim (t ++ w) = trim t := by
  have hblank : w.dropWhile isBlank = [] := by simpa [trimLeft] using trimLeft_append hw []
  rw [trim, trimLeft, List.dropWhile_append]
  split
  · next h => rw [hblank, trim, trimLeft, List.isEmpty_iff.1 h]
  · rw [trimRight, dropEndWhile, List.reverse_append, List.dropWhile_append_of_pos, trim, trimRight,
      dropEndWhile, trimLeft]
    intro c hc
    exact hw c (List.mem_reverse.1 hc)

theorem trim_concat {c : Char} (hc : isBlank c = true) (t : Text) : trim (t ++ [c]) = trim t :=
  trim_append_right (by simpa using hc) t

end Trim

end DependencyAtlas.Text
