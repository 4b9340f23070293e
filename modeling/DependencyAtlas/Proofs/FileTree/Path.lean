import DependencyAtlas.Crawl.Config

namespace DependencyAtlas

namespace Text

theorem mem_of_mem_pieces {cut : Char → Bool} {t piece : Text} {c : Char} (h : piece ∈ pieces cut t)
    (hc : c ∈ piece) :
    c ∈ t := by
  induction t generalizing piece with
  | nil =>
    rw [pieces, List.mem_singleton] at h
    rw [h] at hc
    cases hc
  | cons d t ih =>
    rw [pieces] at h
    split at h
    · rcases List.mem_cons.1 h with rfl | h
      · cases hc
      · exact List.mem_cons_of_mem _ (ih h hc)
    · split at h
      · rw [List.mem_singleton] at h
        rw [h, List.mem_singleton] at hc
        rw [hc]
        exact List.mem_cons_self
      · next p ps hps =>
        rcases List.mem_cons.1 h with rfl | h
        · rcases List.mem_cons.1 hc with rfl | hc
          · exact List.mem_cons_self
          · exact List.mem_cons_of_mem _ (ih (hps ▸ List.mem_cons_self) hc)
        · exact List.mem_cons_of_mem _ (ih (hps ▸ List.mem_cons_of_mem _ h) hc)

theorem mem_join {sep : Text} {parts : List Text} {c : Char} (h : c ∈ join sep parts) :
    c ∈ sep ∨ ∃ part ∈ parts, c ∈ part := by
  induction parts with
  | nil => cases h
  | cons p ps ih =>
    cases ps with
    | nil => exact .inr ⟨p, List.mem_singleton.2 rfl, by simpa [join] using h⟩
    | cons q qs =>
      rw [join, List.intercalate_cons_cons] at h
      rcases List.mem_append.1 h with h | h
      · rcases List.mem_append.1 h with h | h
        · exact .inr ⟨p, List.mem_cons_self, h⟩
        · exact .inl h
      · rcases ih h with h | ⟨part, hpart, h⟩
        · exact .inl h
        · exact .inr ⟨part, List.mem_cons_of_mem _ hpart, h⟩

theorem mem_join_of_mem (sep : Text) {parts : List Text} {part : Text} {c : Char}
    (hpart : part ∈ parts) (hc : c ∈ part) : c ∈ join sep parts := by
  induction parts with
  | nil => cases hpart
  | cons p ps ih =>
    cases ps with
    | nil =>
      rw [List.mem_singleton.1 hpart] at hc
      rwa [join, List.intercalate_singleton]
    | cons q qs =>
      rw [join, List.intercalate_cons_cons]
      rcases List.mem_cons.1 hpart with rfl | hpart
      · exact List.mem_append_left _ (List.mem_append_left _ hc)
      · exact List.mem_append_right _ (ih hpart)

theorem join_concat (sep : Text) (parts : List Text) (n : Text) :
    join sep (parts ++ [n]) = (if parts = [] then [] else join sep parts ++ sep) ++ n := by
  induction parts with
  | nil => simp [join]
  | cons p ps ih =>
    cases ps with
    | nil => simp [join, List.intercalate_cons_cons]
    | cons q qs =>
      simp only [join, List.cons_append, List.intercalate_cons_cons] at ih ⊢
      rw [ih]
      simp

end Text

namespace Path

/-- No part of the path has a character that no name can have. -/
def NulFree (p : Path) : Prop :=
  '\x00' ∉ p.root ∧ ∀ n ∈ p.parts, '\x00' ∉ n

/-- What comes before the names is nothing or ends in a slash. -/
def Rooted (p : Path) : Prop :=
  p.root = [] ∨ p.root.getLast? = some '/'

variable {p : Path} {n t : Text}

theorem NulFree.hasNul (h : p.NulFree) : p.hasNul = false := by
  rw [Path.hasNul, List.contains_eq_mem, decide_eq_false_iff_not, render]
  intro hc
  split at hc
  · rw [List.mem_singleton] at hc
    cases hc
  · rcases List.mem_append.1 hc with hc | hc
    · exact h.1 hc
    · rcases Text.mem_join hc with hc | ⟨part, hpart, hc⟩
      · rw [List.mem_singleton] at hc
        cases hc
      · exact h.2 part hpart hc

theorem nulFree_of_hasNul (h : p.hasNul = false) : p.NulFree := by
  rw [Path.hasNul, List.contains_eq_mem, decide_eq_false_iff_not, render] at h
  split at h
  · next hempty =>
    refine ⟨by simp [hempty.1], ?_⟩
    intro n hn
    rw [hempty.2] at hn
    cases hn
  · refine ⟨fun hc => h (List.mem_append_left _ hc), ?_⟩
    intro n hn hc
    exact h (List.mem_append_right _ (Text.mem_join_of_mem _ hn hc))

theorem NulFree.child (h : p.NulFree) (hn : '\x00' ∉ n) : (p.child n).NulFree := by
  refine ⟨h.1, ?_⟩
  intro m hm
  rcases List.mem_append.1 hm with hm | hm
  · exact h.2 m hm
  · rwa [List.mem_singleton.1 hm]

theorem Rooted.child (h : p.Rooted) (n : Text) : (p.child n).Rooted :=
  h

theorem rootOf_cases (t : Text) : rootOf t = [] ∨ rootOf t = "//".toList ∨ rootOf t = ['/'] := by
  unfold rootOf
  split
  · exact .inl rfl
  · exact .inr (.inl rfl)
  · exact .inr (.inr rfl)

theorem nulFree_ofText (h : '\x00' ∉ t) : (ofText t).NulFree := by
  refine ⟨?_, ?_⟩
  · rcases rootOf_cases t with hr | hr | hr <;> simp [ofText, hr]
  · intro n hn hc
    exact h (Text.mem_of_mem_pieces (List.mem_filter.1 hn).1 hc)

theorem rooted_ofText (t : Text) : (ofText t).Rooted := by
  rcases rootOf_cases t with h | h | h
  · exact .inl h
  · exact .inr (by simp [ofText, h])
  · exact .inr (by simp [ofText, h])

theorem name_child (p : Path) (n : Text) : (p.child n).name = n := by
  simp [name, child]

theorem render_child (h : p.Rooted) (n : Text) :
    ∃ front : Text, (p.child n).render = front ++ n ∧ (front = [] ∨ front.getLast? = some '/') := by
  refine ⟨p.root ++ (if p.parts = [] then [] else Text.join ['/'] p.parts ++ ['/']), ?_, ?_⟩
  · rw [render, if_neg (by simp [child]), child, Text.join_concat, List.append_assoc]
  · split
    · rw [List.append_nil]
      exact h
    · right
      simp

end Path

theorem Language.baseName_append {front : Text} (h : front = [] ∨ front.getLast? = some '/')
    (n : Text) :
    baseName (front ++ n) = baseName n := by
  have hfront : front.reverse.takeWhile (· ≠ '/') = [] := by
    rcases h with rfl | h
    · rfl
    · obtain ⟨ys, rfl⟩ := List.getLast?_eq_some_iff.1 h
      simp
  rw [baseName, baseName, List.reverse_append, List.takeWhile_append]
  split
  · next hall => rw [hfront, List.append_nil, (List.takeWhile_prefix _).eq_of_length hall]
  · rfl

/-- The extension of an entry of a directory is that of its name. -/
theorem Language.extensionOf_child {p : Path} (hp : p.Rooted) (n : Text) :
    extensionOf (p.child n).render = extensionOf n := by
  obtain ⟨front, hrender, hfront⟩ := p.render_child hp n
  rw [extensionOf, extensionOf, hrender, baseName_append hfront]

end DependencyAtlas
