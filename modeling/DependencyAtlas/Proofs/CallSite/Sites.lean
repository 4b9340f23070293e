import DependencyAtlas.CallSite
import DependencyAtlas.Proofs.Text.TopLevel

namespace DependencyAtlas.CallSite

open Text

/-- A text starts with a call of `name`: a run of word characters, of which the first is an ASCII
letter or an underscore and behind which no further word character stands, possibly a mark, blanks
and an opening parenthesis. -/
inductive StartsCall : Text → Text → Prop where
  | intro {first : Char} {run mark gap after : Text} (hfirst : isNameStart first = true)
    (hrun : ∀ c ∈ run, isWord c = true)
    (hend : ∀ c ∈ (mark ++ gap ++ ['(']).head?, isWord c = false)
    (hmark : mark = [] ∨ mark = ['?'] ∨ mark = ['!']) (hgap : ∀ c ∈ gap, isBlank c = true) :
    StartsCall (first :: run ++ (mark ++ gap ++ '(' :: after)) (first :: run ++ mark)

/-- A call of `name` starts at a position of a text, and the character before is neither a word
character nor a dollar sign. -/
def SiteAt (t : Text) (i : Nat) (name : Text) : Prop :=
  ∃ before rest, t = before ++ rest ∧ before.length = i ∧ StartsCall rest name ∧
    ∀ c ∈ before.getLast?, isWord c = false ∧ c ≠ '$'

section Characters

variable {c : Char}

theorem separates_iff : separates c = true ↔ isWord c = false ∧ c ≠ '$' := by
  rw [separates, Bool.and_eq_true, Bool.not_eq_true', bne_iff_ne]

theorem all_separates_iff {previous : Option Char} :
    previous.all separates = true ↔ ∀ c ∈ previous, isWord c = false ∧ c ≠ '$' := by
  rw [Option.all_eq_true]
  exact forall₂_congr fun _ _ => separates_iff

theorem mark_eq (t : Text) : mark t = [] ∨ mark t = ['?'] ∨ mark t = ['!'] := by
  unfold mark
  split
  · exact .inr (.inl rfl)
  · exact .inr (.inr rfl)
  · exact .inl rfl

theorem mark_append_drop (t : Text) : mark t ++ t.drop (mark t).length = t := by
  unfold mark
  split <;> rfl

theorem mark_eq_nil (h : isBlank c = true ∨ c = '(') (t : Text) : mark (c :: t) = [] := by
  unfold mark
  split
  · next he =>
    cases he
    rcases h with h | h
    · cases h
    · cases h
  · next he =>
    cases he
    rcases h with h | h
    · cases h
    · cases h
  · rfl

end Characters

section Start

variable {t rest name gap mark' after : Text} {previous : Option Char} {first : Char}

theorem mark_append (hmark : mark' = [] ∨ mark' = ['?'] ∨ mark' = ['!'])
    (hgap : ∀ c ∈ gap, isBlank c = true) (after : Text) :
    mark (mark' ++ gap ++ '(' :: after) = mark' := by
  rcases hmark with rfl | rfl | rfl
  · cases gap with
    | nil => rfl
    | cons c gap => exact mark_eq_nil (.inl (hgap c List.mem_cons_self)) _
  · rfl
  · rfl

theorem head?_append_paren (gap after : Text) :
    (gap ++ '(' :: after).head? = (gap ++ ['(']).head? := by
  cases gap with
  | nil => rfl
  | cons c gap => rfl

theorem head?_trimLeft_iff : (trimLeft (rest.drop (mark rest).length)).head? = some '(' ↔
    ∃ gap after, (∀ c ∈ gap, isBlank c = true) ∧ rest = mark rest ++ gap ++ '(' :: after := by
  constructor
  · intro h
    obtain ⟨after, hafter⟩ := List.head?_eq_some_iff.1 h
    refine ⟨(rest.drop (mark rest).length).takeWhile isBlank, after, ?_, ?_⟩
    · intro c hc
      exact List.all_eq_true.1 List.all_takeWhile c hc
    · rw [List.append_assoc, ← hafter, trimLeft, List.takeWhile_append_dropWhile, mark_append_drop]
  · rintro ⟨gap, after, hgap, hrest⟩
    have hdrop : rest.drop (mark rest).length = gap ++ '(' :: after := by
      rw [List.append_assoc] at hrest
      exact List.append_cancel_left ((mark_append_drop rest).trans hrest)
    rw [hdrop, trimLeft, List.dropWhile_append_of_pos hgap]
    rfl

theorem takeWhile_isWord_append {run : Text} (hrun : ∀ c ∈ run, isWord c = true)
    (hend : ∀ c ∈ rest.head?, isWord c = false) :
    (run ++ rest).takeWhile isWord = run ∧ (run ++ rest).dropWhile isWord = rest := by
  rw [List.takeWhile_append_of_pos hrun, List.dropWhile_append_of_pos hrun]
  cases rest with
  | nil => exact ⟨List.append_nil run, rfl⟩
  | cons c rest =>
    have hc : ¬isWord c = true := by
      rw [hend c rfl]
      exact Bool.false_ne_true
    rw [List.takeWhile_cons_of_neg hc, List.dropWhile_cons_of_neg hc, List.append_nil]
    exact ⟨rfl, rfl⟩

theorem startsCall_cons_iff : StartsCall (first :: t) name ↔ isNameStart first = true ∧
    (trimLeft ((t.dropWhile isWord).drop (mark (t.dropWhile isWord)).length)).head? = some '(' ∧
    name = first :: t.takeWhile isWord ++ mark (t.dropWhile isWord) := by
  rw [head?_trimLeft_iff]
  constructor
  · intro h
    generalize hwhole : first :: t = whole at h
    cases h with
    | @intro _ run mark' gap after hfirst hrun hend hmark hgap =>
      rw [List.cons_append] at hwhole
      obtain ⟨rfl, rfl⟩ := List.cons.inj hwhole
      rw [← head?_append_paren _ after] at hend
      obtain ⟨hword, hrest⟩ := takeWhile_isWord_append hrun hend
      rw [hword, hrest, mark_append hmark hgap]
      exact ⟨hfirst, ⟨gap, after, hgap, rfl⟩, rfl⟩
  · rintro ⟨hfirst, ⟨gap, after, hgap, hrest⟩, rfl⟩
    have hcall :
        StartsCall (first :: t.takeWhile isWord ++
          (mark (t.dropWhile isWord) ++ gap ++ '(' :: after))
        (first :: t.takeWhile isWord ++ mark (t.dropWhile isWord)) := by
      refine .intro hfirst (fun c hc => List.all_eq_true.1 List.all_takeWhile c hc) ?_
        (mark_eq _) hgap
      rw [← head?_append_paren _ after, ← hrest]
      intro c hc
      have hnot := List.head?_dropWhile_not isWord t
      rwa [Option.mem_def.1 hc] at hnot
    rwa [← hrest, List.cons_append, List.takeWhile_append_dropWhile] at hcall

/-- What a scan finds at the start of a text is the call that the text starts with. -/
theorem nameAt_eq_some_iff :
    nameAt previous t = some name ↔ StartsCall t name ∧ ∀ c ∈ previous, isWord c = false ∧
      c ≠ '$' := by
  rw [← all_separates_iff]
  cases t with
  | nil =>
    constructor
    · intro h
      cases h
    · rintro ⟨h, -⟩
      cases h
  | cons first t =>
    rw [startsCall_cons_iff, nameAt]
    constructor
    · intro h
      split at h
      · next hstart =>
        obtain ⟨hfirst, hprevious⟩ := Bool.and_eq_true_iff.1 hstart
        dsimp only at h
        split at h
        · next hopens => exact ⟨⟨hfirst, hopens, (Option.some.inj h).symm⟩, hprevious⟩
        · cases h
      · cases h
    · rintro ⟨⟨hfirst, hopens, rfl⟩, hprevious⟩
      rw [if_pos (Bool.and_eq_true_iff.2 ⟨hfirst, hprevious⟩)]
      exact if_pos hopens

end Start

section Cut

variable {u y p name : Text} {previous : Option Char}

theorem isWord_quote : isWord '"' = false := by
  decide +kernel

theorem exists_of_append_quote {after : Text} (hp : '"' ∉ p) (h : p ++ after = u ++ '"' :: y) :
    ∃ z, u = p ++ z := by
  rcases List.append_eq_append_iff.1 h with ⟨z, hz, -⟩ | ⟨z, rfl, hz⟩
  · exact ⟨z, hz⟩
  · cases z with
    | nil => exact ⟨[], by rw [List.append_nil, List.append_nil]⟩
    | cons c z =>
      cases hz
      exact (hp (List.mem_append_right _ List.mem_cons_self)).elim

/-- No double quote is part of a call, so one behind a text does not change with which call the text
starts. -/
theorem startsCall_append_quote : StartsCall (u ++ '"' :: y) name ↔ StartsCall u name := by
  constructor
  · intro h
    generalize hwhole : u ++ '"' :: y = whole at h
    cases h with
    | @intro first run mark' gap after hfirst hrun hend hmark hgap =>
      have hquote : '"' ∉ first :: run ++ (mark' ++ gap ++ ['(']) := by
        simp only [List.mem_append, List.mem_cons, not_or]
        refine ⟨⟨?_, ?_⟩, ⟨?_, ?_⟩, by decide, List.not_mem_nil⟩
        · rintro rfl
          cases hfirst
        · intro hin
          exact absurd (hrun _ hin) (by rw [isWord_quote]; exact Bool.false_ne_true)
        · rcases hmark with rfl | rfl | rfl <;> decide
        · intro hin
          exact absurd (hgap _ hin) (by decide)
      have hparts : first :: run ++ (mark' ++ gap ++ ['(']) ++ after = u ++ '"' :: y := by
        rw [hwhole]
        simp only [List.append_assoc, List.cons_append, List.nil_append]
      obtain ⟨z, rfl⟩ := exists_of_append_quote hquote hparts
      rw [List.append_assoc, List.append_assoc (mark' ++ gap), List.singleton_append]
      exact .intro hfirst hrun hend hmark hgap
  · intro h
    cases h with
    | intro hfirst hrun hend hmark hgap =>
      rw [List.append_assoc, List.append_assoc, List.cons_append]
      exact .intro hfirst hrun hend hmark hgap

theorem nameAt_append_quote (previous : Option Char) (u y : Text) :
    nameAt previous (u ++ '"' :: y) = nameAt previous u := by
  apply Option.ext
  intro name
  rw [nameAt_eq_some_iff, nameAt_eq_some_iff, startsCall_append_quote]

theorem nameAt_quote (y : Text) : nameAt (some '"') y = nameAt none y := by
  have hquote : ∀ c ∈ some '"', isWord c = false ∧ c ≠ '$' := by
    rintro _ ⟨⟩
    exact ⟨isWord_quote, by decide⟩
  apply Option.ext
  intro name
  rw [nameAt_eq_some_iff, nameAt_eq_some_iff, and_iff_left hquote,
    and_iff_left fun _ hc => nomatch hc]

theorem namesFrom_append_quote (previous : Option Char) (u y : Text) :
    namesFrom previous (u ++ '"' :: y) = namesFrom previous u ++ namesFrom none y := by
  induction u generalizing previous with
  | nil =>
    have hnone : nameAt previous ('"' :: y) = none := nameAt_append_quote previous [] y
    have hrest : namesFrom (some '"') y = namesFrom none y := by
      cases y with
      | nil => rfl
      | cons c y => rw [namesFrom, namesFrom, nameAt_quote]
    change (nameAt previous ('"' :: y)).toList ++ namesFrom (some '"') y = namesFrom none y
    rw [hnone, hrest]
    rfl
  | cons c u ih =>
    have hname := nameAt_append_quote previous (c :: u) y
    rw [List.cons_append] at hname ⊢
    rw [namesFrom, namesFrom, hname, ih, List.append_assoc]

end Cut

section Positions

/-- The call sites of a text that follows `previous`, from left to right, with their positions,
which are counted from `i` on. -/
def sitesFrom (i : Nat) (previous : Option Char) : Text → List (Nat × Text)
  | [] => []
  | c :: t => ((nameAt previous (c :: t)).map (i, ·)).toList ++ sitesFrom (i + 1) (some c) t

variable {i j : Nat} {previous : Option Char} {t name : Text}

theorem map_snd_sitesFrom (i : Nat) (previous : Option Char) (t : Text) :
    (sitesFrom i previous t).map Prod.snd = namesFrom previous t := by
  induction t generalizing i previous with
  | nil => rfl
  | cons c t ih =>
    rw [sitesFrom, namesFrom, List.map_append, ih]
    cases nameAt previous (c :: t) with
    | none => rfl
    | some name => rfl

theorem mem_sitesFrom_iff : (j, name) ∈ sitesFrom i previous t ↔
    ∃ before rest, t = before ++ rest ∧ j = i + before.length ∧
      nameAt (before.getLast?.or previous) rest = some name := by
  induction t generalizing i previous with
  | nil =>
    constructor
    · intro h
      cases h
    · rintro ⟨before, rest, he, -, hname⟩
      obtain ⟨rfl, rfl⟩ := List.append_eq_nil_iff.1 he.symm
      cases hname
  | cons c t ih =>
    rw [sitesFrom, List.mem_append, ih]
    constructor
    · rintro (h | ⟨before, rest, rfl, rfl, hname⟩)
      · obtain ⟨name', hname, he⟩ := Option.map_eq_some_iff.1 (Option.mem_toList.1 h)
        cases he
        exact ⟨[], c :: t, rfl, rfl, hname⟩
      · refine ⟨c :: before, rest, rfl, ?_, ?_⟩
        · rw [List.length_cons, Nat.add_assoc, Nat.add_comm 1]
        · rwa [getLast?_cons_or]
    · rintro ⟨before, rest, he, rfl, hname⟩
      cases before with
      | nil =>
        cases he
        exact .inl (Option.mem_toList.2 (Option.map_eq_some_iff.2 ⟨name, hname, rfl⟩))
      | cons d before =>
        cases he
        rw [getLast?_cons_or] at hname
        refine .inr ⟨before, rest, rfl, ?_, hname⟩
        rw [List.length_cons, Nat.add_assoc, Nat.add_comm 1]

theorem pairwise_sitesFrom (i : Nat) (previous : Option Char) (t : Text) :
    (sitesFrom i previous t).Pairwise fun s s' => s.1 < s'.1 := by
  induction t generalizing i previous with
  | nil => exact .nil
  | cons c t ih =>
    rw [sitesFrom, List.pairwise_append]
    refine ⟨?_, ih _ _, ?_⟩
    · cases nameAt previous (c :: t) with
      | none => exact .nil
      | some name => exact List.pairwise_singleton ..
    · rintro s hs ⟨j, name⟩ hs'
      obtain ⟨_, -, rfl⟩ := Option.map_eq_some_iff.1 (Option.mem_toList.1 hs)
      obtain ⟨before, -, -, rfl, -⟩ := mem_sitesFrom_iff.1 hs'
      dsimp only
      omega

theorem mem_sitesFrom_iff_siteAt : (i, name) ∈ sitesFrom 0 none t ↔ SiteAt t i name := by
  rw [mem_sitesFrom_iff, SiteAt]
  apply exists₂_congr
  intro before rest
  rw [nameAt_eq_some_iff, Option.or_none, Nat.zero_add, eq_comm (a := i)]

end Positions

end DependencyAtlas.CallSite
