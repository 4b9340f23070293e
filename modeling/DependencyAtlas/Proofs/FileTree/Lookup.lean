import DependencyAtlas.FileTree.Basic

namespace DependencyAtlas

namespace FileTree

def lookFrom (t : FileTree) (links : Nat) (here : Location) (names : List Text) :
    Except PathError (Location × Entry) :=
  match t.follow .finding links here names with
  | .error e => .error e
  | .ok (.absent _) => .error .notFound
  | .ok (.found place) => ((t.entryAt place).map fun e => (place, e)).elim (.error .notFound) .ok

/-- What an entry of a directory is, with all links followed that may be. -/
def entryIn (t : FileTree) (directory : Location) (name : Text) :
    Except PathError (Location × Entry) :=
  t.lookFrom maxLinks directory [name]

/-- A path that is too long or leads through too many links. -/
def BeyondLimits (t : FileTree) (p : Path) : Prop :=
  t.look p = .error .nameTooLong ∨ t.look p = .error .tooManyLinks

def onward (t : FileTree) (names : List Text) : Advance → Advance
  | .arrived place => t.advance .finding place names
  | .absent place => if names = [] then .absent place else .failed .notFound
  | .failed e => .failed e
  | .atLink directory target rest => .atLink directory target (rest ++ names)

theorem advance_append (t : FileTree) (here : Location) (xs ys : List Text) :
    t.advance .finding here (xs ++ ys) = t.onward ys (t.advance .finding here xs) := by
  induction xs generalizing here with
  | nil => rfl
  | cons name rest ih =>
    simp only [List.cons_append, advance, reduceCtorEq, false_and, if_false]
    by_cases hdir : t.isDirectory here = true
    · by_cases hstay : name = [] ∨ name = ['.']
      · simp only [hdir, hstay, if_true, Bool.not_true, Bool.false_eq_true, if_false]
        exact ih here
      · by_cases hup : name = ['.', '.']
        · simp only [hdir, hup, if_true, Bool.not_true, Bool.false_eq_true, if_false]
          exact ih here.dropLast
        · by_cases hlong : maxName < (Text.toUtf8 name).length
          · simp only [hdir, hstay, hup, hlong, if_true, Bool.not_true, Bool.false_eq_true,
              if_false]
            rfl
          · simp only [hdir, hstay, hup, hlong, Bool.not_true, Bool.false_eq_true, if_false]
            cases t.entryAt (here ++ [name]) with
            | none => by_cases hrest : rest = [] <;> simp [hrest, onward]
            | some e =>
              cases e with
              | link target => rfl
              | _ => exact ih (here ++ [name])
    · simp only [hdir, Bool.not_false, if_true]
      rfl

variable {t : FileTree} {here place : Location}

/-- Names that lead somewhere can be followed by others; some links are used up by then. -/
theorem follow_append {links : Nat} {xs : List Text}
    (h : t.follow .finding links here xs = .ok (.found place)) :
    ∃ left ≤ links, ∀ ys, t.follow .finding links here (xs ++ ys) =
      t.follow .finding left place ys := by
  induction links generalizing here xs with
  | zero =>
    rw [follow] at h
    cases hadvance : t.advance .finding here xs with
    | arrived p =>
      simp only [hadvance, Except.ok.injEq, Resolution.found.injEq] at h
      refine ⟨0, Nat.le_refl _, fun ys => ?_⟩
      rw [follow, follow, advance_append, hadvance, onward, h]
    | _ => simp [hadvance] at h
  | succ n ih =>
    rw [follow] at h
    cases hadvance : t.advance .finding here xs with
    | arrived p =>
      simp only [hadvance, Except.ok.injEq, Resolution.found.injEq] at h
      refine ⟨n + 1, Nat.le_refl _, fun ys => ?_⟩
      rw [follow, follow, advance_append, hadvance, onward, h]
    | atLink directory target rest =>
      simp only [hadvance] at h
      -- the names behind the link follow what it stands for, also with more names behind them
      obtain ⟨left, hle, hleft⟩ := ih h
      refine ⟨left, Nat.le_succ_of_le hle, fun ys => ?_⟩
      rw [follow, advance_append, hadvance]
      simp only [onward, ← List.append_assoc, hleft]
    | _ => simp [hadvance] at h

theorem follow_of_le {links more : Nat} {names : List Text} (hle : links ≤ more)
    (h : t.follow .finding links here names ≠ .error .tooManyLinks) :
    t.follow .finding more here names = t.follow .finding links here names := by
  induction links generalizing more here names with
  | zero =>
    rw [follow] at h
    rw [follow, follow]
    cases hadvance : t.advance .finding here names with
    | atLink directory target rest => simp [hadvance] at h
    | _ => rfl
  | succ n ih =>
    obtain ⟨more, rfl⟩ : ∃ m, more = m + 1 :=
      Nat.exists_eq_add_one.2 (Nat.lt_of_lt_of_le (Nat.succ_pos n) hle)
    rw [follow] at h
    rw [follow, follow]
    cases hadvance : t.advance .finding here names with
    | atLink directory target rest =>
      simp only [hadvance] at h
      exact ih (Nat.le_of_succ_le_succ hle) h
    | _ => rfl

theorem look_eq_lookFrom {p : Path} (hnul : p.hasNul = false)
    (hlong : ¬maxPath < (Text.toUtf8 p.render).length) :
    t.look p = t.lookFrom maxLinks (if p.root = [] then t.workplace else []) p.parts := by
  rw [look, lookFrom, resolve, hnul, if_neg hlong]
  rfl

theorem within_of_look {p : Path} {r : Location × Entry} (h : t.look p = .ok r) :
    p.hasNul = false ∧ ¬maxPath < (Text.toUtf8 p.render).length := by
  unfold look resolve at h
  cases hnul : p.hasNul with
  | true => simp [hnul] at h
  | false =>
    refine ⟨rfl, fun hlong => ?_⟩
    simp [hnul, hlong] at h

theorem lookFrom_eq_ok {links : Nat} {names : List Text} {e : Entry}
    (h : t.lookFrom links here names = .ok (place, e)) :
    t.follow .finding links here names = .ok (.found place) := by
  unfold lookFrom at h
  split at h
  · cases h
  · cases h
  · next p hp =>
    cases he : t.entryAt p with
    | none => simp [he] at h
    | some e' =>
      simp only [he, Option.map_some, Option.elim_some, Except.ok.injEq, Prod.mk.injEq] at h
      rw [hp, h.1]

theorem advance_ne_nul (t : FileTree) (here : Location) (names : List Text) :
    t.advance .finding here names ≠ .failed .nulCharacter := by
  induction names generalizing here with
  | nil => simp [advance]
  | cons name rest ih =>
    rw [advance]
    repeat' split
    all_goals first | exact ih _ | simp

theorem follow_ne_nul (t : FileTree) (links : Nat) (here : Location) (names : List Text) :
    t.follow .finding links here names ≠ .error .nulCharacter := by
  induction links generalizing here names with
  | zero =>
    rw [follow]
    split
    · simp
    · simp
    · next e he =>
      intro h
      exact advance_ne_nul t here names (Except.error.inj h ▸ he)
    · simp
  | succ n ih =>
    rw [follow]
    split
    · simp
    · simp
    · next e he =>
      intro h
      exact advance_ne_nul t here names (Except.error.inj h ▸ he)
    · exact ih _ _

theorem look_ne_nul {p : Path} (h : p.hasNul = false) : t.look p ≠ .error .nulCharacter := by
  unfold look resolve
  simp only [h, Bool.false_eq_true, if_false]
  split
  · next e he =>
    intro hnul
    cases hnul
    split at he
    · cases he
    · exact follow_ne_nul _ _ _ _ he
  · simp
  · next place _ => cases t.entryAt place <;> simp

theorem look_child {p : Path} {n : Text} (h : t.look p = .ok (place, .directory))
    (hnul : (p.child n).hasNul = false) :
    t.look (p.child n) = t.entryIn place n ∨ t.BeyondLimits (p.child n) := by
  by_cases hlong : maxPath < (Text.toUtf8 (p.child n).render).length
  · refine .inr (.inl ?_)
    rw [look, resolve, hnul, if_pos hlong]
    rfl
  · obtain ⟨hnul', hlong'⟩ := within_of_look h
    rw [look_eq_lookFrom hnul' hlong'] at h
    obtain ⟨left, hle, hleft⟩ := follow_append (lookFrom_eq_ok h)
    have hchild : t.look (p.child n) = t.lookFrom left place [n] := by
      rw [look_eq_lookFrom hnul hlong, lookFrom, lookFrom, ← hleft]
      rfl
    by_cases hmany : t.follow .finding left place [n] = .error .tooManyLinks
    · refine .inr (.inr ?_)
      rw [hchild, lookFrom, hmany]
    · left
      rw [hchild, entryIn, lookFrom, lookFrom, follow_of_le hle hmany]

theorem entryIn_of_look_child {p : Path} {n : Text} {r : Location × Entry}
    (h : t.look p = .ok (place, .directory)) (hnul : (p.child n).hasNul = false)
    (hchild : t.look (p.child n) = .ok r) : t.entryIn place n = .ok r := by
  rcases look_child h hnul with heq | hbeyond | hbeyond
  · exact heq ▸ hchild
  · exact nomatch hchild.symm.trans hbeyond
  · exact nomatch hchild.symm.trans hbeyond

end FileTree

end DependencyAtlas
