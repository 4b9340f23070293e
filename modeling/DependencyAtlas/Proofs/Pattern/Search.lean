import DependencyAtlas.Pattern.Match
import Mathlib.Data.List.Basic

namespace DependencyAtlas

namespace Place

def past (s : Place) (w : Text) : Place :=
  { s with
    offset := s.offset + w.length
    previous := w.getLast?.or s.previous
    rest := s.rest.drop w.length }

variable {s : Place} {c : Char} {t : Text} {set : CharSet}

theorem rest_past (s : Place) (w : Text) : (s.past w).rest = s.rest.drop w.length :=
  rfl

theorem past_nil (s : Place) : s.past [] = s :=
  rfl

theorem past_past (s : Place) (v w : Text) : (s.past v).past w = s.past (v ++ w) := by
  simp only [past, List.length_append, Nat.add_assoc, List.getLast?_append, Option.or_assoc,
    List.drop_drop]

theorem advance_of_contains (h : s.rest = c :: t) (hc : set.contains c = true) :
    s.advance set = some (s.past [c]) := by
  unfold advance past
  rw [h]
  exact if_pos hc

theorem advance_eq_none (h : ∀ c ∈ s.rest.head?, set.contains c = false) :
    s.advance set = none := by
  unfold advance
  split
  · rfl
  · next c t hrest =>
    rw [hrest] at h
    rw [if_neg]
    rw [h c rfl]
    exact Bool.false_ne_true

end Place

namespace Pattern

def matchAt? (p : Pattern) (previous : Option Char) (t : Text) : Option Place :=
  p.run { previous, rest := t } some

theorem matchAt?_either (p q : Pattern) (previous : Option Char) (t : Text) :
    (p ||| q).matchAt? previous t = (p.matchAt? previous t).or (q.matchAt? previous t) := by
  rw [Option.or_eq_orElse]
  rfl

/-- Takes a text apart into the matches of a pattern, found from left to right where what stands
before is `free`, and the characters between them. The counter is what is left of the match in
progress. -/
def scanFrom (p : Pattern) (free : Option Char → Bool) :
    Nat → Option Char → Text → List (Char ⊕ Place)
  | _, _, [] => []
  | n + 1, _, c :: t => scanFrom p free n (some c) t
  | 0, previous, c :: t =>
    match if free previous then p.matchAt? previous (c :: t) else none with
    | some s => .inr s :: scanFrom p free (s.offset - 1) (some c) t
    | none => .inl c :: scanFrom p free 0 (some c) t

theorem scanFrom_append (p : Pattern) (free : Option Char → Bool) (previous : Option Char)
    (w t : Text) :
    p.scanFrom free w.length previous (w ++ t) = p.scanFrom free 0 (w.getLast?.or previous) t := by
  induction w generalizing previous with
  | nil => rfl
  | cons c w ih =>
    rw [List.length_cons, List.cons_append, scanFrom, ih, List.getLast?_cons, Option.some_or,
      Option.or_some]

theorem scanFrom_match {p : Pattern} {free : Option Char → Bool} {previous : Option Char} {c : Char}
    {w t : Text} {s : Place} (hfree : free previous = true)
    (hmatch : p.matchAt? previous (c :: w ++ t) = some s) (hs : s.offset = w.length + 1) :
    p.scanFrom free 0 previous (c :: w ++ t) =
      .inr s :: p.scanFrom free 0 (w.getLast?.or (some c)) t := by
  rw [List.cons_append] at hmatch ⊢
  rw [scanFrom, if_pos hfree, hmatch]
  dsimp only
  rw [hs, Nat.add_sub_cancel, scanFrom_append]

/-- A text with `new` in place of each match of a pattern. -/
def replace (p : Pattern) (new t : Text) : Text :=
  (p.scanFrom (fun _ => true) 0 none t).flatMap (Sum.elim ([·]) fun _ => new)

/-- The texts that the matches of a pattern capture under a name, from left to right. -/
def capturesOf (p : Pattern) (free : Option Char → Bool) (name t : Text) : List Text :=
  (p.scanFrom free 0 none t).filterMap (Sum.elim (fun _ => none) fun s => s.captures.lookup name)

/-- A pattern takes the piece of a text that `unit` gives, which is not empty, and matches nothing
else. -/
structure Takes (p : Pattern) (unit : Text → Option Text) : Prop where
  run_eq : ∀ {α : Type} (s : Place) (k : Place → Option α),
    p.run s k = (unit s.rest).bind fun v => k (s.past v)
  ne_nil : ∀ {t v : Text}, unit t = some v → v ≠ []
  length_le : ∀ {t v : Text}, unit t = some v → v.length ≤ t.length

/-- The pieces that can be taken from a text one after the other, put together. -/
inductive Rounds (unit : Text → Option Text) : Text → Text → Prop where
  | stop {t : Text} : unit t = none → Rounds unit t []
  | round {t v w : Text} :
      unit t = some v → Rounds unit (t.drop v.length) w → Rounds unit t (v ++ w)

section Repetition

variable {α : Type} {p : Pattern} {unit : Text → Option Text} {k : Place → Option α} {s : Place}
  {t w : Text}

theorem Takes.exists_rounds (hp : p.Takes unit) (t : Text) : ∃ w, Rounds unit t w := by
  induction hn : t.length using Nat.strongRecOn generalizing t with
  | ind n ih =>
    cases ht : unit t with
    | none => exact ⟨[], .stop ht⟩
    | some v =>
      have hpos := List.length_pos_iff.2 (hp.ne_nil ht)
      have hle := hp.length_le ht
      obtain ⟨w, hw⟩ := ih (t.drop v.length).length (by rw [List.length_drop]; omega) _ rfl
      exact ⟨v ++ w, .round ht hw⟩

theorem Takes.run_many (hp : p.Takes unit) (hk : ∀ u : Place, unit u.rest ≠ none → k u = none)
    (h : Rounds unit s.rest w) : (many true p).run s k = k (s.past w) := by
  have hiterate : ∀ n, s.rest.length < n → Search.iterate true p.run n s k = k (s.past w) := by
    generalize hrest : s.rest = t at h
    induction h generalizing s with
    | stop hnone =>
      rintro (_ | n) hn
      · cases hn
      · rw [Search.iterate, if_pos rfl, hp.run_eq, hrest, hnone, Option.bind_none, s.past_nil]
        rfl
    | @round t v w hsome _ ih =>
      rintro (_ | n) hn
      · cases hn
      · have hpos := List.length_pos_iff.2 (hp.ne_nil hsome)
        have hle := hp.length_le hsome
        have hoffset : s.offset < (s.past v).offset := Nat.lt_add_of_pos_right hpos
        have hmore := ih (s := s.past v) (congrArg (List.drop v.length) hrest) n
          (by rw [List.length_drop]; omega)
        rw [Search.iterate, if_pos rfl, hp.run_eq, hrest, hsome, Option.bind_some, if_pos hoffset,
          hmore, s.past_past]
        -- going back to where another round was possible is of no use
        have hback : k s = none := hk s (by rw [hrest, hsome]; exact Option.some_ne_none v)
        rw [hback, Option.orElse_eq_or, Option.or_none]
  exact hiterate _ (Nat.lt_succ_self _)

end Repetition

section Characters

def firstOf (set : CharSet) : Text → Option Text
  | [] => none
  | c :: _ => if set.contains c then some [c] else none

theorem takes_one (set : CharSet) : (one set).Takes (firstOf set) where
  run_eq s k := by
    rw [run]
    cases hrest : s.rest with
    | nil =>
      rw [Place.advance_eq_none]
      · rfl
      · rw [hrest]
        exact fun _ hc => nomatch hc
    | cons c t =>
      rw [firstOf]
      split
      · next hc => rw [Place.advance_of_contains hrest hc, Option.bind_some, Option.bind_some]
      · next hc =>
        rw [Place.advance_eq_none, Option.bind_none, Option.bind_none]
        rw [hrest]
        rintro _ ⟨⟩
        exact Bool.eq_false_iff.2 hc
  ne_nil {t v} h := by
    unfold firstOf at h
    split at h
    · cases h
    · split at h
      · cases h
        exact List.cons_ne_nil _ []
      · cases h
  length_le {t v} h := by
    unfold firstOf at h
    split at h
    · cases h
    · split at h
      · cases h
        exact Nat.le_add_left 1 _
      · cases h

theorem rounds_firstOf (set : CharSet) (t : Text) :
    Rounds (firstOf set) t (t.takeWhile set.contains) := by
  induction t with
  | nil => exact .stop rfl
  | cons c t ih =>
    by_cases hc : set.contains c = true
    · rw [List.takeWhile_cons_of_pos hc]
      exact Rounds.round (v := [c]) (if_pos hc) ih
    · rw [List.takeWhile_cons_of_neg hc]
      exact .stop (if_neg hc)

end Characters

section Composition

variable {p q : Pattern} {f g : Text → Option Text}

def thenTake (f g : Text → Option Text) (t : Text) : Option Text :=
  (f t).bind fun v => (g (t.drop v.length)).map (v ++ ·)

theorem Takes.seq (hp : p.Takes f) (hq : q.Takes g) : (p ++ q).Takes (thenTake f g) where
  run_eq s k := by
    change p.run s (fun u => q.run u k) = _
    rw [hp.run_eq, thenTake]
    cases f s.rest with
    | none => rfl
    | some v =>
      rw [Option.bind_some, Option.bind_some, hq.run_eq, s.rest_past]
      cases g (s.rest.drop v.length) with
      | none => rfl
      | some w =>
        rw [Option.map_some, Option.bind_some, Option.bind_some, s.past_past]
  ne_nil h := by
    obtain ⟨v, hv, h⟩ := Option.bind_eq_some_iff.1 h
    obtain ⟨w, -, rfl⟩ := Option.map_eq_some_iff.1 h
    exact List.append_ne_nil_of_left_ne_nil (hp.ne_nil hv) w
  length_le h := by
    obtain ⟨v, hv, h⟩ := Option.bind_eq_some_iff.1 h
    obtain ⟨w, hw, rfl⟩ := Option.map_eq_some_iff.1 h
    have hle := hp.length_le hv
    have hle' := hq.length_le hw
    rw [List.length_drop] at hle'
    rw [List.length_append]
    omega

theorem Takes.either (hp : p.Takes f) (hq : q.Takes g) (happart : ∀ t, f t ≠ none → g t = none) :
    (p ||| q).Takes fun t => (f t).or (g t) where
  run_eq s k := by
    change (p.run s k).orElse (fun _ => q.run s k) = _
    rw [hp.run_eq, hq.run_eq]
    cases hf : f s.rest with
    | none => rfl
    | some v =>
      rw [happart s.rest (by rw [hf]; exact Option.some_ne_none v), Option.or_none,
        Option.bind_none, Option.orElse_eq_or, Option.or_none]
  ne_nil h := by
    rcases Option.or_eq_some_iff.1 h with h | ⟨-, h⟩
    · exact hp.ne_nil h
    · exact hq.ne_nil h
  length_le h := by
    rcases Option.or_eq_some_iff.1 h with h | ⟨-, h⟩
    · exact hp.length_le h
    · exact hq.length_le h

theorem Takes.run_many_seq {α : Type} {k : Place → Option α} {s : Place} {w : Text} (hp : p.Takes f)
    (hq : q.Takes g) (happart : ∀ t, f t ≠ none → g t = none) (h : Rounds f s.rest w) :
    (many true p ++ q).run s k = (g (s.rest.drop w.length)).bind fun v => k (s.past (w ++ v)) := by
  change (many true p).run s (fun u => q.run u k) = _
  rw [hp.run_many _ h, hq.run_eq, s.rest_past]
  · simp only [s.past_past]
  · intro u hu
    rw [hq.run_eq, happart u.rest hu, Option.bind_none]

theorem Takes.behind_empty (hp : p.Takes f) : (empty ++ p).Takes f :=
  ⟨hp.run_eq, hp.ne_nil, hp.length_le⟩

end Composition

end Pattern

end DependencyAtlas
