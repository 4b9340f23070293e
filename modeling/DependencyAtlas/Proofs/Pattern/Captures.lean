import DependencyAtlas.Pattern.Rule

namespace DependencyAtlas

namespace Place

def Spans (s t : Place) (w : Text) : Prop :=
  s.rest = w ++ t.rest ∧ t.offset = s.offset + w.length

variable {s t u : Place} {w v : Text}

theorem Spans.refl (s : Place) : s.Spans s [] :=
  ⟨rfl, rfl⟩

theorem Spans.trans (h : s.Spans t w) (h' : t.Spans u v) : s.Spans u (w ++ v) := by
  refine ⟨?_, ?_⟩
  · rw [h.1, h'.1, List.append_assoc]
  · rw [h'.2, h.2, List.length_append, Nat.add_assoc]

theorem spans_of_advance {set : CharSet} (h : s.advance set = some t) :
    ∃ c, s.Spans t [c] ∧ set.contains c = true ∧ t.captures = s.captures := by
  unfold advance at h
  split at h
  · cases h
  · next c rest hrest =>
    split at h
    · next hc =>
      cases h
      exact ⟨c, ⟨hrest, rfl⟩, hc, rfl⟩
    · cases h

theorem Spans.bind (name : Text) (h : s.Spans t w) : s.Spans (Place.bind name s t) w :=
  h

theorem lookup_filter_ne (cs : Captures) (name n : Text) :
    (cs.filter (·.1 ≠ name)).lookup n = if n = name then none else cs.lookup n := by
  induction cs with
  | nil => simp
  | cons c cs ih =>
    obtain ⟨m, w⟩ := c
    by_cases hm : m = name
    · rw [List.filter_cons_of_neg (by simpa using hm), ih, List.lookup_cons]
      split
      · rfl
      · next hn => rw [beq_eq_false_iff_ne.2 (hm ▸ hn)]
    · rw [List.filter_cons_of_pos (by simpa using hm), List.lookup_cons, List.lookup_cons, ih]
      by_cases hn : n = m
      · rw [beq_iff_eq.2 hn, if_neg (hn ▸ hm), if_neg (hn ▸ hm)]
      · rw [beq_eq_false_iff_ne.2 hn]

theorem Spans.lookup_bind (h : s.Spans t w) (name n : Text) :
    (Place.bind name s t).captures.lookup n = if n = name then some w else t.captures.lookup n := by
  have htext : s.rest.take (t.offset - s.offset) = w := by
    rw [h.1, h.2, Nat.add_sub_cancel_left, List.take_left]
  rw [Place.bind, List.lookup_append, lookup_filter_ne, htext]
  split
  · next hn => simp [hn]
  · next hn => simp [List.lookup_cons, beq_eq_false_iff_ne.2 hn]

end Place

namespace Pattern

/-- The places that a pattern leads to, whichever of them are preferred. -/
inductive Leads : Pattern → Place → Place → Prop where
  | empty {s : Place} : Leads .empty s s
  | one {set : CharSet} {s t : Place} : s.advance set = some t → Leads (.one set) s t
  | start {s : Place} : Leads .start s s
  | finish {s : Place} : Leads .finish s s
  | textEnd {s : Place} : Leads .textEnd s s
  | wordEdge {s : Place} : Leads .wordEdge s s
  | noWordEdge {s : Place} : Leads .noWordEdge s s
  | seq {p q : Pattern} {s t u : Place} : Leads p s t → Leads q t u → Leads (.seq p q) s u
  | left {p q : Pattern} {s t : Place} : Leads p s t → Leads (.either p q) s t
  | right {p q : Pattern} {s t : Place} : Leads q s t → Leads (.either p q) s t
  | stop {greedy : Bool} {p : Pattern} {s : Place} : Leads (.many greedy p) s s
  | round {greedy : Bool} {p : Pattern} {s t u : Place} :
    Leads p s t → Leads (.many greedy p) t u → Leads (.many greedy p) s u
  | timesStop {greedy : Bool} {least more : Nat} {p : Pattern} {s : Place} :
    Leads (.times greedy least more p) s s
  | timesRound {greedy : Bool} {least more : Nat} {p : Pattern} {s t u : Place} :
    Leads p s t → Leads (.times greedy least more p) t u → Leads (.times greedy least more p) s u
  | capture {name : Text} {p : Pattern} {s t : Place} :
      Leads p s t → Leads (.capture name p) s (.bind name s t)

/-- Every match has a character from a set that satisfies `ok`. -/
def touches (ok : CharSet → Bool) : Pattern → Bool
  | .one set => ok set
  | .seq p q => p.touches ok || q.touches ok
  | .either p q => p.touches ok && q.touches ok
  | .capture _ p => p.touches ok
  | _ => false

/-- Every match captures `name`. -/
def binds (name : Text) : Pattern → Bool
  | .seq p q => p.binds name || q.binds name
  | .either p q => p.binds name && q.binds name
  | .capture n p => n == name || p.binds name
  | _ => false

/-- Whatever is captured as `name` has a character from a set that satisfies `ok`. -/
def bindsOnly (ok : CharSet → Bool) (name : Text) : Pattern → Bool
  | .seq p q | .either p q => p.bindsOnly ok name && q.bindsOnly ok name
  | .many _ p | .times _ _ _ p => p.bindsOnly ok name
  | .capture n p => (n != name || p.touches ok) && p.bindsOnly ok name
  | _ => true

def Touched (ok : CharSet → Bool) (w : Text) : Prop :=
  ∃ c ∈ w, ∃ set : CharSet, ok set = true ∧ set.contains c = true

section Run

variable {α : Type} {a : α}

theorem orElse_eq_some {o : Option α} {f : Unit → Option α} (h : o.orElse f = some a) :
    o = some a ∨ f () = some a := by
  cases o with
  | none => exact .inr h
  | some b => exact .inl h

theorem iterate_eq_some {p : Pattern} {greedy : Bool} (R : Place → Place → Prop)
    (hp : ∀ {s : Place} {k : Place → Option α}, p.run s k = some a → ∃ t, p.Leads s t ∧
      k t = some a)
    (hstop : ∀ s, R s s) (hround : ∀ {s t u}, p.Leads s t → R t u → R s u) (n : Nat) {s : Place}
    {k : Place → Option α} (h : Search.iterate greedy p.run n s k = some a) :
    ∃ t, R s t ∧ k t = some a := by
  induction n generalizing s with
  | zero => exact ⟨s, hstop s, h⟩
  | succ n ih =>
    have hcases : k s = some a ∨
        (p.run s fun t =>
          if s.offset < t.offset then Search.iterate greedy p.run n t k else k t) = some a := by
      cases greedy with
      | false => exact orElse_eq_some h
      | true => exact (orElse_eq_some h).symm
    rcases hcases with hk | hmore
    · exact ⟨s, hstop s, hk⟩
    · obtain ⟨t, hst, ht⟩ := hp hmore
      split at ht
      · obtain ⟨u, htu, hu⟩ := ih ht
        exact ⟨u, hround hst htu, hu⟩
      · exact ⟨t, hround hst (hstop t), ht⟩

theorem times_eq_some {p : Pattern} (R : Place → Place → Prop)
    (hp : ∀ {s : Place} {k : Place → Option α}, p.run s k = some a → ∃ t, p.Leads s t ∧
      k t = some a)
    (hround : ∀ {s t u}, p.Leads s t → R t u → R s u) (n : Nat) {s : Place} {k : Place → Option α}
    (h : Search.times p.run n s k = some a) :
    ∃ t, (∀ u, R t u → R s u) ∧ k t = some a := by
  induction n generalizing s with
  | zero => exact ⟨s, fun _ hu => hu, h⟩
  | succ n ih =>
    obtain ⟨t, hst, ht⟩ := hp h
    obtain ⟨u, htu, hu⟩ := ih ht
    exact ⟨u, fun v hv => hround hst (htu v hv), hu⟩

theorem run_eq_some {p : Pattern} {s : Place} {k : Place → Option α} (h : p.run s k = some a) :
    ∃ t, p.Leads s t ∧ k t = some a := by
  induction p generalizing s k with
  | empty => exact ⟨s, .empty, h⟩
  | one set =>
    obtain ⟨t, ht, hk⟩ := Option.bind_eq_some_iff.1 h
    exact ⟨t, .one ht, hk⟩
  | start =>
    simp only [run] at h
    split at h
    · exact ⟨s, .start, h⟩
    · cases h
  | finish =>
    simp only [run] at h
    split at h
    · exact ⟨s, .finish, h⟩
    · cases h
  | textEnd =>
    simp only [run] at h
    split at h
    · exact ⟨s, .textEnd, h⟩
    · cases h
  | wordEdge =>
    simp only [run] at h
    split at h
    · exact ⟨s, .wordEdge, h⟩
    · cases h
  | noWordEdge =>
    simp only [run] at h
    split at h
    · cases h
    · exact ⟨s, .noWordEdge, h⟩
  | seq p q ihp ihq =>
    obtain ⟨t, hst, ht⟩ := ihp h
    obtain ⟨u, htu, hu⟩ := ihq ht
    exact ⟨u, .seq hst htu, hu⟩
  | either p q ihp ihq =>
    rcases orElse_eq_some h with h | h
    · obtain ⟨t, hst, ht⟩ := ihp h
      exact ⟨t, .left hst, ht⟩
    · obtain ⟨t, hst, ht⟩ := ihq h
      exact ⟨t, .right hst, ht⟩
  | many greedy p ih =>
    exact iterate_eq_some (Leads (.many greedy p)) ih (fun _ => .stop) .round _ h
  | times greedy least more p ih =>
    let R := Leads (.times greedy least more p)
    obtain ⟨t, hst, ht⟩ := times_eq_some R ih .timesRound least h
    obtain ⟨u, htu, hu⟩ := iterate_eq_some R ih (fun _ => .timesStop) .timesRound more ht
    exact ⟨u, hst u htu, hu⟩
  | capture name p ih =>
    obtain ⟨t, hst, ht⟩ := ih h
    exact ⟨_, .capture hst, ht⟩

end Run

variable {ok : CharSet → Bool} {name : Text} {p : Pattern} {s t : Place}

theorem Leads.spans (h : p.Leads s t) : ∃ w, s.Spans t w := by
  induction h with
  | one h =>
    obtain ⟨c, hc, -⟩ := Place.spans_of_advance h
    exact ⟨_, hc⟩
  | seq _ _ ih ih' | round _ _ ih ih' | timesRound _ _ ih ih' =>
    obtain ⟨w, hw⟩ := ih
    obtain ⟨v, hv⟩ := ih'
    exact ⟨_, hw.trans hv⟩
  | left _ ih | right _ ih => exact ih
  | capture _ ih =>
    obtain ⟨w, hw⟩ := ih
    exact ⟨w, hw.bind _⟩
  | _ => exact ⟨_, .refl _⟩

theorem Leads.touched (h : p.Leads s t) (hp : p.touches ok = true) :
    ∃ w, s.Spans t w ∧ Touched ok w := by
  induction h with
  | @one set s t h =>
    obtain ⟨c, hc, hset, -⟩ := Place.spans_of_advance h
    exact ⟨_, hc, c, List.mem_singleton.2 rfl, set, hp, hset⟩
  | seq hst htu ih ih' =>
    rcases Bool.or_eq_true_iff.1 hp with hp | hp
    · obtain ⟨w, hw, c, hc, hset⟩ := ih hp
      obtain ⟨v, hv⟩ := htu.spans
      exact ⟨_, hw.trans hv, c, List.mem_append_left _ hc, hset⟩
    · obtain ⟨w, hw⟩ := hst.spans
      obtain ⟨v, hv, c, hc, hset⟩ := ih' hp
      exact ⟨_, hw.trans hv, c, List.mem_append_right _ hc, hset⟩
  | left _ ih => exact ih (Bool.and_eq_true_iff.1 hp).1
  | right _ ih => exact ih (Bool.and_eq_true_iff.1 hp).2
  | capture _ ih =>
    obtain ⟨w, hw, hc⟩ := ih hp
    exact ⟨w, hw.bind _, hc⟩
  | _ => cases hp

theorem Leads.lookup_isSome (h : p.Leads s t) (hs : (s.captures.lookup name).isSome) :
    (t.captures.lookup name).isSome := by
  induction h with
  | one h =>
    obtain ⟨c, -, -, hcaptures⟩ := Place.spans_of_advance h
    rwa [hcaptures]
  | seq _ _ ih ih' | round _ _ ih ih' | timesRound _ _ ih ih' => exact ih' (ih hs)
  | left _ ih | right _ ih => exact ih hs
  | capture h ih =>
    obtain ⟨w, hw⟩ := h.spans
    rw [hw.lookup_bind]
    split
    · rfl
    · exact ih hs
  | _ => exact hs

theorem Leads.lookup_isSome_of_binds (h : p.Leads s t) (hp : p.binds name = true) :
    (t.captures.lookup name).isSome := by
  induction h with
  | seq _ htu ih ih' =>
    rcases Bool.or_eq_true_iff.1 hp with hp | hp
    · exact htu.lookup_isSome (ih hp)
    · exact ih' hp
  | left _ ih => exact ih (Bool.and_eq_true_iff.1 hp).1
  | right _ ih => exact ih (Bool.and_eq_true_iff.1 hp).2
  | capture h ih =>
    obtain ⟨w, hw⟩ := h.spans
    rw [hw.lookup_bind]
    split
    · rfl
    · next hne =>
      rcases Bool.or_eq_true_iff.1 hp with hn | hp
      · exact (hne (eq_of_beq hn).symm).elim
      · exact ih hp
  | _ => cases hp

theorem Leads.touched_of_lookup (h : p.Leads s t) (hp : p.bindsOnly ok name = true)
    (hs : ∀ w, s.captures.lookup name = some w → Touched ok w) :
    ∀ w, t.captures.lookup name = some w → Touched ok w := by
  induction h with
  | one h =>
    obtain ⟨c, -, -, hcaptures⟩ := Place.spans_of_advance h
    rwa [hcaptures]
  | seq _ _ ih ih' =>
    obtain ⟨hp, hq⟩ := Bool.and_eq_true_iff.1 hp
    exact ih' hq (ih hp hs)
  | left _ ih => exact ih (Bool.and_eq_true_iff.1 hp).1 hs
  | right _ ih => exact ih (Bool.and_eq_true_iff.1 hp).2 hs
  | round _ _ ih ih' | timesRound _ _ ih ih' => exact ih' hp (ih hp hs)
  | capture h ih =>
    obtain ⟨htouch, hp⟩ := Bool.and_eq_true_iff.1 hp
    intro w hw
    obtain ⟨v, hv⟩ := h.spans
    rw [hv.lookup_bind] at hw
    split at hw
    · next heq =>
      rcases Bool.or_eq_true_iff.1 htouch with hne | htouch
      · exact (bne_iff_ne.1 hne heq.symm).elim
      · -- the text between two places is determined by them
        obtain ⟨v', hv', hc⟩ := h.touched htouch
        rw [← List.append_cancel_right (hv.1.symm.trans hv'.1), Option.some.inj hw] at hc
        exact hc
    · exact ih hp hs w hw
  | _ => exact hs

theorem lookup_of_match? (ok : CharSet → Bool) (name : Text) {line : Text} {captures : Captures}
    (h : p.match? line = some captures)
    (hb : p.binds name = true) (ho : p.bindsOnly ok name = true) :
    ∃ w, captures.lookup name = some w ∧ Touched ok w := by
  obtain ⟨t, ht, hcaptures⟩ := run_eq_some h
  cases hcaptures
  obtain ⟨w, hw⟩ := Option.isSome_iff_exists.1 (ht.lookup_isSome_of_binds hb)
  refine ⟨w, hw, ht.touched_of_lookup ho ?_ w hw⟩
  intro w hw
  cases hw

end Pattern

end DependencyAtlas
