import DependencyAtlas.Proofs.SourceFile.Extraction

namespace DependencyAtlas

namespace Place

structure Shifted (d : Nat) (s t : Place) : Prop where
  offset : t.offset = s.offset + d
  previous : t.previous.any Text.isWord = s.previous.any Text.isWord
  rest : t.rest = s.rest
  captures : t.captures = s.captures

variable {d : Nat} {s t s' t' : Place}

theorem Shifted.advance (h : Shifted d s t) (set : CharSet) :
    (∃ s' t', s.advance set = some s' ∧ t.advance set = some t' ∧ Shifted d s' t') ∨
      s.advance set = none ∧ t.advance set = none := by
  rw [Place.advance, Place.advance, h.rest]
  cases s.rest with
  | nil => exact .inr ⟨rfl, rfl⟩
  | cons c rest =>
    by_cases hc : set.contains c = true
    · have hoffset : t.offset + 1 = s.offset + 1 + d := by rw [h.offset, Nat.add_right_comm]
      exact .inl ⟨_, _, if_pos hc, if_pos hc, ⟨hoffset, rfl, rfl, h.captures⟩⟩
    · exact .inr ⟨if_neg hc, if_neg hc⟩

theorem Shifted.atWordEdge (h : Shifted d s t) : t.atWordEdge = s.atWordEdge := by
  rw [Place.atWordEdge, Place.atWordEdge, h.previous, h.rest]

theorem Shifted.bind (h : Shifted d s t) (h' : Shifted d s' t') (name : Text) :
    Shifted d (Place.bind name s s') (Place.bind name t t') := by
  have hlength : t'.offset - t.offset = s'.offset - s.offset := by
    rw [h.offset, h'.offset, Nat.add_sub_add_right]
  refine ⟨h'.offset, h'.previous, h'.rest, ?_⟩
  rw [Place.bind, Place.bind, h.rest, h'.captures, hlength]

end Place

namespace Pattern

/-- The pattern asks nowhere for the start of the text, nor for a text that is not empty. -/
def startless : Pattern → Bool
  | .start | .noWordEdge => false
  | .seq p q | .either p q => p.startless && q.startless
  | .many _ p | .times _ _ _ p | .capture _ p => p.startless
  | _ => true

section Shift

variable {α : Type} {d : Nat} {s t : Place} {k k' : Place → Option α}

theorem iterate_shifted {p : Pattern} {greedy : Bool}
    (hp : ∀ {s t : Place} {k k' : Place → Option α}, Place.Shifted d s t →
      (∀ s t, Place.Shifted d s t → k' t = k s) → p.run t k' = p.run s k)
    (n : Nat) (h : Place.Shifted d s t) (hk : ∀ s t, Place.Shifted d s t → k' t = k s) :
    Search.iterate greedy p.run n t k' = Search.iterate greedy p.run n s k := by
  induction n generalizing s t with
  | zero => exact hk s t h
  | succ n ih =>
    have hmore : (p.run t fun u => if t.offset < u.offset then Search.iterate greedy p.run n u k'
      else k' u) =
        p.run s fun u => if s.offset < u.offset then Search.iterate greedy p.run n u k
          else k u := by
      apply hp h
      intro u v huv
      rw [ih huv, hk u v huv, h.offset, huv.offset]
      simp only [Nat.add_lt_add_iff_right]
    simp only [Search.iterate, hmore, hk s t h]

theorem times_shifted {p : Pattern}
    (hp : ∀ {s t : Place} {k k' : Place → Option α}, Place.Shifted d s t →
      (∀ s t, Place.Shifted d s t → k' t = k s) → p.run t k' = p.run s k)
    (n : Nat) (h : Place.Shifted d s t) (hk : ∀ s t, Place.Shifted d s t → k' t = k s) :
    Search.times p.run n t k' = Search.times p.run n s k := by
  induction n generalizing s t with
  | zero => exact hk s t h
  | succ n ih =>
    apply hp h
    intro u v huv
    exact ih huv

/-- A pattern that does not ask for the start of the text answers the same with characters put in
front of it. -/
theorem run_shifted {p : Pattern} (hp : p.startless = true) (h : Place.Shifted d s t)
    (hk : ∀ s t, Place.Shifted d s t → k' t = k s) : p.run t k' = p.run s k := by
  induction p generalizing s t k k' with
  | empty => exact hk s t h
  | one set =>
    rcases h.advance set with ⟨s', t', hs, ht, h'⟩ | ⟨hs, ht⟩
    · rw [run, run, hs, ht, Option.bind_some, Option.bind_some, hk s' t' h']
    · rw [run, run, hs, ht, Option.bind_none, Option.bind_none]
  | start => cases hp
  | finish => rw [run, run, h.rest, hk s t h]
  | textEnd => rw [run, run, h.rest, hk s t h]
  | wordEdge => rw [run, run, h.atWordEdge, hk s t h]
  | noWordEdge => cases hp
  | seq p q ihp ihq =>
    obtain ⟨hp, hq⟩ := Bool.and_eq_true_iff.1 hp
    apply ihp hp h
    intro u v huv
    exact ihq hq huv hk
  | either p q ihp ihq =>
    obtain ⟨hp, hq⟩ := Bool.and_eq_true_iff.1 hp
    rw [run, run, ihp hp h hk, ihq hq h hk]
  | many greedy p ih =>
    rw [run, run, h.rest]
    exact iterate_shifted (ih hp) _ h hk
  | times greedy least more p ih =>
    apply times_shifted (ih hp) least h
    intro u v huv
    exact iterate_shifted (ih hp) more huv hk
  | capture name p ih =>
    apply ih hp h
    intro u v huv
    exact hk _ _ (h.bind huv name)

end Shift

mutual

/-- The pattern matches nowhere before a blank. -/
def refuses : Pattern → Bool
  | .one set => set.visible
  | .seq p q => p.refuses || p.stays && q.refuses
  | .either p q => p.refuses && q.refuses
  | .capture _ p => p.refuses
  | _ => false

/-- Before a blank the pattern matches the empty text, if anything. -/
def stays : Pattern → Bool
  | .one set => set.visible
  | .seq p q => p.refuses || p.stays && q.stays
  | .either p q => p.stays && q.stays
  | .many _ p | .times _ _ _ p | .capture _ p => p.stays
  | _ => true

end

section Blank

variable {c : Char} {r : Text} {s t : Place}

theorem advance_eq_none_of_visible {set : CharSet} (hset : set.visible = true)
    (hrest : s.rest = c :: r) (hc : Text.isBlank c = true) : s.advance set = none := by
  cases hadvance : s.advance set with
  | none => rfl
  | some t =>
    obtain ⟨d, hspans, hcontains, -⟩ := Place.spans_of_advance hadvance
    have hd : c = d := (List.cons.inj (hrest.symm.trans hspans.1)).1
    rw [hd, CharSet.isBlank_of_visible hset hcontains] at hc
    cases hc

theorem Leads.of_blank {p : Pattern} (h : p.Leads s t) (hrest : s.rest = c :: r)
    (hc : Text.isBlank c = true) :
    p.refuses = false ∧ (p.stays = true → t.rest = s.rest) := by
  induction h with
  | @one set s t h =>
    have hset : set.visible = false := by
      rw [← Bool.not_eq_true]
      intro hset
      rw [advance_eq_none_of_visible hset hrest hc] at h
      cases h
    exact ⟨hset, fun hstays => nomatch hset.symm.trans hstays⟩
  | @seq p q s t u hst htu ihp ihq =>
    obtain ⟨hp, hpstays⟩ := ihp hrest
    simp only [refuses, stays, hp, Bool.false_or]
    cases hstays : p.stays with
    | false => exact ⟨rfl, fun h => nomatch h⟩
    | true =>
      have ht := hpstays hstays
      obtain ⟨hq, hqstays⟩ := ihq (ht.trans hrest)
      exact ⟨hq, fun h => (hqstays h).trans ht⟩
  | @left p q s t h ih =>
    obtain ⟨hp, hstays⟩ := ih hrest
    exact ⟨by rw [refuses, hp, Bool.false_and], fun h => hstays (Bool.and_eq_true_iff.1 h).1⟩
  | @right p q s t h ih =>
    obtain ⟨hq, hstays⟩ := ih hrest
    exact ⟨by rw [refuses, hq, Bool.and_false], fun h => hstays (Bool.and_eq_true_iff.1 h).2⟩
  | round hst htu ih ih' | timesRound hst htu ih ih' =>
    refine ⟨rfl, fun hstays => ?_⟩
    have ht := (ih hrest).2 hstays
    exact ((ih' (ht.trans hrest)).2 hstays).trans ht
  | capture h ih => exact ih hrest
  | _ => exact ⟨rfl, fun _ => rfl⟩

theorem run_eq_none_of_refuses {α : Type} {p : Pattern} {k : Place → Option α}
    (hp : p.refuses = true) (hrest : s.rest = c :: r) (hc : Text.isBlank c = true) :
    p.run s k = none := by
  cases hrun : p.run s k with
  | none => rfl
  | some a =>
    obtain ⟨t, hleads, -⟩ := run_eq_some hrun
    rw [(hleads.of_blank hrest hc).1] at hp
    cases hp

end Blank

def afterIndent : Pattern → Option Pattern
  | .seq p q => if p = start ∧ q = blanks then some empty else p.afterIndent.map fun r => r ++ q
  | _ => none

theorem run_afterIndent {α : Type} {p q : Pattern} (h : p.afterIndent = some q) (s : Place)
    (k : Place → Option α) :
    p.run s k = (lineStart ++ q).run s k := by
  induction p generalizing q k with
  | seq p r ih =>
    rw [afterIndent] at h
    split at h
    · next hstart =>
      obtain ⟨rfl, rfl⟩ := hstart
      cases h
      rfl
    · obtain ⟨q', hq', rfl⟩ := Option.map_eq_some_iff.1 h
      exact ih hq' fun t => r.run t k
  | _ => cases h

/-- The pattern starts with any indentation, and goes on with a character that is no blank. -/
def isIndentable (p : Pattern) : Bool :=
  p.afterIndent.any fun q => q.startless && q.refuses

theorem blank_contains {c : Char} (hc : Text.isBlank c = true) :
    CharSet.contains ⟨[.blank], false⟩ c = true := by
  simp [CharSet.contains, CharItem.holds, hc]

theorem run_blanks_cons {α : Type} {k : Place → Option α} {s : Place} {c : Char} {r : Text}
    (hrest : s.rest = c :: r) (hc : Text.isBlank c = true) (hk : k s = none) :
    blanks.run s k =
      blanks.run { s with offset := s.offset + 1, previous := some c, rest := r } k := by
  have hadvance : s.advance ⟨[.blank], false⟩ =
      some { s with offset := s.offset + 1, previous := some c, rest := r } := by
    rw [Place.advance, hrest]
    exact if_pos (blank_contains hc)
  simp only [blanks, many0, run, hrest, List.length_cons]
  rw [Search.iterate]
  simp only [blank, run, hadvance, Option.bind_some, Nat.lt_succ_self, if_true, hk]
  rw [Option.orElse_eq_or, Option.or_none]

theorem run_blanks_append {α : Type} {k : Place → Option α} {w line : Text} {s : Place}
    (hw : ∀ c ∈ w, Text.isBlank c = true)
    (hk : ∀ s c r, s.rest = c :: r → Text.isBlank c = true → k s = none)
    (hrest : s.rest = w ++ line) (hprevious : s.previous.any Text.isWord = false) :
    ∃ t, Place.Shifted w.length { s with rest := line } t ∧ blanks.run s k = blanks.run t k := by
  induction w generalizing s with
  | nil => exact ⟨s, ⟨rfl, rfl, hrest, rfl⟩, rfl⟩
  | cons c w ih =>
    obtain ⟨hc, hw⟩ := List.forall_mem_cons.1 hw
    have hcword := Text.isWord_eq_false_of_isBlank hc
    let next : Place := { s with offset := s.offset + 1, previous := some c, rest := w ++ line }
    obtain ⟨t, hshifted, hrun⟩ := ih (s := next) hw rfl hcword
    have hoffset : t.offset = s.offset + (c :: w).length := by
      rw [hshifted.offset, List.length_cons, Nat.add_right_comm, Nat.add_assoc]
    have hsame : t.previous.any Text.isWord = s.previous.any Text.isWord :=
      hshifted.previous.trans (hcword.trans hprevious.symm)
    exact ⟨t, ⟨hoffset, hsame, hshifted.rest, hshifted.captures⟩,
      (run_blanks_cons hrest hc (hk s c _ hrest hc)).trans hrun⟩

theorem match?_indented {p : Pattern} (hp : p.isIndentable = true) {w : Text}
    (hw : ∀ c ∈ w, Text.isBlank c = true) (line : Text) : p.match? (w ++ line) = p.match? line := by
  obtain ⟨q, hq, hready⟩ := (Option.any_eq_true _ _).1 hp
  obtain ⟨hstartless, hrefuses⟩ := Bool.and_eq_true_iff.1 hready
  let k : Place → Option Captures := fun s => some s.captures
  have hmatch (t : Text) : p.match? t = blanks.run { rest := t } fun s => q.run s k :=
    run_afterIndent hq _ _
  obtain ⟨t, hshifted, hrun⟩ :=
    run_blanks_append (k := fun s => q.run s k) (s := { rest := w ++ line }) hw
    (fun s c r hrest hc => run_eq_none_of_refuses hrefuses hrest hc) rfl rfl
  rw [hmatch, hmatch, hrun]
  apply run_shifted rfl hshifted
  intro u v huv
  apply run_shifted hstartless huv
  intro u v huv
  exact congrArg some huv.captures

end Pattern

def Matcher.AllIndentable (ms : List Matcher) : Prop :=
  ∀ m ∈ ms, m.pattern.isIndentable = true

theorem Matcher.AllIndentable.first?_append {ms : List Matcher} (h : AllIndentable ms) {w : Text}
    (hw : ∀ c ∈ w, Text.isBlank c = true) (line : Text) :
    first? ms (w ++ line) = first? ms line := by
  induction ms with
  | nil => rfl
  | cons m ms ih =>
    obtain ⟨hm, hms⟩ := List.forall_mem_cons.1 h
    have hfind : m.find? (w ++ line) = m.find? line := by
      rw [find?_eq, find?_eq, Pattern.match?_indented hm hw]
    rw [first?, first?, List.findSome?_cons, List.findSome?_cons, hfind]
    cases m.find? line with
    | some found => rfl
    | none => exact ih hms

theorem answers_allIndentable (f : SourceFile) (layer : Layer) :
    Answers (f.matchers builtinRules layer) Matcher.AllIndentable := by
  have hgives : ∀ r ∈ builtinRules.rules f.language layer,
      r.gives (fun m => m.pattern.isIndentable) = true := by
    cases f.language <;> cases layer <;> decide +kernel
  exact SourceFile.answers_matchers_of (RuleTables.answers_of_gives hgives)

end DependencyAtlas
