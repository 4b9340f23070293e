import DependencyAtlas.Proofs.FirstSeen
import DependencyAtlas.Proofs.Ledger.Sharing
import Mathlib.Data.List.Perm.Basic

namespace DependencyAtlas

attribute [ext] ReleaseStats

def Emptied.item? : Emptied → Option Item
  | .method k => some (.method k)
  | .structureAt k => some (.structureAt k)
  | .node _ => none

def ReleaseTask.left? : ReleaseTask → Option Item
  | .leave thing => thing.item?
  | _ => none

@[simp] theorem Item.item?_emptied (x : Item) : x.emptied.item? = some x := by
  cases x <;> rfl

@[simp] theorem Item.left?_enter (x : Item) : x.enter.left? = none := by
  cases x <;> rfl

theorem Emptied.item?_eq_some {thing : Emptied} {x : Item} :
    thing.item? = some x ↔ thing = x.emptied := by
  cases thing <;> cases x <;> simp [item?, Item.emptied]

namespace Ledger

def emptiedBy (l : Ledger) : ReleaseTask → List Emptied
  | .leave thing => [thing]
  | .enterMethod m => (l.walk m).map .method
  | .enterStructure s => .structureAt s :: ((l.structureAt s).methods.flatMap l.walk).map .method

section Plan

variable {l : Ledger} {ms ss : List Nat} {tasks : List ReleaseTask} {x : Item} {m : MethodKey}

theorem leave_or_unmet_of_mem (hx : x.emptied ∈ (l.planFrom ms ss tasks).emptied) :
    .leave x.emptied ∈ tasks ∨ ¬Met ms ss x := by
  revert hx
  refine planFrom_induction l (motive := fun ms ss tasks => x.emptied ∈
    (l.planFrom ms ss tasks).emptied →
    .leave x.emptied ∈ tasks ∨ ¬Met ms ss x) ?nil ?leave ?unknown ?again ?enter
  case nil =>
    intro ms ss hx
    rw [planFrom] at hx
    cases hx
  case leave =>
    intro ms ss thing rest ih hx
    rw [planFrom_leave] at hx
    rcases List.mem_cons.1 hx with he | hx
    · exact .inl (he ▸ List.mem_cons_self)
    · exact (ih hx).imp_left (List.mem_cons_of_mem _)
  case unknown =>
    intro ms ss y rest hy ih hx
    rw [planFrom_unknown hy] at hx
    exact (ih hx).imp_left (List.mem_cons_of_mem _)
  case again =>
    intro ms ss y rest hy hm hx
    rw [planFrom_again hy hm] at hx
    cases hx
  case enter =>
    intro ms ss y rest hy hm ih hx
    rw [planFrom_enter hy hm] at hx
    by_cases he : x = y
    · exact .inr (he ▸ hm)
    · rcases ih hx with hleave | hunmet
      · have hno : ∀ z : Item, z.enter ≠ .leave x.emptied := by
          intro z
          cases z <;> simp [Item.enter]
        have hne : x.emptied ≠ y.emptied := by
          intro h
          apply he
          cases x <;> cases y <;> simp_all [Item.emptied]
        have hrest : .leave x.emptied ∈ rest := by
          simpa [hno, hne] using hleave
        exact .inl (List.mem_cons_of_mem _ hrest)
      · rw [met_iff, not_or] at hunmet
        exact .inr hunmet.2

theorem filterMap_left?_enter (y : Item) (rest : List ReleaseTask) :
    ((l.contents y.asOwner).map Item.enter ++ .leave y.emptied :: rest).filterMap
      ReleaseTask.left? =
      y :: rest.filterMap ReleaseTask.left? := by
  have hnone : ((l.contents y.asOwner).map Item.enter).filterMap ReleaseTask.left? = [] := by
    apply List.filterMap_eq_nil_iff.2
    intro task htask
    obtain ⟨z, -, rfl⟩ := List.mem_map.1 htask
    exact Item.left?_enter z
  rw [List.filterMap_append, hnone, List.nil_append]
  cases y <;> rfl

/-- Nothing is emptied twice, provided that what is still to be left has been entered. -/
theorem nodup_emptied (hleft : (tasks.filterMap ReleaseTask.left?).Nodup)
    (hmet : ∀ x ∈ tasks.filterMap ReleaseTask.left?, Met ms ss x) :
    ((l.planFrom ms ss tasks).emptied.filterMap Emptied.item?).Nodup := by
  revert hleft hmet
  refine planFrom_induction l (motive := fun ms ss tasks =>
    (tasks.filterMap ReleaseTask.left?).Nodup →
    (∀ x ∈ tasks.filterMap ReleaseTask.left?, Met ms ss x) →
    ((l.planFrom ms ss tasks).emptied.filterMap Emptied.item?).Nodup) ?nil ?leave ?unknown
      ?again ?enter
  case nil =>
    intro ms ss _ _
    rw [planFrom]
    exact List.nodup_nil
  case leave =>
    intro ms ss thing rest ih hleft hmet
    rw [planFrom_leave]
    rw [List.filterMap_cons, ReleaseTask.left?] at hleft hmet
    rw [List.filterMap_cons]
    cases hthing : thing.item? with
    | none =>
      rw [hthing] at hleft hmet
      exact ih hleft hmet
    | some x =>
      rw [hthing] at hleft hmet
      obtain rfl := Emptied.item?_eq_some.1 hthing
      apply List.nodup_cons.2
      constructor
      · intro hx
        obtain ⟨other, hother, he⟩ := List.mem_filterMap.1 hx
        rw [Emptied.item?_eq_some.1 he] at hother
        rcases leave_or_unmet_of_mem hother with hleave | hunmet
        · exact (List.nodup_cons.1 hleft).1 (List.mem_filterMap.2 ⟨_, hleave, hthing⟩)
        · exact hunmet (hmet x List.mem_cons_self)
      · exact ih (List.nodup_cons.1 hleft).2 fun y hy => hmet y (List.mem_cons_of_mem _ hy)
  case unknown =>
    intro ms ss x rest hx ih hleft hmet
    rw [List.filterMap_cons, Item.left?_enter] at hleft hmet
    rw [planFrom_unknown hx]
    exact ih hleft hmet
  case again =>
    intro ms ss x rest hx hm _ _
    rw [planFrom_again hx hm]
    exact List.nodup_nil
  case enter =>
    intro ms ss x rest hx hm ih hleft hmet
    rw [List.filterMap_cons, Item.left?_enter] at hleft hmet
    rw [filterMap_left?_enter] at ih
    rw [planFrom_enter hx hm]
    apply ih
    · exact List.nodup_cons.2 ⟨fun hin => hm (hmet x hin), hleft⟩
    · intro y hy
      rw [met_iff]
      rcases List.mem_cons.1 hy with rfl | hy
      · exact .inl rfl
      · exact .inr (hmet y hy)

theorem exists_trail_cons_iff {xs : List Item} {y : Item} :
    (∃ p, l.Trail (y :: xs) p x) ↔ x = y ∨ ∃ p, l.Trail (l.contents y.asOwner ++ xs) p x := by
  have happend : ∀ ys zs : List Item, (∃ p, l.Trail (ys ++ zs) p x) ↔ (∃ p, l.Trail ys p x) ∨
      ∃ p, l.Trail zs p x := by
    intro ys zs
    simp only [trail_append_iff, exists_or]
    apply or_congr_right
    constructor
    · rintro ⟨p, i, q, rfl, h⟩
      exact ⟨i :: q, h⟩
    · rintro ⟨p, h⟩
      obtain ⟨i, q, rfl⟩ := h.exists_cons
      exact ⟨_, i, q, rfl, h⟩
  have hsingle : (∃ p, l.Trail [y] p x) ↔ x = y ∨ ∃ p, l.Trail (l.contents y.asOwner) p x := by
    simp only [trail_singleton_iff, exists_or]
    apply or_congr
    · simp
    · constructor
      · rintro ⟨p, q, -, h⟩
        exact ⟨q, h⟩
      · rintro ⟨q, h⟩
        exact ⟨0 :: q, q, rfl, h⟩
  rw [← List.singleton_append, happend, happend, hsingle, or_assoc]

theorem exists_trail_of_emptied (hx : x.emptied ∈ (l.planFrom ms ss tasks).emptied) :
    .leave x.emptied ∈ tasks ∨ ∃ p, l.Trail (tasks.filterMap ReleaseTask.item?) p x := by
  revert hx
  refine planFrom_induction l (motive := fun ms ss tasks => x.emptied ∈
    (l.planFrom ms ss tasks).emptied →
    .leave x.emptied ∈ tasks ∨ ∃ p, l.Trail (tasks.filterMap ReleaseTask.item?) p x) ?nil ?leave
      ?unknown ?again ?enter
  case nil =>
    intro ms ss hx
    rw [planFrom] at hx
    cases hx
  case leave =>
    intro ms ss thing rest ih hx
    rw [planFrom_leave] at hx
    rcases List.mem_cons.1 hx with he | hx
    · exact .inl (he ▸ List.mem_cons_self)
    · exact (ih hx).imp_left (List.mem_cons_of_mem _)
  case unknown =>
    intro ms ss y rest hy ih hx
    rw [planFrom_unknown hy] at hx
    rw [List.filterMap_cons, Item.item?_enter, exists_trail_cons_iff]
    rcases ih hx with hleave | ⟨p, hp⟩
    · exact .inl (List.mem_cons_of_mem _ hleave)
    · obtain ⟨i, q, rfl⟩ := hp.exists_cons
      exact .inr (.inr ⟨_, trail_append_iff.2 (.inr ⟨i, q, rfl, hp⟩)⟩)
  case again =>
    intro ms ss y rest hy hm hx
    rw [planFrom_again hy hm] at hx
    cases hx
  case enter =>
    intro ms ss y rest hy hm ih hx
    rw [planFrom_enter hy hm] at hx
    rw [List.filterMap_cons, Item.item?_enter, exists_trail_cons_iff]
    rw [List.filterMap_append, filterMap_item?_map_enter, List.filterMap_cons] at ih
    rcases ih hx with hleave | htrail
    · have hno : ∀ z : Item, z.enter ≠ .leave x.emptied := by
        intro z
        cases z <;> simp [Item.enter]
      rcases List.mem_append.1 hleave with hin | hin
      · obtain ⟨z, -, he⟩ := List.mem_map.1 hin
        exact (hno z he).elim
      · rcases List.mem_cons.1 hin with he | hin
        · have hxy : x.emptied = y.emptied := by simpa using he
          exact .inr (.inl (Option.some.inj (by simpa using congrArg Emptied.item? hxy)))
        · exact .inl (List.mem_cons_of_mem _ hin)
    · exact .inr (.inr htrail)

variable (hl : l.Closed) (hknown : ∀ x : Item, x.enter ∈ tasks → l.Has x.asOwner)

include hl hknown

/-- One level more adds nothing to the walk through a method that is entered, if it may go down as
many levels as there are methods that have not been entered. -/
theorem walkFrom_succ_of_enter (h : (l.planFrom ms ss tasks).fault = none) {n : Nat}
    (hn : FirstSeen.remaining (List.range l.methods.length) ms ≤ n)
    (hm : (Item.method m).enter ∈ tasks) :
    l.walkFrom (n + 1) m = l.walkFrom n m := by
  revert h hn hm m n
  refine known_induction (motive := fun ms ss tasks => ∀ {m : MethodKey},
    (l.planFrom ms ss tasks).fault = none →
    ∀ {n : Nat}, FirstSeen.remaining (List.range l.methods.length) ms ≤ n →
      (Item.method m).enter ∈ tasks →
    l.walkFrom (n + 1) m = l.walkFrom n m) hl ?nil ?leave ?again ?enter hknown
  case nil =>
    intro ms ss m _ n _ hm
    cases hm
  case leave =>
    intro ms ss thing rest ih m h n hn hm
    rw [planFrom_leave] at h
    exact ih h hn (List.mem_of_ne_of_mem (by simp [Item.enter]) hm)
  case again =>
    intro ms ss x rest hx hmet m h
    rw [planFrom_again hx hmet] at h
    cases h
  case enter =>
    intro ms ss x rest hx _ hmet ih m h n hn hm
    rw [planFrom_enter hx hmet] at h
    rcases List.mem_cons.1 hm with he | hm
    · obtain rfl := Item.enter_injective he
      have hlt : FirstSeen.remaining (List.range l.methods.length) (m.index :: ms) < n :=
        Nat.lt_of_lt_of_le (FirstSeen.remaining_cons_lt (List.mem_range.2 hx) hmet) hn
      cases n with
      | zero => exact absurd hlt (Nat.not_lt_zero _)
      | succ n =>
        have hinside : ∀ c ∈ (l.method m).children, l.walkFrom (n + 1) c = l.walkFrom n c := by
          intro c hc
          apply ih h (Nat.le_of_lt_succ hlt)
          exact List.mem_append_left _ (List.mem_map_of_mem (List.mem_map_of_mem hc))
        rw [walkFrom, walkFrom, List.flatMap_congr hinside]
    · have hle : FirstSeen.remaining (List.range l.methods.length) (metMethods ms x) ≤ n := by
        cases x with
        | method k => exact Nat.le_trans (FirstSeen.remaining_cons_le ..) hn
        | structureAt k => exact hn
      exact ih h hle (List.mem_append_right _ (List.mem_cons_of_mem _ hm))

end Plan

section Emptied

variable {l : Ledger} {ms ss : List Nat} {tasks rest : List ReleaseTask} {x : Item} {m : MethodKey}

theorem walk_of_enter (hl : l.Closed) (hrest : ∀ y : Item, y.enter ∈ rest → l.Has y.asOwner)
    (hm : m.index < l.methods.length) (hmet : m.index ∉ ms)
    (h : (l.planFrom (m.index :: ms) ss
      ((l.contents (.ofMethod m)).map Item.enter ++ .leave (.method m) :: rest)).fault = none) :
    l.walk m = m :: (l.method m).children.flatMap l.walk := by
  have hlt :
      FirstSeen.remaining (List.range l.methods.length) (m.index :: ms) < l.methods.length := by
    apply Nat.lt_of_lt_of_le (FirstSeen.remaining_cons_lt (List.mem_range.2 hm) hmet)
    simpa using FirstSeen.remaining_le (List.range l.methods.length) ms
  obtain ⟨n, hn⟩ := Nat.exists_eq_succ_of_ne_zero (Nat.ne_of_gt (Nat.zero_lt_of_lt hlt))
  rw [hn] at hlt
  have hinside : ∀ c ∈ (l.method m).children, l.walk c = l.walkFrom n c := by
    intro c hc
    rw [walk, hn]
    apply walkFrom_succ_of_enter hl (fun y hy => known_enter hl hrest (.method m) hy) h
    · rw [hn]
      exact Nat.le_of_lt_succ hlt
    · exact List.mem_append_left _ (List.mem_map_of_mem (List.mem_map_of_mem hc))
  rw [List.flatMap_congr hinside, walk, hn, walkFrom]

theorem emptiedBy_enter (hl : l.Closed) (hrest : ∀ y : Item, y.enter ∈ rest → l.Has y.asOwner)
    (hx : l.Has x.asOwner) (hmet : ¬Met ms ss x)
    (h : (l.planFrom (metMethods ms x) (metStructures ss x)
      ((l.contents x.asOwner).map Item.enter ++ .leave x.emptied :: rest)).fault = none) :
    l.emptiedBy x.enter = x.emptied :: (l.contents x.asOwner).flatMap fun y =>
      l.emptiedBy y.enter := by
  cases x with
  | method k =>
    rw [Item.enter, emptiedBy, walk_of_enter hl hrest hx hmet h]
    simp only [List.map_cons, List.map_flatMap, Item.asOwner, contents, List.flatMap_map,
      Item.emptied, Item.enter, emptiedBy]
  | structureAt k =>
    simp only [Item.enter, emptiedBy, List.map_flatMap, Item.asOwner, contents, List.flatMap_map,
      Item.emptied]

theorem emptied_of_trail (hl : l.Closed) (hknown : ∀ x : Item, x.enter ∈ tasks → l.Has x.asOwner)
    (h : (l.planFrom ms ss tasks).fault = none)
    (hx : ∃ p, l.Trail (tasks.filterMap ReleaseTask.item?) p x) :
    x.emptied ∈ (l.planFrom ms ss tasks).emptied := by
  revert h hx
  refine known_induction (motive := fun ms ss tasks => (l.planFrom ms ss tasks).fault = none →
    (∃ p, l.Trail (tasks.filterMap ReleaseTask.item?) p x) →
      x.emptied ∈ (l.planFrom ms ss tasks).emptied) hl ?nil
    ?leave ?again ?enter hknown
  case nil =>
    intro ms ss _ hx
    obtain ⟨p, hp⟩ := hx
    exact (not_trail_nil hp).elim
  case leave =>
    intro ms ss thing rest ih h hx
    rw [planFrom_leave] at h ⊢
    exact List.mem_cons_of_mem _ (ih h hx)
  case again =>
    intro ms ss y rest hy hmet h
    rw [planFrom_again hy hmet] at h
    cases h
  case enter =>
    intro ms ss y rest hy _ hmet ih h hx
    rw [planFrom_enter hy hmet] at h ⊢
    rw [List.filterMap_cons, Item.item?_enter, exists_trail_cons_iff] at hx
    rcases hx with rfl | hx
    · exact leave_mem_emptied h (List.mem_append_right _ List.mem_cons_self)
    · apply ih h
      rw [List.filterMap_append, filterMap_item?_map_enter, List.filterMap_cons]
      exact hx

theorem emptied_perm (hl : l.Closed) (hknown : ∀ x : Item, x.enter ∈ tasks → l.Has x.asOwner)
    (h : (l.planFrom ms ss tasks).fault = none) :
    (l.planFrom ms ss tasks).emptied.Perm (tasks.flatMap l.emptiedBy) := by
  revert h
  refine known_induction (motive := fun ms ss tasks => (l.planFrom ms ss tasks).fault = none →
    (l.planFrom ms ss tasks).emptied.Perm (tasks.flatMap l.emptiedBy)) hl ?nil ?leave ?again
      ?enter hknown
  case nil =>
    intro ms ss _
    rw [planFrom]
    exact .refl _
  case leave =>
    intro ms ss thing rest ih h
    rw [planFrom_leave] at h ⊢
    exact (ih h).cons thing
  case again =>
    intro ms ss x rest hx hmet h
    rw [planFrom_again hx hmet] at h
    cases h
  case enter =>
    intro ms ss x rest hx hrest hmet ih h
    rw [planFrom_enter hx hmet] at h ⊢
    apply (ih h).trans
    rw [List.flatMap_append, List.flatMap_map, List.flatMap_cons, List.flatMap_cons,
      emptiedBy_enter hl hrest hx hmet h]
    exact List.perm_middle

end Emptied

section Counting

/-- What emptying a thing of the ledger drops. -/
def dropped (l : Ledger) : Emptied → ReleaseStats
  | .method k =>
    { methods := 1
      parameters := (l.method k).head.parameters.length
      references := (l.method k).references.length }
  | .structureAt _ => { structures := 1 }
  | .node _ => { nodes := 1 }

variable {things : List Emptied}

theorem dropped_emptyOut {state : ReleaseStats × Ledger} {thing other : Emptied}
    (h : ∀ k, thing = .method k → other ≠ .method k) :
    (emptyOut state thing).2.dropped other = state.2.dropped other := by
  cases other with
  | method k =>
    rw [dropped, method_emptyOut, if_neg fun he => h k he rfl]
    rfl
  | structureAt k => rfl
  | node k => rfl

/-- A count that each thing adds to is the sum over the things, provided that no item is among them
twice. -/
theorem count_foldl_emptyOut {count : ReleaseStats → Nat}
    (hcount : ∀ state thing, count (emptyOut state thing).1 =
      count state.1 + count (state.2.dropped thing))
    (hnodup : (things.filterMap Emptied.item?).Nodup) (state : ReleaseStats × Ledger) :
    count (things.foldl emptyOut state).1 =
      count state.1 + addUp (things.map fun t => count (state.2.dropped t)) := by
  induction things generalizing state with
  | nil => rfl
  | cons thing things ih =>
    have hrest : (things.filterMap Emptied.item?).Nodup := by
      rw [List.filterMap_cons] at hnodup
      split at hnodup
      · exact hnodup
      · exact (List.nodup_cons.1 hnodup).2
    have hkept :
        ∀ other ∈ things, (emptyOut state thing).2.dropped other = state.2.dropped other := by
      intro other hother
      apply dropped_emptyOut
      intro k hk he
      have hin : .method k ∈ things.filterMap Emptied.item? :=
        List.mem_filterMap.2 ⟨other, hother, he ▸ rfl⟩
      rw [List.filterMap_cons, hk, Emptied.item?] at hnodup
      exact (List.nodup_cons.1 hnodup).1 hin
    rw [List.foldl_cons, ih hrest, hcount, List.map_cons, addUp_cons, Nat.add_assoc]
    congr 3
    apply List.map_congr_left
    intro other hother
    rw [hkept other hother]

end Counting

end Ledger

end DependencyAtlas
