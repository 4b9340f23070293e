import DependencyAtlas.Proofs.Ledger.Release

namespace DependencyAtlas

def ReleaseTask.item? : ReleaseTask → Option Item
  | .enterMethod k => some (.method k)
  | .enterStructure k => some (.structureAt k)
  | .leave _ => none

@[simp] theorem Item.item?_enter (x : Item) : x.enter.item? = some x := by
  cases x <;> rfl

theorem Item.enter_injective {x y : Item} (h : x.enter = y.enter) : x = y := by
  simpa using congrArg ReleaseTask.item? h

theorem filterMap_item?_map_enter (xs : List Item) :
    (xs.map Item.enter).filterMap ReleaseTask.item? = xs := by
  induction xs with
  | nil => rfl
  | cons x xs ih => rw [List.map_cons, List.filterMap_cons, Item.item?_enter, ih]

namespace Ledger

theorem contentTasks_eq (ss : List StructureKey) (ms : List MethodKey) :
    contentTasks ss ms = (ss.map Item.structureAt ++ ms.map Item.method).map Item.enter := by
  simp [contentTasks, Item.enter, Function.comp_def]

variable {l : Ledger} {xs ys : List Item} {p q : List Nat} {x y : Item} {seen : Item → Prop}

/-- A ledger in which nothing is listed that was never entered. -/
def Closed (l : Ledger) : Prop :=
  ∀ o x, x ∈ l.contents o → l.Has x.asOwner

theorem Exclusive.closed (h : l.Exclusive) : l.Closed := by
  intro o x hx
  exact has_of_ownerOf (h o x hx)

theorem has_listMethod (l : Ledger) (owner : Owner) (m : MethodKey) (o : Owner) :
    (l.listMethod owner m).Has o ↔ l.Has o := by
  cases owner <;> cases o <;> simp [listMethod, Has, updateMethod, updateStructure, updateRecord,
    updateNode]

theorem Closed.listMethod {owner : Owner} {m : MethodKey} (h : l.Closed)
    (hm : l.Has (.ofMethod m)) :
    (l.listMethod owner m).Closed := by
  intro o x hx
  apply (has_listMethod ..).2
  rw [contents_listMethod] at hx
  split at hx
  · rcases List.mem_append.1 hx with hx | hx
    · exact h o x hx
    · rw [List.mem_singleton.1 hx]
      exact hm
  · exact h o x hx

inductive Trail (l : Ledger) : List Item → List Nat → Item → Prop where
  | here {xs : List Item} {i : Nat} {x : Item} : xs[i]? = some x → Trail l xs [i] x
  | inside {xs : List Item} {i : Nat} {p : List Nat} {x y : Item} :
      xs[i]? = some y → Trail l (l.contents y.asOwner) p x → Trail l xs (i :: p) x

theorem not_trail_nil : ¬l.Trail [] p x := by
  intro h
  cases h with
  | here hi => simp at hi
  | inside hi _ => simp at hi

theorem trail_cons_iff {i : Nat} :
    l.Trail xs (i :: p) x ↔ ∃ y, xs[i]? = some y ∧
      (p = [] ∧ x = y ∨ l.Trail (l.contents y.asOwner) p x) := by
  constructor
  · intro h
    cases h with
    | here hi => exact ⟨x, hi, .inl ⟨rfl, rfl⟩⟩
    | inside hi h => exact ⟨_, hi, .inr h⟩
  · intro h
    obtain ⟨y, hi, ⟨rfl, rfl⟩ | h⟩ := h
    · exact .here hi
    · exact .inside hi h

theorem Trail.exists_cons (h : l.Trail xs p x) : ∃ i q, p = i :: q := by
  cases h with
  | here _ => exact ⟨_, _, rfl⟩
  | inside _ _ => exact ⟨_, _, rfl⟩

theorem trail_append_iff :
    l.Trail (xs ++ ys) p x ↔ l.Trail xs p x ∨ ∃ i q, p = (xs.length + i) :: q ∧
      l.Trail ys (i :: q) x := by
  constructor
  · intro h
    obtain ⟨i, q, rfl⟩ := h.exists_cons
    obtain ⟨y, hi, hy⟩ := trail_cons_iff.1 h
    by_cases hlt : i < xs.length
    · rw [List.getElem?_append_left hlt] at hi
      exact .inl (trail_cons_iff.2 ⟨y, hi, hy⟩)
    · have hle := Nat.le_of_not_lt hlt
      rw [List.getElem?_append_right hle] at hi
      exact .inr ⟨i - xs.length, q, by rw [Nat.add_sub_cancel' hle], trail_cons_iff.2 ⟨y, hi, hy⟩⟩
  · intro h
    rcases h with h | ⟨i, q, rfl, h⟩
    · obtain ⟨i, q, rfl⟩ := h.exists_cons
      obtain ⟨y, hi, hy⟩ := trail_cons_iff.1 h
      have hlt : i < xs.length := (List.getElem?_eq_some_iff.1 hi).1
      exact trail_cons_iff.2 ⟨y, by rwa [List.getElem?_append_left hlt], hy⟩
    · obtain ⟨y, hi, hy⟩ := trail_cons_iff.1 h
      apply trail_cons_iff.2
      exact ⟨y,
        by rwa [List.getElem?_append_right (Nat.le_add_right ..), Nat.add_sub_cancel_left], hy⟩

theorem trail_singleton_iff :
    l.Trail [y] p x ↔ (p = [0] ∧ x = y) ∨ ∃ q, p = 0 :: q ∧ l.Trail (l.contents y.asOwner) q x := by
  constructor
  · intro h
    obtain ⟨i, q, rfl⟩ := h.exists_cons
    obtain ⟨z, hi, hz⟩ := trail_cons_iff.1 h
    obtain ⟨rfl, rfl⟩ : i = 0 ∧ y = z := by simpa [List.getElem?_singleton] using hi
    rcases hz with ⟨rfl, rfl⟩ | hz
    · exact .inl ⟨rfl, rfl⟩
    · exact .inr ⟨q, rfl, hz⟩
  · intro h
    rcases h with ⟨rfl, rfl⟩ | ⟨q, rfl, h⟩
    · exact .here rfl
    · exact .inside rfl h

theorem Trail.last (h : l.Trail xs p x) :
    ∃ q i, p = q ++ [i] ∧
      (q = [] ∧ xs[i]? = some x ∨ ∃ y, l.Trail xs q y ∧ (l.contents y.asOwner)[i]? = some x) := by
  induction h with
  | here hi => exact ⟨[], _, rfl, .inl ⟨rfl, hi⟩⟩
  | @inside xs i p x y hi _ ih =>
    obtain ⟨q, j, rfl, ⟨rfl, hj⟩ | ⟨z, hq, hj⟩⟩ := ih
    · exact ⟨[i], j, rfl, .inr ⟨y, .here hi, hj⟩⟩
    · exact ⟨i :: q, j, rfl, .inr ⟨z, .inside hi hq, hj⟩⟩

/-- From the list no item is reached on two trails, and none that has been seen. -/
structure Clear (l : Ledger) (seen : Item → Prop) (xs : List Item) : Prop where
  unique : ∀ p q x, l.Trail xs p x → l.Trail xs q x → p = q
  unseen : ∀ p x, l.Trail xs p x → ¬seen x

theorem clear_nil : l.Clear seen [] where
  unique _ _ _ h := (not_trail_nil h).elim
  unseen _ _ h := (not_trail_nil h).elim

theorem clear_append_iff :
    l.Clear seen (xs ++ ys) ↔
      l.Clear seen xs ∧ l.Clear seen ys ∧ ∀ p q x, l.Trail xs p x → ¬l.Trail ys q x := by
  constructor
  · intro h
    refine ⟨⟨?_, ?_⟩, ⟨?_, ?_⟩, ?_⟩
    · intro p q x hp hq
      exact h.unique p q x (trail_append_iff.2 (.inl hp)) (trail_append_iff.2 (.inl hq))
    · intro p x hp
      exact h.unseen p x (trail_append_iff.2 (.inl hp))
    · intro p q x hp hq
      obtain ⟨i, p, rfl⟩ := hp.exists_cons
      obtain ⟨j, q, rfl⟩ := hq.exists_cons
      have he :=
        h.unique _ _ x (trail_append_iff.2 (.inr ⟨i, p, rfl, hp⟩))
          (trail_append_iff.2 (.inr ⟨j, q, rfl, hq⟩))
      simpa using he
    · intro p x hp
      obtain ⟨i, p, rfl⟩ := hp.exists_cons
      exact h.unseen _ x (trail_append_iff.2 (.inr ⟨i, p, rfl, hp⟩))
    · intro p q x hp hq
      obtain ⟨i, p, rfl⟩ := hp.exists_cons
      obtain ⟨j, q, rfl⟩ := hq.exists_cons
      have he :=
        h.unique _ _ x (trail_append_iff.2 (.inl hp)) (trail_append_iff.2 (.inr ⟨j, q, rfl, hq⟩))
      obtain ⟨y, hi, -⟩ := trail_cons_iff.1 hp
      have hlt : i < xs.length := (List.getElem?_eq_some_iff.1 hi).1
      have hij : i = xs.length + j := List.head_eq_of_cons_eq he
      omega
  · intro h
    obtain ⟨hxs, hys, hapart⟩ := h
    constructor
    · intro p q x hp hq
      rcases trail_append_iff.1 hp with hp | ⟨i, p', rfl, hp'⟩
      · rcases trail_append_iff.1 hq with hq | ⟨j, q', rfl, hq'⟩
        · exact hxs.unique p q x hp hq
        · exact (hapart p _ x hp hq').elim
      · rcases trail_append_iff.1 hq with hq | ⟨j, q', rfl, hq'⟩
        · exact (hapart q _ x hq hp').elim
        · simpa using hys.unique _ _ x hp' hq'
    · intro p x hp
      rcases trail_append_iff.1 hp with hp | ⟨i, p', rfl, hp'⟩
      · exact hxs.unseen p x hp
      · exact hys.unseen _ x hp'

theorem clear_singleton_iff :
    l.Clear seen [x] ↔ ¬seen x ∧ l.Clear (fun y => y = x ∨ seen y) (l.contents x.asOwner) := by
  have hself : l.Trail [x] [0] x := .here rfl
  have hinside : ∀ {q y}, l.Trail (l.contents x.asOwner) q y → l.Trail [x] (0 :: q) y := .inside rfl
  constructor
  · intro h
    refine ⟨h.unseen _ _ hself, ?_, ?_⟩
    · intro p q y hp hq
      simpa using h.unique _ _ y (hinside hp) (hinside hq)
    · intro p y hp hy
      rcases hy with rfl | hy
      · obtain ⟨i, p, rfl⟩ := hp.exists_cons
        simpa using h.unique _ _ y hself (hinside hp)
      · exact h.unseen _ y (hinside hp) hy
  · intro h
    obtain ⟨hx, h⟩ := h
    constructor
    · intro p q y hp hq
      rcases trail_singleton_iff.1 hp with ⟨rfl, rfl⟩ | ⟨p', rfl, hp'⟩
      · rcases trail_singleton_iff.1 hq with ⟨rfl, -⟩ | ⟨q', rfl, hq'⟩
        · rfl
        · exact (h.unseen q' y hq' (.inl rfl)).elim
      · rcases trail_singleton_iff.1 hq with ⟨rfl, rfl⟩ | ⟨q', rfl, hq'⟩
        · exact (h.unseen p' y hp' (.inl rfl)).elim
        · rw [h.unique p' q' y hp' hq']
    · intro p y hp hy
      rcases trail_singleton_iff.1 hp with ⟨rfl, rfl⟩ | ⟨p', rfl, hp'⟩
      · exact hx hy
      · exact h.unseen p' y hp' (.inr hy)

/-- Entering the first item of a list: it was not seen, and it is not met again. -/
theorem clear_cons_iff :
    l.Clear seen (x :: xs) ↔ ¬seen x ∧ l.Clear (fun y => y = x ∨ seen y)
    (l.contents x.asOwner ++ xs) := by
  rw [← List.singleton_append, clear_append_iff, clear_append_iff, clear_singleton_iff]
  constructor
  · intro h
    obtain ⟨⟨hx, hin⟩, hxs, hapart⟩ := h
    refine ⟨hx, hin, ⟨hxs.unique, ?_⟩, ?_⟩
    · intro p y hp hy
      rcases hy with rfl | hy
      · exact hapart [0] p y (.here rfl) hp
      · exact hxs.unseen p y hp hy
    · intro p q y hp
      exact hapart (0 :: p) q y (.inside rfl hp)
  · intro h
    obtain ⟨hx, hin, hxs, hapart⟩ := h
    refine ⟨⟨hx, hin⟩, ⟨hxs.unique, ?_⟩, ?_⟩
    · intro p y hp hy
      exact hxs.unseen p y hp (.inr hy)
    · intro p q y hp hq
      rcases trail_singleton_iff.1 hp with ⟨rfl, rfl⟩ | ⟨p', rfl, hp'⟩
      · exact hxs.unseen q y hq (.inl rfl)
      · exact hapart p' q y hp' hq

section Walk

/-- Whether an item is among the methods and structures that the walk has entered. -/
def Met (ms ss : List Nat) : Item → Prop
  | .method k => k.index ∈ ms
  | .structureAt k => k.index ∈ ss

def metMethods (ms : List Nat) : Item → List Nat
  | .method k => k.index :: ms
  | .structureAt _ => ms

def metStructures (ss : List Nat) : Item → List Nat
  | .method _ => ss
  | .structureAt k => k.index :: ss

/-- The fault of a walk that comes to an item again. -/
def twice (l : Ledger) : Item → LedgerFault
  | .method k => .methodReleasedTwice (l.method k).head.name
  | .structureAt k => .structureReleasedTwice (l.structureAt k).head.name

variable {ms ss : List Nat} {tasks rest : List ReleaseTask} {thing : Emptied}

theorem met_iff : Met (metMethods ms x) (metStructures ss x) y ↔ y = x ∨ Met ms ss y := by
  obtain ⟨⟨i⟩⟩ | ⟨⟨i⟩⟩ := x <;> obtain ⟨⟨j⟩⟩ | ⟨⟨j⟩⟩ := y <;> simp [Met, metMethods, metStructures]

theorem planFrom_leave :
    l.planFrom ms ss (.leave thing :: rest) =
      { l.planFrom ms ss rest with emptied := thing :: (l.planFrom ms ss rest).emptied } := by
  rw [planFrom]

theorem planFrom_again (hx : l.Has x.asOwner) (hm : Met ms ss x) :
    l.planFrom ms ss (x.enter :: rest) = { fault := some (l.twice x) } := by
  cases x with
  | method k =>
    rw [Item.enter, planFrom]
    exact (dif_pos hx).trans (dif_pos hm)
  | structureAt k =>
    rw [Item.enter, planFrom]
    exact (dif_pos hx).trans (dif_pos hm)

theorem planFrom_enter (hx : l.Has x.asOwner) (hm : ¬Met ms ss x) :
    l.planFrom ms ss (x.enter :: rest) =
      l.planFrom (metMethods ms x) (metStructures ss x)
        ((l.contents x.asOwner).map Item.enter ++ .leave x.emptied :: rest) := by
  cases x with
  | method k =>
    rw [Item.asOwner, contents, List.map_map]
    rw [Item.enter, planFrom]
    exact (dif_pos hx).trans (dif_neg hm)
  | structureAt k =>
    rw [Item.asOwner, contents, List.map_map]
    rw [Item.enter, planFrom]
    exact (dif_pos hx).trans (dif_neg hm)

theorem planFrom_unknown (hx : ¬l.Has x.asOwner) :
    l.planFrom ms ss (x.enter :: rest) = l.planFrom ms ss rest := by
  cases x with
  | method k =>
    rw [Item.enter, planFrom]
    exact dif_neg hx
  | structureAt k =>
    rw [Item.enter, planFrom]
    exact dif_neg hx

theorem planFrom_induction (l : Ledger) {motive : List Nat → List Nat → List ReleaseTask → Prop}
    (nil : ∀ ms ss, motive ms ss [])
    (leave : ∀ ms ss thing rest, motive ms ss rest → motive ms ss (.leave thing :: rest))
    (unknown : ∀ ms ss (x : Item) rest, ¬l.Has x.asOwner → motive ms ss rest →
      motive ms ss (x.enter :: rest))
    (again : ∀ ms ss x rest, l.Has x.asOwner → Met ms ss x → motive ms ss (x.enter :: rest))
    (enter : ∀ ms ss x rest, l.Has x.asOwner → ¬Met ms ss x →
      motive (metMethods ms x) (metStructures ss x)
        ((l.contents x.asOwner).map Item.enter ++ .leave x.emptied :: rest) →
        motive ms ss (x.enter :: rest)) :
    motive ms ss tasks := by
  fun_induction planFrom l ms ss tasks with
  | case1 ms ss => exact nil ms ss
  | case2 ms ss thing rest plan ih => exact leave ms ss thing rest ih
  | case3 ms ss k rest hk hs => exact again ms ss (.method k) rest hk hs
  | case4 ms ss k rest hk hs ih =>
    apply enter ms ss (.method k) rest hk hs
    rw [Item.asOwner, contents, List.map_map]
    exact ih
  | case5 ms ss k rest hk ih => exact unknown ms ss (.method k) rest hk ih
  | case6 ms ss k rest hk hs => exact again ms ss (.structureAt k) rest hk hs
  | case7 ms ss k rest hk hs ih =>
    apply enter ms ss (.structureAt k) rest hk hs
    rw [Item.asOwner, contents, List.map_map]
    exact ih
  | case8 ms ss k rest hk ih => exact unknown ms ss (.structureAt k) rest hk ih

theorem known_enter {rest : List ReleaseTask} (hl : l.Closed)
    (hrest : ∀ y : Item, y.enter ∈ rest → l.Has y.asOwner) (x : Item)
    (hy : y.enter ∈ (l.contents x.asOwner).map Item.enter ++ .leave x.emptied :: rest) :
    l.Has y.asOwner := by
  rcases List.mem_append.1 hy with hy | hy
  · obtain ⟨z, hz, he⟩ := List.mem_map.1 hy
    exact hl _ y (Item.enter_injective he ▸ hz)
  · exact hrest y (List.mem_of_ne_of_mem (by cases y <;> simp [Item.enter]) hy)

theorem known_induction {motive : List Nat → List Nat → List ReleaseTask → Prop} (hl : l.Closed)
    (nil : ∀ ms ss, motive ms ss [])
    (leave : ∀ ms ss thing rest, motive ms ss rest → motive ms ss (.leave thing :: rest))
    (again : ∀ ms ss x rest, l.Has x.asOwner → Met ms ss x → motive ms ss (x.enter :: rest))
    (enter : ∀ ms ss x rest, l.Has x.asOwner → (∀ y : Item, y.enter ∈ rest → l.Has y.asOwner) →
      ¬Met ms ss x →
      motive (metMethods ms x) (metStructures ss x)
        ((l.contents x.asOwner).map Item.enter ++ .leave x.emptied :: rest) →
        motive ms ss (x.enter :: rest))
    (hknown : ∀ x : Item, x.enter ∈ tasks → l.Has x.asOwner) : motive ms ss tasks := by
  revert hknown
  refine planFrom_induction l
    (motive := fun ms ss tasks => (∀ x : Item, x.enter ∈ tasks → l.Has x.asOwner) →
      motive ms ss tasks) ?nil ?leave
    ?unknown ?again ?enter
  case nil =>
    intro ms ss _
    exact nil ms ss
  case leave =>
    intro ms ss thing rest ih hknown
    apply leave
    apply ih
    intro x hx
    exact hknown x (List.mem_cons_of_mem _ hx)
  case unknown =>
    intro ms ss x rest hx _ hknown
    exact (hx (hknown x List.mem_cons_self)).elim
  case again =>
    intro ms ss x rest hx hm _
    exact again ms ss x rest hx hm
  case enter =>
    intro ms ss x rest hx hm ih hknown
    have hrest : ∀ y : Item, y.enter ∈ rest → l.Has y.asOwner := by
      intro y hy
      exact hknown y (List.mem_cons_of_mem _ hy)
    apply enter ms ss x rest hx hrest hm
    apply ih
    intro y hy
    exact known_enter hl hrest x hy

/-- A walk that is broken off has come to an item again. -/
theorem fault_eq_twice {fault : LedgerFault} (h : (l.planFrom ms ss tasks).fault = some fault) :
    ∃ x, fault = l.twice x := by
  revert h
  refine planFrom_induction l (motive := fun ms ss tasks => (l.planFrom ms ss tasks).fault =
    some fault →
    ∃ x, fault = l.twice x) ?nil ?leave ?unknown ?again ?enter
  case nil =>
    intro ms ss h
    rw [planFrom] at h
    cases h
  case leave =>
    intro ms ss thing rest ih h
    rw [planFrom_leave] at h
    exact ih h
  case unknown =>
    intro ms ss x rest hx ih h
    rw [planFrom_unknown hx] at h
    exact ih h
  case again =>
    intro ms ss x rest hx hm h
    rw [planFrom_again hx hm] at h
    exact ⟨x, (Option.some.inj h).symm⟩
  case enter =>
    intro ms ss x rest hx hm ih h
    rw [planFrom_enter hx hm] at h
    exact ih h

/-- A walk is not broken off exactly when it meets nothing twice. -/
theorem fault_eq_none_iff (hl : l.Closed) (hknown : ∀ x : Item, x.enter ∈ tasks → l.Has x.asOwner) :
    (l.planFrom ms ss tasks).fault = none ↔ l.Clear (Met ms ss)
    (tasks.filterMap ReleaseTask.item?) := by
  refine known_induction (motive := fun ms ss tasks => (l.planFrom ms ss tasks).fault = none ↔
    l.Clear (Met ms ss) (tasks.filterMap ReleaseTask.item?)) hl ?nil ?leave ?again ?enter hknown
  case nil =>
    intro ms ss
    rw [planFrom]
    exact iff_of_true rfl clear_nil
  case leave =>
    intro ms ss thing rest ih
    rw [planFrom_leave]
    exact ih
  case again =>
    intro ms ss x rest hx hm
    rw [planFrom_again hx hm, List.filterMap_cons, Item.item?_enter]
    apply iff_of_false (by simp)
    intro h
    exact h.unseen [0] x (.here rfl) hm
  case enter =>
    intro ms ss x rest hx _ hm ih
    have hmet : Met (metMethods ms x) (metStructures ss x) = fun y => y = x ∨ Met ms ss y := by
      funext y
      exact propext met_iff
    rw [planFrom_enter hx hm, ih, hmet, List.filterMap_append, filterMap_item?_map_enter,
      List.filterMap_cons, List.filterMap_cons, Item.item?_enter, clear_cons_iff, and_iff_right hm]
    rfl

end Walk

end Ledger

end DependencyAtlas
