import DependencyAtlas.Proofs.Ledger.Ownership
import Mathlib.Data.List.Nodup
import Mathlib.Data.List.Perm.Subperm
import Mathlib.Data.Nat.Init
import Mathlib.Logic.Relation

namespace DependencyAtlas

theorem MethodTree.walkAll_eq_flatMap (ms : List MethodTree) : walkAll ms = ms.flatMap walk := by
  induction ms with
  | nil => rfl
  | cons m ms ih => rw [walkAll, ih, List.flatMap_cons]

namespace Ledger

theorem map_walk_treeFrom {β : Type} (f : MethodHead → List Text → β) (l : Ledger) (depth : Nat)
    (m : MethodKey) :
    (l.treeFrom depth m).walk.map (fun t => f t.head t.calls) =
      (l.walkFrom depth m).map fun k => f (l.method k).head (l.method k).calls := by
  induction depth generalizing m with
  | zero => rfl
  | succ n ih =>
    rw [treeFrom, MethodTree.walk, MethodTree.walkAll_eq_flatMap, walkFrom, List.map_cons,
      List.map_cons, List.map_flatMap, List.map_flatMap, List.flatMap_map]
    exact congrArg _ (List.flatMap_congr fun c _ => ih c)

/-- What an owner lists, what is listed there, and so on. -/
inductive Reach (l : Ledger) (o : Owner) : Item → Prop where
  | listed {x : Item} : x ∈ l.contents o → Reach l o x
  | inside {x y : Item} : Reach l o x → y ∈ l.contents x.asOwner → Reach l o y

variable {l : Ledger} {o root : Owner} {x y : Item}

theorem Reach.trans (h : l.Reach o x) (h' : l.Reach x.asOwner y) : l.Reach o y := by
  induction h' with
  | listed hy => exact .inside h hy
  | inside _ hy ih => exact .inside ih hy

def IsTop (o : Owner) : Prop :=
  ∀ x : Item, x.asOwner ≠ o

theorem isTop_ofRecord (k : RecordKey) : IsTop (.ofRecord k) := by
  intro x
  cases x <;> simp [Item.asOwner]

theorem isTop_ofNode (k : NodeKey) : IsTop (.ofNode k) := by
  intro x
  cases x <;> simp [Item.asOwner]

/-- Nothing that is reached from a top owner is inside itself: going up from owner to owner leads to
that top owner, and never round in a circle. -/
theorem Exclusive.not_reach_self (h : l.Exclusive) (hroot : IsTop root) (hx : l.Reach root x) :
    ¬l.Reach x.asOwner x := by
  induction hx with
  | listed hx =>
    intro hself
    cases hself with
    | listed hx' => exact hroot _ (h.unique hx' hx)
    | inside _ hx' => exact hroot _ (h.unique hx' hx)
  | @inside x y _ hy ih =>
    intro hself
    cases hself with
    | listed hy' =>
      have he := Item.asOwner_injective (h.unique hy hy')
      subst he
      exact ih (.listed hy)
    | inside hz hy' =>
      have he := Item.asOwner_injective (h.unique hy hy')
      subst he
      exact ih (Reach.trans (.listed hy) hz)

theorem Exclusive.top_unique (h : l.Exclusive) (hroot : IsTop root) (ho : IsTop o)
    (hx : l.Reach root x) (hx' : l.Reach o x) : root = o := by
  induction hx with
  | listed hx =>
    cases hx' with
    | listed hx' => exact h.unique hx hx'
    | inside _ hx' => exact (hroot _ (h.unique hx' hx)).elim
  | inside _ hy ih =>
    cases hx' with
    | listed hy' => exact (ho _ (h.unique hy hy')).elim
    | inside hz hy' =>
      have he := Item.asOwner_injective (h.unique hy hy')
      subst he
      exact ih hz

theorem Exclusive.has_of_reach (h : l.Exclusive) (hx : l.Reach o x) : l.Has x.asOwner := by
  cases hx with
  | listed hx => exact has_of_ownerOf (h _ _ hx)
  | inside _ hx => exact has_of_ownerOf (h _ _ hx)

/-- A way down to a method through other methods, the nearest of them first. -/
structure Descent (l : Ledger) (root : Owner) (m : MethodKey) (above : List MethodKey) : Prop where
  reached : l.Reach root (.method m)
  passed : ∀ a ∈ above, l.Has (.ofMethod a) ∧ l.Reach (.ofMethod a) (.method m)
  distinct : (m :: above).Nodup

variable {m c : MethodKey} {above : List MethodKey}

theorem Descent.down (hd : Descent l root m above) (h : l.Exclusive) (hroot : IsTop root)
    (hc : c ∈ (l.method m).children) : Descent l root c (m :: above) := by
  have hcm : Item.method c ∈ l.contents (.ofMethod m) := List.mem_map_of_mem hc
  have hreached : l.Reach root (.method c) := .inside hd.reached hcm
  have hpassed : ∀ a ∈ m :: above, l.Has (.ofMethod a) ∧ l.Reach (.ofMethod a) (.method c) := by
    intro a ha
    rcases List.mem_cons.1 ha with rfl | ha
    · exact ⟨h.has_of_reach hd.reached, .listed hcm⟩
    · exact ⟨(hd.passed a ha).1, .inside (hd.passed a ha).2 hcm⟩
  refine ⟨hreached, hpassed, List.nodup_cons.2 ⟨fun hmem => ?_, hd.distinct⟩⟩
  exact h.not_reach_self hroot hreached (hpassed c hmem).2

theorem length_le_of_has {ms : List MethodKey} (hnodup : ms.Nodup)
    (hhas : ∀ k ∈ ms, l.Has (.ofMethod k)) :
    ms.length ≤ l.methods.length := by
  have hindices : (ms.map MethodKey.index).Nodup := by
    refine List.Nodup.map ?_ hnodup
    rintro ⟨i⟩ ⟨j⟩ he
    exact congrArg MethodKey.mk he
  have hsub : ms.map MethodKey.index ⊆ List.range l.methods.length := by
    intro i hi
    obtain ⟨k, hk, rfl⟩ := List.mem_map.1 hi
    exact List.mem_range.2 (hhas k hk)
  simpa using (List.subperm_of_subset hindices hsub).length_le

theorem Descent.length_le (hd : Descent l root m above) (h : l.Exclusive) :
    (m :: above).length ≤ l.methods.length := by
  apply length_le_of_has hd.distinct
  intro a ha
  rcases List.mem_cons.1 ha with rfl | ha
  · exact h.has_of_reach hd.reached
  · exact (hd.passed a ha).1

theorem Reach.of_mem_walkFrom {n : Nat} (h : l.Reach o (.method m)) (hc : c ∈ l.walkFrom n m) :
    l.Reach o (.method c) := by
  induction n generalizing m with
  | zero =>
    obtain rfl := List.mem_singleton.1 hc
    exact h
  | succ n ih =>
    rcases List.mem_cons.1 hc with rfl | hc
    · exact h
    · obtain ⟨d, hd, hc⟩ := List.mem_flatMap.1 hc
      exact ih (.inside h (List.mem_map_of_mem hd)) hc

theorem Descent.walkFrom_succ {n : Nat} (hd : Descent l root m above) (h : l.Exclusive)
    (hroot : IsTop root) (hn : l.methods.length ≤ n + (m :: above).length) :
    l.walkFrom (n + 1) m = l.walkFrom n m := by
  induction n generalizing m above with
  | zero =>
    have hnone : (l.method m).children = [] := by
      apply List.eq_nil_iff_forall_not_mem.2
      intro c hc
      have hlen := (hd.down h hroot hc).length_le h
      rw [List.length_cons] at hlen
      omega
    simp [walkFrom, hnone]
  | succ n ih =>
    rw [walkFrom, walkFrom, List.cons.injEq]
    refine ⟨rfl, List.flatMap_congr fun c hc => ih (hd.down h hroot hc) ?_⟩
    rw [List.length_cons]
    omega

theorem Exclusive.walkFrom_eq_walk (h : l.Exclusive) (hroot : IsTop root)
    (hm : l.Reach root (.method m)) {n : Nat} (hn : l.methods.length ≤ n) :
    l.walkFrom n m = l.walk m := by
  have hd : Descent l root m [] := ⟨hm, by simp, by simp⟩
  induction n, hn using Nat.le_induction with
  | base => rfl
  | succ n hn ih => rw [hd.walkFrom_succ h hroot (by omega), ih]

theorem walkFrom_eq_of_children {l' : Ledger} {n : Nat}
    (h : ∀ k ∈ l.walkFrom n m, (l'.method k).children = (l.method k).children) :
    l'.walkFrom n m = l.walkFrom n m := by
  induction n generalizing m with
  | zero => rfl
  | succ n ih =>
    rw [walkFrom, walkFrom, h m List.mem_cons_self]
    congr 1
    apply List.flatMap_congr
    intro c hc
    apply ih
    intro k hk
    exact h k (List.mem_cons_of_mem _ (List.mem_flatMap.2 ⟨c, hc, hk⟩))

theorem Exclusive.walk_eq_of_kept {l' : Ledger} (h : l.Exclusive) (hroot : IsTop root)
    (hm : l.Reach root (.method m)) (hlength : l.methods.length ≤ l'.methods.length)
    (hkept : ∀ k ∈ l.walk m, l'.method k = l.method k) : l'.walk m = l.walk m := by
  have hlong := h.walkFrom_eq_walk hroot hm hlength
  rw [walk, ← hlong]
  apply walkFrom_eq_of_children
  intro k hk
  rw [hkept k (hlong ▸ hk)]

def Encloses (l : Ledger) : MethodKey → MethodKey → Prop :=
  Relation.ReflTransGen fun m c => c ∈ (l.method m).children

/-- The way down to a method, from `m` on and past the methods in `above`, without coming back to
any of them. -/
def Passes (l : Ledger) (above : List MethodKey) : MethodKey → MethodKey → Prop :=
  Relation.ReflTransGen fun m c => c ∈ (l.method m).children ∧ c ∉ above

theorem Passes.cases_head (h : l.Passes above m c) :
    c = m ∨ ∃ d ∈ (l.method m).children, d ∉ m :: above ∧ l.Passes (m :: above) d c := by
  induction h with
  | refl => exact .inl rfl
  | @tail b c _ hc ih =>
    by_cases he : c = m
    · exact .inl he
    · have hnew : c ∉ m :: above := List.not_mem_cons_of_ne_of_not_mem he hc.2
      rcases ih with rfl | ⟨d, hd, hnot, hway⟩
      · exact .inr ⟨c, hc.1, hnew, .refl⟩
      · exact .inr ⟨d, hd, hnot, hway.tail ⟨hc.1, hnew⟩⟩

theorem has_of_mem_children (hc : c ∈ (l.method m).children) : l.Has (.ofMethod m) := by
  by_contra hnone
  rw [method, List.getD_eq_default _ _ (Nat.le_of_not_lt hnone)] at hc
  cases hc

theorem mem_walkFrom_self (l : Ledger) (n : Nat) (m : MethodKey) : m ∈ l.walkFrom n m := by
  cases n <;> exact List.mem_cons_self

/-- A walk that may go down as many levels as there are methods left comes to the end of every way
down. -/
theorem Passes.mem_walkFrom {n : Nat} (h : l.Passes above m c) (hnodup : (m :: above).Nodup)
    (hhas : ∀ a ∈ above, l.Has (.ofMethod a)) (hn : l.methods.length ≤ n + above.length) :
    c ∈ l.walkFrom n m := by
  induction n generalizing m above with
  | zero =>
    rcases h.cases_head with rfl | ⟨d, hd, -⟩
    · exact l.mem_walkFrom_self 0 c
    · have hlength :=
        length_le_of_has hnodup (List.forall_mem_cons.2 ⟨has_of_mem_children hd, hhas⟩)
      rw [List.length_cons] at hlength
      omega
  | succ n ih =>
    rcases h.cases_head with rfl | ⟨d, hd, hnot, hway⟩
    · exact l.mem_walkFrom_self _ c
    · refine List.mem_cons_of_mem _ (List.mem_flatMap.2 ⟨d, hd,
        ih hway (List.nodup_cons.2 ⟨hnot, hnodup⟩) ?_ ?_⟩)
      · exact List.forall_mem_cons.2 ⟨has_of_mem_children hd, hhas⟩
      · rw [List.length_cons]
        omega

theorem mem_walk_iff : c ∈ l.walk m ↔ l.Encloses m c := by
  constructor
  · rw [walk]
    generalize l.methods.length = n
    intro hc
    induction n generalizing m with
    | zero =>
      cases List.mem_singleton.1 hc
      exact .refl
    | succ n ih =>
      rcases List.mem_cons.1 hc with rfl | hc
      · exact .refl
      · obtain ⟨d, hd, hc⟩ := List.mem_flatMap.1 hc
        exact .head hd (ih hc)
  · intro h
    have hway : l.Passes [] m c := h.lift id fun _ _ hc => ⟨hc, List.not_mem_nil⟩
    exact hway.mem_walkFrom (List.nodup_singleton m) (List.forall_mem_nil _) (Nat.le_refl _)

end Ledger

end DependencyAtlas
