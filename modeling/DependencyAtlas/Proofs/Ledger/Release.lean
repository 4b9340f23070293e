import DependencyAtlas.Proofs.Ledger.Ownership

namespace DependencyAtlas

def MethodEntry.cleared (e : MethodEntry) : MethodEntry :=
  { head := { e.head with parameters := [] } }

def StructureEntry.cleared (e : StructureEntry) : StructureEntry :=
  { head := { e.head with traits := [] } }

def Node.cleared (n : Node) : Node :=
  { n with structures := [], methods := [], methodCount := 0 }

def Emptied.asOwner : Emptied → Owner
  | .method k => .ofMethod k
  | .structureAt k => .ofStructure k
  | .node k => .ofNode k

def Item.emptied : Item → Emptied
  | .method k => .method k
  | .structureAt k => .structureAt k

def Item.enter : Item → ReleaseTask
  | .method k => .enterMethod k
  | .structureAt k => .enterStructure k

namespace Ledger

section CarryOut

theorem method_emptyOut (state : ReleaseStats × Ledger) (thing : Emptied) (m : MethodKey) :
    (emptyOut state thing).2.method m =
      if thing = .method m then (state.2.method m).cleared else state.2.method m := by
  cases thing with
  | method k =>
    simp only [emptyOut, method_updateMethod, Emptied.method.injEq]
    by_cases hk : m = k
    · subst hk
      by_cases hm : m.index < state.2.methods.length
      · simp [hm, MethodEntry.cleared]
      · simp [hm, MethodEntry.cleared, method_of_le (Nat.le_of_not_lt hm)]
    · simp [hk, Ne.symm hk]
  | structureAt k => rfl
  | node k => rfl

theorem structureAt_emptyOut (state : ReleaseStats × Ledger) (thing : Emptied) (s : StructureKey) :
    (emptyOut state thing).2.structureAt s =
      if thing = .structureAt s then (state.2.structureAt s).cleared
      else state.2.structureAt s := by
  cases thing with
  | method k => rfl
  | structureAt k =>
    simp only [emptyOut, structureAt_updateStructure, Emptied.structureAt.injEq]
    by_cases hk : s = k
    · subst hk
      by_cases hs : s.index < state.2.structures.length
      · simp [hs, StructureEntry.cleared]
      · simp [hs, StructureEntry.cleared, structureAt_of_le (Nat.le_of_not_lt hs)]
    · simp [hk, Ne.symm hk]
  | node k => rfl

theorem node_emptyOut (state : ReleaseStats × Ledger) (thing : Emptied) (n : NodeKey) :
    (emptyOut state thing).2.node n =
      if thing = .node n then (state.2.node n).cleared else state.2.node n := by
  cases thing with
  | method k => rfl
  | structureAt k => rfl
  | node k =>
    simp only [emptyOut, node_updateNode, Emptied.node.injEq]
    by_cases hk : n = k
    · subst hk
      by_cases hn : n.index < state.2.nodes.length
      · simp [hn, Node.cleared]
      · simp [hn, Node.cleared, node_of_le (Nat.le_of_not_lt hn)]
    · simp [hk, Ne.symm hk]

/-- A part of the ledger that emptying one thing clears or keeps is cleared by a plan with that
thing, and kept by any other plan. -/
theorem foldl_emptyOut_look {β : Type} (look : Ledger → β) (clear : β → β) (target : Emptied)
    (hstep : ∀ state thing, look (emptyOut state thing).2 =
      if thing = target then clear (look state.2) else look state.2)
    (hclear : ∀ b, clear (clear b) = clear b) (things : List Emptied)
    (state : ReleaseStats × Ledger) :
    look (things.foldl emptyOut state).2 =
      if target ∈ things then clear (look state.2) else look state.2 := by
  induction things generalizing state with
  | nil => rfl
  | cons thing things ih =>
    rw [List.foldl_cons, ih, hstep]
    by_cases ht : thing = target
    · simp [ht, hclear]
    · simp [ht, Ne.symm ht]

theorem method_carryOut (l : Ledger) (p : ReleasePlan) (m : MethodKey) :
    (l.carryOut p).2.method m =
      if .method m ∈ p.emptied then (l.method m).cleared else l.method m :=
  foldl_emptyOut_look (·.method m) MethodEntry.cleared (.method m) (fun _ _ => method_emptyOut ..)
    (fun _ => rfl) ..

theorem structureAt_carryOut (l : Ledger) (p : ReleasePlan) (s : StructureKey) :
    (l.carryOut p).2.structureAt s =
      if .structureAt s ∈ p.emptied then (l.structureAt s).cleared else l.structureAt s :=
  foldl_emptyOut_look (·.structureAt s) StructureEntry.cleared (.structureAt s)
    (fun _ _ => structureAt_emptyOut ..) (fun _ => rfl) ..

theorem node_carryOut (l : Ledger) (p : ReleasePlan) (n : NodeKey) :
    (l.carryOut p).2.node n = if .node n ∈ p.emptied then (l.node n).cleared else l.node n :=
  foldl_emptyOut_look (·.node n) Node.cleared (.node n) (fun _ _ => node_emptyOut ..)
    (fun _ => rfl) ..

theorem records_carryOut (l : Ledger) (p : ReleasePlan) : (l.carryOut p).2.records = l.records := by
  have hfold : ∀ (things : List Emptied) (state : ReleaseStats × Ledger),
      (things.foldl emptyOut state).2.records = state.2.records := by
    intro things
    induction things with
    | nil => intro _; rfl
    | cons thing things ih =>
      intro state
      rw [List.foldl_cons, ih]
      cases thing <;> rfl
  exact hfold ..

theorem name_carryOut (l : Ledger) (p : ReleasePlan) (m : MethodKey) :
    ((l.carryOut p).2.method m).head.name = (l.method m).head.name := by
  rw [method_carryOut]
  split
  · rfl
  · rfl

theorem length_methods_carryOut (l : Ledger) (p : ReleasePlan) :
    (l.carryOut p).2.methods.length = l.methods.length := by
  apply foldl_keeps fun state : ReleaseStats × Ledger => state.2.methods.length
  intro state thing
  cases thing with
  | method m => exact length_methods_updateMethod ..
  | structureAt s => rfl
  | node n => rfl

theorem nodes_carryOut {l : Ledger} {p : ReleasePlan} (h : ∀ n, .node n ∉ p.emptied) :
    (l.carryOut p).2.nodes = l.nodes := by
  have hfold : ∀ (things : List Emptied) (state : ReleaseStats × Ledger), (∀ n, .node n ∉ things) →
      (things.foldl emptyOut state).2.nodes = state.2.nodes := by
    intro things
    induction things with
    | nil => intro _ _; rfl
    | cons thing things ih =>
      intro state hthings
      rw [List.foldl_cons, ih _ fun n hn => hthings n (List.mem_cons_of_mem _ hn)]
      cases thing with
      | method k => rfl
      | structureAt k => rfl
      | node n => exact (hthings n List.mem_cons_self).elim
  exact hfold _ _ h

/-- What a plan emptied lists nothing, and all else lists what it did. -/
theorem contents_carryOut (l : Ledger) (p : ReleasePlan) (o : Owner) :
    (l.carryOut p).2.contents o =
      if ∃ thing ∈ p.emptied, thing.asOwner = o then [] else l.contents o := by
  have hthing : ∀ (target : Emptied) (o : Owner), target.asOwner = o →
      ((∃ thing ∈ p.emptied, thing.asOwner = o) ↔ target ∈ p.emptied) := by
    rintro target o rfl
    constructor
    · rintro ⟨thing, hin, he⟩
      have hsame : thing = target := by cases thing <;> cases target <;> simp_all [Emptied.asOwner]
      exact hsame ▸ hin
    · intro hin
      exact ⟨target, hin, rfl⟩
  cases o with
  | ofMethod k =>
    simp only [contents, method_carryOut, hthing (.method k) (.ofMethod k) rfl]
    split <;> rfl
  | ofStructure k =>
    simp only [contents, structureAt_carryOut, hthing (.structureAt k) (.ofStructure k) rfl]
    split <;> rfl
  | ofRecord k =>
    rw [contents, record, records_carryOut, if_neg]
    · rfl
    · rintro ⟨thing, -, he⟩
      cases thing <;> cases he
  | ofNode k =>
    simp only [contents, node_carryOut, hthing (.node k) (.ofNode k) rfl]
    split <;> rfl

theorem mem_contents_carryOut {l : Ledger} {p : ReleasePlan} {o : Owner} {x : Item}
    (hx : x ∈ (l.carryOut p).2.contents o) :
    x ∈ l.contents o ∧ ∀ thing ∈ p.emptied, thing.asOwner ≠ o := by
  rw [contents_carryOut] at hx
  split at hx
  · cases hx
  · next hno => exact ⟨hx, fun thing hin he => hno ⟨thing, hin, he⟩⟩

theorem ownerOf_carryOut {l : Ledger} {p : ReleasePlan} {x : Item} (hx : x.emptied ∉ p.emptied) :
    (l.carryOut p).2.ownerOf x = l.ownerOf x := by
  cases x with
  | method k =>
    change Emptied.method k ∉ p.emptied at hx
    rw [ownerOf, method_carryOut, if_neg hx, ownerOf]
  | structureAt k =>
    change Emptied.structureAt k ∉ p.emptied at hx
    rw [ownerOf, structureAt_carryOut, if_neg hx, ownerOf]

end CarryOut

section Plan

theorem leave_mem_emptied {l : Ledger} {ms ss : List Nat} {tasks : List ReleaseTask}
    {thing : Emptied} (h : (l.planFrom ms ss tasks).fault = none) (ht : .leave thing ∈ tasks) :
    thing ∈ (l.planFrom ms ss tasks).emptied := by
  fun_induction planFrom l ms ss tasks with
  | case1 => cases ht
  | case2 ms ss t rest plan ih =>
    rcases List.mem_cons.1 ht with he | ht
    · rw [ReleaseTask.leave.injEq] at he
      exact he ▸ List.mem_cons_self
    · exact List.mem_cons_of_mem _ (ih h ht)
  | case3 => cases h
  | case4 ms ss k rest hk hs ih =>
    exact ih h (by simpa using .inr (List.mem_of_ne_of_mem (by simp) ht))
  | case5 ms ss k rest hk ih => exact ih h (List.mem_of_ne_of_mem (by simp) ht)
  | case6 => cases h
  | case7 ms ss k rest hk hs ih =>
    exact ih h (by simpa using .inr (List.mem_of_ne_of_mem (by simp) ht))
  | case8 ms ss k rest hk ih => exact ih h (List.mem_of_ne_of_mem (by simp) ht)

theorem leave_of_node_mem {l : Ledger} {ms ss : List Nat} {tasks : List ReleaseTask} {n : NodeKey}
    (h : .node n ∈ (l.planFrom ms ss tasks).emptied) : .leave (.node n) ∈ tasks := by
  fun_induction planFrom l ms ss tasks with
  | case1 => cases h
  | case2 ms ss t rest plan ih =>
    rcases List.mem_cons.1 h with he | h
    · exact he ▸ List.mem_cons_self
    · exact List.mem_cons_of_mem _ (ih h)
  | case3 => cases h
  | case4 ms ss k rest hk hs ih => simpa using ih h
  | case5 ms ss k rest hk ih => exact List.mem_cons_of_mem _ (ih h)
  | case6 => cases h
  | case7 ms ss k rest hk hs ih => simpa using ih h
  | case8 ms ss k rest hk ih => exact List.mem_cons_of_mem _ (ih h)

/-- What is to be left or entered once an item has been entered was so before, is that item, or is
listed by it. -/
theorem origin_of_enter {l : Ledger} {x y : Item} {rest : List ReleaseTask}
    (h : .leave x.emptied ∈ (l.contents y.asOwner).map Item.enter ++ .leave y.emptied :: rest ∨
      x.enter ∈ (l.contents y.asOwner).map Item.enter ++ .leave y.emptied :: rest) :
    .leave x.emptied ∈ y.enter :: rest ∨ x.enter ∈ y.enter :: rest ∨ x ∈ l.contents y.asOwner := by
  have hno : ∀ z : Item, ReleaseTask.leave x.emptied ≠ z.enter := by
    intro z
    cases z <;> simp [Item.enter]
  have hinj : ∀ z : Item, z.enter = x.enter → z = x := by
    intro z
    cases z <;> cases x <;> simp [Item.enter]
  rcases h with h | h
  · rcases List.mem_append.1 h with h | h
    · obtain ⟨z, -, he⟩ := List.mem_map.1 h
      exact (hno z he.symm).elim
    · rcases List.mem_cons.1 h with he | h
      · have hxy : x = y := by
          cases x <;> cases y <;> simp_all [Item.emptied]
        exact .inr (.inl (hxy ▸ List.mem_cons_self))
      · exact .inl (List.mem_cons_of_mem _ h)
  · rcases List.mem_append.1 h with h | h
    · obtain ⟨z, hz, he⟩ := List.mem_map.1 h
      exact .inr (.inr (hinj z he ▸ hz))
    · exact .inr
        (.inl (List.mem_cons_of_mem _ (List.mem_of_ne_of_mem (by cases x <;> simp [Item.enter]) h)))

/-- Every item that such a plan empties was to be left or entered, or is listed by something that
the plan empties. -/
theorem emptied_origin {l : Ledger} {ms ss : List Nat} {tasks : List ReleaseTask} {x : Item}
    (h : (l.planFrom ms ss tasks).fault = none)
    (hx : x.emptied ∈ (l.planFrom ms ss tasks).emptied) :
    .leave x.emptied ∈ tasks ∨ x.enter ∈ tasks ∨
      ∃ thing ∈ (l.planFrom ms ss tasks).emptied, x ∈ l.contents thing.asOwner := by
  fun_induction planFrom l ms ss tasks with
  | case1 => cases hx
  | case2 ms ss t rest plan ih =>
    rcases List.mem_cons.1 hx with he | hx
    · exact .inl (he ▸ List.mem_cons_self)
    · rcases ih h hx with hl | he | ⟨thing, ht, hc⟩
      · exact .inl (List.mem_cons_of_mem _ hl)
      · exact .inr (.inl (List.mem_cons_of_mem _ he))
      · exact .inr (.inr ⟨thing, List.mem_cons_of_mem _ ht, hc⟩)
  | case3 => cases h
  | case4 ms ss k rest hk hs ih =>
    have hleft : Emptied.method k ∈ (l.planFrom (k.index :: ms) ss
        ((l.method k).children.map .enterMethod ++ .leave (.method k) :: rest)).emptied :=
      leave_mem_emptied h (by simp)
    have hmap :
        (l.method k).children.map .enterMethod = (l.contents (.ofMethod k)).map Item.enter := by
      simp [contents, Item.enter]
    rw [← or_assoc] at ih
    rcases ih h hx with ho | hc
    · rw [hmap] at ho
      rcases origin_of_enter (y := .method k) ho with ho | ho | ho
      · exact .inl ho
      · exact .inr (.inl ho)
      · exact .inr (.inr ⟨.method k, hleft, ho⟩)
    · exact .inr (.inr hc)
  | case5 ms ss k rest hk ih =>
    rcases ih h hx with hl | he | hc
    · exact .inl (List.mem_cons_of_mem _ hl)
    · exact .inr (.inl (List.mem_cons_of_mem _ he))
    · exact .inr (.inr hc)
  | case6 => cases h
  | case7 ms ss k rest hk hs ih =>
    have hleft : Emptied.structureAt k ∈ (l.planFrom ms (k.index :: ss)
        ((l.structureAt k).methods.map .enterMethod ++ .leave (.structureAt k) :: rest)).emptied :=
      leave_mem_emptied h (by simp)
    have hmap : (l.structureAt k).methods.map .enterMethod =
        (l.contents (.ofStructure k)).map Item.enter := by
      simp [contents, Item.enter]
    rw [← or_assoc] at ih
    rcases ih h hx with ho | hc
    · rw [hmap] at ho
      rcases origin_of_enter (y := .structureAt k) ho with ho | ho | ho
      · exact .inl ho
      · exact .inr (.inl ho)
      · exact .inr (.inr ⟨.structureAt k, hleft, ho⟩)
    · exact .inr (.inr hc)
  | case8 ms ss k rest hk ih =>
    rcases ih h hx with hl | he | hc
    · exact .inl (List.mem_cons_of_mem _ hl)
    · exact .inr (.inl (List.mem_cons_of_mem _ he))
    · exact .inr (.inr hc)

theorem enter_mem_contentTasks {ss : List StructureKey} {ms : List MethodKey} {x : Item} :
    x.enter ∈ contentTasks ss ms ↔ x ∈ ss.map Item.structureAt ++ ms.map Item.method := by
  cases x <;> simp [contentTasks, Item.enter]

theorem leave_notMem_contentTasks (ss : List StructureKey) (ms : List MethodKey) (thing : Emptied) :
    .leave thing ∉ contentTasks ss ms := by
  simp [contentTasks]

end Plan

/-- A release that is not broken off keeps ownership exclusive, provided that those who list what it
starts from end up empty. -/
theorem Exclusive.of_released {l l' : Ledger} {tasks : List ReleaseTask} (h : l.Exclusive)
    (hfault : (l.plan tasks).fault = none)
    (hstart : ∀ o x, .leave x.emptied ∈ tasks ∨ x.enter ∈ tasks → x ∈ l.contents o →
      l'.contents o = [])
    (hcontents : ∀ o x, x ∈ l'.contents o → x ∈ (l.carryOut (l.plan tasks)).2.contents o)
    (howner : ∀ x, l'.ownerOf x = (l.carryOut (l.plan tasks)).2.ownerOf x) : l'.Exclusive := by
  apply h.of_freed fun x => x.emptied ∈ (l.plan tasks).emptied
  · intro o x hx
    obtain ⟨hold, hkept⟩ := mem_contents_carryOut (hcontents o x hx)
    refine ⟨hold, fun hgone => ?_⟩
    have horigin := emptied_origin hfault hgone
    rw [← or_assoc] at horigin
    rcases horigin with hs | ⟨thing, ht, hc⟩
    · rw [hstart o x hs hold] at hx
      cases hx
    · exact hkept thing ht (h.unique hc hold)
  · intro x hx
    rw [howner, ownerOf_carryOut hx]

/-- A record that is released without a fault leaves ownership exclusive. -/
theorem Exclusive.releaseRecord {l : Ledger} {k : RecordKey} {stats : ReleaseStats}
    (h : l.Exclusive) (hr : (l.releaseRecord k).1 = .ok stats) :
    (l.releaseRecord k).2.Exclusive := by
  unfold Ledger.releaseRecord at hr ⊢
  split at hr
  · next hc =>
    rw [if_pos hc]
    exact h
  · next hc =>
    rw [if_neg hc]
    generalize htasks : contentTasks (l.record k).structures (l.record k).methods = tasks at hr ⊢
    simp only at hr ⊢
    split at hr
    · cases hr
    · next hfault =>
      apply h.of_released hfault
      · intro o x hs hx
        have hk : x ∈ l.contents (.ofRecord k) := by
          rcases hs with hs | hs
          · exact (leave_notMem_contentTasks _ _ _ (htasks ▸ hs)).elim
          · exact enter_mem_contentTasks.1 (htasks ▸ hs)
        rw [h.unique hx hk]
        simp only [contents, record_updateRecord, true_and]
        split
        · rfl
        · next hlen =>
          rw [record_of_le (Nat.le_of_not_lt hlen)]
          rfl
      · intro o x hx
        cases o with
        | ofRecord j =>
          simp only [contents, record_updateRecord] at hx
          split at hx
          · simp at hx
          · exact hx
        | _ => exact hx
      · intro x
        cases x <;> rfl

end Ledger

end DependencyAtlas
