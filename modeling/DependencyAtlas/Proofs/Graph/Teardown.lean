import DependencyAtlas.Proofs.Graph.Tables
import DependencyAtlas.Proofs.Ledger.Teardown

namespace DependencyAtlas

open Ledger

namespace Ledger

/-- The methods in the bodies of structures, those inside others included. -/
def methodsIn (l : Ledger) (ss : List StructureKey) : List MethodKey :=
  ss.flatMap fun s => (l.structureAt s).methods.flatMap l.walk

/-- What a release counts for nodes, structures and methods. -/
def tally (l : Ledger) (nodes : Nat) (ss : List StructureKey) (ms : List MethodKey) :
    ReleaseStats where
  nodes := nodes
  structures := ss.length
  methods := ms.length
  parameters := addUp (ms.map fun m => (l.method m).head.parameters.length)
  references := addUp (ms.map fun m => (l.method m).references.length)

def NodeTrail (l : Ledger) (ns : List NodeKey) : List Nat → Item → Prop
  | [], _ => False
  | i :: p, x => ∃ n, ns[i]? = some n ∧ l.Trail (l.contents (.ofNode n)) p x

variable {l : Ledger} {ns : List NodeKey} {n : NodeKey} {p q : List Nat} {x : Item}

theorem nodeTrail_cons_iff :
    l.NodeTrail (n :: ns) p x ↔
      (∃ q, p = 0 :: q ∧ l.Trail (l.contents (.ofNode n)) q x) ∨ ∃ i q, p = (i + 1) :: q ∧
        l.NodeTrail ns (i :: q) x := by
  cases p with
  | nil => simp [NodeTrail]
  | cons i p => cases i <;> simp [NodeTrail]

theorem NodeTrail.exists_cons (h : l.NodeTrail ns p x) : ∃ i q, p = i :: q := by
  cases p with
  | nil => exact h.elim
  | cons i p => exact ⟨i, p, rfl⟩

theorem exists_nodeTrail_iff :
    (∃ p, l.NodeTrail ns p x) ↔ ∃ p, l.Trail (ns.flatMap fun n => l.contents (.ofNode n)) p x := by
  induction ns with
  | nil =>
    apply iff_of_false
    · intro h
      obtain ⟨p, h⟩ := h
      obtain ⟨i, q, rfl⟩ := h.exists_cons
      simp [NodeTrail] at h
    · intro h
      obtain ⟨p, h⟩ := h
      exact not_trail_nil h
  | cons n ns ih =>
    simp only [List.flatMap_cons, nodeTrail_cons_iff, trail_append_iff, exists_or]
    apply or_congr
    · constructor
      · rintro ⟨p, q, rfl, h⟩
        exact ⟨q, h⟩
      · rintro ⟨q, h⟩
        exact ⟨0 :: q, q, rfl, h⟩
    · constructor
      · rintro ⟨p, i, q, rfl, h⟩
        obtain ⟨r, hr⟩ := ih.1 ⟨_, h⟩
        obtain ⟨j, r, rfl⟩ := hr.exists_cons
        exact ⟨_, j, r, rfl, hr⟩
      · rintro ⟨p, i, q, rfl, h⟩
        obtain ⟨r, hr⟩ := ih.2 ⟨_, h⟩
        obtain ⟨j, r, rfl⟩ := hr.exists_cons
        exact ⟨_, j, r, rfl, hr⟩

theorem clear_nodes_iff {seen : Item → Prop} (hseen : ∀ x, ¬seen x) :
    l.Clear seen (ns.flatMap fun n => l.contents (.ofNode n)) ↔
      ∀ p q x, l.NodeTrail ns p x → l.NodeTrail ns q x → p = q := by
  induction ns with
  | nil =>
    apply iff_of_true clear_nil
    intro p q x hp
    obtain ⟨i, p, rfl⟩ := hp.exists_cons
    simp [NodeTrail] at hp
  | cons n ns ih =>
    rw [List.flatMap_cons, clear_append_iff, ih]
    constructor
    · intro h p q x hp hq
      obtain ⟨hn, hns, hapart⟩ := h
      rcases nodeTrail_cons_iff.1 hp with ⟨p, rfl, hp'⟩ | ⟨i, p, rfl, hp'⟩
      · rcases nodeTrail_cons_iff.1 hq with ⟨q, rfl, hq'⟩ | ⟨j, q, rfl, hq'⟩
        · rw [hn.unique p q x hp' hq']
        · obtain ⟨r, hr⟩ := exists_nodeTrail_iff.1 ⟨_, hq'⟩
          exact (hapart p r x hp' hr).elim
      · rcases nodeTrail_cons_iff.1 hq with ⟨q, rfl, hq'⟩ | ⟨j, q, rfl, hq'⟩
        · obtain ⟨r, hr⟩ := exists_nodeTrail_iff.1 ⟨_, hp'⟩
          exact (hapart q r x hq' hr).elim
        · simpa using hns _ _ x hp' hq'
    · intro h
      refine ⟨⟨?_, fun _ x _ => hseen x⟩, ?_, ?_⟩
      · intro p q x hp hq
        simpa using h _ _ x (nodeTrail_cons_iff.2 (.inl ⟨p, rfl, hp⟩))
          (nodeTrail_cons_iff.2 (.inl ⟨q, rfl, hq⟩))
      · intro p q x hp hq
        obtain ⟨i, p, rfl⟩ := hp.exists_cons
        obtain ⟨j, q, rfl⟩ := hq.exists_cons
        simpa using h _ _ x (nodeTrail_cons_iff.2 (.inr ⟨i, p, rfl, hp⟩))
          (nodeTrail_cons_iff.2 (.inr ⟨j, q, rfl, hq⟩))
      · intro p q x hp hq
        obtain ⟨r, hr⟩ := exists_nodeTrail_iff.2 ⟨_, hq⟩
        obtain ⟨j, r, rfl⟩ := hr.exists_cons
        simpa using h _ _ x (nodeTrail_cons_iff.2 (.inl ⟨p, rfl, hp⟩))
          (nodeTrail_cons_iff.2 (.inr ⟨j, r, rfl, hr⟩))

end Ledger

namespace Atlas

variable {a : Atlas}

def heldStructures (a : Atlas) : List StructureKey :=
  a.nodes.flatMap (·.structures)

/-- All methods of the structures and of the nodes, on whatever layer, those inside others
included. -/
def heldMethods (a : Atlas) : List MethodKey :=
  a.nodes.flatMap fun n => a.ledger.methodsIn n.structures ++ n.methods.flatMap a.ledger.walk

theorem filterMap_item?_releaseTasks (a : Atlas) :
    a.releaseTasks.filterMap ReleaseTask.item? =
      a.graph.nodes.flatMap fun n => a.ledger.contents (.ofNode n) := by
  rw [releaseTasks, List.filterMap_flatMap]
  apply List.flatMap_congr
  intro n _
  rw [List.filterMap_append, contentTasks_eq, filterMap_item?_map_enter]
  exact List.append_nil _

theorem known_releaseTasks (h : a.ledger.Closed) {x : Item} (hx : x.enter ∈ a.releaseTasks) :
    a.ledger.Has x.asOwner := by
  obtain ⟨n, -, hn⟩ := origin_of_releaseTasks (.inr hx)
  exact h _ x hn

theorem fault_releaseTasks (h : a.ledger.Closed) :
    (a.ledger.plan a.releaseTasks).fault = none ↔
      ∀ p q x, a.ledger.NodeTrail a.graph.nodes p x → a.ledger.NodeTrail a.graph.nodes q x →
        p = q := by
  rw [plan, fault_eq_none_iff h fun x => known_releaseTasks h, filterMap_item?_releaseTasks,
    clear_nodes_iff]
  intro x
  cases x <;> simp [Met]

theorem release_error_iff {fault : LedgerFault} :
    a.release.1 = .error fault ↔ (a.ledger.plan a.releaseTasks).fault = some fault := by
  rw [release_eq]
  split
  · next f hf => simp [hf]
  · next hf => simp [hf]

theorem release_ok_iff {stats : ReleaseStats} :
    a.release.1 = .ok stats ↔
      (a.ledger.plan a.releaseTasks).fault = none ∧
      stats = (a.ledger.carryOut (a.ledger.plan a.releaseTasks)).1 := by
  rw [release_eq]
  split
  · next f hf => simp [hf]
  · next hf => simp [hf, eq_comm]

theorem release_snd (h : (a.ledger.plan a.releaseTasks).fault = none) :
    a.release.2 = { ledger := (a.ledger.carryOut (a.ledger.plan a.releaseTasks)).2 } := by
  rw [release_eq, h]

theorem emptiedBy_contentTasks (l : Ledger) (ss : List StructureKey) (ms : List MethodKey) :
    ((contentTasks ss ms).flatMap l.emptiedBy).Perm
      (ss.map .structureAt ++ (l.methodsIn ss ++ ms.flatMap l.walk).map .method) := by
  rw [contentTasks, List.flatMap_append, List.flatMap_map, List.flatMap_map, List.map_append,
    ← List.append_assoc, List.map_flatMap]
  apply List.Perm.append_right
  rw [methodsIn, List.map_flatMap]
  exact (List.map_append_flatMap_perm ss Emptied.structureAt _).symm

theorem emptied_releaseTasks (h : a.ledger.Closed)
    (hfault : (a.ledger.plan a.releaseTasks).fault = none) :
    (a.ledger.plan a.releaseTasks).emptied.Perm
      (a.graph.nodes.map .node ++ (a.heldStructures.map .structureAt ++
        a.heldMethods.map .method)) := by
  apply (emptied_perm h (fun x => known_releaseTasks h) hfault).trans
  rw [releaseTasks, List.flatMap_assoc]
  have hnode : ∀ n ∈ a.graph.nodes,
      ((contentTasks (a.ledger.node n).structures (a.ledger.node n).methods ++
        [ReleaseTask.leave (.node n)]).flatMap a.ledger.emptiedBy).Perm
        (Emptied.node n :: ((a.ledger.node n).structures.map Emptied.structureAt ++
          (a.ledger.methodsIn (a.ledger.node n).structures ++
            (a.ledger.node n).methods.flatMap a.ledger.walk).map Emptied.method)) := by
    intro n _
    rw [List.flatMap_append]
    exact List.perm_append_comm.trans ((emptiedBy_contentTasks ..).cons _)
  apply (List.Perm.flatMap_left _ hnode).trans
  apply (List.map_append_flatMap_perm a.graph.nodes Emptied.node _).symm.trans
  apply List.Perm.append_left
  apply (List.flatMap_append_perm a.graph.nodes _ _).symm.trans
  rw [heldStructures, heldMethods, Atlas.nodes, List.flatMap_map, List.flatMap_map,
    List.map_flatMap, List.map_flatMap]

theorem nodup_emptied_releaseTasks (a : Atlas) :
    ((a.ledger.plan a.releaseTasks).emptied.filterMap Emptied.item?).Nodup := by
  have hnone : a.releaseTasks.filterMap ReleaseTask.left? = [] := by
    apply List.filterMap_eq_nil_iff.2
    intro task htask
    obtain ⟨n, -, htask⟩ := List.mem_flatMap.1 htask
    rcases List.mem_append.1 htask with htask | htask
    · rw [contentTasks_eq] at htask
      obtain ⟨x, -, rfl⟩ := List.mem_map.1 htask
      exact Item.left?_enter x
    · rw [List.mem_singleton.1 htask]
      rfl
  apply nodup_emptied
  · rw [hnone]
    exact List.nodup_nil
  · intro x hx
    rw [hnone] at hx
    cases hx

def held (a : Atlas) : List Item :=
  a.heldStructures.map .structureAt ++ a.heldMethods.map .method

theorem held_perm (h : a.ledger.Closed) (hfault : (a.ledger.plan a.releaseTasks).fault = none) :
    ((a.ledger.plan a.releaseTasks).emptied.filterMap Emptied.item?).Perm a.held := by
  apply ((emptied_releaseTasks h hfault).filterMap Emptied.item?).trans
  rw [held, List.filterMap_append, List.filterMap_append, List.filterMap_map, List.filterMap_map,
    List.filterMap_map]
  have hnodes : a.graph.nodes.filterMap (Emptied.item? ∘ Emptied.node) = [] :=
    List.filterMap_eq_nil_iff.2 fun _ _ => rfl
  have hstructures : Emptied.item? ∘ Emptied.structureAt = some ∘ Item.structureAt := rfl
  have hmethods : Emptied.item? ∘ Emptied.method = some ∘ Item.method := rfl
  rw [hnodes, hstructures, hmethods, List.filterMap_eq_map, List.filterMap_eq_map, List.nil_append]

theorem emptied_iff_mem_held (h : a.ledger.Closed)
    (hfault : (a.ledger.plan a.releaseTasks).fault = none) {x : Item} :
    x.emptied ∈ (a.ledger.plan a.releaseTasks).emptied ↔ x ∈ a.held := by
  rw [← (held_perm h hfault).mem_iff, List.mem_filterMap]
  constructor
  · intro hx
    exact ⟨_, hx, Item.item?_emptied x⟩
  · rintro ⟨thing, hthing, he⟩
    exact Emptied.item?_eq_some.1 he ▸ hthing

theorem mem_held_iff (h : a.ledger.Closed) (hfault : (a.ledger.plan a.releaseTasks).fault = none)
    {x : Item} :
    x ∈ a.held ↔ ∃ p, a.ledger.NodeTrail a.graph.nodes p x := by
  rw [← emptied_iff_mem_held h hfault, exists_nodeTrail_iff, ← filterMap_item?_releaseTasks]
  constructor
  · intro hx
    rcases exists_trail_of_emptied hx with hleave | htrail
    · obtain ⟨n, -, hin⟩ := List.mem_flatMap.1 hleave
      rcases List.mem_append.1 hin with hin | hin
      · exact (leave_notMem_contentTasks _ _ _ hin).elim
      · cases x <;> simp [Item.emptied] at hin
    · exact htrail
  · exact emptied_of_trail h (fun x => known_releaseTasks h) hfault

theorem stats_release (h : a.ledger.Closed) (hfault : (a.ledger.plan a.releaseTasks).fault = none) :
    (a.ledger.carryOut (a.ledger.plan a.releaseTasks)).1 =
      a.ledger.tally a.nodes.length a.heldStructures a.heldMethods := by
  have hsum : ∀ count : ReleaseStats → Nat, count {} = 0 →
      (∀ state thing, count (emptyOut state thing).1 =
        count state.1 + count (state.2.dropped thing)) →
      count (a.ledger.carryOut (a.ledger.plan a.releaseTasks)).1 =
        addUp (a.graph.nodes.map fun n => count (a.ledger.dropped (.node n))) +
          (addUp (a.heldStructures.map fun s => count (a.ledger.dropped (.structureAt s))) +
            addUp (a.heldMethods.map fun m => count (a.ledger.dropped (.method m)))) := by
    intro count hzero hcount
    rw [carryOut, count_foldl_emptyOut hcount (nodup_emptied_releaseTasks a), hzero, Nat.zero_add]
    rw [addUp_perm ((emptied_releaseTasks h hfault).map _)]
    simp [Function.comp_def]
  have hcount : ∀ state thing, (emptyOut state thing).1.nodes =
      state.1.nodes + (state.2.dropped thing).nodes ∧
      (emptyOut state thing).1.structures = state.1.structures +
        (state.2.dropped thing).structures ∧
      (emptyOut state thing).1.methods = state.1.methods + (state.2.dropped thing).methods ∧
      (emptyOut state thing).1.parameters = state.1.parameters +
        (state.2.dropped thing).parameters ∧
      (emptyOut state thing).1.references = state.1.references +
        (state.2.dropped thing).references := by
    intro state thing
    cases thing <;> simp [emptyOut, dropped]
  ext
  · rw [hsum ReleaseStats.nodes rfl fun state thing => (hcount state thing).1]
    simp [dropped, tally, Atlas.nodes]
  · rw [hsum ReleaseStats.structures rfl fun state thing => (hcount state thing).2.1]
    simp [dropped, tally]
  · rw [hsum ReleaseStats.methods rfl fun state thing => (hcount state thing).2.2.1]
    simp [dropped, tally]
  · rw [hsum ReleaseStats.parameters rfl fun state thing => (hcount state thing).2.2.2.1]
    simp [dropped, tally]
  · rw [hsum ReleaseStats.references rfl fun state thing => (hcount state thing).2.2.2.2]
    simp [dropped, tally]

theorem cleared_of_mem_held (h : a.ledger.Closed)
    (hfault : (a.ledger.plan a.releaseTasks).fault = none) :
    (∀ m ∈ a.heldMethods, a.release.2.ledger.method m = (a.ledger.method m).cleared) ∧
      ∀ s ∈ a.heldStructures, a.release.2.ledger.structureAt s =
        (a.ledger.structureAt s).cleared := by
  rw [release_snd hfault]
  constructor
  · intro m hm
    have hgone : Emptied.method m ∈ (a.ledger.plan a.releaseTasks).emptied :=
      (emptied_iff_mem_held h hfault (x := .method m)).2
        (List.mem_append_right _ (List.mem_map_of_mem hm))
    exact (method_carryOut ..).trans (if_pos hgone)
  · intro s hs
    have hgone : Emptied.structureAt s ∈ (a.ledger.plan a.releaseTasks).emptied :=
      (emptied_iff_mem_held h hfault (x := .structureAt s)).2
        (List.mem_append_left _ (List.mem_map_of_mem hs))
    exact (structureAt_carryOut ..).trans (if_pos hgone)

theorem release_empty (l : Ledger) : Atlas.release { ledger := l } = (.ok {}, { ledger := l }) := by
  have hplan : l.plan (Atlas.releaseTasks { ledger := l }) = {} := by
    change l.planFrom [] [] [] = {}
    rw [planFrom]
  rw [release_eq, hplan]
  rfl

/-- Structures are only in nodes of structures, and methods only in nodes of methods. -/
def Layered (a : Atlas) : Prop :=
  ∀ n ∈ a.nodes, (n.layer ≠ .structures → n.structures = []) ∧ (n.layer ≠ .methods → n.methods = [])

theorem Grouped.layered {rs : List Record} (h : a.Grouped rs) : a.Layered := by
  intro n hn
  exact ⟨h.structures_eq_nil hn, h.methods_eq_nil hn⟩

theorem layered_run {ops : List Operation} (hr : ∀ fault, .brokenOff fault ∉ (Atlas.run {} ops).1) :
    (Atlas.run {} ops).2.Layered :=
  (grouped_run hr).layered

theorem Layered.held (h : a.Layered) :
    a.heldStructures = a.structures ∧
    a.heldMethods.Perm (a.methods ++ a.ledger.methodsIn a.structures) := by
  have hstructures : a.heldStructures = a.structures := by
    rw [heldStructures, Atlas.structures, flatMap_filter_of_nil]
    intro n hn hl
    exact (h n hn).1 (of_decide_eq_false hl)
  have hmethods : a.methods = a.nodes.flatMap fun n => n.methods.flatMap a.ledger.walk := by
    rw [Atlas.methods, flatMap_filter_of_nil]
    intro n hn hl
    rw [(h n hn).2 (of_decide_eq_false hl)]
    rfl
  refine ⟨hstructures, ?_⟩
  rw [← hstructures, hmethods, heldMethods, heldStructures, methodsIn, List.flatMap_assoc]
  exact (List.flatMap_append_perm a.nodes _ _).symm.trans List.perm_append_comm

theorem tally_perm {l : Ledger} {nodes : Nat} {ss : List StructureKey} {ms ms' : List MethodKey}
    (h : ms.Perm ms') :
    l.tally nodes ss ms = l.tally nodes ss ms' := by
  simp only [tally, h.length_eq, addUp_perm (h.map _)]

/-- A release of any graph, whatever its nodes list and however often, fails exactly when two trails
from the nodes meet. Otherwise it drops every node and every item that it holds once, counting its
parameters and references, and leaves the items free and empty; the graph is then a new one, which a
second release finds empty. In a graph whose layers are kept apart, as after every session without
broken releases, the items are the structures and methods that the graph answers, and the methods of
the structures. -/
theorem release_drops_each_item_once (a : Atlas) (h : a.ledger.Closed) :
    ((∃ fault, a.release.1 = .error fault) ↔
      ∃ x p q, p ≠ q ∧ a.ledger.NodeTrail a.graph.nodes p x ∧
        a.ledger.NodeTrail a.graph.nodes q x) ∧
    (∀ fault, a.release.1 = .error fault → fault.kind = .ownership) ∧
    (∀ ops, (∀ fault, .brokenOff fault ∉ (Atlas.run {} ops).1) → a = (Atlas.run {} ops).2 →
      a.Layered) ∧
    ∀ stats, a.release.1 = .ok stats →
      let b := a.release.2
      a.held.Nodup ∧ (∀ x, x ∈ a.held ↔ ∃ p, a.ledger.NodeTrail a.graph.nodes p x) ∧
      stats = a.ledger.tally a.nodes.length a.heldStructures a.heldMethods ∧
      (a.Layered →
        stats = a.ledger.tally a.nodes.length a.structures (a.methods ++
          a.ledger.methodsIn a.structures)) ∧
      (∀ m ∈ a.heldMethods, (b.ledger.method m).owner = none ∧ (b.ledger.method m).children = [] ∧
        (b.ledger.method m).calls = [] ∧ (b.ledger.method m).references = [] ∧
        (b.ledger.method m).head.parameters = []) ∧
      (∀ s ∈ a.heldStructures, (b.ledger.structureAt s).owner = none ∧
        (b.ledger.structureAt s).methods = [] ∧
        (b.ledger.structureAt s).head.traits = []) ∧
      b = { ledger := b.ledger } ∧ b.release = (.ok {}, b) := by
  refine ⟨?_, ?_, ?_, ?_⟩
  · have hnone : (∃ fault, a.release.1 = .error fault) ↔
        ¬(a.ledger.plan a.releaseTasks).fault = none := by
      simp only [release_error_iff, Option.ne_none_iff_exists', ← ne_eq]
    rw [hnone, fault_releaseTasks h]
    constructor
    · intro hmeet
      by_contra hno
      apply hmeet
      intro p q x hp hq
      by_contra hne
      exact hno ⟨x, p, q, hne, hp, hq⟩
    · rintro ⟨x, p, q, hne, hp, hq⟩ hclear
      exact hne (hclear p q x hp hq)
  · intro fault hf
    obtain ⟨x, rfl⟩ := fault_eq_twice (release_error_iff.1 hf)
    cases x <;> rfl
  · intro ops hr he
    rw [he]
    exact layered_run hr
  · intro stats hok
    obtain ⟨hfault, rfl⟩ := release_ok_iff.1 hok
    have hstats := stats_release h hfault
    obtain ⟨hmethods, hstructures⟩ := cleared_of_mem_held h hfault
    refine ⟨?_, fun x => mem_held_iff h hfault, hstats, ?_, ?_, ?_, ?_, ?_⟩
    · exact (held_perm h hfault).nodup_iff.1 (nodup_emptied_releaseTasks a)
    · intro hlayered
      rw [hstats, hlayered.held.1, tally_perm hlayered.held.2]
    · intro m hm
      rw [hmethods m hm]
      exact ⟨rfl, rfl, rfl, rfl, rfl⟩
    · intro s hs
      rw [hstructures s hs]
      exact ⟨rfl, rfl, rfl⟩
    · rw [release_snd hfault]
    · rw [release_snd hfault]
      exact release_empty _

/-- A method that has no owner was put into the node of an import. -/
def strayMethod : Atlas :=
  let a := (Atlas.run {} [.openRecord ['p'] .modules .python (some ['m']) [] [], .merge ⟨0⟩,
    .makeMethod { name := ['f'] } [] []]).2
  { a with ledger := a.ledger.listMethod (.ofNode ⟨0⟩) ⟨0⟩ }

theorem release_counts_strayMethod :
    ∃ stats, strayMethod.release.1 = .ok stats ∧ stats.methods = 1 ∧
      strayMethod.methods ++ strayMethod.ledger.methodsIn strayMethod.structures = [] := by
  have hrelease : strayMethod.release.1 = .ok { nodes := 1, methods := 1 } := by decide +kernel
  exact ⟨_, hrelease, rfl, by decide⟩

/-- A method that is inside itself was put into the node of an import. -/
def circledMethod : Atlas :=
  let a := (Atlas.run {} [.openRecord ['p'] .modules .python (some ['m']) [] [], .merge ⟨0⟩,
    .makeMethod { name := ['f'] } [] [], .addChild ⟨0⟩ ⟨0⟩]).2
  { a with ledger := a.ledger.listMethod (.ofNode ⟨0⟩) ⟨0⟩ }

theorem release_of_circledMethod :
    circledMethod.ledger.Closed ∧ strayMethod.ledger.Closed ∧
      (∃ fault, circledMethod.release.1 = .error fault) ∧
      ∃ stats, strayMethod.release.1 = .ok stats ∧ stats = strayMethod.ledger.tally 1 [] [⟨0⟩] ∧
        strayMethod.release.2.release = (.ok {}, strayMethod.release.2) := by
  have hcircled : circledMethod.ledger.Closed := by
    apply Closed.listMethod
    · apply Exclusive.closed
      exact exclusive_run exclusive_empty (unbroken_of_check (by decide))
    · decide
  have hstray : strayMethod.ledger.Closed := by
    apply Closed.listMethod
    · apply Exclusive.closed
      exact exclusive_run exclusive_empty (unbroken_of_check (by decide))
    · decide
  have hnodes : circledMethod.graph.nodes = [⟨0⟩] := by decide
  have hnode : circledMethod.ledger.contents (.ofNode ⟨0⟩) = [.method ⟨0⟩] := by decide
  have hself : circledMethod.ledger.contents (.ofMethod ⟨0⟩) = [.method ⟨0⟩] := by decide
  refine ⟨hcircled, hstray, ?_, ?_⟩
  · apply (release_drops_each_item_once circledMethod hcircled).1.2
    refine ⟨.method ⟨0⟩, [0, 0], [0, 0, 0],
      by simp, ⟨⟨0⟩, by simp [hnodes], ?_⟩, ⟨⟨0⟩, by simp [hnodes], ?_⟩⟩
    · exact .here (by rw [hnode]; rfl)
    · exact .inside (y := .method ⟨0⟩) (by rw [hnode]; rfl)
        (.here (by rw [Item.asOwner, hself]; rfl))
  · have hrelease : strayMethod.release.1 = .ok { nodes := 1, methods := 1 } := by decide +kernel
    obtain ⟨-, -, hstats, -, -, -, -, hagain⟩ :=
      (release_drops_each_item_once strayMethod hstray).2.2.2 _ hrelease
    exact ⟨_, hrelease, hstats, hagain⟩

end Atlas

end DependencyAtlas
