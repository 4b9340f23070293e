import DependencyAtlas.Proofs.Graph.MergeLog
import DependencyAtlas.Proofs.Ledger.Sharing

namespace DependencyAtlas

namespace Ledger

variable {l l' : Ledger} {ms ss : List Nat} {tasks rest : List ReleaseTask} {ns : List NodeKey}
  {n : NodeKey} {x y : Item} {thing : Emptied}

theorem length_methods_emptyOut (state : ReleaseStats × Ledger) (thing : Emptied) :
    (emptyOut state thing).2.methods.length = state.2.methods.length := by
  cases thing <;> simp [emptyOut, updateStructure, updateNode]

theorem length_structures_emptyOut (state : ReleaseStats × Ledger) (thing : Emptied) :
    (emptyOut state thing).2.structures.length = state.2.structures.length := by
  cases thing <;> simp [emptyOut, updateMethod, updateNode]

theorem length_nodes_carryOut (l : Ledger) (p : ReleasePlan) :
    (l.carryOut p).2.nodes.length = l.nodes.length := by
  apply foldl_keeps fun state : ReleaseStats × Ledger => state.2.nodes.length
  intro state thing
  cases thing <;> simp [emptyOut, updateMethod, updateStructure]

def nodeTasks (l : Ledger) (n : NodeKey) : List ReleaseTask :=
  contentTasks (l.node n).structures (l.node n).methods ++ [.leave (.node n)]

/-- A release that empties things as it goes, and reads what is inside them, and inside the nodes
still to come, only when it gets there. -/
def sweep (methods structures : List Nat) (state : ReleaseStats × Ledger) :
    List ReleaseTask → List NodeKey → Option LedgerFault × ReleaseStats × Ledger
  | [], [] => (none, state)
  | [], n :: nodes => sweep methods structures state (state.2.nodeTasks n) nodes
  | .leave thing :: rest, nodes => sweep methods structures (emptyOut state thing) rest nodes
  | .enterMethod k :: rest, nodes =>
    if hk : k.index < state.2.methods.length then
      if hs : k.index ∈ methods then
        (some (.methodReleasedTwice (state.2.method k).head.name), state)
      else
        sweep (k.index :: methods) structures state
          ((state.2.method k).children.map .enterMethod ++ .leave (.method k) :: rest) nodes
    else sweep methods structures state rest nodes
  | .enterStructure k :: rest, nodes =>
    if hk : k.index < state.2.structures.length then
      if hs : k.index ∈ structures then
        (some (.structureReleasedTwice (state.2.structureAt k).head.name), state)
      else
        sweep methods (k.index :: structures) state
          ((state.2.structureAt k).methods.map .enterMethod ++
            .leave (.structureAt k) :: rest) nodes
    else sweep methods structures state rest nodes
termination_by tasks nodes =>
  (FirstSeen.remaining (List.range state.2.methods.length) methods +
    FirstSeen.remaining (List.range state.2.structures.length) structures, nodes.length,
    tasks.length)
decreasing_by
  · exact Prod.Lex.right _ (Prod.Lex.left _ _ (by simp))
  · rw [length_methods_emptyOut, length_structures_emptyOut]
    exact Prod.Lex.right _ (Prod.Lex.right _ (by simp))
  · exact Prod.Lex.left _ _
      (Nat.add_lt_add_right (FirstSeen.remaining_cons_lt (List.mem_range.2 hk) hs) _)
  · exact Prod.Lex.right _ (Prod.Lex.right _ (by simp))
  · exact Prod.Lex.left _ _
      (Nat.add_lt_add_left (FirstSeen.remaining_cons_lt (List.mem_range.2 hk) hs) _)
  · exact Prod.Lex.right _ (Prod.Lex.right _ (by simp))

/-- Where a sweep stands, `l` being the ledger that it began with and `l'` the one that it has come
to. The items that it has not met and the nodes to come are as they were, and it has met whatever it
is about to leave. -/
structure Underway (l l' : Ledger) (ms ss : List Nat) (tasks : List ReleaseTask)
    (ns : List NodeKey) : Prop where
  has : ∀ x : Item, l'.Has x.asOwner ↔ l.Has x.asOwner
  twice : ∀ x, l'.twice x = l.twice x
  contents : ∀ x, ¬Met ms ss x → l'.contents x.asOwner = l.contents x.asOwner
  nodes : ∀ n ∈ ns, l'.node n = l.node n
  left : ∀ x : Item, .leave x.emptied ∈ tasks → Met ms ss x
  leftNodes : ∀ n, .leave (.node n) ∈ tasks → n ∉ ns
  distinct : ns.Nodup

theorem underway_start (l : Ledger) (hns : ns.Nodup) : Underway l l [] [] [] ns where
  has _ := Iff.rfl
  twice _ := rfl
  contents _ _ := rfl
  nodes _ _ := rfl
  left _ hin := by cases hin
  leftNodes _ hin := by cases hin
  distinct := hns

theorem Underway.tail {task : ReleaseTask} (h : Underway l l' ms ss (task :: rest) ns) :
    Underway l l' ms ss rest ns where
  has := h.has
  twice := h.twice
  contents := h.contents
  nodes := h.nodes
  left x hin := h.left x (List.mem_cons_of_mem _ hin)
  leftNodes n hin := h.leftNodes n (List.mem_cons_of_mem _ hin)
  distinct := h.distinct

theorem Underway.leave {state : ReleaseStats × Ledger}
    (h : Underway l state.2 ms ss (.leave thing :: rest) ns) :
    Underway l (emptyOut state thing).2 ms ss rest ns where
  has x := by
    rw [← h.has x]
    cases x with
    | method k => exact iff_of_eq (congrArg (k.index < ·) (length_methods_emptyOut ..))
    | structureAt k => exact iff_of_eq (congrArg (k.index < ·) (length_structures_emptyOut ..))
  twice x := by
    rw [← h.twice x]
    cases x with
    | method k =>
      rw [Ledger.twice, method_emptyOut]
      split <;> rfl
    | structureAt k =>
      rw [Ledger.twice, structureAt_emptyOut]
      split <;> rfl
  contents x hx := by
    have hne : thing ≠ x.emptied := by
      rintro rfl
      exact hx (h.left x List.mem_cons_self)
    rw [← h.contents x hx]
    cases x with
    | method k =>
      have hsame := (method_emptyOut state thing k).trans (if_neg hne)
      rw [Item.asOwner, Ledger.contents, hsame, Ledger.contents]
    | structureAt k =>
      have hsame := (structureAt_emptyOut state thing k).trans (if_neg hne)
      rw [Item.asOwner, Ledger.contents, hsame, Ledger.contents]
  nodes n hn := by
    have hne : thing ≠ .node n := by
      rintro rfl
      exact h.leftNodes n List.mem_cons_self hn
    rw [node_emptyOut, if_neg hne, h.nodes n hn]
  left := h.tail.left
  leftNodes := h.tail.leftNodes
  distinct := h.distinct

theorem Underway.enter (h : Underway l l' ms ss (x.enter :: rest) ns) :
    Underway l l' (metMethods ms x) (metStructures ss x)
      ((l'.contents x.asOwner).map Item.enter ++ .leave x.emptied :: rest) ns := by
  have hleave : ∀ thing, .leave thing ∉ (l'.contents x.asOwner).map Item.enter := by
    intro thing hin
    obtain ⟨y, -, hy⟩ := List.mem_map.1 hin
    cases y <;> cases hy
  refine ⟨h.has, h.twice, ?_, h.nodes, ?_, ?_, h.distinct⟩
  · intro y hy
    exact h.contents y fun hmet => hy (met_iff.2 (.inr hmet))
  · intro y hin
    rcases List.mem_append.1 hin with hin | hin
    · exact (hleave _ hin).elim
    · rcases List.mem_cons.1 hin with he | hin
      · exact met_iff.2 (.inl (by cases x <;> cases y <;> cases he <;> rfl))
      · exact met_iff.2 (.inr (h.tail.left y hin))
  · intro n hin
    rcases List.mem_append.1 hin with hin | hin
    · exact (hleave _ hin).elim
    · rcases List.mem_cons.1 hin with he | hin
      · cases x <;> cases he
      · exact h.tail.leftNodes n hin

theorem Underway.nextNode (h : Underway l l' ms ss [] (n :: ns)) :
    Underway l l' ms ss (l'.nodeTasks n) ns := by
  obtain ⟨hnew, hns⟩ := List.nodup_cons.1 h.distinct
  have hlast : ∀ thing, .leave thing ∈ l'.nodeTasks n → thing = .node n := by
    intro thing hin
    rcases List.mem_append.1 hin with hin | hin
    · exact (leave_notMem_contentTasks _ _ _ hin).elim
    · cases List.mem_singleton.1 hin
      rfl
  refine ⟨h.has, h.twice, h.contents, fun m hm => h.nodes m (List.mem_cons_of_mem _ hm), ?_,
    ?_, hns⟩
  · intro x hin
    cases x <;> cases hlast _ hin
  · intro m hin
    cases hlast _ hin
    exact hnew

theorem Underway.planFrom_enter (h : Underway l l' ms ss (x.enter :: rest) ns)
    (hx : l'.Has x.asOwner) (hm : ¬Met ms ss x) (more : List ReleaseTask) :
    l.planFrom ms ss (x.enter :: rest ++ more) =
      l.planFrom (metMethods ms x) (metStructures ss x)
        ((l'.contents x.asOwner).map Item.enter ++ .leave x.emptied :: rest ++ more) := by
  rw [List.cons_append, Ledger.planFrom_enter ((h.has x).1 hx) hm, h.contents x hm,
    List.append_assoc, List.cons_append]

theorem Underway.planFrom_again (h : Underway l l' ms ss (x.enter :: rest) ns)
    (hx : l'.Has x.asOwner) (hm : Met ms ss x) (more : List ReleaseTask) :
    l.planFrom ms ss (x.enter :: rest ++ more) = { fault := some (l'.twice x) } := by
  rw [List.cons_append, Ledger.planFrom_again ((h.has x).1 hx) hm, h.twice]

theorem Underway.planFrom_unknown (h : Underway l l' ms ss (x.enter :: rest) ns)
    (hx : ¬l'.Has x.asOwner) (more : List ReleaseTask) :
    l.planFrom ms ss (x.enter :: rest ++ more) = l.planFrom ms ss (rest ++ more) := by
  rw [List.cons_append, Ledger.planFrom_unknown fun hl => hx ((h.has x).2 hl)]

/-- What comes of a plan that is carried out from some state. -/
def outcome (state : ReleaseStats × Ledger) (p : ReleasePlan) :
    Option LedgerFault × ReleaseStats × Ledger :=
  (p.fault, p.emptied.foldl emptyOut state)

/-- Emptying the ledger on the way changes neither what a release comes to nor where it stops. -/
theorem sweep_eq {state : ReleaseStats × Ledger} (h : Underway l state.2 ms ss tasks ns) :
    sweep ms ss state tasks ns =
      outcome state (l.planFrom ms ss (tasks ++ ns.flatMap l.nodeTasks)) := by
  fun_induction sweep ms ss state tasks ns with
  | case1 ms ss state =>
    rw [List.flatMap_nil, List.nil_append, planFrom]
    rfl
  | case2 ms ss state n ns ih =>
    have hsame : state.2.nodeTasks n = l.nodeTasks n := by
      rw [nodeTasks, h.nodes n List.mem_cons_self, nodeTasks]
    rw [ih h.nextNode, hsame, List.nil_append, List.flatMap_cons]
  | case3 ms ss state thing rest ns ih =>
    rw [ih h.leave, List.cons_append, planFrom_leave]
    rfl
  | case4 ms ss state k rest ns hk hs =>
    exact (congrArg (outcome state) (h.planFrom_again (x := .method k) hk hs _)).symm
  | case5 ms ss state k rest ns hk hs ih =>
    have hplan := h.planFrom_enter (x := .method k) hk hs (ns.flatMap l.nodeTasks)
    have hnext := h.enter (x := .method k)
    rw [Item.asOwner, contents, List.map_map] at hplan hnext
    exact (ih hnext).trans (congrArg (outcome state) hplan).symm
  | case6 ms ss state k rest ns hk ih =>
    have hskip := h.planFrom_unknown (x := .method k) hk (ns.flatMap l.nodeTasks)
    exact (ih h.tail).trans (congrArg (outcome state) hskip).symm
  | case7 ms ss state k rest ns hk hs =>
    exact (congrArg (outcome state) (h.planFrom_again (x := .structureAt k) hk hs _)).symm
  | case8 ms ss state k rest ns hk hs ih =>
    have hplan := h.planFrom_enter (x := .structureAt k) hk hs (ns.flatMap l.nodeTasks)
    have hnext := h.enter (x := .structureAt k)
    rw [Item.asOwner, contents, List.map_map] at hplan hnext
    exact (ih hnext).trans (congrArg (outcome state) hplan).symm
  | case9 ms ss state k rest ns hk ih =>
    have hskip := h.planFrom_unknown (x := .structureAt k) hk (ns.flatMap l.nodeTasks)
    exact (ih h.tail).trans (congrArg (outcome state) hskip).symm

theorem releaseRecord_eq_sweep (l : Ledger) (k : RecordKey) (hk : (l.record k).consumed = false) :
    l.releaseRecord k =
      match sweep [] [] ({}, l) (contentTasks (l.record k).structures (l.record k).methods) [] with
      | (some fault, _, l) => (.error fault, l)
      | (none, stats, l) =>
        (.ok stats, l.updateRecord k fun r =>
          { r with structures := [], methods := [], consumed := true }) := by
  have hstart :
      Underway l l [] [] (contentTasks (l.record k).structures (l.record k).methods) [] := by
    refine { underway_start l .nil with left := ?_, leftNodes := ?_ }
    · intro x hin
      exact (leave_notMem_contentTasks _ _ _ hin).elim
    · intro n hin
      exact (leave_notMem_contentTasks _ _ _ hin).elim
  generalize htasks : contentTasks (l.record k).structures (l.record k).methods = tasks at hstart ⊢
  have hsweep : sweep [] [] ({}, l) tasks [] = outcome ({}, l) (l.plan tasks) := by
    rw [sweep_eq hstart, List.flatMap_nil, List.append_nil, plan]
  rw [hsweep, outcome, releaseRecord, hk, if_neg Bool.false_ne_true, htasks]
  cases hfault : (l.plan tasks).fault with
  | none => simp [hfault, carryOut]
  | some fault => simp [hfault, carryOut]

end Ledger

namespace Atlas

open Ledger

variable {a b : Atlas} {op : Operation}

/-- The nodes of the graph are known and each is there once. -/
structure NodesApart (a : Atlas) : Prop where
  known : ∀ n ∈ a.graph.nodes, n.index < a.ledger.nodes.length
  distinct : a.graph.nodes.Nodup

theorem nodesApart_empty (l : Ledger) : NodesApart { ledger := l } :=
  ⟨by simp, .nil⟩

theorem NodesApart.congr (h : a.NodesApart) (hgraph : b.graph.nodes = a.graph.nodes)
    (hnodes : b.ledger.nodes.length = a.ledger.nodes.length) : b.NodesApart := by
  refine ⟨?_, hgraph ▸ h.distinct⟩
  rw [hgraph, hnodes]
  exact h.known

theorem NodesApart.placed (h : a.NodesApart) {r : Record} {answer : Option NodeKey}
    (hplaced : Placed a r b answer) : b.NodesApart := by
  cases hplaced with
  | repeated _ _ hgraph hentries => exact h.congr (hgraph ▸ rfl) (hentries ▸ rfl)
  | extended _ _ _ _ _ hnodes _ _ hentries =>
    exact h.congr hnodes (by rw [hentries, List.length_modify])
  | opened _ _ hnodes _ _ hentries =>
    have hnew : ⟨a.ledger.nodes.length⟩ ∉ a.graph.nodes :=
      fun hin => Nat.lt_irrefl _ (h.known _ hin)
    constructor
    · rw [hnodes, hentries, List.length_append, List.length_singleton]
      intro n hn
      rcases List.mem_append.1 hn with hn | hn
      · exact Nat.lt_succ_of_lt (h.known n hn)
      · cases List.mem_singleton.1 hn
        exact Nat.lt_succ_self _
    · rw [hnodes]
      exact h.distinct.append (List.nodup_singleton _) (List.disjoint_singleton.2 hnew)

theorem NodesApart.step (h : a.NodesApart) (op : Operation) : (a.step op).2.NodesApart := by
  obtain ⟨reply, b, he, heffect⟩ := a.step_effect op
  rw [he]
  cases heffect with
  | kept => exact h
  | edited _ _ _ hl => exact h.congr rfl (congrArg List.length hl.keeps.nodes)
  | cutShort _ => exact h.congr rfl (congrArg List.length (keeps_releaseRecord ..).nodes)
  | merged hmerge => exact h.placed (placed_of_merge hmerge).2
  | released _ => exact nodesApart_empty _
  | stuck hstuck =>
    rw [release_eq] at hstuck
    split at hstuck
    · cases hstuck
      exact h.congr rfl (length_nodes_carryOut ..)
    · cases hstuck

theorem nodesApart_run (ops : List Operation) (h : a.NodesApart) : (a.run ops).2.NodesApart := by
  induction ops generalizing a with
  | nil => exact h
  | cons op ops ih => exact ih (h.step op)

theorem release_eq_sweep (ops : List Operation) :
    let a := (Atlas.run {} ops).2
    a.release =
      match sweep [] [] ({}, a.ledger) [] a.graph.nodes with
      | (some fault, _, ledger) => (.error fault, { a with ledger })
      | (none, stats, ledger) => (.ok stats, { ledger }) := by
  intro a
  have hapart : a.NodesApart := nodesApart_run ops (nodesApart_empty {})
  have hsweep : sweep [] [] ({}, a.ledger) [] a.graph.nodes =
      outcome ({}, a.ledger) (a.ledger.plan a.releaseTasks) :=
    sweep_eq (underway_start a.ledger hapart.distinct)
  rw [hsweep, release_eq, outcome]
  cases (a.ledger.plan a.releaseTasks).fault with
  | none => rfl
  | some fault => rfl

end Atlas

end DependencyAtlas
