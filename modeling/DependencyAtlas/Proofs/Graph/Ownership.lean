import DependencyAtlas.Proofs.Graph.Merge
import DependencyAtlas.Proofs.Ledger.Release

namespace DependencyAtlas

open Ledger

namespace Atlas

variable {a : Atlas} {k : RecordKey}

theorem contents_appendNode (a : Atlas) (source : Text) (layer : Layer) (language : Language)
    (target : Option Text) (o : Owner) :
    (a.appendNode { source, layer, language, target }).2.ledger.contents o = a.ledger.contents o :=
  contents_addNode a.ledger source layer language target o

theorem ownerOf_appendNode (a : Atlas) (n : Node) (x : Item) :
    (a.appendNode n).2.ledger.ownerOf x = a.ledger.ownerOf x := by
  cases x <;> rfl

theorem contents_nodeFor (a : Atlas) (r : Record) (o : Owner) :
    (a.nodeFor r).2.ledger.contents o = a.ledger.contents o := by
  unfold nodeFor
  split
  · rfl
  · exact contents_appendNode a r.path r.layer r.language none o

theorem ownerOf_nodeFor (a : Atlas) (r : Record) (x : Item) :
    (a.nodeFor r).2.ledger.ownerOf x = a.ledger.ownerOf x := by
  rw [nodeFor_ledger]
  cases x <;> rfl

theorem has_nodeFor (a : Atlas) (r : Record) (x : Item) :
    (a.nodeFor r).2.ledger.Has x.asOwner ↔ a.ledger.Has x.asOwner := by
  rw [nodeFor_ledger]
  cases x <;> rfl

theorem contents_updateNode_methodCount (l : Ledger) (n : NodeKey) (c : Nat) (o : Owner) :
    (l.updateNode n fun e => { e with methodCount := c }).contents o = l.contents o := by
  cases o with
  | ofNode j =>
    simp only [contents, node_updateNode]
    split <;> rfl
  | _ => rfl

theorem exclusive_mergeStructures (h : a.ledger.Exclusive) (k : RecordKey) :
    (a.mergeStructures k).2.ledger.Exclusive := by
  unfold mergeStructures
  split
  · exact h
  · next structures ledger ht =>
    have hnode : (nodeFor { a with ledger } (a.ledger.record k)).2.ledger.Exclusive :=
      (h.takeStructures ht).congr (contents_nodeFor _ _) (ownerOf_nodeFor _ _)
    have hhas : ∀ s ∈ structures,
        (nodeFor { a with ledger } (a.ledger.record k)).2.ledger.Has (.ofStructure s) := by
      intro s hs
      obtain ⟨-, rfl, rfl⟩ := takeStructures_eq_ok_iff.1 ht
      apply (has_nodeFor _ _ (.structureAt s)).2
      apply (has_disownStructures ..).2
      exact has_of_ownerOf (h (.ofRecord k) (.structureAt s)
        (List.mem_append_left _ (List.mem_map_of_mem hs)))
    generalize nodeFor { a with ledger } (a.ledger.record k) = p at hnode hhas ⊢
    obtain ⟨n, b⟩ := p
    have hadopt := hnode.adoptStructures (.ofNode n) hhas
    simp only
    split
    · next he => rwa [he] at hadopt
    · next he => rwa [he] at hadopt

theorem exclusive_mergeMethods (h : a.ledger.Exclusive) (k : RecordKey) :
    (a.mergeMethods k).2.ledger.Exclusive := by
  unfold mergeMethods
  split
  · exact h
  · next methods ledger ht =>
    have hnode : (nodeFor { a with ledger } (a.ledger.record k)).2.ledger.Exclusive :=
      (h.takeMethods ht).congr (contents_nodeFor _ _) (ownerOf_nodeFor _ _)
    have hhas : ∀ m ∈ methods,
        (nodeFor { a with ledger } (a.ledger.record k)).2.ledger.Has (.ofMethod m) := by
      intro m hm
      obtain ⟨-, rfl, rfl⟩ := takeMethods_eq_ok_iff.1 ht
      apply (has_nodeFor _ _ (.method m)).2
      apply (has_disownMethods ..).2
      exact has_of_ownerOf (h (.ofRecord k) (.method m)
        (List.mem_append_right _ (List.mem_map_of_mem hm)))
    simp only
    generalize nodeFor { a with ledger } (a.ledger.record k) = p at hnode hhas ⊢
    obtain ⟨n, b⟩ := p
    have hadopt := hnode.adoptMethods (.ofNode n) hhas
    simp only
    split
    · next he => rwa [he] at hadopt
    · next l' he =>
      rw [he] at hadopt
      have hcount :=
        hadopt.congr (contents_updateNode_methodCount l' n (countMethods l' n)) fun x => by
          cases x <;> rfl
      have halike := alike_linkCalls
        { b with ledger := l'.updateNode n fun e => { e with methodCount := countMethods l' n } }
        (a.ledger.record k).path methods
      exact hcount.congr halike.contents halike.ownerOf

theorem exclusive_mergeImport (h : a.ledger.Exclusive) (k : RecordKey) :
    (a.mergeImport k).2.ledger.Exclusive := by
  unfold mergeImport
  split
  · exact h
  · next ledger hc =>
    have hconsumed := h.consume hc
    simp only
    split
    · exact hconsumed
    · exact hconsumed.congr (contents_appendNode _ _ _ _ _) (ownerOf_appendNode _ _)

/-- A merge, accepted or refused, keeps ownership exclusive. -/
theorem exclusive_merge (h : a.ledger.Exclusive) (k : RecordKey) :
    (a.merge k).2.ledger.Exclusive := by
  unfold merge
  simp only
  split
  · exact h
  · split
    · exact h
    · split
      · exact exclusive_mergeImport h k
      · exact exclusive_mergeStructures h k
      · exact exclusive_mergeMethods h k

/-- The tasks of a release of the whole graph. -/
def releaseTasks (a : Atlas) : List ReleaseTask :=
  a.graph.nodes.flatMap fun k =>
    contentTasks (a.ledger.node k).structures (a.ledger.node k).methods ++ [.leave (.node k)]

theorem release_eq (a : Atlas) :
    a.release =
      match (a.ledger.plan a.releaseTasks).fault with
      | some fault =>
        (.error fault, { a with ledger := (a.ledger.carryOut (a.ledger.plan a.releaseTasks)).2 })
      | none =>
        (.ok (a.ledger.carryOut (a.ledger.plan a.releaseTasks)).1,
          { ledger := (a.ledger.carryOut (a.ledger.plan a.releaseTasks)).2 }) :=
  rfl

theorem origin_of_releaseTasks {x : Item}
    (hx : .leave x.emptied ∈ a.releaseTasks ∨ x.enter ∈ a.releaseTasks) :
    ∃ n, .leave (.node n) ∈ a.releaseTasks ∧ x ∈ a.ledger.contents (.ofNode n) := by
  have hleave : .leave x.emptied ∉ a.releaseTasks := by
    cases x <;> simp [releaseTasks, contentTasks, Item.emptied]
  rcases hx with hx | hx
  · exact (hleave hx).elim
  · obtain ⟨n, hn, hx⟩ := List.mem_flatMap.1 hx
    refine ⟨n, List.mem_flatMap.2 ⟨n, hn, by simp⟩, ?_⟩
    rcases List.mem_append.1 hx with hx | hx
    · exact enter_mem_contentTasks.1 hx
    · cases x <;> simp [Item.enter] at hx

/-- A release of the graph that is not broken off leaves ownership exclusive. -/
theorem exclusive_release {stats : ReleaseStats} (h : a.ledger.Exclusive)
    (hr : a.release.1 = .ok stats) :
    a.release.2.ledger.Exclusive := by
  rw [release_eq] at hr ⊢
  split at hr
  · cases hr
  · next hfault =>
    apply h.of_released hfault
    · intro o x hs hx
      obtain ⟨n, hleave, hn⟩ := origin_of_releaseTasks hs
      rw [h.unique hx hn]
      have hgone : Emptied.node n ∈ (a.ledger.plan a.releaseTasks).emptied :=
        leave_mem_emptied hfault hleave
      simp only [contents, node_carryOut, if_pos hgone]
      rfl
    · intro o x hx
      exact hx
    · intro x
      rfl

end Atlas

end DependencyAtlas
