import DependencyAtlas.Graph.Relationship
import DependencyAtlas.Proofs.Graph.Groups
import DependencyAtlas.Proofs.Session

namespace DependencyAtlas

open Ledger

def mergeLog (replies : List Reply) : List (Record × Option NodeKey) :=
  replies.filterMap Reply.merge?

namespace Atlas

variable {a b : Atlas} {rs : List Record}

theorem step_cases (a : Atlas) {op : Operation} (hrelease : op ≠ .release) :
    ((a.step op).2.graph = a.graph ∧ (a.step op).2.ledger.nodes = a.ledger.nodes ∧
      (a.step op).1.merge? = none) ∨
    ∃ r answer, (a.step op).1.merge? = some (r, answer) ∧ Accepted r ∧
      Placed a r (a.step op).2 answer := by
  obtain ⟨reply, b, he, heffect⟩ := a.step_effect op
  rw [he]
  cases heffect with
  | kept _ hquiet _ => exact .inl ⟨rfl, rfl, hquiet⟩
  | edited _ hquiet _ hl => exact .inl ⟨rfl, hl.keeps.nodes, hquiet⟩
  | cutShort _ => exact .inl ⟨rfl, (keeps_releaseRecord ..).nodes, rfl⟩
  | merged hmerge =>
    obtain ⟨hok, hplaced⟩ := placed_of_merge hmerge
    exact .inr ⟨_, _, rfl, hok, hplaced⟩
  | released _ => exact (hrelease rfl).elim
  | stuck _ => exact (hrelease rfl).elim

theorem Grouped.congr (h : a.Grouped rs) (hgraph : b.graph = a.graph)
    (hnodes : b.ledger.nodes = a.ledger.nodes) :
    b.Grouped rs := by
  have hnode : b.ledger.node = a.ledger.node := by
    funext n
    rw [node, hnodes, ← node]
  refine ⟨h.accepted, ?_, ?_, ?_, ?_⟩
  · rw [hgraph, hnodes]
    exact h.known
  · rw [Atlas.nodes, hgraph, hnode]
    exact h.nodes
  · rw [hgraph, hnode]
    exact h.byFile
  · rw [hgraph]
    exact h.edges

theorem Grouped.step_keeps (h : a.Grouped rs) {op : Operation} (hrelease : op ≠ .release)
    {n : NodeKey} (hn : n ∈ a.graph.nodes) :
    n ∈ (a.step op).2.graph.nodes ∧
    ((a.step op).2.ledger.node n).group = (a.ledger.node n).group := by
  rcases step_cases a hrelease with ⟨hgraph, hnodes, -⟩ | ⟨r, answer, -, -, hplaced⟩
  · exact ⟨hgraph ▸ hn, by rw [node, hnodes, ← node]⟩
  · refine ⟨?_, hplaced.group_eq (h.known n hn)⟩
    cases hplaced with
    | repeated _ _ hgraph _ => exact hgraph ▸ hn
    | opened _ _ hnodes _ _ _ => exact hnodes ▸ List.mem_append_left _ hn
    | extended _ _ _ _ _ hnodes _ _ _ => exact hnodes ▸ hn

theorem Grouped.step (h : a.Grouped rs) {op : Operation} (hrelease : op ≠ .release) :
    (a.step op).2.Grouped (rs ++ ((a.step op).1.merge?.map Prod.fst).toList) := by
  rcases step_cases a hrelease with ⟨hgraph, hnodes, hnone⟩ | ⟨r, answer, hsome, hok, hplaced⟩
  · rw [hnone]
    simpa using h.congr hgraph hnodes
  · rw [hsome]
    exact h.merge hok hplaced

theorem mergeLog_cons (reply : Reply) (replies : List Reply) :
    mergeLog (reply :: replies) = reply.merge?.toList ++ mergeLog replies := by
  cases h : reply.merge? <;> simp [mergeLog, h]

theorem Grouped.run (h : a.Grouped rs) {ops : List Operation} (hops : .release ∉ ops) :
    (a.run ops).2.Grouped (rs ++ (mergeLog (a.run ops).1).map Prod.fst) := by
  induction ops generalizing a rs with
  | nil => simpa [Atlas.run, mergeLog] using h
  | cons op ops ih =>
    have hstep := h.step (Ne.symm (List.ne_of_not_mem_cons hops))
    have hrest := ih hstep (List.not_mem_of_not_mem_cons hops)
    rw [run_cons, mergeLog_cons, List.map_append, ← List.append_assoc]
    cases hm : (a.step op).1.merge? <;> simpa [hm] using hrest

theorem Grouped.run_keeps (h : a.Grouped rs) {ops : List Operation} (hops : .release ∉ ops)
    {n : NodeKey} (hn : n ∈ a.graph.nodes) :
    n ∈ (a.run ops).2.graph.nodes ∧
    ((a.run ops).2.ledger.node n).group = (a.ledger.node n).group := by
  induction ops generalizing a rs with
  | nil => exact ⟨hn, rfl⟩
  | cons op ops ih =>
    have hop : op ≠ .release := Ne.symm (List.ne_of_not_mem_cons hops)
    obtain ⟨hmem, hgroup⟩ := h.step_keeps hop hn
    obtain ⟨hmem', hgroup'⟩ := ih (h.step hop) (List.not_mem_of_not_mem_cons hops) hmem
    exact ⟨hmem', hgroup'.trans hgroup⟩

theorem Grouped.run_answers (h : a.Grouped rs) {ops : List Operation} (hops : .release ∉ ops)
    {before after : List (Record × Option NodeKey)} {r : Record} {answer : Option NodeKey}
    (hlog : mergeLog (a.run ops).1 = before ++ (r, answer) :: after) :
    (answer = none ↔ r.layer = .modules ∧ r.group ∈ (rs ++ before.map Prod.fst).map Record.group) ∧
      ∀ n, answer = some n → n ∈ (a.run ops).2.graph.nodes ∧
        ((a.run ops).2.ledger.node n).group = r.group := by
  induction ops generalizing a rs before with
  | nil => simp [Atlas.run, mergeLog] at hlog
  | cons op ops ih =>
    have hop : op ≠ .release := Ne.symm (List.ne_of_not_mem_cons hops)
    have hrest := List.not_mem_of_not_mem_cons hops
    have hstep := h.step hop
    rw [run_cons] at hlog ⊢
    rw [mergeLog_cons] at hlog
    rcases step_cases a hop with ⟨-, -, hnone⟩ | ⟨s, given, hsome, hok, hplaced⟩
    · rw [hnone] at hlog hstep
      simpa using ih hstep hrest hlog
    · rw [hsome] at hlog hstep
      cases before with
      | nil =>
        obtain ⟨rfl, rfl⟩ := Prod.mk.inj (List.head_eq_of_cons_eq hlog)
        refine ⟨by simpa using h.answer_eq_none_iff hok hplaced, ?_⟩
        rintro n rfl
        obtain ⟨hmem, hgroup⟩ := h.group_of_answer hplaced
        obtain ⟨hmem', hgroup'⟩ := hstep.run_keeps hrest hmem
        exact ⟨hmem', hgroup'.trans hgroup⟩
      | cons e before =>
        have he : (s, given) = e := List.head_eq_of_cons_eq hlog
        have htail := ih hstep hrest (List.tail_eq_of_cons_eq hlog)
        subst he
        simpa [List.append_assoc] using htail

end Atlas

/-- The relationships of a group, from its records: an import is one edge, a structure with a
dependency text is one, and a method is one for each name that it calls. -/
def Group.relationships (l : Ledger) (g : Group) (rs : List Record) : List Relationship :=
  match g.layer with
  | .modules => [⟨g.path, g.target.getD [], .imports, .modules⟩]
  | .structures =>
    (rs.flatMap (·.structures)).filterMap fun s =>
      match (l.structureAt s).head.dependencies with
      | some (c :: t) => some ⟨(l.structureAt s).head.name, c :: t, .inherits, .structures⟩
      | _ => none
  | .methods =>
    (rs.flatMap (·.methods)).flatMap fun m =>
      (l.tree m).walk.flatMap fun t => t.calls.map fun callee => ⟨t.head.name, callee, .calls,
        .methods⟩

namespace Atlas

variable {a : Atlas} {rs : List Record}

theorem relationshipsOf_ofRecords (a : Atlas) (hrs : ∀ r ∈ rs, Accepted r) {g : Group}
    (hg : (Node.ofRecords rs).group = g) (hne : rs ≠ []) :
    a.relationshipsOf (Node.ofRecords rs) = g.relationships a.ledger rs := by
  have hlayer : (Node.ofRecords rs).layer = g.layer := congrArg Group.layer hg
  have hsource : (Node.ofRecords rs).source = g.path := congrArg Group.path hg
  have htarget : (Node.ofRecords rs).target = g.target := congrArg Group.target hg
  unfold relationshipsOf Group.relationships
  rw [hlayer, hsource, htarget, Node.structures_ofRecords, Node.methods_ofRecords]
  cases hl : g.layer with
  | modules =>
    obtain ⟨r, rest, rfl⟩ := List.exists_cons_of_ne_nil hne
    have hr : r.layer = .modules := (hlayer.trans hl :)
    obtain ⟨-, -, hfull⟩ := (hrs r List.mem_cons_self).contents_eq_nil hr
    have ht : r.target = g.target := (if_pos hr).symm.trans htarget
    rw [ht] at hfull
    cases htg : g.target with
    | none => simp [htg] at hfull
    | some t =>
      have hne : t ≠ [] := by simpa [htg] using hfull
      simp [hne, Relationship.on, Layer.verb]
  | structures =>
    simp only
    rw [List.filterMap_eq_flatMap_toList]
    refine List.flatMap_congr fun s _ => ?_
    generalize (a.ledger.structureAt s).head = head
    obtain ⟨name, _, _, _, dependencies, _, _⟩ := head
    cases dependencies with
    | none => rfl
    | some t => cases t <;> rfl
  | methods =>
    simp only
    rw [List.flatMap_assoc]
    refine List.flatMap_congr fun m _ => ?_
    rw [List.flatMap_def, List.flatMap_def, walk, tree, ← map_walk_treeFrom
      (fun head calls => calls.map (Relationship.on .methods head.name))]
    rfl

theorem Grouped.relationships_eq (h : a.Grouped rs) :
    a.relationships = (FirstSeen.ofList (rs.map Record.group)).flatMap fun g =>
      g.relationships a.ledger (rs.filter (·.group = g)) := by
  have hbare : a.relationships = (a.nodes.map Node.bare).flatMap a.relationshipsOf := by
    rw [List.flatMap_map]
    rfl
  rw [hbare, h.nodes, groupedNodes, List.flatMap_map]
  refine List.flatMap_congr fun g hg => ?_
  have hg' := FirstSeen.mem_ofList.1 hg
  apply relationshipsOf_ofRecords
  · intro r hr
    exact h.accepted r (List.mem_filter.1 hr).1
  · exact Node.group_ofRecords hg'
  · obtain ⟨r, hr, hrg⟩ := List.mem_map.1 hg'
    exact List.ne_nil_of_mem (List.mem_filter.2 ⟨hr, by simpa using hrg⟩)

theorem merge_eq_none {k : RecordKey} (h : (a.merge k).1 = .ok none) :
    (a.merge k).2.graph = a.graph ∧ (a.merge k).2.nodes = a.nodes := by
  obtain ⟨-, hplaced⟩ := placed_of_merge (b := (a.merge k).2) (Prod.ext h rfl)
  cases hplaced with
  | repeated _ _ hgraph hentries =>
    refine ⟨hgraph, ?_⟩
    rw [Atlas.nodes, Atlas.nodes, hgraph]
    refine List.map_congr_left fun n _ => ?_
    rw [node, hentries, ← node]

/-- After a session in which the graph was empty at first and is not released, it is told by the log
of the merges: its nodes are the groups in the order of their first records, each with the contents
of all its records in order; a merge answers the node of its group, or none, adding nothing, for
an import of a group that has been seen; and the relationships are those of the groups in the order
of the nodes. -/
theorem graph_eq_groups_of_mergeLog (l : Ledger) (ops : List Operation) (hops : .release ∉ ops) :
    let session := Atlas.run { ledger := l } ops
    let log := mergeLog session.1
    let a := session.2
    a.nodes.map Node.group = FirstSeen.ofList (log.map fun e => e.1.group) ∧
    (∀ n ∈ a.nodes,
      n.structures = (log.filter fun e => e.1.group = n.group).flatMap (fun e => e.1.structures) ∧
      n.methods = (log.filter fun e => e.1.group = n.group).flatMap (fun e => e.1.methods)) ∧
    (∀ before r answer after, log = before ++ (r, answer) :: after →
      (answer = none ↔ r.layer = .modules ∧ r.group ∈ before.map fun e => e.1.group) ∧
      ∀ n, answer = some n → n ∈ a.graph.nodes ∧ (a.ledger.node n).group = r.group) ∧
    (∀ (b : Atlas) k, (b.merge k).1 = .ok none → (b.merge k).2.graph = b.graph ∧
      (b.merge k).2.nodes = b.nodes) ∧
    a.relationships = (FirstSeen.ofList (log.map fun e => e.1.group)).flatMap fun g =>
      g.relationships a.ledger ((log.filter fun e => e.1.group = g).map Prod.fst) := by
  intro session log a
  have h : a.Grouped (log.map Prod.fst) := (grouped_empty l).run hops
  have hgroups : log.map (fun e => e.1.group) = (log.map Prod.fst).map Record.group := by
    rw [List.map_map]
    rfl
  have hfilter : ∀ g, (log.map Prod.fst).filter (·.group = g) =
      (log.filter fun e => e.1.group = g).map Prod.fst :=
    fun g => List.filter_map ..
  refine ⟨?_, ?_, ?_, ?_, ?_⟩
  · rw [h.map_group, hgroups]
  · intro n hn
    have hnode := h.node_eq hn
    rw [hfilter] at hnode
    constructor
    · rw [← List.flatMap_map, ← Node.structures_ofRecords, ← hnode]
      rfl
    · rw [← List.flatMap_map, ← Node.methods_ofRecords, ← hnode]
      rfl
  · intro before r answer after hlog
    simpa using (grouped_empty l).run_answers hops hlog
  · intro b k hnone
    exact merge_eq_none hnone
  · rw [h.relationships_eq, hgroups]
    simp only [hfilter]

/-- Two imports of one name, one of them merged between records of the same file, and a second
record of methods. -/
def interleaved : List Operation :=
  [.makeMethod { name := ['f'] } [['g']] [], .makeMethod { name := ['g'] } [] [],
    .makeStructure { name := ['S'] }, .openRecord ['p'] .methods .python none [] [⟨0⟩],
    .openRecord ['p'] .modules .python (some ['m']) [] [],
    .openRecord ['q'] .structures .python none [⟨0⟩] [],
    .openRecord ['p'] .methods .python none [] [⟨1⟩],
    .openRecord ['p'] .modules .python (some ['m']) [] [], .merge ⟨0⟩, .merge ⟨1⟩, .merge ⟨0⟩,
    .merge ⟨2⟩, .merge ⟨4⟩, .merge ⟨3⟩]

theorem graph_of_interleaved :
    let session := Atlas.run {} interleaved
    .release ∉ interleaved ∧
    (mergeLog session.1).map Prod.snd = [some ⟨0⟩, some ⟨1⟩, some ⟨2⟩, none, some ⟨0⟩] ∧
      session.2.nodes.map Node.group =
        [⟨['p'], .methods, none⟩, ⟨['p'], .modules, some ['m']⟩, ⟨['q'], .structures, none⟩] ∧
      session.2.relationships =
        [⟨['f'], ['g'], .calls, .methods⟩, ⟨['p'], ['m'], .imports, .modules⟩] := by
  have hops : .release ∉ interleaved := by decide
  obtain ⟨hnodes, -, -, -, hrelationships⟩ := graph_eq_groups_of_mergeLog {} interleaved hops
  refine ⟨hops, by decide, hnodes.trans (by decide), hrelationships.trans (by decide)⟩

end Atlas

end DependencyAtlas
