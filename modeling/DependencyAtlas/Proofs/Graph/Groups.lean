import DependencyAtlas.Graph.Query
import DependencyAtlas.Proofs.FirstSeen
import DependencyAtlas.Proofs.Graph.Placement

namespace DependencyAtlas

open Ledger

/-- The node of a group, from the records of the group. -/
def Node.ofRecords : List Record → Node
  | [] => {}
  | r :: rs =>
    { r.opened with
      structures := (r :: rs).flatMap (·.structures)
      methods := (r :: rs).flatMap (·.methods) }

/-- A node but for its count of methods. -/
def Node.bare (n : Node) : Node :=
  { n with methodCount := 0 }

/-- The nodes for records that are merged one after the other. -/
def groupedNodes (rs : List Record) : List Node :=
  (FirstSeen.ofList (rs.map Record.group)).map fun g => Node.ofRecords (rs.filter (·.group = g))

theorem Node.group_ofRecords {rs : List Record} {g : Group} (hg : g ∈ rs.map Record.group) :
    (ofRecords (rs.filter (·.group = g))).group = g := by
  cases hrs : rs.filter (·.group = g) with
  | nil =>
    obtain ⟨r, hr, rfl⟩ := List.mem_map.1 hg
    have hin : r ∈ rs.filter (·.group = r.group) := List.mem_filter.2 ⟨hr, by simp⟩
    rw [hrs] at hin
    cases hin
  | cons r rest =>
    have hin : r ∈ rs.filter (·.group = g) := hrs ▸ List.mem_cons_self
    exact of_decide_eq_true (List.mem_filter.1 hin).2

theorem Node.structures_ofRecords (rs : List Record) :
    (ofRecords rs).structures = rs.flatMap (·.structures) := by
  cases rs <;> rfl

theorem Node.methods_ofRecords (rs : List Record) :
    (ofRecords rs).methods = rs.flatMap (·.methods) := by
  cases rs <;> rfl

theorem Node.ofRecords_concat {rs : List Record} (h : rs ≠ []) (r : Record) :
    ofRecords (rs ++ [r]) = (ofRecords rs).received r := by
  cases rs with
  | nil => exact (h rfl).elim
  | cons s rs => simp [ofRecords, received]

theorem Node.received_eq_self {n : Node} {r : Record} (hs : r.structures = [])
    (hm : r.methods = []) :
    n.received r = n := by
  rw [received, hs, hm, List.append_nil, List.append_nil]

theorem map_group_groupedNodes (rs : List Record) :
    (groupedNodes rs).map Node.group = FirstSeen.ofList (rs.map Record.group) := by
  rw [groupedNodes, List.map_map]
  refine (List.map_congr_left fun g hg => ?_).trans (List.map_id _)
  exact Node.group_ofRecords (FirstSeen.mem_ofList.1 hg)

/-- One more record of a group that has been seen goes to the node of that group. -/
theorem groupedNodes_concat_of_mem {rs : List Record} {r : Record}
    (h : r.group ∈ rs.map Record.group) :
    groupedNodes (rs ++ [r]) =
      (groupedNodes rs).map fun n => if n.group = r.group then n.received r else n := by
  have hseen : r.group ∈ FirstSeen.ofList (rs.map Record.group) := FirstSeen.mem_ofList.2 h
  rw [groupedNodes, groupedNodes, List.map_append, List.map_singleton, FirstSeen.ofList_concat,
    FirstSeen.add, if_pos hseen, List.map_map]
  refine List.map_congr_left fun g hg => ?_
  have hg' := FirstSeen.mem_ofList.1 hg
  rw [Function.comp_apply, Node.group_ofRecords hg', List.filter_append]
  by_cases he : g = r.group
  · subst he
    obtain ⟨s, hs, hsg⟩ := List.mem_map.1 hg'
    have hne : rs.filter (·.group = r.group) ≠ [] :=
      List.ne_nil_of_mem (List.mem_filter.2 ⟨hs, by simpa using hsg⟩)
    simp [Node.ofRecords_concat hne]
  · simp [he, Ne.symm he]

theorem groupedNodes_concat_of_notMem {rs : List Record} {r : Record}
    (h : r.group ∉ rs.map Record.group) :
    groupedNodes (rs ++ [r]) = groupedNodes rs ++ [Node.ofRecords [r]] := by
  have hnew : r.group ∉ FirstSeen.ofList (rs.map Record.group) :=
    fun hin => h (FirstSeen.mem_ofList.1 hin)
  rw [groupedNodes, groupedNodes, List.map_append, List.map_singleton, FirstSeen.ofList_concat,
    FirstSeen.add, if_neg hnew, List.map_append]
  have hnone : rs.filter (·.group = r.group) = [] := by
    apply List.filter_eq_nil_iff.2
    intro s hs he
    exact h (List.mem_map.2 ⟨s, hs, by simpa using he⟩)
  congr 1
  · refine List.map_congr_left fun g hg => ?_
    have hne : r.group ≠ g := fun he => hnew (he ▸ hg)
    simp [List.filter_append, hne]
  · simp [List.filter_append, hnone]

namespace Atlas

variable {a b : Atlas} {rs : List Record} {r : Record} {answer : Option NodeKey}

/-- The state of the graph after records have been merged into an empty one. -/
structure Grouped (a : Atlas) (rs : List Record) : Prop where
  accepted : ∀ r ∈ rs, Accepted r
  known : ∀ n ∈ a.graph.nodes, n.index < a.ledger.nodes.length
  nodes : a.nodes.map Node.bare = groupedNodes rs
  byFile : ∀ path layer, a.graph.byFile.get (path, layer) =
    a.graph.nodes.filter fun n => (a.ledger.node n).source = path ∧ (a.ledger.node n).layer = layer
  edges : ∀ e, e ∈ a.graph.importEdges ↔ ∃ r ∈ rs, r.layer = .modules ∧ edgeOf r = e

theorem Grouped.map_group (h : a.Grouped rs) :
    a.nodes.map Node.group = FirstSeen.ofList (rs.map Record.group) := by
  rw [← map_group_groupedNodes, ← h.nodes, List.map_map]
  rfl

theorem Grouped.mem_groups_iff (h : a.Grouped rs) {g : Group} :
    g ∈ rs.map Record.group ↔ ∃ n ∈ a.graph.nodes, (a.ledger.node n).group = g := by
  rw [← FirstSeen.mem_ofList, ← h.map_group, Atlas.nodes, List.map_map, List.mem_map]
  rfl

theorem Grouped.node_eq (h : a.Grouped rs) {n : Node} (hn : n ∈ a.nodes) :
    n.bare = Node.ofRecords (rs.filter (·.group = n.group)) := by
  have hin : n.bare ∈ groupedNodes rs := h.nodes ▸ List.mem_map_of_mem hn
  obtain ⟨g, hg, he⟩ := List.mem_map.1 hin
  have hgroup : n.group = g := by
    rw [← Node.group_ofRecords (FirstSeen.mem_ofList.1 hg), he]
    rfl
  rw [hgroup, he]

/-- The methods in the graph are those of the records of methods. -/
theorem Grouped.mem_methods_iff (h : a.Grouped rs) {m : MethodKey} :
    m ∈ a.methods ↔ ∃ r ∈ rs, r.layer = .methods ∧ m ∈ r.methods.flatMap a.ledger.walk := by
  rw [Atlas.methods, List.mem_flatMap]
  constructor
  · rintro ⟨n, hn, hm⟩
    obtain ⟨hn, hl⟩ := List.mem_filter.1 hn
    have hmethods : n.methods = (rs.filter (·.group = n.group)).flatMap (·.methods) := by
      rw [← Node.methods_ofRecords, ← h.node_eq hn]
      rfl
    rw [hmethods, List.mem_flatMap] at hm
    obtain ⟨top, htop, hm⟩ := hm
    obtain ⟨r, hr, htop⟩ := List.mem_flatMap.1 htop
    obtain ⟨hr, hg⟩ := List.mem_filter.1 hr
    have hlayer : r.layer = n.layer := congrArg Group.layer (of_decide_eq_true hg)
    exact ⟨r, hr, hlayer.trans (of_decide_eq_true hl), List.mem_flatMap.2 ⟨top, htop, hm⟩⟩
  · rintro ⟨r, hr, hl, hm⟩
    obtain ⟨top, htop, hm⟩ := List.mem_flatMap.1 hm
    obtain ⟨k, hk, hg⟩ := h.mem_groups_iff.1 (List.mem_map_of_mem hr)
    have hn : a.ledger.node k ∈ a.nodes := List.mem_map_of_mem hk
    have hmethods :
        (a.ledger.node k).methods = (rs.filter (·.group = r.group)).flatMap (·.methods) := by
      rw [← hg, ← Node.methods_ofRecords, ← h.node_eq hn]
      rfl
    have hlayer : (a.ledger.node k).layer = .methods := (congrArg Group.layer hg).trans hl
    refine ⟨_, List.mem_filter.2 ⟨hn, decide_eq_true hlayer⟩, List.mem_flatMap.2 ⟨top, ?_, hm⟩⟩
    rw [hmethods]
    exact List.mem_flatMap.2 ⟨r, List.mem_filter.2 ⟨hr, decide_eq_true rfl⟩, htop⟩

theorem Grouped.eq_of_group_eq (h : a.Grouped rs) {m n : NodeKey} (hm : m ∈ a.graph.nodes)
    (hn : n ∈ a.graph.nodes) (he : (a.ledger.node m).group = (a.ledger.node n).group) : m = n := by
  have hnodup : (a.graph.nodes.map fun n => (a.ledger.node n).group).Nodup := by
    have hmap := h.map_group
    rw [Atlas.nodes, List.map_map] at hmap
    exact hmap ▸ FirstSeen.nodup_ofList _
  exact List.inj_on_of_nodup_map hnodup hm hn he

theorem Grouped.target_eq_none (h : a.Grouped rs) {n : NodeKey} (hn : n ∈ a.graph.nodes)
    (hl : (a.ledger.node n).layer ≠ .modules) : (a.ledger.node n).target = none := by
  obtain ⟨r, -, hr⟩ := List.mem_map.1 (h.mem_groups_iff.2 ⟨n, hn, rfl⟩)
  have hlayer : r.layer = (a.ledger.node n).layer := congrArg Group.layer hr
  have htarget : (if r.layer = .modules then r.target else none) = (a.ledger.node n).target :=
    congrArg Group.target hr
  rwa [hlayer, if_neg hl, eq_comm] at htarget

theorem grouped_empty (l : Ledger) : Grouped { ledger := l } [] where
  accepted := by simp
  known := by simp
  nodes := rfl
  byFile _ _ := rfl
  edges := by simp

theorem Placed.node_eq (h : Placed a r b answer) {n : NodeKey}
    (hn : n.index < a.ledger.nodes.length) :
    (b.ledger.node n).bare =
      if answer = some n then (a.ledger.node n).bare.received r else (a.ledger.node n).bare := by
  cases h with
  | repeated _ _ _ hentries => simp [node, hentries]
  | opened count _ _ _ _ hentries =>
    have hne : n.index ≠ a.ledger.nodes.length := Nat.ne_of_lt hn
    have hans : some (⟨a.ledger.nodes.length⟩ : NodeKey) ≠ some n := by
      intro he
      exact hne (congrArg NodeKey.index (Option.some.inj he)).symm
    rw [if_neg hans, node, hentries, getD_concat, if_neg hne, ← node]
  | extended m rest count _ _ _ _ _ hentries =>
    rw [node, hentries, getD_modify, ← node]
    by_cases hm : m = n
    · subst hm
      rw [if_pos ⟨rfl, hn⟩, if_pos rfl]
      rfl
    · have hidx : ¬(n.index = m.index ∧ m.index < a.ledger.nodes.length) := by
        intro he
        exact hm (by cases m; cases n; exact congrArg NodeKey.mk he.1.symm)
      rw [if_neg hidx, if_neg (by simpa using hm)]

theorem Placed.group_eq (h : Placed a r b answer) {n : NodeKey}
    (hn : n.index < a.ledger.nodes.length) :
    (b.ledger.node n).group = (a.ledger.node n).group := by
  have hbare := congrArg Node.group (h.node_eq hn)
  rw [apply_ite Node.group] at hbare
  exact hbare.trans (ite_self _)

theorem Grouped.edge_mem_iff (h : a.Grouped rs) (hr : Accepted r) (hl : r.layer = .modules) :
    edgeOf r ∈ a.graph.importEdges ↔ r.group ∈ rs.map Record.group := by
  rw [h.edges, List.mem_map]
  constructor
  · rintro ⟨s, hs, he⟩
    exact ⟨s, hs, (hr.group_eq_iff (h.accepted s hs) hl).2 he⟩
  · rintro ⟨s, hs, he⟩
    exact ⟨s, hs, (hr.group_eq_iff (h.accepted s hs) hl).1 he⟩

theorem Grouped.mem_byFile_iff (h : a.Grouped rs) (hl : r.layer ≠ .modules) {n : NodeKey} :
    n ∈ a.graph.byFile.get (r.path, r.layer) ↔ n ∈ a.graph.nodes ∧
    (a.ledger.node n).group = r.group := by
  rw [h.byFile, List.mem_filter]
  refine and_congr_right fun hn => ?_
  rw [decide_eq_true_eq]
  constructor
  · rintro ⟨hs, hy⟩
    have ht := h.target_eq_none hn (hy ▸ hl)
    simp only [Node.group, Record.group, hs, hy, ht, if_neg hl]
  · intro hg
    exact ⟨congrArg Group.path hg, congrArg Group.layer hg⟩

theorem Grouped.opened_iff (h : a.Grouped rs) (hr : Accepted r) :
    (if r.layer = .modules then edgeOf r ∉ a.graph.importEdges
      else a.graph.byFile.get (r.path, r.layer) = []) ↔
      r.group ∉ rs.map Record.group := by
  split
  · next hl => rw [h.edge_mem_iff hr hl]
  · next hl =>
    rw [List.eq_nil_iff_forall_not_mem, h.mem_groups_iff]
    simp only [h.mem_byFile_iff hl, not_exists]

theorem Grouped.answer_eq_none_iff (h : a.Grouped rs) (hr : Accepted r) (hp : Placed a r b answer) :
    answer = none ↔ r.layer = .modules ∧ r.group ∈ rs.map Record.group := by
  cases hp with
  | repeated hl hedge => simpa [hl] using (h.edge_mem_iff hr hl).1 hedge
  | opened _ hnew =>
    have hg := (h.opened_iff hr).1 hnew
    simpa using fun _ => by simpa using hg
  | extended n _ _ hl => simp [hl]

theorem Grouped.group_of_answer (h : a.Grouped rs) {n : NodeKey} (hp : Placed a r b (some n)) :
    n ∈ b.graph.nodes ∧ (b.ledger.node n).group = r.group := by
  cases hp with
  | opened count _ hnodes _ _ hentries =>
    refine ⟨by rw [hnodes]; simp, ?_⟩
    rw [node, hentries, getD_concat, if_pos rfl]
    rfl
  | extended _ rest count hl hold hnodes _ _ hentries =>
    obtain ⟨hn, hg⟩ := (h.mem_byFile_iff hl).1 (hold ▸ List.mem_cons_self)
    refine ⟨hnodes ▸ hn, ?_⟩
    rw [Placed.group_eq (.extended n rest count hl hold hnodes ‹_› ‹_› hentries) (h.known n hn), hg]

theorem Grouped.nodes_merge (h : a.Grouped rs) (hr : Accepted r) (hp : Placed a r b answer) :
    b.nodes.map Node.bare = groupedNodes (rs ++ [r]) := by
  have hlook : b.nodes.map Node.bare = b.graph.nodes.map fun n => (b.ledger.node n).bare :=
    List.map_map ..
  have hold : groupedNodes rs = a.graph.nodes.map fun n => (a.ledger.node n).bare :=
    h.nodes ▸ List.map_map ..
  rw [hlook]
  cases hp with
  | repeated hl hedge hgraph hentries =>
    obtain ⟨hs, hm, -⟩ := hr.contents_eq_nil hl
    rw [groupedNodes_concat_of_mem ((h.edge_mem_iff hr hl).1 hedge), hgraph]
    simp only [Node.received_eq_self hs hm, ite_self, List.map_id', hold, node, hentries]
  | opened count hnew hnodes hfile hedges hentries =>
    rw [groupedNodes_concat_of_notMem ((h.opened_iff hr).1 hnew), hnodes, List.map_append, hold]
    congr 1
    · refine List.map_congr_left fun n hn => ?_
      rw [Placed.node_eq (.opened count hnew hnodes hfile hedges hentries) (h.known n hn), if_neg]
      intro he
      exact absurd (h.known n hn) (by rw [← Option.some.inj he]; exact Nat.lt_irrefl _)
    · rw [List.map_singleton, node, hentries, getD_concat, if_pos rfl]
      simp [Node.ofRecords, Node.bare, Record.opened]
  | extended n rest count hl hfirst hnodes hfile hedges hentries =>
    obtain ⟨hn, hg⟩ := (h.mem_byFile_iff hl).1 (hfirst ▸ List.mem_cons_self)
    rw [groupedNodes_concat_of_mem (h.mem_groups_iff.2 ⟨n, hn, hg⟩), hnodes, hold, List.map_map]
    refine List.map_congr_left fun m hm => ?_
    rw [Placed.node_eq (.extended n rest count hl hfirst hnodes hfile hedges hentries)
      (h.known m hm)]
    have hiff : some n = some m ↔ (a.ledger.node m).bare.group = r.group := by
      rw [Option.some.injEq, ← hg]
      constructor
      · rintro rfl
        rfl
      · intro he
        exact (h.eq_of_group_eq hm hn he).symm
    simp only [Function.comp_apply, hiff]

theorem Grouped.filter_file (h : a.Grouped rs) (hp : Placed a r b answer) (path : Text)
    (layer : Layer) :
    (a.graph.nodes.filter fun n => (b.ledger.node n).source = path ∧
      (b.ledger.node n).layer = layer) =
      a.graph.byFile.get (path, layer) := by
  rw [h.byFile]
  refine List.filter_congr fun n hn => ?_
  have hg := hp.group_eq (h.known n hn)
  have hs : (b.ledger.node n).source = (a.ledger.node n).source := congrArg Group.path hg
  have hl : (b.ledger.node n).layer = (a.ledger.node n).layer := congrArg Group.layer hg
  rw [hs, hl]

theorem Grouped.merge (h : a.Grouped rs) (hr : Accepted r) (hp : Placed a r b answer) :
    b.Grouped (rs ++ [r]) where
  accepted := by
    intro s hs
    rcases List.mem_append.1 hs with hs | hs
    · exact h.accepted s hs
    · exact List.mem_singleton.1 hs ▸ hr
  known := by
    intro n hn
    cases hp with
    | repeated _ _ hgraph hentries => exact hentries ▸ h.known n (hgraph ▸ hn)
    | opened count _ hnodes _ _ hentries =>
      rw [hentries, List.length_append, List.length_singleton]
      rcases List.mem_append.1 (hnodes ▸ hn) with hn | hn
      · exact Nat.lt_succ_of_lt (h.known n hn)
      · rw [List.mem_singleton.1 hn]
        exact Nat.lt_succ_self _
    | extended m _ _ _ _ hnodes _ _ hentries =>
      rw [hentries, List.length_modify]
      exact h.known n (hnodes ▸ hn)
  nodes := h.nodes_merge hr hp
  byFile := by
    intro path layer
    have hfilter := h.filter_file hp path layer
    cases hp with
    | repeated _ _ hgraph hentries => rw [hgraph, hfilter]
    | opened count _ hnodes hfile _ hentries =>
      have hnew :
          b.ledger.node ⟨a.ledger.nodes.length⟩ = { r.opened with methodCount := count } := by
        rw [node, hentries, getD_concat, if_pos rfl]
      have hiff : (path, layer) = (r.path, r.layer) ↔ r.path = path ∧ r.layer = layer := by
        rw [Prod.mk.injEq, eq_comm, and_congr_right_iff]
        exact fun _ => eq_comm
      rw [hnodes, List.filter_append, hfilter, hfile, Grouping.get_add, List.filter_singleton, hnew]
      simp only [hiff, Record.opened]
      by_cases hfit : r.path = path ∧ r.layer = layer
      · simp [hfit]
      · simp [hfit]
    | extended _ _ _ _ _ hnodes hfile _ _ => rw [hnodes, hfile, hfilter]
  edges := by
    intro e
    cases hp with
    | repeated hl hedge hgraph _ =>
      rw [hgraph, h.edges]
      constructor
      · rintro ⟨s, hs, he⟩
        exact ⟨s, List.mem_append_left _ hs, he⟩
      · rintro ⟨s, hs, he⟩
        rcases List.mem_append.1 hs with hs | hs
        · exact ⟨s, hs, he⟩
        · rw [List.mem_singleton.1 hs] at he
          exact (h.edges e).1 (he.2 ▸ hedge)
    | opened _ _ _ _ hedges _ =>
      rw [hedges, List.mem_append, h.edges]
      by_cases hl : r.layer = .modules
      · simp [hl, or_and_right, exists_or, eq_comm]
      · simp [hl, or_and_right, exists_or]
    | extended _ _ _ hl _ _ _ hedges _ =>
      rw [hedges, h.edges]
      simp [hl, or_and_right, exists_or]

end Atlas

end DependencyAtlas
