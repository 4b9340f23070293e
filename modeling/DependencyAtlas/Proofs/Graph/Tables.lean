import DependencyAtlas.Proofs.Graph.CallLinks
import DependencyAtlas.Proofs.Graph.MergeLog
import DependencyAtlas.Proofs.Ledger.Granting

namespace DependencyAtlas

open Ledger

/-- The records that the graph holds after a step, from those that it held before and the answer to
the step. -/
def recordsAfter (rs : List Record) : Operation × Reply → List Record
  | (.release, .dropped _) => []
  | (_, .merged r _) => rs ++ [r]
  | _ => rs

/-- The records that were merged since the graph was released last. -/
def heldRecords (history : List (Operation × Reply)) : List Record :=
  history.foldl recordsAfter []

theorem heldRecords_concat (history : List (Operation × Reply)) (e : Operation × Reply) :
    heldRecords (history ++ [e]) = recordsAfter (heldRecords history) e :=
  List.foldl_append

theorem recordsAfter_of_ne {op : Operation} (h : op ≠ .release) (rs : List Record) (reply : Reply) :
    recordsAfter rs (op, reply) = rs ++ (reply.merge?.map Prod.fst).toList := by
  cases op with
  | release => exact (h rfl).elim
  | _ => cases reply <;> simp [recordsAfter, Reply.merge?]

namespace Atlas

variable {a b : Atlas} {rs : List Record} {r : Record} {answer : Option NodeKey} {k : RecordKey}
  {op : Operation}

theorem Grouped.next (h : a.Grouped rs) (hr : ∀ fault, (a.step op).1 ≠ .brokenOff fault) :
    (a.step op).2.Grouped (recordsAfter rs (op, (a.step op).1)) := by
  by_cases hop : op = .release
  · subst hop
    obtain ⟨reply, b, he, heffect⟩ := a.step_effect .release
    rw [he] at hr ⊢
    cases heffect with
    | kept hop => exact (hop rfl).elim
    | edited hop => cases hop
    | released _ => exact grouped_empty _
    | stuck _ => exact (hr _ rfl).elim
  · rw [recordsAfter_of_ne hop]
    exact h.step hop

theorem grouped_run {ops : List Operation} (hr : ∀ fault, .brokenOff fault ∉ (Atlas.run {} ops).1) :
    (Atlas.run {} ops).2.Grouped (heldRecords (ops.zip (Atlas.run {} ops).1)) :=
  run_invariant (P := fun history a => a.Grouped (heldRecords history))
    (fun _ _ _ hop h => heldRecords_concat .. ▸ h.next hop) (along_of_unbroken hr) []
      (grouped_empty {})

section Nodes

theorem Grouped.nodup_map_group (h : a.Grouped rs) : (a.nodes.map Node.group).Nodup :=
  h.map_group ▸ FirstSeen.nodup_ofList _

theorem Grouped.nodup_graph_nodes (h : a.Grouped rs) : a.graph.nodes.Nodup :=
  .of_map a.ledger.node (.of_map Node.group h.nodup_map_group)

/-- What tells two nodes of one kind apart occurs once among the nodes of that kind. -/
theorem Grouped.nodup_filter_map {β : Type} (h : a.Grouped rs) {p : Node → Bool} {f : Node → β}
    (hf : ∀ m ∈ a.nodes, ∀ n ∈ a.nodes, p m → p n → f m = f n → m.group = n.group) :
    ((a.nodes.filter p).map f).Nodup := by
  apply List.Nodup.map_on
  · intro m hm n hn he
    obtain ⟨hm, hpm⟩ := List.mem_filter.1 hm
    obtain ⟨hn, hpn⟩ := List.mem_filter.1 hn
    exact List.inj_on_of_nodup_map h.nodup_map_group hm hn (hf m hm n hn hpm hpn he)
  · exact (List.Nodup.of_map Node.group h.nodup_map_group).filter p

theorem Grouped.record_of_node (h : a.Grouped rs) {n : Node} (hn : n ∈ a.nodes) :
    ∃ r ∈ rs, r.group = n.group := by
  obtain ⟨k, hk, rfl⟩ := List.mem_map.1 hn
  exact List.mem_map.1 (h.mem_groups_iff.2 ⟨k, hk, rfl⟩)

theorem Grouped.node_target_eq_none (h : a.Grouped rs) {n : Node} (hn : n ∈ a.nodes)
    (hl : n.layer ≠ .modules) :
    n.target = none := by
  obtain ⟨k, hk, rfl⟩ := List.mem_map.1 hn
  exact h.target_eq_none hk hl

theorem Grouped.exists_target (h : a.Grouped rs) {n : Node} (hn : n ∈ a.nodes)
    (hl : n.layer = .modules) :
    ∃ t, n.target = some t ∧ t ≠ [] := by
  obtain ⟨r, hr, hg⟩ := h.record_of_node hn
  have hlayer : r.layer = .modules := (congrArg Group.layer hg).trans hl
  have htarget : (if r.layer = .modules then r.target else none) = n.target :=
    congrArg Group.target hg
  rw [if_pos hlayer] at htarget
  obtain ⟨-, -, hfull⟩ := (h.accepted r hr).contents_eq_nil hlayer
  cases ht : n.target with
  | none => simp [htarget, ht] at hfull
  | some t =>
    refine ⟨t, rfl, ?_⟩
    simpa [htarget, ht] using hfull

theorem Accepted.methods_eq_nil_of_ne {r : Record} (h : Accepted r) (hl : r.layer ≠ .methods) :
    r.methods = [] := by
  cases hlayer : r.layer with
  | modules => exact (h.contents_eq_nil hlayer).2.1
  | structures => exact h.methods_eq_nil hlayer
  | methods => exact (hl hlayer).elim

theorem Accepted.structures_eq_nil_of_ne {r : Record} (h : Accepted r)
    (hl : r.layer ≠ .structures) :
    r.structures = [] := by
  cases hlayer : r.layer with
  | modules => exact (h.contents_eq_nil hlayer).1
  | structures => exact (hl hlayer).elim
  | methods => exact h.structures_eq_nil hlayer

theorem Grouped.methods_eq (h : a.Grouped rs) {n : Node} (hn : n ∈ a.nodes) :
    n.methods = (rs.filter (·.group = n.group)).flatMap (·.methods) := by
  rw [← Node.methods_ofRecords, ← h.node_eq hn]
  rfl

theorem Grouped.structures_eq (h : a.Grouped rs) {n : Node} (hn : n ∈ a.nodes) :
    n.structures = (rs.filter (·.group = n.group)).flatMap (·.structures) := by
  rw [← Node.structures_ofRecords, ← h.node_eq hn]
  rfl

theorem Grouped.methods_eq_nil (h : a.Grouped rs) {n : Node} (hn : n ∈ a.nodes)
    (hl : n.layer ≠ .methods) :
    n.methods = [] := by
  rw [h.methods_eq hn]
  apply List.flatMap_eq_nil_iff.2
  intro r hr
  obtain ⟨hr, hg⟩ := List.mem_filter.1 hr
  have hlayer : r.layer = n.layer := congrArg Group.layer (of_decide_eq_true hg)
  exact (h.accepted r hr).methods_eq_nil_of_ne (hlayer ▸ hl)

theorem Grouped.structures_eq_nil (h : a.Grouped rs) {n : Node} (hn : n ∈ a.nodes)
    (hl : n.layer ≠ .structures) :
    n.structures = [] := by
  rw [h.structures_eq hn]
  apply List.flatMap_eq_nil_iff.2
  intro r hr
  obtain ⟨hr, hg⟩ := List.mem_filter.1 hr
  have hlayer : r.layer = n.layer := congrArg Group.layer (of_decide_eq_true hg)
  exact (h.accepted r hr).structures_eq_nil_of_ne (hlayer ▸ hl)

theorem Grouped.exists_node_of_mem (h : a.Grouped rs) (hr : r ∈ rs) {m : MethodKey}
    (hm : m ∈ r.methods) :
    ∃ n ∈ a.graph.nodes, m ∈ (a.ledger.node n).methods := by
  obtain ⟨n, hn, hg⟩ := h.mem_groups_iff.1 (List.mem_map_of_mem hr)
  refine ⟨n, hn, ?_⟩
  rw [h.methods_eq (List.mem_map_of_mem hn), hg]
  exact List.mem_flatMap.2 ⟨r, List.mem_filter.2 ⟨hr, decide_eq_true rfl⟩, hm⟩

theorem Grouped.mem_methods_of_walk (h : a.Grouped rs) {n : NodeKey} (hn : n ∈ a.graph.nodes)
    {m j : MethodKey} (hm : m ∈ (a.ledger.node n).methods) (hj : j ∈ a.ledger.walk m) :
    j ∈ a.methods := by
  have hin : a.ledger.node n ∈ a.nodes := List.mem_map_of_mem hn
  have hl : (a.ledger.node n).layer = .methods := by
    by_contra hl
    rw [h.methods_eq_nil hin hl] at hm
    cases hm
  exact List.mem_flatMap.2 ⟨_, List.mem_filter.2 ⟨hin, decide_eq_true hl⟩,
    List.mem_flatMap.2 ⟨m, hm, hj⟩⟩

end Nodes

theorem flatMap_filter_of_nil {β : Type} {p : Node → Bool} {f : Node → List β} {ns : List Node}
    (h : ∀ n ∈ ns, p n = false → f n = []) : (ns.filter p).flatMap f = ns.flatMap f := by
  induction ns with
  | nil => rfl
  | cons n ns ih =>
    have hrest := ih fun m hm => h m (List.mem_cons_of_mem _ hm)
    cases hp : p n with
    | true => rw [List.filter_cons_of_pos hp, List.flatMap_cons, List.flatMap_cons, hrest]
    | false =>
      rw [List.filter_cons_of_neg (by simp [hp]), List.flatMap_cons, h n List.mem_cons_self hp,
        List.nil_append, hrest]

/-- The methods of records in the order of the records, those inside others included. -/
def recordedMethods (l : Ledger) (rs : List Record) : List MethodKey :=
  rs.flatMap fun r => r.methods.flatMap l.walk

theorem Grouped.methods_eq_groups (h : a.Grouped rs) :
    a.methods = (FirstSeen.ofList (rs.map Record.group)).flatMap fun g =>
      recordedMethods a.ledger (rs.filter (·.group = g)) := by
  have hall :
      a.methods = (a.nodes.map Node.bare).flatMap fun n => n.methods.flatMap a.ledger.walk := by
    rw [Atlas.methods, List.flatMap_map]
    apply flatMap_filter_of_nil
    intro n hn hl
    rw [h.methods_eq_nil hn (of_decide_eq_false hl)]
    rfl
  rw [hall, h.nodes, groupedNodes, List.flatMap_map]
  apply List.flatMap_congr
  intro g _
  rw [Node.methods_ofRecords, List.flatMap_assoc]
  rfl

theorem Grouped.methods_perm (h : a.Grouped rs) : a.methods.Perm (recordedMethods a.ledger rs) := by
  rw [h.methods_eq_groups]
  simp only [recordedMethods]
  rw [← List.flatMap_assoc]
  exact (FirstSeen.flatMap_filter_perm Record.group rs).flatMap_right _

theorem Grouped.methods_eq_recorded (h : a.Grouped rs)
    (hone : ((rs.filter (·.layer = .methods)).map (·.path)).Nodup) :
    a.methods = recordedMethods a.ledger rs := by
  rw [h.methods_eq_groups]
  apply FirstSeen.flatMap_filter_eq
  rw [List.nodup_iff_pairwise_ne, List.pairwise_map, List.pairwise_filter] at hone
  apply hone.imp_of_mem
  intro r s _ hs hne hg
  have hlayer : r.layer = s.layer := congrArg Group.layer hg
  have hpath : r.path = s.path := congrArg Group.path hg
  have hl : s.layer ≠ .methods := by
    intro hl
    exact hne (decide_eq_true (hlayer.trans hl)) (decide_eq_true hl) hpath
  rw [(h.accepted s hs).methods_eq_nil_of_ne hl]
  rfl

section Merging

theorem Placed.node_of_ne (h : Placed a r b answer) {n : NodeKey}
    (hn : n.index < a.ledger.nodes.length) (hne : answer ≠ some n) :
    b.ledger.node n = a.ledger.node n := by
  cases h with
  | repeated _ _ _ hentries => rw [node, hentries, ← node]
  | opened count _ _ _ _ hentries =>
    rw [node, hentries, getD_concat, if_neg (Nat.ne_of_lt hn), ← node]
  | extended m rest count _ _ _ _ _ hentries =>
    have hidx : ¬(n.index = m.index ∧ m.index < a.ledger.nodes.length) := by
      intro he
      apply hne
      cases m
      cases n
      exact congrArg (some ∘ NodeKey.mk) he.1.symm
    rw [node, hentries, getD_modify, if_neg hidx, ← node]

theorem Placed.mem_nodes (h : Placed a r b answer) {n : NodeKey} (hn : n ∈ b.graph.nodes) :
    n ∈ a.graph.nodes ∨ n.index = a.ledger.nodes.length := by
  cases h with
  | repeated _ _ hgraph _ => exact .inl (hgraph ▸ hn)
  | opened _ _ hnodes _ _ _ =>
    rw [hnodes] at hn
    rcases List.mem_append.1 hn with hn | hn
    · exact .inl hn
    · exact .inr (congrArg NodeKey.index (List.mem_singleton.1 hn))
  | extended _ _ _ _ _ hnodes _ _ _ => exact .inl (hnodes ▸ hn)

theorem methods_appendNode {n : Node} (hm : n.methods = []) (hc : n.methodCount = 0) (a : Atlas)
    (j : NodeKey) :
    ((a.appendNode n).2.ledger.node j).methods = (a.ledger.node j).methods ∧
      ((a.appendNode n).2.ledger.node j).methodCount = (a.ledger.node j).methodCount := by
  have hnode : (a.appendNode n).2.ledger.node j = if j.index = a.ledger.nodes.length then n
    else a.ledger.node j :=
    node_addNode a.ledger n j
  rw [hnode]
  split
  · next hj =>
    rw [node_of_le (Nat.le_of_eq hj.symm)]
    exact ⟨hm, hc⟩
  · exact ⟨rfl, rfl⟩

theorem methods_nodeFor (a : Atlas) (r : Record) (j : NodeKey) :
    ((a.nodeFor r).2.ledger.node j).methods = (a.ledger.node j).methods ∧
      ((a.nodeFor r).2.ledger.node j).methodCount = (a.ledger.node j).methodCount := by
  unfold nodeFor
  split
  · exact ⟨rfl, rfl⟩
  · exact methods_appendNode rfl rfl a j

/-- The merge of an import or of structures changes neither methods of nodes nor their number. -/
theorem methods_merge_of_ne (h : Accepted (a.ledger.record k))
    (hl : (a.ledger.record k).layer ≠ .methods) (j : NodeKey) :
    ((a.merge k).2.ledger.node j).methods = (a.ledger.node j).methods ∧
      ((a.merge k).2.ledger.node j).methodCount = (a.ledger.node j).methodCount := by
  cases hlayer : (a.ledger.record k).layer with
  | modules =>
    rw [merge_import h hlayer]
    split
    · exact ⟨rfl, rfl⟩
    · rw [receiveImport]
      exact methods_appendNode rfl rfl _ j
  | structures =>
    rw [merge_structures h hlayer]
    have hfor :=
      methods_nodeFor { a with ledger := takenStructures a.ledger k } (a.ledger.record k) j
    have hnodes : (a.receiveStructures k).2.ledger.nodes =
        (nodeFor { a with ledger := takenStructures a.ledger k }
          (a.ledger.record k)).2.ledger.nodes.modify (a.receiveStructures k).1.index fun e =>
            { e with structures := e.structures ++ (a.ledger.record k).structures } :=
      nodes_foldl_grantStructure ..
    have htaken : (takenStructures a.ledger k).node j = a.ledger.node j := by
      rw [node, nodes_takenStructures, ← node]
    rw [htaken] at hfor
    rw [← hfor.1, ← hfor.2, node, hnodes, getD_modify, ← node]
    split
    · exact ⟨rfl, rfl⟩
    · exact ⟨rfl, rfl⟩
  | methods => exact (hl hlayer).elim

theorem counted_receiveMethods (a : Atlas) (k : RecordKey)
    (hn : (a.receiveMethods k).1.index < (a.receiveMethods k).2.ledger.nodes.length) :
    ((a.receiveMethods k).2.ledger.node (a.receiveMethods k).1).methodCount =
      countMethods (a.receiveMethods k).2.ledger (a.receiveMethods k).1 := by
  unfold receiveMethods at hn ⊢
  generalize nodeFor { a with ledger := takenMethods a.ledger k } (a.ledger.record k) = p at hn ⊢
  obtain ⟨n, b⟩ := p
  simp only [length_nodes_updateNode] at hn
  have hwalk : ∀ (l : Ledger) (f : Node → Node) (m : MethodKey),
      (l.updateNode n f).walk m = l.walk m := fun l f =>
    walk_congr (show (l.updateNode n f).methods.length = l.methods.length from rfl) fun _ => rfl
  simp only [countMethods, node_updateNode, if_pos (And.intro trivial hn), funext (hwalk _ _)]

end Merging

/-- The tables agree with the records that were merged: the groups, the numbers of methods, and the
methods by name. -/
structure Coherent (a : Atlas) (rs : List Record) : Prop where
  grouped : a.Grouped rs
  counted : ∀ n ∈ a.graph.nodes, (a.ledger.node n).methodCount = countMethods a.ledger n
  byName : ∀ name, a.graph.byName.get name =
    (recordedMethods a.ledger rs).filter fun m => (a.ledger.method m).head.name = name

theorem coherent_empty (l : Ledger) : Coherent { ledger := l } [] where
  grouped := grouped_empty l
  counted := by simp
  byName _ := rfl

/-- What leaves the graph, its nodes and the methods in it alone leaves the tables coherent. -/
theorem Coherent.congr (h : a.Coherent rs) (hex : a.ledger.Exclusive) (hgraph : b.graph = a.graph)
    (hnodes : b.ledger.nodes = a.ledger.nodes)
    (hlength : a.ledger.methods.length ≤ b.ledger.methods.length)
    (hkept : ∀ m ∈ a.methods, b.ledger.method m = a.ledger.method m) : b.Coherent rs := by
  have hwalk : ∀ n ∈ a.graph.nodes, ∀ m ∈ (a.ledger.node n).methods,
      b.ledger.walk m = a.ledger.walk m := by
    intro n hn m hm
    have hreach : a.ledger.Reach (.ofNode n) (.method m) :=
      .listed (List.mem_append_right _ (List.mem_map_of_mem hm))
    apply hex.walk_eq_of_kept (isTop_ofNode n) hreach hlength
    intro j hj
    exact hkept j (h.grouped.mem_methods_of_walk hn hm hj)
  have hrecorded : recordedMethods b.ledger rs = recordedMethods a.ledger rs := by
    apply List.flatMap_congr
    intro r hr
    apply List.flatMap_congr
    intro m hm
    obtain ⟨n, hn, hm⟩ := h.grouped.exists_node_of_mem hr hm
    exact hwalk n hn m hm
  refine ⟨h.grouped.congr hgraph hnodes, ?_, ?_⟩
  · intro n hn
    rw [hgraph] at hn
    have hnode : b.ledger.node n = a.ledger.node n := by rw [node, hnodes, ← node]
    rw [countMethods, hnode, h.counted n hn, List.flatMap_congr (hwalk n hn), countMethods]
  · intro name
    rw [hgraph, h.byName, hrecorded]
    apply List.filter_congr
    intro m hm
    rw [hkept m (h.grouped.methods_perm.mem_iff.2 hm)]

theorem Coherent.counted_merge (h : a.Coherent rs) (he : a.merge k = (.ok answer, b))
    (hwalk : b.ledger.walk = a.ledger.walk) {n : NodeKey} (hn : n ∈ b.graph.nodes) :
    (b.ledger.node n).methodCount = countMethods b.ledger n := by
  obtain ⟨hok, hplaced⟩ := placed_of_merge he
  have hknown := (h.grouped.merge hok hplaced).known n hn
  have hold : n ∈ a.graph.nodes → (a.ledger.node n).methodCount =
      ((a.ledger.node n).methods.flatMap a.ledger.walk).length :=
    h.counted n
  by_cases hl : (a.ledger.record k).layer = .methods
  · by_cases hans : answer = some n
    · rw [merge_methods hok hl] at he
      obtain ⟨ha, rfl⟩ := Prod.mk.inj he
      obtain rfl : (a.receiveMethods k).1 = n := by simpa [hans] using ha
      have halike :=
        alike_linkCalls (a.receiveMethods k).2 (a.ledger.record k).path (a.ledger.record k).methods
      rw [halike.nodes] at hknown
      rw [countMethods, node, halike.nodes, ← node, counted_receiveMethods a k hknown, countMethods]
      exact congrArg List.length (List.flatMap_congr fun m _ => (halike.walk m).symm)
    · have hin : n ∈ a.graph.nodes := by
        rcases hplaced.mem_nodes hn with hin | hnew
        · exact hin
        · cases hplaced with
          | repeated _ _ hgraph _ => exact hgraph ▸ hn
          | opened => exact (hans (by cases n; exact congrArg (some ∘ NodeKey.mk) hnew.symm)).elim
          | extended _ _ _ _ _ hnodes _ _ _ => exact hnodes ▸ hn
      rw [countMethods, hwalk, hplaced.node_of_ne (h.grouped.known n hin) hans, hold hin]
  · have hsame := methods_merge_of_ne hok hl n
    rw [he] at hsame
    rw [countMethods, hwalk, hsame.1, hsame.2]
    rcases hplaced.mem_nodes hn with hin | hnew
    · exact hold hin
    · rw [node_of_le (Nat.le_of_eq hnew.symm)]
      rfl

/-- The methods of a record are found by name behind those that were there. -/
theorem byName_merge (he : a.merge k = (.ok answer, b)) (name : Text) :
    b.graph.byName.get name = a.graph.byName.get name ++
      ((a.ledger.record k).methods.flatMap a.ledger.walk).filter fun m =>
        (a.ledger.method m).head.name = name := by
  have hok : Accepted (a.ledger.record k) := merge_ok_iff.1 ⟨answer, congrArg Prod.fst he⟩
  by_cases hl : (a.ledger.record k).layer = .methods
  · rw [merge_methods hok hl] at he
    obtain ⟨-, rfl⟩ := Prod.mk.inj he
    rw [byName_linkCalls, (tables_receiveMethods a k).1, walk_receiveMethods]
    simp only [head_receiveMethods]
  · have hsame : b.graph.byName = a.graph.byName := by
      cases hlayer : (a.ledger.record k).layer with
      | modules =>
        rw [merge_import hok hlayer] at he
        split at he
        · obtain ⟨-, rfl⟩ := Prod.mk.inj he
          rfl
        · obtain ⟨-, rfl⟩ := Prod.mk.inj he
          rfl
      | structures =>
        rw [merge_structures hok hlayer] at he
        obtain ⟨-, rfl⟩ := Prod.mk.inj he
        exact (nodeFor_tables _ _).1
      | methods => exact (hl hlayer).elim
    rw [hsame, hok.methods_eq_nil_of_ne hl]
    exact (List.append_nil _).symm

theorem Coherent.merge (h : a.Coherent rs) (he : a.merge k = (.ok answer, b)) :
    b.Coherent (rs ++ [a.ledger.record k]) := by
  obtain ⟨hok, hplaced⟩ := placed_of_merge he
  obtain ⟨hlength, hfixed⟩ := fixed_merge a k
  rw [he] at hlength hfixed
  have hhead : ∀ m, (b.ledger.method m).head = (a.ledger.method m).head := fun m =>
    (congrArg MethodEntry.head (hfixed m) :)
  have hwalk : b.ledger.walk = a.ledger.walk := by
    funext m
    exact walk_congr hlength (fun m => (congrArg MethodEntry.children (hfixed m) :)) m
  refine ⟨h.grouped.merge hok hplaced, fun n hn => h.counted_merge he hwalk hn, ?_⟩
  intro name
  rw [byName_merge he, h.byName, ← List.filter_append, recordedMethods, recordedMethods,
    List.flatMap_append, List.flatMap_singleton, hwalk]
  simp only [hhead]

section Steps

theorem ledger_perform_openRecord (a : Atlas) (path : Text) (layer : Layer) (language : Language)
    (target : Option Text) (ss : List StructureKey) (ms : List MethodKey) :
    (a.perform (.openRecord path layer language target ss ms)).2.ledger =
      (a.ledger.openRecord path layer language target ss ms).2 := by
  rw [perform]
  split
  · next he => rw [he]
  · next he => rw [he]

theorem ledger_perform_releaseRecord (a : Atlas) (k : RecordKey) :
    (a.perform (.releaseRecord k)).2.ledger = (a.ledger.releaseRecord k).2 := by
  rw [perform]
  split
  · next he => rw [he]
  · next he => rw [he]

end Steps

/-- Methods in the graph are not changed, unless the operation works on the graph itself. -/
def Undisturbed (a : Atlas) (op : Operation) : Prop :=
  op.onGraph = false → ∀ m ∈ a.methods, (a.step op).2.ledger.method m = a.ledger.method m

def leavesMethods (a : Atlas) (op : Operation) : Bool :=
  op.onGraph || a.methods.all fun m => (a.step op).2.ledger.method m = a.ledger.method m

theorem undisturbed_of_leavesMethods (a : Atlas) (op : Operation) (h : a.leavesMethods op = true) :
    a.Undisturbed op := by
  intro hop m hm
  rw [leavesMethods, hop, Bool.false_or, List.all_eq_true] at h
  exact of_decide_eq_true (h m hm)

theorem Coherent.next (h : a.Coherent rs) (hex : a.ledger.Exclusive) (hop : a.Undisturbed op)
    (hr : ∀ fault, (a.step op).1 ≠ .brokenOff fault) :
    (a.step op).2.Coherent (recordsAfter rs (op, (a.step op).1)) := by
  obtain ⟨reply, b, he, heffect⟩ := a.step_effect op
  rw [Undisturbed, he] at hop
  rw [he] at hr ⊢
  cases heffect with
  | kept hrelease hquiet _ =>
    rw [recordsAfter_of_ne hrelease, hquiet]
    simpa using h
  | @edited _ _ l hoff hquiet _ hl =>
    have hrelease : op ≠ .release := fun he => by simp [he, Operation.onGraph] at hoff
    rw [recordsAfter_of_ne hrelease, hquiet]
    simpa using h.congr (b := { a with ledger := l }) hex rfl hl.keeps.nodes hl.keeps.known
      (hop hoff)
  | cutShort _ => exact (hr _ rfl).elim
  | merged hmerge => exact h.merge hmerge
  | released _ => exact coherent_empty _
  | stuck _ => exact (hr _ rfl).elim

theorem coherent_run {ops : List Operation} (hr : ∀ fault, .brokenOff fault ∉ (Atlas.run {} ops).1)
    (hkept : Along Undisturbed {} ops) :
    (Atlas.run {} ops).2.Coherent (heldRecords (ops.zip (Atlas.run {} ops).1)) := by
  have hrun := run_invariant
    (P := fun history a => a.ledger.Exclusive ∧ a.Coherent (heldRecords history))
    (fun history a op hop h => ⟨exclusive_step h.1 hop.2,
      heldRecords_concat .. ▸ h.2.next h.1 hop.1 hop.2⟩)
    (hkept.and (along_of_unbroken hr)) [] ⟨exclusive_empty, coherent_empty {}⟩
  exact hrun.2

section Questions

theorem Grouped.nodesFor_eq (h : a.Grouped rs) (source : Text) (layer : Layer) :
    a.nodesFor source layer = a.nodes.filter fun n => n.source = source ∧ n.layer = layer := by
  rw [nodesFor, h.byFile, Atlas.nodes, List.filter_map]
  rfl

theorem Grouped.nodup_sources (h : a.Grouped rs) {layer : Layer} (hl : layer ≠ .modules) :
    ((a.nodes.filter (·.layer = layer)).map (·.source)).Nodup := by
  apply h.nodup_filter_map
  intro m hm n hn hlm hln hs
  have hlm : m.layer = layer := of_decide_eq_true hlm
  have hln : n.layer = layer := of_decide_eq_true hln
  have htm := h.node_target_eq_none hm (hlm ▸ hl)
  have htn := h.node_target_eq_none hn (hln ▸ hl)
  simp only [Node.group, hs, hlm, hln, htm, htn]

theorem Grouped.nodup_edges (h : a.Grouped rs) :
    ((a.nodes.filter (·.layer = .modules)).map fun n => (n.source, n.target)).Nodup := by
  apply h.nodup_filter_map
  intro m _ n _ hlm hln he
  have hlm : m.layer = .modules := of_decide_eq_true hlm
  have hln : n.layer = .modules := of_decide_eq_true hln
  obtain ⟨hs, ht⟩ := Prod.mk.inj he
  simp only [Node.group, hs, ht, hlm, hln]

theorem Grouped.importsOf_eq (h : a.Grouped rs) (source : Text) :
    (a.importsOf source).map some =
      (a.nodes.filter fun n => n.source = source ∧ n.layer = .modules).map (·.target) := by
  rw [importsOf, h.nodesFor_eq, List.map_filterMap, ← List.filterMap_eq_map]
  apply List.filterMap_congr
  intro n hn
  obtain ⟨hn, hl⟩ := List.mem_filter.1 hn
  obtain ⟨t, ht, hne⟩ := h.exists_target hn (of_decide_eq_true hl).2
  simp [ht, hne]

theorem Grouped.nodup_importsOf (h : a.Grouped rs) (source : Text) :
    (a.importsOf source).Nodup := by
  apply List.Nodup.of_map some
  rw [h.importsOf_eq]
  apply h.nodup_filter_map
  intro m _ n _ hm hn he
  have hm : m.source = source ∧ m.layer = .modules := of_decide_eq_true hm
  have hn : n.source = source ∧ n.layer = .modules := of_decide_eq_true hn
  simp only [Node.group, hm, hn, he]

theorem Coherent.count_methods (h : a.Coherent rs) : a.count .methods = a.methods.length := by
  have hcounted : ∀ n ∈ a.nodes.filter (·.layer = .methods),
      n.methodCount = (n.methods.flatMap a.ledger.walk).length := by
    intro n hn
    obtain ⟨k, hk, rfl⟩ := List.mem_map.1 (List.mem_filter.1 hn).1
    exact h.counted k hk
  rw [count, Atlas.methods, length_flatMap_eq_addUp, List.map_congr_left hcounted]

theorem Coherent.findMethods_perm (h : a.Coherent rs) (name : Text) :
    (a.findMethods name).Perm (a.methods.filter fun m => (a.ledger.method m).head.name = name) := by
  rw [findMethods, h.byName]
  exact (h.grouped.methods_perm.filter _).symm

end Questions

/-- After a session of merges, accepted or not, and releases, in which methods are not changed once
they are in the graph, all that the graph keeps besides its nodes agrees with them: the nodes of a
file on a layer, one node for the structures and one for the methods of a file, one node for each
import, the imports of a file, the counts on the three layers, and the methods of a name, which come
in the order of all methods if no file gave two records of methods. -/
theorem tables_agree_with_nodes (ops : List Operation)
    (hr : ∀ fault, .brokenOff fault ∉ (Atlas.run {} ops).1) (hkept : Along Undisturbed {} ops) :
    let session := Atlas.run {} ops
    let a := session.2
    let named := fun name => a.methods.filter fun m => (a.ledger.method m).head.name = name
    (∀ source layer, a.nodesFor source layer = a.nodes.filter fun n => n.source = source ∧
      n.layer = layer) ∧
    ((a.nodes.filter (·.layer = .structures)).map (·.source)).Nodup ∧
    ((a.nodes.filter (·.layer = .methods)).map (·.source)).Nodup ∧
    ((a.nodes.filter (·.layer = .modules)).map fun n => (n.source, n.target)).Nodup ∧
    (∀ source, (a.importsOf source).Nodup ∧ (a.importsOf source).map some =
      (a.nodes.filter fun n => n.source = source ∧ n.layer = .modules).map (·.target)) ∧
    a.count .modules = (a.nodes.filter (·.layer = .modules)).length ∧
    a.count .structures = a.structures.length ∧
    a.count .methods = a.methods.length ∧
    (∀ name, (a.findMethods name).Perm (named name)) ∧
    ((((heldRecords (ops.zip session.1)).filter (·.layer = .methods)).map (·.path)).Nodup →
      ∀ name, a.findMethods name = named name) := by
  intro session a named
  have h : a.Coherent (heldRecords (ops.zip session.1)) := coherent_run hr hkept
  refine ⟨h.grouped.nodesFor_eq, h.grouped.nodup_sources (by simp),
    h.grouped.nodup_sources (by simp), h.grouped.nodup_edges, ?_, rfl, rfl, h.count_methods,
    h.findMethods_perm, ?_⟩
  · intro source
    exact ⟨h.grouped.nodup_importsOf source, h.grouped.importsOf_eq source⟩
  · intro hone name
    rw [findMethods, h.byName, ← h.grouped.methods_eq_recorded hone]

/-- A graph is released and used again: an import is merged twice and a record of methods that holds
a structure is refused; between two records of methods of one file stands one of another file, and a
method outside the graph gets a child. -/
def reused : List Operation :=
  [.makeMethod { name := ['f'] } [] [], .makeMethod { name := ['g'] } [['f']] [],
    .makeMethod { name := ['f'] } [] [], .makeMethod { name := ['f'] } [] [],
    .makeMethod { name := ['h'] } [] [], .makeStructure { name := ['S'] },
    .openRecord ['p'] .modules .python (some ['m']) [] [], .merge ⟨0⟩, .release, .addChild ⟨0⟩ ⟨1⟩,
    .openRecord ['p'] .methods .python none [] [⟨0⟩],
    .openRecord ['q'] .methods .python none [] [⟨2⟩],
    .openRecord ['p'] .methods .python none [] [⟨3⟩],
    .openRecord ['p'] .modules .python (some ['m']) [] [],
    .openRecord ['p'] .modules .python (some ['m']) [] [],
    .openRecord ['p'] .methods .python none [⟨0⟩] [], .merge ⟨1⟩, .merge ⟨4⟩, .merge ⟨2⟩,
    .makeMethod { name := ['k'] } [] [], .addChild ⟨4⟩ ⟨5⟩, .merge ⟨3⟩, .merge ⟨5⟩, .merge ⟨6⟩]

theorem tables_of_reused :
    let a := (Atlas.run {} reused).2
    (∀ fault, .brokenOff fault ∉ (Atlas.run {} reused).1) ∧ Along Undisturbed {} reused ∧
      a.importsOf ['p'] = [['m']] ∧ a.count .methods = a.methods.length ∧
      a.methods = [⟨0⟩, ⟨1⟩, ⟨3⟩, ⟨2⟩] ∧ a.findMethods ['f'] = [⟨0⟩, ⟨2⟩, ⟨3⟩] ∧
      (a.findMethods ['f']).Perm (a.methods.filter fun m => (a.ledger.method m).head.name =
        ['f']) := by
  intro a
  have hr : ∀ fault, .brokenOff fault ∉ (Atlas.run {} reused).1 :=
    unbroken_of_check (by decide +kernel)
  have hkept : Along Undisturbed {} reused :=
    along_of_check undisturbed_of_leavesMethods (by decide +kernel)
  have himports : (Atlas.run {} reused).2.importsOf ['p'] = [['m']] := by decide +kernel
  have hmethods : (Atlas.run {} reused).2.methods = [⟨0⟩, ⟨1⟩, ⟨3⟩, ⟨2⟩] := by decide +kernel
  have hfound : (Atlas.run {} reused).2.findMethods ['f'] = [⟨0⟩, ⟨2⟩, ⟨3⟩] := by decide +kernel
  obtain ⟨-, -, -, -, -, -, -, hcount, hfind, -⟩ := tables_agree_with_nodes reused hr hkept
  exact ⟨hr, hkept, himports, hcount, hmethods, hfound, hfind ['f']⟩

end Atlas

end DependencyAtlas
