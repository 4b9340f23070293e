import DependencyAtlas.Proofs.Graph.Merge

namespace DependencyAtlas

open Ledger

/-- What the records of one node have in common. -/
structure Group where
  path : Text
  layer : Layer
  target : Option Text
  deriving DecidableEq, Repr

def Record.group (r : Record) : Group :=
  ⟨r.path, r.layer, if r.layer = .modules then r.target else none⟩

def Node.group (n : Node) : Group :=
  ⟨n.source, n.layer, n.target⟩

def Record.opened (r : Record) : Node where
  source := r.path
  layer := r.layer
  language := r.language
  target := r.group.target
  structures := r.structures
  methods := r.methods

def Node.received (n : Node) (r : Record) : Node :=
  { n with structures := n.structures ++ r.structures, methods := n.methods ++ r.methods }

namespace Atlas

theorem Accepted.contents_eq_nil {r : Record} (h : Accepted r) (hl : r.layer = .modules) :
    r.structures = [] ∧ r.methods = [] ∧ r.target.getD [] ≠ [] := by
  have hm := h.2
  rw [misplaced, hl] at hm
  simpa using hm

theorem Accepted.methods_eq_nil {r : Record} (h : Accepted r) (hl : r.layer = .structures) :
    r.methods = [] := by
  have hm := h.2
  rw [misplaced, hl] at hm
  simpa using hm

theorem Accepted.structures_eq_nil {r : Record} (h : Accepted r) (hl : r.layer = .methods) :
    r.structures = [] := by
  have hm := h.2
  rw [misplaced, hl] at hm
  simpa using hm

theorem Accepted.group_eq_iff {r s : Record} (h : Accepted r) (h' : Accepted s)
    (hl : r.layer = .modules) :
    s.group = r.group ↔ s.layer = .modules ∧ edgeOf s = edgeOf r := by
  constructor
  · intro hg
    have hs : s.layer = .modules := (congrArg Group.layer hg).trans hl
    have ht : s.target = r.target := by simpa [Record.group, hs, hl] using congrArg Group.target hg
    have hp : s.path = r.path := congrArg Group.path hg
    exact ⟨hs, by rw [edgeOf, edgeOf, hp, ht]⟩
  · rintro ⟨hs, he⟩
    obtain ⟨hp, ht⟩ := Prod.mk.inj he
    have hr := (h.contents_eq_nil hl).2.2
    have hs' := (h'.contents_eq_nil hs).2.2
    have htarget : s.target = r.target := by
      cases hst : s.target with
      | none => simp [hst] at hs'
      | some t =>
        cases hrt : r.target with
        | none => simp [hrt] at hr
        | some u => simpa [hst, hrt] using ht
    simp only [Record.group, hs, hl, hp, htarget]

/-- What a merge does to the graph: a repeated import adds nothing, the first record of a group
opens a node, and any other one extends the node that is there. -/
inductive Placed (a : Atlas) (r : Record) (b : Atlas) : Option NodeKey → Prop where
  | repeated (hlayer : r.layer = .modules) (hedge : edgeOf r ∈ a.graph.importEdges)
      (hgraph : b.graph = a.graph) (hentries : b.ledger.nodes = a.ledger.nodes) : Placed a r b none
  | opened (count : Nat)
      (hnew : if r.layer = .modules then edgeOf r ∉ a.graph.importEdges
        else a.graph.byFile.get (r.path, r.layer) = [])
      (hnodes : b.graph.nodes = a.graph.nodes ++ [⟨a.ledger.nodes.length⟩])
      (hfile : b.graph.byFile = a.graph.byFile.add (r.path, r.layer) ⟨a.ledger.nodes.length⟩)
      (hedges : b.graph.importEdges = a.graph.importEdges ++ if r.layer = .modules then [edgeOf r]
        else [])
      (hentries : b.ledger.nodes = a.ledger.nodes ++ [{ r.opened with methodCount := count }]) :
      Placed a r b (some ⟨a.ledger.nodes.length⟩)
  | extended (n : NodeKey) (rest : List NodeKey) (count : Node → Nat) (hlayer : r.layer ≠ .modules)
      (hold : a.graph.byFile.get (r.path, r.layer) = n :: rest)
      (hnodes : b.graph.nodes = a.graph.nodes)
      (hfile : b.graph.byFile = a.graph.byFile) (hedges : b.graph.importEdges = a.graph.importEdges)
      (hentries : b.ledger.nodes =
        a.ledger.nodes.modify n.index fun e => { e.received r with methodCount := count e }) :
      Placed a r b (some n)

variable {a b : Atlas} {k : RecordKey}

theorem nodes_foldl_grantStructure (ss : List StructureKey) (n : NodeKey) (l : Ledger) :
    (ss.foldl (fun l s => l.grantStructure (.ofNode n) s) l).nodes =
      l.nodes.modify n.index fun e => { e with structures := e.structures ++ ss } :=
  foldl_modify Ledger.nodes (fun ss e => { e with structures := e.structures ++ ss }) (by simp)
    (by simp) (fun _ _ => rfl) ss l

theorem nodes_foldl_grantMethod (ms : List MethodKey) (n : NodeKey) (l : Ledger) :
    (ms.foldl (fun l m => l.grantMethod (.ofNode n) m) l).nodes =
      l.nodes.modify n.index fun e => { e with methods := e.methods ++ ms } :=
  foldl_modify Ledger.nodes (fun ms e => { e with methods := e.methods ++ ms }) (by simp) (by simp)
    (fun _ _ => rfl) ms l

theorem nodes_takenStructures (l : Ledger) (k : RecordKey) :
    (takenStructures l k).nodes = l.nodes := by
  rw [takenStructures, disownStructures_eq]
  rfl

theorem nodes_takenMethods (l : Ledger) (k : RecordKey) : (takenMethods l k).nodes = l.nodes := by
  rw [takenMethods, disownMethods_eq]
  rfl

theorem nodes_receiveMethods (a : Atlas) (k : RecordKey) :
    ∃ count, (a.receiveMethods k).2.ledger.nodes =
      (nodeFor { a with ledger := takenMethods a.ledger k }
        (a.ledger.record k)).2.ledger.nodes.modify
        (nodeFor { a with ledger := takenMethods a.ledger k } (a.ledger.record k)).1.index
        fun e =>
          { e with methods := e.methods ++ (a.ledger.record k).methods, methodCount := count } := by
  unfold receiveMethods
  generalize nodeFor { a with ledger := takenMethods a.ledger k } (a.ledger.record k) = p
  obtain ⟨n, b⟩ := p
  simp only [updateNode, nodes_foldl_grantMethod, List.modify_modify_eq]
  exact ⟨_, rfl⟩

theorem placed_of_nodeFor {l : Ledger} {r : Record} (hlayer : r.layer ≠ .modules)
    (hl : l.nodes = a.ledger.nodes) {f : Node → Node} (count : Node → Nat)
    (hf : ∀ e, f e = { e.received r with methodCount := count e })
    (hnodes : b.ledger.nodes =
      (nodeFor { a with ledger := l } r).2.ledger.nodes.modify
        (nodeFor { a with ledger := l } r).1.index f)
    (hgraph : b.graph.nodes = (nodeFor { a with ledger := l } r).2.graph.nodes ∧
      b.graph.byFile = (nodeFor { a with ledger := l } r).2.graph.byFile ∧
      b.graph.importEdges = (nodeFor { a with ledger := l } r).2.graph.importEdges) :
    Placed a r b (some (nodeFor { a with ledger := l } r).1) := by
  have htarget : r.group.target = none := if_neg hlayer
  unfold nodeFor at hnodes hgraph ⊢
  cases hfile : a.graph.byFile.get (r.path, r.layer) with
  | cons n rest =>
    simp only [hfile, hl] at hnodes hgraph ⊢
    refine .extended n rest count hlayer hfile hgraph.1 hgraph.2.1 hgraph.2.2 ?_
    rw [hnodes, funext hf]
  | nil =>
    simp only [hfile, appendNode, addNode, hl] at hnodes hgraph ⊢
    rw [modify_append_length, hf] at hnodes
    refine .opened (count { source := r.path, layer := r.layer, language := r.language }) ?_
      hgraph.1 hgraph.2.1 ?_ ?_
    · rw [if_neg hlayer]
      exact hfile
    · rw [if_neg hlayer, List.append_nil]
      exact hgraph.2.2
    · rw [hnodes]
      simp only [Node.received, Record.opened, List.nil_append, htarget]

/-- An accepted record is placed with the others of its group. -/
theorem placed_of_merge {answer : Option NodeKey} (h : a.merge k = (.ok answer, b)) :
    Accepted (a.ledger.record k) ∧ Placed a (a.ledger.record k) b answer := by
  have hok : Accepted (a.ledger.record k) := merge_ok_iff.1 ⟨answer, congrArg Prod.fst h⟩
  refine ⟨hok, ?_⟩
  cases hlayer : (a.ledger.record k).layer with
  | modules =>
    obtain ⟨hs, hm, -⟩ := hok.contents_eq_nil hlayer
    have htarget : (a.ledger.record k).group.target = (a.ledger.record k).target := if_pos hlayer
    rw [merge_import hok hlayer] at h
    split at h
    · next hedge =>
      obtain ⟨ha, rfl⟩ := Prod.mk.inj h
      cases ha
      exact .repeated hlayer hedge rfl rfl
    · next hedge =>
      obtain ⟨ha, rfl⟩ := Prod.mk.inj h
      cases ha
      refine .opened 0 ?_ rfl ?_ ?_ ?_
      · rwa [if_pos hlayer]
      · rw [hlayer]
        rfl
      · rw [if_pos hlayer]
        rfl
      · simp only [receiveImport, appendNode, addNode, updateRecord, Record.opened, hs, hm,
          htarget, hlayer]
  | structures =>
    have hm := hok.methods_eq_nil hlayer
    rw [merge_structures hok hlayer] at h
    obtain ⟨ha, rfl⟩ := Prod.mk.inj h
    cases ha
    refine placed_of_nodeFor (by simp [hlayer]) (nodes_takenStructures ..) Node.methodCount
      (fun e => ?_) (nodes_foldl_grantStructure ..) ⟨rfl, rfl, rfl⟩
    rw [Node.received, hm, List.append_nil]
  | methods =>
    have hs := hok.structures_eq_nil hlayer
    rw [merge_methods hok hlayer] at h
    obtain ⟨ha, rfl⟩ := Prod.mk.inj h
    cases ha
    have halike :=
      alike_linkCalls (a.receiveMethods k).2 (a.ledger.record k).path (a.ledger.record k).methods
    obtain ⟨count, hcount⟩ := nodes_receiveMethods a k
    refine placed_of_nodeFor (by simp [hlayer]) (nodes_takenMethods ..) (fun _ => count)
      (fun e => ?_) (halike.nodes.trans hcount) ⟨rfl, rfl, rfl⟩
    rw [Node.received, hs, List.append_nil]

end Atlas

end DependencyAtlas
