import DependencyAtlas.Graph.Basic
import DependencyAtlas.Proofs.Ledger.Ownership

namespace DependencyAtlas

/-- The part of a method's entry that merging never changes. -/
def MethodEntry.fixed (e : MethodEntry) : MethodEntry :=
  { e with references := [], owner := none }

namespace Ledger

/-- Two ledgers that differ at most in the references of their methods. -/
structure Alike (l l' : Ledger) : Prop where
  length : l'.methods.length = l.methods.length
  entry : ∀ m, { l'.method m with references := [] } = { l.method m with references := [] }
  structures : l'.structures = l.structures
  records : l'.records = l.records
  nodes : l'.nodes = l.nodes

variable {l l' l'' : Ledger}

theorem Alike.refl (l : Ledger) : l.Alike l :=
  ⟨rfl, fun _ => rfl, rfl, rfl, rfl⟩

theorem Alike.trans (h : l.Alike l') (h' : l'.Alike l'') : l.Alike l'' :=
  ⟨h'.length.trans h.length, fun m => (h'.entry m).trans (h.entry m),
    h'.structures.trans h.structures, h'.records.trans h.records, h'.nodes.trans h.nodes⟩

theorem Alike.of_addReference (l : Ledger) (m : MethodKey) (place : Text) :
    l.Alike (l.addReference m place) where
  length := length_methods_updateMethod ..
  entry k := method_updateMethod_of (fun e => { e with references := [] }) (by intro; rfl) ..
  structures := rfl
  records := rfl
  nodes := rfl

theorem Alike.method_of {β : Type} (h : l.Alike l') (g : MethodEntry → β)
    (hg : ∀ e, g { e with references := [] } = g e) (m : MethodKey) :
    g (l'.method m) = g (l.method m) := by
  rw [← hg, h.entry, hg]

theorem Alike.head (h : l.Alike l') (m : MethodKey) : (l'.method m).head = (l.method m).head :=
  h.method_of MethodEntry.head (fun _ => rfl) m

theorem Alike.calls (h : l.Alike l') (m : MethodKey) : (l'.method m).calls = (l.method m).calls :=
  h.method_of MethodEntry.calls (fun _ => rfl) m

theorem Alike.children (h : l.Alike l') (m : MethodKey) :
    (l'.method m).children = (l.method m).children :=
  h.method_of MethodEntry.children (fun _ => rfl) m

theorem Alike.contents (h : l.Alike l') (o : Owner) : l'.contents o = l.contents o := by
  cases o with
  | ofMethod k => rw [Ledger.contents, Ledger.contents, h.children]
  | ofStructure k => rw [Ledger.contents, Ledger.contents, structureAt, h.structures, ← structureAt]
  | ofRecord k => rw [Ledger.contents, Ledger.contents, record, h.records, ← record]
  | ofNode k => rw [Ledger.contents, Ledger.contents, node, h.nodes, ← node]

theorem Alike.ownerOf (h : l.Alike l') (x : Item) : l'.ownerOf x = l.ownerOf x := by
  cases x with
  | method k => exact h.method_of MethodEntry.owner (fun _ => rfl) k
  | structureAt k => rw [Ledger.ownerOf, Ledger.ownerOf, structureAt, h.structures, ← structureAt]

theorem walkFrom_congr (h : ∀ m, (l'.method m).children = (l.method m).children) (n : Nat)
    (m : MethodKey) :
    l'.walkFrom n m = l.walkFrom n m := by
  induction n generalizing m with
  | zero => rfl
  | succ n ih => rw [walkFrom, walkFrom, h, funext ih]

theorem walk_congr (hlength : l'.methods.length = l.methods.length)
    (h : ∀ m, (l'.method m).children = (l.method m).children) (m : MethodKey) :
    l'.walk m = l.walk m := by
  rw [walk, walk, hlength, walkFrom_congr h]

theorem Alike.walk (h : l.Alike l') (m : MethodKey) : l'.walk m = l.walk m :=
  walk_congr h.length h.children m

end Ledger

namespace Atlas

variable {a : Atlas} {k : RecordKey}

theorem alike_referTo (l : Ledger) (file : Text) (target : MethodKey) (place : Text) :
    l.Alike (referTo l file target place) := by
  unfold referTo
  split
  · exact .refl l
  · exact .of_addReference ..

theorem alike_foldl {β : Type} {f : Ledger → β → Ledger}
    (hf : ∀ (l : Ledger) (b : β), l.Alike (f l b)) (bs : List β) (l : Ledger) :
    l.Alike (bs.foldl f l) := by
  induction bs generalizing l with
  | nil => exact .refl l
  | cons b bs ih => exact (hf l b).trans (ih _)

theorem alike_linkCalls (a : Atlas) (file : Text) (methods : List MethodKey) :
    a.ledger.Alike (a.linkCalls file methods).ledger :=
  (alike_foldl (fun l (e : MethodKey × Text) => alike_referTo l file e.1 e.2) _ _).trans
    (alike_foldl (fun l (e : MethodKey × Text) => .of_addReference l e.1 e.2) _ _)

/-- A record that a merge does not refuse. -/
def Accepted (r : Record) : Prop :=
  r.consumed = false ∧ misplaced r = none

instance (r : Record) : Decidable (Accepted r) :=
  inferInstanceAs (Decidable (_ ∧ _))

theorem merge_of_not_accepted (h : ¬Accepted (a.ledger.record k)) :
    ∃ fault, a.merge k = (.error fault, a) := by
  unfold merge
  simp only
  split
  · exact ⟨_, rfl⟩
  · next hc =>
    split
    · exact ⟨_, rfl⟩
    · next hm => exact (h ⟨by simpa using hc, hm⟩).elim

def takenStructures (l : Ledger) (k : RecordKey) : Ledger :=
  (l.updateRecord k fun r => { r with structures := [], consumed := true }).disownStructures
    (l.record k).structures

def takenMethods (l : Ledger) (k : RecordKey) : Ledger :=
  (l.updateRecord k fun r => { r with methods := [], consumed := true }).disownMethods
    (l.record k).methods

/-- The atlas after a node has received the structures of a record. -/
def receiveStructures (a : Atlas) (k : RecordKey) : NodeKey × Atlas :=
  let (n, b) := nodeFor { a with ledger := takenStructures a.ledger k } (a.ledger.record k)
  (n,
    { b with
      ledger := (a.ledger.record k).structures.foldl
        (fun l s => l.grantStructure (.ofNode n) s) b.ledger })

/-- The atlas after a node has received the methods of a record, before their calls are linked. -/
def receiveMethods (a : Atlas) (k : RecordKey) : NodeKey × Atlas :=
  let (n, b) := nodeFor { a with ledger := takenMethods a.ledger k } (a.ledger.record k)
  let ledger := (a.ledger.record k).methods.foldl (fun l m => l.grantMethod (.ofNode n) m) b.ledger
  (n,
    { b with
      ledger := ledger.updateNode n fun e => { e with methodCount := countMethods ledger n } })

theorem nodeFor_ledger (a : Atlas) (r : Record) :
    (a.nodeFor r).2.ledger = { a.ledger with nodes := (a.nodeFor r).2.ledger.nodes } := by
  unfold nodeFor
  split <;> rfl

theorem nodeFor_tables (a : Atlas) (r : Record) :
    (a.nodeFor r).2.graph.byName = a.graph.byName ∧
    (a.nodeFor r).2.graph.callersOf = a.graph.callersOf := by
  unfold nodeFor
  split
  · exact ⟨rfl, rfl⟩
  · exact ⟨rfl, rfl⟩

theorem method_receiveMethods (a : Atlas) (k : RecordKey) (m : MethodKey) :
    ((a.receiveMethods k).2.ledger.method m).loose = (a.ledger.method m).loose := by
  unfold receiveMethods
  have hledger := nodeFor_ledger { a with ledger := takenMethods a.ledger k } (a.ledger.record k)
  generalize nodeFor { a with ledger := takenMethods a.ledger k } (a.ledger.record k) =
    p at hledger ⊢
  obtain ⟨n, b⟩ := p
  refine (Ledger.method_foldl_grantMethod (by simp) (a.ledger.record k).methods b.ledger m).trans ?_
  rw [hledger]
  change ((takenMethods a.ledger k).method m).loose = _
  rw [takenMethods, Ledger.method_disownMethods]
  split <;> rfl

theorem length_methods_receiveMethods (a : Atlas) (k : RecordKey) :
    (a.receiveMethods k).2.ledger.methods.length = a.ledger.methods.length := by
  unfold receiveMethods
  have hledger := nodeFor_ledger { a with ledger := takenMethods a.ledger k } (a.ledger.record k)
  generalize nodeFor { a with ledger := takenMethods a.ledger k } (a.ledger.record k) =
    p at hledger ⊢
  obtain ⟨n, b⟩ := p
  refine (Ledger.length_methods_foldl_grantMethod (.ofNode n) (a.ledger.record k).methods
    b.ledger).trans ?_
  rw [hledger]
  exact Ledger.length_methods_disownMethods ..

theorem head_receiveMethods (a : Atlas) (k : RecordKey) (m : MethodKey) :
    ((a.receiveMethods k).2.ledger.method m).head = (a.ledger.method m).head :=
  (congrArg MethodEntry.head (method_receiveMethods a k m) :)

theorem calls_receiveMethods (a : Atlas) (k : RecordKey) (m : MethodKey) :
    ((a.receiveMethods k).2.ledger.method m).calls = (a.ledger.method m).calls :=
  (congrArg MethodEntry.calls (method_receiveMethods a k m) :)

theorem references_receiveMethods (a : Atlas) (k : RecordKey) (m : MethodKey) :
    ((a.receiveMethods k).2.ledger.method m).references = (a.ledger.method m).references :=
  (congrArg MethodEntry.references (method_receiveMethods a k m) :)

theorem walk_receiveMethods (a : Atlas) (k : RecordKey) :
    (a.receiveMethods k).2.ledger.walk = a.ledger.walk := by
  funext m
  apply Ledger.walk_congr (length_methods_receiveMethods a k)
  intro m
  exact (congrArg MethodEntry.children (method_receiveMethods a k m) :)

theorem record_receiveMethods (a : Atlas) {k j : RecordKey} (hj : j ≠ k) :
    (a.receiveMethods k).2.ledger.record j = a.ledger.record j := by
  unfold receiveMethods
  have hledger := nodeFor_ledger { a with ledger := takenMethods a.ledger k } (a.ledger.record k)
  generalize nodeFor { a with ledger := takenMethods a.ledger k } (a.ledger.record k) =
    p at hledger ⊢
  obtain ⟨n, b⟩ := p
  change (List.foldl _ b.ledger _).records.getD j.index {} = _
  have hrecords :=
    foldl_keeps (f := fun l m => l.grantMethod (.ofNode n) m) Ledger.records (fun _ _ => rfl)
  rw [hrecords, hledger]
  change (takenMethods a.ledger k).record j = _
  rw [takenMethods, Ledger.disownMethods_eq]
  exact (Ledger.record_updateRecord ..).trans (if_neg fun h => hj h.1)

theorem tables_receiveMethods (a : Atlas) (k : RecordKey) :
    (a.receiveMethods k).2.graph.byName = a.graph.byName ∧
      (a.receiveMethods k).2.graph.callersOf = a.graph.callersOf :=
  nodeFor_tables { a with ledger := takenMethods a.ledger k } (a.ledger.record k)

theorem merge_structures (h : Accepted (a.ledger.record k))
    (hl : (a.ledger.record k).layer = .structures) :
    a.merge k = (.ok (some (a.receiveStructures k).1), (a.receiveStructures k).2) := by
  have htake : a.ledger.takeStructures k = .ok ((a.ledger.record k).structures,
      takenStructures a.ledger k) :=
    Ledger.takeStructures_eq_ok_iff.2 ⟨h.1, rfl, rfl⟩
  unfold merge receiveStructures
  simp only [h.1, Bool.false_eq_true, if_false, h.2, hl, mergeStructures, htake]
  have hledger := nodeFor_ledger { a with ledger := takenStructures a.ledger k } (a.ledger.record k)
  generalize nodeFor { a with ledger := takenStructures a.ledger k } (a.ledger.record k) =
    p at hledger ⊢
  obtain ⟨n, b⟩ := p
  have hfree : ∀ s ∈ (a.ledger.record k).structures,
      (b.ledger.structureAt s).owner = none ∨
      (b.ledger.structureAt s).owner = some (.ofNode n) := by
    intro s hs
    left
    rw [hledger]
    change ((takenStructures a.ledger k).structureAt s).owner = none
    rw [takenStructures, Ledger.structureAt_disownStructures, if_pos hs]
  rw [Ledger.adoptStructures_eq_foldl _ hfree]

theorem merge_methods (h : Accepted (a.ledger.record k))
    (hl : (a.ledger.record k).layer = .methods) :
    a.merge k = (.ok (some (a.receiveMethods k).1),
      (a.receiveMethods k).2.linkCalls (a.ledger.record k).path (a.ledger.record k).methods) := by
  have htake :
      a.ledger.takeMethods k = .ok ((a.ledger.record k).methods, takenMethods a.ledger k) :=
    Ledger.takeMethods_eq_ok_iff.2 ⟨h.1, rfl, rfl⟩
  unfold merge receiveMethods
  simp only [h.1, Bool.false_eq_true, if_false, h.2, hl, mergeMethods, htake]
  have hledger := nodeFor_ledger { a with ledger := takenMethods a.ledger k } (a.ledger.record k)
  generalize nodeFor { a with ledger := takenMethods a.ledger k } (a.ledger.record k) =
    p at hledger ⊢
  obtain ⟨n, b⟩ := p
  have hfree : ∀ m ∈ (a.ledger.record k).methods,
      (b.ledger.method m).owner = none ∨ (b.ledger.method m).owner = some (.ofNode n) := by
    intro m hm
    left
    rw [hledger]
    change ((takenMethods a.ledger k).method m).owner = none
    rw [takenMethods, Ledger.method_disownMethods, if_pos hm]
  rw [Ledger.adoptMethods_eq_foldl _ hfree]

/-- The edge that an import stands for: the importing file and the target. -/
def edgeOf (r : Record) : Text × Text :=
  (r.path, r.target.getD [])

/-- The atlas after an import that is not a repetition was merged. -/
def receiveImport (a : Atlas) (k : RecordKey) : NodeKey × Atlas :=
  let r := a.ledger.record k
  appendNode
    { ledger := a.ledger.updateRecord k fun r => { r with consumed := true }
      graph := { a.graph with importEdges := a.graph.importEdges ++ [edgeOf r] } }
    { source := r.path, layer := .modules, language := r.language, target := r.target }

theorem merge_import (h : Accepted (a.ledger.record k))
    (hl : (a.ledger.record k).layer = .modules) :
    a.merge k =
      if edgeOf (a.ledger.record k) ∈ a.graph.importEdges then
        (.ok none,
          { a with ledger := a.ledger.updateRecord k fun r => { r with consumed := true } })
      else (.ok (some (a.receiveImport k).1), (a.receiveImport k).2) := by
  have hconsume := Ledger.consume_eq_ok_iff.2 ⟨h.1, rfl⟩
  unfold merge
  simp only [h.1, Bool.false_eq_true, if_false, h.2, hl, mergeImport, hconsume]
  rfl

theorem methods_receiveStructures (a : Atlas) (k : RecordKey) :
    (a.receiveStructures k).2.ledger.methods = a.ledger.methods := by
  unfold receiveStructures
  have hledger := nodeFor_ledger { a with ledger := takenStructures a.ledger k } (a.ledger.record k)
  generalize nodeFor { a with ledger := takenStructures a.ledger k } (a.ledger.record k) =
    p at hledger ⊢
  obtain ⟨n, b⟩ := p
  have hgrants :=
    foldl_keeps (f := fun l s => l.grantStructure (.ofNode n) s) Ledger.methods (fun _ _ => rfl)
  apply (hgrants (a.ledger.record k).structures b.ledger).trans
  rw [hledger]
  change (takenStructures a.ledger k).methods = _
  rw [takenStructures, Ledger.disownStructures_eq]
  rfl

/-- A merge makes no methods, and of those that there are it changes only owners and references. -/
theorem fixed_merge (a : Atlas) (k : RecordKey) :
    (a.merge k).2.ledger.methods.length = a.ledger.methods.length ∧
      ∀ m, ((a.merge k).2.ledger.method m).fixed = (a.ledger.method m).fixed := by
  by_cases h : Accepted (a.ledger.record k)
  · cases hl : (a.ledger.record k).layer with
    | modules =>
      rw [merge_import h hl]
      split
      · exact ⟨rfl, fun _ => rfl⟩
      · exact ⟨rfl, fun _ => rfl⟩
    | structures =>
      rw [merge_structures h hl]
      have hmethods := methods_receiveStructures a k
      refine ⟨congrArg List.length hmethods, fun m => ?_⟩
      rw [Ledger.method, hmethods, ← Ledger.method]
    | methods =>
      rw [merge_methods h hl]
      have halike :=
        alike_linkCalls (a.receiveMethods k).2 (a.ledger.record k).path (a.ledger.record k).methods
      refine ⟨halike.length.trans (length_methods_receiveMethods a k), fun m => ?_⟩
      calc _ = ((a.receiveMethods k).2.ledger.method m).fixed :=
             halike.method_of MethodEntry.fixed (fun _ => rfl) m
        _ = (a.ledger.method m).fixed :=
          (congrArg MethodEntry.fixed (method_receiveMethods a k m) :)
  · obtain ⟨fault, he⟩ := merge_of_not_accepted h
    rw [he]
    exact ⟨rfl, fun _ => rfl⟩

theorem merge_ok_iff : (∃ n, (a.merge k).1 = .ok n) ↔ Accepted (a.ledger.record k) := by
  constructor
  · rintro ⟨n, hn⟩
    by_contra h
    obtain ⟨fault, hf⟩ := merge_of_not_accepted h
    rw [hf] at hn
    cases hn
  · intro h
    cases hl : (a.ledger.record k).layer with
    | modules =>
      rw [merge_import h hl]
      split
      · exact ⟨_, rfl⟩
      · exact ⟨_, rfl⟩
    | structures => exact ⟨_, congrArg Prod.fst (merge_structures h hl)⟩
    | methods => exact ⟨_, congrArg Prod.fst (merge_methods h hl)⟩

end Atlas

end DependencyAtlas
