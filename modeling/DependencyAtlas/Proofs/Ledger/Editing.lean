import DependencyAtlas.Proofs.Ledger.Granting
import DependencyAtlas.Proofs.Ledger.Release

namespace DependencyAtlas

namespace Ledger

variable {l l' l'' : Ledger} {owner : Owner}

/-- What is left alone: the nodes, and the methods there are with their names. -/
structure Keeps (l l' : Ledger) : Prop where
  nodes : l'.nodes = l.nodes
  known : l.methods.length ≤ l'.methods.length
  names : ∀ m : MethodKey, m.index < l.methods.length →
    (l'.method m).head.name = (l.method m).head.name

section Keeping

theorem Keeps.refl (l : Ledger) : l.Keeps l :=
  ⟨rfl, Nat.le_refl _, fun _ _ => rfl⟩

theorem Keeps.of_eq (hnodes : l'.nodes = l.nodes) (hmethods : l'.methods = l.methods) :
    l.Keeps l' where
  nodes := hnodes
  known := Nat.le_of_eq (congrArg List.length hmethods).symm
  names m _ := by rw [method, method, hmethods]

theorem Keeps.trans (h : l.Keeps l') (h' : l'.Keeps l'') : l.Keeps l'' where
  nodes := h'.nodes.trans h.nodes
  known := Nat.le_trans h.known h'.known
  names m hm := (h'.names m (Nat.lt_of_lt_of_le hm h.known)).trans (h.names m hm)

theorem Keeps.foldl {α : Type} {f : Ledger → α → Ledger} (hstep : ∀ (l : Ledger) x, l.Keeps (f l x))
    (xs : List α) (l : Ledger) : l.Keeps (xs.foldl f l) := by
  induction xs generalizing l with
  | nil => exact .refl l
  | cons x xs ih => exact (hstep l x).trans (ih _)

theorem keeps_addMethod (l : Ledger) (e : MethodEntry) : l.Keeps (l.addMethod e).2 where
  nodes := rfl
  known := by simp [addMethod]
  names m hm := by rw [method_addMethod, if_neg (Nat.ne_of_lt hm)]

theorem keeps_updateMethod {f : MethodEntry → MethodEntry}
    (hf : ∀ e, (f e).head.name = e.head.name) (l : Ledger) (k : MethodKey) :
    l.Keeps (l.updateMethod k f) where
  nodes := rfl
  known := Nat.le_of_eq (length_methods_updateMethod ..).symm
  names m _ := method_updateMethod_of (fun e => e.head.name) hf l k m

theorem keeps_disownMethods (l : Ledger) (ms : List MethodKey) : l.Keeps (l.disownMethods ms) :=
  .foldl (fun l m => keeps_updateMethod (f := fun e => { e with owner := none }) (fun _ => rfl) l m)
    ms l

theorem keeps_grant (howner : ∀ n, owner ≠ .ofNode n) (l : Ledger) (x : Item) :
    l.Keeps (l.grant owner x) := by
  cases x with
  | method c =>
    apply (keeps_updateMethod (f := fun e => { e with owner := some owner }) (fun _ => rfl) l
      c).trans
    cases owner with
    | ofMethod k =>
      exact keeps_updateMethod (f := fun e => { e with children := e.children ++ [c] })
        (fun _ => rfl) ..
    | ofStructure k => exact .of_eq rfl rfl
    | ofRecord k => exact .of_eq rfl rfl
    | ofNode n => exact (howner n rfl).elim
  | structureAt s =>
    cases owner with
    | ofNode n => exact (howner n rfl).elim
    | _ => exact .of_eq rfl rfl

theorem keeps_openRecord (l : Ledger) (path : Text) (layer : Layer) (language : Language)
    (target : Option Text) (ss : List StructureKey) (ms : List MethodKey) :
    l.Keeps (l.openRecord path layer language target ss ms).2 := by
  have hadded : l.Keeps (l.addRecord { path, layer, language, target }).2 := .of_eq rfl rfl
  have hgrant : ∀ (l' : Ledger) x, l'.Keeps (l'.grant (.ofRecord ⟨l.records.length⟩) x) :=
    keeps_grant fun n he => by cases he
  rw [openRecord_snd]
  exact hadded.trans (.foldl hgrant _ _)

theorem keeps_carryOut {p : ReleasePlan} (hnone : ∀ n, .node n ∉ p.emptied) :
    l.Keeps (l.carryOut p).2 where
  nodes := nodes_carryOut hnone
  known := Nat.le_of_eq (length_methods_carryOut l p).symm
  names m _ := name_carryOut l p m

theorem keeps_releaseRecord (l : Ledger) (k : RecordKey) : l.Keeps (l.releaseRecord k).2 := by
  have hnone : ∀ n, .node n ∉
      (l.plan (contentTasks (l.record k).structures (l.record k).methods)).emptied := by
    intro n hn
    exact leave_notMem_contentTasks _ _ _ (leave_of_node_mem hn)
  have hkept := keeps_carryOut (l := l) hnone
  unfold releaseRecord
  split
  · exact .refl l
  · simp only
    split
    · exact hkept
    · exact hkept.trans (.of_eq rfl rfl)

end Keeping

/-- All that an operation off the graph does to the ledger, unless it is refused or broken off. -/
inductive Edit (l : Ledger) : Ledger → Prop where
  | addMethod (head : MethodHead) (calls references : List Text) :
      Edit l (l.addMethod { head, calls, references }).2
  | addStructure (head : StructureHead) : Edit l (l.addStructure { head }).2
  | openRecord (path : Text) (layer : Layer) (language : Language) (target : Option Text)
      {ss : List StructureKey} {ms : List MethodKey} (hss : ∀ s ∈ ss, l.Has (.ofStructure s))
      (hms : ∀ m ∈ ms, l.Has (.ofMethod m)) :
      Edit l (l.openRecord path layer language target ss ms).2
  | grant {owner : Owner} {child : MethodKey} (howner : ∀ n, owner ≠ .ofNode n)
      (hchild : l.Has (.ofMethod child)) (hfree : l.Free owner (.method child)) :
      Edit l (l.grant owner (.method child))
  | takeStructures {k : RecordKey} {taken : List StructureKey} {l' : Ledger}
      (h : l.takeStructures k = .ok (taken, l')) : Edit l l'
  | takeMethods {k : RecordKey} {taken : List MethodKey} {l' : Ledger}
      (h : l.takeMethods k = .ok (taken, l')) : Edit l l'
  | consume {k : RecordKey} {l' : Ledger} (h : l.consume k = .ok l') : Edit l l'
  | releaseRecord {k : RecordKey} {stats : ReleaseStats} (h : (l.releaseRecord k).1 = .ok stats) :
      Edit l (l.releaseRecord k).2

theorem Edit.keeps (h : l.Edit l') : l.Keeps l' := by
  cases h with
  | addMethod head calls references => exact keeps_addMethod ..
  | addStructure head => exact .of_eq rfl rfl
  | openRecord path layer language target _ _ => exact keeps_openRecord ..
  | grant howner _ _ => exact keeps_grant howner ..
  | takeStructures ht =>
    obtain ⟨-, rfl, rfl⟩ := takeStructures_eq_ok_iff.1 ht
    rw [disownStructures_eq]
    exact .of_eq rfl rfl
  | @takeMethods k _ _ ht =>
    obtain ⟨-, rfl, rfl⟩ := takeMethods_eq_ok_iff.1 ht
    have hspent : l.Keeps (l.updateRecord k fun r => { r with methods := [], consumed := true }) :=
      .of_eq rfl rfl
    exact hspent.trans (keeps_disownMethods ..)
  | consume hc =>
    obtain ⟨-, rfl⟩ := consume_eq_ok_iff.1 hc
    exact .of_eq rfl rfl
  | releaseRecord _ => exact keeps_releaseRecord ..

theorem Edit.exclusive (h : l.Edit l') (hl : l.Exclusive) : l'.Exclusive := by
  cases h with
  | addMethod head calls references =>
    exact hl.congr (contents_addMethod l head calls references)
      (ownerOf_addMethod l head calls references)
  | addStructure head => exact hl.congr (contents_addStructure l head) (ownerOf_addStructure l head)
  | openRecord path layer language target hss hms => exact hl.openRecord hss hms
  | grant _ hchild hfree => exact hl.grantMethod hchild hfree
  | takeStructures ht => exact hl.takeStructures ht
  | takeMethods ht => exact hl.takeMethods ht
  | consume hc => exact hl.consume hc
  | releaseRecord hr => exact hl.releaseRecord hr

end Ledger

end DependencyAtlas
