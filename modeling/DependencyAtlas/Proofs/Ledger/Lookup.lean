import DependencyAtlas.Ledger.Release
import Mathlib.Data.List.GetD
import Mathlib.Tactic.Common

namespace DependencyAtlas

@[simp] theorem addUp_nil : addUp [] = 0 := rfl

@[simp] theorem addUp_cons (n : Nat) (ns : List Nat) : addUp (n :: ns) = n + addUp ns := rfl

@[simp] theorem addUp_append (ms ns : List Nat) : addUp (ms ++ ns) = addUp ms + addUp ns := by
  induction ms with
  | nil => simp
  | cons m ms ih => simp [ih, Nat.add_assoc]

theorem addUp_perm {ms ns : List Nat} (h : ms.Perm ns) : addUp ms = addUp ns := by
  induction h with
  | nil => rfl
  | cons m _ ih => rw [addUp_cons, addUp_cons, ih]
  | swap m n ns => exact Nat.add_left_comm ..
  | trans _ _ ihl ihr => exact ihl.trans ihr

@[simp] theorem addUp_replicate (k n : Nat) : addUp (List.replicate k n) = k * n := by
  induction k with
  | zero => simp
  | succ k ih => rw [List.replicate_succ, addUp_cons, ih, Nat.succ_mul, Nat.add_comm]

theorem length_flatMap_eq_addUp {α β : Type} (f : α → List β) (xs : List α) :
    (xs.flatMap f).length = addUp (xs.map fun x => (f x).length) := by
  induction xs with
  | nil => rfl
  | cons x xs ih => rw [List.flatMap_cons, List.length_append, ih, List.map_cons, addUp_cons]

theorem getD_modify {α : Type} (xs : List α) (i j : Nat) (f : α → α) (d : α) :
    (xs.modify i f).getD j d = if j = i ∧ i < xs.length then f (xs.getD j d) else xs.getD j d := by
  rw [List.getD_eq_getElem?_getD, List.getD_eq_getElem?_getD, List.getElem?_modify]
  by_cases hj : j < xs.length
  · rw [List.getElem?_eq_getElem hj]
    by_cases hi : i = j
    · simp [hi, hj]
    · simp [hi, Ne.symm hi]
  · rw [List.getElem?_eq_none (Nat.le_of_not_lt hj)]
    have hn : ¬(j = i ∧ i < xs.length) := fun h => hj (h.1 ▸ h.2)
    simp [hn]

theorem getD_concat {α : Type} (xs : List α) (x d : α) (j : Nat) :
    (xs ++ [x]).getD j d = if j = xs.length then x else xs.getD j d := by
  rw [List.getD_eq_getElem?_getD, List.getD_eq_getElem?_getD]
  rcases Nat.lt_trichotomy j xs.length with hj | hj | hj
  · rw [List.getElem?_append_left hj, if_neg (Nat.ne_of_lt hj)]
  · simp [hj]
  · rw [List.getElem?_eq_none (by simpa using Nat.succ_le_of_lt hj),
      List.getElem?_eq_none (Nat.le_of_lt hj), if_neg (Nat.ne_of_gt hj)]

theorem modify_append_length {α : Type} (xs : List α) (y : α) (ys : List α) (f : α → α) :
    (xs ++ y :: ys).modify xs.length f = xs ++ f y :: ys := by
  induction xs with
  | nil => rfl
  | cons x xs ih => exact congrArg (x :: ·) ih

theorem modify_append_of_lt {α : Type} {xs : List α} {i : Nat} (h : i < xs.length) (ys : List α)
    (f : α → α) :
    (xs ++ ys).modify i f = xs.modify i f ++ ys := by
  induction xs generalizing i with
  | nil => cases h
  | cons x xs ih =>
    cases i with
    | zero => rfl
    | succ i => exact congrArg (x :: ·) (ih (Nat.lt_of_succ_lt_succ h))

theorem modify_eq_self {α : Type} {xs : List α} {i : Nat} {f : α → α} {d : α}
    (h : f (xs.getD i d) = xs.getD i d) :
    xs.modify i f = xs := by
  apply List.ext_getElem?
  intro j
  rw [List.getElem?_modify]
  by_cases hi : i = j
  · subst hi
    cases he : xs[i]? with
    | none => rfl
    | some e =>
      rw [List.getD_eq_getElem?_getD, he] at h
      simpa using h
  · simp [hi]

theorem foldl_keeps {σ β γ : Type} (g : σ → γ) {f : σ → β → σ} (h : ∀ s b, g (f s b) = g s)
    (bs : List β) (s : σ) :
    g (bs.foldl f s) = g s := by
  induction bs generalizing s with
  | nil => rfl
  | cons b bs ih => exact (ih _).trans (h s b)

/-- Changes to one entry, each of which adds to it, can be made at once. -/
theorem foldl_modify {σ α β : Type} (g : σ → List α) {f : σ → β → σ} (change : List β → α → α)
    {i : Nat} (hnil : ∀ e, change [] e = e)
    (hcons : ∀ b bs e, change bs (change [b] e) = change (b :: bs) e)
    (h : ∀ s b, g (f s b) = (g s).modify i (change [b])) (bs : List β) (s : σ) :
    g (bs.foldl f s) = (g s).modify i (change bs) := by
  induction bs generalizing s with
  | nil =>
    rw [funext hnil]
    exact (List.modify_id ..).symm
  | cons b bs ih =>
    rw [List.foldl_cons, ih, h, List.modify_modify_eq]
    congr 1
    funext e
    exact hcons b bs e

namespace Ledger

section Update

theorem method_updateMethod (l : Ledger) (k m : MethodKey) (f : MethodEntry → MethodEntry) :
    (l.updateMethod k f).method m =
      if m = k ∧ k.index < l.methods.length then f (l.method m) else l.method m := by
  cases k
  cases m
  simpa [method, updateMethod] using getD_modify ..

theorem structureAt_updateStructure (l : Ledger) (k s : StructureKey)
    (f : StructureEntry → StructureEntry) :
    (l.updateStructure k f).structureAt s =
      if s = k ∧ k.index < l.structures.length then f (l.structureAt s) else l.structureAt s := by
  cases k
  cases s
  simpa [structureAt, updateStructure] using getD_modify ..

theorem record_updateRecord (l : Ledger) (k r : RecordKey) (f : Record → Record) :
    (l.updateRecord k f).record r =
      if r = k ∧ k.index < l.records.length then f (l.record r) else l.record r := by
  cases k
  cases r
  simpa [record, updateRecord] using getD_modify ..

theorem node_updateNode (l : Ledger) (k n : NodeKey) (f : Node → Node) :
    (l.updateNode k f).node n =
      if n = k ∧ k.index < l.nodes.length then f (l.node n) else l.node n := by
  cases k
  cases n
  simpa [node, updateNode] using getD_modify ..

/-- What a change of method entries keeps, it keeps of every entry. -/
theorem method_updateMethod_of {β : Type} (g : MethodEntry → β) {f : MethodEntry → MethodEntry}
    (hf : ∀ e, g (f e) = g e) (l : Ledger) (k m : MethodKey) :
    g ((l.updateMethod k f).method m) = g (l.method m) := by
  rw [method_updateMethod]
  split
  · exact hf _
  · rfl

theorem structureAt_updateStructure_of {β : Type} (g : StructureEntry → β)
    {f : StructureEntry → StructureEntry} (hf : ∀ e, g (f e) = g e) (l : Ledger)
    (k s : StructureKey) :
    g ((l.updateStructure k f).structureAt s) = g (l.structureAt s) := by
  rw [structureAt_updateStructure]
  split
  · exact hf _
  · rfl

@[simp] theorem length_methods_updateMethod (l : Ledger) (k : MethodKey)
    (f : MethodEntry → MethodEntry) :
    (l.updateMethod k f).methods.length = l.methods.length :=
  List.length_modify ..

@[simp] theorem length_structures_updateStructure (l : Ledger) (k : StructureKey)
    (f : StructureEntry → StructureEntry) :
    (l.updateStructure k f).structures.length = l.structures.length :=
  List.length_modify ..

@[simp] theorem length_nodes_updateNode (l : Ledger) (k : NodeKey) (f : Node → Node) :
    (l.updateNode k f).nodes.length = l.nodes.length :=
  List.length_modify ..

theorem updateMethod_eq_self {l : Ledger} {k : MethodKey} {f : MethodEntry → MethodEntry}
    (h : f (l.method k) = l.method k) : l.updateMethod k f = l := by
  rw [updateMethod, modify_eq_self h]

theorem updateStructure_eq_self {l : Ledger} {k : StructureKey}
    {f : StructureEntry → StructureEntry} (h : f (l.structureAt k) = l.structureAt k) :
    l.updateStructure k f = l := by
  rw [updateStructure, modify_eq_self h]

end Update

section Add

theorem method_addMethod (l : Ledger) (e : MethodEntry) (m : MethodKey) :
    (l.addMethod e).2.method m = if m.index = l.methods.length then e else l.method m :=
  getD_concat ..

theorem structureAt_addStructure (l : Ledger) (e : StructureEntry) (s : StructureKey) :
    (l.addStructure e).2.structureAt s =
      if s.index = l.structures.length then e else l.structureAt s :=
  getD_concat ..

theorem record_addRecord (l : Ledger) (e : Record) (r : RecordKey) :
    (l.addRecord e).2.record r = if r.index = l.records.length then e else l.record r :=
  getD_concat ..

theorem node_addNode (l : Ledger) (e : Node) (n : NodeKey) :
    (l.addNode e).2.node n = if n.index = l.nodes.length then e else l.node n :=
  getD_concat ..

end Add

theorem method_of_le {l : Ledger} {m : MethodKey} (h : l.methods.length ≤ m.index) :
    l.method m = {} :=
  List.getD_eq_default _ _ h

theorem structureAt_of_le {l : Ledger} {s : StructureKey} (h : l.structures.length ≤ s.index) :
    l.structureAt s = {} :=
  List.getD_eq_default _ _ h

theorem record_of_le {l : Ledger} {r : RecordKey} (h : l.records.length ≤ r.index) :
    l.record r = {} :=
  List.getD_eq_default _ _ h

theorem node_of_le {l : Ledger} {n : NodeKey} (h : l.nodes.length ≤ n.index) : l.node n = {} :=
  List.getD_eq_default _ _ h

end Ledger

end DependencyAtlas
