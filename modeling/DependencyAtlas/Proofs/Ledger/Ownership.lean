import DependencyAtlas.Proofs.Ledger.Lookup

namespace DependencyAtlas

/-- Something that can have an owner. -/
inductive Item where
  | method (key : MethodKey)
  | structureAt (key : StructureKey)
  deriving DecidableEq, Repr

/-- A method or a structure as the owner of what it lists. -/
def Item.asOwner : Item → Owner
  | .method k => .ofMethod k
  | .structureAt k => .ofStructure k

theorem Item.asOwner_injective {x y : Item} (h : x.asOwner = y.asOwner) : x = y := by
  cases x <;> cases y <;> simp_all [asOwner]

/-- The entry of a method but for its owner. -/
def MethodEntry.loose (e : MethodEntry) : MethodEntry :=
  { e with owner := none }

namespace Ledger

def ownerOf (l : Ledger) : Item → Option Owner
  | .method k => (l.method k).owner
  | .structureAt k => (l.structureAt k).owner

/-- The items that an owner lists. -/
def contents (l : Ledger) : Owner → List Item
  | .ofMethod k => (l.method k).children.map .method
  | .ofStructure k => (l.structureAt k).methods.map .method
  | .ofRecord k => (l.record k).structures.map .structureAt ++ (l.record k).methods.map .method
  | .ofNode k => (l.node k).structures.map .structureAt ++ (l.node k).methods.map .method

/-- An owner that has been entered. -/
def Has (l : Ledger) : Owner → Prop
  | .ofMethod k => k.index < l.methods.length
  | .ofStructure k => k.index < l.structures.length
  | .ofRecord k => k.index < l.records.length
  | .ofNode k => k.index < l.nodes.length

instance (l : Ledger) (o : Owner) : Decidable (l.Has o) :=
  match o with
  | .ofMethod _ | .ofStructure _ | .ofRecord _ | .ofNode _ => inferInstanceAs (Decidable (_ < _))

/-- Every item that an owner lists has that very owner. -/
def Exclusive (l : Ledger) : Prop :=
  ∀ o x, x ∈ l.contents o → l.ownerOf x = some o

variable {l l' : Ledger} {o owner : Owner} {x : Item}

theorem Exclusive.unique (h : l.Exclusive) (hx : x ∈ l.contents o) (hx' : x ∈ l.contents owner) :
    o = owner :=
  Option.some.inj ((h o x hx).symm.trans (h owner x hx'))

theorem has_of_ownerOf (h : l.ownerOf x = some o) : l.Has x.asOwner := by
  by_contra hn
  cases x with
  | method k => simp [ownerOf, method_of_le (Nat.le_of_not_lt hn)] at h
  | structureAt k => simp [ownerOf, structureAt_of_le (Nat.le_of_not_lt hn)] at h

/-- Listing an item that is free, or belongs to the owner already, keeps ownership exclusive. -/
theorem Exclusive.of_adopted (h : l.Exclusive) (item : Item)
    (hfree : l.ownerOf item = none ∨ l.ownerOf item = some owner)
    (hcontents : ∀ o x, x ∈ l'.contents o → x ∈ l.contents o ∨ o = owner ∧ x = item)
    (hself : l'.ownerOf item = some owner) (hother : ∀ x, x ≠ item → l'.ownerOf x = l.ownerOf x) :
    l'.Exclusive := by
  intro o x hx
  by_cases hi : x = item
  · subst x
    rcases hcontents o item hx with hold | ⟨rfl, -⟩
    · have ho := h o item hold
      rcases hfree with hfree | hfree
      · rw [hfree] at ho
        cases ho
      · rw [hself, ← hfree, ho]
    · exact hself
  · rw [hother x hi]
    rcases hcontents o x hx with hold | ⟨-, he⟩
    · exact h o x hold
    · exact (hi he).elim

/-- Freeing items that nobody lists any more keeps ownership exclusive. -/
theorem Exclusive.of_freed (h : l.Exclusive) (gone : Item → Prop)
    (hcontents : ∀ o x, x ∈ l'.contents o → x ∈ l.contents o ∧ ¬gone x)
    (howner : ∀ x, ¬gone x → l'.ownerOf x = l.ownerOf x) : l'.Exclusive := by
  intro o x hx
  obtain ⟨hold, hg⟩ := hcontents o x hx
  rw [howner x hg]
  exact h o x hold

section Entering

theorem contents_addMethod (l : Ledger) (head : MethodHead) (calls references : List Text)
    (o : Owner) :
    (l.addMethod { head, calls, references }).2.contents o = l.contents o := by
  cases o with
  | ofMethod k =>
    simp only [contents, method_addMethod]
    split
    · next h => rw [method_of_le (Nat.le_of_eq h.symm)]
    · rfl
  | _ => rfl

theorem ownerOf_addMethod (l : Ledger) (head : MethodHead) (calls references : List Text)
    (x : Item) :
    (l.addMethod { head, calls, references }).2.ownerOf x = l.ownerOf x := by
  cases x with
  | method k =>
    simp only [ownerOf, method_addMethod]
    split
    · next h => rw [method_of_le (Nat.le_of_eq h.symm)]
    · rfl
  | structureAt k => rfl

theorem contents_addStructure (l : Ledger) (head : StructureHead) (o : Owner) :
    (l.addStructure { head }).2.contents o = l.contents o := by
  cases o with
  | ofStructure k =>
    simp only [contents, structureAt_addStructure]
    split
    · next h => rw [structureAt_of_le (Nat.le_of_eq h.symm)]
    · rfl
  | _ => rfl

theorem ownerOf_addStructure (l : Ledger) (head : StructureHead) (x : Item) :
    (l.addStructure { head }).2.ownerOf x = l.ownerOf x := by
  cases x with
  | method k => rfl
  | structureAt k =>
    simp only [ownerOf, structureAt_addStructure]
    split
    · next h => rw [structureAt_of_le (Nat.le_of_eq h.symm)]
    · rfl

theorem contents_addRecord (l : Ledger) (path : Text) (layer : Layer) (language : Language)
    (target : Option Text) (o : Owner) :
    (l.addRecord { path, layer, language, target }).2.contents o = l.contents o := by
  cases o with
  | ofRecord k =>
    simp only [contents, record_addRecord]
    split
    · next h => rw [record_of_le (Nat.le_of_eq h.symm)]
    · rfl
  | _ => rfl

theorem contents_addNode (l : Ledger) (source : Text) (layer : Layer) (language : Language)
    (target : Option Text) (o : Owner) :
    (l.addNode { source, layer, language, target }).2.contents o = l.contents o := by
  cases o with
  | ofNode k =>
    simp only [contents, node_addNode]
    split
    · next h => rw [node_of_le (Nat.le_of_eq h.symm)]
    · rfl
  | _ => rfl

theorem Exclusive.congr (h : l.Exclusive) (hcontents : ∀ o, l'.contents o = l.contents o)
    (howner : ∀ x, l'.ownerOf x = l.ownerOf x) : l'.Exclusive := by
  intro o x hx
  rw [howner]
  exact h o x (hcontents o ▸ hx)

end Entering

section Adoption

/-- Makes an owner the owner of a method and lists the method there. -/
def grantMethod (l : Ledger) (owner : Owner) (m : MethodKey) : Ledger :=
  (l.updateMethod m fun e => { e with owner := some owner }).listMethod owner m

/-- Makes an owner the owner of a structure and lists the structure there. -/
def grantStructure (l : Ledger) (owner : Owner) (s : StructureKey) : Ledger :=
  (l.updateStructure s fun e => { e with owner := some owner }).listStructure owner s

theorem adoptMethod_eq_ok_iff {m : MethodKey} :
    l.adoptMethod owner m = .ok l' ↔
      ((l.method m).owner = none ∨ (l.method m).owner = some owner) ∧
      l' = l.grantMethod owner m := by
  unfold adoptMethod grantMethod
  cases ho : (l.method m).owner with
  | none => simp [eq_comm]
  | some current =>
    by_cases hc : current = owner
    · subst hc
      have hsame : (l.updateMethod m fun e => { e with owner := some current }) = l :=
        updateMethod_eq_self (by rw [← ho])
      simp [hsame, eq_comm]
    · simp [hc]

theorem adoptStructure_eq_ok_iff {s : StructureKey} :
    l.adoptStructure owner s = .ok l' ↔
      ((l.structureAt s).owner = none ∨ (l.structureAt s).owner = some owner) ∧
      l' = l.grantStructure owner s := by
  unfold adoptStructure grantStructure
  cases ho : (l.structureAt s).owner with
  | none => simp [eq_comm]
  | some current =>
    by_cases hc : current = owner
    · subst hc
      have hsame : (l.updateStructure s fun e => { e with owner := some current }) = l :=
        updateStructure_eq_self (by rw [← ho])
      simp [hsame, eq_comm]
    · simp [hc]

theorem ownerOf_listMethod (l : Ledger) (owner : Owner) (m : MethodKey) (x : Item) :
    (l.listMethod owner m).ownerOf x = l.ownerOf x := by
  cases owner with
  | ofMethod k =>
    cases x with
    | method j => exact method_updateMethod_of MethodEntry.owner (by intro; rfl) ..
    | structureAt s => rfl
  | ofStructure k =>
    cases x with
    | method j => rfl
    | structureAt s => exact structureAt_updateStructure_of StructureEntry.owner (by intro; rfl) ..
  | ofRecord k => cases x <;> rfl
  | ofNode k => cases x <;> rfl

theorem contents_listMethod (l : Ledger) (owner : Owner) (m : MethodKey) (o : Owner) :
    (l.listMethod owner m).contents o =
      if o = owner ∧ l.Has owner then l.contents o ++ [.method m] else l.contents o := by
  cases owner with
  | ofMethod k =>
    cases o with
    | ofMethod j =>
      simp only [listMethod, contents, Has, method_updateMethod, Owner.ofMethod.injEq]
      split <;> simp
    | _ => rfl
  | ofStructure k =>
    cases o with
    | ofStructure j =>
      simp only [listMethod, contents, Has, structureAt_updateStructure, Owner.ofStructure.injEq]
      split <;> simp
    | _ => rfl
  | ofRecord k =>
    cases o with
    | ofRecord j =>
      simp only [listMethod, contents, Has, record_updateRecord, Owner.ofRecord.injEq]
      split <;> simp
    | _ => rfl
  | ofNode k =>
    cases o with
    | ofNode j =>
      simp only [listMethod, contents, Has, node_updateNode, Owner.ofNode.injEq]
      split <;> simp
    | _ => rfl

theorem ownerOf_listStructure (l : Ledger) (owner : Owner) (s : StructureKey) (x : Item) :
    (l.listStructure owner s).ownerOf x = l.ownerOf x := by
  cases owner <;> cases x <;> rfl

theorem mem_contents_listStructure {s : StructureKey}
    (hx : x ∈ (l.listStructure owner s).contents o) :
    x ∈ l.contents o ∨ o = owner ∧ x = .structureAt s := by
  cases owner with
  | ofRecord k =>
    cases o with
    | ofRecord j =>
      simp only [listStructure, contents, record_updateRecord] at hx
      split at hx
      · next h =>
        rw [List.map_append, List.append_assoc, List.mem_append] at hx
        rcases hx with hx | hx
        · exact .inl (List.mem_append_left _ hx)
        · rcases List.mem_append.1 hx with hx | hx
          · exact .inr ⟨by rw [h.1], List.mem_singleton.1 hx⟩
          · exact .inl (List.mem_append_right _ hx)
      · exact .inl hx
    | _ => exact .inl hx
  | ofNode k =>
    cases o with
    | ofNode j =>
      simp only [listStructure, contents, node_updateNode] at hx
      split at hx
      · next h =>
        rw [List.map_append, List.append_assoc, List.mem_append] at hx
        rcases hx with hx | hx
        · exact .inl (List.mem_append_left _ hx)
        · rcases List.mem_append.1 hx with hx | hx
          · exact .inr ⟨by rw [h.1], List.mem_singleton.1 hx⟩
          · exact .inl (List.mem_append_right _ hx)
      · exact .inl hx
    | _ => exact .inl hx
  | _ => exact .inl hx

theorem ownerOf_grantMethod {m : MethodKey} (hm : l.Has (.ofMethod m)) (x : Item) :
    (l.grantMethod owner m).ownerOf x = if x = .method m then some owner else l.ownerOf x := by
  rw [grantMethod, ownerOf_listMethod]
  cases x with
  | method k =>
    simp only [ownerOf, method_updateMethod, Item.method.injEq]
    by_cases hk : k = m
    · rw [if_pos ⟨hk, hm⟩, if_pos hk]
    · rw [if_neg fun h => hk h.1, if_neg hk]
  | structureAt k => rfl

theorem ownerOf_grantStructure {s : StructureKey} (hs : l.Has (.ofStructure s)) (x : Item) :
    (l.grantStructure owner s).ownerOf x =
      if x = .structureAt s then some owner else l.ownerOf x := by
  rw [grantStructure, ownerOf_listStructure]
  cases x with
  | method k => rfl
  | structureAt k =>
    simp only [ownerOf, structureAt_updateStructure, Item.structureAt.injEq]
    by_cases hk : k = s
    · rw [if_pos ⟨hk, hs⟩, if_pos hk]
    · rw [if_neg fun h => hk h.1, if_neg hk]

theorem mem_contents_grantMethod {m : MethodKey} (hx : x ∈ (l.grantMethod owner m).contents o) :
    x ∈ l.contents o ∨ o = owner ∧ x = .method m := by
  have hsame :
      (l.updateMethod m fun e => { e with owner := some owner }).contents o = l.contents o := by
    cases o with
    | ofMethod k =>
      exact congrArg (List.map Item.method) (method_updateMethod_of MethodEntry.children
        (by intro; rfl) ..)
    | _ => rfl
  rw [grantMethod, contents_listMethod, hsame] at hx
  split at hx
  · next h =>
    rcases List.mem_append.1 hx with hx | hx
    · exact .inl hx
    · exact .inr ⟨h.1, List.mem_singleton.1 hx⟩
  · exact .inl hx

theorem mem_contents_grantStructure {s : StructureKey}
    (hx : x ∈ (l.grantStructure owner s).contents o) :
    x ∈ l.contents o ∨ o = owner ∧ x = .structureAt s := by
  have hsame :
      (l.updateStructure s fun e => { e with owner := some owner }).contents o = l.contents o := by
    cases o with
    | ofStructure k =>
      exact congrArg (List.map Item.method) (structureAt_updateStructure_of StructureEntry.methods
        (by intro; rfl) ..)
    | _ => rfl
  rw [← hsame]
  exact mem_contents_listStructure hx

theorem has_grantMethod (l : Ledger) (owner : Owner) (m : MethodKey) (o : Owner) :
    (l.grantMethod owner m).Has o ↔ l.Has o := by
  cases owner <;> cases o <;> simp [grantMethod, listMethod, Has, updateMethod, updateStructure,
    updateRecord, updateNode]

theorem has_grantStructure (l : Ledger) (owner : Owner) (s : StructureKey) (o : Owner) :
    (l.grantStructure owner s).Has o ↔ l.Has o := by
  cases owner <;> cases o <;> simp [grantStructure, listStructure, Has, updateStructure,
    updateRecord, updateNode]

theorem Exclusive.grantMethod {m : MethodKey} (h : l.Exclusive) (hm : l.Has (.ofMethod m))
    (hfree : (l.method m).owner = none ∨ (l.method m).owner = some owner) :
    (l.grantMethod owner m).Exclusive := by
  refine h.of_adopted (.method m) hfree (fun _ _ => mem_contents_grantMethod) ?_ ?_
  · rw [ownerOf_grantMethod hm, if_pos rfl]
  · intro x hx
    rw [ownerOf_grantMethod hm, if_neg hx]

theorem Exclusive.grantStructure {s : StructureKey} (h : l.Exclusive) (hs : l.Has (.ofStructure s))
    (hfree : (l.structureAt s).owner = none ∨ (l.structureAt s).owner = some owner) :
    (l.grantStructure owner s).Exclusive := by
  refine h.of_adopted (.structureAt s) hfree (fun _ _ => mem_contents_grantStructure) ?_ ?_
  · rw [ownerOf_grantStructure hs, if_pos rfl]
  · intro x hx
    rw [ownerOf_grantStructure hs, if_neg hx]

/-- What each adoption of a method keeps, several adoptions keep, also when one of them is
refused. -/
theorem adoptMethods_preserves {P : Ledger → Prop} {ms : List MethodKey}
    (hstep : ∀ l, ∀ m ∈ ms, ((l.method m).owner = none ∨ (l.method m).owner = some owner) → P l →
      P (l.grantMethod owner m)) (h : P l) : P (adoptMethods owner ms l).2 := by
  induction ms generalizing l with
  | nil => exact h
  | cons m ms ih =>
    rw [adoptMethods]
    cases hm : l.adoptMethod owner m with
    | error fault => exact h
    | ok l' =>
      obtain ⟨hfree, rfl⟩ := adoptMethod_eq_ok_iff.1 hm
      exact ih (fun l m hm => hstep l m (List.mem_cons_of_mem _ hm))
        (hstep l m List.mem_cons_self hfree h)

theorem adoptStructures_preserves {P : Ledger → Prop} {ss : List StructureKey}
    (hstep : ∀ l, ∀ s ∈ ss, ((l.structureAt s).owner = none ∨
      (l.structureAt s).owner = some owner) → P l →
      P (l.grantStructure owner s)) (h : P l) : P (adoptStructures owner ss l).2 := by
  induction ss generalizing l with
  | nil => exact h
  | cons s ss ih =>
    rw [adoptStructures]
    cases hs : l.adoptStructure owner s with
    | error fault => exact h
    | ok l' =>
      obtain ⟨hfree, rfl⟩ := adoptStructure_eq_ok_iff.1 hs
      exact ih (fun l s hs => hstep l s (List.mem_cons_of_mem _ hs))
        (hstep l s List.mem_cons_self hfree h)

theorem has_adoptStructures (l : Ledger) (owner : Owner) (ss : List StructureKey) (o : Owner) :
    (adoptStructures owner ss l).2.Has o ↔ l.Has o :=
  adoptStructures_preserves (P := fun l' => l'.Has o ↔ l.Has o)
    (fun l' s _ _ h => (has_grantStructure l' owner s o).trans h) .rfl

theorem Exclusive.adoptMethods {ms : List MethodKey} (h : l.Exclusive) (owner : Owner)
    (hms : ∀ m ∈ ms, l.Has (.ofMethod m)) : (Ledger.adoptMethods owner ms l).2.Exclusive := by
  have hkeep : (Ledger.adoptMethods owner ms l).2.Exclusive ∧
      ∀ m ∈ ms, (Ledger.adoptMethods owner ms l).2.Has (.ofMethod m) := by
    apply adoptMethods_preserves (P := fun l => l.Exclusive ∧ ∀ m ∈ ms, l.Has (.ofMethod m))
    · intro l m hm hfree hl
      exact ⟨hl.1.grantMethod (hl.2 m hm) hfree, fun k hk => (has_grantMethod ..).2 (hl.2 k hk)⟩
    · exact ⟨h, hms⟩
  exact hkeep.1

theorem Exclusive.adoptStructures {ss : List StructureKey} (h : l.Exclusive) (owner : Owner)
    (hss : ∀ s ∈ ss, l.Has (.ofStructure s)) : (Ledger.adoptStructures owner ss l).2.Exclusive := by
  have hkeep : (Ledger.adoptStructures owner ss l).2.Exclusive ∧
      ∀ s ∈ ss, (Ledger.adoptStructures owner ss l).2.Has (.ofStructure s) := by
    apply adoptStructures_preserves (P := fun l => l.Exclusive ∧ ∀ s ∈ ss, l.Has (.ofStructure s))
    · intro l s hs hfree hl
      exact ⟨hl.1.grantStructure (hl.2 s hs) hfree,
        fun k hk => (has_grantStructure ..).2 (hl.2 k hk)⟩
    · exact ⟨h, hss⟩
  exact hkeep.1

theorem adoptMethods_eq_foldl {ms : List MethodKey} (owner : Owner)
    (hfree : ∀ m ∈ ms, (l.method m).owner = none ∨ (l.method m).owner = some owner) :
    adoptMethods owner ms l = (none, ms.foldl (fun l m => l.grantMethod owner m) l) := by
  induction ms generalizing l with
  | nil => rfl
  | cons m ms ih =>
    have hm : l.adoptMethod owner m = .ok (l.grantMethod owner m) :=
      adoptMethod_eq_ok_iff.2 ⟨hfree m List.mem_cons_self, rfl⟩
    rw [adoptMethods, hm, List.foldl_cons]
    apply ih
    intro k hk
    have hgrant : (l.grantMethod owner m).ownerOf (.method k) =
        ((l.updateMethod m fun e => { e with owner := some owner }).method k).owner :=
          ownerOf_listMethod ..
    rw [ownerOf, method_updateMethod] at hgrant
    rw [hgrant]
    split
    · exact .inr rfl
    · exact hfree k (List.mem_cons_of_mem _ hk)

theorem adoptStructures_eq_foldl {ss : List StructureKey} (owner : Owner)
    (hfree : ∀ s ∈ ss, (l.structureAt s).owner = none ∨ (l.structureAt s).owner = some owner) :
    adoptStructures owner ss l = (none, ss.foldl (fun l s => l.grantStructure owner s) l) := by
  induction ss generalizing l with
  | nil => rfl
  | cons s ss ih =>
    have hs : l.adoptStructure owner s = .ok (l.grantStructure owner s) :=
      adoptStructure_eq_ok_iff.2 ⟨hfree s List.mem_cons_self, rfl⟩
    rw [adoptStructures, hs, List.foldl_cons]
    apply ih
    intro k hk
    have hgrant : (l.grantStructure owner s).ownerOf (.structureAt k) =
        ((l.updateStructure s fun e => { e with owner := some owner }).structureAt k).owner :=
          ownerOf_listStructure ..
    rw [ownerOf, structureAt_updateStructure] at hgrant
    rw [hgrant]
    split
    · exact .inr rfl
    · exact hfree k (List.mem_cons_of_mem _ hk)

theorem method_foldl_grantMethod (howner : ∀ j, owner ≠ .ofMethod j) (ms : List MethodKey)
    (l : Ledger) (m : MethodKey) :
    ((ms.foldl (fun l m => l.grantMethod owner m) l).method m).loose = (l.method m).loose := by
  refine foldl_keeps (fun l : Ledger => (l.method m).loose) ?_ ms l
  intro l k
  have hlist : (l.grantMethod owner k).methods =
      (l.updateMethod k fun e => { e with owner := some owner }).methods := by
    cases owner with
    | ofMethod j => exact (howner j rfl).elim
    | _ => rfl
  rw [method, hlist, ← method]
  exact method_updateMethod_of MethodEntry.loose (by intro; rfl) ..

theorem length_methods_foldl_grantMethod (owner : Owner) (ms : List MethodKey) (l : Ledger) :
    (ms.foldl (fun l m => l.grantMethod owner m) l).methods.length = l.methods.length := by
  refine foldl_keeps (fun l : Ledger => l.methods.length) ?_ ms l
  intro l k
  cases owner <;> simp [grantMethod, listMethod, updateMethod, updateStructure, updateRecord,
    updateNode]

theorem records_foldl_grantMethod (k : RecordKey) (ms : List MethodKey) (l : Ledger) :
    (ms.foldl (fun l m => l.grantMethod (.ofRecord k) m) l).records =
      l.records.modify k.index fun r => { r with methods := r.methods ++ ms } :=
  foldl_modify records (fun ms r => { r with methods := r.methods ++ ms }) (by simp) (by simp)
    (fun _ _ => rfl) ms l

end Adoption

section Taking

theorem method_freed (l : Ledger) (k m : MethodKey) :
    (l.updateMethod k fun e => { e with owner := none }).method m =
      if m = k then { l.method m with owner := none } else l.method m := by
  rw [method_updateMethod]
  by_cases hk : k.index < l.methods.length
  · simp only [hk, and_true]
  · simp only [hk, and_false, if_false]
    split
    · next hm => rw [hm, method_of_le (Nat.le_of_not_lt hk)]
    · rfl

/-- Freeing methods changes nothing but their owners. -/
theorem method_disownMethods (l : Ledger) (ms : List MethodKey) (m : MethodKey) :
    (l.disownMethods ms).method m = if m ∈ ms then { l.method m with owner := none }
      else l.method m := by
  induction ms generalizing l with
  | nil => rfl
  | cons k ms ih =>
    refine (ih _).trans ?_
    rw [method_freed]
    by_cases hk : m = k
    · rw [if_pos hk, if_pos (List.mem_cons.2 (.inl hk))]
      exact ite_self _
    · simp only [hk, if_false, List.mem_cons, false_or]

theorem structureAt_freed (l : Ledger) (k s : StructureKey) :
    (l.updateStructure k fun e => { e with owner := none }).structureAt s =
      if s = k then { l.structureAt s with owner := none } else l.structureAt s := by
  rw [structureAt_updateStructure]
  by_cases hk : k.index < l.structures.length
  · simp only [hk, and_true]
  · simp only [hk, and_false, if_false]
    split
    · next hs => rw [hs, structureAt_of_le (Nat.le_of_not_lt hk)]
    · rfl

theorem structureAt_disownStructures (l : Ledger) (ss : List StructureKey) (s : StructureKey) :
    (l.disownStructures ss).structureAt s =
      if s ∈ ss then { l.structureAt s with owner := none } else l.structureAt s := by
  induction ss generalizing l with
  | nil => rfl
  | cons k ss ih =>
    refine (ih _).trans ?_
    rw [structureAt_freed]
    by_cases hk : s = k
    · rw [if_pos hk, if_pos (List.mem_cons.2 (.inl hk))]
      exact ite_self _
    · simp only [hk, if_false, List.mem_cons, false_or]

theorem disownMethods_eq (l : Ledger) (ms : List MethodKey) :
    l.disownMethods ms = { l with methods := (l.disownMethods ms).methods } := by
  induction ms generalizing l with
  | nil => rfl
  | cons k ms ih => exact ih _

theorem disownStructures_eq (l : Ledger) (ss : List StructureKey) :
    l.disownStructures ss = { l with structures := (l.disownStructures ss).structures } := by
  induction ss generalizing l with
  | nil => rfl
  | cons k ss ih => exact ih _

theorem length_methods_disownMethods (l : Ledger) (ms : List MethodKey) :
    (l.disownMethods ms).methods.length = l.methods.length := by
  induction ms generalizing l with
  | nil => rfl
  | cons k ms ih => exact (ih _).trans (length_methods_updateMethod ..)

theorem contents_disownMethods (l : Ledger) (ms : List MethodKey) (o : Owner) :
    (l.disownMethods ms).contents o = l.contents o := by
  cases o with
  | ofMethod k =>
    simp only [contents, method_disownMethods]
    split <;> rfl
  | _ =>
    rw [disownMethods_eq]
    rfl

theorem contents_disownStructures (l : Ledger) (ss : List StructureKey) (o : Owner) :
    (l.disownStructures ss).contents o = l.contents o := by
  cases o with
  | ofStructure k =>
    simp only [contents, structureAt_disownStructures]
    split <;> rfl
  | _ =>
    rw [disownStructures_eq]
    rfl

theorem has_disownMethods (l : Ledger) (ms : List MethodKey) (o : Owner) :
    (l.disownMethods ms).Has o ↔ l.Has o := by
  induction ms generalizing l with
  | nil => rfl
  | cons k ms ih =>
    refine (ih _).trans ?_
    cases o <;> simp [Has, updateMethod]

theorem has_disownStructures (l : Ledger) (ss : List StructureKey) (o : Owner) :
    (l.disownStructures ss).Has o ↔ l.Has o := by
  induction ss generalizing l with
  | nil => rfl
  | cons k ss ih =>
    refine (ih _).trans ?_
    cases o <;> simp [Has, updateStructure]

theorem takeStructures_eq_ok_iff {k : RecordKey} {taken : List StructureKey} :
    l.takeStructures k = .ok (taken, l') ↔
      (l.record k).consumed = false ∧ taken = (l.record k).structures ∧
        l' =
          (l.updateRecord k fun r => { r with structures := [], consumed := true }).disownStructures
            taken := by
  unfold takeStructures recordStructures
  cases (l.record k).consumed with
  | true => simp [bind, Except.bind]
  | false =>
    simp only [bind, Except.bind, pure, Except.pure, Bool.false_eq_true, if_false, Except.ok.injEq,
      Prod.mk.injEq, true_and]
    constructor
    · rintro ⟨rfl, rfl⟩
      exact ⟨rfl, rfl⟩
    · rintro ⟨rfl, rfl⟩
      exact ⟨rfl, rfl⟩

theorem takeMethods_eq_ok_iff {k : RecordKey} {taken : List MethodKey} :
    l.takeMethods k = .ok (taken, l') ↔
      (l.record k).consumed = false ∧ taken = (l.record k).methods ∧
        l' = (l.updateRecord k fun r => { r with methods := [], consumed := true }).disownMethods
          taken := by
  unfold takeMethods recordMethods
  cases (l.record k).consumed with
  | true => simp [bind, Except.bind]
  | false =>
    simp only [bind, Except.bind, pure, Except.pure, Bool.false_eq_true, if_false, Except.ok.injEq,
      Prod.mk.injEq, true_and]
    constructor
    · rintro ⟨rfl, rfl⟩
      exact ⟨rfl, rfl⟩
    · rintro ⟨rfl, rfl⟩
      exact ⟨rfl, rfl⟩

theorem consume_eq_ok_iff {k : RecordKey} :
    l.consume k = .ok l' ↔
      (l.record k).consumed = false ∧ l' = l.updateRecord k fun r =>
        { r with consumed := true } := by
  unfold consume
  cases (l.record k).consumed <;> simp [eq_comm]

theorem Exclusive.takeStructures {k : RecordKey} {taken : List StructureKey} (h : l.Exclusive)
    (ht : l.takeStructures k = .ok (taken, l')) : l'.Exclusive := by
  obtain ⟨-, rfl, rfl⟩ := takeStructures_eq_ok_iff.1 ht
  apply h.of_freed fun x => ∃ s ∈ (l.record k).structures, x = .structureAt s
  · intro o x hx
    rw [contents_disownStructures] at hx
    have hold : x ∈ l.contents o ∧ (o = .ofRecord k → ∀ s, x ≠ .structureAt s) := by
      cases o with
      | ofRecord j =>
        simp only [contents, record_updateRecord] at hx
        split at hx
        · next hj =>
          obtain ⟨m, hm, rfl⟩ := List.mem_map.1 hx
          exact ⟨List.mem_append_right _ hx, fun _ s => by simp⟩
        · next hj =>
          refine ⟨hx, ?_⟩
          rintro ⟨rfl⟩ s rfl
          simp [record_of_le (Nat.le_of_not_lt fun hk => hj ⟨rfl, hk⟩)] at hx
      | _ => exact ⟨hx, by simp⟩
    refine ⟨hold.1, ?_⟩
    rintro ⟨s, hs, rfl⟩
    have hk : Item.structureAt s ∈ l.contents (.ofRecord k) :=
      List.mem_append_left _ (List.mem_map_of_mem hs)
    exact hold.2 (h.unique hold.1 hk) s rfl
  · intro x hx
    cases x with
    | method m =>
      rw [disownStructures_eq]
      rfl
    | structureAt s =>
      have hs : s ∉ (l.record k).structures := fun hs => hx ⟨s, hs, rfl⟩
      simp only [ownerOf, structureAt_disownStructures, if_neg hs]
      rfl

theorem Exclusive.takeMethods {k : RecordKey} {taken : List MethodKey} (h : l.Exclusive)
    (ht : l.takeMethods k = .ok (taken, l')) : l'.Exclusive := by
  obtain ⟨-, rfl, rfl⟩ := takeMethods_eq_ok_iff.1 ht
  apply h.of_freed fun x => ∃ m ∈ (l.record k).methods, x = .method m
  · intro o x hx
    rw [contents_disownMethods] at hx
    have hold : x ∈ l.contents o ∧ (o = .ofRecord k → ∀ m, x ≠ .method m) := by
      cases o with
      | ofRecord j =>
        simp only [contents, record_updateRecord] at hx
        split at hx
        · next hj =>
          rw [List.map_nil, List.append_nil] at hx
          obtain ⟨s, hs, rfl⟩ := List.mem_map.1 hx
          exact ⟨List.mem_append_left _ hx, fun _ m => by simp⟩
        · next hj =>
          refine ⟨hx, ?_⟩
          rintro ⟨rfl⟩ m rfl
          simp [record_of_le (Nat.le_of_not_lt fun hk => hj ⟨rfl, hk⟩)] at hx
      | _ => exact ⟨hx, by simp⟩
    refine ⟨hold.1, ?_⟩
    rintro ⟨m, hm, rfl⟩
    have hk : Item.method m ∈ l.contents (.ofRecord k) :=
      List.mem_append_right _ (List.mem_map_of_mem hm)
    exact hold.2 (h.unique hold.1 hk) m rfl
  · intro x hx
    cases x with
    | method m =>
      have hm : m ∉ (l.record k).methods := fun hm => hx ⟨m, hm, rfl⟩
      simp only [ownerOf, method_disownMethods, if_neg hm]
      rfl
    | structureAt s =>
      rw [disownMethods_eq]
      rfl

theorem contents_updateRecord_consumed (l : Ledger) (k : RecordKey) (o : Owner) :
    (l.updateRecord k fun r => { r with consumed := true }).contents o = l.contents o := by
  cases o with
  | ofRecord j =>
    simp only [contents, record_updateRecord]
    split <;> rfl
  | _ => rfl

theorem Exclusive.consume {k : RecordKey} (h : l.Exclusive) (hl : l.consume k = .ok l') :
    l'.Exclusive := by
  obtain ⟨-, rfl⟩ := consume_eq_ok_iff.1 hl
  exact h.congr (contents_updateRecord_consumed l k) fun x => by cases x <;> rfl

/-- Opening a record keeps ownership exclusive also when it fails half-way. -/
theorem Exclusive.openRecord {path : Text} {layer : Layer} {language : Language}
    {target : Option Text} {ss : List StructureKey} {ms : List MethodKey} (h : l.Exclusive)
    (hss : ∀ s ∈ ss, l.Has (.ofStructure s)) (hms : ∀ m ∈ ms, l.Has (.ofMethod m)) :
    (l.openRecord path layer language target ss ms).2.Exclusive := by
  unfold Ledger.openRecord
  have hadd : (l.addRecord { path, layer, language, target }).2.Exclusive :=
    h.congr (contents_addRecord l path layer language target) fun x => by cases x <;> rfl
  generalize hr : l.addRecord { path, layer, language, target } = r at hadd
  obtain ⟨k, l₀⟩ := r
  have hl₀ : ∀ x : Item, l₀.Has x.asOwner ↔ l.Has x.asOwner := by
    intro x
    rw [addRecord, Prod.mk.injEq] at hr
    rw [← hr.2]
    cases x <;> rfl
  have hstructures :=
    hadd.adoptStructures (.ofRecord k) fun s hs => (hl₀ (.structureAt s)).2 (hss s hs)
  have hhas :=
    fun m hm =>
      (has_adoptStructures l₀ (.ofRecord k) ss (.ofMethod m)).2 ((hl₀ (.method m)).2 (hms m hm))
  have hmethods := hstructures.adoptMethods (.ofRecord k) hhas
  simp only
  split
  · next he => rwa [he] at hstructures
  · next l₁ he =>
    rw [he] at hmethods
    split
    · next he' => rwa [he'] at hmethods
    · next he' => rwa [he'] at hmethods

end Taking

end Ledger

end DependencyAtlas
