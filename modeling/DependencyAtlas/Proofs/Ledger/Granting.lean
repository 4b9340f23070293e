import DependencyAtlas.Proofs.Ledger.Ownership
import Mathlib.Data.List.Perm.Basic
import Mathlib.Data.List.TakeWhile

namespace DependencyAtlas

/-- Whether an owner can list an item. Only records and nodes hold structures. -/
def Owner.Holds : Owner → Item → Prop
  | .ofMethod _, .structureAt _ => False
  | .ofStructure _, .structureAt _ => False
  | _, _ => True

namespace Ledger

variable {l : Ledger} {o owner : Owner} {x y : Item} {xs ys : List Item}

/-- Makes an owner the owner of an item and lists the item there. -/
def grant (l : Ledger) (owner : Owner) : Item → Ledger
  | .method m => l.grantMethod owner m
  | .structureAt s => l.grantStructure owner s

/-- An item that nobody but the owner has. -/
def Free (l : Ledger) (owner : Owner) (x : Item) : Prop :=
  l.ownerOf x = none ∨ l.ownerOf x = some owner

instance (l : Ledger) (owner : Owner) (x : Item) : Decidable (l.Free owner x) :=
  inferInstanceAs (Decidable (_ ∨ _))

/-- The items of a list that an owner gets when it adopts them. -/
def gains (l : Ledger) (owner : Owner) (xs : List Item) : List Item :=
  xs.takeWhile fun x => l.Free owner x

section One

theorem has_grant (l : Ledger) (owner : Owner) (x : Item) (o : Owner) :
    (l.grant owner x).Has o ↔ l.Has o := by
  cases x with
  | method m => exact has_grantMethod l owner m o
  | structureAt s => exact has_grantStructure l owner s o

theorem ownerOf_grant (l : Ledger) (owner : Owner) (x y : Item) :
    (l.grant owner x).ownerOf y = if y = x ∧ l.Has x.asOwner then some owner else l.ownerOf y := by
  by_cases hx : l.Has x.asOwner
  · simp only [hx, and_true]
    cases x with
    | method m => exact ownerOf_grantMethod hx y
    | structureAt s => exact ownerOf_grantStructure hx y
  · simp only [hx, and_false, if_false]
    cases x with
    | method m =>
      rw [grant, grantMethod, ownerOf_listMethod]
      cases y with
      | method k => rw [ownerOf, method_updateMethod, if_neg fun h => hx h.2, ownerOf]
      | structureAt k => rfl
    | structureAt s =>
      rw [grant, grantStructure, ownerOf_listStructure]
      cases y with
      | method k => rfl
      | structureAt k => rw [ownerOf, structureAt_updateStructure, if_neg fun h => hx h.2, ownerOf]

theorem contents_grantMethod (l : Ledger) (owner : Owner) (m : MethodKey) (o : Owner) :
    (l.grantMethod owner m).contents o =
      if o = owner ∧ l.Has owner then l.contents o ++ [.method m] else l.contents o := by
  have hsame :
      (l.updateMethod m fun e => { e with owner := some owner }).contents o = l.contents o := by
    cases o with
    | ofMethod k =>
      exact congrArg (List.map Item.method) (method_updateMethod_of MethodEntry.children
        (by intro; rfl) ..)
    | _ => rfl
  have hhas : (l.updateMethod m fun e => { e with owner := some owner }).Has owner ↔
      l.Has owner := by
    cases owner <;> simp [Has, updateMethod]
  rw [grantMethod, contents_listMethod, hsame]
  simp only [hhas]

theorem contents_updateStructure_owner (l : Ledger) (s : StructureKey) (owner : Option Owner)
    (o : Owner) :
    (l.updateStructure s fun e => { e with owner }).contents o = l.contents o := by
  cases o with
  | ofStructure k =>
    exact congrArg (List.map Item.method) (structureAt_updateStructure_of StructureEntry.methods
      (by intro; rfl) ..)
  | _ => rfl

theorem contents_grantStructure_of_ne {s : StructureKey} (h : o ≠ owner) :
    (l.grantStructure owner s).contents o = l.contents o := by
  rw [grantStructure, ← contents_updateStructure_owner l s (some owner) o]
  cases owner with
  | ofRecord k =>
    cases o with
    | ofRecord j =>
      have hj : j ≠ k := fun he => h (congrArg Owner.ofRecord he)
      simp only [listStructure, contents, record_updateRecord, if_neg fun he : j = k ∧ _ => hj he.1]
    | _ => rfl
  | ofNode k =>
    cases o with
    | ofNode j =>
      have hj : j ≠ k := fun he => h (congrArg Owner.ofNode he)
      simp only [listStructure, contents, node_updateNode, if_neg fun he : j = k ∧ _ => hj he.1]
    | _ => rfl
  | _ => rfl

theorem contents_listStructure_perm {s : StructureKey} (hs : owner.Holds (.structureAt s))
    (ho : l.Has owner) :
    ((l.listStructure owner s).contents owner).Perm (.structureAt s :: l.contents owner) := by
  cases owner with
  | ofRecord k =>
    have hk : (l.listStructure (.ofRecord k) s).record k =
        { l.record k with structures := (l.record k).structures ++ [s] } :=
      (record_updateRecord ..).trans (if_pos ⟨rfl, ho⟩)
    rw [contents, hk, List.map_append, List.append_assoc]
    exact List.perm_middle
  | ofNode k =>
    have hk : (l.listStructure (.ofNode k) s).node k =
        { l.node k with structures := (l.node k).structures ++ [s] } :=
      (node_updateNode ..).trans (if_pos ⟨rfl, ho⟩)
    rw [contents, hk, List.map_append, List.append_assoc]
    exact List.perm_middle
  | ofMethod k => exact hs.elim
  | ofStructure k => exact hs.elim

theorem contents_grantStructure_perm {s : StructureKey} (hs : owner.Holds (.structureAt s))
    (ho : l.Has owner) :
    ((l.grantStructure owner s).contents owner).Perm (.structureAt s :: l.contents owner) := by
  rw [grantStructure, ← contents_updateStructure_owner l s (some owner) owner]
  apply contents_listStructure_perm hs
  cases owner with
  | ofRecord k => exact ho
  | ofNode k => exact ho
  | ofMethod k => exact hs.elim
  | ofStructure k => exact hs.elim

theorem contents_grant_of_ne (h : o ≠ owner) : (l.grant owner x).contents o = l.contents o := by
  cases x with
  | method m => rw [grant, contents_grantMethod, if_neg fun he => h he.1]
  | structureAt s => exact contents_grantStructure_of_ne h

theorem contents_grant_perm (hx : owner.Holds x) (ho : l.Has owner) :
    ((l.grant owner x).contents owner).Perm (x :: l.contents owner) := by
  cases x with
  | method m =>
    rw [grant, contents_grantMethod, if_pos ⟨rfl, ho⟩]
    exact List.perm_append_singleton ..
  | structureAt s => exact contents_grantStructure_perm hx ho

theorem free_grant (hx : l.Free owner x) : (l.grant owner x).Free owner y ↔ l.Free owner y := by
  rw [Free, Free, ownerOf_grant]
  split
  · next h => exact iff_of_true (.inr rfl) (h.1 ▸ hx)
  · rfl

theorem gains_grant (hx : l.Free owner x) :
    (l.grant owner x).gains owner xs = l.gains owner xs := by
  simp only [gains, free_grant hx]

end One

section Several

theorem contents_foldl_grant_of_ne (h : o ≠ owner) (xs : List Item) (l : Ledger) :
    (xs.foldl (fun l x => l.grant owner x) l).contents o = l.contents o :=
  foldl_keeps (f := fun l x => l.grant owner x) (·.contents o)
    (fun _ _ => contents_grant_of_ne h) xs l

theorem contents_foldl_grant_perm (hxs : ∀ x ∈ xs, owner.Holds x) (ho : l.Has owner) :
    ((xs.foldl (fun l x => l.grant owner x) l).contents owner).Perm (xs ++ l.contents owner) := by
  induction xs generalizing l with
  | nil => exact .refl _
  | cons x xs ih =>
    have hrest :=
      ih (fun y hy => hxs y (List.mem_cons_of_mem _ hy)) ((has_grant l owner x owner).2 ho)
    apply hrest.trans
    have hfirst := contents_grant_perm (hxs x List.mem_cons_self) ho
    exact (hfirst.append_left xs).trans List.perm_middle

theorem ownerOf_foldl_grant (hxs : ∀ x ∈ xs, l.Has x.asOwner) (y : Item) :
    (xs.foldl (fun l x => l.grant owner x) l).ownerOf y =
      if y ∈ xs then some owner else l.ownerOf y := by
  induction xs generalizing l with
  | nil => rfl
  | cons x xs ih =>
    have hknown : ∀ z ∈ xs, (l.grant owner x).Has z.asOwner := by
      intro z hz
      exact (has_grant ..).2 (hxs z (List.mem_cons_of_mem _ hz))
    rw [List.foldl_cons, ih hknown, ownerOf_grant]
    by_cases hy : y = x
    · simp [hy, hxs x List.mem_cons_self]
    · simp [hy]

theorem gains_foldl_grant (hxs : ∀ x ∈ xs, l.Free owner x) (ys : List Item) :
    (xs.foldl (fun l x => l.grant owner x) l).gains owner ys = l.gains owner ys := by
  induction xs generalizing l with
  | nil => rfl
  | cons x xs ih =>
    have hx := hxs x List.mem_cons_self
    have hrest : ∀ y ∈ xs, (l.grant owner x).Free owner y := by
      intro y hy
      exact (free_grant hx).2 (hxs y (List.mem_cons_of_mem _ hy))
    rw [List.foldl_cons, ih hrest, gains_grant hx]

theorem gains_congr {l' : Ledger} (h : ∀ x, l'.ownerOf x = l.ownerOf x) :
    l'.gains owner xs = l.gains owner xs := by
  have hfree : ∀ x, l'.Free owner x ↔ l.Free owner x := by
    intro x
    rw [Free, Free, h]
  simp only [gains, hfree]

theorem gains_eq_self (h : ∀ x ∈ xs, l.Free owner x) : l.gains owner xs = xs := by
  apply List.takeWhile_eq_self_iff.2
  intro x hx
  exact decide_eq_true (h x hx)

end Several

section Adopting

theorem adoptAll_spec {κ : Type} (item : κ → Item) {adopt : Ledger → κ → Except LedgerFault Ledger}
    {adoptAll : List κ → Ledger → Option LedgerFault × Ledger}
    (hnil : ∀ l, adoptAll [] l = (none, l))
    (hcons : ∀ k ks l, adoptAll (k :: ks) l =
      match adopt l k with
      | .error fault => (some fault, l)
      | .ok l => adoptAll ks l)
    (hok : ∀ l l' k, adopt l k = .ok l' ↔ l.Free owner (item k) ∧ l' = l.grant owner (item k))
    (ks : List κ) (l : Ledger) :
    (adoptAll ks l).2 = (l.gains owner (ks.map item)).foldl (fun l x => l.grant owner x) l ∧
      ((adoptAll ks l).1 = none ↔ ∀ k ∈ ks, l.Free owner (item k)) := by
  induction ks generalizing l with
  | nil => simp [hnil, gains]
  | cons k ks ih =>
    rw [hcons, List.map_cons, gains, List.takeWhile_cons, List.forall_mem_cons]
    cases hk : adopt l k with
    | error fault =>
      have hno : ¬l.Free owner (item k) := by
        intro hfree
        cases hk.symm.trans ((hok l _ k).2 ⟨hfree, rfl⟩)
      rw [if_neg (by simpa using hno)]
      exact ⟨rfl, iff_of_false (by simp) fun h => hno h.1⟩
    | ok l' =>
      obtain ⟨hfree, rfl⟩ := (hok l l' k).1 hk
      obtain ⟨hsnd, hfst⟩ := ih (l.grant owner (item k))
      rw [if_pos (by simpa using hfree), List.foldl_cons, ← gains,
        ← gains_grant hfree, and_iff_right hfree]
      refine ⟨hsnd, hfst.trans ?_⟩
      exact forall₂_congr fun j _ => free_grant hfree

theorem adoptMethods_spec (owner : Owner) (ms : List MethodKey) (l : Ledger) :
    (adoptMethods owner ms l).2 =
      (l.gains owner (ms.map .method)).foldl (fun l x => l.grant owner x) l ∧
      ((adoptMethods owner ms l).1 = none ↔ ∀ m ∈ ms, l.Free owner (.method m)) :=
  adoptAll_spec Item.method (fun _ => rfl) (fun _ _ _ => rfl)
    (fun _ _ _ => adoptMethod_eq_ok_iff) ms l

theorem adoptStructures_spec (owner : Owner) (ss : List StructureKey) (l : Ledger) :
    (adoptStructures owner ss l).2 =
      (l.gains owner (ss.map .structureAt)).foldl (fun l x => l.grant owner x) l ∧
      ((adoptStructures owner ss l).1 = none ↔ ∀ s ∈ ss, l.Free owner (.structureAt s)) :=
  adoptAll_spec Item.structureAt (fun _ => rfl) (fun _ _ _ => rfl)
    (fun _ _ _ => adoptStructure_eq_ok_iff) ss l

/-- A record that is opened, with success or not, gets the items before the first one that has an
owner. -/
theorem openRecord_snd (l : Ledger) (path : Text) (layer : Layer) (language : Language)
    (target : Option Text) (ss : List StructureKey) (ms : List MethodKey) :
    (l.openRecord path layer language target ss ms).2 =
      (l.gains (.ofRecord ⟨l.records.length⟩) (ss.map .structureAt ++ ms.map .method)).foldl
        (fun l' x => l'.grant (.ofRecord ⟨l.records.length⟩) x)
        (l.addRecord { path, layer, language, target }).2 := by
  have howner : ∀ x, l.ownerOf x = (l.addRecord { path, layer, language, target }).2.ownerOf x := by
    intro x
    cases x <;> rfl
  rw [gains_congr howner]
  unfold openRecord
  have hkey : (l.addRecord { path, layer, language, target }).1 = ⟨l.records.length⟩ := rfl
  generalize l.addRecord { path, layer, language, target } = p at hkey ⊢
  obtain ⟨k, l₀⟩ := p
  obtain rfl : k = ⟨l.records.length⟩ := hkey
  generalize (⟨l.records.length⟩ : RecordKey) = k
  obtain ⟨hsnd, hfst⟩ := adoptStructures_spec (.ofRecord k) ss l₀
  simp only
  cases hs : adoptStructures (.ofRecord k) ss l₀ with
  | mk fault l₁ =>
    rw [hs] at hsnd hfst
    cases fault with
    | some fault =>
      have hcut : l₀.gains (.ofRecord k) (ss.map .structureAt ++ ms.map .method) =
          l₀.gains (.ofRecord k) (ss.map .structureAt) := by
        rw [gains, gains, List.takeWhile_append, if_neg]
        intro hlen
        have hall := List.takeWhile_eq_self_iff.1 ((List.takeWhile_prefix _).eq_of_length hlen)
        have hfree : ∀ s ∈ ss, l₀.Free (.ofRecord k) (.structureAt s) := by
          intro s hs
          exact of_decide_eq_true (hall _ (List.mem_map_of_mem hs))
        cases hfst.2 hfree
      rw [hcut]
      exact hsnd
    | none =>
      have hfree : ∀ x ∈ ss.map Item.structureAt, l₀.Free (.ofRecord k) x := by
        intro x hx
        obtain ⟨s, hs, rfl⟩ := List.mem_map.1 hx
        exact hfst.1 rfl s hs
      rw [gains_eq_self hfree] at hsnd
      have hmethods := (adoptMethods_spec (.ofRecord k) ms l₁).1
      have hboth : l₀.gains (.ofRecord k) (ss.map .structureAt ++ ms.map .method) =
          ss.map .structureAt ++ l₀.gains (.ofRecord k) (ms.map .method) :=
        List.takeWhile_append_of_pos fun x hx => decide_eq_true (hfree x hx)
      obtain rfl : l₁ = _ := hsnd
      rw [gains_foldl_grant hfree, ← List.foldl_append, ← hboth] at hmethods
      rw [← hmethods]
      simp only
      split
      · next he => rw [he]
      · next he => rw [he]

end Adopting

end Ledger

end DependencyAtlas
