import DependencyAtlas.Proofs.Graph.Teardown
import DependencyAtlas.Proofs.Graph.Transfer

namespace DependencyAtlas

open Ledger

theorem Owner.holds_method (owner : Owner) (m : MethodKey) : owner.Holds (.method m) := by
  cases owner <;> trivial

namespace Ledger

def Unrepeated (l : Ledger) : Prop :=
  ∀ o, (l.contents o).Nodup

variable {l l' : Ledger} {owner : Owner} {xs : List Item} {p q : List Nat} {x : Item}
  {k : RecordKey}

section Trails

/-- Where ownership is exclusive and nothing is listed twice, one trail at most leads from items of
top owners to an item. -/
theorem Exclusive.trail_unique (h : l.Exclusive) (hu : l.Unrepeated) (hxs : xs.Nodup)
    (htop : ∀ x ∈ xs, ∃ o, IsTop o ∧ x ∈ l.contents o) (hp : l.Trail xs p x) (hq : l.Trail xs q x) :
    p = q := by
  have hinside : ∀ x ∈ xs, ∀ y : Item, x ∉ l.contents y.asOwner := by
    intro x hx y hy
    obtain ⟨o, ho, hxo⟩ := htop x hx
    exact ho y (h.unique hy hxo)
  -- From the item upwards: its owner tells the item before it on either trail, and its place there
  -- the last step.
  induction p using List.reverseRecOn generalizing q x with
  | nil =>
    obtain ⟨i, r, he⟩ := hp.exists_cons
    cases he
  | append_singleton p i ih =>
    obtain ⟨p', i', hpi, hlast⟩ := hp.last
    obtain ⟨rfl, rfl⟩ : p = p' ∧ i = i' := by simpa using hpi
    obtain ⟨q, j, rfl, hlast'⟩ := hq.last
    rcases hlast with ⟨rfl, hi⟩ | ⟨y, hy, hi⟩
    · rcases hlast' with ⟨rfl, hj⟩ | ⟨z, -, hj⟩
      · rw [(List.getElem?_inj (List.getElem?_eq_some_iff.1 hi).1 hxs).1 (hi.trans hj.symm)]
      · exact (hinside x (List.mem_of_getElem? hi) z (List.mem_of_getElem? hj)).elim
    · rcases hlast' with ⟨rfl, hj⟩ | ⟨z, hz, hj⟩
      · exact (hinside x (List.mem_of_getElem? hj) y (List.mem_of_getElem? hi)).elim
      · obtain rfl :=
          Item.asOwner_injective (h.unique (List.mem_of_getElem? hi) (List.mem_of_getElem? hj))
        rw [ih hy hz,
          (List.getElem?_inj (List.getElem?_eq_some_iff.1 hi).1 (hu _)).1 (hi.trans hj.symm)]

theorem Exclusive.fault_eq_none (h : l.Exclusive) (hu : l.Unrepeated) {tasks : List ReleaseTask}
    (hxs : (tasks.filterMap ReleaseTask.item?).Nodup)
    (htop : ∀ x ∈ tasks.filterMap ReleaseTask.item?, ∃ o, IsTop o ∧ x ∈ l.contents o) :
    (l.plan tasks).fault = none := by
  rw [plan, fault_eq_none_iff h.closed]
  · constructor
    · intro p q x hp hq
      exact h.trail_unique hu hxs htop hp hq
    · intro p x _
      cases x <;> simp [Met]
  · intro x hx
    obtain ⟨o, -, hxo⟩ := htop x (List.mem_filterMap.2 ⟨_, hx, x.item?_enter⟩)
    exact has_of_ownerOf (h o x hxo)

theorem Exclusive.releaseRecord_ok (h : l.Exclusive) (hu : l.Unrepeated) (k : RecordKey) :
    ∃ stats, (l.releaseRecord k).1 = .ok stats := by
  have hitems :
      (contentTasks (l.record k).structures (l.record k).methods).filterMap ReleaseTask.item? =
      l.contents (.ofRecord k) := by
    rw [contentTasks_eq, filterMap_item?_map_enter]
    rfl
  have hfault :
      (l.plan (contentTasks (l.record k).structures (l.record k).methods)).fault = none := by
    apply h.fault_eq_none hu
    · rw [hitems]
      exact hu _
    · intro x hx
      exact ⟨_, isTop_ofRecord k, hitems ▸ hx⟩
  rw [Ledger.releaseRecord]
  split
  · exact ⟨_, rfl⟩
  · simp only [hfault]
    exact ⟨_, rfl⟩

end Trails

section Lists

theorem Unrepeated.congr (h : l.Unrepeated) (hcontents : ∀ o, l'.contents o = l.contents o) :
    l'.Unrepeated := by
  intro o
  rw [hcontents]
  exact h o

theorem Unrepeated.of_sublist (h : l.Unrepeated)
    (hsub : ∀ o, (l'.contents o).Sublist (l.contents o)) :
    l'.Unrepeated := by
  intro o
  exact (h o).sublist (hsub o)

theorem Unrepeated.foldl_grant_iff (h : l.Unrepeated) (xs : List Item)
    (hxs : ∀ x ∈ xs, owner.Holds x) (ho : l.Has owner) :
    (xs.foldl (fun l x => l.grant owner x) l).Unrepeated ↔ (xs ++ l.contents owner).Nodup := by
  rw [← (contents_foldl_grant_perm hxs ho).nodup_iff]
  constructor
  · intro hall
    exact hall owner
  · intro howner o
    by_cases he : o = owner
    · rw [he]
      exact howner
    · rw [contents_foldl_grant_of_ne he]
      exact h o

theorem contents_updateRecord_sublist (l : Ledger) (k : RecordKey) {f : Record → Record}
    (hs : ∀ r, (f r).structures.Sublist r.structures) (hm : ∀ r, (f r).methods.Sublist r.methods)
    (o : Owner) :
    ((l.updateRecord k f).contents o).Sublist (l.contents o) := by
  by_cases ho : o = .ofRecord k
  · subst ho
    rw [contents, record_updateRecord, contents]
    split
    · exact ((hs _).map _).append ((hm _).map _)
    · exact .refl _
  · rw [contents_updateRecord_of_ne ho]

theorem Unrepeated.takeStructures {taken : List StructureKey} (h : l.Unrepeated)
    (ht : l.takeStructures k = .ok (taken, l')) : l'.Unrepeated := by
  obtain ⟨-, rfl, rfl⟩ := takeStructures_eq_ok_iff.1 ht
  apply h.of_sublist
  intro o
  rw [contents_disownStructures]
  apply contents_updateRecord_sublist
  · intro r
    exact List.nil_sublist _
  · intro r
    exact .refl _

theorem Unrepeated.takeMethods {taken : List MethodKey} (h : l.Unrepeated)
    (ht : l.takeMethods k = .ok (taken, l')) : l'.Unrepeated := by
  obtain ⟨-, rfl, rfl⟩ := takeMethods_eq_ok_iff.1 ht
  apply h.of_sublist
  intro o
  rw [contents_disownMethods]
  apply contents_updateRecord_sublist
  · intro r
    exact .refl _
  · intro r
    exact List.nil_sublist _

theorem Unrepeated.consume (h : l.Unrepeated) (hl : l.consume k = .ok l') : l'.Unrepeated := by
  obtain ⟨-, rfl⟩ := consume_eq_ok_iff.1 hl
  exact h.congr (contents_updateRecord_consumed l k)

theorem Unrepeated.carryOut (h : l.Unrepeated) (p : ReleasePlan) : (l.carryOut p).2.Unrepeated := by
  intro o
  rw [contents_carryOut]
  split
  · exact List.nodup_nil
  · exact h o

theorem Unrepeated.releaseRecord (h : l.Unrepeated) (k : RecordKey) :
    (l.releaseRecord k).2.Unrepeated := by
  rw [Ledger.releaseRecord]
  split
  · exact h
  · simp only
    split
    · exact h.carryOut _
    · apply (h.carryOut _).of_sublist
      exact contents_updateRecord_sublist _ k (fun _ => List.nil_sublist _) fun _ =>
        List.nil_sublist _

theorem Unrepeated.openRecord_iff (h : l.Unrepeated) {path : Text} {layer : Layer}
    {language : Language} {target : Option Text} {ss : List StructureKey} {ms : List MethodKey} :
    (l.openRecord path layer language target ss ms).2.Unrepeated ↔
      (l.gains (.ofRecord ⟨l.records.length⟩) (ss.map .structureAt ++ ms.map .method)).Nodup := by
  have hadd : (l.addRecord { path, layer, language, target }).2.Unrepeated :=
    h.congr (contents_addRecord l path layer language target)
  have hempty :
      (l.addRecord { path, layer, language, target }).2.contents (.ofRecord ⟨l.records.length⟩) =
        [] := by
    rw [contents_addRecord, contents, record_of_le (Nat.le_refl _)]
    rfl
  have hhas :
      (l.addRecord { path, layer, language, target }).2.Has (.ofRecord ⟨l.records.length⟩) := by
    simp [Has, addRecord]
  rw [openRecord_snd, hadd.foldl_grant_iff _ (fun x _ => by cases x <;> trivial) hhas, hempty,
    List.append_nil]

theorem Moved.unrepeated {n : NodeKey} (h : l.Moved k n l') (hex : l.Exclusive)
    (hu : l.Unrepeated) :
    l'.Unrepeated := by
  intro o
  by_cases hn : o = .ofNode n
  · rw [hn, h.received.nodup_iff]
    apply (hu _).append (hu _)
    intro x hk hx
    cases hex.unique hk hx
  · by_cases hk : o = .ofRecord k
    · rw [hk, contents, h.record]
      exact List.nodup_nil
    · rw [h.others o hk hn]
      exact hu o

end Lists

end Ledger

namespace Atlas

variable {a : Atlas} {op : Operation}

/-- Whether an operation that can be carried out gives an owner an item that it lists already, or
the same item twice. -/
def Doubles (a : Atlas) (op : Operation) : Prop :=
  (∀ o ∈ op.names, a.ledger.Has o) ∧
    match op with
    | .addChild parent child => child ∈ (a.ledger.method parent).children
    | .addMethod parent child => child ∈ (a.ledger.structureAt parent).methods
    | .openRecord _ _ _ _ structures methods =>
      ¬(a.ledger.gains (.ofRecord ⟨a.ledger.records.length⟩)
        (structures.map .structureAt ++ methods.map .method)).Nodup
    | _ => False

instance (a : Atlas) : (op : Operation) → Decidable (a.Doubles op)
  | .addChild .. => inferInstanceAs (Decidable (_ ∧ _))
  | .addMethod .. => inferInstanceAs (Decidable (_ ∧ _))
  | .openRecord .. => inferInstanceAs (Decidable (_ ∧ ¬_))
  | .makeMethod .. | .makeStructure _ | .takeStructures _ | .takeMethods _ | .consume
    _ | .releaseRecord _ | .merge _
  | .release => inferInstanceAs (Decidable (_ ∧ False))

/-- What a session without doubled items keeps. -/
structure Orderly (a : Atlas) : Prop where
  exclusive : a.ledger.Exclusive
  unrepeated : a.ledger.Unrepeated
  grouped : ∃ rs, a.Grouped rs

theorem orderly_empty : Orderly {} where
  exclusive := exclusive_empty
  unrepeated o := by cases o <;> exact List.nodup_nil
  grouped := ⟨[], grouped_empty {}⟩

theorem Orderly.nodup_releaseTasks (h : a.Orderly) :
    (a.releaseTasks.filterMap ReleaseTask.item?).Nodup := by
  obtain ⟨rs, hg⟩ := h.grouped
  rw [filterMap_item?_releaseTasks, List.nodup_flatMap]
  refine ⟨fun n _ => h.unrepeated _, hg.nodup_graph_nodes.imp ?_⟩
  intro m n hne x hm hn
  exact hne (Owner.ofNode.inj (h.exclusive.unique hm hn))

theorem Orderly.fault_eq_none (h : a.Orderly) : (a.ledger.plan a.releaseTasks).fault = none := by
  apply h.exclusive.fault_eq_none h.unrepeated h.nodup_releaseTasks
  intro x hx
  rw [filterMap_item?_releaseTasks] at hx
  obtain ⟨n, -, hn⟩ := List.mem_flatMap.1 hx
  exact ⟨_, isTop_ofNode n, hn⟩

theorem Orderly.unbroken (h : a.Orderly) (op : Operation) (fault : LedgerFault) :
    (a.step op).1 ≠ .brokenOff fault := by
  obtain ⟨reply, b, he, heffect⟩ := a.step_effect op
  rw [he]
  cases heffect with
  | kept _ _ hwhole => exact hwhole fault
  | edited _ _ hwhole _ => exact hwhole fault
  | @cutShort k _ hcut =>
    obtain ⟨stats, hok⟩ := h.exclusive.releaseRecord_ok h.unrepeated k
    cases hok.symm.trans hcut
  | merged _ => simp
  | released _ => simp
  | stuck hstuck =>
    rw [release_eq, h.fault_eq_none] at hstuck
    cases hstuck

theorem Orderly.giveMethod_iff (h : a.Orderly) {owner : Owner} (ho : a.ledger.Has owner)
    (child : MethodKey) :
    (a.giveMethod owner child).2.ledger.Unrepeated ↔ .method child ∉ a.ledger.contents owner := by
  rcases giveMethod_cases a owner child with ⟨hno, fault, he⟩ | ⟨-, he⟩
  · rw [he]
    apply iff_of_true h.unrepeated
    intro hlisted
    exact hno (.inr (h.exclusive _ _ hlisted))
  · have hgrant := h.unrepeated.foldl_grant_iff [.method child] (by simp [Owner.holds_method]) ho
    rw [he]
    refine hgrant.trans (List.nodup_cons.trans ?_)
    exact and_iff_left (h.unrepeated _)

theorem Orderly.merge (h : a.Orderly) {k : RecordKey} (hk : a.ledger.Has (.ofRecord k)) :
    (a.merge k).2.ledger.Unrepeated := by
  obtain ⟨rs, hg⟩ := h.grouped
  by_cases hok : Accepted (a.ledger.record k)
  · obtain ⟨answer, hans⟩ := merge_ok_iff.2 hok
    have he : a.merge k = (.ok answer, (a.merge k).2) := Prod.ext hans rfl
    cases answer with
    | none =>
      obtain ⟨-, -, hsame⟩ := spent_of_merge_none hk he
      exact h.unrepeated.congr hsame
    | some n => exact (moved_of_merge h.exclusive hg hk he).unrepeated h.exclusive h.unrepeated
  · obtain ⟨fault, he⟩ := merge_of_not_accepted hok
    rw [he]
    exact h.unrepeated

/-- An operation makes a list repeat an item exactly when it gives an item twice. -/
theorem Orderly.unrepeated_step_iff (h : a.Orderly) (op : Operation) :
    (a.step op).2.ledger.Unrepeated ↔ ¬a.Doubles op := by
  unfold step
  split
  · next hnames =>
    cases op with
    | openRecord path layer language target ss ms =>
      rw [ledger_perform_openRecord, h.unrepeated.openRecord_iff, Doubles, and_iff_right hnames,
        not_not]
    | addChild parent child =>
      rw [Doubles, and_iff_right hnames]
      apply (h.giveMethod_iff (hnames _ (by simp [Operation.names])) child).trans
      simp [contents]
    | addMethod parent child =>
      rw [Doubles, and_iff_right hnames]
      apply (h.giveMethod_iff (hnames _ (by simp [Operation.names])) child).trans
      simp [contents]
    | makeMethod head calls references =>
      apply iff_of_true _ And.right
      exact h.unrepeated.congr (contents_addMethod a.ledger head calls references)
    | makeStructure head =>
      apply iff_of_true _ And.right
      exact h.unrepeated.congr (contents_addStructure a.ledger head)
    | takeStructures k =>
      apply iff_of_true _ And.right
      rw [perform]
      split
      · exact h.unrepeated
      · next ht => exact h.unrepeated.takeStructures ht
    | takeMethods k =>
      apply iff_of_true _ And.right
      rw [perform]
      split
      · exact h.unrepeated
      · next ht => exact h.unrepeated.takeMethods ht
    | consume k =>
      apply iff_of_true _ And.right
      rw [perform]
      split
      · exact h.unrepeated
      · next hc => exact h.unrepeated.consume hc
    | releaseRecord k =>
      apply iff_of_true _ And.right
      rw [ledger_perform_releaseRecord]
      exact h.unrepeated.releaseRecord k
    | merge k =>
      have hmerge := h.merge (hnames _ List.mem_cons_self)
      apply iff_of_true _ And.right
      rw [perform]
      split
      · next he => rwa [he] at hmerge
      · next he => rwa [he] at hmerge
    | release =>
      apply iff_of_true _ And.right
      rw [perform, release_eq, h.fault_eq_none]
      exact h.unrepeated.carryOut _
  · next hnames => exact iff_of_true h.unrepeated fun hd => hnames hd.1

theorem Orderly.next (h : a.Orderly) (hop : ¬a.Doubles op) : (a.step op).2.Orderly where
  exclusive := exclusive_step h.exclusive (h.unbroken op)
  unrepeated := (h.unrepeated_step_iff op).2 hop
  grouped := h.grouped.imp' _ fun _ hg => hg.next (h.unbroken op)

theorem orderly_run {ops : List Operation} (hops : Along (fun a op => ¬a.Doubles op) {} ops) :
    (∀ fault, .brokenOff fault ∉ (Atlas.run {} ops).1) ∧ (Atlas.run {} ops).2.Orderly := by
  obtain ⟨hunbroken, hend⟩ :=
    hops.preserves (fun _ op hop h => ⟨Orderly.unbroken h op, h.next hop⟩) orderly_empty
  exact ⟨unbroken_of_along hunbroken, hend⟩

/-- In a session in which nobody is given an item that it lists already, nobody ever lists an item
twice, and neither the release of a record nor that of the graph is broken off. Only such a gift
makes a list repeat an item, and it always does. -/
theorem unrepeated_unless_doubled (ops : List Operation)
    (hops : Along (fun a op => ¬a.Doubles op) {} ops) :
    (∀ before after, ops = before ++ after → ∀ o,
      ((Atlas.run {} before).2.ledger.contents o).Nodup) ∧
    (∀ fault, .brokenOff fault ∉ (Atlas.run {} ops).1) ∧
    let a := (Atlas.run {} ops).2
    ∀ op, (∃ o, ¬((a.step op).2.ledger.contents o).Nodup) ↔ a.Doubles op := by
  obtain ⟨hunbroken, hend⟩ := orderly_run hops
  refine ⟨?_, hunbroken, ?_⟩
  · rintro before after rfl
    exact (orderly_run hops.of_append).2.unrepeated
  · intro a op
    rw [← not_forall, ← not_iff_not, not_not]
    exact hend.unrepeated_step_iff op

/-- A method is given to another one twice. -/
def givenTwice : List Operation :=
  [.makeMethod { name := ['p'] } [] [], .makeMethod { name := ['c'] } [] [], .addChild ⟨0⟩ ⟨1⟩,
    .addChild ⟨0⟩ ⟨1⟩, .openRecord ['a'] .methods .python none [] [⟨0⟩]]

theorem release_broken_after_givenTwice :
    (Atlas.run {} givenTwice).1 = [.made (.ofMethod ⟨0⟩), .made (.ofMethod ⟨1⟩), .done, .done,
      .made (.ofRecord ⟨0⟩)] ∧
      (Atlas.run {} givenTwice).2.ledger.contents (.ofMethod ⟨0⟩) = [.method ⟨1⟩, .method ⟨1⟩] ∧
      ((Atlas.run {} givenTwice).2.step (.releaseRecord ⟨0⟩)).1 =
        .brokenOff (.methodReleasedTwice ['c']) := by
  exact ⟨by decide, by decide, by decide +kernel⟩

/-- Items go from owner to owner: a record is not opened on a method that has an owner, and released
with the structure that it got; the methods of another are taken and merged with a third, and after
the release of the graph given anew. -/
def handedOn : List Operation :=
  [.makeMethod { name := ['f'] } [] [], .makeMethod { name := ['g'] } [] [],
    .makeMethod { name := ['h'] } [] [], .makeStructure { name := ['S'] }, .addChild ⟨0⟩ ⟨1⟩,
    .addMethod ⟨0⟩ ⟨1⟩, .openRecord ['p'] .structures .python none [⟨0⟩] [⟨1⟩], .addMethod ⟨0⟩ ⟨2⟩,
    .releaseRecord ⟨0⟩, .openRecord ['p'] .methods .python none [] [⟨0⟩, ⟨2⟩], .takeMethods ⟨1⟩,
    .openRecord ['p'] .methods .python none [] [⟨2⟩, ⟨0⟩], .merge ⟨2⟩, .release, .addChild ⟨0⟩ ⟨1⟩]

theorem unrepeated_of_handedOn :
    let a := (Atlas.run {} handedOn).2
    Along (fun a op => ¬a.Doubles op) {} handedOn ∧
    (∀ fault, .brokenOff fault ∉ (Atlas.run {} handedOn).1) ∧
      a.ledger.contents (.ofMethod ⟨0⟩) = [.method ⟨1⟩] ∧ a.Doubles (.addChild ⟨0⟩ ⟨1⟩) ∧
      (∃ o, ¬((a.step (.addChild ⟨0⟩ ⟨1⟩)).2.ledger.contents o).Nodup) ∧
      ∀ o, ((a.step (.addChild ⟨1⟩ ⟨2⟩)).2.ledger.contents o).Nodup := by
  intro a
  have hops : Along (fun a op => ¬a.Doubles op) {} handedOn :=
    along_of_check (fun _ _ => of_decide_eq_true) (by decide +kernel)
  have hlisted : (Atlas.run {} handedOn).2.ledger.contents (.ofMethod ⟨0⟩) = [.method ⟨1⟩] := by
    decide +kernel
  have htwice : (Atlas.run {} handedOn).2.Doubles (.addChild ⟨0⟩ ⟨1⟩) :=
    of_decide_eq_true (by decide +kernel)
  have honce : ¬(Atlas.run {} handedOn).2.Doubles (.addChild ⟨1⟩ ⟨2⟩) :=
    of_decide_eq_false (by decide +kernel)
  obtain ⟨-, hunbroken, hrepeat⟩ := unrepeated_unless_doubled handedOn hops
  refine ⟨hops, hunbroken, hlisted, htwice, (hrepeat _).2 htwice, ?_⟩
  intro o
  by_contra ho
  exact honce ((hrepeat _).1 ⟨o, ho⟩)

end Atlas

end DependencyAtlas
