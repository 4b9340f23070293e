import DependencyAtlas.Proofs.Graph.Tables

namespace DependencyAtlas

open Ledger

/-- The contents of a record that do not go with its layer. -/
def Record.Disagrees (r : Record) : Prop :=
  match r.layer with
  | .modules => r.structures ≠ [] ∨ r.methods ≠ [] ∨ r.target = none ∨ r.target = some []
  | .structures => r.methods ≠ []
  | .methods => r.structures ≠ []

instance (r : Record) : Decidable r.Disagrees :=
  match h : r.layer with
  | .modules =>
    decidable_of_iff (r.structures ≠ [] ∨ r.methods ≠ [] ∨ r.target = none ∨ r.target = some [])
      (by rw [Record.Disagrees, h])
  | .structures => decidable_of_iff (r.methods ≠ []) (by rw [Record.Disagrees, h])
  | .methods => decidable_of_iff (r.structures ≠ []) (by rw [Record.Disagrees, h])

def Record.spent (r : Record) : Record :=
  { r with structures := [], methods := [], consumed := true }

namespace Ledger

/-- A ledger after all contents of a record were taken. -/
structure Taken (l : Ledger) (k : RecordKey) (t : Ledger) : Prop where
  record : t.record k = (l.record k).spent
  contents : ∀ o, o ≠ .ofRecord k → t.contents o = l.contents o
  owner : ∀ x, t.ownerOf x = if x ∈ l.contents (.ofRecord k) then none else l.ownerOf x
  has : ∀ o, t.Has o ↔ l.Has o

variable {l : Ledger} {k : RecordKey}

theorem record_disownStructures (l : Ledger) (ss : List StructureKey) (j : RecordKey) :
    (l.disownStructures ss).record j = l.record j := by
  rw [disownStructures_eq]
  rfl

theorem record_disownMethods (l : Ledger) (ms : List MethodKey) (j : RecordKey) :
    (l.disownMethods ms).record j = l.record j := by
  rw [disownMethods_eq]
  rfl

theorem contents_updateRecord_of_ne {o : Owner} (h : o ≠ .ofRecord k) (f : Record → Record) :
    (l.updateRecord k f).contents o = l.contents o := by
  cases o with
  | ofRecord j =>
    have hj : ¬(j = k ∧ k.index < l.records.length) := fun he => h (congrArg Owner.ofRecord he.1)
    rw [Ledger.contents, record_updateRecord, if_neg hj, Ledger.contents]
  | _ => rfl

theorem has_updateRecord (l : Ledger) (k : RecordKey) (f : Record → Record) (o : Owner) :
    (l.updateRecord k f).Has o ↔ l.Has o := by
  cases o <;> simp [Has, updateRecord]

theorem taken_takenStructures (hk : l.Has (.ofRecord k)) (hm : (l.record k).methods = []) :
    l.Taken k (Atlas.takenStructures l k) where
  record := by
    rw [Atlas.takenStructures, record_disownStructures, record_updateRecord, if_pos ⟨rfl, hk⟩,
      Record.spent, hm]
  contents o ho := by
    rw [Atlas.takenStructures, contents_disownStructures, contents_updateRecord_of_ne ho]
  owner x := by
    rw [Atlas.takenStructures, Ledger.contents, hm, List.map_nil, List.append_nil]
    cases x with
    | method m =>
      rw [disownStructures_eq]
      simp [ownerOf, method, updateRecord]
    | structureAt s =>
      simp only [ownerOf, structureAt_disownStructures, List.mem_map, Item.structureAt.injEq,
        exists_eq_right]
      split
      · rfl
      · rfl
  has o := by rw [Atlas.takenStructures, has_disownStructures, has_updateRecord]

theorem taken_takenMethods (hk : l.Has (.ofRecord k)) (hs : (l.record k).structures = []) :
    l.Taken k (Atlas.takenMethods l k) where
  record := by
    rw [Atlas.takenMethods, record_disownMethods, record_updateRecord, if_pos ⟨rfl, hk⟩,
      Record.spent, hs]
  contents o ho := by
    rw [Atlas.takenMethods, contents_disownMethods, contents_updateRecord_of_ne ho]
  owner x := by
    rw [Atlas.takenMethods, Ledger.contents, hs, List.map_nil, List.nil_append]
    cases x with
    | method m =>
      simp only [ownerOf, method_disownMethods, List.mem_map, Item.method.injEq, exists_eq_right]
      split
      · rfl
      · rfl
    | structureAt s =>
      rw [disownMethods_eq]
      simp [ownerOf, structureAt, updateRecord]
  has o := by rw [Atlas.takenMethods, has_disownMethods, has_updateRecord]

structure Moved (l : Ledger) (k : RecordKey) (n : NodeKey) (l' : Ledger) : Prop where
  record : l'.record k = (l.record k).spent
  received : (l'.contents (.ofNode n)).Perm (l.contents (.ofRecord k) ++ l.contents (.ofNode n))
  others : ∀ o, o ≠ .ofRecord k → o ≠ .ofNode n → l'.contents o = l.contents o
  owner : ∀ x, l'.ownerOf x = if x ∈ l.contents (.ofRecord k) then some (.ofNode n) else l.ownerOf x

theorem Moved.congr {n : NodeKey} {l' l'' : Ledger} (h : l.Moved k n l')
    (hrecord : l''.record k = l'.record k) (hcontents : ∀ o, l''.contents o = l'.contents o)
    (howner : ∀ x, l''.ownerOf x = l'.ownerOf x) :
    l.Moved k n l'' where
  record := hrecord.trans h.record
  received := by
    rw [hcontents]
    exact h.received
  others o ho hn := (hcontents o).trans (h.others o ho hn)
  owner x := (howner x).trans (h.owner x)

end Ledger

namespace Atlas

variable {a b : Atlas} {rs : List Record} {k : RecordKey} {n : NodeKey} {answer : Option NodeKey}

theorem misplaced_eq_none_iff {r : Record} : misplaced r = none ↔ ¬r.Disagrees := by
  unfold misplaced Record.Disagrees
  cases r.layer with
  | modules => cases r.target <;> simp
  | structures => simp
  | methods => simp

theorem has_node_nodeFor (hg : a.Grouped rs) {t : Ledger} (ht : t.nodes = a.ledger.nodes)
    (r : Record) :
    (nodeFor { a with ledger := t } r).2.ledger.Has
      (.ofNode (nodeFor { a with ledger := t } r).1) := by
  unfold nodeFor
  split
  · next n rest hfile =>
    have hn : n ∈ a.graph.byFile.get (r.path, r.layer) := hfile ▸ List.mem_cons_self
    rw [hg.byFile] at hn
    change n.index < t.nodes.length
    rw [ht]
    exact hg.known n (List.mem_filter.1 hn).1
  · change t.nodes.length < (t.nodes ++ [_]).length
    simp

theorem moved_of_taken (hex : a.ledger.Exclusive) (hg : a.Grouped rs) {t : Ledger}
    (ht : a.ledger.Taken k t) (hnodes : t.nodes = a.ledger.nodes) (r : Record) :
    a.ledger.Moved k (nodeFor { a with ledger := t } r).1
      ((a.ledger.contents (.ofRecord k)).foldl
        (fun l x => l.grant (.ofNode (nodeFor { a with ledger := t } r).1) x)
        (nodeFor { a with ledger := t } r).2.ledger) := by
  have hledger := nodeFor_ledger { a with ledger := t } r
  have hcontents := contents_nodeFor { a with ledger := t } r
  have howner := ownerOf_nodeFor { a with ledger := t } r
  have hitems := has_nodeFor { a with ledger := t } r
  have hnode := has_node_nodeFor hg hnodes r
  generalize nodeFor { a with ledger := t } r = p at hledger hcontents howner hitems hnode ⊢
  obtain ⟨n, c⟩ := p
  have hknown : ∀ x ∈ a.ledger.contents (.ofRecord k), c.ledger.Has x.asOwner := by
    intro x hx
    apply (hitems x).2
    apply (ht.has x.asOwner).2
    exact has_of_ownerOf (hex _ x hx)
  have hholds : ∀ x : Item, (Owner.ofNode n).Holds x := fun x => by cases x <;> trivial
  constructor
  · have hrecords :=
      foldl_keeps (f := fun l x => l.grant (.ofNode n) x) Ledger.records
        (fun _ x => by cases x <;> rfl)
    change (List.foldl _ c.ledger _).records.getD k.index {} = _
    rw [hrecords, hledger]
    exact ht.record
  · apply (contents_foldl_grant_perm (fun x _ => hholds x) hnode).trans
    rw [hcontents]
    exact .of_eq (congrArg _ (ht.contents _ (by simp)))
  · intro o ho hn
    rw [contents_foldl_grant_of_ne hn, hcontents]
    exact ht.contents o ho
  · intro x
    rw [ownerOf_foldl_grant hknown, howner]
    split
    · rfl
    · next hx => exact (ht.owner x).trans (if_neg hx)

theorem moved_of_merge (hex : a.ledger.Exclusive) (hg : a.Grouped rs)
    (hk : a.ledger.Has (.ofRecord k)) (he : a.merge k = (.ok (some n), b)) :
    a.ledger.Moved k n b.ledger := by
  have hok : Accepted (a.ledger.record k) := merge_ok_iff.1 ⟨_, congrArg Prod.fst he⟩
  cases hl : (a.ledger.record k).layer with
  | modules =>
    obtain ⟨hs, hm, -⟩ := hok.contents_eq_nil hl
    have hempty : a.ledger.contents (.ofRecord k) = [] := by rw [contents, hs, hm]; rfl
    rw [merge_import hok hl] at he
    split at he
    · cases he
    · obtain ⟨ha, rfl⟩ := Prod.mk.inj he
      have hcontents : ∀ o, (a.receiveImport k).2.ledger.contents o = a.ledger.contents o := by
        intro o
        rw [receiveImport, contents_appendNode]
        exact contents_updateRecord_consumed a.ledger k o
      constructor
      · refine (record_updateRecord a.ledger k k _).trans ((if_pos ⟨rfl, hk⟩).trans ?_)
        rw [Record.spent, hs, hm]
      · rw [hcontents, hempty]
        exact .refl _
      · intro o _ _
        exact hcontents o
      · intro x
        rw [hempty, if_neg List.not_mem_nil, receiveImport, ownerOf_appendNode]
        cases x <;> rfl
  | structures =>
    have hm := hok.methods_eq_nil hl
    rw [merge_structures hok hl] at he
    obtain ⟨ha, rfl⟩ := Prod.mk.inj he
    obtain rfl : (a.receiveStructures k).1 = n := by simpa using ha
    have hmoved :=
      moved_of_taken hex hg (taken_takenStructures hk hm) (nodes_takenStructures ..)
        (a.ledger.record k)
    rw [contents, hm, List.map_nil, List.append_nil, List.foldl_map] at hmoved
    exact hmoved
  | methods =>
    have hs := hok.structures_eq_nil hl
    rw [merge_methods hok hl] at he
    obtain ⟨ha, rfl⟩ := Prod.mk.inj he
    obtain rfl : (a.receiveMethods k).1 = n := by simpa using ha
    have halike :=
      alike_linkCalls (a.receiveMethods k).2 (a.ledger.record k).path (a.ledger.record k).methods
    have hmoved :=
      moved_of_taken hex hg (taken_takenMethods hk hs) (nodes_takenMethods ..) (a.ledger.record k)
    rw [contents, hs, List.map_nil, List.nil_append, List.foldl_map] at hmoved
    apply hmoved.congr
    · rw [record, halike.records]
      rfl
    · intro o
      rw [halike.contents]
      exact contents_updateNode_methodCount ..
    · intro x
      rw [halike.ownerOf]
      cases x <;> rfl

theorem spent_of_merge_none (hk : a.ledger.Has (.ofRecord k)) (he : a.merge k = (.ok none, b)) :
    a.ledger.contents (.ofRecord k) = [] ∧ b.ledger.record k = (a.ledger.record k).spent ∧
      ∀ o, b.ledger.contents o = a.ledger.contents o := by
  have hok : Accepted (a.ledger.record k) := merge_ok_iff.1 ⟨_, congrArg Prod.fst he⟩
  cases hl : (a.ledger.record k).layer with
  | modules =>
    obtain ⟨hs, hm, -⟩ := hok.contents_eq_nil hl
    rw [merge_import hok hl] at he
    split at he
    · obtain ⟨-, rfl⟩ := Prod.mk.inj he
      refine ⟨?_, ?_, contents_updateRecord_consumed a.ledger k⟩
      · rw [contents, hs, hm]
        rfl
      · refine (record_updateRecord a.ledger k k _).trans ((if_pos ⟨rfl, hk⟩).trans ?_)
        rw [Record.spent, hs, hm]
    · cases he
  | structures =>
    rw [merge_structures hok hl] at he
    cases he
  | methods =>
    rw [merge_methods hok hl] at he
    cases he

theorem kind_of_merge_error (a : Atlas) (k : RecordKey) :
    ((∃ fault, (a.merge k).1 = .error fault ∧ fault.kind = .consumption) ↔
      (a.ledger.record k).consumed = true) ∧
      ((∃ fault, (a.merge k).1 = .error fault ∧ fault.kind = .content) ↔
        (a.ledger.record k).consumed = false ∧ (a.ledger.record k).Disagrees) := by
  have hkind : ∀ fault, misplaced (a.ledger.record k) = some fault → fault.kind = .content := by
    intro fault hf
    unfold misplaced at hf
    split at hf
    · split at hf
      · cases hf
        rfl
      · cases hf
    · split at hf
      · cases hf
        rfl
      · cases hf
    · split at hf
      · cases hf
        rfl
      · cases hf
  cases hc : (a.ledger.record k).consumed with
  | true =>
    have he : (a.merge k).1 = .error (a.ledger.record k).consumedFault := by simp [merge, hc]
    rw [he]
    simp [Record.consumedFault, LedgerFault.kind]
  | false =>
    by_cases hd : (a.ledger.record k).Disagrees
    · obtain ⟨fault, hf⟩ := Option.ne_none_iff_exists'.1 fun h => misplaced_eq_none_iff.1 h hd
      have he : (a.merge k).1 = .error fault := by simp [merge, hc, hf]
      rw [he]
      simp [hkind fault hf, hd]
    · obtain ⟨answer, he⟩ := merge_ok_iff.2 ⟨hc, misplaced_eq_none_iff.2 hd⟩
      rw [he]
      simp [hd]

/-- After a session without broken releases, a merge is refused exactly when the record has been
consumed or else holds what does not go with its layer, and then nothing at all has changed. In
every other case it is accepted: the record is consumed and empty, and everything that it held
belongs to the node of its file and layer and is listed there, with the walks through its methods
complete. -/
theorem merge_moves_all_or_nothing (ops : List Operation)
    (hr : ∀ fault, .brokenOff fault ∉ (Atlas.run {} ops).1) (k : RecordKey)
    (hk : (Atlas.run {} ops).2.ledger.Has (.ofRecord k)) :
    let a := (Atlas.run {} ops).2
    let r := a.ledger.record k
    let b := (a.merge k).2
    ((∃ fault, (a.merge k).1 = .error fault ∧ fault.kind = .consumption) ↔ r.consumed = true) ∧
    (r.consumed = false → ((∃ fault, (a.merge k).1 = .error fault ∧ fault.kind = .content) ↔
      r.Disagrees)) ∧
    (r.consumed = true ∨ r.Disagrees → b = a) ∧
    (r.consumed = false → ¬r.Disagrees → ∃ answer, (a.merge k).1 = .ok answer ∧
      b.ledger.record k = { r with structures := [], methods := [], consumed := true } ∧
      ∀ x ∈ a.ledger.contents (.ofRecord k), ∃ n, answer = some n ∧ n ∈ b.graph.nodes ∧
        (b.ledger.node n).source = r.path ∧ (b.ledger.node n).layer = r.layer ∧
        b.ledger.ownerOf x = some (.ofNode n) ∧ x ∈ b.ledger.contents (.ofNode n) ∧
        ∀ m, x = .method m → ∀ depth, b.ledger.methods.length ≤ depth →
          b.ledger.walkFrom depth m = b.ledger.walk m) := by
  intro a r b
  have hex : a.ledger.Exclusive := exclusive_run exclusive_empty hr
  have hg := grouped_run hr
  obtain ⟨hconsumption, hcontent⟩ := kind_of_merge_error a k
  refine ⟨hconsumption, ?_, ?_, ?_⟩
  · intro hc
    exact hcontent.trans (and_iff_right hc)
  · intro hrefused
    have hno : ¬Accepted r := by
      intro hok
      rcases hrefused with hc | hd
      · exact absurd (hok.1.symm.trans hc) (by simp)
      · exact misplaced_eq_none_iff.1 hok.2 hd
    obtain ⟨fault, he⟩ := merge_of_not_accepted hno
    exact congrArg Prod.snd he
  · intro hc hd
    obtain ⟨answer, hans⟩ := merge_ok_iff.2 ⟨hc, misplaced_eq_none_iff.2 hd⟩
    have he : a.merge k = (.ok answer, b) := Prod.ext hans rfl
    obtain ⟨-, hplaced⟩ := placed_of_merge he
    cases answer with
    | none =>
      obtain ⟨hempty, hspent, -⟩ := spent_of_merge_none hk he
      refine ⟨none, hans, hspent, ?_⟩
      intro x hx
      rw [hempty] at hx
      cases hx
    | some n =>
      have hmoved := moved_of_merge hex hg hk he
      obtain ⟨hn, hgroup⟩ := hg.group_of_answer hplaced
      refine ⟨some n, hans, hmoved.record, ?_⟩
      intro x hx
      have hlisted : x ∈ b.ledger.contents (.ofNode n) :=
        hmoved.received.mem_iff.2 (List.mem_append_left _ hx)
      refine ⟨n, rfl, hn, congrArg Group.path hgroup, congrArg Group.layer hgroup, ?_, hlisted, ?_⟩
      · rw [hmoved.owner, if_pos hx]
      · rintro m rfl depth hdepth
        exact (exclusive_merge hex k).walkFrom_eq_walk (isTop_ofNode n) (.listed hlisted) hdepth

/-- Three records are open: one that was merged, one of the same file with a method inside another,
and one of methods that holds a structure. -/
def threeRecords : List Operation :=
  [.makeMethod { name := ['f'] } [] [], .makeMethod { name := ['g'] } [['h']] [], .addChild ⟨0⟩ ⟨1⟩,
    .makeMethod { name := ['h'] } [] [], .makeStructure { name := ['S'] },
    .openRecord ['p'] .methods .python none [] [⟨2⟩],
    .openRecord ['p'] .methods .python none [] [⟨0⟩],
    .openRecord ['q'] .methods .python none [⟨0⟩] [], .merge ⟨0⟩]

theorem merges_after_threeRecords :
    let a := (Atlas.run {} threeRecords).2
    (∀ fault, .brokenOff fault ∉ (Atlas.run {} threeRecords).1) ∧
      (∀ i < 3, a.ledger.Has (.ofRecord ⟨i⟩)) ∧
      (∃ fault, (a.merge ⟨0⟩).1 = .error fault ∧ fault.kind = .consumption) ∧
      (∃ fault, (a.merge ⟨2⟩).1 = .error fault ∧ fault.kind = .content) ∧ (a.merge ⟨2⟩).2 = a ∧
      ∃ n, (a.merge ⟨1⟩).1 = .ok (some n) ∧
        (a.merge ⟨1⟩).2.ledger.ownerOf (.method ⟨0⟩) = some (.ofNode n) := by
  intro a
  have hr : ∀ fault, .brokenOff fault ∉ (Atlas.run {} threeRecords).1 :=
    unbroken_of_check (by decide)
  have hrecords :
      (Atlas.run {} threeRecords).2.ledger.records.map (fun r => (r.consumed, r.layer,
        r.structures)) =
      [(true, .methods, []), (false, .methods, []), (false, .methods, [⟨0⟩])] := by decide
  have hk : ∀ i < 3, a.ledger.Has (.ofRecord ⟨i⟩) := by
    intro i hi
    change i < (Atlas.run {} threeRecords).2.ledger.records.length
    rwa [← List.length_map, hrecords]
  have hlisted : (Atlas.run {} threeRecords).2.ledger.contents (.ofRecord ⟨1⟩) = [.method ⟨0⟩] := by
    decide
  obtain ⟨hconsumed, -, -, -⟩ := merge_moves_all_or_nothing threeRecords hr ⟨0⟩ (hk 0 (by decide))
  obtain ⟨-, hcontent, hsame, -⟩ :=
    merge_moves_all_or_nothing threeRecords hr ⟨2⟩ (hk 2 (by decide))
  obtain ⟨-, -, -, hmoved⟩ := merge_moves_all_or_nothing threeRecords hr ⟨1⟩ (hk 1 (by decide))
  have hd : ((Atlas.run {} threeRecords).2.ledger.record ⟨2⟩).Disagrees := by decide
  refine ⟨hr, hk, hconsumed.2 (by decide), (hcontent (by decide)).2 hd, hsame (.inr hd), ?_⟩
  obtain ⟨answer, hans, -, hall⟩ := hmoved (by decide) (by decide)
  obtain ⟨n, rfl, -, -, -, howner, -⟩ := hall (.method ⟨0⟩) (hlisted ▸ List.mem_cons_self)
  exact ⟨n, hans, howner⟩

end Atlas

end DependencyAtlas
