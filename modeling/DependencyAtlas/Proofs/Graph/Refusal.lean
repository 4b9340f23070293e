import DependencyAtlas.Proofs.Graph.Tables

namespace DependencyAtlas

namespace Ledger

variable {l : Ledger} {owner : Owner} {x y : Item} {xs : List Item}

/-- The adoption of an item by an owner is not refused. -/
def Adopts (l : Ledger) (owner : Owner) : Item → Prop
  | .method m => ∃ l', l.adoptMethod owner m = .ok l'
  | .structureAt s => ∃ l', l.adoptStructure owner s = .ok l'

theorem adopts_iff : l.Adopts owner x ↔ l.Free owner x := by
  cases x with
  | method m =>
    constructor
    · rintro ⟨l', h⟩
      exact (adoptMethod_eq_ok_iff.1 h).1
    · intro h
      exact ⟨_, adoptMethod_eq_ok_iff.2 ⟨h, rfl⟩⟩
  | structureAt s =>
    constructor
    · rintro ⟨l', h⟩
      exact (adoptStructure_eq_ok_iff.1 h).1
    · intro h
      exact ⟨_, adoptStructure_eq_ok_iff.2 ⟨h, rfl⟩⟩

theorem free_foldl_grant (hxs : ∀ x ∈ xs, l.Free owner x) :
    (xs.foldl (fun l x => l.grant owner x) l).Free owner y ↔ l.Free owner y := by
  induction xs generalizing l with
  | nil => exact Iff.rfl
  | cons x xs ih =>
    obtain ⟨hx, hxs⟩ := List.forall_mem_cons.1 hxs
    exact (ih fun z hz => (free_grant hx).2 (hxs z hz)).trans (free_grant hx)

section Faults

theorem kind_of_adoptMethod {m : MethodKey} {fault : LedgerFault}
    (h : l.adoptMethod owner m = .error fault) :
    fault.kind = .ownership := by
  unfold adoptMethod at h
  split at h
  · cases h
  · split at h
    · cases h
    · cases h
      rfl

theorem kind_of_adoptStructure {s : StructureKey} {fault : LedgerFault}
    (h : l.adoptStructure owner s = .error fault) :
    fault.kind = .ownership := by
  unfold adoptStructure at h
  split at h
  · cases h
  · split at h
    · cases h
    · cases h
      rfl

/-- Adoptions one after the other fail as one of them does, when one of the items belongs to
another. -/
theorem adoptAll_cases {κ : Type} (item : κ → Item) {adopt : Ledger → κ → Except LedgerFault Ledger}
    {adoptAll : List κ → Ledger → Option LedgerFault × Ledger}
    (hnil : ∀ l, adoptAll [] l = (none, l))
    (hcons : ∀ k ks l, adoptAll (k :: ks) l =
      match adopt l k with
      | .error fault => (some fault, l)
      | .ok l => adoptAll ks l)
    (hok : ∀ l l' k, adopt l k = .ok l' ↔ l.Free owner (item k) ∧ l' = l.grant owner (item k))
    (hkind : ∀ l k fault, adopt l k = .error fault → fault.kind = .ownership) (ks : List κ)
    (l : Ledger) :
    (∃ fault, (adoptAll ks l).1 = some fault ∧ fault.kind = .ownership ∧
      ∃ x ∈ ks.map item, ¬l.Free owner x) ∨
      (adoptAll ks l).1 = none ∧ ∀ x ∈ ks.map item, l.Free owner x := by
  induction ks generalizing l with
  | nil => exact .inr ⟨by rw [hnil], by simp⟩
  | cons k ks ih =>
    rw [hcons, List.map_cons]
    cases hk : adopt l k with
    | error fault =>
      have hno : ¬l.Free owner (item k) := by
        intro hfree
        cases hk.symm.trans ((hok l _ k).2 ⟨hfree, rfl⟩)
      exact .inl ⟨fault, rfl, hkind l k fault hk, item k, List.mem_cons_self, hno⟩
    | ok l' =>
      obtain ⟨hfree, rfl⟩ := (hok l l' k).1 hk
      have hrest := ih (l.grant owner (item k))
      simp only [free_grant hfree] at hrest
      rcases hrest with ⟨fault, hfault, hownership, x, hx, hno⟩ | ⟨hnone, hall⟩
      · exact .inl ⟨fault, hfault, hownership, x, List.mem_cons_of_mem _ hx, hno⟩
      · exact .inr ⟨hnone, List.forall_mem_cons.2 ⟨hfree, hall⟩⟩

theorem adoptMethods_cases (owner : Owner) (ms : List MethodKey) (l : Ledger) :
    (∃ fault, (adoptMethods owner ms l).1 = some fault ∧ fault.kind = .ownership ∧
        ∃ x ∈ ms.map Item.method, ¬l.Free owner x) ∨
      (adoptMethods owner ms l).1 = none ∧ ∀ x ∈ ms.map Item.method, l.Free owner x :=
  adoptAll_cases Item.method (fun _ => rfl) (fun _ _ _ => rfl) (fun _ _ _ => adoptMethod_eq_ok_iff)
    (fun _ _ _ => kind_of_adoptMethod) ms l

theorem adoptStructures_cases (owner : Owner) (ss : List StructureKey) (l : Ledger) :
    (∃ fault, (adoptStructures owner ss l).1 = some fault ∧ fault.kind = .ownership ∧
        ∃ x ∈ ss.map Item.structureAt, ¬l.Free owner x) ∨
      (adoptStructures owner ss l).1 = none ∧ ∀ x ∈ ss.map Item.structureAt, l.Free owner x :=
  adoptAll_cases Item.structureAt (fun _ => rfl) (fun _ _ _ => rfl)
    (fun _ _ _ => adoptStructure_eq_ok_iff) (fun _ _ _ => kind_of_adoptStructure) ss l

end Faults

section Opening

theorem openRecord_fst (l : Ledger) (path : Text) (layer : Layer) (language : Language)
    (target : Option Text) (ss : List StructureKey) (ms : List MethodKey) :
    let k : RecordKey := ⟨l.records.length⟩
    let taken := adoptStructures (.ofRecord k) ss (l.addRecord { path, layer, language, target }).2
    (l.openRecord path layer language target ss ms).1 =
      match taken.1.or (adoptMethods (.ofRecord k) ms taken.2).1 with
      | some fault => .error fault
      | none => .ok k := by
  simp only [openRecord, addRecord]
  generalize (⟨l.records.length⟩ : RecordKey) = k
  generalize adoptStructures (.ofRecord k) ss _ = taken
  obtain ⟨_ | fault, l₁⟩ := taken
  · simp only [Option.none_or]
    generalize adoptMethods (.ofRecord k) ms l₁ = got
    obtain ⟨_ | fault, l₂⟩ := got <;> rfl
  · rfl

/-- A record is refused when one of its items belongs to another, and opened otherwise. -/
theorem openRecord_cases (l : Ledger) (path : Text) (layer : Layer) (language : Language)
    (target : Option Text) (ss : List StructureKey) (ms : List MethodKey) :
    (∃ fault, (l.openRecord path layer language target ss ms).1 = .error fault ∧
      fault.kind = .ownership ∧
        ∃ x ∈ ss.map Item.structureAt ++ ms.map Item.method,
          ¬l.Free (.ofRecord ⟨l.records.length⟩) x) ∨
      (l.openRecord path layer language target ss ms).1 = .ok ⟨l.records.length⟩ ∧
        ∀ x ∈ ss.map Item.structureAt ++ ms.map Item.method,
          l.Free (.ofRecord ⟨l.records.length⟩) x := by
  let k : RecordKey := ⟨l.records.length⟩
  let l₀ := (l.addRecord { path, layer, language, target }).2
  let l₁ := (adoptStructures (.ofRecord k) ss l₀).2
  have hsame : ∀ x, l₀.Free (.ofRecord k) x ↔ l.Free (.ofRecord k) x := by
    intro x
    cases x <;> exact Iff.rfl
  have hstructures := adoptStructures_cases (.ofRecord k) ss l₀
  simp only [hsame] at hstructures
  rw [openRecord_fst]
  rcases hstructures with ⟨fault, hfault, hkind, x, hx, hno⟩ | ⟨hnone, hfree⟩
  · rw [hfault]
    exact .inl ⟨fault, rfl, hkind, x, List.mem_append_left _ hx, hno⟩
  · -- the structures are granted by then, which makes no method belong to another
    have hgranted :
        l₁ = (ss.map Item.structureAt).foldl (fun l x => l.grant (.ofRecord k) x) l₀ := by
      have hspec := (adoptStructures_spec (.ofRecord k) ss l₀).1
      rwa [gains_eq_self fun x hx => (hsame x).2 (hfree x hx)] at hspec
    have hsame' : ∀ x, l₁.Free (.ofRecord k) x ↔ l.Free (.ofRecord k) x := by
      intro x
      rw [hgranted, free_foldl_grant fun y hy => (hsame y).2 (hfree y hy), hsame]
    have hmethods := adoptMethods_cases (.ofRecord k) ms l₁
    simp only [hsame'] at hmethods
    rw [hnone, Option.none_or]
    rcases hmethods with ⟨fault, hfault, hkind, x, hx, hno⟩ | ⟨hnone, hfree'⟩
    · rw [hfault]
      exact .inl ⟨fault, rfl, hkind, x, List.mem_append_right _ hx, hno⟩
    · rw [hnone]
      exact .inr ⟨rfl, List.forall_mem_append.2 ⟨hfree, hfree'⟩⟩

variable {path : Text} {layer : Layer} {language : Language} {target : Option Text}
  {ss : List StructureKey} {ms : List MethodKey}

theorem exists_openRecord_error_iff :
    (∃ fault, (l.openRecord path layer language target ss ms).1 = .error fault) ↔
      ∃ x ∈ ss.map Item.structureAt ++ ms.map Item.method,
        ¬l.Free (.ofRecord ⟨l.records.length⟩) x := by
  rcases openRecord_cases l path layer language target ss ms
    with ⟨fault, he, -, hclash⟩ | ⟨he, hfree⟩
  · exact iff_of_true ⟨fault, he⟩ hclash
  · apply iff_of_false
    · rintro ⟨fault, hfault⟩
      cases he.symm.trans hfault
    · rintro ⟨x, hx, hno⟩
      exact hno (hfree x hx)

theorem kind_of_openRecord {fault : LedgerFault}
    (h : (l.openRecord path layer language target ss ms).1 = .error fault) :
    fault.kind = .ownership := by
  rcases openRecord_cases l path layer language target ss ms with ⟨fault', he, hkind, -⟩ | ⟨he, -⟩
  · cases he.symm.trans h
    exact hkind
  · cases he.symm.trans h

theorem ownerOf_openRecord
    (hknown : ∀ x ∈ ss.map Item.structureAt ++ ms.map Item.method, l.Has x.asOwner) (y : Item) :
    (l.openRecord path layer language target ss ms).2.ownerOf y =
      if y ∈ l.gains (.ofRecord ⟨l.records.length⟩) (ss.map .structureAt ++ ms.map .method) then
        some (.ofRecord ⟨l.records.length⟩)
      else l.ownerOf y := by
  have hsame : (l.addRecord { path, layer, language, target }).2.ownerOf y = l.ownerOf y := by
    cases y <;> rfl
  rw [openRecord_snd, ownerOf_foldl_grant, hsame]
  intro x hx
  have hlisted := hknown x ((List.takeWhile_sublist _).subset hx)
  cases x <;> exact hlisted

theorem contents_openRecord_of_ne {o : Owner} (h : o ≠ .ofRecord ⟨l.records.length⟩) :
    (l.openRecord path layer language target ss ms).2.contents o = l.contents o := by
  rw [openRecord_snd, contents_foldl_grant_of_ne h, contents_addRecord]

theorem free_of_mem_gains (h : x ∈ l.gains owner xs) : l.Free owner x := by
  have hx :=
    List.all_eq_true.1 (List.all_takeWhile (p := fun x => decide (l.Free owner x)) (l := xs)) x h
  exact of_decide_eq_true hx

theorem exists_clash (h : ∃ x ∈ xs, ¬l.Free owner x) :
    ∃ clash rest, xs = l.gains owner xs ++ clash :: rest ∧ ¬l.Free owner clash := by
  have hsplit := List.takeWhile_append_dropWhile (p := fun x => decide (l.Free owner x)) (l := xs)
  have hhead := List.head?_dropWhile_not (fun x => decide (l.Free owner x)) xs
  cases hrest : xs.dropWhile fun x => decide (l.Free owner x) with
  | nil =>
    obtain ⟨x, hx, hno⟩ := h
    exact (hno (of_decide_eq_true (List.dropWhile_eq_nil_iff.1 hrest x hx))).elim
  | cons clash rest =>
    rw [hrest] at hsplit hhead
    exact ⟨clash, rest, hsplit.symm, by simpa using hhead⟩

theorem gains_of_clash {given rest : List Item} {clash : Item} (hfree : ∀ x ∈ given, l.Free owner x)
    (hno : ¬l.Free owner clash) : l.gains owner (given ++ clash :: rest) = given := by
  rw [gains, List.takeWhile_append_of_pos, List.takeWhile_cons_of_neg, List.append_nil]
  · simpa using hno
  · simpa using hfree

end Opening

end Ledger

namespace Atlas

open Ledger

variable {a : Atlas} {path : Text} {layer : Layer} {language : Language} {target : Option Text}
  {ss : List StructureKey} {ms : List MethodKey}

theorem reply_perform_openRecord (a : Atlas) (path : Text) (layer : Layer) (language : Language)
    (target : Option Text) (ss : List StructureKey) (ms : List MethodKey) :
    (a.perform (.openRecord path layer language target ss ms)).1 =
      match (a.ledger.openRecord path layer language target ss ms).1 with
      | .error fault => .refused fault
      | .ok k => .made (.ofRecord k) := by
  rw [perform]
  split
  · next he => rw [he]
  · next he => rw [he]

theorem names_openRecord :
    (Operation.openRecord path layer language target ss ms).names =
      (ss.map Item.structureAt ++ ms.map Item.method).map Item.asOwner := by
  rw [List.map_append, List.map_map, List.map_map]
  rfl

theorem step_openRecord_eq_refused_iff {fault : LedgerFault} :
    (a.step (.openRecord path layer language target ss ms)).1 = .refused fault ↔
      (∀ x ∈ ss.map Item.structureAt ++ ms.map Item.method, a.ledger.Has x.asOwner) ∧
        (a.ledger.openRecord path layer language target ss ms).1 = .error fault := by
  rw [step, names_openRecord]
  simp only [List.forall_mem_map]
  split
  · next hknown =>
    rw [reply_perform_openRecord, and_iff_right hknown]
    cases (a.ledger.openRecord path layer language target ss ms).1 with
    | error fault' => simp
    | ok k => simp
  · next hunknown =>
    apply iff_of_false
    · intro h
      cases h
    · intro h
      exact hunknown h.1

/-- A record is refused, for a fault of ownership, exactly when one of its items belongs to another.
The items in front of the first such one then belong to the refused record; every other item belongs
to whom it belonged before, and nobody else's list has changed. So an item that was free can be
adopted by others unless it stands in front of that one. -/
theorem refused_record_keeps_items_before_clash (a : Atlas) (path : Text) (layer : Layer)
    (language : Language) (target : Option Text) (ss : List StructureKey) (ms : List MethodKey) :
    let op := Operation.openRecord path layer language target ss ms
    let items := ss.map Item.structureAt ++ ms.map Item.method
    let refused := Owner.ofRecord ⟨a.ledger.records.length⟩
    let b := (a.step op).2
    ((∃ fault, (a.step op).1 = .refused fault) ↔
      (∀ x ∈ items, a.ledger.Has x.asOwner) ∧ ∃ x ∈ items, ¬a.ledger.Free refused x) ∧
    ∀ fault, (a.step op).1 = .refused fault → fault.kind = .ownership ∧
      ∃ given clash rest, items = given ++ clash :: rest ∧
        (∀ x ∈ given, a.ledger.Free refused x) ∧ ¬a.ledger.Free refused clash ∧
        (∀ x, b.ledger.ownerOf x = if x ∈ given then some refused else a.ledger.ownerOf x) ∧
        (∀ o, o ≠ refused → b.ledger.contents o = a.ledger.contents o) ∧ b.graph = a.graph ∧
        ∀ x owner, a.ledger.ownerOf x = none → owner ≠ refused →
          (b.ledger.Adopts owner x ↔ x ∉ given) := by
  intro op items refused b
  constructor
  · simp only [op, step_openRecord_eq_refused_iff, exists_and_left, exists_openRecord_error_iff]
    exact Iff.rfl
  intro fault hfault
  obtain ⟨hknown, herror⟩ := step_openRecord_eq_refused_iff.1 hfault
  refine ⟨kind_of_openRecord herror, ?_⟩
  obtain ⟨clash, rest, hitems, hno⟩ := exists_clash (exists_openRecord_error_iff.1 ⟨fault, herror⟩)
  have hnames : ∀ o ∈ op.names, a.ledger.Has o := by
    rw [names_openRecord]
    exact List.forall_mem_map.2 hknown
  have hb : b.ledger = (a.ledger.openRecord path layer language target ss ms).2 := by
    change (a.step op).2.ledger = _
    rw [step, if_pos hnames, ledger_perform_openRecord]
  have howner : ∀ x, b.ledger.ownerOf x =
      if x ∈ a.ledger.gains refused items then some refused else a.ledger.ownerOf x := by
    intro x
    rw [hb, ownerOf_openRecord hknown]
  -- what the record gains is what stands in front of the clash
  refine ⟨a.ledger.gains refused items, clash, rest, hitems, ?_, hno, howner, ?_, ?_, ?_⟩
  · exact fun x hx => free_of_mem_gains hx
  · intro o ho
    rw [hb, contents_openRecord_of_ne ho]
  · change (a.step op).2.graph = a.graph
    rw [step, if_pos hnames, perform]
    split
    · rfl
    · rfl
  · intro x owner hfree hother
    rw [adopts_iff, Free, howner]
    split
    · next hx => simpa [hx] using hother.symm
    · next hx => simp [hx, hfree]

/-- Four methods, of which the second one is inside the fourth, and a structure. -/
def oneMethodInside : List Operation :=
  [.makeMethod { name := ['f'] } [] [], .makeMethod { name := ['g'] } [] [],
    .makeMethod { name := ['h'] } [] [], .makeMethod { name := ['p'] } [] [],
    .makeStructure { name := ['S'] }, .addChild ⟨3⟩ ⟨1⟩]

theorem refused_record_keeps_method :
    let a := (Atlas.run {} oneMethodInside).2
    let b := (a.step (.openRecord ['a'] .methods .python none [] [⟨0⟩, ⟨1⟩])).2
    (a.step (.openRecord ['a'] .methods .python none [] [⟨0⟩, ⟨1⟩])).1 =
      .refused (.methodOwned ['g'] (.ofMethod ⟨3⟩)) ∧
      a.ledger.ownerOf (.method ⟨0⟩) = none ∧
      b.ledger.ownerOf (.method ⟨0⟩) = some (.ofRecord ⟨0⟩) ∧
      (b.step (.openRecord ['b'] .methods .python none [] [⟨0⟩])).1 =
        .refused (.methodOwned ['f'] (.ofRecord ⟨0⟩)) ∧
      (b.step (.addChild ⟨3⟩ ⟨0⟩)).1 = .refused (.methodOwned ['f'] (.ofRecord ⟨0⟩)) ∧
      (b.step (.addMethod ⟨0⟩ ⟨0⟩)).1 = .refused (.methodOwned ['f'] (.ofRecord ⟨0⟩)) := by
  decide

theorem owners_after_oneMethodInside :
    let a := (Atlas.run {} oneMethodInside).2
    let op := Operation.openRecord ['a'] .methods .python none [⟨0⟩, ⟨0⟩] [⟨0⟩, ⟨1⟩, ⟨2⟩]
    ∃ fault, (a.step op).1 = .refused fault ∧ fault.kind = .ownership ∧
      (∀ x, (a.step op).2.ledger.ownerOf x =
        if x ∈ [.structureAt ⟨0⟩, .structureAt ⟨0⟩, .method ⟨0⟩] then some (.ofRecord ⟨0⟩)
        else a.ledger.ownerOf x) ∧
      (a.step op).2.ledger.Adopts (.ofMethod ⟨3⟩) (.method ⟨2⟩) := by
  intro a op
  obtain ⟨hrefused, hleft⟩ :=
    refused_record_keeps_items_before_clash (Atlas.run {} oneMethodInside).2 ['a'] .methods
    .python none [⟨0⟩, ⟨0⟩] [⟨0⟩, ⟨1⟩, ⟨2⟩]
  obtain ⟨fault, hfault⟩ := hrefused.2 (by decide)
  obtain ⟨hkind, given, clash, rest, hitems, hfree, hno, howner, -, -, hadopts⟩ :=
    hleft fault hfault
  have hgiven : given = [.structureAt ⟨0⟩, .structureAt ⟨0⟩, .method ⟨0⟩] := by
    calc given = a.ledger.gains (.ofRecord ⟨0⟩) (given ++ clash :: rest) :=
           (gains_of_clash hfree hno).symm
      _ = _ := by
        rw [← hitems]
        decide
  rw [hgiven] at howner hadopts
  exact ⟨fault, hfault, hkind, howner,
    (hadopts (.method ⟨2⟩) (.ofMethod ⟨3⟩) (by decide) (by decide)).2 (by decide)⟩

end Atlas

end DependencyAtlas
