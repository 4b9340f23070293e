import DependencyAtlas.Proofs.Graph.Merge
import DependencyAtlas.Proofs.Ledger.Building

namespace DependencyAtlas

namespace Record

/-- The record holds what its layer is about, and nothing else. -/
def Filled (r : Record) : Prop :=
  match r.layer with
  | .modules => r.target.getD [] ≠ [] ∧ r.structures = [] ∧ r.methods = []
  | .structures => r.target = none ∧ r.structures ≠ [] ∧ r.methods = []
  | .methods => r.target = none ∧ r.structures = [] ∧ r.methods ≠ []

/-- A filled record about a file, not yet consumed. -/
structure Reports (f : SourceFile) (r : Record) : Prop where
  path : r.path = f.path
  language : r.language = f.language
  fresh : r.consumed = false
  filled : r.Filled

theorem Reports.accepted {f : SourceFile} {r : Record} (h : r.Reports f) : Atlas.Accepted r := by
  have hfilled := h.filled
  refine ⟨h.fresh, ?_⟩
  rw [Filled] at hfilled
  rw [Atlas.misplaced]
  cases hl : r.layer with
  | modules =>
    rw [hl] at hfilled
    obtain ⟨htarget, hstructures, hmethods⟩ := hfilled
    simp [htarget, hstructures, hmethods]
  | structures =>
    rw [hl] at hfilled
    exact if_neg fun h => h hfilled.2.2
  | methods =>
    rw [hl] at hfilled
    exact if_neg fun h => h hfilled.2.1

end Record

namespace Ledger

/-- The records of a file stand behind the others, and these are their keys. -/
def Entered (f : SourceFile) (l : Ledger) (ks : List RecordKey) (l' : Ledger) : Prop :=
  ∃ rs, l'.records = l.records ++ rs ∧
    ks = (List.range' l.records.length rs.length).map RecordKey.mk ∧
    ∀ r ∈ rs, r.Reports f

section Entered

variable {f : SourceFile} {l l' l'' : Ledger} {ks ks' : List RecordKey}

theorem Entered.nil (f : SourceFile) (l : Ledger) : l.Entered f [] l :=
  ⟨[], (List.append_nil _).symm, rfl, fun _ hr => nomatch hr⟩

theorem Entered.orNone {α : Type} {xs : List α} {k : RecordKey} (h : xs ≠ [] → l.Entered f [k] l') :
    l.Entered f (if xs.isEmpty then ([], l) else ([k], l')).1 (if xs.isEmpty then ([], l)
      else ([k], l')).2 := by
  cases xs with
  | nil => exact .nil f l
  | cons x xs => exact h (List.cons_ne_nil x xs)

theorem Entered.append (h : l.Entered f ks l') (h' : l'.Entered f ks' l'') :
    l.Entered f (ks ++ ks') l'' := by
  obtain ⟨rs, hrecords, rfl, hrs⟩ := h
  obtain ⟨rs', hrecords', rfl, hrs'⟩ := h'
  refine ⟨rs ++ rs', ?_, ?_, ?_⟩
  · rw [hrecords', hrecords, List.append_assoc]
  · rw [hrecords, List.length_append, List.length_append, ← List.map_append, List.range'_append_1]
  · intro r hr
    rcases List.mem_append.1 hr with hr | hr
    · exact hrs r hr
    · exact hrs' r hr

theorem Entered.nodup (h : l.Entered f ks l') : ks.Nodup := by
  obtain ⟨rs, -, rfl, -⟩ := h
  refine List.Nodup.map ?_ List.nodup_range'
  intro i j hij
  exact congrArg RecordKey.index hij

theorem Entered.reports (h : l.Entered f ks l') {k : RecordKey} (hk : k ∈ ks) :
    (l'.record k).Reports f := by
  obtain ⟨rs, hrecords, rfl, hrs⟩ := h
  obtain ⟨i, hi, rfl⟩ := List.mem_map.1 hk
  obtain ⟨hle, hlt⟩ := List.mem_range'_1.1 hi
  have hpos : i - l.records.length < rs.length := by omega
  rw [record, hrecords, List.getD_append_right _ _ _ _ hle, List.getD_eq_getElem _ _ hpos]
  exact hrs _ (List.getElem_mem _)

end Entered

theorem entered_record (l : Ledger) (f : SourceFile) (layer : Layer) (target : Option Text)
    (structures : List StructureTree) (methods : List MethodTree)
    (h : ∀ ss ms, (ss = [] ↔ structures = []) → (ms = [] ↔ methods = []) →
      ({ path := f.path, layer, language := f.language, target, structures := ss, methods := ms } :
        Record).Filled) :
    l.Entered f [(l.enterRecord f layer target structures methods).1]
      (l.enterRecord f layer target structures methods).2 := by
  refine ⟨_, l.records_enterRecord f layer target structures methods, ?_, ?_⟩
  · rw [key_enterRecord]
    rfl
  · intro r hr
    cases List.mem_singleton.1 hr
    exact ⟨rfl, rfl, rfl, h _ _ (enterStructures_eq_nil_iff ..) (enterMethods_eq_nil_iff ..)⟩

theorem entered_imports (f : SourceFile) {targets : List Text} (h : ∀ target ∈ targets, target ≠ [])
    (l : Ledger) :
    l.Entered f (enterImports f targets l).1 (enterImports f targets l).2 := by
  induction targets generalizing l with
  | nil => exact .nil f l
  | cons target rest ih =>
    obtain ⟨htarget, hrest⟩ := List.forall_mem_cons.1 h
    have hfirst := l.entered_record f .modules (some target) [] [] fun ss ms hss hms =>
      ⟨htarget, hss.2 rfl, hms.2 rfl⟩
    exact hfirst.append (ih hrest _)

theorem entered_enterRecords (l : Ledger) (f : SourceFile) {r : FileRecords}
    (h : ∀ target ∈ r.imports, target ≠ []) :
    l.Entered f (l.enterRecords f r).1 (l.enterRecords f r).2 := by
  have hstructures (l : Ledger) (hne : r.structures ≠ []) :=
    l.entered_record f .structures none r.structures []
    fun ss ms hss hms => ⟨rfl, mt hss.1 hne, hms.2 rfl⟩
  have hmethods (l : Ledger) (hne : r.methods ≠ []) := l.entered_record f .methods none [] r.methods
    fun ss ms hss hms => ⟨rfl, hss.2 rfl, mt hms.1 hne⟩
  exact ((entered_imports f h l).append (.orNone (hstructures _))).append (.orNone (hmethods _))

end Ledger

namespace Atlas

variable {a : Atlas} {k j : RecordKey}

theorem record_receiveStructures (a : Atlas) (hj : j ≠ k) :
    (a.receiveStructures k).2.ledger.record j = a.ledger.record j := by
  unfold receiveStructures
  have hledger := nodeFor_ledger { a with ledger := takenStructures a.ledger k } (a.ledger.record k)
  generalize nodeFor { a with ledger := takenStructures a.ledger k } (a.ledger.record k) =
    p at hledger ⊢
  obtain ⟨n, b⟩ := p
  change (List.foldl _ b.ledger _).records.getD j.index {} = _
  have hrecords :=
    foldl_keeps (f := fun l s => l.grantStructure (.ofNode n) s) Ledger.records (fun _ _ => rfl)
  rw [hrecords, hledger]
  change (takenStructures a.ledger k).record j = _
  rw [takenStructures, Ledger.disownStructures_eq]
  exact (Ledger.record_updateRecord ..).trans (if_neg fun h => hj h.1)

theorem record_merge (a : Atlas) (hj : j ≠ k) :
    (a.merge k).2.ledger.record j = a.ledger.record j := by
  by_cases h : Accepted (a.ledger.record k)
  · cases hl : (a.ledger.record k).layer with
    | modules =>
      have hconsumed (f : Record → Record) :
          (a.ledger.updateRecord k f).record j = a.ledger.record j :=
        (Ledger.record_updateRecord ..).trans (if_neg fun h => hj h.1)
      rw [merge_import h hl]
      split
      · exact hconsumed _
      · exact hconsumed _
    | structures =>
      rw [merge_structures h hl]
      exact record_receiveStructures a hj
    | methods =>
      rw [merge_methods h hl]
      refine Eq.trans ?_ (record_receiveMethods a hj)
      exact congrArg (·.getD j.index {}) (alike_linkCalls ..).records
  · obtain ⟨fault, hfault⟩ := merge_of_not_accepted h
    rw [hfault]

theorem mergeAll_of_step {P : List RecordKey → Atlas → Prop} {ks : List RecordKey}
    (hstep : ∀ {done : List RecordKey} {a : Atlas} {k : RecordKey}, P done a → k ∈ ks → k ∉ done →
      ∃ answer b, a.merge k = (.ok answer, b) ∧ P (done ++ [k]) b)
    {done todo : List RecordKey} {a : Atlas} (h : P done a) (htodo : ∀ k ∈ todo, k ∈ ks)
    (hnodup : (done ++ todo).Nodup) : ∃ b, mergeAll todo a = (none, b) ∧ P (done ++ todo) b := by
  induction todo generalizing done a with
  | nil => exact ⟨a, rfl, by rwa [List.append_nil]⟩
  | cons k todo ih =>
    have hnew : k ∉ done := by
      intro hin
      exact (List.nodup_append.1 hnodup).2.2 k hin k List.mem_cons_self rfl
    obtain ⟨answer, b, hmerge, hb⟩ := hstep h (htodo k List.mem_cons_self) hnew
    rw [List.append_cons] at hnodup ⊢
    rw [mergeAll, hmerge]
    exact ih hb (fun j hj => htodo j (List.mem_cons_of_mem _ hj)) hnodup

theorem mergeAll_of_accepted {ks : List RecordKey} (hks : ks.Nodup) {a : Atlas}
    (h : ∀ k ∈ ks, Accepted (a.ledger.record k)) : (mergeAll ks a).1 = none := by
  induction ks generalizing a with
  | nil => rfl
  | cons k ks ih =>
    obtain ⟨hk, hks⟩ := List.nodup_cons.1 hks
    obtain ⟨n, hn⟩ := merge_ok_iff.2 (h k List.mem_cons_self)
    have hrest : ∀ j ∈ ks, Accepted ((a.merge k).2.ledger.record j) := by
      intro j hj
      have hne : j ≠ k := fun hjk => hk (hjk ▸ hj)
      rw [record_merge a hne]
      exact h j (List.mem_cons_of_mem _ hj)
    have hstep : a.merge k = (.ok n, (a.merge k).2) := Prod.ext hn rfl
    rw [mergeAll, hstep]
    exact ih hks hrest

theorem addFile_fault (a : Atlas) (f : SourceFile) {r : FileRecords}
    (h : ∀ target ∈ r.imports, target ≠ []) :
    (a.addFile f r).1 = none := by
  have hentered := a.ledger.entered_enterRecords f h
  exact mergeAll_of_accepted hentered.nodup fun k hk => (hentered.reports hk).accepted

end Atlas

end DependencyAtlas
