import DependencyAtlas.Proofs.Graph.AddFile
import DependencyAtlas.Proofs.SourceFile.Faults
import DependencyAtlas.Proofs.SourceFile.Resolution

namespace DependencyAtlas

namespace StructureHead

/-- The head with the file that it stands in put in front of a dependency text. -/
def stamp (h : StructureHead) (dep : Text) : StructureHead :=
  { h with dependencies := some (h.definedIn ++ [':'] ++ dep), provenance := some h.definedIn }

/-- The first head has no stamp, and the second is the first, with a stamp or without. -/
def Restamped (h h' : StructureHead) : Prop :=
  h.provenance = none ∧ (h' = h ∨ ∃ dep, dep ≠ [] ∧ h.dependencies = some dep ∧ h' = h.stamp dep)

theorem restamped_explain {h : StructureHead} (hfresh : h.provenance = none) (targets : List Text) :
    h.Restamped (h.explain h.definedIn targets) := by
  refine ⟨hfresh, ?_⟩
  rw [explain]
  split
  · next hexplain =>
    right
    have hunexplained := (Bool.and_eq_true_iff.1 hexplain).1
    obtain ⟨dep, hdep, hne⟩ := (Option.any_eq_true _ _).1 (Bool.and_eq_true_iff.1 hunexplained).1
    refine ⟨dep, of_decide_eq_true hne, hdep, ?_⟩
    rw [stamp, hdep, Option.map_some]
  · exact .inl rfl

end StructureHead

/-- Structures that differ by a stamp at most. -/
def StructureTree.Restamped (s s' : StructureTree) : Prop :=
  s.head.Restamped s'.head ∧ s'.methods = s.methods

namespace Ledger

open MethodTree

variable {l l' : Ledger}

/-- The heads of all structures, in the order in which they were entered. -/
def heads (l : Ledger) : List StructureHead :=
  l.structures.map (·.head)

theorem head_structureAt (l : Ledger) (x : StructureKey) :
    (l.structureAt x).head = l.heads.getD x.index { name := [] } :=
  (List.getD_map (f := StructureEntry.head) ..).symm

section Heads

theorem heads_updateStructure (l : Ledger) (k : StructureKey) {f : StructureEntry → StructureEntry}
    (hf : ∀ e, (f e).head = e.head) : (l.updateStructure k f).heads = l.heads := by
  apply List.ext_getElem?
  intro i
  rw [heads, heads, List.getElem?_map, List.getElem?_map, updateStructure, List.getElem?_modify]
  cases l.structures[i]? with
  | none => rfl
  | some e =>
    by_cases hi : k.index = i
    · simp [hi, hf]
    · simp [hi]

theorem heads_grantStructure (l : Ledger) (owner : Owner) (s : StructureKey) :
    (l.grantStructure owner s).heads = l.heads := by
  have howner : (l.updateStructure s fun e => { e with owner := some owner }).heads = l.heads :=
    l.heads_updateStructure s fun _ => rfl
  cases owner with
  | _ => exact howner

theorem heads_grantMethod (l : Ledger) (owner : Owner) (m : MethodKey) :
    (l.grantMethod owner m).heads = l.heads := by
  cases owner with
  | ofStructure k => exact (l.updateMethod m _).heads_updateStructure k fun _ => rfl
  | _ => rfl

theorem heads_granted (k : RecordKey) (ss : List StructureKey) (ms : List MethodKey) :
    (l.granted k ss ms).heads = l.heads := by
  rw [granted]
  exact (foldl_keeps heads (fun l m => l.heads_grantMethod _ m) ms _).trans
    (foldl_keeps heads (fun l s => l.heads_grantStructure _ s) ss l)

theorem heads_disownStructures (l : Ledger) (ss : List StructureKey) :
    (l.disownStructures ss).heads = l.heads :=
  foldl_keeps (f := fun l s => l.updateStructure s fun e => { e with owner := none }) heads
    (fun l s => l.heads_updateStructure s fun _ => rfl) ss l

theorem heads_enterStructure (s : StructureTree) (l : Ledger) :
    (enterStructure s l).2.heads = l.heads ++ [s.head] := by
  rw [heads, structures_enterStructure, List.map_append]
  rfl

theorem heads_enterStructures (ss : List StructureTree) (l : Ledger) :
    (enterStructures ss l).2.heads = l.heads ++ ss.map (·.head) := by
  induction ss generalizing l with
  | nil => exact (List.append_nil _).symm
  | cons s ss ih =>
    have hrest := ih (enterStructure s l).2
    rw [heads_enterStructure, List.append_assoc] at hrest
    exact hrest

theorem heads_enterRecord (l : Ledger) (f : SourceFile) (layer : Layer) (target : Option Text)
    (structures : List StructureTree) (methods : List MethodTree) :
    (l.enterRecord f layer target structures methods).2.heads =
      l.heads ++ structures.map (·.head) := by
  rw [(enterRecord_eq l f layer target structures methods).1, ← heads_enterStructures,
    heads_granted, enterMethods_eq]
  rfl

end Heads

section Methods

theorem methods_grantMethod_congr (h : l'.methods = l.methods) (owner : Owner) (m : MethodKey) :
    (l'.grantMethod owner m).methods = (l.grantMethod owner m).methods := by
  cases owner with
  | _ =>
    simp only [grantMethod, listMethod, updateMethod, updateStructure, updateRecord, updateNode, h]

theorem methods_foldl_grantMethod_congr (h : l'.methods = l.methods) (owner : Owner)
    (ms : List MethodKey) :
    (ms.foldl (fun l m => l.grantMethod owner m) l').methods =
      (ms.foldl (fun l m => l.grantMethod owner m) l).methods := by
  induction ms generalizing l l' with
  | nil => exact h
  | cons m ms ih => exact ih (methods_grantMethod_congr h owner m)

theorem methods_enterStructure_congr (h : l'.methods = l.methods)
    (hlength : l'.structures.length = l.structures.length) {s s' : StructureTree}
    (hs : s'.methods = s.methods) :
    (enterStructure s' l').2.methods = (enterStructure s l).2.methods := by
  have hgrants (s : StructureTree) (l : Ledger) : (enterStructure s l).2 =
      (keysFrom l.methods.length s.methods).foldl
        (fun l' m => l'.grantMethod (.ofStructure ⟨l.structures.length⟩) m)
        (enterMethods s.methods (l.addStructure { head := s.head }).2).2 := by
    have hadopt := adoptMethods_enterStructure s l
    rw [adoptMethods_eq_foldl _ fun m hm => .inl (owner_of_mem_enterMethods _ _ m hm)] at hadopt
    rw [← (Prod.mk.inj hadopt).2, enterMethods_eq]
    rfl
  rw [hgrants, hgrants, h, hlength, hs]
  apply methods_foldl_grantMethod_congr
  rw [enterMethods_eq, enterMethods_eq]
  simp only [addStructure, h]

theorem methods_granted_congr (h : l'.methods = l.methods) (k : RecordKey) (ss : List StructureKey)
    (ms : List MethodKey) : (l'.granted k ss ms).methods = (l.granted k ss ms).methods := by
  have hkept (l : Ledger) :
      (ss.foldl (fun l s => l.grantStructure (.ofRecord k) s) l).methods = l.methods :=
    foldl_keeps (f := fun l s => l.grantStructure (.ofRecord k) s) Ledger.methods
      (fun _ _ => rfl) ss l
  apply methods_foldl_grantMethod_congr
  rw [hkept, hkept, h]

end Methods

/-- Two ledgers with the same methods and records, in which the heads of structures differ by stamps
at most. -/
structure Restamped (l l' : Ledger) : Prop where
  methods : l'.methods = l.methods
  records : l'.records = l.records
  heads : List.Forall₂ StructureHead.Restamped l.heads l'.heads

section Restamped

variable {ss ss' : List StructureTree}

theorem Restamped.length_structures (h : l.Restamped l') :
    l'.structures.length = l.structures.length := by
  have hlength := h.heads.length_eq
  rw [Ledger.heads, Ledger.heads, List.length_map, List.length_map] at hlength
  exact hlength.symm

theorem Restamped.keys_enterStructures (h : l.Restamped l')
    (hs : List.Forall₂ StructureTree.Restamped ss ss') :
    (enterStructures ss' l').1 = (enterStructures ss l).1 := by
  rw [(enterStructures_spec ss l).1, (enterStructures_spec ss' l').1, h.length_structures,
    hs.length_eq]

theorem forall₂_heads (hs : List.Forall₂ StructureTree.Restamped ss ss') :
    List.Forall₂ StructureHead.Restamped (ss.map (·.head)) (ss'.map (·.head)) := by
  rw [List.forall₂_map_left_iff, List.forall₂_map_right_iff]
  exact hs.imp fun _ _ h => h.1

theorem Restamped.enterStructure (h : l.Restamped l') {s s' : StructureTree} (hs : s.Restamped s') :
    (enterStructure s l).2.Restamped (enterStructure s' l').2 where
  methods := methods_enterStructure_congr h.methods h.length_structures hs.2
  records :=
    (records_enterStructures [s'] l').trans (h.records.trans (records_enterStructures [s] l).symm)
  heads := by
    rw [heads_enterStructure, heads_enterStructure]
    exact List.rel_append h.heads (.cons hs.1 .nil)

theorem Restamped.enterStructures (h : l.Restamped l')
    (hs : List.Forall₂ StructureTree.Restamped ss ss') :
    (enterStructures ss l).2.Restamped (enterStructures ss' l').2 := by
  induction hs generalizing l l' with
  | nil => exact h
  | cons hfirst _ ih => exact ih (h.enterStructure hfirst)

theorem Restamped.enterRecord (h : l.Restamped l')
    (hs : List.Forall₂ StructureTree.Restamped ss ss') (f : SourceFile) (layer : Layer)
    (target : Option Text) (ms : List MethodTree) :
    (l'.enterRecord f layer target ss' ms).1 = (l.enterRecord f layer target ss ms).1 ∧
      (l.enterRecord f layer target ss ms).2.Restamped
        (l'.enterRecord f layer target ss' ms).2 := by
  have hentered := h.enterStructures hs
  have hkeys := h.keys_enterStructures hs
  have hmethods : (enterMethods ms (Ledger.enterStructures ss' l').2).1 =
        (enterMethods ms (Ledger.enterStructures ss l).2).1 ∧
      (enterMethods ms (Ledger.enterStructures ss' l').2).2.methods =
        (enterMethods ms (Ledger.enterStructures ss l).2).2.methods := by
    rw [enterMethods_eq, enterMethods_eq, hentered.methods]
    exact ⟨rfl, rfl⟩
  have hrecords : (enterMethods ms (Ledger.enterStructures ss' l').2).2.records =
      (enterMethods ms (Ledger.enterStructures ss l).2).2.records := by
    rw [records_enterContents, records_enterContents, h.records]
  constructor
  · rw [key_enterRecord, key_enterRecord, h.records]
  · constructor
    · rw [(enterRecord_eq l f layer target ss ms).1, (enterRecord_eq l' f layer target ss' ms).1,
        hkeys, hmethods.1, hrecords]
      apply methods_granted_congr
      exact hmethods.2
    · rw [records_enterRecord, records_enterRecord, h.records, hkeys, hmethods.1]
    · rw [heads_enterRecord, heads_enterRecord]
      exact List.rel_append h.heads (forall₂_heads hs)

theorem Restamped.enterImports (h : l.Restamped l') (f : SourceFile) (targets : List Text) :
    (enterImports f targets l').1 = (enterImports f targets l).1 ∧
      (enterImports f targets l).2.Restamped (enterImports f targets l').2 := by
  induction targets generalizing l l' with
  | nil => exact ⟨rfl, h⟩
  | cons target rest ih =>
    obtain ⟨hkey, hfirst⟩ := h.enterRecord .nil f .modules (some target) []
    obtain ⟨hkeys, hrest⟩ := ih hfirst
    exact ⟨congrArg₂ List.cons hkey hkeys, hrest⟩

end Restamped

end Ledger

/-- What a file yields, with stamps and without. -/
structure FileRecords.Restamped (r r' : FileRecords) : Prop where
  imports : r'.imports = r.imports
  structures : List.Forall₂ StructureTree.Restamped r.structures r'.structures
  methods : r'.methods = r.methods

namespace Ledger

variable {l l' : Ledger}

theorem Restamped.orNone (h : l.Restamped l') {α : Type} {xs xs' : List α}
    (hlength : xs.length = xs'.length) {p p' : RecordKey × Ledger}
    (hp : p'.1 = p.1 ∧ p.2.Restamped p'.2) :
    (if xs'.isEmpty then ([], l') else ([p'.1], p'.2)).1 =
      (if xs.isEmpty then ([], l) else ([p.1], p.2)).1 ∧
      (if xs.isEmpty then ([], l) else ([p.1], p.2)).2.Restamped
        (if xs'.isEmpty then ([], l') else ([p'.1], p'.2)).2 := by
  cases xs with
  | nil =>
    cases List.length_eq_zero_iff.1 hlength.symm
    exact ⟨rfl, h⟩
  | cons x xs =>
    cases xs' with
    | nil => cases hlength
    | cons x' xs' => exact ⟨congrArg ([·]) hp.1, hp.2⟩

theorem Restamped.enterRecords (h : l.Restamped l') (f : SourceFile) {r r' : FileRecords}
    (hr : r.Restamped r') :
    (l'.enterRecords f r').1 = (l.enterRecords f r).1 ∧
    (l.enterRecords f r).2.Restamped (l'.enterRecords f r').2 := by
  obtain ⟨imports, structures, methods⟩ := r
  obtain ⟨imports', structures', methods'⟩ := r'
  obtain ⟨rfl, hstructures, rfl⟩ := hr
  obtain ⟨himportKeys, himports⟩ := h.enterImports f imports'
  obtain ⟨hstructureKeys, hentered⟩ := himports.orNone hstructures.length_eq
    (himports.enterRecord hstructures f .structures none [])
  obtain ⟨hmethodKeys, hall⟩ := hentered.orNone (Eq.refl methods'.length)
    (hentered.enterRecord .nil f .methods none methods')
  exact ⟨congrArg₂ (· ++ ·) (congrArg₂ (· ++ ·) himportKeys hstructureKeys) hmethodKeys, hall⟩

end Ledger

namespace SourceFile

variable {f : SourceFile} {t : RuleTables}

theorem fresh_of_structures (h : t.Named) {ss : List StructureTree}
    (hss : f.structures t = .ok ss) :
    ∀ s ∈ ss, s.head.definedIn = f.path ∧ s.head.provenance = none := by
  intro s hs
  obtain ⟨sms, hsms, -⟩ := answers_matchers h f .structures
  obtain ⟨ms, hms, -⟩ := answers_matchers h f .methods
  obtain ⟨d, -, hhead, -⟩ := exists_of_forall₂ (forall₂_structures hsms hms hss).flip hs
  unfold DeclaredStructure.head at hhead
  cases hname : d.found.get? "name" with
  | none =>
    rw [hname] at hhead
    cases hhead
  | some name =>
    rw [hname] at hhead
    rw [← Except.ok.inj hhead]
    exact ⟨rfl, rfl⟩

theorem resolve_eq (h : t.Named) (f : SourceFile) (heads : List StructureHead) :
    ∃ n targets, f.resolve t heads = .ok (n, heads.map (StructureHead.explain f.path targets)) := by
  obtain ⟨⟨n, after⟩, hcall, -⟩ := answers_resolve h f heads
  obtain ⟨-, rfl⟩ := resolve_eq_ok hcall
  exact ⟨n, f.targets t, hcall⟩

theorem explainedStructures_restamped (h : t.Named) (f : SourceFile) :
    ∃ ss ss', f.explainedStructures t false = .ok ss ∧ f.explainedStructures t true = .ok ss' ∧
      List.Forall₂ StructureTree.Restamped ss ss' ∧ ∀ s ∈ ss, s.head.definedIn = f.path := by
  obtain ⟨ss, hss, -⟩ := answers_structures h f
  have hfresh := fresh_of_structures h hss
  obtain ⟨n, targets, hresolve⟩ := resolve_eq h f (ss.map (·.head))
  refine ⟨ss, ss.map fun s => { s with head := s.head.explain f.path targets }, ?_, ?_, ?_,
    fun s hs => (hfresh s hs).1⟩
  · simp [explainedStructures, hss, bind, Except.bind, pure, Except.pure]
  · simp [explainedStructures, hss, hresolve, bind, Except.bind, pure, Except.pure,
      List.zipWith_map_right]
  · rw [List.forall₂_map_right_iff, List.forall₂_same]
    intro s hs
    obtain ⟨hin, hnone⟩ := hfresh s hs
    exact ⟨hin ▸ StructureHead.restamped_explain hnone targets, rfl⟩

theorem records_restamped (h : t.Named) (f : SourceFile) (layers : LayerChoice) :
    ∃ r r', f.records t layers false = .ok r ∧ f.records t layers true = .ok r' ∧ r.Restamped r' ∧
      (∀ target ∈ r.imports, target ≠ []) ∧ ∀ s ∈ r.structures, s.head.definedIn = f.path := by
  have hwanted : ∃ ss ss', ifWanted layers.structures (f.explainedStructures t false) = .ok ss ∧
      ifWanted layers.structures (f.explainedStructures t true) = .ok ss' ∧
      List.Forall₂ StructureTree.Restamped ss ss' ∧ ∀ s ∈ ss, s.head.definedIn = f.path := by
    cases layers.structures with
    | false => exact ⟨[], [], rfl, rfl, .nil, fun _ hs => nomatch hs⟩
    | true => exact explainedStructures_restamped h f
  obtain ⟨ss, ss', hss, hss', hstamped, hin⟩ := hwanted
  obtain ⟨r, hr, htargets⟩ := answers_records h f layers false
  cases recorded_of_records hr with
  | @all imports _ methods himports hstructures hmethods =>
    cases hstructures.symm.trans hss
    refine ⟨_, { imports, structures := ss', methods }, hr, ?_, ⟨rfl, hstamped, rfl⟩, htargets, hin⟩
    rw [records_eq, himports, hss', hmethods]
    rfl

end SourceFile

namespace Ledger

variable {l l' : Ledger} {t : RuleTables}

/-- Each structure of a record stands in the record's file. -/
def Homed (l : Ledger) : Prop :=
  ∀ r ∈ l.records, ∀ x ∈ r.structures, ∃ h, l.heads[x.index]? = some h ∧ h.definedIn = r.path

theorem Homed.enterRecord (h : l.Homed) (f : SourceFile) {ss : List StructureTree}
    (hss : ∀ s ∈ ss, s.head.definedIn = f.path) (layer : Layer) (target : Option Text)
    (ms : List MethodTree) :
    (l.enterRecord f layer target ss ms).2.Homed := by
  intro r hr x hx
  rw [heads_enterRecord]
  rw [records_enterRecord] at hr
  rcases List.mem_append.1 hr with hr | hr
  · obtain ⟨head, hhead, hin⟩ := h r hr x hx
    exact ⟨head, (List.getElem?_append_left (List.getElem?_eq_some_iff.1 hhead).1).trans hhead, hin⟩
  · cases List.mem_singleton.1 hr
    rw [(enterStructures_spec ss l).1] at hx
    obtain ⟨i, hi, rfl⟩ := List.mem_map.1 hx
    obtain ⟨hle, hlt⟩ := List.mem_range'_1.1 hi
    have hlength : l.heads.length = l.structures.length := List.length_map _
    have hpos : i - l.heads.length < ss.length := by omega
    refine ⟨(ss[i - l.heads.length]).head, ?_, hss _ (List.getElem_mem hpos)⟩
    rw [List.getElem?_append_right (hlength ▸ hle), List.getElem?_map,
      List.getElem?_eq_getElem hpos]
    rfl

theorem Homed.enterImports (h : l.Homed) (f : SourceFile) (targets : List Text) :
    (enterImports f targets l).2.Homed := by
  induction targets generalizing l with
  | nil => exact h
  | cons target rest ih =>
    exact ih (h.enterRecord f (List.forall_mem_nil _) .modules (some target) [])

theorem Homed.orNone (h : l.Homed) {α : Type} (xs : List α) {p : RecordKey × Ledger}
    (hp : p.2.Homed) :
    (if xs.isEmpty then ([], l) else ([p.1], p.2)).2.Homed := by
  cases xs with
  | nil => exact h
  | cons x xs => exact hp

theorem Homed.enterRecords (h : l.Homed) {f : SourceFile} {r : FileRecords}
    (hr : ∀ s ∈ r.structures, s.head.definedIn = f.path) : (l.enterRecords f r).2.Homed := by
  have himports := h.enterImports f r.imports
  have hstructures := himports.orNone r.structures (himports.enterRecord f hr .structures none [])
  exact hstructures.orNone r.methods (hstructures.enterRecord f (List.forall_mem_nil _) .methods
    none r.methods)

/-- Enters the records that files yield, with their dependency texts explained if that is wanted. -/
def enterExtracts (tables : RuleTables) (layers : LayerChoice) (explain : Bool) :
    List SourceFile → Ledger → List RecordKey × Ledger
  | [], l => ([], l)
  | f :: fs, l =>
    let (ks, l) :=
      match f.records tables layers explain with
      | .ok r => l.enterRecords f r
      | .error _ => ([], l)
    let (rest, l) := enterExtracts tables layers explain fs l
    (ks ++ rest, l)

/-- Records that a merge would accept, about structures of their files. -/
structure Mergeable (l : Ledger) : Prop where
  accepted : ∀ r ∈ l.records, Atlas.Accepted r
  homed : l.Homed

theorem Mergeable.enterRecords (h : l.Mergeable) {f : SourceFile} {r : FileRecords}
    (himports : ∀ target ∈ r.imports, target ≠ [])
    (hr : ∀ s ∈ r.structures, s.head.definedIn = f.path) :
    (l.enterRecords f r).2.Mergeable where
  accepted := by
    obtain ⟨rs, hrecords, -, hrs⟩ := l.entered_enterRecords f himports
    intro s hs
    rw [hrecords] at hs
    rcases List.mem_append.1 hs with hs | hs
    · exact h.accepted s hs
    · exact (hrs s hs).accepted
  homed := h.homed.enterRecords hr

theorem enterExtracts_cons {layers : LayerChoice} {explain : Bool} {f : SourceFile}
    {r : FileRecords} (hr : f.records t layers explain = .ok r) (fs : List SourceFile)
    (l : Ledger) :
    enterExtracts t layers explain (f :: fs) l =
      ((l.enterRecords f r).1 ++ (enterExtracts t layers explain fs (l.enterRecords f r).2).1,
        (enterExtracts t layers explain fs (l.enterRecords f r).2).2) := by
  simp only [enterExtracts, hr]

theorem Restamped.enterExtracts (h : l.Restamped l') (ht : t.Named) (layers : LayerChoice)
    (files : List SourceFile) :
    (enterExtracts t layers true files l').1 = (enterExtracts t layers false files l).1 ∧
      (enterExtracts t layers false files l).2.Restamped
        (enterExtracts t layers true files l').2 := by
  induction files generalizing l l' with
  | nil => exact ⟨rfl, h⟩
  | cons f fs ih =>
    obtain ⟨r, r', hr, hr', hstamped, -⟩ := f.records_restamped ht layers
    obtain ⟨hkeys, hentered⟩ := h.enterRecords f hstamped
    obtain ⟨hrest, hall⟩ := ih hentered
    rw [enterExtracts_cons hr, enterExtracts_cons hr', hkeys, hrest]
    exact ⟨rfl, hall⟩

theorem Mergeable.enterExtracts (h : l.Mergeable) (ht : t.Named) (layers : LayerChoice)
    (files : List SourceFile) :
    (enterExtracts t layers false files l).2.Mergeable := by
  induction files generalizing l with
  | nil => exact h
  | cons f fs ih =>
    obtain ⟨r, -, hr, -, -, himports, hin⟩ := f.records_restamped ht layers
    rw [enterExtracts_cons hr]
    exact ih (h.enterRecords himports hin)

theorem keys_enterExtracts (ht : t.Named) (layers : LayerChoice) (files : List SourceFile)
    (l : Ledger) :
    l.records.length ≤ (enterExtracts t layers false files l).2.records.length ∧
      ∀ k ∈ (enterExtracts t layers false files l).1,
        k.index < (enterExtracts t layers false files l).2.records.length := by
  induction files generalizing l with
  | nil => exact ⟨le_rfl, fun _ hk => nomatch hk⟩
  | cons f fs ih =>
    obtain ⟨r, -, hr, -, -, himports, -⟩ := f.records_restamped ht layers
    obtain ⟨rs, hrecords, hkeys, -⟩ := l.entered_enterRecords f himports
    obtain ⟨hle, hrest⟩ := ih (l.enterRecords f r).2
    rw [hrecords, List.length_append] at hle
    rw [enterExtracts_cons hr]
    refine ⟨(Nat.le_add_right ..).trans hle, fun k hk => ?_⟩
    rcases List.mem_append.1 hk with hk | hk
    · rw [hkeys] at hk
      obtain ⟨i, hi, rfl⟩ := List.mem_map.1 hk
      exact (List.mem_range'_1.1 hi).2.trans_le hle
    · exact hrest k hk

end Ledger

end DependencyAtlas
