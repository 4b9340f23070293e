import DependencyAtlas.Proofs.Ledger.Entering

namespace DependencyAtlas

namespace Ledger

open MethodTree

mutual

/-- Builds a method and those inside it, which it has to adopt. -/
def buildMethod : MethodTree → Ledger → Except LedgerFault (MethodKey × Ledger)
  | ⟨head, calls, references, children⟩, l => do
    let (k, l) := l.addMethod { head, calls, references }
    let l ← buildChildren k children l
    return (k, l)

def buildChildren (parent : MethodKey) : List MethodTree → Ledger → Except LedgerFault Ledger
  | [], l => .ok l
  | m :: ms, l => do
    let (k, l) ← buildMethod m l
    let l ← l.adoptMethod (.ofMethod parent) k
    buildChildren parent ms l

end

def buildMethods : List MethodTree → Ledger → Except LedgerFault (List MethodKey × Ledger)
  | [], l => .ok ([], l)
  | m :: ms, l => do
    let (k, l) ← buildMethod m l
    let (ks, l) ← buildMethods ms l
    return (k :: ks, l)

/-- Builds a structure and the methods in its body, which it has to adopt. -/
def buildStructure (s : StructureTree) (l : Ledger) :
    Except LedgerFault (StructureKey × Ledger) := do
  let (k, l) := l.addStructure { head := s.head }
  let (ms, l) ← buildMethods s.methods l
  match adoptMethods (.ofStructure k) ms l with
  | (some fault, _) => .error fault
  | (none, l) => .ok (k, l)

def buildStructures : List StructureTree → Ledger → Except LedgerFault (List StructureKey × Ledger)
  | [], l => .ok ([], l)
  | s :: ss, l => do
    let (k, l) ← buildStructure s l
    let (ks, l) ← buildStructures ss l
    return (k :: ks, l)

/-- Builds structures and methods, and opens a record on them. -/
def buildRecord (l : Ledger) (f : SourceFile) (layer : Layer) (target : Option Text)
    (structures : List StructureTree) (methods : List MethodTree) :
    Except LedgerFault (RecordKey × Ledger) := do
  let (ss, l) ← buildStructures structures l
  let (ms, l) ← buildMethods methods l
  match l.openRecord f.path layer f.language target ss ms with
  | (.error fault, _) => .error fault
  | (.ok k, l) => .ok (k, l)

def buildImports (f : SourceFile) :
    List Text → Ledger → Except LedgerFault (List RecordKey × Ledger)
  | [], l => .ok ([], l)
  | target :: rest, l => do
    let (k, l) ← l.buildRecord f .modules (some target) [] []
    let (ks, l) ← buildImports f rest l
    return (k :: ks, l)

/-- Builds the record of a layer, unless the layer is empty. -/
def buildUnless (empty : Bool) (record : Except LedgerFault (RecordKey × Ledger)) (l : Ledger) :
    Except LedgerFault (List RecordKey × Ledger) :=
  if empty then .ok ([], l)
  else do
    let (k, l) ← record
    return ([k], l)

/-- Builds the records of a file: the imports, then the structures and the methods if there are
any. -/
def buildRecords (l : Ledger) (f : SourceFile) (r : FileRecords) :
    Except LedgerFault (List RecordKey × Ledger) := do
  let (imports, l) ← buildImports f r.imports l
  let (structures, l) ← buildUnless r.structures.isEmpty
    (l.buildRecord f .structures none r.structures []) l
  let (methods, l) ← buildUnless r.methods.isEmpty (l.buildRecord f .methods none [] r.methods) l
  return (imports ++ structures ++ methods, l)

variable {l l' : Ledger}

theorem owner_enterMethod (t : MethodTree) (l : Ledger) :
    ((enterMethod t l).2.method (enterMethod t l).1).owner = none := by
  have hkey : (⟨l.methods.length⟩ : MethodKey) ∈ keysFrom l.methods.length [t] := List.mem_cons_self
  rw [enterMethod_eq]
  apply owner_of_mem_keysFrom l.methods _ hkey
  simp [layoutAll]

theorem owner_of_mem_enterMethods (ts : List MethodTree) (l : Ledger) :
    ∀ m ∈ (enterMethods ts l).1, ((enterMethods ts l).2.method m).owner = none := by
  rw [enterMethods_eq]
  intro m hm
  exact owner_of_mem_keysFrom l.methods rfl hm

mutual

theorem buildMethod_eq : (t : MethodTree) → (l : Ledger) → buildMethod t l = .ok (enterMethod t l)
  | ⟨head, calls, references, children⟩, l => by
    rw [buildMethod, enterMethod]
    simp only [addMethod, buildChildren_eq]
    rfl

theorem buildChildren_eq (parent : MethodKey) : (ts : List MethodTree) → (l : Ledger) →
    buildChildren parent ts l = .ok (enterChildren parent ts l)
  | [], l => by rw [buildChildren, enterChildren]
  | t :: ts, l => by
    have hadopt : (enterMethod t l).2.adoptMethod (.ofMethod parent) (enterMethod t l).1 =
        .ok ((enterMethod t l).2.grantMethod (.ofMethod parent) (enterMethod t l).1) :=
      adoptMethod_eq_ok_iff.2 ⟨.inl (owner_enterMethod t l), rfl⟩
    rw [buildChildren, buildMethod_eq t l, enterChildren]
    simp only [bind, Except.bind, hadopt]
    exact buildChildren_eq parent ts _

end

theorem buildMethods_eq (ts : List MethodTree) (l : Ledger) :
    buildMethods ts l = .ok (enterMethods ts l) := by
  induction ts generalizing l with
  | nil => rfl
  | cons t ts ih =>
    rw [buildMethods, buildMethod_eq, enterMethods]
    simp only [bind, Except.bind, ih]
    rfl

theorem structures_foldl_grantMethod (k : StructureKey) (ms : List MethodKey) (l : Ledger) :
    (ms.foldl (fun l m => l.grantMethod (.ofStructure k) m) l).structures =
      l.structures.modify k.index fun e => { e with methods := e.methods ++ ms } :=
  foldl_modify structures (fun ms e => { e with methods := e.methods ++ ms }) (by simp) (by simp)
    (fun _ _ => rfl) ms l

theorem adoptMethods_enterStructure (s : StructureTree) (l : Ledger) :
    adoptMethods (.ofStructure ⟨l.structures.length⟩)
    (enterMethods s.methods (l.addStructure { head := s.head }).2).1
        (enterMethods s.methods (l.addStructure { head := s.head }).2).2 =
      (none, (enterStructure s l).2) := by
  rw [enterStructure]
  simp only [addStructure]
  rw [adoptMethods_eq_foldl]
  intro m hm
  exact .inl (owner_of_mem_enterMethods _ _ m hm)

theorem buildStructure_eq (s : StructureTree) (l : Ledger) :
    buildStructure s l = .ok (enterStructure s l) := by
  rw [buildStructure]
  simp only [addStructure, buildMethods_eq, bind, Except.bind]
  have hadopt := adoptMethods_enterStructure s l
  simp only [addStructure] at hadopt
  rw [hadopt]
  rfl

theorem buildStructures_eq (ss : List StructureTree) (l : Ledger) :
    buildStructures ss l = .ok (enterStructures ss l) := by
  induction ss generalizing l with
  | nil => rfl
  | cons s ss ih =>
    rw [buildStructures, buildStructure_eq, enterStructures]
    simp only [bind, Except.bind, ih]
    rfl

theorem structures_enterStructure (s : StructureTree) (l : Ledger) :
    (enterStructure s l).2.structures =
      l.structures ++ [{ head := s.head, methods := keysFrom l.methods.length s.methods }] := by
  have hadopt := adoptMethods_enterStructure s l
  rw [adoptMethods_eq_foldl _ fun m hm => .inl (owner_of_mem_enterMethods _ _ m hm)] at hadopt
  rw [← (Prod.mk.inj hadopt).2, structures_foldl_grantMethod, enterMethods_eq]
  exact modify_append_length ..

/-- Structures are entered one after the other behind those that are there, and belong to nobody
yet. -/
theorem enterStructures_spec (ss : List StructureTree) (l : Ledger) :
    (enterStructures ss l).1 = (List.range' l.structures.length ss.length).map StructureKey.mk ∧
      ∃ es, (enterStructures ss l).2.structures = l.structures ++ es ∧ es.length = ss.length ∧
        ∀ e ∈ es, e.owner = none := by
  induction ss generalizing l with
  | nil => exact ⟨rfl, [], (List.append_nil _).symm, rfl, fun _ he => (nomatch he)⟩
  | cons s ss ih =>
    have hfirst := structures_enterStructure s l
    obtain ⟨hkeys, es, hes, hlength, howner⟩ := ih (enterStructure s l).2
    rw [hfirst, List.length_append, List.length_singleton] at hkeys
    rw [hfirst, List.append_assoc, List.singleton_append] at hes
    refine ⟨?_, _, hes,
      by rw [List.length_cons, List.length_cons, hlength], List.forall_mem_cons.2 ⟨rfl, howner⟩⟩
    rw [enterStructures, List.length_cons, List.range'_succ, List.map_cons, ← hkeys]
    rfl

theorem owner_of_mem_enterStructures (ss : List StructureTree) (l : Ledger) :
    ∀ s ∈ (enterStructures ss l).1, ((enterStructures ss l).2.structureAt s).owner = none := by
  obtain ⟨hkeys, es, hes, hlength, howner⟩ := enterStructures_spec ss l
  rw [hkeys]
  intro s hs
  obtain ⟨i, hi, rfl⟩ := List.mem_map.1 hs
  obtain ⟨hle, hlt⟩ := List.mem_range'_1.1 hi
  have hpos : i - l.structures.length < es.length := by omega
  rw [structureAt, hes, List.getD_append_right _ _ _ _ hle, List.getD_eq_getElem _ _ hpos]
  exact howner _ (List.getElem_mem _)

theorem enterStructures_eq_nil_iff (ss : List StructureTree) (l : Ledger) :
    (enterStructures ss l).1 = [] ↔ ss = [] := by
  rw [(enterStructures_spec ss l).1, List.map_eq_nil_iff, List.range'_eq_nil_iff,
    List.length_eq_zero_iff]

theorem enterMethods_eq_nil_iff (ts : List MethodTree) (l : Ledger) :
    (enterMethods ts l).1 = [] ↔ ts = [] := by
  rw [enterMethods_eq]
  cases ts <;> simp [keysFrom]

theorem records_adoptMethods_ofStructure (k : StructureKey) (ms : List MethodKey) (l : Ledger) :
    (adoptMethods (.ofStructure k) ms l).2.records = l.records :=
  adoptMethods_preserves (P := fun l' => l'.records = l.records) (fun _ _ _ _ h => h) rfl

theorem records_enterStructures (ss : List StructureTree) (l : Ledger) :
    (enterStructures ss l).2.records = l.records := by
  induction ss generalizing l with
  | nil => rfl
  | cons s ss ih =>
    simp only [enterStructures, ih, enterStructure, enterMethods_eq,
      records_adoptMethods_ofStructure]
    rfl

theorem records_foldl_grantStructure (k : RecordKey) (ss : List StructureKey) (l : Ledger) :
    (ss.foldl (fun l s => l.grantStructure (.ofRecord k) s) l).records =
      l.records.modify k.index fun r => { r with structures := r.structures ++ ss } :=
  foldl_modify records (fun ss r => { r with structures := r.structures ++ ss }) (by simp) (by simp)
    (fun _ _ => rfl) ss l

/-- The ledger after a record was given structures and methods. -/
def granted (l : Ledger) (k : RecordKey) (ss : List StructureKey) (ms : List MethodKey) : Ledger :=
  ms.foldl (fun l m => l.grantMethod (.ofRecord k) m)
    (ss.foldl (fun l s => l.grantStructure (.ofRecord k) s) l)

theorem records_granted (l : Ledger) (r : Record) (ss : List StructureKey) (ms : List MethodKey) :
    ((l.addRecord r).2.granted ⟨l.records.length⟩ ss ms).records =
      l.records ++ [{ r with structures := r.structures ++ ss, methods := r.methods ++ ms }] := by
  rw [granted, records_foldl_grantMethod, records_foldl_grantStructure]
  change ((l.records ++ [r]).modify l.records.length _).modify l.records.length _ = _
  rw [modify_append_length, modify_append_length]

section Free

variable {k : RecordKey} {ss : List StructureKey} {ms : List MethodKey}
  (hss : ∀ s ∈ ss, (l.structureAt s).owner = none) (hms : ∀ m ∈ ms, (l.method m).owner = none)
include hss hms

/-- A record adopts structures and methods that belong to nobody. -/
theorem adopt_of_free :
    adoptMethods (.ofRecord k) ms (adoptStructures (.ofRecord k) ss l).2 =
      (none, l.granted k ss ms) ∧
      (adoptStructures (.ofRecord k) ss l).1 = none := by
  have hkept : (ss.foldl (fun l s => l.grantStructure (.ofRecord k) s) l).methods = l.methods :=
    foldl_keeps (f := fun l s => l.grantStructure (.ofRecord k) s) Ledger.methods
      (fun _ _ => rfl) ss l
  rw [adoptStructures_eq_foldl _ fun s hs => .inl (hss s hs), adoptMethods_eq_foldl]
  · exact ⟨rfl, rfl⟩
  · intro m hm
    rw [method, hkept]
    exact .inl (hms m hm)

theorem openRecord_of_free (path : Text) (layer : Layer) (language : Language)
    (target : Option Text) :
    l.openRecord path layer language target ss ms =
      (.ok ⟨l.records.length⟩,
        (l.addRecord { path, layer, language, target }).2.granted ⟨l.records.length⟩ ss ms) := by
  obtain ⟨hmethods, hstructures⟩ := adopt_of_free (k := ⟨l.records.length⟩)
    (l := (l.addRecord { path, layer, language, target }).2) hss hms
  rw [openRecord]
  simp only [addRecord] at hmethods hstructures ⊢
  generalize adoptStructures _ ss _ = p at hmethods hstructures ⊢
  obtain ⟨_, l₁⟩ := p
  cases hstructures
  simp only [hmethods]

end Free

section Record

variable (l : Ledger) (f : SourceFile) (layer : Layer) (target : Option Text)
  (structures : List StructureTree) (methods : List MethodTree)

theorem enterRecord_eq :
    let p := enterStructures structures l
    let q := enterMethods methods p.2
    l.enterRecord f layer target structures methods =
        (⟨q.2.records.length⟩,
          (q.2.addRecord { path := f.path, layer, language := f.language, target }).2.granted
          ⟨q.2.records.length⟩ p.1 q.1) ∧
      q.2.openRecord f.path layer f.language target p.1 q.1 =
        (.ok (l.enterRecord f layer target structures methods).1,
          (l.enterRecord f layer target structures methods).2) := by
  intro p q
  have hss : ∀ s ∈ p.1, (q.2.structureAt s).owner = none := by
    intro s hs
    have hkept : q.2.structures = p.2.structures :=
      congrArg (fun r => r.2.structures) (enterMethods_eq methods p.2)
    rw [structureAt, hkept]
    exact owner_of_mem_enterStructures structures l s hs
  have hms : ∀ m ∈ q.1, (q.2.method m).owner = none := owner_of_mem_enterMethods methods p.2
  have hadopt := (adopt_of_free (k := ⟨q.2.records.length⟩)
    (l := (q.2.addRecord { path := f.path, layer, language := f.language, target }).2) hss hms).1
  have hrecord : l.enterRecord f layer target structures methods =
      (⟨q.2.records.length⟩,
        (q.2.addRecord { path := f.path, layer, language := f.language, target }).2.granted
        ⟨q.2.records.length⟩ p.1 q.1) := congrArg (fun a => ((⟨q.2.records.length⟩ : RecordKey),
          a.2)) hadopt
  exact ⟨hrecord, by rw [hrecord, openRecord_of_free hss hms]⟩

theorem records_enterContents :
    (enterMethods methods (enterStructures structures l).2).2.records = l.records := by
  rw [enterMethods_eq]
  exact records_enterStructures structures l

theorem key_enterRecord :
    (l.enterRecord f layer target structures methods).1 = ⟨l.records.length⟩ := by
  rw [(enterRecord_eq l f layer target structures methods).1, records_enterContents]

theorem records_enterRecord :
    (l.enterRecord f layer target structures methods).2.records =
      l.records ++ [{ path := f.path, layer, language := f.language, target
                      structures := (enterStructures structures l).1
                      methods := (enterMethods methods (enterStructures structures l).2).1 }] := by
  rw [(enterRecord_eq l f layer target structures methods).1, records_granted,
    records_enterContents]
  rfl

theorem buildRecord_eq :
    l.buildRecord f layer target structures methods =
      .ok (l.enterRecord f layer target structures methods) := by
  rw [buildRecord, buildStructures_eq]
  simp only [bind, Except.bind, buildMethods_eq,
    (enterRecord_eq l f layer target structures methods).2]

end Record

theorem buildImports_eq (f : SourceFile) (targets : List Text) (l : Ledger) :
    buildImports f targets l = .ok (enterImports f targets l) := by
  induction targets generalizing l with
  | nil => rfl
  | cons target rest ih =>
    rw [buildImports, buildRecord_eq, enterImports]
    simp only [bind, Except.bind, ih]
    rfl

theorem buildUnless_eq (empty : Bool) (p : RecordKey × Ledger) (l : Ledger) :
    buildUnless empty (.ok p) l = .ok (if empty then ([], l) else ([p.1], p.2)) := by
  cases empty <;> rfl

theorem buildRecords_eq (l : Ledger) (f : SourceFile) (r : FileRecords) :
    l.buildRecords f r = .ok (l.enterRecords f r) := by
  rw [buildRecords, buildImports_eq]
  simp only [bind, Except.bind, buildRecord_eq, buildUnless_eq]
  rfl

end Ledger

end DependencyAtlas
