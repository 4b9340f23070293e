import DependencyAtlas.Proofs.Crawl.Run
import DependencyAtlas.Proofs.SourceFile.Faults

namespace DependencyAtlas

namespace Record

def ofImport (f : SourceFile) (target : Text) : Record :=
  { path := f.path, layer := .modules, language := f.language, target := some target }

def Spent (r : Record) : Prop :=
  r.consumed = true ∧ r.structures = [] ∧ r.methods = []

end Record

namespace Ledger

def releaseAll : List RecordKey → Ledger → Option LedgerFault × Ledger
  | [], l => (none, l)
  | k :: ks, l =>
    match l.releaseRecord k with
    | (.error fault, l) => (some fault, l)
    | (.ok _, l) => releaseAll ks l

variable {l : Ledger}

theorem enterImports_eq (f : SourceFile) (targets : List Text) (l : Ledger) :
    enterImports f targets l =
      ((List.range' l.records.length targets.length).map RecordKey.mk,
        { l with records := l.records ++ targets.map (Record.ofImport f) }) := by
  induction targets generalizing l with
  | nil => simp [enterImports]
  | cons target rest ih =>
    have hfirst : l.enterRecord f .modules (some target) [] [] =
        (⟨l.records.length⟩, { l with records := l.records ++ [Record.ofImport f target] }) := rfl
    rw [enterImports, hfirst]
    simp only [ih, List.length_append, List.length_singleton, List.append_assoc]
    rfl

theorem releaseRecord_of_empty {before after : List Record} {r : Record}
    (hl : l.records = before ++ r :: after)
    (hr : r.consumed = false ∧ r.structures = [] ∧ r.methods = []) :
    l.releaseRecord ⟨before.length⟩ =
      (.ok {}, { l with records := before ++ { r with consumed := true } :: after }) := by
  obtain ⟨hconsumed, hstructures, hmethods⟩ := hr
  have hrecord : l.record ⟨before.length⟩ = r := by simp [record, hl]
  have hspent :
      l.records.modify before.length
        (fun r => { r with structures := [], methods := [], consumed := true }) =
      before ++ { r with consumed := true } :: after := by
    rw [hl, modify_append_length, ← hstructures, ← hmethods]
  rw [← hspent, releaseRecord, hrecord, hconsumed, hstructures, hmethods]
  simp only [contentTasks, List.map_nil, List.append_nil, plan, planFrom]
  rfl

theorem releaseAll_of_empty {before rs : List Record} (hl : l.records = before ++ rs)
    (hrs : ∀ r ∈ rs, r.consumed = false ∧ r.structures = [] ∧ r.methods = []) :
    releaseAll ((List.range' before.length rs.length).map RecordKey.mk) l =
      (none, { l with records := before ++ rs.map fun r => { r with consumed := true } }) := by
  induction rs generalizing l before with
  | nil =>
    rw [List.map_nil, ← hl]
    rfl
  | cons r rs ih =>
    obtain ⟨hr, hrs⟩ := List.forall_mem_cons.1 hrs
    have hnext :
        ({ l with records := before ++ { r with consumed := true } :: rs } : Ledger).records =
        (before ++ [{ r with consumed := true }]) ++ rs := (List.append_cons ..)
    have hrest := ih hnext hrs
    rw [List.length_append, List.length_singleton] at hrest
    rw [List.length_cons, List.range'_succ, List.map_cons, releaseAll, releaseRecord_of_empty hl hr]
    simp only [hrest, List.append_assoc, List.singleton_append, List.map_cons]

end Ledger

/-- How far the records of a file have been entered: the keys of those that are complete, and why
the extraction has failed, if it has. -/
structure Stage where
  failure : Option ExtractError := none
  keys : List RecordKey := []
  ledger : Ledger

namespace Stage

def next {α : Type} (s : Stage) (found : Except ExtractError α)
    (enter : α → Ledger → List RecordKey × Ledger) : Stage :=
  match s.failure, found with
  | some _, _ => s
  | none, .error e => { s with failure := some e }
  | none, .ok x => { s with keys := s.keys ++ (enter x s.ledger).1, ledger := (enter x s.ledger).2 }

def ofFile (f : SourceFile) (tables : RuleTables) (layers : LayerChoice) (l : Ledger) : Stage :=
  (({ ledger := l : Stage }.next (ifWanted layers.modules (f.imports tables))
    (Ledger.enterImports f)).next
    (ifWanted layers.structures (f.explainedStructures tables true)) fun ss l =>
      if ss.isEmpty then ([], l)
      else ([(l.enterRecord f .structures none ss []).1],
        (l.enterRecord f .structures none ss []).2)).next
    (ifWanted layers.methods (f.methods tables)) fun ms l =>
      if ms.isEmpty then ([], l)
      else ([(l.enterRecord f .methods none [] ms).1], (l.enterRecord f .methods none [] ms).2)

variable {f : SourceFile} {t : RuleTables} {layers : LayerChoice} (l : Ledger)

theorem ofFile_of_ok {r : FileRecords} (h : f.records t layers true = .ok r) :
    ofFile f t layers l = { keys := (l.enterRecords f r).1, ledger := (l.enterRecords f r).2 } := by
  cases SourceFile.recorded_of_records h with
  | all himports hstructures hmethods =>
    rw [ofFile, himports, hstructures, hmethods]
    rfl

theorem failure_ofFile {e : ExtractError} (h : f.records t layers true = .error e) :
    (ofFile f t layers l).failure = some e := by
  cases SourceFile.recorded_of_records h with
  | imports himports =>
    rw [ofFile, himports]
    rfl
  | structures himports hstructures =>
    rw [ofFile, himports, hstructures]
    rfl
  | methods himports hstructures hmethods =>
    rw [ofFile, himports, hstructures, hmethods]
    rfl

theorem ofFile_of_unnamedStructure {path : Text} {line : Nat}
    (h : f.records t layers true = .error (.unnamedStructure path line)) :
    ∃ targets, (ofFile f t layers l).keys = (Ledger.enterImports f targets l).1 ∧
      (ofFile f t layers l).ledger = (Ledger.enterImports f targets l).2 := by
  cases SourceFile.recorded_of_records h with
  | imports himports =>
    obtain ⟨-, himports⟩ := ifWanted_eq_error_iff.1 himports
    obtain ⟨p, hp⟩ := SourceFile.badPattern_of_imports himports
    cases hp
  | @structures imports _ himports hstructures =>
    refine ⟨imports, ?_⟩
    rw [ofFile, himports, hstructures]
    exact ⟨rfl, rfl⟩
  | methods himports hstructures hmethods =>
    obtain ⟨-, hmethods⟩ := ifWanted_eq_error_iff.1 hmethods
    exact (SourceFile.methods_ne_unnamedStructure hmethods).elim

theorem releaseAll_of_unnamedStructure {path : Text} {line : Nat}
    (h : f.records t layers true = .error (.unnamedStructure path line)) :
    ∃ spent, Ledger.releaseAll (ofFile f t layers l).keys (ofFile f t layers l).ledger =
      (none, { l with records := l.records ++ spent }) ∧ ∀ r ∈ spent, r.Spent := by
  obtain ⟨targets, hkeys, hledger⟩ := ofFile_of_unnamedStructure l h
  refine ⟨(targets.map (Record.ofImport f)).map fun r => { r with consumed := true }, ?_, ?_⟩
  · rw [hkeys, hledger, Ledger.enterImports_eq, ← List.length_map (Record.ofImport f)]
    apply Ledger.releaseAll_of_empty rfl
    intro r hr
    obtain ⟨target, -, rfl⟩ := List.mem_map.1 hr
    exact ⟨rfl, rfl, rfl⟩
  · intro r hr
    obtain ⟨s, hs, rfl⟩ := List.mem_map.1 hr
    obtain ⟨target, -, rfl⟩ := List.mem_map.1 hs
    exact ⟨rfl, rfl, rfl⟩

end Stage

namespace Atlas

/-- The second graph is the first, beside which there are spent records. -/
def LeavesSpent (a b : Atlas) : Prop :=
  ∃ spent, b = { a with ledger := { a.ledger with records := a.ledger.records ++ spent } } ∧
    ∀ r ∈ spent, r.Spent

theorem LeavesSpent.refl (a : Atlas) : a.LeavesSpent a := by
  refine ⟨[], ?_, fun r hr => nomatch hr⟩
  rw [List.append_nil]

def addFiles : List (SourceFile × FileRecords) → Atlas → Option LedgerFault × Atlas
  | [], a => (none, a)
  | (f, r) :: rest, a =>
    match a.addFile f r with
    | (some fault, a) => (some fault, a)
    | (none, a) => addFiles rest a

theorem addFiles_concat {files : List (SourceFile × FileRecords)} {f : SourceFile} {r : FileRecords}
    {a b c : Atlas} (h : addFiles files a = (none, b)) (hr : b.addFile f r = (none, c)) :
    addFiles (files ++ [(f, r)]) a = (none, c) := by
  induction files generalizing a with
  | nil =>
    cases h
    rw [List.nil_append, addFiles, hr]
    rfl
  | cons file files ih =>
    obtain ⟨g, s⟩ := file
    rw [addFiles] at h
    rw [List.cons_append, addFiles]
    rcases hg : a.addFile g s with ⟨_ | fault, a'⟩
    · rw [hg] at h
      exact ih h
    · rw [hg] at h
      cases h

end Atlas

namespace Crawler

/-- Analyzes a file as `processFile` does, but enters its records while they are extracted, and
releases them when a structure has no name. -/
def processInStages (c : Crawler) (tree : FileTree) (path : Path) :
    Except CrawlFault Bool × Atlas :=
  match tree.read path with
  | .error .nulCharacter => (.error .nulCharacter, c.atlas)
  | .error _ => (.ok false, c.atlas)
  | .ok bytes =>
    let s := Stage.ofFile (c.config.sourceFile path bytes) c.tables c.config.analyze c.atlas.ledger
    match s.failure with
    | some (.unnamedStructure _ _) =>
      match Ledger.releaseAll s.keys s.ledger with
      | (some fault, ledger) => (.error (.ledger fault), { c.atlas with ledger })
      | (none, ledger) => (.ok false, { c.atlas with ledger })
    | some e => (.error (.extraction e), { c.atlas with ledger := s.ledger })
    | none =>
      match Atlas.mergeAll s.keys { c.atlas with ledger := s.ledger } with
      | (some fault, atlas) => (.error (.ledger fault), atlas)
      | (none, atlas) => (.ok true, atlas)

/-- What a file yields for a crawl: nothing if it fails. -/
def contribution? (c : Crawler) (tree : FileTree) (path : Path) :
    Option (SourceFile × FileRecords) :=
  match tree.read path with
  | .error _ => none
  | .ok bytes =>
    match (c.config.sourceFile path bytes).records c.tables c.config.analyze true with
    | .error _ => none
    | .ok r => some (c.config.sourceFile path bytes, r)

inductive Processed (c : Crawler) (tree : FileTree)
    (path : Path) : Except CrawlFault Bool × Atlas → Prop where
  | refused :
      tree.read path = .error .nulCharacter → Processed c tree path (.error .nulCharacter, c.atlas)
  | unread {e : PathError} :
      tree.read path = .error e → e ≠ .nulCharacter → Processed c tree path (.ok false, c.atlas)
  | unnamed {bytes : List UInt8} {file : Text} {line : Nat} :
      tree.read path = .ok bytes →
      (c.config.sourceFile path bytes).records c.tables c.config.analyze true =
        .error (.unnamedStructure file line) →
      Processed c tree path (.ok false, c.atlas)
  | broken {bytes : List UInt8} {e : ExtractError} :
      tree.read path = .ok bytes →
      (c.config.sourceFile path bytes).records c.tables c.config.analyze true = .error e →
      (∀ file line, e ≠ .unnamedStructure file line) →
      Processed c tree path (.error (.extraction e), c.atlas)
  | merged {bytes : List UInt8} {r : FileRecords} {atlas : Atlas} :
      tree.read path = .ok bytes →
      (c.config.sourceFile path bytes).records c.tables c.config.analyze true = .ok r →
      c.atlas.addFile (c.config.sourceFile path bytes) r = (none, atlas) →
      Processed c tree path (.ok true, atlas)

variable {c c' : Crawler} {tree : FileTree} {path : Path}

theorem processed_processFile (c : Crawler) (tree : FileTree) (path : Path) :
    Processed c tree path (c.processFile tree path) := by
  rw [processFile]
  cases hread : tree.read path with
  | error e =>
    cases e with
    | nulCharacter => exact .refused hread
    | _ => exact .unread hread (by decide)
  | ok bytes =>
    cases hrecords : (c.config.sourceFile path bytes).records c.tables c.config.analyze true with
    | error e =>
      simp only [hrecords]
      cases e with
      | unnamedStructure file line => exact .unnamed hread hrecords
      | badPattern p => exact .broken hread hrecords (by simp)
      | unnamedCall => exact .broken hread hrecords (by simp)
    | ok r =>
      have hadd : c.atlas.addFile (c.config.sourceFile path bytes) r =
          (none, (c.atlas.addFile (c.config.sourceFile path bytes) r).2) :=
        Prod.ext (c.atlas.addFile_fault _ (SourceFile.imports_ne_nil_of_records hrecords)) rfl
      simp only [hrecords]
      rw [hadd]
      exact .merged hread hrecords hadd

theorem processFile_cases (c : Crawler) (tree : FileTree) (path : Path) :
    (∃ f r, c.contribution? tree path = some (f, r) ∧ (c.processFile tree path).1 = .ok true ∧
      c.atlas.addFile f r = (none, (c.processFile tree path).2)) ∨
    c.contribution? tree path = none ∧ (c.processFile tree path).1 ≠ .ok true ∧
      (c.processFile tree path).2 = c.atlas := by
  have hcase := processed_processFile c tree path
  generalize c.processFile tree path = result at hcase
  rw [contribution?]
  cases hcase with
  | refused hread => simp [hread]
  | unread hread _ => simp [hread]
  | unnamed hread hrecords => simp [hread, hrecords]
  | broken hread hrecords _ => simp [hread, hrecords]
  | merged hread hrecords hadd => simp [hread, hrecords, hadd]

theorem processFile_eq_ok_true_iff :
    (c.processFile tree path).1 = .ok true ↔ (c.contribution? tree path).isSome := by
  rcases processFile_cases c tree path with ⟨f, r, hyield, htrue, -⟩ | ⟨hyield, hfalse, -⟩
  · simp [hyield, htrue]
  · simp [hyield, hfalse]

theorem processInStages_spec :
    (c.processInStages tree path).1 = (c.processFile tree path).1 ∧
      ((c.processFile tree path).1 = .ok true →
        (c.processInStages tree path).2 = (c.processFile tree path).2) ∧
      ((c.processFile tree path).1 = .ok false →
        (c.processFile tree path).2 = c.atlas ∧
        c.atlas.LeavesSpent (c.processInStages tree path).2) := by
  have hcase := processed_processFile c tree path
  generalize c.processFile tree path = result at hcase ⊢
  cases hcase with
  | refused hread =>
    rw [processInStages, hread]
    exact ⟨rfl, fun h => (nomatch h), fun h => (nomatch h)⟩
  | @unread e hread hne =>
    rw [processInStages, hread]
    cases e with
    | nulCharacter => exact (hne rfl).elim
    | _ => exact ⟨rfl, fun h => (nomatch h), fun _ => ⟨rfl, .refl _⟩⟩
  | unnamed hread hrecords =>
    obtain ⟨spent, hrelease, hspent⟩ := Stage.releaseAll_of_unnamedStructure c.atlas.ledger hrecords
    rw [processInStages, hread]
    simp only [Stage.failure_ofFile _ hrecords, hrelease]
    exact ⟨trivial, fun h => (nomatch h), fun _ => ⟨trivial, spent, rfl, hspent⟩⟩
  | @broken _ e hread hrecords hne =>
    rw [processInStages, hread]
    simp only [Stage.failure_ofFile _ hrecords]
    cases e with
    | unnamedStructure file line => exact (hne file line rfl).elim
    | badPattern p => exact ⟨trivial, fun h => (nomatch h), fun h => (nomatch h)⟩
    | unnamedCall => exact ⟨trivial, fun h => (nomatch h), fun h => (nomatch h)⟩
  | merged hread hrecords hadd =>
    rw [Atlas.addFile] at hadd
    rw [processInStages, hread]
    simp only [Stage.ofFile_of_ok _ hrecords, hadd]
    exact ⟨trivial, fun _ => trivial, fun h => (nomatch h)⟩

end Crawler

def CrawlEvent.mergedPath? : CrawlEvent → Option Path
  | .analyzed _ path true => some path
  | _ => none

namespace Crawler

variable {c c' c'' : Crawler} {tree : FileTree} {path : Path} {events : List CrawlEvent}

/-- What the files yielded that were merged, in the order of the visits; the latest event comes
first. -/
def contributions (c : Crawler) (tree : FileTree) (events : List CrawlEvent) :
    List (SourceFile × FileRecords) :=
  events.reverse.filterMap fun e => e.mergedPath?.bind (c.contribution? tree)

/-- With these events one crawler has become another: an event says whether its file was merged, and
the graph has got what these files yielded. -/
structure Recounts (tree : FileTree) (c c' : Crawler) (events : List CrawlEvent) : Prop where
  config : c'.config = c.config
  tables : c'.tables = c.tables
  journal : c'.journal = events ++ c.journal
  merged : ∀ place path merged, .analyzed place path merged ∈ events →
    merged = (c.contribution? tree path).isSome
  atlas : Atlas.addFiles (c.contributions tree events) c.atlas = (none, c'.atlas)

theorem contribution?_congr (hconfig : c'.config = c.config) (htables : c'.tables = c.tables) :
    c'.contribution? tree path = c.contribution? tree path := by
  rw [contribution?, contribution?, hconfig, htables]

theorem Recounts.refl (tree : FileTree) (c : Crawler) : Recounts tree c c [] :=
  ⟨rfl, rfl, rfl, fun _ _ _ h => (nomatch h), rfl⟩

theorem Recounts.unchanged (h : Recounts tree c c' events) (hc : Unchanged c' c'') :
    Recounts tree c c'' events :=
  ⟨hc.config.trans h.config, hc.tables.trans h.tables, hc.journal.trans h.journal, h.merged,
    hc.atlas ▸ h.atlas⟩

theorem contributions_cons (e : CrawlEvent) :
    c.contributions tree (e :: events) =
      c.contributions tree events ++ (e.mergedPath?.bind (c.contribution? tree)).toList := by
  rw [contributions, contributions, List.reverse_cons, List.filterMap_append]
  congr 1

theorem Recounts.list (h : Recounts tree c c' events) {place : Location} {p : Path}
    {visited : List Location} {processed directories : Nat}
    (hc : Becomes c' c'' c'.atlas visited (.listed place p :: c'.journal) processed directories) :
    Recounts tree c c'' (.listed place p :: events) where
  config := hc.config.trans h.config
  tables := hc.tables.trans h.tables
  journal := by rw [hc.journal, h.journal, List.cons_append]
  merged q path merged hmem := by
    rcases List.mem_cons.1 hmem with he | hmem
    · cases he
    · exact h.merged q path merged hmem
  atlas := by
    rw [contributions_cons, hc.atlas, ← h.atlas]
    exact congrArg (Atlas.addFiles · c.atlas) (List.append_nil _)

theorem Recounts.analyze (h : Recounts tree c c' events) {merged : Bool} {place : Location}
    {visited : List Location} {processed directories : Nat}
    (hmerged : merged = true ↔ (c'.processFile tree path).1 = .ok true)
    (hc : Becomes c' c'' (c'.processFile tree path).2 visited
      (.analyzed place path merged :: c'.journal) processed directories) :
    Recounts tree c c'' (.analyzed place path merged :: events) where
  config := hc.config.trans h.config
  tables := hc.tables.trans h.tables
  journal := by rw [hc.journal, h.journal, List.cons_append]
  merged q path' merged' hmem := by
    rcases List.mem_cons.1 hmem with he | hmem
    · cases he
      rw [processFile_eq_ok_true_iff, contribution?_congr h.config h.tables] at hmerged
      exact Bool.eq_iff_iff.2 hmerged
    · exact h.merged q path' merged' hmem
  atlas := by
    rw [contributions_cons, hc.atlas]
    rcases processFile_cases c' tree path with ⟨f, r, hyield, htrue, hadd⟩ | ⟨-, hfalse, hatlas⟩
    · rw [contribution?_congr h.config h.tables] at hyield
      rw [hmerged.2 htrue, CrawlEvent.mergedPath?, Option.bind_some, hyield]
      exact Atlas.addFiles_concat h.atlas hadd
    · rw [Bool.eq_false_iff.2 (mt hmerged.1 hfalse), hatlas, ← h.atlas]
      exact congrArg (Atlas.addFiles · c.atlas) (List.append_nil _)

theorem Recounts.visit (h : Recounts tree c c' events) (v : Visit) :
    ∃ events, Recounts tree c (c'.visit tree v).crawler events := by
  cases outcome_visit tree c' v with
  | refuse _ _ hc _ => exact ⟨events, h.unchanged hc⟩
  | pass _ _ hc _ => exact ⟨events, h.unchanged hc⟩
  | analyze merged _ _ _ hanswer hc _ =>
    obtain ⟨hresult, hnone⟩ := hanswer
    refine ⟨_, h.analyze ?_ hc⟩
    rw [hresult]
    cases hfault : (c'.visit tree v).fault with
    | none => simp
    | some fault =>
      -- the visit is broken off, so that the file has not been merged
      have hfalse : merged ≠ true := fun htrue => nomatch hfault.symm.trans (hnone htrue)
      simp [hfalse]
  | turnBack _ _ _ _ _ hc _ =>
    exact ⟨events, hc.config.trans h.config, hc.tables.trans h.tables, hc.journal.trans h.journal,
      h.merged, hc.atlas ▸ h.atlas⟩
  | enter _ _ _ _ _ hc _ => exact ⟨_, h.list hc⟩

theorem recounts_crawl (c : Crawler) (tree : FileTree) (roots : List Path) :
    ∃ events, Recounts tree c (c.crawl tree roots).2 events := by
  apply crawlFrom_induction (P := fun c' => ∃ events, Recounts tree c c' events)
  · rintro c' v ⟨events, h⟩
    exact h.visit v
  · rintro c' done outOf ⟨events, h⟩
    exact ⟨events, h.unchanged (unchanged_announce c' done outOf)⟩
  · exact ⟨[], .refl tree c⟩

/-- Whatever the rules and the settings: a file that fails leaves the graph as it was, also if its
records are entered as they are extracted; and a crawl leaves the graph that comes of adding, in the
order of the visits, what the files yielded that did not fail. -/
theorem failed_files_leave_no_trace (c : Crawler) (tree : FileTree) (roots : List Path) :
    (∀ path, ((c.processFile tree path).1 = .ok true ↔ (c.contribution? tree path).isSome) ∧
      (c.processInStages tree path).1 = (c.processFile tree path).1 ∧
      ((c.processFile tree path).1 = .ok true →
        (c.processInStages tree path).2 = (c.processFile tree path).2) ∧
      ((c.processFile tree path).1 = .ok false →
        (c.processFile tree path).2 = c.atlas ∧
        c.atlas.LeavesSpent (c.processInStages tree path).2)) ∧
    ∃ events, (c.crawl tree roots).2.journal = events ++ c.journal ∧
      (∀ place path merged, .analyzed place path merged ∈ events →
        merged = (c.contribution? tree path).isSome) ∧
      Atlas.addFiles (c.contributions tree events) c.atlas =
        (none, (c.crawl tree roots).2.atlas) := by
  obtain ⟨events, h⟩ := recounts_crawl c tree roots
  exact ⟨fun path => ⟨processFile_eq_ok_true_iff, processInStages_spec⟩, events, h.journal,
    h.merged, h.atlas⟩

end Crawler

end DependencyAtlas
