import DependencyAtlas.Proofs.Crawl.Isolation

namespace DependencyAtlas

namespace Crawler

/-- A file can be read, but its extraction fails for a call of something without a name. -/
def MeetsUnnamedCall (c : Crawler) (tree : FileTree) (path : Path) : Prop :=
  ∃ bytes, tree.read path = .ok bytes ∧
    (c.config.sourceFile path bytes).records c.tables c.config.analyze true = .error .unnamedCall

variable {c c' : Crawler} {tree : FileTree} {path : Path} {roots : List Path} {fault : CrawlFault}

theorem MeetsUnnamedCall.congr (h : c'.MeetsUnnamedCall tree path) (hfollows : Follows c c') :
    c.MeetsUnnamedCall tree path := by
  rw [MeetsUnnamedCall, hfollows.config, hfollows.tables] at h
  exact h

theorem not_meetsUnnamedCall (h : c.tables.Readable) (hcalls : c.tables.NamesCalls) :
    ¬c.MeetsUnnamedCall tree path := by
  rintro ⟨bytes, -, hrecords⟩
  rcases SourceFile.error_of_records h hrecords with ⟨line, hline⟩ | ⟨-, hunnamed⟩
  · cases hline
  · exact hunnamed hcalls

theorem processFile_eq_error_iff (h : c.tables.Readable) :
    (c.processFile tree path).1 = .error fault ↔
      fault = .nulCharacter ∧ tree.read path = .error .nulCharacter ∨
        fault = .extraction .unnamedCall ∧ c.MeetsUnnamedCall tree path := by
  rw [MeetsUnnamedCall]
  have hcase := processed_processFile c tree path
  generalize c.processFile tree path = result at hcase
  cases hcase with
  | refused hread => simp [hread, eq_comm]
  | unread hread hne => simp [hread, hne]
  | unnamed hread hrecords => simp [hread, hrecords]
  | @broken _ e hread hrecords hne =>
    rcases SourceFile.error_of_records h hrecords with ⟨line, rfl⟩ | ⟨rfl, -⟩
    · exact (hne _ _ rfl).elim
    · simp [hread, hrecords, eq_comm]
  | merged hread hrecords hadd => simp [hread, hrecords]

theorem fault_of_crawl (h : c.tables.Readable) (hfault : (c.crawl tree roots).1 = some fault) :
    fault = .nulCharacter ∨ fault = .extraction .unnamedCall ∧
    ∃ path, c.MeetsUnnamedCall tree path := by
  obtain ⟨root, -, c₁, hroot, hvisits⟩ := exists_of_crawlFrom_fault hfault
  obtain ⟨c₂, v, hlater, hvisit⟩ := exists_of_visitAll_fault hvisits
  have hfollows := hroot.trans hlater
  cases outcome_visit tree c₂ v with
  | refuse _ hrefused _ _ => exact .inl (Option.some.inj (hvisit.symm.trans hrefused))
  | analyze _ _ _ _ hanswer _ _ =>
    have hresult := hanswer.1
    rw [hvisit] at hresult
    rcases (processFile_eq_error_iff (hfollows.tables ▸ h)).1 hresult
      with ⟨hnul, -⟩ | ⟨hcall, hmeets⟩
    · exact .inl hnul
    · exact .inr ⟨hcall, v.path, hmeets.congr hfollows⟩
  | pass _ hnone _ _ => exact nomatch hnone.symm.trans hvisit
  | turnBack _ _ _ _ hnone _ _ => exact nomatch hnone.symm.trans hvisit
  | enter _ _ _ _ hnone _ _ => exact nomatch hnone.symm.trans hvisit

theorem read_ne_nul (h : path.NulFree) : tree.read path ≠ .error .nulCharacter := by
  have hlook := FileTree.look_ne_nul (t := tree) h.hasNul
  rw [FileTree.read]
  split
  · next e he =>
    intro hnul
    cases hnul
    exact hlook he
  · split <;> simp
  · simp
  · simp

theorem processFile_of_namesCalls (h : c.tables.Readable) (hcalls : c.tables.NamesCalls)
    (hpath : path.NulFree) :
    ∃ merged, (c.processFile tree path).1 = .ok merged := by
  cases hresult : (c.processFile tree path).1 with
  | ok merged => exact ⟨merged, rfl⟩
  | error fault =>
    rcases (processFile_eq_error_iff h).1 hresult with ⟨-, hread⟩ | ⟨-, hmeets⟩
    · exact (read_ne_nul hpath hread).elim
    · exact (not_meetsUnnamedCall h hcalls hmeets).elim

theorem crawl_of_namesCalls (h : c.tables.Readable) (hcalls : c.tables.NamesCalls)
    (hnames : ∀ e ∈ tree.entries, ∀ n ∈ e.1, '\x00' ∉ n) (hroots : ∀ root ∈ roots, root.NulFree) :
    (c.crawl tree roots).1 = none := by
  cases hfault : (c.crawl tree roots).1 with
  | none => rfl
  | some fault =>
    rcases fault_of_crawl h hfault with rfl | ⟨-, path, hmeets⟩
    · exact (crawlFrom_ne_nul hnames hroots _ _ hfault).elim
    · exact (not_meetsUnnamedCall h hcalls hmeets).elim

/-- With rules that can be read, extracting a file fails exactly where a structure has no name or a
line inside a method calls something without a name, and only the latter breaks a crawl off, but for
paths that no file can have; so that with rules that name what is called a crawl goes on after every
file. -/
theorem crawl_broken_off_only_by_unnamedCall (c : Crawler) (h : c.tables.Readable) (tree : FileTree)
    (roots : List Path) :
    (∀ f : SourceFile, ∃ sms ms, f.matchers c.tables .structures = .ok sms ∧
      f.matchers c.tables .methods = .ok ms ∧
      (∃ targets, f.imports c.tables = .ok targets) ∧
      (∀ e, f.structures c.tables = .error e ↔
        f.FirstFlaw ms (Text.lines f.text) (declaredStructures sms (Text.lines f.text)) e) ∧
      ∀ e, f.methods c.tables = .error e ↔ e = .unnamedCall ∧
        f.HasUnnamedCall ms (Text.lines f.text).zipIdx) ∧
    (∀ path fault, (c.processFile tree path).1 = .error fault ↔
      fault = .nulCharacter ∧ tree.read path = .error .nulCharacter ∨
        fault = .extraction .unnamedCall ∧ c.MeetsUnnamedCall tree path) ∧
    (∀ fault, (c.crawl tree roots).1 = some fault →
      fault = .nulCharacter ∨ fault = .extraction .unnamedCall ∧
      ∃ path, c.MeetsUnnamedCall tree path) ∧
    (c.tables.NamesCalls →
      (∀ f : SourceFile, (∃ methods, f.methods c.tables = .ok methods) ∧
        ∀ e, f.structures c.tables = .error e → ∃ line, e = .unnamedStructure f.path line) ∧
      (∀ path, path.NulFree → ∃ merged, (c.processFile tree path).1 = .ok merged) ∧
      ((∀ e ∈ tree.entries, ∀ n ∈ e.1, '\x00' ∉ n) → (∀ root ∈ roots, root.NulFree) →
        (c.crawl tree roots).1 = none)) := by
  refine ⟨fun f => ?_, fun path fault => processFile_eq_error_iff h, fun fault => fault_of_crawl h,
    fun hcalls => ?_⟩
  · obtain ⟨sms, hsms⟩ := SourceFile.matchers_of_readable h f .structures
    obtain ⟨ms, hms⟩ := SourceFile.matchers_of_readable h f .methods
    exact ⟨sms, ms, hsms, hms, SourceFile.imports_of_readable h f,
      fun e => SourceFile.structures_eq_error_iff hsms hms,
      fun e => SourceFile.methods_eq_error_iff hms⟩
  · refine ⟨fun f => ⟨?_, fun e hfail => ?_⟩, fun path => processFile_of_namesCalls h hcalls,
      fun hnames hroots => crawl_of_namesCalls h hcalls hnames hroots⟩
    · cases hmethods : f.methods c.tables with
      | ok methods => exact ⟨methods, rfl⟩
      | error e => exact ((SourceFile.error_of_methods h hmethods).2 hcalls).elim
    · rcases SourceFile.error_of_structures h hfail with hline | ⟨-, hunnamed⟩
      · exact hline
      · exact (hunnamed hcalls).elim

def definitionRule : Rule where
  kind := "definition".toList
  source := .written "^\\s*def\\s+(?P<name>\\w+)".toList

def callNamingRules : RuleTables :=
  [(.python, [(.structures, [⟨"class".toList, .written "^class".toList⟩]),
    (.methods, [definitionRule, ⟨"call".toList, .written "^\\s*(?P<name>go)".toList⟩])])]

def laxCallRules : RuleTables :=
  [(.python,
    [(.methods, [definitionRule, ⟨"call".toList, .written "^\\s*go(?P<name>\\w*)".toList⟩])])]

/-- Two files, of which the first has a structure and a call. -/
def goingTree : FileTree where
  entries :=
    [(["a.py"].map String.toList, .file "class A:\n    def f():\n        go\n".toUTF8.toList),
      (["b.py"].map String.toList, .file "def g():\n    pass\n".toUTF8.toList)]

def goingRoots : CrawlConfig where
  roots := [.ofText "a.py".toList, .ofText "b.py".toList]

theorem crawl_of_callNamingRules :
    callNamingRules.Readable ∧ callNamingRules.NamesCalls ∧
      (processFile { config := goingRoots, tables := callNamingRules } goingTree
        (.ofText "a.py".toList)).1 = .ok false ∧
      (crawl { config := goingRoots, tables := callNamingRules } goingTree goingRoots.roots).1 =
        none := by
  have hreadable : callNamingRules.Readable := by
    intro language layer
    cases language <;> cases layer <;> decide +kernel
  have hcalls : callNamingRules.NamesCalls := by
    apply RuleTables.namesCalls_of_names
    intro language
    cases language <;> decide +kernel
  have hroots : ∀ root ∈ goingRoots.roots, root.NulFree := by
    intro root hroot
    apply Path.nulFree_of_hasNul
    revert root
    decide +kernel
  obtain ⟨-, -, -, hgoes⟩ := crawl_broken_off_only_by_unnamedCall
    { config := goingRoots, tables := callNamingRules } hreadable goingTree goingRoots.roots
  exact ⟨hreadable, hcalls, by decide +kernel, (hgoes hcalls).2.2 (by decide +kernel) hroots⟩

theorem crawl_broken_off_with_laxCallRules :
    laxCallRules.Readable ∧
      SourceFile.methods ⟨"a.py".toList, .python,
        "class A:\n    def f():\n        go\n".toList⟩ laxCallRules =
        .error .unnamedCall ∧
      ∃ c, crawl { config := goingRoots, tables := laxCallRules } goingTree goingRoots.roots =
          (some (.extraction .unnamedCall), c) ∧
        c.journal = [.analyzed ["a.py".toList] (.ofText "a.py".toList) false] := by
  have hreadable : laxCallRules.Readable := by
    intro language layer
    cases language <;> cases layer <;> decide +kernel
  have hvisit : (visitWithin goingTree 1 [.start (.ofText "a.py".toList)]
      (announce { config := goingRoots, tables := laxCallRules } 0 2)).map
        (fun r => (r.1, r.2.journal)) =
        some (some (.extraction .unnamedCall),
          [.analyzed ["a.py".toList] (.ofText "a.py".toList) false]) := by
    decide +kernel
  have hmethods :
      (SourceFile.methods ⟨"a.py".toList, .python, "class A:\n    def f():\n        go\n".toList⟩
      laxCallRules).map (fun _ => ()) = .error .unnamedCall := by
    decide +kernel
  obtain ⟨⟨fault, c⟩, hwithin, hbroken⟩ := Option.map_eq_some_iff.1 hvisit
  obtain ⟨rfl, hjournal⟩ := Prod.mk.inj hbroken
  refine ⟨hreadable, ?_, c, crawlFrom_cons_of_fault (visitAll_of_visitWithin hwithin) _, hjournal⟩
  cases hfound : SourceFile.methods ⟨"a.py".toList, .python,
    "class A:\n    def f():\n        go\n".toList⟩
      laxCallRules with
  | error e =>
    rw [hfound] at hmethods
    cases hmethods
    rfl
  | ok ms =>
    rw [hfound] at hmethods
    cases hmethods

end Crawler

end DependencyAtlas
