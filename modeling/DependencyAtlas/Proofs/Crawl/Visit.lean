import DependencyAtlas.Crawl.Basic
import DependencyAtlas.Proofs.FileTree.Lookup
import DependencyAtlas.Proofs.Graph.AddFile
import DependencyAtlas.Proofs.SourceFile.Extraction

namespace DependencyAtlas

def Visit.start (root : Path) : Visit :=
  { path := root, byName := true }

namespace Crawler

/-- What a visit leads to is dealt with: it has been visited, unless it is nothing to visit. -/
def Settled (tree : FileTree) (config : CrawlConfig) (visited : List Location) (v : Visit) : Prop :=
  (∀ place, tree.look v.path = .ok (place, .directory) → v.path.name ∉ config.skipDirs →
    place ∈ visited) ∧
    ∀ place bytes, tree.look v.path = .ok (place, .file bytes) →
      config.wants v.path v.byName = true → place ∈ visited

/-- A crawler becomes another with the same settings and rules, and with this found and done so
far. -/
structure Becomes (c c' : Crawler) (atlas : Atlas) (visited : List Location)
    (journal : List CrawlEvent) (processed directories : Nat) : Prop where
  config : c'.config = c.config
  tables : c'.tables = c.tables
  atlas : c'.atlas = atlas
  visited : c'.visited = visited
  journal : c'.journal = journal
  processed : c'.stats.processed = processed
  directories : c'.stats.directories = directories

/-- Two crawlers that differ in no more than what they have passed over, failed at and announced. -/
def Unchanged (c c' : Crawler) : Prop :=
  Becomes c c' c.atlas c.visited c.journal c.stats.processed c.stats.directories

/-- What a visit can come to. -/
inductive Outcome (tree : FileTree) (c : Crawler) (v : Visit) (r : Visited) : Prop where
  | refuse :
      v.path.hasNul = true → r.fault = some .nulCharacter → Unchanged c r.crawler → r.next = [] →
      Outcome tree c v r
  | pass :
      Settled tree c.config c.visited v → r.fault = none → Unchanged c r.crawler → r.next = [] →
      Outcome tree c v r
  | analyze (merged : Bool) {place : Location} {bytes : List UInt8} :
      tree.look v.path = .ok (place, .file bytes) → c.config.wants v.path v.byName = true →
      place ∉ c.visited →
      (c.processFile tree v.path).1 = r.fault.elim (.ok merged) .error ∧
        (merged = true → r.fault = none) →
      Becomes c r.crawler (c.processFile tree v.path).2 (place :: c.visited)
        (.analyzed place v.path merged :: c.journal) (c.stats.processed + merged.toNat)
        c.stats.directories →
      r.next = [] → Outcome tree c v r
  | turnBack {place : Location} :
      tree.look v.path = .ok (place, .directory) → v.path.name ∉ c.config.skipDirs →
      place ∉ c.visited → c.config.tooDeep v.depth = true ∨ place ∈ tree.closed → r.fault = none →
      Becomes c r.crawler c.atlas (place :: c.visited) c.journal c.stats.processed
        c.stats.directories →
      r.next = [] → Outcome tree c v r
  | enter {place : Location} :
      tree.look v.path = .ok (place, .directory) → v.path.name ∉ c.config.skipDirs →
      place ∉ c.visited → c.config.tooDeep v.depth = false ∧ place ∉ tree.closed → r.fault = none →
      Becomes c r.crawler c.atlas (place :: c.visited) (.listed place v.path :: c.journal)
        c.stats.processed (c.stats.directories + 1) →
      r.next = childrenOf tree v place → Outcome tree c v r

variable {tree : FileTree} {config : CrawlConfig} {visited visited' : List Location}
  {c c' : Crawler} {v : Visit} {place : Location} {bytes : List UInt8} {r : Visited}

theorem Settled.mono (h : Settled tree config visited v) (hsub : visited ⊆ visited') :
    Settled tree config visited' v :=
  ⟨fun place hlook hname => hsub (h.1 place hlook hname),
    fun place bytes hlook hwant => hsub (h.2 place bytes hlook hwant)⟩

theorem settled_of_directory (hlook : tree.look v.path = .ok (place, .directory))
    (h : v.path.name ∉ config.skipDirs → place ∈ visited) : Settled tree config visited v := by
  refine ⟨fun q hq hname => ?_, fun q bytes hq => ?_⟩
  · cases hlook.symm.trans hq
    exact h hname
  · exact nomatch hlook.symm.trans hq

theorem settled_of_file (hlook : tree.look v.path = .ok (place, .file bytes))
    (h : config.wants v.path v.byName = true → place ∈ visited) :
    Settled tree config visited v := by
  refine ⟨fun q hq => ?_, fun q bytes hq hwants => ?_⟩
  · exact nomatch hlook.symm.trans hq
  · cases hlook.symm.trans hq
    exact h hwants

theorem Unchanged.refl (c : Crawler) : Unchanged c c :=
  ⟨rfl, rfl, rfl, rfl, rfl, rfl, rfl⟩

theorem unchanged_countSkipped (c : Crawler) : Unchanged c c.countSkipped :=
  ⟨rfl, rfl, rfl, rfl, rfl, rfl, rfl⟩

theorem unchanged_countFailed (c : Crawler) : Unchanged c c.countFailed :=
  ⟨rfl, rfl, rfl, rfl, rfl, rfl, rfl⟩

theorem outcome_visitFile (hlook : tree.look v.path = .ok (place, .file bytes)) :
    Outcome tree c v (c.visitFile tree v place) := by
  unfold visitFile
  cases hwants : c.config.wants v.path v.byName with
  | false =>
    exact .pass (settled_of_file hlook fun h => nomatch hwants.symm.trans h) rfl
      (unchanged_countSkipped c) rfl
  | true =>
    by_cases hm : place ∈ c.visited
    · simp only [Bool.not_true, Bool.false_eq_true, if_false, hm, if_true]
      exact .pass (settled_of_file hlook fun _ => hm) rfl (.refl c) rfl
    · simp only [Bool.not_true, Bool.false_eq_true, if_false, hm]
      cases hresult : (c.processFile tree v.path).1 with
      | error fault =>
        exact .analyze false hlook hwants hm ⟨hresult, fun h => nomatch h⟩
          ⟨rfl, rfl, rfl, rfl, rfl, rfl, rfl⟩ rfl
      | ok merged =>
        cases merged with
        | false =>
          exact .analyze false hlook hwants hm ⟨hresult, fun _ => rfl⟩
            ⟨rfl, rfl, rfl, rfl, rfl, rfl, rfl⟩ rfl
        | true =>
          exact .analyze true hlook hwants hm ⟨hresult, fun _ => rfl⟩
            ⟨rfl, rfl, rfl, rfl, rfl, rfl, rfl⟩ rfl

theorem outcome_visitDirectory (hlook : tree.look v.path = .ok (place, .directory)) :
    Outcome tree c v (c.visitDirectory tree v place) := by
  unfold visitDirectory
  by_cases hpass : v.path.name ∈ c.config.skipDirs ∨ place ∈ c.visited
  · rw [if_pos hpass]
    exact .pass (settled_of_directory hlook hpass.resolve_left) rfl (.refl c) rfl
  · obtain ⟨hname, hm⟩ := not_or.1 hpass
    rw [if_neg hpass]
    cases hdeep : c.config.tooDeep v.depth with
    | true =>
      exact .turnBack hlook hname hm (.inl hdeep) rfl ⟨rfl, rfl, rfl, rfl, rfl, rfl, rfl⟩ rfl
    | false =>
      rw [if_neg Bool.false_ne_true]
      by_cases hclosed : place ∈ tree.closed
      · rw [if_pos hclosed]
        exact .turnBack hlook hname hm (.inr hclosed) rfl ⟨rfl, rfl, rfl, rfl, rfl, rfl, rfl⟩ rfl
      · rw [if_neg hclosed]
        exact .enter hlook hname hm ⟨hdeep, hclosed⟩ rfl ⟨rfl, rfl, rfl, rfl, rfl, rfl, rfl⟩ rfl

theorem outcome_visit (tree : FileTree) (c : Crawler) (v : Visit) :
    Outcome tree c v (c.visit tree v) := by
  have hother (h : ∀ q, tree.look v.path ≠ .ok (q, .directory))
      (h' : ∀ q bytes, tree.look v.path ≠ .ok (q, .file bytes)) :
      Settled tree c.config c.visited v :=
    ⟨fun q hq => (h q hq).elim, fun q bytes hq => (h' q bytes hq).elim⟩
  unfold visit
  split
  · next hlook =>
    cases hnul : v.path.hasNul with
    | true => exact .refuse hnul rfl (.refl c) rfl
    | false => exact (FileTree.look_ne_nul hnul hlook).elim
  · next hlook =>
      exact .pass (hother (by simp [hlook]) (by simp [hlook])) rfl (unchanged_countFailed c) rfl
  · next hlook => exact outcome_visitFile hlook
  · next hlook => exact outcome_visitDirectory hlook
  · next r hfile hdirectory hlook =>
    rw [hlook] at hother
    have hsettled := hother (fun q hq => hdirectory q (Except.ok.inj hq))
      (fun q bytes hq => hfile q bytes (Except.ok.inj hq))
    exact .pass hsettled rfl (unchanged_countSkipped c) rfl

theorem processFile_of_named (htables : c.tables.Named)
    (h : tree.look v.path = .ok (place, .file bytes)) :
    (c.processFile tree v.path).1 = .ok (decide (place ∉ tree.closed)) := by
  rw [processFile, FileTree.read_of_look h]
  by_cases hclosed : place ∈ tree.closed
  · simp [hclosed]
  · obtain ⟨records, hrecords, himports⟩ :=
      SourceFile.answers_records htables (c.config.sourceFile v.path bytes) c.config.analyze true
    have hfault := c.atlas.addFile_fault (c.config.sourceFile v.path bytes) himports
    have hadd : c.atlas.addFile (c.config.sourceFile v.path bytes) records =
        (none, (c.atlas.addFile (c.config.sourceFile v.path bytes) records).2) :=
      Prod.ext hfault rfl
    simp only [if_neg hclosed, hrecords]
    rw [hadd, decide_eq_true hclosed]

theorem processFile_ne_nul (h : tree.look v.path = .ok (place, .file bytes)) :
    (c.processFile tree v.path).1 ≠ .error .nulCharacter := by
  rw [processFile, FileTree.read_of_look h]
  by_cases hclosed : place ∈ tree.closed
  · simp [hclosed]
  · simp only [if_neg hclosed]
    split
    · simp
    · simp
    · split <;> simp

theorem Outcome.settled (h : Outcome tree c v r) (hfault : r.fault = none) :
    Settled tree c.config r.crawler.visited v := by
  cases h with
  | refuse _ hrefused _ _ => exact nomatch hfault.symm.trans hrefused
  | pass hsettled _ hc _ => exact hc.visited ▸ hsettled
  | analyze _ hlook _ _ _ hc _ =>
    exact settled_of_file hlook fun _ => hc.visited ▸ List.mem_cons_self
  | turnBack hlook _ _ _ _ hc _ =>
    exact settled_of_directory hlook fun _ => hc.visited ▸ List.mem_cons_self
  | enter hlook _ _ _ _ hc _ =>
    exact settled_of_directory hlook fun _ => hc.visited ▸ List.mem_cons_self

theorem Outcome.of_fault {fault : CrawlFault} (h : Outcome tree c v r)
    (hfault : r.fault = some fault) :
    v.path.hasNul = true ∧ fault = .nulCharacter ∨ ¬c.tables.Named ∧ fault ≠ .nulCharacter := by
  cases h with
  | refuse hnul hrefused _ _ => exact .inl ⟨hnul, Option.some.inj (hfault.symm.trans hrefused)⟩
  | pass _ hnone _ _ => exact nomatch hnone.symm.trans hfault
  | analyze merged hlook _ _ hanswer _ _ =>
    have hresult := hanswer.1
    rw [hfault] at hresult
    refine .inr ⟨fun hnamed => ?_, fun hnul => ?_⟩
    · rw [processFile_of_named hnamed hlook] at hresult
      cases hresult
    · rw [hnul] at hresult
      exact processFile_ne_nul hlook hresult
  | turnBack _ _ _ _ hnone _ _ => exact nomatch hnone.symm.trans hfault
  | enter _ _ _ _ hnone _ _ => exact nomatch hnone.symm.trans hfault

end Crawler

end DependencyAtlas
