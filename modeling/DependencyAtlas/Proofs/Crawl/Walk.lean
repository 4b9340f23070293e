import DependencyAtlas.Proofs.Crawl.Visit
import DependencyAtlas.Proofs.FileTree.Path

namespace DependencyAtlas

def CrawlConfig.limited (c : CrawlConfig) (depth : Nat) : CrawlConfig :=
  { c with maxDepth := depth }

theorem CrawlConfig.tooDeep_limited (c : CrawlConfig) (limit depth : Nat) :
    (c.limited limit).tooDeep depth = decide (limit < depth) := by
  simp [tooDeep, limited]

/-- A walk down from a starting point by visible directories, none of which has a name to skip: the
path that it spells out, the directory where it ends, and those before that, the last one first. -/
inductive Walk (tree : FileTree) (config : CrawlConfig) : Path → Location → List Location →
    Prop where
  | start {p : Path} {place : Location} :
      p ∈ config.roots ++ config.libraryDirs → p.name ∉ config.skipDirs →
      tree.look p = .ok (place, .directory) → Walk tree config p place []
  | step {p : Path} {place next : Location} {before : List Location} {n : Text} :
      Walk tree config p place before → n ∈ tree.names place → n.head? ≠ some '.' →
      n ∉ config.skipDirs → tree.entryIn place n = .ok (next, .directory) →
      Walk tree config (p.child n) next (place :: before)

/-- The starting points come from texts, and neither these nor the names in the tree have a
character that no name can have. -/
structure Nameable (tree : FileTree) (config : CrawlConfig) : Prop where
  starts : ∀ p ∈ config.roots ++ config.libraryDirs, ∃ t : Text, '\x00' ∉ t ∧ p = .ofText t
  names : ∀ e ∈ tree.entries, ∀ n ∈ e.1, '\x00' ∉ n

variable {tree : FileTree} {config : CrawlConfig}

theorem FileTree.nul_not_mem_of_mem_names (h : ∀ e ∈ tree.entries, ∀ n ∈ e.1, '\x00' ∉ n)
    {place : Location} {n : Text} (hn : n ∈ tree.names place) : '\x00' ∉ n := by
  obtain ⟨e, he, hname⟩ := List.mem_filterMap.1 (List.mem_mergeSort.1 hn)
  split at hname
  · next m hm =>
    split at hname
    · cases hname
      exact h e he n (List.mem_of_getLast? hm)
    · cases hname
  · cases hname

theorem FileTree.entryAt_of_entryIn {place next : Location} {n : Text} {e : Entry}
    (h : tree.entryIn place n = .ok (next, e)) : tree.entryAt next = some e := by
  have hfound := lookFrom_eq_ok h
  rw [entryIn, lookFrom, hfound] at h
  cases he : tree.entryAt next with
  | none => simp [he] at h
  | some e' => simpa [he] using h

namespace Walk

variable {p : Path} {place : Location} {before : List Location}

theorem entryAt (h : Walk tree config p place before) : tree.entryAt place = some .directory := by
  cases h with
  | start _ _ hlook => exact FileTree.entryAt_of_look hlook
  | step _ _ _ _ hentry => exact FileTree.entryAt_of_entryIn hentry

theorem nulFree (hname : Nameable tree config) (h : Walk tree config p place before) :
    p.NulFree := by
  induction h with
  | start hp _ _ =>
    obtain ⟨t, ht, rfl⟩ := hname.starts _ hp
    exact Path.nulFree_ofText ht
  | step _ hn _ _ _ ih => exact ih.child (FileTree.nul_not_mem_of_mem_names hname.names hn)

theorem rooted (hname : Nameable tree config) (h : Walk tree config p place before) : p.Rooted := by
  induction h with
  | start hp _ _ =>
    obtain ⟨t, -, rfl⟩ := hname.starts _ hp
    exact Path.rooted_ofText t
  | step _ _ _ _ _ ih => exact ih.child _

end Walk

namespace Crawler

inductive Moves (tree : FileTree) (config : CrawlConfig) (limit : Nat) (v : Visit)
    (visited : List Location) (journal : List CrawlEvent) :
    List Location → List CrawlEvent → List Visit → Prop where
  | pass : Settled tree config visited v →
    Moves tree config limit v visited journal visited journal []
  | analyze {place : Location} {bytes : List UInt8} : tree.look v.path = .ok (place, .file bytes) →
    config.wants v.path v.byName = true → place ∉ visited →
    Moves tree config limit v visited journal (place :: visited)
      (.analyzed place v.path (decide (place ∉ tree.closed)) :: journal) []
  | turnBack {place : Location} : tree.look v.path = .ok (place, .directory) →
    v.path.name ∉ config.skipDirs → place ∉ visited → limit < v.depth →
    Moves tree config limit v visited journal (place :: visited) journal []
  | enter {place : Location} : tree.look v.path = .ok (place, .directory) →
    v.path.name ∉ config.skipDirs → place ∉ visited → v.depth ≤ limit →
    Moves tree config limit v visited journal (place :: visited)
      (.listed place v.path :: journal) (childrenOf tree v place)

structure Proceeds (tree : FileTree) (config : CrawlConfig) (limit : Nat) (c : Crawler) (v : Visit)
    (r : Visited) : Prop where
  fault : r.fault = none
  sameConfig : r.crawler.config = c.config
  sameTables : r.crawler.tables = c.tables
  moves : Moves tree config limit v c.visited c.journal r.crawler.visited r.crawler.journal r.next

variable {c : Crawler} {v : Visit} {limit : Nat}

theorem proceeds_visit (hopen : tree.Listable) (hconfig : c.config = config.limited limit)
    (htables : c.tables.Named) (hnul : v.path.hasNul = false) :
    Proceeds tree config limit c v (c.visit tree v) := by
  have hwants : c.config.wants = config.wants := by
    rw [hconfig]
    rfl
  have hskip : c.config.skipDirs = config.skipDirs := by
    rw [hconfig]
    rfl
  have hdeep : c.config.tooDeep v.depth = decide (limit < v.depth) := by
    rw [hconfig, CrawlConfig.tooDeep_limited]
  cases outcome_visit tree c v with
  | refuse hrefused _ _ _ => exact nomatch hnul.symm.trans hrefused
  | pass hsettled hfault hc hnext =>
    refine ⟨hfault, hc.config, hc.tables, ?_⟩
    rw [hc.visited, hc.journal, hnext]
    refine .pass ⟨hskip ▸ hsettled.1, hwants ▸ hsettled.2⟩
  | analyze merged hlook hwant hfresh hanswer hc hnext =>
    have hresult := hanswer.1
    rw [processFile_of_named htables hlook] at hresult
    cases hfault : (c.visit tree v).fault with
    | some fault =>
      rw [hfault] at hresult
      cases hresult
    | none =>
      rw [hfault] at hresult
      cases hresult
      refine ⟨hfault, hc.config, hc.tables, ?_⟩
      rw [hc.visited, hc.journal, hnext]
      exact .analyze hlook (hwants ▸ hwant) hfresh
  | turnBack hlook hname hfresh hback hfault hc hnext =>
    have hlimit := hback.resolve_right fun hclosed =>
      hopen _ hclosed (FileTree.entryAt_of_look hlook)
    refine ⟨hfault, hc.config, hc.tables, ?_⟩
    rw [hc.visited, hc.journal, hnext]
    exact .turnBack hlook (hskip ▸ hname) hfresh (of_decide_eq_true (hdeep.symm.trans hlimit))
  | enter hlook hname hfresh hlimit hfault hc hnext =>
    have hwithin := of_decide_eq_false (hdeep.symm.trans hlimit.1)
    refine ⟨hfault, hc.config, hc.tables, ?_⟩
    rw [hc.visited, hc.journal, hnext]
    exact .enter hlook (hskip ▸ hname) hfresh (Nat.le_of_not_lt hwithin)

end Crawler

end DependencyAtlas
