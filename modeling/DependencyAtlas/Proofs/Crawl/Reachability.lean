import DependencyAtlas.Proofs.Crawl.Repetition

namespace DependencyAtlas

def CrawlConfig.startingFrom (c : CrawlConfig) (roots : List Path) : CrawlConfig :=
  { c with roots, libraryDirs := [] }

/-- A directory can be reached from starting points by visible directories, none of which has a name
to skip. -/
inductive Reachable (tree : FileTree) (config : CrawlConfig)
    (roots : List Path) : Location → Prop where
  | start {root : Path} {place : Location} :
      root ∈ roots → root.name ∉ config.skipDirs → tree.look root = .ok (place, .directory) →
      Reachable tree config roots place
  | entry {place next : Location} {n : Text} :
      Reachable tree config roots place → n ∈ tree.names place → n.head? ≠ some '.' →
      n ∉ config.skipDirs → tree.entryIn place n = .ok (next, .directory) →
      Reachable tree config roots next

/-- A file is wanted: as a starting point whose extension is not one to skip, or as a visible entry
of a directory that can be reached, if its extension is also one of source files. -/
inductive Wanted (tree : FileTree) (config : CrawlConfig)
    (roots : List Path) : Location → Prop where
  | start {root : Path} {file : Location} {bytes : List UInt8} :
      root ∈ roots → tree.look root = .ok (file, .file bytes) →
      config.skips (Language.extensionOf root.render) = false → Wanted tree config roots file
  | entry {place file : Location} {n : Text} {bytes : List UInt8} :
      Reachable tree config roots place → n ∈ tree.names place → n.head? ≠ some '.' →
      tree.entryIn place n = .ok (file, .file bytes) →
      config.skips (Language.extensionOf n) = false →
      config.isSource (Language.extensionOf n) = true → Wanted tree config roots file

/-- What an entry is depends on its directory alone, not on the path that led there, on walks that
come to no directory twice. -/
def Transparent (tree : FileTree) (config : CrawlConfig) : Prop :=
  ∀ p place before, Walk tree config p place before → (place :: before).Nodup →
    ∀ n ∈ tree.names place, n.head? ≠ some '.' → tree.look (p.child n) = tree.entryIn place n

variable {tree : FileTree} {config : CrawlConfig} {roots : List Path} {place : Location}

theorem Reachable.entryAt (h : Reachable tree config roots place) :
    tree.entryAt place = some .directory := by
  cases h with
  | start _ _ hlook => exact FileTree.entryAt_of_look hlook
  | entry _ _ _ _ hentry => exact FileTree.entryAt_of_entryIn hentry

theorem Wanted.entryAt (h : Wanted tree config roots place) :
    ∃ bytes, tree.entryAt place = some (.file bytes) := by
  cases h with
  | start _ hlook _ => exact ⟨_, FileTree.entryAt_of_look hlook⟩
  | entry _ _ _ hentry _ _ => exact ⟨_, FileTree.entryAt_of_entryIn hentry⟩

theorem Walk.reachable {p : Path} {before : List Location}
    (h : Walk tree (config.startingFrom roots) p place before) :
    Reachable tree config roots place := by
  induction h with
  | start hp hskip hlook => exact .start (List.append_nil roots ▸ hp) hskip hlook
  | step _ hn hvisible hskip hentry ih => exact .entry ih hn hvisible hskip hentry

def CrawlEvent.Justified (tree : FileTree) (config : CrawlConfig) (roots : List Path) :
    CrawlEvent → Prop
  | .listed place _ => Reachable tree config roots place
  | .analyzed place _ _ => Wanted tree config roots place

namespace Crawler

/-- What a crawl without a limit visits: starting points, and the visible entries of directories at
the end of walks through listed directories, none of them twice. -/
inductive Sought (tree : FileTree) (config : CrawlConfig)
    (journal : List CrawlEvent) : Visit → Prop where
  | start {root : Path} :
      root ∈ config.roots ++ config.libraryDirs → Sought tree config journal (.start root)
  | entry {p : Path} {place : Location} {before : List Location} {n : Text} {depth : Nat} :
      Walk tree config p place before → (place :: before).Nodup →
      (∀ q ∈ place :: before, ∃ path, .listed q path ∈ journal) → n ∈ tree.names place →
      n.head? ≠ some '.' → Sought tree config journal { path := p.child n, depth }

def Explored (tree : FileTree) (config : CrawlConfig) (visited : List Location) (place : Location) :
    Prop :=
  ∃ p before, Walk tree config p place before ∧ (place :: before).Nodup ∧
    ∀ n ∈ tree.names place, n.head? ≠ some '.' →
      ∃ depth, Settled tree config visited { path := p.child n, depth }

structure Traced (tree : FileTree) (config : CrawlConfig) (roots : List Path)
    (c : Crawler) : Prop where
  sameConfig : c.config = config
  visited : c.visited = c.journal.map CrawlEvent.place
  justified : ∀ e ∈ c.journal, e.Justified tree config roots

variable {journal journal' : List CrawlEvent} {visited visited' : List Location} {v : Visit}
  {c c' : Crawler} {pending : List Visit}

theorem Sought.mono (h : Sought tree config journal v) (hsub : journal ⊆ journal') :
    Sought tree config journal' v := by
  cases h with
  | start hroot => exact .start hroot
  | entry hwalk hsimple hlisted hn hvisible =>
    refine .entry hwalk hsimple (fun q hq => ?_) hn hvisible
    obtain ⟨path, hpath⟩ := hlisted q hq
    exact ⟨path, hsub hpath⟩

theorem Explored.mono (h : Explored tree config visited place) (hsub : visited ⊆ visited') :
    Explored tree config visited' place := by
  obtain ⟨p, before, hwalk, hsimple, hentries⟩ := h
  refine ⟨p, before, hwalk, hsimple, fun n hn hvisible => ?_⟩
  obtain ⟨depth, hsettled⟩ := hentries n hn hvisible
  exact ⟨depth, hsettled.mono hsub⟩

theorem Sought.walk (htransparent : Transparent tree config) (h : Sought tree config journal v)
    (hlook : tree.look v.path = .ok (place, .directory)) (hskip : v.path.name ∉ config.skipDirs) :
    ∃ before, Walk tree config v.path place before ∧ before.Nodup ∧
      ∀ q ∈ before, ∃ path, .listed q path ∈ journal := by
  cases h with
  | start hroot => exact ⟨[], .start hroot hskip hlook, .nil, fun q hq => nomatch hq⟩
  | @entry p directory before n depth hwalk hsimple hlisted hn hvisible =>
    rw [htransparent p directory before hwalk hsimple n hn hvisible] at hlook
    rw [Path.name_child] at hskip
    exact ⟨directory :: before, .step hwalk hn hvisible hskip hlook, hsimple, hlisted⟩

theorem Sought.wanted (hname : Nameable tree (config.startingFrom roots))
    (htransparent : Transparent tree (config.startingFrom roots))
    (h : Sought tree (config.startingFrom roots) journal v) {bytes : List UInt8}
    (hlook : tree.look v.path = .ok (place, .file bytes))
    (hwants : config.wants v.path v.byName = true) :
    Wanted tree config roots place := by
  rw [CrawlConfig.wants, Bool.and_eq_true, Bool.not_eq_true'] at hwants
  cases h with
  | start hroot => exact .start (List.append_nil roots ▸ hroot) hlook hwants.1
  | @entry p directory before n depth hwalk hsimple _ hn hvisible =>
    rw [htransparent p directory before hwalk hsimple n hn hvisible] at hlook
    rw [Language.extensionOf_child (hwalk.rooted hname)] at hwants
    exact .entry hwalk.reachable hn hvisible hlook hwants.1 hwants.2

theorem Traced.listed_of_visited (h : Traced tree config roots c) (hplace : place ∈ c.visited)
    (hentry : tree.entryAt place = some .directory) : ∃ path, .listed place path ∈ c.journal := by
  rw [h.visited] at hplace
  obtain ⟨e, he, rfl⟩ := List.mem_map.1 hplace
  cases e with
  | listed place path => exact ⟨path, he⟩
  | analyzed place path merged =>
    obtain ⟨bytes, hfile⟩ := (h.justified _ he : Wanted tree config roots place).entryAt
    exact nomatch hfile.symm.trans hentry

theorem Traced.analyzed_of_visited (h : Traced tree config roots c) (hplace : place ∈ c.visited)
    {bytes : List UInt8} (hentry : tree.entryAt place = some (.file bytes)) :
    ∃ path merged, .analyzed place path merged ∈ c.journal := by
  rw [h.visited] at hplace
  obtain ⟨e, he, rfl⟩ := List.mem_map.1 hplace
  cases e with
  | listed place path =>
    have hdirectory := (h.justified _ he : Reachable tree config roots place).entryAt
    exact nomatch hdirectory.symm.trans hentry
  | analyzed place path merged => exact ⟨path, merged, he⟩

theorem Traced.unchanged (h : Traced tree config roots c) (hc : Unchanged c c') :
    Traced tree config roots c' where
  sameConfig := hc.config.trans h.sameConfig
  visited := by rw [hc.visited, hc.journal, h.visited]
  justified := hc.journal ▸ h.justified

theorem Traced.log (h : Traced tree config roots c) {e : CrawlEvent} {atlas : Atlas}
    {processed directories : Nat} (he : e.Justified tree config roots)
    (hc : Becomes c c' atlas (e.place :: c.visited) (e :: c.journal) processed directories) :
    Traced tree config roots c' where
  sameConfig := hc.config.trans h.sameConfig
  visited := by rw [hc.visited, hc.journal, List.map_cons, h.visited]
  justified := by
    rw [hc.journal]
    exact List.forall_mem_cons.2 ⟨he, h.justified⟩

section Unlimited

variable (hdepth : config.maxDepth < 0) (hopen : tree.Listable)
  (hname : Nameable tree (config.startingFrom roots))
  (htransparent : Transparent tree (config.startingFrom roots))

include hdepth hopen hname htransparent

theorem Traced.visit (h : Traced tree config roots c)
    (hv : Sought tree (config.startingFrom roots) c.journal v) :
    Traced tree config roots (c.visit tree v).crawler ∧
      (∀ u ∈ (c.visit tree v).next,
        Sought tree (config.startingFrom roots) (c.visit tree v).crawler.journal u) ∧
      ∀ place path, .listed place path ∈ (c.visit tree v).crawler.journal →
        .listed place path ∈ c.journal ∨
          ∃ before, Walk tree (config.startingFrom roots) v.path place before ∧
            (place :: before).Nodup ∧ (c.visit tree v).next = childrenOf tree v place := by
  cases outcome_visit tree c v with
  | refuse _ _ hc hnext =>
    refine ⟨h.unchanged hc, ?_, fun place path hplace => .inl (hc.journal ▸ hplace)⟩
    rw [hnext]
    exact fun u hu => nomatch hu
  | pass _ _ hc hnext =>
    refine ⟨h.unchanged hc, ?_, fun place path hplace => .inl (hc.journal ▸ hplace)⟩
    rw [hnext]
    exact fun u hu => nomatch hu
  | @analyze merged file bytes hlook hwants _ _ hc hnext =>
    rw [h.sameConfig] at hwants
    refine ⟨h.log (e := .analyzed file v.path merged) (hv.wanted hname htransparent hlook hwants)
      hc, ?_, ?_⟩
    · rw [hnext]
      exact fun u hu => nomatch hu
    · intro place path hplace
      rw [hc.journal] at hplace
      rcases List.mem_cons.1 hplace with heq | hplace
      · cases heq
      · exact .inl hplace
  | turnBack hlook _ _ hback _ _ _ =>
    have hdeep := hback.resolve_right fun hclosed =>
      hopen _ hclosed (FileTree.entryAt_of_look hlook)
    rw [h.sameConfig, CrawlConfig.tooDeep, Bool.and_eq_true, decide_eq_true_eq] at hdeep
    omega
  | @enter place hlook hskip hfresh _ _ hc hnext =>
    rw [h.sameConfig] at hskip
    obtain ⟨before, hwalk, hsimple, hlisted⟩ := hv.walk htransparent hlook hskip
    have hnew : place ∉ before := by
      intro hplace
      obtain ⟨path, hpath⟩ := hlisted place hplace
      rw [h.visited] at hfresh
      exact hfresh (List.mem_map_of_mem (f := CrawlEvent.place) hpath)
    have hsimple' : (place :: before).Nodup := List.nodup_cons.2 ⟨hnew, hsimple⟩
    refine ⟨h.log (e := .listed place v.path) hwalk.reachable hc, ?_, ?_⟩
    · rw [hnext, hc.journal]
      intro u hu
      obtain ⟨n, hn, rfl⟩ := List.mem_map.1 hu
      obtain ⟨hn, hvisible⟩ := List.mem_filter.1 hn
      refine .entry hwalk hsimple' ?_ hn (by simpa using hvisible)
      refine List.forall_mem_cons.2 ⟨⟨v.path, List.mem_cons_self⟩, fun q hq => ?_⟩
      obtain ⟨path, hpath⟩ := hlisted q hq
      exact ⟨path, List.mem_cons_of_mem _ hpath⟩
    · intro q path hq
      rw [hc.journal] at hq
      rcases List.mem_cons.1 hq with heq | hq
      · cases heq
        exact .inr ⟨before, hwalk, hsimple', hnext⟩
      · exact .inl hq

theorem Traced.visitAll (h : Traced tree config roots c)
    (hpending : ∀ v ∈ pending, Sought tree (config.startingFrom roots) c.journal v)
    (hrun : Crawler.visitAll tree pending c = (none, c')) :
    Traced tree config roots c' ∧ ∀ place path, .listed place path ∈ c'.journal →
      .listed place path ∈ c.journal ∨
      Explored tree (config.startingFrom roots) c'.visited place := by
  induction pending, c using Crawler.visitAll.induct tree with
  | case1 c =>
    rw [Crawler.visitAll] at hrun
    cases hrun
    exact ⟨h, fun place path hplace => .inl hplace⟩
  | case2 v rest c fault hfault =>
    rw [visitAll_cons_of_fault hfault] at hrun
    cases congrArg Prod.fst hrun
  | case3 v rest c hfault ih =>
    rw [visitAll_cons hfault] at hrun
    obtain ⟨htraced, hnext, hnew⟩ :=
      h.visit hdepth hopen hname htransparent (hpending v List.mem_cons_self)
    have hfollows := follows_visit tree c v
    have hsought : ∀ u ∈ (c.visit tree v).next ++ rest,
        Sought tree (config.startingFrom roots) (c.visit tree v).crawler.journal u := by
      intro u hu
      rcases List.mem_append.1 hu with hu | hu
      · exact hnext u hu
      · exact (hpending u (List.mem_cons_of_mem _ hu)).mono hfollows.journal
    obtain ⟨hdone, hlisted⟩ := ih htraced hsought hrun
    refine ⟨hdone, fun place path hplace => ?_⟩
    rcases hlisted place path hplace with hplace | hexplored
    · rcases hnew place path hplace with hplace | ⟨before, hwalk, hsimple, hchildren⟩
      · exact .inl hplace
      · -- the entries come next, and what comes next is settled when the run is over
        refine .inr ⟨v.path, before, hwalk, hsimple, fun n hn hvisible => ⟨v.depth + 1, ?_⟩⟩
        have hsettled := settled_visitAll hrun { path := v.path.child n, depth := v.depth + 1 } (by
          rw [hchildren]
          apply List.mem_append_left
          exact List.mem_map.2 ⟨n, List.mem_filter.2 ⟨hn, by simpa using hvisible⟩, rfl⟩)
        rw [htraced.sameConfig] at hsettled
        exact hsettled
    · exact .inr hexplored

/-- A crawl is between two starting points: all that has been listed has been explored. -/
structure Surveyed (tree : FileTree) (config : CrawlConfig) (roots : List Path)
    (c : Crawler) : Prop extends Traced tree config roots c where
  explored : ∀ place path, .listed place path ∈ c.journal →
    Explored tree (config.startingFrom roots) c.visited place

theorem Surveyed.crawlFrom {starts : List Path} (hstarts : starts ⊆ roots) {outOf i : Nat}
    (h : Surveyed tree config roots c)
    (hrun : Crawler.crawlFrom tree outOf i starts c = (none, c')) :
    Surveyed tree config roots c' ∧ ∀ root ∈ starts,
      Settled tree config c'.visited (.start root) := by
  induction starts generalizing i c with
  | nil =>
    cases hrun
    exact ⟨⟨⟨h.sameConfig, h.visited, h.justified⟩, h.explored⟩, fun root hroot => nomatch hroot⟩
  | cons root rest ih =>
    obtain ⟨hroot, hrest⟩ := List.cons_subset.1 hstarts
    rcases hvisits : Crawler.visitAll tree [.start root] (c.announce i outOf) with ⟨_ | fault, c₁⟩
    · rw [crawlFrom_cons hvisits] at hrun
      have hannounced := h.toTraced.unchanged (unchanged_announce c i outOf)
      have hsought :
          ∀ v ∈ [Visit.start root], Sought tree (config.startingFrom roots) c.journal v := by
        intro v hv
        rw [List.mem_singleton.1 hv]
        exact .start (List.mem_append_left _ hroot)
      obtain ⟨htraced, hlisted⟩ :=
        hannounced.visitAll hdepth hopen hname htransparent hsought hvisits
      have hlater := follows_visitAll tree (c.announce i outOf) [.start root]
      rw [hvisits] at hlater
      have hexplored : ∀ place path, .listed place path ∈ c₁.journal →
          Explored tree (config.startingFrom roots) c₁.visited place := by
        intro place path hplace
        rcases hlisted place path hplace with hold | hnew
        · exact (h.explored place path hold).mono hlater.visited
        · exact hnew
      obtain ⟨hdone, hsettled⟩ := ih hrest ⟨htraced, hexplored⟩ hrun
      refine ⟨hdone, List.forall_mem_cons.2 ⟨?_, hsettled⟩⟩
      have hfirst := settled_visitAll hvisits (.start root) (List.mem_singleton.2 rfl)
      rw [hannounced.sameConfig] at hfirst
      have hend := follows_crawlFrom tree c₁ outOf (i + 1) rest
      rw [hrun] at hend
      exact hfirst.mono hend.visited
    · rw [crawlFrom_cons_of_fault hvisits] at hrun
      exact nomatch congrArg Prod.fst hrun

end Unlimited

section Complete

variable (hname : Nameable tree (config.startingFrom roots))
  (htransparent : Transparent tree (config.startingFrom roots)) (h : Surveyed tree config roots c)
  (hstarts : ∀ root ∈ roots, Settled tree config c.visited (.start root))

include htransparent h hstarts

theorem Surveyed.listed_of_reachable (hplace : Reachable tree config roots place) :
    ∃ path, .listed place path ∈ c.journal := by
  induction hplace with
  | start hroot hskip hlook =>
    exact h.listed_of_visited ((hstarts _ hroot).1 _ hlook hskip) (FileTree.entryAt_of_look hlook)
  | @entry place next n _ hn hvisible hskip hentry ih =>
    obtain ⟨path, hpath⟩ := ih
    obtain ⟨p, before, hwalk, hsimple, hentries⟩ := h.explored place path hpath
    obtain ⟨depth, hsettled⟩ := hentries n hn hvisible
    have hlook := htransparent p place before hwalk hsimple n hn hvisible
    have hnext := hsettled.1 next (hlook.trans hentry) (by rwa [Path.name_child])
    exact h.listed_of_visited hnext (FileTree.entryAt_of_entryIn hentry)

include hname

theorem Surveyed.analyzed_of_wanted (hfile : Wanted tree config roots place) :
    ∃ path merged, .analyzed place path merged ∈ c.journal := by
  cases hfile with
  | @start root _ bytes hroot hlook hskip =>
    have hwants : config.wants root true = true := by
      rw [CrawlConfig.wants, Bool.and_eq_true, Bool.not_eq_true']
      exact ⟨hskip, rfl⟩
    exact h.analyzed_of_visited ((hstarts root hroot).2 place bytes hlook hwants)
      (FileTree.entryAt_of_look hlook)
  | @entry directory _ n bytes hdirectory hn hvisible hentry hskip hsource =>
    obtain ⟨path, hpath⟩ := h.listed_of_reachable htransparent hstarts hdirectory
    obtain ⟨p, before, hwalk, hsimple, hentries⟩ := h.explored directory path hpath
    obtain ⟨depth, hsettled⟩ := hentries n hn hvisible
    have hlook := htransparent p directory before hwalk hsimple n hn hvisible
    have hwants : config.wants (p.child n) false = true := by
      rw [CrawlConfig.wants, Language.extensionOf_child (hwalk.rooted hname), Bool.and_eq_true,
        Bool.not_eq_true']
      exact ⟨hskip, hsource⟩
    have hfile := hsettled.2 place bytes (hlook.trans hentry) hwants
    exact h.analyzed_of_visited hfile (FileTree.entryAt_of_entryIn hentry)

end Complete

/-- A crawl without a limit lists the directories that can be reached and analyzes the files that
are wanted, and in whatever order it is given the starting points; with rules that name what they
find it is not broken off. -/
theorem unlimited_crawl_finds_reachable (hdepth : config.maxDepth < 0) (hopen : tree.Listable)
    (hname : Nameable tree (config.startingFrom roots))
    (htransparent : Transparent tree (config.startingFrom roots))
    {starts : List Path} (hperm : starts.Perm roots) (tables : RuleTables) (atlas : Atlas) :
    (tables.Named → (crawl { config, tables, atlas } tree starts).1 = none) ∧
    ∀ c, crawl { config, tables, atlas } tree starts = (none, c) →
      (∀ place, (∃ path, .listed place path ∈ c.journal) ↔ Reachable tree config roots place) ∧
      ∀ file, (∃ path merged, .analyzed file path merged ∈ c.journal) ↔
        Wanted tree config roots file := by
  refine ⟨fun hnamed => ?_, fun c hc => ?_⟩
  · have hnulFree : ∀ root ∈ starts, root.NulFree := by
      intro root hroot
      obtain ⟨t, ht, rfl⟩ := hname.starts root (List.mem_append_left _ (hperm.subset hroot))
      exact Path.nulFree_ofText ht
    exact crawlFrom_of_named hnamed hname.names hnulFree starts.length 0
  · have hstart : Surveyed tree config roots { config, tables, atlas } :=
      ⟨⟨rfl, rfl, (fun e he => nomatch he)⟩, (fun place path hplace => nomatch hplace)⟩
    obtain ⟨hdone, hsettled⟩ := hstart.crawlFrom hdepth hopen hname htransparent hperm.subset hc
    have hroots : ∀ root ∈ roots, Settled tree config c.visited (.start root) :=
      fun root hroot => hsettled root (hperm.symm.subset hroot)
    refine ⟨fun place => ⟨?_, hdone.listed_of_reachable htransparent hroots⟩, fun file => ⟨?_, ?_⟩⟩
    · rintro ⟨path, hplace⟩
      exact hdone.justified _ hplace
    · rintro ⟨path, merged, hfile⟩
      exact hdone.justified _ hfile
    · exact hdone.analyzed_of_wanted hname htransparent hroots

def loopedWalks : List (Path × Location × List Location) :=
  [(.ofText "r".toList, ["r".toList], []), (.ofText "s".toList, ["s".toList], []),
    (.ofText "r/a".toList, ["s".toList], [["r".toList]]),
    (.ofText "s/b".toList, ["r".toList], [["s".toList]])]

theorem mem_loopedWalks {p : Path} {before : List Location}
    (h : Walk loopedTree (CrawlConfig.startingFrom {} loopedRoots) p place before)
    (hsimple : (place :: before).Nodup) :
    (p, place, before) ∈ loopedWalks := by
  have hstarts : ∀ root ∈ loopedRoots ++ [], (loopedTree.look root).toOption.all fun r =>
      r.2 = .directory → (root, r.1, []) ∈ loopedWalks := by decide +kernel
  have hsteps : ∀ w ∈ loopedWalks, ∀ n ∈ loopedTree.names w.2.1,
      (loopedTree.entryIn w.2.1 n).toOption.all fun r =>
      r.2 = .directory → (r.1 :: w.2.1 :: w.2.2).Nodup →
      (w.1.child n, r.1, w.2.1 :: w.2.2) ∈ loopedWalks := by
    decide +kernel
  induction h with
  | @start p place hp _ hlook =>
    have hstart := hstarts p hp
    rw [hlook] at hstart
    exact of_decide_eq_true hstart rfl
  | @step p place next before n _ hn _ _ hentry ih =>
    have hstep := hsteps _ (ih (List.nodup_cons.1 hsimple).2) n hn
    rw [hentry] at hstep
    exact of_decide_eq_true hstep rfl hsimple

theorem unlimited_crawl_of_loopedTree :
    Nameable loopedTree (CrawlConfig.startingFrom {} loopedRoots) ∧
    loopedTree.Listable ∧ Transparent loopedTree (CrawlConfig.startingFrom {} loopedRoots) ∧
    ∃ c,
      crawl { config := {}, tables := builtinRules, atlas := {} } loopedTree loopedRoots.reverse =
        (none, c) ∧
      (∀ place, (∃ path, .listed place path ∈ c.journal) ↔
        Reachable loopedTree {} loopedRoots place) ∧
      (∃ path, .listed ["s".toList] path ∈ c.journal) ∧
      ∃ path merged, .analyzed ["f.py".toList] path merged ∈ c.journal := by
  have hname : Nameable loopedTree (CrawlConfig.startingFrom {} loopedRoots) := by
    refine ⟨?_, by decide +kernel⟩
    intro p hp
    obtain ⟨t, ht, rfl⟩ := List.mem_map.1 (List.append_nil loopedRoots ▸ hp)
    refine ⟨t.toList, ?_, rfl⟩
    revert t
    decide +kernel
  have htransparent : Transparent loopedTree (CrawlConfig.startingFrom {} loopedRoots) := by
    have hlooks : ∀ w ∈ loopedWalks, ∀ n ∈ loopedTree.names w.2.1,
        loopedTree.look (w.1.child n) = loopedTree.entryIn w.2.1 n := by decide +kernel
    intro p place before hwalk hsimple n hn _
    exact hlooks _ (mem_loopedWalks hwalk hsimple) n hn
  have hopen : loopedTree.Listable := by decide
  obtain ⟨hfault, hfound⟩ := unlimited_crawl_finds_reachable (by decide) hopen hname htransparent
    (List.reverse_perm loopedRoots) builtinRules {}
  obtain ⟨hlisted, hanalyzed⟩ := hfound _ (Prod.ext (hfault RuleTables.named_builtinRules) rfl)
  refine ⟨hname, hopen, htransparent, _, Prod.ext (hfault RuleTables.named_builtinRules) rfl,
    hlisted, ?_, ?_⟩
  · have hlook : loopedTree.look (.ofText "r".toList) = .ok (["r".toList], .directory) := by
      decide +kernel
    have hr : Reachable loopedTree {} loopedRoots ["r".toList] :=
      .start (by decide) (by decide +kernel) hlook
    have hs : Reachable loopedTree {} loopedRoots ["s".toList] :=
      hr.entry (n := "a".toList) (by decide +kernel) (by decide) (by decide +kernel)
        (by decide +kernel)
    exact (hlisted _).2 hs
  · have hlook : loopedTree.look (.ofText "g.py".toList) =
        .ok (["f.py".toList], .file "import os\n".toUTF8.toList) := by decide +kernel
    have hf : Wanted loopedTree {} loopedRoots ["f.py".toList] :=
      .start (by decide) hlook (by decide +kernel)
    exact (hanalyzed _).2 hf

end Crawler

end DependencyAtlas
