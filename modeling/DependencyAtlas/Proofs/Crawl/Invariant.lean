import DependencyAtlas.Proofs.Crawl.Walk

namespace DependencyAtlas

namespace Crawler

section Obstacles

variable (tree : FileTree) (config : CrawlConfig) (limit : Nat) (journal : List CrawlEvent)

def MetTooDeep (place : Location) : Prop :=
  (∀ path, .listed place path ∉ journal) ∧
    ∃ p directory before n, .listed directory p ∈ journal ∧ Walk tree config p directory before ∧
      before.length = limit ∧ n ∈ tree.names directory ∧ n.head? ≠ some '.' ∧
      n ∉ config.skipDirs ∧ tree.look (p.child n) = .ok (place, .directory)

end Obstacles

section Invariant

variable (tree : FileTree) (config : CrawlConfig) (limit : Nat)

/-- What visits come from: a starting point, or an entry of a directory that was listed at the end
of a walk within the limit. -/
inductive Due (journal : List CrawlEvent) : Visit → Prop where
  | start {p : Path} : p ∈ config.roots ++ config.libraryDirs →
    Due journal { path := p, byName := true }
  | entry {p : Path} {place : Location} {before : List Location} {n : Text} :
    .listed place p ∈ journal → Walk tree config p place before →
    tree.look p = .ok (place, .directory) → before.length ≤ limit → n ∈ tree.names place →
    n.head? ≠ some '.' → Due journal { path := p.child n, depth := before.length + 1 }

def Scheduled (pending : List Visit) (visited : List Location) (v : Visit) : Prop :=
  v ∈ pending ∨ Settled tree config visited v

def Entered (pending : List Visit) (visited : List Location) (place : Location) (p : Path) : Prop :=
  ∃ before, Walk tree config p place before ∧ tree.look p = .ok (place, .directory) ∧
    before.length ≤ limit ∧ ∀ n ∈ tree.names place, n.head? ≠ some '.' →
      Scheduled tree config pending visited { path := p.child n, depth := before.length + 1 }

/-- The state of a crawl between two visits. -/
structure Crawling (pending : List Visit) (visited : List Location) (journal : List CrawlEvent) :
    Prop where
  due : ∀ v ∈ pending, Due tree config limit journal v
  starts : ∀ p ∈ config.roots ++ config.libraryDirs,
    Scheduled tree config pending visited { path := p, byName := true }
  seen : ∀ place ∈ visited, (∃ p, .listed place p ∈ journal) ∨
    MetTooDeep tree config limit journal place ∨
      ∃ path, .analyzed place path (decide (place ∉ tree.closed)) ∈ journal
  listed : ∀ place p, .listed place p ∈ journal →
    place ∈ visited ∧ Entered tree config limit pending visited place p
  analyzed : ∀ place path merged, .analyzed place path merged ∈ journal →
    merged = decide (place ∉ tree.closed) ∧ ∃ v bytes, Due tree config limit journal v ∧
      tree.look v.path = .ok (place, .file bytes) ∧ config.wants v.path v.byName = true

end Invariant

variable {tree : FileTree} {config : CrawlConfig} {limit : Nat} {pending rest : List Visit}
  {v : Visit} {visited visited' : List Location} {journal journal' : List CrawlEvent}
  {place : Location}

theorem Due.mono (h : Due tree config limit journal v) (hsub : journal ⊆ journal') :
    Due tree config limit journal' v := by
  cases h with
  | start hp => exact .start hp
  | entry hlisted hwalk hlook hlimit hn hvisible =>
    exact .entry (hsub hlisted) hwalk hlook hlimit hn hvisible

theorem Due.nulFree (hname : Nameable tree config) (h : Due tree config limit journal v) :
    v.path.NulFree := by
  cases h with
  | start hp =>
    obtain ⟨t, ht, rfl⟩ := hname.starts _ hp
    exact Path.nulFree_ofText ht
  | entry _ hwalk _ _ hn _ =>
    exact (hwalk.nulFree hname).child (FileTree.nul_not_mem_of_mem_names hname.names hn)

theorem Scheduled.advance {u : Visit} {next : List Visit}
    (h : Scheduled tree config (v :: rest) visited u) (hsub : visited ⊆ visited')
    (hv : Settled tree config visited' v) :
    Scheduled tree config (next ++ rest) visited' u := by
  rcases h with h | h
  · rcases List.mem_cons.1 h with rfl | h
    · exact .inr hv
    · exact .inl (List.mem_append_right _ h)
  · exact .inr (h.mono hsub)

theorem Entered.advance {next : List Visit} {p : Path}
    (h : Entered tree config limit (v :: rest) visited place p)
    (hsub : visited ⊆ visited') (hv : Settled tree config visited' v) :
    Entered tree config limit (next ++ rest) visited' place p := by
  obtain ⟨before, hwalk, hlook, hlimit, hentries⟩ := h
  exact ⟨before, hwalk, hlook, hlimit, fun n hn hvisible =>
    (hentries n hn hvisible).advance hsub hv⟩

theorem MetTooDeep.mono (h : MetTooDeep tree config limit journal place) (hsub : journal ⊆ journal')
    (hnew : ∀ path, .listed place path ∉ journal') :
    MetTooDeep tree config limit journal' place := by
  obtain ⟨-, p, directory, before, n, hlisted, hrest⟩ := h
  exact ⟨hnew, p, directory, before, n, hsub hlisted, hrest⟩

theorem Due.walk (hname : Nameable tree config) (h : Due tree config limit journal v)
    (hlook : tree.look v.path = .ok (place, .directory)) (hskip : v.path.name ∉ config.skipDirs) :
    ∃ before, Walk tree config v.path place before ∧ before.length = v.depth := by
  have hnul := (h.nulFree hname).hasNul
  cases h with
  | start hp => exact ⟨[], .start hp hskip hlook, rfl⟩
  | @entry p directory before n _ hwalk hdirectory _ hn hvisible =>
    rw [Path.name_child] at hskip
    have hentry := FileTree.entryIn_of_look_child hdirectory hnul hlook
    exact ⟨directory :: before, .step hwalk hn hvisible hskip hentry, rfl⟩

theorem Due.metTooDeep (h : Due tree config limit journal v)
    (hlook : tree.look v.path = .ok (place, .directory)) (hskip : v.path.name ∉ config.skipDirs)
    (hdeep : limit < v.depth) (hunlisted : ∀ path, .listed place path ∉ journal) :
    MetTooDeep tree config limit journal place := by
  cases h with
  | start hp => cases hdeep
  | @entry p directory before n hlisted hwalk hdirectory hlimit hn hvisible =>
    rw [Path.name_child] at hskip
    have hlength : before.length = limit := Nat.le_antisymm hlimit (Nat.le_of_lt_succ hdeep)
    exact ⟨hunlisted, p, directory, before, n, hlisted, hwalk, hlength, hn, hvisible, hskip, hlook⟩

theorem Crawling.advance {next : List Visit}
    (h : Crawling tree config limit (v :: rest) visited journal) (hvisited : visited ⊆ visited')
    (hjournal : journal ⊆ journal') (hv : Settled tree config visited' v)
    (hnext : ∀ u ∈ next, Due tree config limit journal' u)
    (hseen : ∀ place ∈ visited', place ∉ visited → (∃ p, .listed place p ∈ journal') ∨
      MetTooDeep tree config limit journal' place ∨
        ∃ path, .analyzed place path (decide (place ∉ tree.closed)) ∈ journal')
    (hlisted : ∀ place p, .listed place p ∈ journal' → .listed place p ∉ journal →
      place ∉ visited ∧ place ∈ visited' ∧
        Entered tree config limit (next ++ rest) visited' place p)
    (hanalyzed : ∀ place path merged, .analyzed place path merged ∈ journal' →
      .analyzed place path merged ∉ journal → merged = decide (place ∉ tree.closed) ∧
        ∃ v bytes, Due tree config limit journal' v ∧
          tree.look v.path = .ok (place, .file bytes) ∧ config.wants v.path v.byName = true) :
    Crawling tree config limit (next ++ rest) visited' journal' where
  due u hu := by
    rcases List.mem_append.1 hu with hu | hu
    · exact hnext u hu
    · exact (h.due u (List.mem_cons_of_mem _ hu)).mono hjournal
  starts p hp := (h.starts p hp).advance hvisited hv
  seen place hplace := by
    by_cases hold : place ∈ visited
    · rcases h.seen place hold with ⟨p, hl⟩ | hd | ⟨path, ha⟩
      · exact .inl ⟨p, hjournal hl⟩
      · -- what was met too deep counts as visited, so it is not what is listed now
        refine .inr (.inl (hd.mono hjournal fun p hnew => ?_))
        exact (hlisted place p hnew (hd.1 p)).1 hold
      · exact .inr (.inr ⟨path, hjournal ha⟩)
    · exact hseen place hplace hold
  listed place p hplace := by
    by_cases hold : .listed place p ∈ journal
    · obtain ⟨hmem, hentered⟩ := h.listed place p hold
      exact ⟨hvisited hmem, hentered.advance hvisited hv⟩
    · exact (hlisted place p hplace hold).2
  analyzed place path merged hplace := by
    by_cases hold : .analyzed place path merged ∈ journal
    · obtain ⟨hmerged, u, bytes, hdue, hu⟩ := h.analyzed place path merged hold
      exact ⟨hmerged, u, bytes, hdue.mono hjournal, hu⟩
    · exact hanalyzed place path merged hplace hold

theorem Crawling.step (hname : Nameable tree config) {next : List Visit}
    (h : Crawling tree config limit (v :: rest) visited journal)
    (hmoves : Moves tree config limit v visited journal visited' journal' next) :
    Crawling tree config limit (next ++ rest) visited' journal' := by
  have hdue := h.due v List.mem_cons_self
  cases hmoves with
  | pass hsettled =>
    refine h.advance (List.Subset.refl _) (List.Subset.refl _) hsettled
      (fun u hu => nomatch hu) ?_ ?_ ?_
    · exact fun place hplace hold => (hold hplace).elim
    · exact fun place p hplace hold => (hold hplace).elim
    · exact fun place path merged hplace hold => (hold hplace).elim
  | @analyze place bytes hlook hwants hfresh =>
    refine h.advance (List.subset_cons_self _ _) (List.subset_cons_self _ _)
      (settled_of_file hlook fun _ => List.mem_cons_self) (fun u hu => nomatch hu) ?_ ?_ ?_
    · intro q hq hold
      obtain rfl := (List.mem_cons.1 hq).resolve_right hold
      exact .inr (.inr ⟨v.path, List.mem_cons_self⟩)
    · intro q p hq hold
      cases (List.mem_cons.1 hq).resolve_right hold
    · intro q path merged hq hold
      cases (List.mem_cons.1 hq).resolve_right hold
      exact ⟨rfl, v, bytes, hdue.mono (List.subset_cons_self _ _), hlook, hwants⟩
  | @turnBack place hlook hskip hfresh hdeep =>
    have hunlisted : ∀ path, .listed place path ∉ journal :=
      fun path hl => hfresh (h.listed place path hl).1
    refine h.advance (List.subset_cons_self _ _) (List.Subset.refl _)
      (settled_of_directory hlook fun _ => List.mem_cons_self) (fun u hu => nomatch hu) ?_ ?_ ?_
    · intro q hq hold
      obtain rfl := (List.mem_cons.1 hq).resolve_right hold
      exact .inr (.inl (hdue.metTooDeep hlook hskip hdeep hunlisted))
    · exact fun q p hq hold => (hold hq).elim
    · exact fun q path merged hq hold => (hold hq).elim
  | @enter place hlook hskip hfresh hlimit =>
    obtain ⟨before, hwalk, hlength⟩ := hdue.walk hname hlook hskip
    rw [← hlength] at hlimit
    refine h.advance (List.subset_cons_self _ _) (List.subset_cons_self _ _)
      (settled_of_directory hlook fun _ => List.mem_cons_self) ?_ ?_ ?_ ?_
    · intro u hu
      obtain ⟨n, hn, rfl⟩ := List.mem_map.1 hu
      obtain ⟨hn, hvisible⟩ := List.mem_filter.1 hn
      rw [← hlength]
      exact .entry List.mem_cons_self hwalk hlook hlimit hn (by simpa using hvisible)
    · intro q hq hold
      obtain rfl := (List.mem_cons.1 hq).resolve_right hold
      exact .inl ⟨v.path, List.mem_cons_self⟩
    · intro q p hq hold
      cases (List.mem_cons.1 hq).resolve_right hold
      refine ⟨hfresh, List.mem_cons_self, before, hwalk, hlook, hlimit, fun n hn hvisible => ?_⟩
      have hchild : n ∈ (tree.names place).filter fun n => n.head? ≠ some '.' :=
        List.mem_filter.2 ⟨hn, by simpa using hvisible⟩
      refine .inl (List.mem_append_left _ (List.mem_map.2 ⟨n, hchild, ?_⟩))
      rw [hlength]
    · intro q path merged hq hold
      cases (List.mem_cons.1 hq).resolve_right hold

/-- A crawl with a limit and with rules that name what they find is between two visits. -/
structure Underway (tree : FileTree) (config : CrawlConfig) (limit : Nat) (pending : List Visit)
    (c : Crawler) : Prop where
  sameConfig : c.config = config.limited limit
  named : c.tables.Named
  crawling : Crawling tree config limit pending c.visited c.journal

variable {c : Crawler}

section Run

variable (hname : Nameable tree config) (hopen : tree.Listable)

include hname hopen

theorem Underway.visit (h : Underway tree config limit (v :: rest) c) :
    (c.visit tree v).fault = none ∧
      Underway tree config limit ((c.visit tree v).next ++ rest) (c.visit tree v).crawler := by
  have hdue := h.crawling.due v List.mem_cons_self
  have hproceeds := proceeds_visit hopen h.sameConfig h.named (hdue.nulFree hname).hasNul
  exact ⟨hproceeds.fault, hproceeds.sameConfig.trans h.sameConfig, hproceeds.sameTables ▸ h.named,
    h.crawling.step hname hproceeds.moves⟩

theorem Underway.visitAll (h : Underway tree config limit (pending ++ rest) c) :
    ∃ c', Crawler.visitAll tree pending c = (none, c') ∧ Underway tree config limit rest c' := by
  -- by the recursion of the visits: the entries of a directory come between it and the rest
  induction pending, c using Crawler.visitAll.induct tree with
  | case1 c =>
    rw [Crawler.visitAll]
    exact ⟨c, rfl, h⟩
  | case2 v visits c fault hfault =>
    rw [(h.visit hname hopen).1] at hfault
    cases hfault
  | case3 v visits c hfault ih =>
    rw [Crawler.visitAll, hfault]
    rw [List.cons_append] at h
    have hnext := (h.visit hname hopen).2
    rw [← List.append_assoc] at hnext
    exact ih hnext

theorem Underway.crawlFrom {roots : List Path} (outOf i : Nat)
    (h : Underway tree config limit
      (roots.map (fun p => { path := p, byName := true }) ++ rest) c) :
    ∃ c', Crawler.crawlFrom tree outOf i roots c = (none, c') ∧
      Underway tree config limit rest c' := by
  induction roots generalizing i c with
  | nil => exact ⟨_, rfl, h.sameConfig, h.named, h.crawling⟩
  | cons root roots ih =>
    have hannounced : Underway tree config limit
        ([{ path := root, byName := true }] ++
          (roots.map (fun p => { path := p, byName := true }) ++ rest))
        { c with progress := c.progress ++ [⟨i, outOf⟩] } := ⟨h.sameConfig, h.named, h.crawling⟩
    obtain ⟨c', hc', hrest⟩ := hannounced.visitAll hname hopen
    obtain ⟨c'', hc'', hdone⟩ := ih (i + 1) hrest
    refine ⟨c'', ?_, hdone⟩
    rw [Crawler.crawlFrom, hc']
    exact hc''

end Run

theorem underway_start (tree : FileTree) (config : CrawlConfig) (limit : Nat) :
    Underway tree config limit
      ((config.roots ++ config.libraryDirs).map fun p => { path := p, byName := true })
      { config := config.limited limit, tables := builtinRules } where
  sameConfig := rfl
  named := RuleTables.named_builtinRules
  crawling :=
    { due := by
        intro v hv
        obtain ⟨p, hp, rfl⟩ := List.mem_map.1 hv
        exact .start hp
      starts := fun p hp => .inl (List.mem_map_of_mem hp)
      seen := fun place hplace => nomatch hplace
      listed := fun place p hplace => nomatch hplace
      analyzed := fun place path merged hplace => nomatch hplace }

end Crawler

end DependencyAtlas
