import DependencyAtlas.Proofs.Crawl.Walk

namespace DependencyAtlas

namespace Crawler

variable {tree : FileTree} {c c' : Crawler} {v : Visit} {pending : List Visit} {r : Visited}

/-- A crawler goes on from another, with the same settings and rules, and loses nothing. -/
structure Follows (c c' : Crawler) : Prop where
  config : c'.config = c.config
  tables : c'.tables = c.tables
  visited : c.visited ⊆ c'.visited
  journal : c.journal ⊆ c'.journal

theorem Follows.refl (c : Crawler) : Follows c c :=
  ⟨rfl, rfl, List.Subset.refl _, List.Subset.refl _⟩

theorem Follows.trans {c'' : Crawler} (h : Follows c c') (h' : Follows c' c'') : Follows c c'' :=
  ⟨h'.config.trans h.config, h'.tables.trans h.tables, List.Subset.trans h.visited h'.visited,
    List.Subset.trans h.journal h'.journal⟩

theorem Becomes.follows {atlas : Atlas} {visited : List Location} {journal : List CrawlEvent}
    {processed directories : Nat} (h : Becomes c c' atlas visited journal processed directories)
    (hvisited : c.visited ⊆ visited) (hjournal : c.journal ⊆ journal) : Follows c c' :=
  ⟨h.config, h.tables, h.visited ▸ hvisited, h.journal ▸ hjournal⟩

theorem follows_visit (tree : FileTree) (c : Crawler) (v : Visit) :
    Follows c (c.visit tree v).crawler := by
  cases outcome_visit tree c v with
  | refuse _ _ hc _ => exact hc.follows (List.Subset.refl _) (List.Subset.refl _)
  | pass _ _ hc _ => exact hc.follows (List.Subset.refl _) (List.Subset.refl _)
  | analyze _ _ _ _ _ hc _ =>
    exact hc.follows (List.subset_cons_self _ _) (List.subset_cons_self _ _)
  | turnBack _ _ _ _ _ hc _ => exact hc.follows (List.subset_cons_self _ _) (List.Subset.refl _)
  | enter _ _ _ _ _ hc _ => exact hc.follows (List.subset_cons_self _ _) (List.subset_cons_self _ _)

/-- Announces how many starting points are done. -/
def announce (c : Crawler) (done outOf : Nat) : Crawler :=
  { c with progress := c.progress ++ [⟨done, outOf⟩] }

theorem unchanged_announce (c : Crawler) (done outOf : Nat) : Unchanged c (c.announce done outOf) :=
  ⟨rfl, rfl, rfl, rfl, rfl, rfl, rfl⟩

theorem follows_announce (c : Crawler) (done outOf : Nat) : Follows c (c.announce done outOf) :=
  (unchanged_announce c done outOf).follows (List.Subset.refl _) (List.Subset.refl _)

theorem visitAll_cons_of_fault {fault : CrawlFault} (h : (c.visit tree v).fault = some fault)
    (rest : List Visit) :
    visitAll tree (v :: rest) c = (some fault, (c.visit tree v).crawler) := by
  rw [visitAll, h]

theorem visitAll_cons (h : (c.visit tree v).fault = none) (rest : List Visit) :
    visitAll tree (v :: rest) c = visitAll tree ((c.visit tree v).next ++ rest)
    (c.visit tree v).crawler := by
  rw [visitAll, h]

theorem visitAll_induction {P : Crawler → Prop} (hvisit : ∀ c v, P c → P (c.visit tree v).crawler)
    (h : P c) (pending : List Visit) : P (visitAll tree pending c).2 := by
  induction pending, c using visitAll.induct tree with
  | case1 c =>
    rw [visitAll]
    exact h
  | case2 v rest c fault hfault =>
    rw [visitAll_cons_of_fault hfault]
    exact hvisit c v h
  | case3 v rest c hfault ih =>
    rw [visitAll_cons hfault]
    exact ih (hvisit c v h)

theorem crawlFrom_cons_of_fault {outOf i : Nat} {root : Path} {fault : CrawlFault}
    (h : visitAll tree [.start root] (c.announce i outOf) = (some fault, c')) (rest : List Path) :
    crawlFrom tree outOf i (root :: rest) c = (some fault, c') := by
  unfold Visit.start announce at h
  rw [crawlFrom, h]

theorem crawlFrom_cons {outOf i : Nat} {root : Path}
    (h : visitAll tree [.start root] (c.announce i outOf) = (none, c')) (rest : List Path) :
    crawlFrom tree outOf i (root :: rest) c = crawlFrom tree outOf (i + 1) rest c' := by
  unfold Visit.start announce at h
  rw [crawlFrom, h]

theorem crawlFrom_induction {P : Crawler → Prop} (hvisit : ∀ c v, P c → P (c.visit tree v).crawler)
    (hannounce : ∀ c done outOf, P c → P (c.announce done outOf)) (h : P c) (outOf i : Nat)
    (roots : List Path) :
    P (crawlFrom tree outOf i roots c).2 := by
  induction roots generalizing i c with
  | nil => exact hannounce c i outOf h
  | cons root rest ih =>
    have hroot := visitAll_induction hvisit (hannounce c i outOf h) [.start root]
    rcases hvisits : visitAll tree [.start root] (c.announce i outOf) with ⟨_ | fault, c'⟩
    · rw [hvisits] at hroot
      rw [crawlFrom_cons hvisits]
      exact ih hroot (i + 1)
    · rw [hvisits] at hroot
      rw [crawlFrom_cons_of_fault hvisits]
      exact hroot

theorem follows_visitAll (tree : FileTree) (c : Crawler) (pending : List Visit) :
    Follows c (visitAll tree pending c).2 :=
  visitAll_induction (fun c' v h => h.trans (follows_visit tree c' v)) (.refl c) pending

theorem follows_crawlFrom (tree : FileTree) (c : Crawler) (outOf i : Nat) (roots : List Path) :
    Follows c (crawlFrom tree outOf i roots c).2 :=
  crawlFrom_induction (fun c' v h => h.trans (follows_visit tree c' v))
    (fun c' done outOf h => h.trans (follows_announce c' done outOf)) (.refl c) outOf i roots

theorem settled_visitAll (h : visitAll tree pending c = (none, c')) :
    ∀ v ∈ pending, Settled tree c.config c'.visited v := by
  induction pending, c using visitAll.induct tree with
  | case1 c => exact fun v hv => nomatch hv
  | case2 v rest c fault hfault =>
    rw [visitAll_cons_of_fault hfault] at h
    exact nomatch congrArg Prod.fst h
  | case3 v rest c hfault ih =>
    rw [visitAll_cons hfault] at h
    intro u hu
    rcases List.mem_cons.1 hu with rfl | hu
    · have hlater := follows_visitAll tree (c.visit tree u).crawler ((c.visit tree u).next ++ rest)
      rw [h] at hlater
      exact ((outcome_visit tree c u).settled hfault).mono hlater.visited
    · have hrest := ih h u (List.mem_append_right _ hu)
      rwa [(follows_visit tree c v).config] at hrest

theorem Outcome.next_nulFree (hnames : ∀ e ∈ tree.entries, ∀ n ∈ e.1, '\x00' ∉ n)
    (h : Outcome tree c v r) (hv : v.path.NulFree) : ∀ u ∈ r.next, u.path.NulFree := by
  cases h with
  | enter _ _ _ _ _ _ hnext =>
    rw [hnext]
    intro u hu
    obtain ⟨n, hn, rfl⟩ := List.mem_map.1 hu
    exact hv.child (FileTree.nul_not_mem_of_mem_names hnames (List.mem_filter.1 hn).1)
  | refuse _ _ _ hnext => exact fun u hu => nomatch hnext ▸ hu
  | pass _ _ _ hnext => exact fun u hu => nomatch hnext ▸ hu
  | analyze _ _ _ _ _ _ hnext => exact fun u hu => nomatch hnext ▸ hu
  | turnBack _ _ _ _ _ _ hnext => exact fun u hu => nomatch hnext ▸ hu

theorem visitAll_ne_nul (hnames : ∀ e ∈ tree.entries, ∀ n ∈ e.1, '\x00' ∉ n)
    (h : ∀ v ∈ pending, v.path.NulFree) : (visitAll tree pending c).1 ≠ some .nulCharacter := by
  induction pending, c using visitAll.induct tree with
  | case1 c => simp [visitAll]
  | case2 v rest c fault hfault =>
    rw [visitAll_cons_of_fault hfault]
    intro hnul
    rcases (outcome_visit tree c v).of_fault hfault with ⟨hhas, -⟩ | ⟨-, hne⟩
    · exact nomatch hhas.symm.trans (h v List.mem_cons_self).hasNul
    · exact hne (Option.some.inj hnul)
  | case3 v rest c hfault ih =>
    rw [visitAll_cons hfault]
    apply ih
    intro u hu
    rcases List.mem_append.1 hu with hu | hu
    · exact (outcome_visit tree c v).next_nulFree hnames (h v List.mem_cons_self) u hu
    · exact h u (List.mem_cons_of_mem _ hu)

theorem visitAll_start_ne_nul (hnames : ∀ e ∈ tree.entries, ∀ n ∈ e.1, '\x00' ∉ n) {root : Path}
    (h : root.NulFree) :
    (visitAll tree [.start root] c).1 ≠ some .nulCharacter := by
  apply visitAll_ne_nul hnames
  intro v hv
  rw [List.mem_singleton.1 hv]
  exact h

theorem exists_of_visitAll_fault {fault : CrawlFault}
    (h : (visitAll tree pending c).1 = some fault) :
    ∃ c₁ v, Follows c c₁ ∧ (visit c₁ tree v).fault = some fault := by
  induction pending, c using visitAll.induct tree with
  | case1 c =>
    rw [visitAll] at h
    cases h
  | case2 v rest c fault' hfault =>
    rw [visitAll_cons_of_fault hfault] at h
    cases h
    exact ⟨c, v, .refl c, hfault⟩
  | case3 v rest c hfault ih =>
    rw [visitAll_cons hfault] at h
    obtain ⟨c₁, u, hlater, hu⟩ := ih h
    exact ⟨c₁, u, (follows_visit tree c v).trans hlater, hu⟩

theorem visitAll_fault_of_named (h : c.tables.Named) :
    ∀ fault ∈ (visitAll tree pending c).1, fault = .nulCharacter := by
  intro fault hfault
  obtain ⟨c₁, v, hfollows, hvisit⟩ := exists_of_visitAll_fault hfault
  rcases (outcome_visit tree c₁ v).of_fault hvisit with ⟨-, hnul⟩ | ⟨hnamed, -⟩
  · exact hnul
  · exact (hnamed (hfollows.tables ▸ h)).elim

/-- What breaks a crawl off breaks off the visits that come of a starting point. -/
theorem exists_of_crawlFrom_fault {outOf i : Nat} {roots : List Path} {fault : CrawlFault}
    (h : (crawlFrom tree outOf i roots c).1 = some fault) :
    ∃ root ∈ roots, ∃ c₁, Follows c c₁ ∧ (visitAll tree [.start root] c₁).1 = some fault := by
  induction roots generalizing i c with
  | nil => cases h
  | cons root rest ih =>
    have hannounced := follows_announce c i outOf
    rcases hvisits : visitAll tree [.start root] (c.announce i outOf) with ⟨_ | _, c'⟩
    · have hroot := follows_visitAll tree (c.announce i outOf) [.start root]
      rw [hvisits] at hroot
      rw [crawlFrom_cons hvisits] at h
      obtain ⟨root', hmem, c₁, hlater, hfault⟩ := ih h
      exact ⟨root', List.mem_cons_of_mem _ hmem, c₁, (hannounced.trans hroot).trans hlater, hfault⟩
    · rw [crawlFrom_cons_of_fault hvisits] at h
      exact ⟨root, List.mem_cons_self, c.announce i outOf, hannounced, hvisits ▸ h⟩

theorem crawlFrom_fault_of_named (h : c.tables.Named) (outOf i : Nat) (roots : List Path) :
    ∀ fault ∈ (crawlFrom tree outOf i roots c).1, fault = .nulCharacter := by
  intro fault hfault
  obtain ⟨root, -, c₁, hfollows, hroot⟩ := exists_of_crawlFrom_fault hfault
  exact visitAll_fault_of_named (hfollows.tables ▸ h) fault hroot

theorem crawlFrom_ne_nul (hnames : ∀ e ∈ tree.entries, ∀ n ∈ e.1, '\x00' ∉ n) {roots : List Path}
    (hroots : ∀ root ∈ roots, root.NulFree) (outOf i : Nat) :
    (crawlFrom tree outOf i roots c).1 ≠ some .nulCharacter := by
  intro hfault
  obtain ⟨root, hmem, c₁, -, hroot⟩ := exists_of_crawlFrom_fault hfault
  exact visitAll_start_ne_nul hnames (hroots root hmem) hroot

/-- A crawl is not broken off if its rules name what they find and no path has a character that no
name can have. -/
theorem crawlFrom_of_named (h : c.tables.Named) (hnames : ∀ e ∈ tree.entries, ∀ n ∈ e.1, '\x00' ∉ n)
    {roots : List Path} (hroots : ∀ root ∈ roots, root.NulFree) (outOf i : Nat) :
    (crawlFrom tree outOf i roots c).1 = none := by
  cases hfault : (crawlFrom tree outOf i roots c).1 with
  | none => rfl
  | some fault =>
    have hnul := crawlFrom_fault_of_named h outOf i roots fault hfault
    exact (crawlFrom_ne_nul hnames hroots outOf i (hfault.trans (congrArg some hnul))).elim

/-- Visits paths as `visitAll` does, but no more than `n`; nothing when there are more. -/
def visitWithin (tree : FileTree) :
    (n : Nat) → List Visit → Crawler → Option (Option CrawlFault × Crawler)
  | _, [], c => some (none, c)
  | 0, _ :: _, _ => none
  | n + 1, v :: rest, c =>
    match (c.visit tree v).fault with
    | some fault => some (some fault, (c.visit tree v).crawler)
    | none => visitWithin tree n ((c.visit tree v).next ++ rest) (c.visit tree v).crawler

theorem visitAll_of_visitWithin {n : Nat} {r : Option CrawlFault × Crawler}
    (h : visitWithin tree n pending c = some r) : visitAll tree pending c = r := by
  induction n generalizing pending c with
  | zero =>
    cases pending with
    | nil =>
      rw [visitAll]
      exact Option.some.inj h
    | cons v rest => cases h
  | succ n ih =>
    cases pending with
    | nil =>
      rw [visitAll]
      exact Option.some.inj h
    | cons v rest =>
      rw [visitWithin] at h
      rw [visitAll]
      cases hfault : (c.visit tree v).fault with
      | some fault =>
        simp only [hfault] at h
        exact Option.some.inj h
      | none =>
        simp only [hfault] at h
        exact ih h

/-- Crawls starting points as `crawlFrom` does, with no more than `n` visits for each. -/
def crawlWithin (tree : FileTree) (n outOf : Nat) : (i : Nat) → List Path → Crawler → Option Crawler
  | i, [], c => some { c with progress := c.progress ++ [⟨i, outOf⟩] }
  | i, root :: rest, c =>
    match visitWithin tree n [{ path := root, byName := true }]
      { c with progress := c.progress ++ [⟨i, outOf⟩] } with
    | some (none, c) => crawlWithin tree n outOf (i + 1) rest c
    | _ => none

theorem crawlFrom_of_crawlWithin {n outOf i : Nat} {roots : List Path} {c' : Crawler}
    (h : crawlWithin tree n outOf i roots c = some c') :
    crawlFrom tree outOf i roots c = (none, c') := by
  induction roots generalizing i c with
  | nil => rw [crawlFrom, Option.some.inj h]
  | cons root rest ih =>
    rw [crawlWithin] at h
    split at h
    · next c hvisits =>
      rw [crawlFrom, visitAll_of_visitWithin hvisits]
      exact ih h
    · cases h

end Crawler

end DependencyAtlas
