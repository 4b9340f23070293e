import DependencyAtlas.Proofs.Crawl.Run
import DependencyAtlas.Proofs.FirstSeen

namespace DependencyAtlas

namespace CrawlEvent

def place : CrawlEvent → Location
  | .listed place _ => place
  | .analyzed place _ _ => place

def isListed : CrawlEvent → Bool
  | .listed .. => true
  | .analyzed .. => false

def isMerged : CrawlEvent → Bool
  | .listed .. => false
  | .analyzed _ _ merged => merged

def Fits (tree : FileTree) : CrawlEvent → Prop
  | .listed place _ => tree.entryAt place = some .directory
  | .analyzed place _ _ => ∃ bytes, tree.entryAt place = some (.file bytes)

end CrawlEvent

namespace FileTree

/-- How many entries are in directories that have not been visited. -/
def awaited (tree : FileTree) (visited : List Location) : Nat :=
  FirstSeen.remaining (tree.entries.map (·.1.dropLast)) visited

theorem length_names_le (tree : FileTree) (place : Location) :
    (tree.names place).length ≤ (tree.entries.map (·.1.dropLast)).countP (· = place) := by
  rw [names, List.length_mergeSort, List.length_filterMap_eq_countP, List.countP_map]
  apply List.countP_mono_left
  intro e _ he
  split at he
  · split at he
    · next h => exact decide_eq_true h
    · cases he
  · cases he

theorem awaited_le (tree : FileTree) (visited : List Location) :
    tree.awaited visited ≤ tree.entries.length := by
  have hle := FirstSeen.remaining_le (tree.entries.map (·.1.dropLast)) visited
  rwa [List.length_map] at hle

end FileTree

namespace Crawler

variable {tree : FileTree} {c c' : Crawler} {v : Visit} {pending : List Visit} {r : Visited}

section Ending

theorem Outcome.awaited (h : Outcome tree c v r) :
    r.next.length + tree.awaited r.crawler.visited ≤ tree.awaited c.visited := by
  cases h with
  | refuse _ _ hc hnext =>
    exact Nat.le_of_eq (by rw [hnext, hc.visited, List.length_nil, Nat.zero_add])
  | pass _ _ hc hnext =>
    exact Nat.le_of_eq (by rw [hnext, hc.visited, List.length_nil, Nat.zero_add])
  | analyze _ _ _ _ _ hc hnext =>
    rw [hnext, hc.visited, List.length_nil, Nat.zero_add]
    exact FirstSeen.remaining_cons_le _ _ _
  | turnBack _ _ _ _ _ hc hnext =>
    rw [hnext, hc.visited, List.length_nil, Nat.zero_add]
    exact FirstSeen.remaining_cons_le _ _ _
  | @enter place _ _ hfresh _ _ hc hnext =>
    -- the entries of the directory are no longer awaited, and no more than these come next
    have hawaited :
        tree.awaited (place :: c.visited) + (tree.entries.map (·.1.dropLast)).countP (· = place) =
        tree.awaited c.visited := FirstSeen.remaining_cons_add_countP hfresh
    have hnames := tree.length_names_le place
    have hchildren : (childrenOf tree v place).length ≤ (tree.names place).length := by
      rw [childrenOf, List.length_map]
      exact List.length_filter_le _ _
    rw [hnext, hc.visited]
    omega

theorem visitWithin_of_awaited {n : Nat} (h : pending.length + tree.awaited c.visited ≤ n) :
    visitWithin tree n pending c = some (visitAll tree pending c) := by
  induction n generalizing pending c with
  | zero =>
    have hnil : pending = [] := List.eq_nil_of_length_eq_zero (by omega)
    rw [hnil, visitWithin, visitAll]
  | succ n ih =>
    cases pending with
    | nil => rw [visitWithin, visitAll]
    | cons v rest =>
      have hstep := (outcome_visit tree c v).awaited
      rw [List.length_cons] at h
      rw [visitWithin]
      cases hfault : (c.visit tree v).fault with
      | some fault => rw [visitAll_cons_of_fault hfault]
      | none =>
        rw [visitAll_cons hfault]
        apply ih
        rw [List.length_append]
        omega

end Ending

section Accounts

/-- The journal tells of every place once, and agrees with the tree, with the places visited and
with the counts. -/
structure Accounted (tree : FileTree) (c : Crawler) : Prop where
  once : (c.journal.map CrawlEvent.place).Nodup
  fits : ∀ e ∈ c.journal, e.Fits tree
  noted : ∀ e ∈ c.journal, e.place ∈ c.visited
  processed : c.stats.processed = c.journal.countP CrawlEvent.isMerged
  directories : c.stats.directories = c.journal.countP CrawlEvent.isListed

theorem Accounted.pass (h : Accounted tree c) {atlas : Atlas} {visited : List Location}
    (hc : Becomes c c' atlas visited c.journal c.stats.processed c.stats.directories)
    (hsub : c.visited ⊆ visited) :
    Accounted tree c' where
  once := hc.journal ▸ h.once
  fits := hc.journal ▸ h.fits
  noted := by
    rw [hc.journal, hc.visited]
    exact fun e he => hsub (h.noted e he)
  processed := by rw [hc.processed, hc.journal, h.processed]
  directories := by rw [hc.directories, hc.journal, h.directories]

theorem Accounted.log (h : Accounted tree c) {e : CrawlEvent} {atlas : Atlas} (hfits : e.Fits tree)
    (hfresh : e.place ∉ c.visited)
    (hc : Becomes c c' atlas (e.place :: c.visited) (e :: c.journal)
      (c.stats.processed + e.isMerged.toNat) (c.stats.directories + e.isListed.toNat)) :
    Accounted tree c' where
  once := by
    rw [hc.journal, List.map_cons, List.nodup_cons]
    refine ⟨fun hmem => ?_, h.once⟩
    obtain ⟨e', he', hplace⟩ := List.mem_map.1 hmem
    exact hfresh (hplace ▸ h.noted e' he')
  fits := by
    rw [hc.journal]
    exact List.forall_mem_cons.2 ⟨hfits, h.fits⟩
  noted := by
    rw [hc.journal, hc.visited]
    exact List.forall_mem_cons.2 ⟨List.mem_cons_self,
      fun e' he' => List.mem_cons_of_mem _ (h.noted e' he')⟩
  processed := by
    rw [hc.processed, hc.journal, List.countP_cons, h.processed]
    cases e.isMerged <;> rfl
  directories := by
    rw [hc.directories, hc.journal, List.countP_cons, h.directories]
    cases e.isListed <;> rfl

theorem Accounted.visit (h : Accounted tree c) (v : Visit) :
    Accounted tree (c.visit tree v).crawler := by
  cases outcome_visit tree c v with
  | refuse _ _ hc _ => exact h.pass hc (List.Subset.refl _)
  | pass _ _ hc _ => exact h.pass hc (List.Subset.refl _)
  | @analyze merged place bytes hlook _ hfresh _ hc _ =>
    exact h.log (e := .analyzed place v.path merged) ⟨bytes,
      FileTree.entryAt_of_look hlook⟩ hfresh hc
  | turnBack _ _ _ _ _ hc _ => exact h.pass hc (List.subset_cons_self _ _)
  | @enter place hlook _ hfresh _ _ hc _ =>
    exact h.log (e := .listed place v.path) (FileTree.entryAt_of_look hlook) hfresh hc

end Accounts

section Again

/-- Starting points that lead to nothing new: what they lead to has been dealt with, up to one, if
any, that is refused. -/
inductive Exhausted (tree : FileTree) (config : CrawlConfig)
    (visited : List Location) : List Path → Prop where
  | nil : Exhausted tree config visited []
  | refused {root : Path} {rest : List Path} :
      root.hasNul = true → Exhausted tree config visited (root :: rest)
  | settled {root : Path} {rest : List Path} :
      root.hasNul = false → Settled tree config visited (.start root) →
      Exhausted tree config visited rest → Exhausted tree config visited (root :: rest)

variable {config : CrawlConfig} {visited visited' : List Location} {roots : List Path}

theorem Exhausted.mono (h : Exhausted tree config visited roots) (hsub : visited ⊆ visited') :
    Exhausted tree config visited' roots := by
  induction h with
  | nil => exact .nil
  | refused hnul => exact .refused hnul
  | settled hnul hroot _ ih => exact .settled hnul (hroot.mono hsub) ih

theorem exhausted_crawlFrom (hnames : ∀ e ∈ tree.entries, ∀ n ∈ e.1, '\x00' ∉ n) {outOf i : Nat}
    (h : ∀ fault ∈ (crawlFrom tree outOf i roots c).1, fault = .nulCharacter) :
    Exhausted tree c.config (crawlFrom tree outOf i roots c).2.visited roots := by
  induction roots generalizing i c with
  | nil => exact .nil
  | cons root rest ih =>
    cases hnul : root.hasNul with
    | true => exact .refused hnul
    | false =>
      rcases hvisits : visitAll tree [.start root] (c.announce i outOf) with ⟨_ | fault, c'⟩
      · have hconfig : c'.config = c.config := by
          have hroot := follows_visitAll tree (c.announce i outOf) [.start root]
          rw [hvisits] at hroot
          exact hroot.config
        have hsettled := settled_visitAll hvisits _ (List.mem_singleton.2 rfl)
        rw [crawlFrom_cons hvisits] at h ⊢
        refine .settled hnul (hsettled.mono (follows_crawlFrom tree c' outOf (i + 1) rest).visited)
          ?_
        exact hconfig ▸ ih h
      · -- no visit that comes of this starting point is refused, so what breaks off the crawl would
        -- be something else
        have hne :=
          visitAll_start_ne_nul (c := c.announce i outOf) hnames (Path.nulFree_of_hasNul hnul)
        rw [hvisits] at hne
        rw [crawlFrom_cons_of_fault hvisits] at h
        exact (hne (congrArg some (h fault rfl))).elim

theorem visit_of_settled (hnul : v.path.hasNul = false) (h : Settled tree c.config c.visited v) :
    (c.visit tree v).fault = none ∧ Unchanged c (c.visit tree v).crawler ∧
    (c.visit tree v).next = [] := by
  cases outcome_visit tree c v with
  | refuse hrefused _ _ _ => exact nomatch hnul.symm.trans hrefused
  | pass _ hfault hc hnext => exact ⟨hfault, hc, hnext⟩
  | analyze _ hlook hwants hfresh _ _ _ => exact (hfresh (h.2 _ _ hlook hwants)).elim
  | turnBack hlook hname hfresh _ _ _ _ => exact (hfresh (h.1 _ hlook hname)).elim
  | enter hlook hname hfresh _ _ _ _ => exact (hfresh (h.1 _ hlook hname)).elim

theorem visit_of_hasNul (hnul : v.path.hasNul = true) :
    c.visit tree v = { fault := some .nulCharacter, crawler := c } := by
  have hlook : tree.look v.path = .error .nulCharacter := by
    rw [FileTree.look, FileTree.resolve, hnul]
    rfl
  rw [visit, hlook]

theorem Unchanged.trans {c'' : Crawler} (h : Unchanged c c') (h' : Unchanged c' c'') :
    Unchanged c c'' where
  config := h'.config.trans h.config
  tables := h'.tables.trans h.tables
  atlas := h'.atlas.trans h.atlas
  visited := h'.visited.trans h.visited
  journal := h'.journal.trans h.journal
  processed := h'.processed.trans h.processed
  directories := h'.directories.trans h.directories

theorem Exhausted.crawlFrom (h : Exhausted tree c.config c.visited roots) (outOf i : Nat) :
    Unchanged c (crawlFrom tree outOf i roots c).2 := by
  induction roots generalizing i c with
  | nil => exact unchanged_announce c i outOf
  | cons root rest ih =>
    cases h with
    | refused hnul =>
      have hvisit : (c.announce i outOf).visit tree (.start root) =
          { fault := some .nulCharacter, crawler := _ } :=
        visit_of_hasNul hnul
      have hfault := congrArg Visited.fault hvisit
      rw [crawlFrom_cons_of_fault (visitAll_cons_of_fault hfault []), hvisit]
      exact unchanged_announce c i outOf
    | settled hnul hroot hrest =>
      obtain ⟨hfault, hc, hnext⟩ := visit_of_settled (c := c.announce i outOf) hnul hroot
      have hvisits := visitAll_cons hfault []
      rw [hnext, List.nil_append, visitAll] at hvisits
      have hsame := (unchanged_announce c i outOf).trans hc
      rw [crawlFrom_cons hvisits]
      rw [← hsame.config, ← hsame.visited] at hrest
      exact hsame.trans (ih hrest (i + 1))

end Again

/-- Crawls lists of starting points one after the other. A crawl that is broken off leaves what it
has done. -/
def crawls (tree : FileTree) (calls : List (List Path)) (c : Crawler) : Crawler :=
  calls.foldl (fun c roots => (c.crawl tree roots).2) c

theorem crawls_induction {P : Crawler → Prop} (hvisit : ∀ c v, P c → P (c.visit tree v).crawler)
    (hannounce : ∀ c done outOf, P c → P (c.announce done outOf)) (h : P c)
    (calls : List (List Path)) :
    P (crawls tree calls c) := by
  induction calls generalizing c with
  | nil => exact h
  | cons roots calls ih => exact ih (crawlFrom_induction hvisit hannounce h roots.length 0 roots)

theorem accounted_crawls (h : Accounted tree c) (calls : List (List Path)) :
    Accounted tree (crawls tree calls c) :=
  crawls_induction (fun _ v hc => hc.visit v)
    (fun c done outOf hc => hc.pass (unchanged_announce c done outOf) (List.Subset.refl _)) h calls

theorem follows_crawls (tree : FileTree) (c : Crawler) (calls : List (List Path)) :
    Follows c (crawls tree calls c) :=
  crawls_induction (fun c' v h => h.trans (follows_visit tree c' v))
    (fun c' done outOf h => h.trans (follows_announce c' done outOf)) (.refl c) calls

/-- Crawling comes to an end, touches every place once over all the crawls, and finds nothing new
when a crawl is made again that was not broken off by the analysis of a file. -/
theorem crawls_touch_each_place_once (tree : FileTree) (config : CrawlConfig) (tables : RuleTables)
    (atlas : Atlas) (calls : List (List Path)) :
    (∀ pending c, visitWithin tree (pending.length + tree.entries.length) pending c =
      some (visitAll tree pending c)) ∧
    Accounted tree (crawls tree calls { config, tables, atlas }) ∧
    ((∀ e ∈ tree.entries, ∀ n ∈ e.1, '\x00' ∉ n) →
      ∀ earlier roots later, calls = earlier ++ roots :: later →
      (tables.Named ∨
        ∀ fault ∈ ((crawls tree earlier { config, tables, atlas }).crawl tree roots).1,
        fault = .nulCharacter) →
      Unchanged (crawls tree calls { config, tables, atlas })
        ((crawls tree calls { config, tables, atlas }).crawl tree roots).2) := by
  refine ⟨?_, ?_, ?_⟩
  · intro pending c
    exact visitWithin_of_awaited (Nat.add_le_add_left (tree.awaited_le c.visited) _)
  · apply accounted_crawls
    exact ⟨.nil, (fun e he => nomatch he), (fun e he => nomatch he), rfl, rfl⟩
  · intro hnames earlier roots later hcalls hfaults
    have hbefore := follows_crawls tree { config, tables, atlas } earlier
    generalize hc : crawls tree earlier { config, tables, atlas } = c at hbefore hfaults
    have hall :
        crawls tree calls { config, tables, atlas } = crawls tree later (c.crawl tree roots).2 := by
      rw [hcalls, crawls, List.foldl_append, List.foldl_cons, ← hc]
      rfl
    have hfault : ∀ fault ∈ (c.crawl tree roots).1, fault = .nulCharacter := by
      rcases hfaults with hnamed | hfault
      · exact crawlFrom_fault_of_named (hbefore.tables ▸ hnamed) roots.length 0 roots
      · exact hfault
    have hexhausted : Exhausted tree c.config (c.crawl tree roots).2.visited roots :=
      exhausted_crawlFrom hnames hfault
    have hconfig : (c.crawl tree roots).2.config = c.config :=
      (follows_crawlFrom tree c roots.length 0 roots).config
    have hafter := follows_crawls tree (c.crawl tree roots).2 later
    rw [hall]
    apply Exhausted.crawlFrom
    rw [hafter.config, hconfig]
    exact hexhausted.mono hafter.visited

/-- Two directories with links to each other, and a file and a link to it. -/
def loopedTree : FileTree where
  entries :=
    [(["r"].map String.toList, .directory), (["r", "a"].map String.toList, .link "../s".toList),
      (["s"].map String.toList, .directory), (["s", "b"].map String.toList, .link "../r".toList),
      (["f.py"].map String.toList, .file "import os\n".toUTF8.toList),
      (["g.py"].map String.toList, .link "f.py".toList)]

def loopedRoots : List Path :=
  ["r", "s", "f.py", "g.py"].map fun t => .ofText t.toList

theorem crawls_of_loopedTree :
    (∀ e ∈ loopedTree.entries, ∀ n ∈ e.1, '\x00' ∉ n) ∧
    ∃ c, crawls loopedTree [loopedRoots] { config := {}, tables := builtinRules, atlas := {} } = c ∧
      c.journal = [.analyzed ["f.py".toList] (.ofText "f.py".toList) true,
        .listed ["s".toList] (.ofText "r/a".toList), .listed ["r".toList] (.ofText "r".toList)] ∧
      Accounted loopedTree c ∧ Unchanged c (c.crawl loopedTree loopedRoots).2 := by
  have hnames : ∀ e ∈ loopedTree.entries, ∀ n ∈ e.1, '\x00' ∉ n := by decide +kernel
  obtain ⟨-, haccounted, hagain⟩ :=
    crawls_touch_each_place_once loopedTree {} builtinRules {} [loopedRoots]
  have hjournal :
      (crawlWithin loopedTree 3 4 0 loopedRoots
          { config := {}, tables := builtinRules, atlas := {} }).map (·.journal) =
        some [.analyzed ["f.py".toList] (.ofText "f.py".toList) true,
          .listed ["s".toList] (.ofText "r/a".toList),
          .listed ["r".toList] (.ofText "r".toList)] := by
    decide +kernel
  obtain ⟨c, hc, hevents⟩ := Option.map_eq_some_iff.1 hjournal
  have hcrawl :
      crawls loopedTree [loopedRoots] { config := {}, tables := builtinRules, atlas := {} } = c :=
    congrArg Prod.snd (crawlFrom_of_crawlWithin hc)
  exact ⟨hnames, c, hcrawl, hevents, hcrawl ▸ haccounted,
    hcrawl ▸ hagain hnames [] loopedRoots [] rfl (.inl RuleTables.named_builtinRules)⟩

end Crawler

end DependencyAtlas
