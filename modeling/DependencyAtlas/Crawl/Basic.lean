import DependencyAtlas.Crawl.Config
import DependencyAtlas.Crawl.FileRecords
import DependencyAtlas.FileTree.Basic
import DependencyAtlas.Pattern.Library
import DependencyAtlas.Rules

namespace DependencyAtlas

structure CrawlStats where
  processed : Nat := 0
  skipped : Nat := 0
  failed : Nat := 0
  directories : Nat := 0
  deriving DecidableEq, Repr

inductive CrawlFault where
  | nulCharacter
  | extraction (e : ExtractError)
  | ledger (e : LedgerFault)
  deriving DecidableEq, Repr

def CrawlFault.message : CrawlFault → Text
  | .nulCharacter => PathError.nulCharacter.message
  | .extraction e => e.message
  | .ledger e => e.message

/-- A step that is announced while crawling: how many of how many starting points are done. -/
structure Progress where
  done : Nat
  outOf : Nat
  deriving DecidableEq, Repr

/-- What a crawl does at a place, under the path that led there: it lists a directory, or analyzes a
file, which may fail. -/
inductive CrawlEvent where
  | listed (place : Location) (path : Path)
  | analyzed (place : Location) (path : Path) (merged : Bool)
  deriving DecidableEq, Repr

structure Crawler where
  config : CrawlConfig
  tables : RuleTables
  atlas : Atlas := {}
  stats : CrawlStats := {}
  visited : List Location := []
  progress : List Progress := []
  /-- What has been done so far, the latest first. -/
  journal : List CrawlEvent := []

structure Visit where
  path : Path
  depth : Nat := 0
  byName : Bool := false
  deriving DecidableEq, Repr

def CrawlConfig.sourceFile (c : CrawlConfig) (path : Path) (bytes : List UInt8) : SourceFile where
  path := path.render
  language := Language.ofPath c.defaultLanguage path.render
  text := Text.unifyLineEnds (Text.ofUtf8 bytes)

namespace Crawler

/-- Analyzes a file and merges what it yields. The answer is false, and the graph is as before, when
the file cannot be read or one of its structures has no name. -/
def processFile (c : Crawler) (tree : FileTree) (path : Path) : Except CrawlFault Bool × Atlas :=
  match tree.read path with
  | .error .nulCharacter => (.error .nulCharacter, c.atlas)
  | .error _ => (.ok false, c.atlas)
  | .ok bytes =>
    let f := c.config.sourceFile path bytes
    match f.records c.tables c.config.analyze true with
    | .error (.unnamedStructure _ _) => (.ok false, c.atlas)
    | .error e => (.error (.extraction e), c.atlas)
    | .ok records =>
      match c.atlas.addFile f records with
      | (some fault, atlas) => (.error (.ledger fault), atlas)
      | (none, atlas) => (.ok true, atlas)

def childrenOf (tree : FileTree) (v : Visit) (place : Location) : List Visit :=
  ((tree.names place).filter fun n => n.head? ≠ some '.').map fun n =>
    { path := v.path.child n, depth := v.depth + 1 }

structure Visited where
  fault : Option CrawlFault := none
  crawler : Crawler
  next : List Visit := []

def countFailed (c : Crawler) : Crawler :=
  { c with stats := { c.stats with failed := c.stats.failed + 1 } }

def countSkipped (c : Crawler) : Crawler :=
  { c with stats := { c.stats with skipped := c.stats.skipped + 1 } }

def note (c : Crawler) (place : Location) : Crawler :=
  { c with visited := place :: c.visited }

def log (c : Crawler) (e : CrawlEvent) : Crawler :=
  { c with journal := e :: c.journal }

def visitFile (c : Crawler) (tree : FileTree) (v : Visit) (place : Location) : Visited :=
  if !c.config.wants v.path v.byName then { crawler := c.countSkipped }
  else if place ∈ c.visited then { crawler := c }
  else
    let (result, atlas) := c.processFile tree v.path
    let c := { c.note place with atlas }
    match result with
    | .error fault => { fault := some fault, crawler := c.log (.analyzed place v.path false) }
    | .ok true =>
      { crawler :=
          { c.log (.analyzed place v.path true) with
            stats := { c.stats with processed := c.stats.processed + 1 } } }
    | .ok false => { crawler := (c.log (.analyzed place v.path false)).countFailed }

/-- Visits a directory, whose entries come next unless it is skipped, has been visited, is too deep
or cannot be listed. A directory that is too deep, or that cannot be listed, counts as visited. -/
def visitDirectory (c : Crawler) (tree : FileTree) (v : Visit) (place : Location) : Visited :=
  if v.path.name ∈ c.config.skipDirs ∨ place ∈ c.visited then { crawler := c }
  else if c.config.tooDeep v.depth then { crawler := c.note place }
  else if place ∈ tree.closed then { crawler := (c.note place).countFailed }
  else
    { crawler :=
        { (c.note place).log (.listed place v.path) with
          stats := { c.stats with directories := c.stats.directories + 1 } }
      next := childrenOf tree v place }

def visit (c : Crawler) (tree : FileTree) (v : Visit) : Visited :=
  match tree.look v.path with
  | .error .nulCharacter => { fault := some .nulCharacter, crawler := c }
  | .error _ => { crawler := c.countFailed }
  | .ok (place, .file _) => c.visitFile tree v place
  | .ok (place, .directory) => c.visitDirectory tree v place
  | .ok _ => { crawler := c.countSkipped }

def unvisited (c : Crawler) (tree : FileTree) : Nat :=
  FirstSeen.remaining tree.directories c.visited

theorem visitFile_next (c : Crawler) (tree : FileTree) (v : Visit) (place : Location) :
    (c.visitFile tree v place).next = [] := by
  unfold visitFile
  split
  · rfl
  · split
    · rfl
    · dsimp only
      split <;> rfl

theorem unvisited_visitFile (c : Crawler) (tree : FileTree) (v : Visit) (place : Location) :
    (c.visitFile tree v place).crawler.unvisited tree ≤ c.unvisited tree := by
  unfold visitFile
  split
  · exact Nat.le_refl _
  · split
    · exact Nat.le_refl _
    · dsimp only
      split <;> exact FirstSeen.remaining_cons_le _ _ _

theorem visit_decreases (c : Crawler) (tree : FileTree) (v : Visit) :
    (c.visit tree v).crawler.unvisited tree < c.unvisited tree ∨
      (c.visit tree v).next = [] ∧ (c.visit tree v).crawler.unvisited tree ≤ c.unvisited tree := by
  unfold visit
  split
  · exact .inr ⟨rfl, Nat.le_refl _⟩
  · exact .inr ⟨rfl, Nat.le_refl _⟩
  · exact .inr ⟨visitFile_next .., unvisited_visitFile ..⟩
  · next place hlook =>
    unfold visitDirectory
    split
    · exact .inr ⟨rfl, Nat.le_refl _⟩
    · next h =>
      have hlt :=
        FirstSeen.remaining_cons_lt (FileTree.mem_directories (FileTree.entryAt_of_look hlook))
        (fun hm => h (.inr hm))
      split
      · exact .inl hlt
      · split <;> exact .inl hlt
  · exact .inr ⟨rfl, Nat.le_refl _⟩

def visitAll (tree : FileTree) : List Visit → Crawler → Option CrawlFault × Crawler
  | [], c => (none, c)
  | v :: rest, c =>
    match (c.visit tree v).fault with
    | some fault => (some fault, (c.visit tree v).crawler)
    | none => visitAll tree ((c.visit tree v).next ++ rest) (c.visit tree v).crawler
termination_by visits c => (c.unvisited tree, visits.length)
decreasing_by
  rcases visit_decreases c tree v with h | ⟨hn, h⟩
  · exact Prod.Lex.left _ _ h
  · rcases Nat.lt_or_eq_of_le h with h | h
    · exact Prod.Lex.left _ _ h
    · rw [h, hn]
      exact Prod.Lex.right _ (by simp)

def crawlFrom (tree : FileTree) (outOf : Nat) :
    (i : Nat) → List Path → Crawler → Option CrawlFault × Crawler
  | i, [], c => (none, { c with progress := c.progress ++ [⟨i, outOf⟩] })
  | i, root :: rest, c =>
    match visitAll tree [{ path := root, byName := true }]
      { c with progress := c.progress ++ [⟨i, outOf⟩] } with
    | (some fault, c) => (some fault, c)
    | (none, c) => crawlFrom tree outOf (i + 1) rest c

def crawl (c : Crawler) (tree : FileTree) (roots : List Path) : Option CrawlFault × Crawler :=
  crawlFrom tree roots.length 0 roots c

end Crawler

/-- Crawls the roots and then the library directories with the rules of a table, none of which may
be bad. -/
def runCrawl (tree : FileTree) (config : CrawlConfig) (tables : RuleTables) :
    Except CrawlFault Crawler :=
  match (Library.prepare { tables }).1 with
  | some e => .error (.extraction (.badPattern e))
  | none =>
    match Crawler.crawl { config, tables } tree config.roots with
    | (some fault, _) => .error fault
    | (none, c) =>
      if config.libraryDirs = [] then .ok c
      else
        match c.crawl tree config.libraryDirs with
        | (some fault, _) => .error fault
        | (none, c) => .ok c

end DependencyAtlas
