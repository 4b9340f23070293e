import DependencyAtlas.FileTree.Path
import DependencyAtlas.Text.Utf8

namespace DependencyAtlas

abbrev Location := List Text

inductive Entry where
  | directory
  | file (bytes : List UInt8)
  | link (target : Text)
  | pipe
  deriving DecidableEq, Repr

structure FileTree where
  entries : List (Location × Entry) := []
  /-- The places that cannot be opened: a directory there is not listed, and a file is not read. -/
  closed : List Location := []
  /-- Where relative paths start. -/
  workplace : Location := []
  deriving DecidableEq, Repr

inductive PathError where
  | notFound
  | notADirectory
  | isADirectory
  | alreadyExists
  | tooManyLinks
  | nameTooLong
  | accessDenied
  | nulCharacter
  deriving DecidableEq, Repr

def PathError.message : PathError → Text
  | .notFound => "no such file or directory".toList
  | .notADirectory => "not a directory".toList
  | .isADirectory => "is a directory".toList
  | .alreadyExists => "already exists".toList
  | .tooManyLinks => "too many symbolic links".toList
  | .nameTooLong => "name too long".toList
  | .accessDenied => "permission denied".toList
  | .nulCharacter => "embedded null byte".toList

/-- How far a path leads without following a link. -/
inductive Advance where
  | arrived (place : Location)
  | absent (place : Location)
  | failed (e : PathError)
  | atLink (directory : Location) (target : Text) (rest : List Text)
  deriving DecidableEq, Repr

/-- Where a path leads: to an entry, or to the place in a directory where an entry could be made. -/
inductive Resolution where
  | found (place : Location)
  | absent (place : Location)
  deriving DecidableEq, Repr

namespace FileTree

def entryAt (t : FileTree) (place : Location) : Option Entry :=
  if place = [] then some .directory else t.entries.lookup place

def isDirectory (t : FileTree) (place : Location) : Bool :=
  t.entryAt place == some .directory

/-- All directories can be listed. -/
def Listable (t : FileTree) : Prop :=
  ∀ place ∈ t.closed, t.entryAt place ≠ some .directory

instance (t : FileTree) : Decidable t.Listable :=
  inferInstanceAs (Decidable (∀ place ∈ t.closed, t.entryAt place ≠ some .directory))

def directories (t : FileTree) : List Location :=
  [] :: (t.entries.filter (·.2 = .directory)).map (·.1)

theorem mem_directories {t : FileTree} {place : Location} (h : t.entryAt place = some .directory) :
    place ∈ t.directories := by
  rw [entryAt] at h
  split at h
  · simp_all [directories]
  · obtain ⟨l, r, he, -⟩ := List.lookup_eq_some_iff.1 h
    simp [directories, he]

def names (t : FileTree) (directory : Location) : List Text :=
  (t.entries.filterMap fun e =>
    match e.1.getLast? with
    | some name => if e.1.dropLast = directory then some name else none
    | none => none).mergeSort Text.le

def maxName : Nat := 255

def maxPath : Nat := 4095

def maxLinks : Nat := 40

inductive Purpose where
  | finding
  | writing
  deriving DecidableEq, Repr

/-- Goes down from a directory by names, up to the first link. A last name with a slash behind it
means a directory, and is therefore nothing to write to. -/
def advance (t : FileTree) (purpose : Purpose) (here : Location) : List Text → Advance
  | [] => .arrived here
  | name :: rest =>
    if !t.isDirectory here then .failed .notADirectory
    else if name = [] ∨ name = ['.'] then advance t purpose here rest
    else if name = ['.', '.'] then advance t purpose here.dropLast rest
    else if purpose = .writing ∧ rest ≠ [] ∧ rest.all (· = []) then .failed .isADirectory
    else if maxName < (Text.toUtf8 name).length then .failed .nameTooLong
    else
      match t.entryAt (here ++ [name]) with
      | none => if rest = [] then .absent (here ++ [name]) else .failed .notFound
      | some (.link target) => .atLink here target rest
      | some _ => advance t purpose (here ++ [name]) rest

def startOf (here : Location) (t : Text) : Location :=
  if t.head? = some '/' then [] else here

def follow (t : FileTree) (purpose : Purpose) :
    (links : Nat) → (here : Location) → List Text → Except PathError Resolution
  | links, here, names =>
    match t.advance purpose here names with
    | .arrived place => .ok (.found place)
    | .absent place => .ok (.absent place)
    | .failed e => .error e
    | .atLink directory target rest =>
      match links with
      | 0 => .error .tooManyLinks
      | n + 1 =>
        follow t purpose n (startOf directory target) (Text.pieces (· == '/') target ++ rest)

def resolve (t : FileTree) (purpose : Purpose) (p : Path) : Except PathError Resolution :=
  if p.hasNul then .error .nulCharacter
  else if maxPath < (Text.toUtf8 p.render).length then .error .nameTooLong
  else t.follow purpose maxLinks (if p.root = [] then t.workplace else []) p.parts

def look (t : FileTree) (p : Path) : Except PathError (Location × Entry) :=
  match t.resolve .finding p with
  | .error e => .error e
  | .ok (.absent _) => .error .notFound
  | .ok (.found place) => ((t.entryAt place).map fun e => (place, e)).elim (.error .notFound) .ok

theorem entryAt_of_look {t : FileTree} {p : Path} {place : Location} {e : Entry}
    (h : t.look p = .ok (place, e)) :
    t.entryAt place = some e := by
  unfold look at h
  split at h <;> try contradiction
  rename_i place' _
  cases he : t.entryAt place' with
  | none => simp [he] at h
  | some e' =>
    simp only [he, Option.map_some, Option.elim_some, Except.ok.injEq, Prod.mk.injEq] at h
    rw [← h.1, ← h.2, he]

/-- The contents of the file that a path leads to. -/
def read (t : FileTree) (p : Path) : Except PathError (List UInt8) :=
  match t.look p with
  | .error e => .error e
  | .ok (place, .file bytes) =>
    if t.closed.contains place then .error .accessDenied else .ok bytes
  | .ok (_, .directory) => .error .isADirectory
  | .ok _ => .error .notFound

theorem read_of_look {t : FileTree} {p : Path} {place : Location} {bytes : List UInt8}
    (h : t.look p = .ok (place, .file bytes)) :
    t.read p = if place ∈ t.closed then .error .accessDenied else .ok bytes := by
  rw [read, h]
  simp only [List.contains_iff_mem]

end FileTree

end DependencyAtlas
