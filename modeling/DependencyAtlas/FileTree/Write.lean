import DependencyAtlas.FileTree.Basic

namespace DependencyAtlas.FileTree

def put (t : FileTree) (place : Location) (e : Entry) : FileTree :=
  { t with entries := t.entries.filter (·.1 ≠ place) ++ [(place, e)] }

def newPlace (t : FileTree) (p : Path) : Except PathError Location :=
  if p.hasNul then .error .nulCharacter
  else if maxPath < (Text.toUtf8 p.render).length then .error .nameTooLong
  else if p.parts = [] then .error .alreadyExists
  else
    match t.look p.parent with
    | .error e => .error e
    | .ok (directory, e) =>
      if e ≠ .directory then .error .notADirectory
      else if p.name = ['.', '.'] then .error .alreadyExists
      else if maxName < (Text.toUtf8 p.name).length then .error .nameTooLong
      else if (t.entryAt (directory ++ [p.name])).isSome then .error .alreadyExists
      else .ok (directory ++ [p.name])

def make (t : FileTree) (p : Path) (e : Entry) : Except PathError FileTree :=
  (t.newPlace p).map fun place => t.put place e

def makeLink (t : FileTree) (p : Path) (target : Text) : Except PathError FileTree :=
  if p.hasNul ∨ '\x00' ∈ target then .error .nulCharacter
  else if target = [] then .error .notFound
  else if maxPath < (Text.toUtf8 target).length then .error .nameTooLong
  else t.make p (.link target)

def leadsToDirectory (t : FileTree) (p : Path) : Bool :=
  match t.look p with
  | .ok (_, .directory) => true
  | _ => false

/-- Makes a directory, unless the path leads to one. A link on the way to too long a name counts as
that, and not as an entry that is there already. -/
def makeDirectory (t : FileTree) (p : Path) : Except PathError FileTree :=
  match t.make p .directory with
  | .error .notFound => .error .notFound
  | .error e =>
    match t.look p with
    | .ok (_, .directory) => .ok t
    | .error .nameTooLong => .error .nameTooLong
    | _ => .error e
  | .ok t => .ok t

def makeDirectoriesFrom : (fuel : Nat) → FileTree → Path → Except PathError FileTree
  | 0, t, p => t.makeDirectory p
  | n + 1, t, p =>
    match t.makeDirectory p with
    | .error .notFound => do
      let t ← makeDirectoriesFrom n t p.parent
      t.makeDirectory p
    | r => r

def makeDirectories (t : FileTree) (p : Path) : Except PathError FileTree :=
  makeDirectoriesFrom p.parts.length t p

def write (t : FileTree) (p : Path) (bytes : List UInt8) : Except PathError FileTree :=
  match t.resolve .writing p with
  | .error e => .error e
  | .ok (.absent place) => .ok (t.put place (.file bytes))
  | .ok (.found place) =>
    if t.isDirectory place then .error .isADirectory else .ok (t.put place (.file bytes))

def writeText (t : FileTree) (p : Path) (text : Text) : Except PathError FileTree := do
  let t ← t.makeDirectories p.parent
  t.write p (Text.toUtf8 text)

/-- Something to put into a tree. -/
inductive Seed where
  | directory
  | file (bytes : List UInt8)
  | link (target : Text)
  | pipe
  deriving DecidableEq, Repr

def plant (t : FileTree) (p : Path) (s : Seed) : Except PathError FileTree := do
  let t ← t.makeDirectories p.parent
  match s with
  | .directory => t.makeDirectory p
  | .file bytes => t.write p bytes
  | .link target => t.makeLink p target
  | .pipe => t.make p .pipe

end DependencyAtlas.FileTree
