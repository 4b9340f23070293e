import DependencyAtlas.CommandLine.Run

namespace DependencyAtlas.CommandLine

def placeOf (path : String) : Location :=
  (Path.ofText path.toList).parts

def pathOf (place : Location) : String :=
  String.ofList (Path.render ⟨['/'], place⟩)

def realPath? (place : Location) :=
  (some <$> IO.FS.realPath (pathOf place)) <|> pure none

def opened? {α : Type} (read : IO α) : IO (Option α) :=
  (some <$> read) <|> pure none

/-- A snapshot in progress: the tree so far, and the places whose contents are in it. -/
structure Snapshot where
  tree : FileTree := {}
  loaded : List Location := []

namespace Snapshot

def add (s : Snapshot) (place : Location) (e : Entry) : Snapshot :=
  if (s.tree.entryAt place).isSome then s else
    { s with tree.entries := (place, e) :: s.tree.entries }

def close (s : Snapshot) (place : Location) : Snapshot :=
  { s with tree.closed := place :: s.tree.closed }

def addAbove (s : Snapshot) (place : Location) : Snapshot :=
  (List.range place.length).foldl (fun s n => s.add (place.take n) .directory) s

/-- Adds what is at a place that is free of links, with all that a directory contains and that links
in it lead to. The contents of the files that are not to be kept are left out. -/
partial def load (keep : Path → Bool) (s : Snapshot) (place : Location) : IO Snapshot := do
  if place ∈ s.loaded then return s
  let some path ← realPath? place | return s
  let s := { s.addAbove place with loaded := place :: s.loaded }
  match (← path.metadata).type with
  | .dir => do
    let mut s := s.add place .directory
    let some entries ← opened? path.readDir | return s.close place
    for e in entries do
      let child := place ++ [e.fileName.toList]
      if let some real ← realPath? child then
        let target := placeOf real.toString
        if target ≠ child then s := s.add child (.link (pathOf target).toList)
        s ← load keep s target
    return s
  | .file => do
    if !keep ⟨['/'], place⟩ then return s.add place (.file [])
    let some bytes ← opened? (IO.FS.readBinFile path) | return (s.add place (.file [])).close place
    return s.add place (.file bytes.toList)
  | _ => return s.add place .pipe

def addWay (s : Snapshot) (path : Path) : IO (Snapshot × Location) := do
  let mut s := s
  let mut here := if path.root = [] then s.tree.workplace else []
  for name in path.parts do
    s := s.addAbove (here ++ [name])
    if name = ['.', '.'] then here := here.dropLast
    else
      let place := here ++ [name]
      let target := ((← realPath? place).map fun p => placeOf p.toString).getD place
      if target ≠ place then s := s.add place (.link (pathOf target).toList)
      here := target
  return (s, here)

end Snapshot

def snapshot (o : Options) : IO FileTree := do
  let mut s : Snapshot := { tree := { workplace := placeOf (← IO.FS.realPath ".").toString } }
  s := (s.addAbove s.tree.workplace).add s.tree.workplace .directory
  for path in o.crawl.roots ++ o.crawl.libraryDirs ++ o.outputFile.toList do
    unless path.hasNul do
      let (next, place) ← s.addWay path
      s ← next.load (o.crawl.wants · true) place
  return s.tree

def writeOutput (o : Options) (after : FileTree) : IO Unit := do
  if let some path := o.outputFile then
    if let .ok bytes := after.read path then
      IO.FS.createDirAll (String.ofList path.parent.render)
      IO.FS.writeBinFile (String.ofList path.render) ⟨bytes.toArray⟩

end DependencyAtlas.CommandLine

open DependencyAtlas.CommandLine in
/-- Runs the command. Its exit code is 2 for arguments that cannot be used and 1 when it breaks
off. -/
def main (args : List String) : IO UInt32 := do
  let args := args.map String.toList
  let options := ((readArguments args).toOption.map optionsOf).getD {}
  match run (← snapshot options) args with
  | .printed output after => do
    writeOutput options after
    IO.print (String.ofList output)
    return 0
  | .refused e => do
    IO.eprintln (String.ofList e.message)
    return 2
  | .brokenOff e => do
    IO.eprintln (String.ofList e.message)
    return 1
