import DependencyAtlas.Graph.Basic
import DependencyAtlas.SourceFile.Structures

namespace DependencyAtlas

structure FileRecords where
  imports : List Text := []
  structures : List StructureTree := []
  methods : List MethodTree := []

def SourceFile.explainedStructures (f : SourceFile) (tables : RuleTables) (explain : Bool) :
    Except ExtractError (List StructureTree) := do
  let found ← f.structures tables
  if explain then
    let (_, heads) ← f.resolve tables (found.map (·.head))
    return found.zipWith (fun s head => { s with head }) heads
  else return found

/-- Extracts the chosen layers of a file. -/
def SourceFile.records (f : SourceFile) (tables : RuleTables) (layers : LayerChoice)
    (explain : Bool) :
    Except ExtractError FileRecords := do
  let imports ← if layers.modules then f.imports tables else .ok []
  let structures ← if layers.structures then f.explainedStructures tables explain else .ok []
  let methods ← if layers.methods then f.methods tables else .ok []
  return { imports, structures, methods }

namespace Ledger

def enterRecord (l : Ledger) (f : SourceFile) (layer : Layer) (target : Option Text)
    (structures : List StructureTree) (methods : List MethodTree) : RecordKey × Ledger :=
  let (ss, l) := enterStructures structures l
  let (ms, l) := enterMethods methods l
  let (k, l) := l.addRecord { path := f.path, layer, language := f.language, target }
  let (_, l) := adoptStructures (.ofRecord k) ss l
  let (_, l) := adoptMethods (.ofRecord k) ms l
  (k, l)

def enterImports (f : SourceFile) : List Text → Ledger → List RecordKey × Ledger
  | [], l => ([], l)
  | target :: rest, l =>
    let (k, l) := l.enterRecord f .modules (some target) [] []
    let (ks, l) := enterImports f rest l
    (k :: ks, l)

def enterRecords (l : Ledger) (f : SourceFile) (r : FileRecords) : List RecordKey × Ledger :=
  let (imports, l) := enterImports f r.imports l
  let (structures, l) :=
    if r.structures.isEmpty then ([], l)
    else
      let (k, l) := l.enterRecord f .structures none r.structures []
      ([k], l)
  let (methods, l) :=
    if r.methods.isEmpty then ([], l)
    else
      let (k, l) := l.enterRecord f .methods none [] r.methods
      ([k], l)
  (imports ++ structures ++ methods, l)

end Ledger

namespace Atlas

/-- Merges records one after the other. -/
def mergeAll : List RecordKey → Atlas → Option LedgerFault × Atlas
  | [], a => (none, a)
  | k :: ks, a =>
    match a.merge k with
    | (.error fault, a) => (some fault, a)
    | (.ok _, a) => mergeAll ks a

def addFile (a : Atlas) (f : SourceFile) (r : FileRecords) : Option LedgerFault × Atlas :=
  let (ks, ledger) := a.ledger.enterRecords f r
  mergeAll ks { a with ledger }

end Atlas

end DependencyAtlas
