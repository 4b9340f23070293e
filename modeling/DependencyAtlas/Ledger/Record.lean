import DependencyAtlas.Ledger.Adoption

namespace DependencyAtlas

namespace Record

def describe (r : Record) : Text :=
  "ExtractedDependency(".toList ++ Text.quoted r.path ++ ", ".toList ++ r.layer.name.toList ++
    ", target=".toList ++ (r.target.elim "None".toList Text.quoted) ++ ", ".toList
    ++ (if r.consumed then "consumed".toList else "live".toList) ++ [')']

/-- The reason why a consumed record refuses everything. -/
def consumedFault (r : Record) : LedgerFault :=
  .consumed r.layer r.path

end Record

namespace Ledger

/-- Opens a record on structures and methods. When one of them has an owner the record is of no use,
but it keeps what it has got so far. -/
def openRecord (l : Ledger) (path : Text) (layer : Layer) (language : Language)
    (target : Option Text) (structures : List StructureKey) (methods : List MethodKey) :
    Except LedgerFault RecordKey × Ledger :=
  let (k, l) := l.addRecord { path, layer, language, target }
  match adoptStructures (.ofRecord k) structures l with
  | (some fault, l) => (.error fault, l)
  | (none, l) =>
    match adoptMethods (.ofRecord k) methods l with
    | (some fault, l) => (.error fault, l)
    | (none, l) => (.ok k, l)

def recordStructures (l : Ledger) (k : RecordKey) : Except LedgerFault (List StructureKey) :=
  if (l.record k).consumed then .error (l.record k).consumedFault else .ok (l.record k).structures

def recordMethods (l : Ledger) (k : RecordKey) : Except LedgerFault (List MethodKey) :=
  if (l.record k).consumed then .error (l.record k).consumedFault else .ok (l.record k).methods

def takeStructures (l : Ledger) (k : RecordKey) :
    Except LedgerFault (List StructureKey × Ledger) := do
  let taken ← l.recordStructures k
  let l := l.updateRecord k fun r => { r with structures := [], consumed := true }
  return (taken, l.disownStructures taken)

def takeMethods (l : Ledger) (k : RecordKey) : Except LedgerFault (List MethodKey × Ledger) := do
  let taken ← l.recordMethods k
  let l := l.updateRecord k fun r => { r with methods := [], consumed := true }
  return (taken, l.disownMethods taken)

def consume (l : Ledger) (k : RecordKey) : Except LedgerFault Ledger :=
  if (l.record k).consumed then .error (l.record k).consumedFault
  else .ok (l.updateRecord k fun r => { r with consumed := true })

end Ledger

end DependencyAtlas
