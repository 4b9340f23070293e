import DependencyAtlas.Ledger.Basic

namespace DependencyAtlas.Ledger

def listMethod (l : Ledger) (owner : Owner) (m : MethodKey) : Ledger :=
  match owner with
  | .ofMethod k => l.updateMethod k fun e => { e with children := e.children ++ [m] }
  | .ofStructure k => l.updateStructure k fun e => { e with methods := e.methods ++ [m] }
  | .ofRecord k => l.updateRecord k fun e => { e with methods := e.methods ++ [m] }
  | .ofNode k => l.updateNode k fun e => { e with methods := e.methods ++ [m] }

/-- Lists a structure with its owner, as the last one. Only records and nodes hold structures. -/
def listStructure (l : Ledger) (owner : Owner) (s : StructureKey) : Ledger :=
  match owner with
  | .ofRecord k => l.updateRecord k fun e => { e with structures := e.structures ++ [s] }
  | .ofNode k => l.updateNode k fun e => { e with structures := e.structures ++ [s] }
  | .ofMethod _ | .ofStructure _ => l

/-- Gives a method to an owner, unless another one has it. -/
def adoptMethod (l : Ledger) (owner : Owner) (m : MethodKey) : Except LedgerFault Ledger :=
  match (l.method m).owner with
  | none => .ok ((l.updateMethod m fun e => { e with owner := some owner }).listMethod owner m)
  | some current =>
    if current = owner then .ok (l.listMethod owner m)
    else .error (.methodOwned (l.method m).head.name current)

/-- Gives a structure to an owner, unless another one has it. -/
def adoptStructure (l : Ledger) (owner : Owner) (s : StructureKey) : Except LedgerFault Ledger :=
  match (l.structureAt s).owner with
  | none =>
    .ok ((l.updateStructure s fun e => { e with owner := some owner }).listStructure owner s)
  | some current =>
    if current = owner then .ok (l.listStructure owner s)
    else .error (.structureOwned (l.structureAt s).head.name current)

def adoptMethods (owner : Owner) : List MethodKey → Ledger → Option LedgerFault × Ledger
  | [], l => (none, l)
  | m :: ms, l =>
    match l.adoptMethod owner m with
    | .error fault => (some fault, l)
    | .ok l => adoptMethods owner ms l

def adoptStructures (owner : Owner) : List StructureKey → Ledger → Option LedgerFault × Ledger
  | [], l => (none, l)
  | s :: ss, l =>
    match l.adoptStructure owner s with
    | .error fault => (some fault, l)
    | .ok l => adoptStructures owner ss l

def disownMethods (l : Ledger) (ms : List MethodKey) : Ledger :=
  ms.foldl (fun l m => l.updateMethod m fun e => { e with owner := none }) l

def disownStructures (l : Ledger) (ss : List StructureKey) : Ledger :=
  ss.foldl (fun l s => l.updateStructure s fun e => { e with owner := none }) l

mutual

def enterMethod : MethodTree → Ledger → MethodKey × Ledger
  | ⟨head, calls, references, children⟩, l =>
    let (k, l) := l.addMethod { head, calls, references }
    (k, enterChildren k children l)

def enterChildren (parent : MethodKey) : List MethodTree → Ledger → Ledger
  | [], l => l
  | m :: ms, l =>
    let (k, l) := enterMethod m l
    let l := l.updateMethod k fun e => { e with owner := some (.ofMethod parent) }
    enterChildren parent ms (l.listMethod (.ofMethod parent) k)

end

def enterMethods : List MethodTree → Ledger → List MethodKey × Ledger
  | [], l => ([], l)
  | m :: ms, l =>
    let (k, l) := enterMethod m l
    let (ks, l) := enterMethods ms l
    (k :: ks, l)

def enterStructure (s : StructureTree) (l : Ledger) : StructureKey × Ledger :=
  let (k, l) := l.addStructure { head := s.head }
  let (ms, l) := enterMethods s.methods l
  (k, (adoptMethods (.ofStructure k) ms l).2)

def enterStructures : List StructureTree → Ledger → List StructureKey × Ledger
  | [], l => ([], l)
  | s :: ss, l =>
    let (k, l) := enterStructure s l
    let (ks, l) := enterStructures ss l
    (k :: ks, l)

end DependencyAtlas.Ledger
