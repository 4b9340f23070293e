import DependencyAtlas.Declaration.Structure
import DependencyAtlas.Language
import DependencyAtlas.Text.Quoted

namespace DependencyAtlas

/-- The number of a method in the ledger. -/
structure MethodKey where
  index : Nat
  deriving DecidableEq, Repr

/-- The number of a structure in the ledger. -/
structure StructureKey where
  index : Nat
  deriving DecidableEq, Repr

structure RecordKey where
  index : Nat
  deriving DecidableEq, Repr

structure NodeKey where
  index : Nat
  deriving DecidableEq, Repr

/-- Who a method or a structure belongs to. -/
inductive Owner where
  | ofMethod (key : MethodKey)
  | ofStructure (key : StructureKey)
  | ofRecord (key : RecordKey)
  | ofNode (key : NodeKey)
  deriving DecidableEq, Repr

def Owner.kind : Owner → String
  | .ofMethod _ => "Method"
  | .ofStructure _ => "Structure"
  | .ofRecord _ => "ExtractedDependency"
  | .ofNode _ => "Dependency"

structure MethodEntry where
  head : MethodHead := { name := [] }
  calls : List Text := []
  references : List Text := []
  children : List MethodKey := []
  owner : Option Owner := none
  deriving DecidableEq, Repr

structure StructureEntry where
  head : StructureHead := { name := [] }
  methods : List MethodKey := []
  owner : Option Owner := none
  deriving DecidableEq, Repr

/-- What one layer of one file yields. A record is consumed when its contents go elsewhere. -/
structure Record where
  path : Text := []
  layer : Layer := .modules
  language : Language := .rust
  target : Option Text := none
  structures : List StructureKey := []
  methods : List MethodKey := []
  consumed : Bool := false
  deriving DecidableEq, Repr

/-- A node of the graph: an import of a file, or all structures or all methods of a file. -/
structure Node where
  source : Text := []
  layer : Layer := .modules
  language : Language := .rust
  target : Option Text := none
  structures : List StructureKey := []
  methods : List MethodKey := []
  methodCount : Nat := 0
  deriving DecidableEq, Repr

structure Ledger where
  methods : List MethodEntry := []
  structures : List StructureEntry := []
  records : List Record := []
  nodes : List Node := []
  deriving DecidableEq, Repr

inductive LedgerFault where
  | methodOwned (name : Text) (owner : Owner)
  | structureOwned (name : Text) (owner : Owner)
  | methodReleasedTwice (name : Text)
  | structureReleasedTwice (name : Text)
  | consumed (layer : Layer) (path : Text)
  | moreThanTarget (path : Text)
  | holdsMethods (path : Text)
  | holdsStructures (path : Text)
  deriving DecidableEq, Repr

inductive FaultKind where
  | ownership
  | consumption
  | content
  deriving DecidableEq, Repr

def LedgerFault.kind : LedgerFault → FaultKind
  | .methodOwned .. | .structureOwned .. | .methodReleasedTwice _ | .structureReleasedTwice _ =>
    .ownership
  | .consumed .. => .consumption
  | .moreThanTarget _ | .holdsMethods _ | .holdsStructures _ => .content

def LedgerFault.message : LedgerFault → Text
  | .methodOwned name owner =>
    "Method ".toList ++ Text.quoted name ++ " is already owned by ".toList ++ owner.kind.toList
  | .structureOwned name owner =>
    "Structure ".toList ++ Text.quoted name ++ " is already owned by ".toList ++ owner.kind.toList
  | .methodReleasedTwice name => "Method ".toList ++ Text.quoted name ++ " released twice".toList
  | .structureReleasedTwice name =>
    "Structure ".toList ++ Text.quoted name ++ " released twice".toList
  | .consumed layer path =>
    layer.name.toList ++ " record for ".toList ++ path ++ " was already consumed".toList
  | .moreThanTarget path =>
    "MODULE record for ".toList ++ path ++ " must carry only a target".toList
  | .holdsMethods path => "STRUCTURE record for ".toList ++ path ++ " holds methods".toList
  | .holdsStructures path => "METHOD record for ".toList ++ path ++ " holds structures".toList

namespace Ledger

def method (l : Ledger) (k : MethodKey) : MethodEntry :=
  l.methods.getD k.index {}

def structureAt (l : Ledger) (k : StructureKey) : StructureEntry :=
  l.structures.getD k.index {}

def record (l : Ledger) (k : RecordKey) : Record :=
  l.records.getD k.index {}

def node (l : Ledger) (k : NodeKey) : Node :=
  l.nodes.getD k.index {}

def updateMethod (l : Ledger) (k : MethodKey) (f : MethodEntry → MethodEntry) : Ledger :=
  { l with methods := l.methods.modify k.index f }

def updateStructure (l : Ledger) (k : StructureKey) (f : StructureEntry → StructureEntry) :
    Ledger :=
  { l with structures := l.structures.modify k.index f }

def updateRecord (l : Ledger) (k : RecordKey) (f : Record → Record) : Ledger :=
  { l with records := l.records.modify k.index f }

def updateNode (l : Ledger) (k : NodeKey) (f : Node → Node) : Ledger :=
  { l with nodes := l.nodes.modify k.index f }

def addMethod (l : Ledger) (m : MethodEntry) : MethodKey × Ledger :=
  (⟨l.methods.length⟩, { l with methods := l.methods ++ [m] })

def addStructure (l : Ledger) (s : StructureEntry) : StructureKey × Ledger :=
  (⟨l.structures.length⟩, { l with structures := l.structures ++ [s] })

def addRecord (l : Ledger) (r : Record) : RecordKey × Ledger :=
  (⟨l.records.length⟩, { l with records := l.records ++ [r] })

def addNode (l : Ledger) (n : Node) : NodeKey × Ledger :=
  (⟨l.nodes.length⟩, { l with nodes := l.nodes ++ [n] })

def addCall (l : Ledger) (k : MethodKey) (callee : Text) : Ledger :=
  if callee = [] then l else l.updateMethod k fun m =>
    { m with calls := FirstSeen.add m.calls callee }

def addReference (l : Ledger) (k : MethodKey) (place : Text) : Ledger :=
  l.updateMethod k fun m => { m with references := FirstSeen.add m.references place }

/-- A method and the methods inside it, down to `depth` levels, each before those inside it. -/
def walkFrom (l : Ledger) : (depth : Nat) → MethodKey → List MethodKey
  | 0, k => [k]
  | n + 1, k => k :: (l.method k).children.flatMap (walkFrom l n)

/-- A method and all methods inside it. No chain of methods inside each other is longer than the
ledger. -/
def walk (l : Ledger) (k : MethodKey) : List MethodKey :=
  l.walkFrom l.methods.length k

def treeFrom (l : Ledger) : (depth : Nat) → MethodKey → MethodTree
  | 0, k => ⟨(l.method k).head, (l.method k).calls, (l.method k).references, []⟩
  | n + 1, k =>
    ⟨(l.method k).head, (l.method k).calls, (l.method k).references,
      (l.method k).children.map (treeFrom l n)⟩

def tree (l : Ledger) (k : MethodKey) : MethodTree :=
  l.treeFrom l.methods.length k

end Ledger

end DependencyAtlas
