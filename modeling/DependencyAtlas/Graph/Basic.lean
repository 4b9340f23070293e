import DependencyAtlas.Ledger.Release

namespace DependencyAtlas

structure Graph where
  nodes : List NodeKey := []
  byFile : Grouping (Text × Layer) NodeKey := {}
  /-- The imports that have a node: importing file and target. -/
  importEdges : List (Text × Text) := []
  byName : Grouping Text MethodKey := {}
  callersOf : Grouping Text MethodKey := {}

/-- A graph with the ledger that its nodes are entered in. -/
structure Atlas where
  ledger : Ledger := {}
  graph : Graph := {}

namespace Atlas

def misplaced (r : Record) : Option LedgerFault :=
  match r.layer with
  | .modules =>
    if r.structures ≠ [] ∨ r.methods ≠ [] ∨ r.target.getD [] = [] then some (.moreThanTarget r.path)
    else none
  | .structures => if r.methods ≠ [] then some (.holdsMethods r.path) else none
  | .methods => if r.structures ≠ [] then some (.holdsStructures r.path) else none

def appendNode (a : Atlas) (n : Node) : NodeKey × Atlas :=
  let (k, ledger) := a.ledger.addNode n
  (k, { ledger, graph := { a.graph with
    nodes := a.graph.nodes ++ [k]
    byFile := a.graph.byFile.add (n.source, n.layer) k } })

def nodeFor (a : Atlas) (r : Record) : NodeKey × Atlas :=
  match a.graph.byFile.get (r.path, r.layer) with
  | k :: _ => (k, a)
  | [] => a.appendNode { source := r.path, layer := r.layer, language := r.language }

def mergeImport (a : Atlas) (k : RecordKey) : Except LedgerFault (Option NodeKey) × Atlas :=
  let r := a.ledger.record k
  let edge := (r.path, r.target.getD [])
  match a.ledger.consume k with
  | .error fault => (.error fault, a)
  | .ok ledger =>
    if edge ∈ a.graph.importEdges then (.ok none, { a with ledger })
    else
      let graph := { a.graph with importEdges := a.graph.importEdges ++ [edge] }
      let (n, a) := appendNode { ledger, graph }
        { source := r.path, layer := .modules, language := r.language, target := r.target }
      (.ok (some n), a)

def mergeStructures (a : Atlas) (k : RecordKey) : Except LedgerFault (Option NodeKey) × Atlas :=
  match a.ledger.takeStructures k with
  | .error fault => (.error fault, a)
  | .ok (structures, ledger) =>
    let (n, a) := nodeFor { a with ledger } (a.ledger.record k)
    match Ledger.adoptStructures (.ofNode n) structures a.ledger with
    | (some fault, ledger) => (.error fault, { a with ledger })
    | (none, ledger) => (.ok (some n), { a with ledger })

def countMethods (l : Ledger) (n : NodeKey) : Nat :=
  ((l.node n).methods.flatMap l.walk).length

def referTo (l : Ledger) (file : Text) (target : MethodKey) (place : Text) : Ledger :=
  if (l.method target).head.definedIn = file then l else l.addReference target place

def linkCalls (a : Atlas) (file : Text) (methods : List MethodKey) : Atlas :=
  let added := methods.flatMap a.ledger.walk
  let entry := a.ledger.method
  let outgoing : List (MethodKey × Text) := added.flatMap fun caller =>
    (entry caller).calls.flatMap fun callee =>
      (a.graph.byName.get callee).map fun target => (target,
        MethodTree.location file (entry caller).head.name)
  let incoming : List (MethodKey × Text) := added.flatMap fun target =>
    ((a.graph.callersOf.get (entry target).head.name).filter fun caller =>
      (entry caller).head.definedIn ≠ file).map
      fun caller =>
        (target, MethodTree.location (entry caller).head.definedIn (entry caller).head.name)
  let ledger := outgoing.foldl (fun l (target, place) => referTo l file target place) a.ledger
  let ledger := incoming.foldl (fun l (target, place) => l.addReference target place) ledger
  let byName := added.foldl (fun g m => g.add (entry m).head.name m) a.graph.byName
  let callersOf :=
    added.foldl (fun g m => (entry m).calls.foldl (fun g callee => g.add callee m) g)
      a.graph.callersOf
  { ledger, graph := { a.graph with byName, callersOf } }

def mergeMethods (a : Atlas) (k : RecordKey) : Except LedgerFault (Option NodeKey) × Atlas :=
  match a.ledger.takeMethods k with
  | .error fault => (.error fault, a)
  | .ok (methods, ledger) =>
    let r := a.ledger.record k
    let (n, a) := nodeFor { a with ledger } r
    match Ledger.adoptMethods (.ofNode n) methods a.ledger with
    | (some fault, ledger) => (.error fault, { a with ledger })
    | (none, ledger) =>
      let ledger := ledger.updateNode n fun e => { e with methodCount := countMethods ledger n }
      (.ok (some n), linkCalls { a with ledger } r.path methods)

/-- Moves a record into the graph and answers the node that received it, or none for a repeated
import. -/
def merge (a : Atlas) (k : RecordKey) : Except LedgerFault (Option NodeKey) × Atlas :=
  let r := a.ledger.record k
  if r.consumed then (.error r.consumedFault, a)
  else
    match misplaced r with
    | some fault => (.error fault, a)
    | none =>
      match r.layer with
      | .modules => a.mergeImport k
      | .structures => a.mergeStructures k
      | .methods => a.mergeMethods k

/-- Drops all nodes with all they own, and empties the graph. -/
def release (a : Atlas) : Except LedgerFault ReleaseStats × Atlas :=
  let tasks := a.graph.nodes.flatMap fun k =>
    Ledger.contentTasks (a.ledger.node k).structures (a.ledger.node k).methods ++ [.leave (.node k)]
  let p := a.ledger.plan tasks
  let (stats, ledger) := a.ledger.carryOut p
  match p.fault with
  | some fault => (.error fault, { a with ledger })
  | none => (.ok stats, { ledger })

end Atlas

end DependencyAtlas
