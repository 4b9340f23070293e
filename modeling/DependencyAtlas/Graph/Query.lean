import DependencyAtlas.CallSite
import DependencyAtlas.Graph.Basic

namespace DependencyAtlas

def mentionsFrom (name : Text) (previous : Option Char) : Text → Bool
  | [] => name.isEmpty && previous.all CallSite.separates
  | c :: t =>
    (previous.all CallSite.separates && name.isPrefixOf (c :: t) &&
      ((c :: t).drop name.length).head?.all CallSite.separates) || mentionsFrom name (some c) t

def mentions (name t : Text) : Bool :=
  mentionsFrom name none t

namespace Atlas

def nodes (a : Atlas) : List Node :=
  a.graph.nodes.map a.ledger.node

def sources (a : Atlas) : List Text :=
  FirstSeen.ofList (a.nodes.map (·.source))

def nodesFor (a : Atlas) (source : Text) (layer : Layer) : List Node :=
  (a.graph.byFile.get (source, layer)).map a.ledger.node

def importsOf (a : Atlas) (source : Text) : List Text :=
  (a.nodesFor source .modules).filterMap fun n => n.target.filter (· ≠ [])

def structures (a : Atlas) : List StructureKey :=
  (a.nodes.filter (·.layer = .structures)).flatMap (·.structures)

/-- All methods that are not only known from the bodies of structures, those inside others
included. -/
def methods (a : Atlas) : List MethodKey :=
  (a.nodes.filter (·.layer = .methods)).flatMap fun n => n.methods.flatMap a.ledger.walk

def findMethods (a : Atlas) (name : Text) : List MethodKey :=
  a.graph.byName.get name

def textsOf (a : Atlas) (n : Node) : List Text :=
  match n.layer with
  | .modules => (n.target.filter (· ≠ [])).toList
  | .structures =>
    n.structures.filterMap fun s => (a.ledger.structureAt s).head.dependencies.filter (· ≠ [])
  | .methods => (n.methods.flatMap a.ledger.walk).map fun m => (a.ledger.method m).head.signature

def referencesTo (a : Atlas) (s : StructureHead) : List Text :=
  FirstSeen.ofList
    ((a.nodes.filter fun n => n.source ≠ s.definedIn && (a.textsOf n).any (mentions s.name)).map
      (·.source))

/-- How much there is on a layer: imports, structures or methods. -/
def count (a : Atlas) : Layer → Nat
  | .modules => (a.nodes.filter (·.layer = .modules)).length
  | .structures => a.structures.length
  | .methods => addUp ((a.nodes.filter (·.layer = .methods)).map (·.methodCount))

end Atlas

end DependencyAtlas
