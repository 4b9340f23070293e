import DependencyAtlas.Graph.Query
import DependencyAtlas.Text.Number

namespace DependencyAtlas

/-- What one end of a relationship does with the other. -/
inductive Verb where
  | imports
  | inherits
  | calls
  deriving DecidableEq, Repr

namespace Verb

def all : List Verb :=
  [.imports, .inherits, .calls]

def word : Verb → String
  | .imports => "imports"
  | .inherits => "inherits"
  | .calls => "calls"

def ofWord? (w : Text) : Option Verb :=
  all.find? fun v => v.word.toList = w

end Verb

/-- What the things on a layer do. -/
def Layer.verb : Layer → Verb
  | .modules => .imports
  | .structures => .inherits
  | .methods => .calls

structure Relationship where
  source : Text
  target : Text
  verb : Verb
  layer : Layer
  deriving DecidableEq, Repr

namespace Relationship

def on (layer : Layer) (source target : Text) : Relationship :=
  ⟨source, target, layer.verb, layer⟩

inductive Offered where
  | nothing
  | text (t : Text)
  | number (n : Int)
  | truth (b : Bool)
  | other
  deriving DecidableEq, Repr

/-- Why a value does not do for its field. -/
inductive Problem where
  | missing
  | notText
  | unknownVerb
  | notNumber
  | unreadableNumber
  | numberTooLong
  | tooSmall
  | tooLarge
  deriving DecidableEq, Repr

def readText : Offered → Except Problem Text
  | .nothing => .error .missing
  | .text t => .ok t
  | _ => .error .notText

def readVerb : Offered → Except Problem Verb
  | .nothing => .error .missing
  | .text t => (Verb.ofWord? t).elim (.error .unknownVerb) .ok
  | _ => .error .unknownVerb

def layerOf (n : Int) : Except Problem Layer :=
  if n < 0 then .error .tooSmall
  else (Layer.all.find? fun y => (y.number : Int) = n).elim (.error .tooLarge) .ok

def Problem.ofNumberFault : Text.NumberFault → Problem
  | .unreadable => .unreadableNumber
  | .tooLong => .numberTooLong

def readLayer : Offered → Except Problem Layer
  | .nothing => .error .missing
  | .number n => layerOf n
  | .truth b => layerOf (if b then 1 else 0)
  | .text t => ((Text.plainInt t).mapError .ofNumberFault).bind layerOf
  | .other => .error .notNumber

def problemOf {α : Type} (field : String) : Except Problem α → List (String × Problem)
  | .ok _ => []
  | .error p => [(field, p)]

def sourceField (fields : String → Offered) : String × Offered :=
  if fields "from" = .nothing ∧ fields "from_" ≠ .nothing then ("from_", fields "from_")
  else ("from", fields "from")

def validate (fields : String → Offered) : Except (List (String × Problem)) Relationship :=
  let (name, source) := sourceField fields
  match readText source, readText (fields "to"), readVerb (fields "type"),
  readLayer (fields "layer") with
  | .ok s, .ok t, .ok v, .ok y => .ok ⟨s, t, v, y⟩
  | s, t, v, y =>
    .error (problemOf name s ++ problemOf "to" t ++ problemOf "type" v ++ problemOf "layer" y)

end Relationship

namespace Atlas

def relationshipsOf (a : Atlas) (n : Node) : List Relationship :=
  match n.layer with
  | .modules => (n.target.filter (· ≠ [])).toList.map (.on .modules n.source)
  | .structures =>
    n.structures.flatMap fun s =>
      let head := (a.ledger.structureAt s).head
      (head.dependencies.filter (· ≠ [])).toList.map (.on .structures head.name)
  | .methods =>
    (n.methods.flatMap a.ledger.walk).flatMap fun m =>
      (a.ledger.method m).calls.map (.on .methods (a.ledger.method m).head.name)

/-- The relationships of all nodes, in the order of the nodes. -/
def relationships (a : Atlas) : List Relationship :=
  a.nodes.flatMap a.relationshipsOf

end Atlas

end DependencyAtlas
