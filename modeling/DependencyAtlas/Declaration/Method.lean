import DependencyAtlas.FirstSeen
import DependencyAtlas.Parameter

namespace DependencyAtlas

/-- What the declaration of a method says. -/
structure MethodHead where
  name : Text
  definedIn : Text := []
  line : Int := 0
  qualifier : Option Text := none
  returnType : Option Text := none
  parameters : List Parameter := []
  deriving DecidableEq, Repr

def MethodHead.unlessEmpty (wrap : Text → Text) (t : Option Text) : Text :=
  match t with
  | none => []
  | some t => if t = [] then [] else wrap t

def MethodHead.signature (h : MethodHead) : Text :=
  unlessEmpty (· ++ [' ']) h.qualifier ++ h.name ++ ['('] ++
    Text.join ", ".toList (h.parameters.map Parameter.render)
    ++ [')'] ++ unlessEmpty (" -> ".toList ++ ·) h.returnType

/-- A method, the names it calls, the places it is called from, and the methods declared inside
it. -/
structure MethodTree where
  head : MethodHead
  calls : List Text := []
  references : List Text := []
  children : List MethodTree := []
  deriving Repr

namespace MethodTree

mutual

def walk : MethodTree → List MethodTree
  | ⟨head, calls, references, children⟩ => ⟨head, calls, references, children⟩ :: walkAll children

def walkAll : List MethodTree → List MethodTree
  | [] => []
  | m :: ms => walk m ++ walkAll ms

end

mutual

def refer (references : Text → List Text) : MethodTree → MethodTree
  | ⟨head, calls, _, children⟩ => ⟨head, calls, references head.name, referAll references children⟩

def referAll (references : Text → List Text) : List MethodTree → List MethodTree
  | [] => []
  | m :: ms => refer references m :: referAll references ms

end

def addCall (m : MethodTree) (callee : Text) : MethodTree :=
  if callee = [] then m else { m with calls := FirstSeen.add m.calls callee }

def location (file caller : Text) : Text :=
  file ++ [':'] ++ caller

def callers (file : Text) (every : List MethodTree) (callee : Text) : List Text :=
  FirstSeen.ofList ((every.filter fun c => callee ∈ c.calls).map fun c => location file c.head.name)

def linkLocal (file : Text) (ms : List MethodTree) : List MethodTree :=
  referAll (callers file (walkAll ms)) ms

end MethodTree

end DependencyAtlas
