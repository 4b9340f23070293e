import DependencyAtlas.Text.TopLevel
import DependencyAtlas.Text.Word

namespace DependencyAtlas

/-- A parameter: its type is empty when none is declared. -/
structure Parameter where
  name : Text
  type : Text := []
  defaultValue : Option Text := none
  deriving DecidableEq, Repr

namespace Parameter

open Text

def render (p : Parameter) : Text :=
  let named := if p.type = [] then p.name else p.name ++ ": ".toList ++ p.type
  match p.defaultValue with
  | none => named
  | some v => named ++ " = ".toList ++ v

def ofColon (t : Text) : Parameter :=
  let (decl, value) := splitDefault t
  match findTopLevel (· == ':') decl with
  | none => { name := trim decl, defaultValue := value }
  | some i =>
    { name := trim (decl.take i), type := trim (decl.drop (i + 1)), defaultValue := value }

def isDimensions : (inside : Bool) → Text → Bool
  | inside, [] => !inside
  | false, c :: t => if isBlank c then isDimensions false t else c == '[' && isDimensions true t
  | true, c :: t => isDimensions (c != ']') t

def declarator : Text → Option (Text × Text × Text)
  | [] => none
  | c :: t =>
    let dimensions := trimLeft (t.dropWhile isWord)
    if (isNameStart c || c == '$') && isDimensions false dimensions then
      some ([], c :: t.takeWhile isWord, dimensions)
    else if c = '\n' then none
    else (declarator t).map fun (type, rest) => (c :: type, rest)

def splitTypeAndName (decl : Text) : Text × Text :=
  match declarator (trim decl) with
  | none => ([], trim decl)
  | some (type, name, dimensions) =>
    if trim type = [] then ([], trim decl) else (trim type ++ dimensions.filter (· ≠ ' '), name)

end Parameter

end DependencyAtlas
