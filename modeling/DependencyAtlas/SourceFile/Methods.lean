import DependencyAtlas.CallSite
import DependencyAtlas.Declaration.Method
import DependencyAtlas.Parameter.Dialect
import DependencyAtlas.SourceFile.Basic
import DependencyAtlas.SourceFile.Scope

namespace DependencyAtlas

def definitionKeywords : List String :=
  ["if", "elif", "else", "elseif", "for", "foreach", "while", "until", "unless", "do", "switch",
    "case", "catch", "try", "with", "return", "yield", "await", "throw", "sizeof", "typeof",
    "alignof", "decltype", "instanceof", "function", "func", "fn", "def", "lambda", "and", "or",
    "not", "in"]

def statementWords : List String :=
  ["return", "else", "new", "delete", "throw", "case", "goto", "typedef", "using", "namespace",
    "sizeof", "await", "yield", "print", "echo"]

def identifiersFrom (inside : Bool) : Text → List Text
  | [] => []
  | c :: t =>
    if inside && Text.isWord c then identifiersFrom true t
    else if Text.isNameStart c then (c :: t.takeWhile Text.isWord) :: identifiersFrom true t
    else identifiersFrom false t

def hasStatementWord (t : Text) : Bool :=
  (identifiersFrom false t).any fun w => w ∈ statementWords.map String.toList

/-- The method that a rule found the definition of, unless it is a statement in disguise. -/
def definition? (f : SourceFile) (line : Nat) (found : Finding) : Option MethodHead :=
  if found.kind = "definition".toList then
    match found.get? "name" with
    | none => none
    | some name =>
      if name ∈ definitionKeywords.map String.toList || (found.get? "ret").any hasStatementWord then
        none
      else
        some
          { name
            definedIn := f.path
            line
            qualifier := f.language.qualifier (found.get? "prefix")
            returnType := f.language.returnType (found.get? "ret")
            parameters := f.language.parameters ((found.get? "params").getD []) }
  else none

def callees (found : Option Finding) (line : Text) : Except ExtractError (List Text) :=
  match found with
  | none => .ok (CallSite.find line)
  | some found =>
    if found.kind = "call".toList then
      match found.get? "name" with
      | some name => .ok [name]
      | none => .error .unnamedCall
    else .ok (CallSite.find line)

structure OpenScope where
  depth : Nat
  method : MethodTree

def OpenScope.receive (s : OpenScope) (child : Option MethodTree) : OpenScope :=
  { s with method := { s.method with children := s.method.children ++ child.toList } }

/-- How far a scan has come: the open scopes, innermost first, and the complete methods outside of
all others. -/
structure MethodScan where
  scopes : List OpenScope := []
  complete : List MethodTree := []

namespace MethodScan

def closeFrom (depth : Nat) (complete : List MethodTree) :
    (child : Option MethodTree) → List OpenScope → MethodScan
  | child, [] => ⟨[], complete ++ child.toList⟩
  | child, s :: rest =>
    if depth ≤ s.depth then closeFrom depth complete (some (s.receive child).method) rest
    else ⟨s.receive child :: rest, complete⟩

def close (scan : MethodScan) (depth : Nat) : MethodScan :=
  closeFrom depth scan.complete none scan.scopes

def addCalls (scan : MethodScan) (names : List Text) : MethodScan :=
  match scan.scopes with
  | [] => scan
  | s :: rest =>
    { scan with scopes := { s with method := names.foldl MethodTree.addCall s.method } :: rest }

/-- Reads a line with its index. -/
def step (f : SourceFile) (ms : List Matcher) (scan : MethodScan) (line : Text × Nat) :
    Except ExtractError MethodScan :=
  if Scope.isSignificant line.1 then
    let depth := Text.indent line.1
    let scan := scan.close depth
    let found := Matcher.first? ms line.1
    match found.bind (definition? f (line.2 + 1)) with
    | some head => .ok { scan with scopes := ⟨depth, { head }⟩ :: scan.scopes }
    | none => if scan.scopes.isEmpty then .ok scan else (callees found line.1).map scan.addCalls
  else .ok scan

end MethodScan

def SourceFile.scanMethods (f : SourceFile) (ms : List Matcher) (lines : List (Text × Nat)) :
    Except ExtractError (List MethodTree) := do
  let scan ← lines.foldlM (MethodScan.step f ms) {}
  return (scan.close 0).complete

def SourceFile.methods (f : SourceFile) (tables : RuleTables) :
    Except ExtractError (List MethodTree) := do
  let ms ← f.matchers tables .methods
  let found ← f.scanMethods ms (Text.lines f.text).zipIdx
  return MethodTree.linkLocal f.path found

end DependencyAtlas
