import DependencyAtlas.Declaration.Structure
import DependencyAtlas.SourceFile.Imports
import DependencyAtlas.SourceFile.Methods

namespace DependencyAtlas

structure DeclaredStructure where
  first : Nat
  stop : Nat
  found : Finding
  deriving DecidableEq, Repr

namespace DeclaredStructure

def covers (d : DeclaredStructure) (i : Nat) : Bool :=
  d.first ≤ i && i < d.stop

def owns (declared : List DeclaredStructure) (d : DeclaredStructure) (i : Nat) : Bool :=
  d.first < i && i < d.stop &&
    !declared.any fun e => d.first < e.first && e.first < d.stop && e.covers i

/-- The structure that a line declares. -/
def head (f : SourceFile) (d : DeclaredStructure) : Except ExtractError StructureHead :=
  let traits := d.found.get? "traits"
  match d.found.get? "name" with
  | none => .error (.unnamedStructure f.path (d.first + 1))
  | some name =>
    .ok
      { name
        kind := d.found.kind
        definedIn := f.path
        line := (d.first + 1 : Nat)
        dependencies := (d.found.get? "base").or traits
        traits := (traits.map (Text.splitTopLevel (· == ','))).getD [] }

end DeclaredStructure

def declaredStructures (ms : List Matcher) (lines : List Text) : List DeclaredStructure :=
  lines.zipIdx.filterMap fun (line, i) =>
    if Scope.isComment (Text.trim line) then none
    else (Matcher.first? ms line).map fun found => ⟨i, Scope.scopeEnd lines i, found⟩

def DeclaredStructure.extract (f : SourceFile) (tables : RuleTables) (lines : List Text)
    (declared : List DeclaredStructure) (d : DeclaredStructure) :
    Except ExtractError StructureTree := do
  let head ← d.head f
  let ms ← f.matchers tables .methods
  let methods ← f.scanMethods ms (lines.zipIdx.filter fun l => owns declared d l.2)
  return { head, methods }

def SourceFile.structures (f : SourceFile) (tables : RuleTables) :
    Except ExtractError (List StructureTree) := do
  let ms ← f.matchers tables .structures
  let lines := Text.lines f.text
  let declared := declaredStructures ms lines
  declared.mapM (DeclaredStructure.extract f tables lines declared)

/-- Explains the dependency texts of structures through the imports of the file they stand in. The
imports are looked for only if there is something to explain. -/
def SourceFile.resolve (f : SourceFile) (tables : RuleTables) (structures : List StructureHead) :
    Except ExtractError (Nat × List StructureHead) :=
  if structures.any (·.unexplained) then do
    let targets ← f.imports tables
    return (structures.countP (·.explainable targets),
      structures.map (StructureHead.explain f.path targets))
  else .ok (0, structures)

end DependencyAtlas
