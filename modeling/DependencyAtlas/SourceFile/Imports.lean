import DependencyAtlas.Rules.Go
import DependencyAtlas.SourceFile.Basic

namespace DependencyAtlas

def importTarget? (ms : List Matcher) (line : Text) : Option Text :=
  (Matcher.first? ms line).bind (·.get? "target")

def goImports (ms : List Matcher) : (grouped : Bool) → List Text → List Text
  | _, [] => []
  | true, line :: rest =>
    if (Text.trim line).head? = some ')' then goImports ms false rest
    else ((Rules.Go.groupLine.match? line).bind (·.lookup "target".toList)).toList ++
      goImports ms true rest
  | false, line :: rest =>
    if (Rules.Go.groupStart.match? line).isSome then goImports ms true rest
    else (importTarget? ms line).toList ++ goImports ms false rest

/-- The targets of a file's imports, in the order of their lines. -/
def SourceFile.imports (f : SourceFile) (tables : RuleTables) :
    Except ExtractError (List Text) := do
  let ms ← f.matchers tables .modules
  let lines := Text.lines f.text
  return if f.language = .go then goImports ms false lines else lines.filterMap (importTarget? ms)

end DependencyAtlas
