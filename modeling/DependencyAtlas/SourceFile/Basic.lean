import DependencyAtlas.Pattern.Rule
import DependencyAtlas.Text.Line

namespace DependencyAtlas

structure SourceFile where
  path : Text
  language : Language
  text : Text
  deriving DecidableEq, Repr

/-- Why an extraction fails: a pattern of the rule tables cannot be read, or a rule matches without
capturing the name of the structure that it declares or of the method that it calls. -/
inductive ExtractError where
  | badPattern (e : PatternFault)
  | unnamedStructure (path : Text) (line : Nat)
  | unnamedCall
  deriving DecidableEq, Repr

def nameCapture : Text := "name".toList

def ExtractError.message : ExtractError → Text
  | .badPattern e => e.message
  | .unnamedStructure path line =>
    path ++ [':'] ++ Text.ofNat line ++ ": bad structure capture: ".toList ++
      Text.quoted nameCapture
  | .unnamedCall => Text.quoted nameCapture

def SourceFile.matchers (f : SourceFile) (tables : RuleTables) (layer : Layer) :
    Except ExtractError (List Matcher) :=
  (tables.matchers f.language layer).mapError .badPattern

end DependencyAtlas
