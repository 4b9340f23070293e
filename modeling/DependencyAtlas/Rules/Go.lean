import DependencyAtlas.Pattern.Rule

namespace DependencyAtlas.Rules.Go

open Pattern

/-- What is imported: a path in quotes, with the name it goes by in front, if it has one. -/
def importSpec : Pattern :=
  opt (many1 (wordOr ".") ++ gap) ++ text "\"" ++ captureAs "target" (many1 (notAmong "\"")) ++
    text "\""

def modules : List Rule :=
  [⟨"import".toList, .given (lineStart ++ spaced "import" ++ importSpec)⟩,
    ⟨"import".toList, .given (lineStart ++ spaced "package" ++ captureAs "target" word)⟩]

def groupStart : Pattern :=
  lineStart ++ text "import" ++ blanks ++ text "(" ++ blanks ++ finish

def groupLine : Pattern :=
  lineStart ++ importSpec

/-- Type parameters in square brackets, if there are any. -/
def squareParameters : Pattern :=
  opt (enclosed "[" "]")

def structures : List Rule :=
  [⟨"struct".toList,
    .given (lineStart ++ spaced "type" ++ declaredName ++ squareParameters ++ gap ++ text "struct"
      ++ wordEdge)⟩,
    ⟨"interface".toList,
      .given (lineStart ++ spaced "type" ++ declaredName ++ squareParameters ++ gap
      ++ text "interface" ++ wordEdge)⟩]

def signature : Pattern :=
  squareParameters ++ parameterList ++ blanks ++ captureAs "ret" (few0 (notAmong "\x7b")) ++ blanks
    ++ bodyOrEnd

def methods : List Rule :=
  [⟨"definition".toList,
    .given (lineStart ++ spaced "func" ++ text "(" ++ captureAs "prefix" (many0 (notAmong ")"))
      ++ text ")" ++ blanks ++ declaredName ++ blanks ++ signature)⟩,
    ⟨"definition".toList,
      .given (lineStart ++ spaced "func" ++ declaredName ++ blanks ++ signature)⟩]

def table : List (Layer × List Rule) :=
  [(.modules, modules), (.structures, structures), (.methods, methods)]

end DependencyAtlas.Rules.Go
