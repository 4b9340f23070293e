import DependencyAtlas.Pattern.Rule

namespace DependencyAtlas.Rules.Python

open Pattern

def modules : List Rule :=
  [⟨"import".toList,
    .given (lineStart ++ spaced "import" ++ captureAs "target" (many1 (wordOr ".")))⟩,
    ⟨"import".toList, .given (lineStart ++ spaced "from"
      ++ captureAs "target" (many0 (text ".") ++ many0 (wordOr ".")) ++ gap ++ text "import" ++
        wordEdge)⟩,
    ⟨"import".toList,
      .given (lineStart ++ text "__import__" ++ blanks ++ text "(" ++ blanks ++ quotedTarget)⟩,
    ⟨"import".toList, .given (lineStart ++ opt (word ++ blanks ++ text "=" ++ blanks) ++
      text "importlib.import_module" ++ blanks ++ text "(" ++ blanks ++ quotedTarget)⟩]

def structures : List Rule :=
  [⟨"class".toList, .given (lineStart ++ spaced "class" ++ declaredName ++ blanks
      ++ opt (text "(" ++ captureAs "base" (many0 (notAmong ")")) ++ text ")") ++ blanks ++
        text ":")⟩]

def head : Pattern :=
  lineStart ++ opt (spaced "async") ++ spaced "def" ++ declaredName ++ blanks

/-- A parameter list that goes on below its first line is kept as far as that line has it. -/
def methods : List Rule :=
  [⟨"definition".toList, .given (head ++ parameterList ++ blanks
      ++ opt (text "->" ++ blanks ++ captureAs "ret" (few1 (notAmong ":"))) ++ blanks ++ text ":")⟩,
    ⟨"definition".toList,
      .given (head ++ text "(" ++ captureAs "params" (few0 (notAmong ")")) ++ opt (text ",")
      ++ blanks ++ finish)⟩]

def table : List (Layer × List Rule) :=
  [(.modules, modules), (.structures, structures), (.methods, methods)]

end DependencyAtlas.Rules.Python
