import DependencyAtlas.Pattern.Rule

namespace DependencyAtlas.Rules.C

open Pattern

/-- A directive that takes a file name in quotes or angle brackets. -/
def directive (name : String) : Pattern :=
  lineStart ++ text "#" ++ blanks ++ text name ++ blanks ++ among "<\"" ++
    captureAs "target" (many1 (notAmong ">\"")) ++ among ">\""

def modules : List Rule :=
  [⟨"import".toList, .given (directive "include")⟩,
    ⟨"import".toList, .given (directive "import")⟩]

/-- The parameters of a template before a declaration, if there are any. -/
def template : Pattern :=
  opt (text "template" ++ blanks ++ enclosed "<" ">" ++ blanks)

def bases : Pattern :=
  opt (blanks ++ text ":" ++ blanks ++ captureAs "base" (few1 (notAmong "\x7b;")))

def headEnd : Pattern :=
  blanks ++ anyOf [text "\x7b", text ";", finish]

def structures : List Rule :=
  [⟨"struct".toList, .given (lineStart ++ spaced "typedef" ++ spaced "struct" ++ declaredName)⟩,
    ⟨"enum".toList, .given (lineStart ++ spaced "typedef" ++ spaced "enum" ++ declaredName)⟩,
    ⟨"class".toList,
      .given (lineStart ++ template ++ spaced "class" ++ declaredName ++ opt (gap ++ text "final")
      ++ bases ++ headEnd)⟩,
    ⟨"struct".toList,
      .given (lineStart ++ template ++ spaced "struct" ++ declaredName ++ bases ++ headEnd)⟩,
    ⟨"enum".toList,
      .given (lineStart ++ spaced "enum" ++ opt (spaced "class" ||| spaced "struct") ++ declaredName
      ++ opt (blanks ++ text ":" ++ blanks ++ word) ++ headEnd)⟩]

def definitionEnd : Pattern :=
  blanks ++ opt (text "const" ++ blanks) ++ bodyOrEnd

def methods : List Rule :=
  [⟨"definition".toList, .given (lineStart
      ++ captureAs "ret" (many1 (wordOr ":<>*&") ++ few0 (gap ++ many1 (wordOr ":<>*&"))) ++ gap ++
        many0 (among "*&")
      ++ captureAs "prefix" word ++ text "::" ++ captureAs "name" (opt (text "~") ++ word) ++ blanks
      ++ parameterList ++ definitionEnd)⟩,
    ⟨"definition".toList, .given (lineStart
      ++ captureAs "ret" (many1 (wordOr ":<>") ++ few0 (gap ++ many1 (wordOr ":<>")) ++
        many1 (blankOr "*&"))
      ++ declaredName ++ blanks ++ parameterList ++ definitionEnd)⟩,
    ⟨"call".toList, .given (lineStart ++ word ++ text "::" ++ declaredName ++ blanks ++ text "(")⟩]

def table : List (Layer × List Rule) :=
  [(.modules, modules), (.structures, structures), (.methods, methods)]

end DependencyAtlas.Rules.C
