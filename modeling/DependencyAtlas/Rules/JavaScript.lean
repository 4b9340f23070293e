import DependencyAtlas.Pattern.Rule

namespace DependencyAtlas.Rules.JavaScript

open Pattern

def exported : Pattern :=
  opt (spaced "export") ++ opt (spaced "default")

/-- The word that introduces a variable. -/
def binding : Pattern :=
  anyWord ["const", "let", "var"]

def modules : List Rule :=
  [⟨"import".toList,
    .given (lineStart ++ spaced "import" ++ few0 anyChar ++ gap ++ spaced "from" ++ quotedTarget)⟩,
    ⟨"import".toList, .given (lineStart ++ spaced "import" ++ quotedTarget)⟩,
    ⟨"import".toList, .given (lineStart
      ++ opt (binding ++ gap ++
        many1 (one ⟨[.word, .char '\x7b', .char '\x7d', .blank, .char ',', .char ':'], false⟩)
        ++ text "=" ++ blanks)
      ++ text "require" ++ blanks ++ text "(" ++ blanks ++ quotedTarget ++ blanks ++ text ")")⟩,
    ⟨"import".toList, .given (lineStart ++ spaced "export" ++ few0 anyChar ++ gap ++ spaced "from"
      ++ quotedTarget)⟩]

def structures : List Rule :=
  [⟨"class".toList,
    .given (lineStart ++ exported ++ opt (spaced "abstract") ++ spaced "class" ++ declaredName
      ++ spacedTypeParameters
      ++ opt (gap ++ spaced "extends" ++ captureAs "base" (many1 (wordOr ".") ++ typeParameters))
      ++ opt (gap ++ spaced "implements" ++ captureAs "traits" (few1 (notAmong "\x7b"))) ++ blanks
        ++ bodyOrEnd)⟩,
    ⟨"interface".toList,
      .given (lineStart ++ opt (spaced "export") ++ spaced "interface" ++ declaredName
      ++ spacedTypeParameters ++ opt (gap ++ spaced "extends" ++
        captureAs "base" (few1 (notAmong "\x7b"))) ++ blanks
      ++ bodyOrEnd)⟩,
    ⟨"type".toList, .given (lineStart ++ opt (spaced "export") ++ spaced "type" ++ declaredName
      ++ spacedTypeParameters ++ blanks ++ text "=")⟩,
    ⟨"enum".toList,
      .given (lineStart ++ opt (spaced "export") ++ opt (spaced "const") ++ spaced "enum"
      ++ declaredName)⟩]

def modifiers : Pattern :=
  many0 (anyWord ["public", "private", "protected", "static", "async", "readonly", "override",
    "get", "set"] ++ gap)

def methods : List Rule :=
  [⟨"definition".toList,
    .given (lineStart ++ exported ++ opt (spaced "async") ++ text "function" ++ blanks
      ++ opt (text "*") ++ blanks ++ declaredName ++ blanks ++ typeParameters ++ blanks ++
        parameterList
      ++ opt (blanks ++ text ":" ++ blanks ++ captureAs "ret" (few1 (notAmong "\x7b="))) ++ blanks
        ++ bodyOrEnd)⟩,
    ⟨"definition".toList,
      .given (lineStart ++ opt (spaced "export") ++ binding ++ gap ++ declaredName ++ blanks
      ++ text "=" ++ blanks ++ opt (spaced "async") ++ text "function" ++ blanks ++ opt (text "*")
        ++ blanks
      ++ parameterList)⟩,
    ⟨"definition".toList,
      .given (lineStart ++ opt (spaced "export") ++ binding ++ gap ++ declaredName ++ blanks
      ++ opt (text ":" ++ blanks ++ many1 (notAmong "=")) ++ text "=" ++ blanks ++
        opt (spaced "async") ++ parameterList
      ++ opt (blanks ++ text ":" ++ blanks ++ captureAs "ret" (few1 (notAmong "="))) ++ blanks ++
        text "=>")⟩,
    ⟨"definition".toList,
      .given (lineStart ++ declaredName ++ blanks ++ among ":=" ++ blanks ++ opt (spaced "async")
      ++ text "function" ++ blanks ++ parameterList)⟩,
    ⟨"definition".toList,
      .given (lineStart ++ modifiers ++ declaredName ++ blanks ++ typeParameters ++ blanks
      ++ parameterList ++ opt (blanks ++ text ":" ++ blanks ++
        captureAs "ret" (few1 (notAmong "\x7b"))) ++ blanks
      ++ text "\x7b" ++ blanks ++ finish)⟩]

def table : List (Layer × List Rule) :=
  [(.modules, modules), (.structures, structures), (.methods, methods)]

end DependencyAtlas.Rules.JavaScript
