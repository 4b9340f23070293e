import DependencyAtlas.Pattern.Rule

namespace DependencyAtlas.Rules.Php

open Pattern

def modules : List Rule :=
  [⟨"import".toList,
    .given (lineStart ++ anyWord ["require", "require_once", "include", "include_once"] ++ blanks
      ++ opt (text "(") ++ blanks ++ quotedTarget)⟩,
    ⟨"import".toList,
      .given (lineStart ++ spaced "namespace" ++ captureAs "target" (many1 (wordOr "\\")))⟩,
    ⟨"import".toList,
      .given (lineStart ++ spaced "use" ++ captureAs "target" (many1 (wordOr "\\")))⟩]

/-- The types named after a word, if it is there, up to the body. -/
def listed (keyword : String) : Pattern :=
  opt (gap ++ spaced keyword ++ captureAs "traits" (few1 (notAmong "\x7b")))

def structures : List Rule :=
  [⟨"class".toList,
    .given (lineStart ++ many0 (anyWord ["abstract", "final", "readonly"] ++ gap) ++ spaced "class"
      ++ declaredName ++ opt (gap ++ spaced "extends" ++ captureAs "base" (many1 (wordOr "\\")))
      ++ listed "implements" ++ blanks ++ bodyOrEnd)⟩,
    ⟨"interface".toList,
      .given (lineStart ++ spaced "interface" ++ declaredName ++ listed "extends" ++ blanks
      ++ bodyOrEnd)⟩,
    ⟨"trait".toList, .given (lineStart ++ spaced "trait" ++ declaredName)⟩,
    ⟨"enum".toList, .given (lineStart ++ spaced "enum" ++ declaredName)⟩]

def methods : List Rule :=
  [⟨"definition".toList, .given (lineStart
      ++ many0 (anyWord ["public", "private", "protected", "static", "abstract", "final"] ++ gap)
      ++ spaced "function" ++ opt (text "&") ++ declaredName ++ blanks ++ parameterList
      ++ opt (blanks ++ text ":" ++ blanks ++
        captureAs "ret" (opt (text "?") ++ many1 (wordOr "\\|"))))⟩]

def table : List (Layer × List Rule) :=
  [(.modules, modules), (.structures, structures), (.methods, methods)]

end DependencyAtlas.Rules.Php
