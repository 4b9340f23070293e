import DependencyAtlas.Pattern.Rule

namespace DependencyAtlas.Rules.Ruby

open Pattern

def modules : List Rule :=
  [⟨"import".toList, .given (lineStart ++ text "require" ++ opt (text "_relative") ++ blanks ++
    opt (text "(") ++ blanks
      ++ quotedTarget)⟩,
    ⟨"import".toList,
      .given (lineStart ++ text "load" ++ blanks ++ opt (text "(") ++ blanks ++ quotedTarget)⟩,
    ⟨"import".toList,
      .given (lineStart ++ spaced "module" ++ captureAs "target" (many1 (wordOr ":")))⟩]

def structures : List Rule :=
  [⟨"class".toList, .given (lineStart ++ spaced "class" ++ captureAs "name" (many1 (wordOr ":"))
      ++ opt (blanks ++ text "<" ++ blanks ++ captureAs "base" (many1 (wordOr ":"))))⟩,
    ⟨"module".toList,
      .given (lineStart ++ spaced "module" ++ captureAs "name" (many1 (wordOr ":")))⟩]

def methods : List Rule :=
  [⟨"definition".toList, .given (lineStart ++ spaced "def"
      ++ opt (captureAs "prefix" (text "self" ||| one ⟨[.range 'A' 'Z'], false⟩ ++ many0 wordChar)
        ++ text ".")
      ++ captureAs "name" (many1 (wordOr "?!=")) ++ blanks ++ opt parameterList)⟩,
    ⟨"definition".toList,
      .given (lineStart ++ text "define_method" ++ blanks ++ opt (text "(") ++ blanks ++ text ":"
      ++ captureAs "name" (many1 (wordOr "?!")))⟩]

def table : List (Layer × List Rule) :=
  [(.modules, modules), (.structures, structures), (.methods, methods)]

end DependencyAtlas.Rules.Ruby
