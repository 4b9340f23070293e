import DependencyAtlas.Pattern.Rule

namespace DependencyAtlas.Rules.Rust

open Pattern

/-- The mark of a public item, with its scope if it has one. -/
def visibility : Pattern :=
  opt (text "pub" ++ opt (blanks ++ enclosed "(" ")") ++ gap)

def modules : List Rule :=
  [⟨"import".toList,
    .given (lineStart ++ visibility ++ spaced "use" ++ captureAs "target" (many1 (asciiOr "_:")))⟩,
    ⟨"import".toList,
      .given (lineStart ++ spaced "extern" ++ spaced "crate" ++ captureAs "target" word)⟩,
    ⟨"import".toList, .given (lineStart ++ visibility ++ spaced "mod" ++ captureAs "target" word)⟩,
    ⟨"import".toList,
      .given (lineStart ++ text "include!" ++ blanks ++ text "(" ++ blanks ++ text "\""
      ++ captureAs "target" (many1 (notAmong "\"")) ++ text "\"" ++ blanks ++ text ")")⟩]

def structures : List Rule :=
  [⟨"struct".toList, .given (lineStart ++ visibility ++ spaced "struct" ++ declaredName)⟩,
    ⟨"enum".toList, .given (lineStart ++ visibility ++ spaced "enum" ++ declaredName)⟩,
    ⟨"trait".toList,
      .given (lineStart ++ visibility ++ opt (spaced "unsafe") ++ spaced "trait" ++ declaredName
      ++ spacedTypeParameters ++ opt (blanks ++ text ":" ++ blanks ++
        captureAs "base" (few1 (notAmong "\x7b")))
      ++ blanks ++ anyOf [text "\x7b", text "where" ++ wordEdge, finish])⟩,
    ⟨"impl".toList,
      .given (lineStart ++ opt (spaced "unsafe") ++ text "impl" ++ spacedTypeParameters ++ gap
      ++ captureAs "traits" (many1 (wordOr ":") ++ typeParameters) ++ gap ++ spaced "for" ++
        declaredName)⟩,
    ⟨"impl".toList,
      .given (lineStart ++ opt (spaced "unsafe") ++ text "impl" ++ spacedTypeParameters ++ gap
      ++ declaredName)⟩]

def methods : List Rule :=
  [⟨"definition".toList,
    .given (lineStart ++ visibility ++ opt (spaced "const") ++ opt (spaced "async")
      ++ opt (spaced "unsafe") ++ opt (spaced "extern" ++ enclosed "\"" "\"" ++ gap) ++ spaced "fn"
        ++ declaredName
      ++ blanks ++ typeParameters ++ blanks ++ parameterList
      ++ opt (blanks ++ text "->" ++ blanks ++ captureAs "ret" (few1 (notAmong "\x7b;"))) ++ blanks
      ++ anyOf [text "\x7b", text ";", text "where" ++ wordEdge, finish])⟩,
    ⟨"call".toList, .given (lineStart ++ text "self." ++ declaredName ++ blanks ++ text "(")⟩,
    ⟨"call".toList, .given (lineStart ++ word ++ text "::" ++ declaredName ++ blanks ++ text "(")⟩]

def table : List (Layer × List Rule) :=
  [(.modules, modules), (.structures, structures), (.methods, methods)]

end DependencyAtlas.Rules.Rust
