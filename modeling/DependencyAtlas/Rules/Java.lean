import DependencyAtlas.Pattern.Rule

namespace DependencyAtlas.Rules.Java

open Pattern

def modules : List Rule :=
  [⟨"import".toList, .given (lineStart ++ spaced "import" ++ opt (spaced "static")
      ++ captureAs "target" (many1 (wordOr ".") ++ opt (text ".*")) ++ blanks ++ text ";")⟩,
    ⟨"import".toList,
      .given (lineStart ++ spaced "package" ++ captureAs "target" (many1 (wordOr ".")) ++ blanks
      ++ text ";")⟩]

def typeModifiers : Pattern :=
  many0 (anyWord ["public", "protected", "private", "abstract", "final", "static", "sealed",
    "non-sealed", "strictfp"] ++ gap)

/-- The types named after a word, if it is there, up to the body. -/
def listed (keyword : String) : Pattern :=
  opt (gap ++ spaced keyword ++ captureAs "traits" (few1 (notAmong "\x7b")))

def structures : List Rule :=
  [⟨"class".toList,
    .given (lineStart ++ typeModifiers ++ spaced "class" ++ declaredName ++ spacedTypeParameters
      ++ opt (gap ++ spaced "extends" ++ captureAs "base" (many1 (wordOr ".") ++ typeParameters))
      ++ listed "implements" ++ blanks ++ bodyOrEnd)⟩,
    ⟨"interface".toList, .given (lineStart ++ typeModifiers ++ spaced "interface" ++ declaredName
      ++ spacedTypeParameters ++ listed "extends" ++ blanks ++ bodyOrEnd)⟩,
    ⟨"enum".toList,
      .given (lineStart ++ typeModifiers ++ spaced "enum" ++ declaredName ++ listed "implements"
      ++ blanks ++ bodyOrEnd)⟩,
    ⟨"record".toList,
      .given (lineStart ++ typeModifiers ++ spaced "record" ++ declaredName ++ spacedTypeParameters
      ++ blanks ++ enclosed "(" ")" ++ listed "implements" ++ blanks ++ bodyOrEnd)⟩]

def methodModifiers : Pattern :=
  many0 (anyWord ["public", "private", "protected", "static", "final", "abstract", "synchronized",
    "native", "default"] ++ gap)

/-- What a method returns, arguments and dimensions of the type included. -/
def returnType : Pattern :=
  many1 (wordOr ".<>[]?")
    ++ opt (many0 (one ⟨[.word] ++ ".<>[],?".toList.map .char ++ [.blank], false⟩) ++ wordOr ">]")

def methods : List Rule :=
  [⟨"definition".toList, .given (lineStart ++ many0 (text "@" ++ word ++ gap) ++ methodModifiers
      ++ opt (enclosed "<" ">" ++ gap) ++ captureAs "ret" returnType ++ gap ++ declaredName ++
        blanks ++ parameterList
      ++ blanks ++
        opt (spaced "throws" ++ few1 (one ⟨[.word, .char '.', .char ',', .blank], false⟩)) ++ blanks
      ++ anyOf [text "\x7b", text ";", finish])⟩]

def table : List (Layer × List Rule) :=
  [(.modules, modules), (.structures, structures), (.methods, methods)]

end DependencyAtlas.Rules.Java
