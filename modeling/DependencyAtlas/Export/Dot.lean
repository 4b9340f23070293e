import DependencyAtlas.Graph.Relationship

namespace DependencyAtlas.Export

def escapeEach (c : Char) (t : Text) : Text :=
  t.flatMap fun d => if d = c then ['\\', d] else [d]

def dotQuoted (t : Text) : Text :=
  '"' :: escapeEach '"' (escapeEach '\\' t) ++ ['"']

def dotLine (r : Relationship) : Text :=
  "  ".toList ++ dotQuoted r.source ++ " -> ".toList ++ dotQuoted r.target ++ " [label=".toList
    ++ dotQuoted r.verb.word.toList ++ "];".toList

/-- Relationships as a directed graph, a line each. -/
def dot (rs : List Relationship) : Text :=
  Text.join ['\n'] (["digraph Dependencies \x7b".toList] ++ rs.map dotLine ++ [['\x7d']]) ++ ['\n']

end DependencyAtlas.Export
