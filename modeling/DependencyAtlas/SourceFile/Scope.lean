import DependencyAtlas.Text.Basic

namespace DependencyAtlas.Scope

open Text

def isComment (trimmed : Text) : Bool :=
  trimmed == ['*'] || ["//", "/*", "* ", "*/", "#"].any fun p => p.toList.isPrefixOf trimmed

/-- Whether a trimmed line only opens a block. -/
def isLoneOpener (trimmed : Text) : Bool :=
  trimmed == ['\x7b'] || trimmed == ['('] || trimmed == ['[']

def isSignificant (line : Text) : Bool :=
  trim line != [] && !isComment (trim line) && !isLoneOpener (trim line)

def ends (depth : Nat) (line : Text) : Bool :=
  isSignificant line && indent line ≤ depth

def scopeEnd (lines : List Text) (i : Nat) : Nat :=
  i + 1 + ((lines.drop (i + 1)).takeWhile fun l => !ends (indent (lines.getD i [])) l).length

end DependencyAtlas.Scope
