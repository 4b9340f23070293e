import DependencyAtlas.FileTree.Path
import DependencyAtlas.Language

namespace DependencyAtlas

structure CrawlConfig where
  roots : List Path := [.current]
  libraryDirs : List Path := []
  /-- The deepest level below a root that is listed; a negative number sets no limit. -/
  maxDepth : Int := -1
  analyze : LayerChoice := {}
  skipDirs : List Text :=
    ["node_modules", ".git", "build", "dist", "target", "vendor"].map String.toList
  skipExtensions : List Text :=
    ["txt", "md", "json", "yml", "yaml", "xml", "csv", "log", "license", "gitignore",
      "lock"].map String.toList
  /-- The extensions of source files; all that tell a language if nothing is given. -/
  sourceExtensions : Option (List Text) := none
  defaultLanguage : Language := .fallback
  deriving DecidableEq, Repr

namespace CrawlConfig

def skips (c : CrawlConfig) (extension : Text) : Bool :=
  extension == [] ||
    (c.skipExtensions.map fun e => (Text.lower e).dropWhile (· == '.')).contains
      (extension.dropWhile (· == '.'))

def dotted (extension : Text) : Text :=
  if extension.head? = some '.' then Text.lower extension else '.' :: Text.lower extension

def isSource (c : CrawlConfig) (extension : Text) : Bool :=
  match c.sourceExtensions with
  | none => (Language.extensions.map (·.1.toList)).contains extension
  | some es => (es.map dotted).contains extension

/-- Whether the file at a path is to be read. One that was asked for by name need not look like a
source file. -/
def wants (c : CrawlConfig) (path : Path) (byName : Bool) : Bool :=
  let extension := Language.extensionOf path.render
  !c.skips extension && (byName || c.isSource extension)

def tooDeep (c : CrawlConfig) (depth : Nat) : Bool :=
  0 ≤ c.maxDepth && c.maxDepth < (depth : Int)

end CrawlConfig

end DependencyAtlas
