import DependencyAtlas.CommandLine.Options
import DependencyAtlas.Crawl.Basic
import DependencyAtlas.Export.Format
import DependencyAtlas.FileTree.Write
import DependencyAtlas.Text.Plain

namespace DependencyAtlas.CommandLine

inductive CommandFault where
  | path (e : PathError)
  | crawl (e : CrawlFault)
  deriving DecidableEq, Repr

def CommandFault.message : CommandFault → Text
  | .path e => e.message
  | .crawl e => e.message

inductive Response where
  | printed (output : Text) (tree : FileTree)
  | refused (e : UsageError)
  | brokenOff (e : CommandFault)
  deriving DecidableEq, Repr

def versionLine : Text :=
  "cli, version 0.1.0\n".toList

def version : String := "0.1.0"

def helpText : Text :=
  ("Usage: cli [OPTIONS] [ENTRY_POINTS]...\n\n"
    ++ "  Maps module, type and call dependencies of a source tree.\n\n"
    ++ "Options:\n"
    ++ "  --version                       Show the version.\n"
    ++ "  -l, --library PATH              Library directory to crawl after the entry points.\n"
    ++ "  -d, --depth INTEGER             Maximum directory depth, -1 for unlimited.\n"
    ++ "  -o, --output TEXT               terminal, dot, graphviz or json.\n"
    ++ "  -f, --output-file FILE          Write the export to this file.\n"
    ++ "  -v, --verbose                   Show the tree view as well.\n"
    ++ "  --modules / --no-modules        Analyze module imports.\n"
    ++ "  --structures / --no-structures  Analyze type declarations.\n"
    ++ "  --methods / --no-methods        Analyze methods and calls.\n"
    ++ "  --help                          Show this text.\n").toList

def pathProblem (t : Text) : Option Response :=
  if (Path.ofText t).hasNul then some (.brokenOff (.path .nulCharacter)) else none

/-- The reason, if there is one, why the last value of an option does not do; of a repeated option
that collects its values, why one of them does not. -/
def valueProblem (tree : FileTree) (settings : List Setting) (o : ValueOption) : Option Response :=
  let values := valuesOf settings o
  match o with
  | .library => values.findSome? pathProblem
  | .output => none
  | .depth =>
    values.getLast?.bind fun t => if (Text.toInt? t).isNone then some (.refused .badNumber)
      else none
  | .outputFile =>
    values.getLast?.bind fun t =>
      (pathProblem t).or
        (if t ≠ [] ∧ tree.leadsToDirectory (Path.ofText t) then some (.refused .outputIsDirectory)
          else none)

def givenOptions (settings : List Setting) : List ValueOption :=
  FirstSeen.ofList (settings.filterMap fun s =>
    match s with
    | .value o _ => some o
    | .switch _ => none)

def information (settings : List Setting) : Option Text :=
  settings.findSome? fun s =>
    match s with
    | .switch .version => some versionLine
    | .switch .help => some helpText
    | _ => none

/-- Crawls, and prints the export or writes it to a file. With the verbose switch the tree follows
an export in another format. What is printed is plain text, whereas the file gets the export as it
is. -/
def execute (tree : FileTree) (o : Options) : Response :=
  match runCrawl tree o.crawl builtinRules with
  | .error fault => .brokenOff (.crawl fault)
  | .ok crawler =>
    let format := Export.Format.ofName o.format
    let text := Export.render format o.crawl.analyze crawler.atlas
    let more :=
      if o.verbose ∧ format ≠ .tree then Export.tree o.crawl.analyze crawler.atlas else []
    match o.outputFile with
    | none => .printed (Text.plain (text ++ more)) tree
    | some file =>
      match tree.writeText file text with
      | .error e => .brokenOff (.path e)
      | .ok tree =>
        let note := "Wrote ".toList ++ o.format ++ " output to ".toList ++ file.render ++ ['\n']
        .printed (Text.plain (note ++ more)) tree

def run (tree : FileTree) (args : List Text) : Response :=
  match readArguments args with
  | .error e => .refused e
  | .ok args =>
    match information args.settings with
    | some text => .printed text tree
    | none =>
      match ((givenOptions args.settings).findSome? (valueProblem tree args.settings)).or
          (args.others.findSome? pathProblem) with
      | some response => response
      | none => execute tree (optionsOf args)

end DependencyAtlas.CommandLine
