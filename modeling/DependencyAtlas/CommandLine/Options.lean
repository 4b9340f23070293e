import DependencyAtlas.Crawl.Config
import DependencyAtlas.FirstSeen
import DependencyAtlas.Text.Number

namespace DependencyAtlas.CommandLine

inductive ValueOption where
  | library
  | depth
  | output
  | outputFile
  deriving DecidableEq, Repr

inductive Switch where
  | verbose
  | modules (on : Bool)
  | structures (on : Bool)
  | methods (on : Bool)
  | version
  | help
  deriving DecidableEq, Repr

inductive OptionKind where
  | value (o : ValueOption)
  | switch (s : Switch)
  deriving DecidableEq, Repr

def shortOption? (c : Char) : Option OptionKind :=
  match c with
  | 'l' => some (.value .library)
  | 'd' => some (.value .depth)
  | 'o' => some (.value .output)
  | 'f' => some (.value .outputFile)
  | 'v' => some (.switch .verbose)
  | _ => none

def longOptions : List (String × OptionKind) :=
  [("--library", .value .library), ("--depth", .value .depth), ("--output", .value .output),
    ("--output-file", .value .outputFile), ("--verbose", .switch .verbose),
    ("--modules", .switch (.modules true)), ("--no-modules", .switch (.modules false)),
    ("--structures", .switch (.structures true)), ("--no-structures", .switch (.structures false)),
    ("--methods", .switch (.methods true)), ("--no-methods", .switch (.methods false)),
    ("--version", .switch .version), ("--help", .switch .help)]

def longOption? (name : Text) : Option OptionKind :=
  (longOptions.find? fun o => o.1.toList = name).map (·.2)

inductive Setting where
  | value (o : ValueOption) (t : Text)
  | switch (s : Switch)
  deriving DecidableEq, Repr

structure Arguments where
  settings : List Setting := []
  others : List Text := []
  deriving DecidableEq, Repr

/-- Why arguments cannot be used. -/
inductive UsageError where
  | unknownOption
  | missingValue
  | unexpectedValue
  | badNumber
  | outputIsDirectory
  deriving DecidableEq, Repr

def UsageError.message : UsageError → Text
  | .unknownOption => "There is no such option.".toList
  | .missingValue => "An option has no value.".toList
  | .unexpectedValue => "An option takes no value.".toList
  | .badNumber => "The depth is not a whole number.".toList
  | .outputIsDirectory => "The output file is a directory.".toList

/-- Takes apart an argument of short options, from behind its dash: what it sets, and the option
that still needs a value, if there is one. -/
def shortSettings : Text → Except UsageError (List Setting × Option ValueOption)
  | [] => .ok ([], none)
  | c :: t =>
    match shortOption? c with
    | none => .error .unknownOption
    | some (.switch s) => (shortSettings t).map fun r => (.switch s :: r.1, r.2)
    | some (.value o) => .ok (if t = [] then ([], some o) else ([.value o t], none))

def optionSettings (arg : Text) : Except UsageError (List Setting × Option ValueOption) :=
  let (name, attached) := match Text.cutAt (· == '=') arg with
    | some (name, value) => (name, some value)
    | none => (arg, none)
  match longOption? name, attached with
  | some (.value o), some t => .ok ([.value o t], none)
  | some (.value o), none => .ok ([], some o)
  | some (.switch s), none => .ok ([.switch s], none)
  | some (.switch _), some _ => .error .unexpectedValue
  | none, _ =>
    if "--".toList.isPrefixOf arg then .error .unknownOption else shortSettings (arg.drop 1)

/-- Takes arguments apart, where `pending` is the option that takes the next one as its value,
whatever it looks like. -/
def readArgumentsFrom : (pending : Option ValueOption) → List Text → Except UsageError Arguments
  | none, [] => .ok {}
  | some _, [] => .error .missingValue
  | some o, value :: rest =>
    (readArgumentsFrom none rest).map fun more =>
      { more with settings := .value o value :: more.settings }
  | none, arg :: rest =>
    if arg = "--".toList then .ok { others := rest }
    else if arg.head? = some '-' ∧ 1 < arg.length then
      match optionSettings arg with
      | .error e => .error e
      | .ok (settings, pending) =>
        (readArgumentsFrom pending rest).map fun more =>
          { more with settings := settings ++ more.settings }
    else (readArgumentsFrom none rest).map fun more => { more with others := arg :: more.others }

def readArguments (args : List Text) : Except UsageError Arguments :=
  readArgumentsFrom none args

structure Options where
  crawl : CrawlConfig := {}
  /-- The name of the format, in lower case. -/
  format : Text := "terminal".toList
  outputFile : Option Path := none
  verbose : Bool := false
  deriving DecidableEq, Repr

def valuesOf (settings : List Setting) (o : ValueOption) : List Text :=
  settings.filterMap fun s =>
    match s with
    | .value p t => if p = o then some t else none
    | .switch _ => none

def Options.apply (o : Options) : Switch → Options
  | .verbose => { o with verbose := true }
  | .modules on => { o with crawl.analyze.modules := on }
  | .structures on => { o with crawl.analyze.structures := on }
  | .methods on => { o with crawl.analyze.methods := on }
  | .version | .help => o

/-- What the settings and the other arguments mean. The last of repeated settings counts, and a
depth that is no number is left out. -/
def optionsOf (args : Arguments) : Options :=
  let settings := args.settings
  let switches := settings.filterMap fun s =>
    match s with
    | .switch s => some s
    | .value _ _ => none
  let last (o : ValueOption) := (valuesOf settings o).getLast?
  let options : Options :=
    { crawl :=
        { roots := if args.others = [] then [.current] else args.others.map Path.ofText
          libraryDirs := (valuesOf settings .library).map Path.ofText
          maxDepth := ((last .depth).bind Text.toInt?).getD (-1) }
      format := Text.lower ((last .output).getD "terminal".toList)
      outputFile := (last .outputFile).map Path.ofText }
  switches.foldl Options.apply options

end DependencyAtlas.CommandLine
