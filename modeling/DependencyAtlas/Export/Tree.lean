import DependencyAtlas.Graph.Query

namespace DependencyAtlas.Export

def branch (last : Bool) : Text :=
  if last then "└──".toList else "├──".toList

def column (last : Bool) : Text :=
  if last then "    ".toList else "│   ".toList

def item (indent : Text) (last : Bool) (label : Text) : Text :=
  indent ++ branch last ++ [' '] ++ label

def leaves (indent : Text) : List Text → List Text
  | [] => []
  | t :: ts => item indent ts.isEmpty t :: leaves indent ts

/-- Labelled lists below each other, left out where they are empty; `more` says that something
follows them. -/
def sections (indent : Text) (more : Bool) : List (String × List Text) → List Text
  | [] => []
  | (label, items) :: rest =>
    if items = [] then sections indent more rest
    else
      let last := !more && rest.all fun s => s.2.isEmpty
      item indent last label.toList :: leaves (indent ++ column last) items ++
        sections indent more rest

mutual

def methodLines (indent : Text) (last : Bool) : MethodTree → List Text
  | ⟨head, calls, references, children⟩ =>
    let inner := indent ++ column last
    item indent last head.signature ::
      (sections inner (!children.isEmpty) [("calls:", calls), ("called by:", references)] ++
        forestLines inner children)

/-- Methods below each other. -/
def forestLines (indent : Text) : List MethodTree → List Text
  | [] => []
  | m :: ms => methodLines indent ms.isEmpty m ++ forestLines indent ms

end

def heading (title : Text) (width : Nat) : List Text :=
  [title, List.replicate width '-']

def total (label : String) (n : Nat) : List Text :=
  [label.toList ++ ": ".toList ++ Text.ofNat n, []]

def moduleSection (a : Atlas) : List Text :=
  heading "Module Dependencies:".toList 17
    ++ (a.sources.flatMap fun source =>
      let targets := a.importsOf source
      if targets = [] then [] else ("  ".toList ++ source) :: leaves "    ".toList targets)
    ++ total "Total Module Dependencies" (a.count .modules)

def structureLines (a : Atlas) (s : StructureHead) : List Text :=
  let mentioned := a.referencesTo s
  ["  ".toList ++ s.kind ++ [' '] ++ s.name ++ " (defined in ".toList ++ s.definedIn ++ [')']]
    ++ ((s.dependencies.filter (· ≠ [])).toList.map ("    depends on: ".toList ++ ·))
    ++ (if mentioned = [] then [] else "    Referenced in:".toList ::
      leaves "      ".toList mentioned)

def structureSection (a : Atlas) : List Text :=
  heading "Structure Dependencies:".toList 20
    ++ (a.structures.flatMap fun k => structureLines a (a.ledger.structureAt k).head)
    ++ total "Total Structure Dependencies" (a.count .structures)

def methodSection (a : Atlas) : List Text :=
  heading "Method Dependencies:".toList 17
    ++ (a.sources.flatMap fun source =>
      let nodes := a.nodesFor source .methods
      if nodes.isEmpty then []
      else
        heading ("Method Dependencies for ".toList ++ source ++ [':']) 29
          ++ (nodes.flatMap fun n => forestLines "  ".toList (n.methods.map a.ledger.tree)) ++ [[]])
    ++ total "Total Method Dependencies" (a.count .methods)

/-- The whole tree, or a message that there is nothing to show. -/
def tree (shown : LayerChoice) (a : Atlas) : Text :=
  if a.graph.nodes = [] then "No dependencies found.\n".toList
  else
    let sum := addUp (Layer.all.map a.count)
    let lines := ["Dependencies by Layer".toList, List.replicate 26 '=', []]
      ++ (if shown.modules then moduleSection a else [])
      ++ (if shown.structures then structureSection a else [])
      ++ (if shown.methods then methodSection a else [])
      ++ ["Total Dependencies: ".toList ++ Text.ofNat sum]
    Text.join ['\n'] lines ++ ['\n']

end DependencyAtlas.Export
