import DependencyAtlas.Export.Dot
import DependencyAtlas.Export.Json
import DependencyAtlas.Export.Tree
import DependencyAtlas.Text.Lower

namespace DependencyAtlas.Export

inductive Format where
  | dot
  | json
  | tree
  deriving DecidableEq, Repr

def Format.ofName (name : Text) : Format :=
  let name := Text.lower name
  if name = "dot".toList ∨ name = "graphviz".toList then .dot
  else if name = "json".toList then .json
  else .tree

/-- The graph in a format. The layers to show concern the tree only. -/
def render (format : Format) (shown : LayerChoice) (a : Atlas) : Text :=
  match format with
  | .dot => dot a.relationships
  | .json => json a.relationships
  | .tree => tree shown a

end DependencyAtlas.Export
