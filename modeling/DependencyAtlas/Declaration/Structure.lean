import DependencyAtlas.Declaration.Method

namespace DependencyAtlas

/-- What the declaration of a structure says. The dependency text names its bases; its provenance is
the file through whose imports that text has been explained. -/
structure StructureHead where
  name : Text
  kind : Text := "struct".toList
  definedIn : Text := []
  line : Int := 0
  dependencies : Option Text := none
  traits : List Text := []
  provenance : Option Text := none
  deriving DecidableEq, Repr

structure StructureTree where
  head : StructureHead
  methods : List MethodTree := []
  deriving Repr

namespace StructureHead

def unexplained (s : StructureHead) : Bool :=
  s.dependencies.any (· ≠ []) && s.provenance.isNone

def mentions (s : StructureHead) (targets : List Text) : Bool :=
  targets.any fun t => t ≠ [] && s.dependencies.any (Text.hasPart t)

def explainable (targets : List Text) (s : StructureHead) : Bool :=
  s.unexplained && s.mentions targets

def explain (file : Text) (targets : List Text) (s : StructureHead) : StructureHead :=
  if s.explainable targets then
    { s with dependencies := s.dependencies.map (file ++ [':'] ++ ·), provenance := some file }
  else s

end StructureHead

end DependencyAtlas
