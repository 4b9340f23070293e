import DependencyAtlas.Parameter.Dialect

namespace DependencyAtlas

open Text

namespace Parameter

variable {p : Parameter} {ps qs : List Parameter}

/-- The first type that is declared in a list, or the empty one. -/
def firstType (ps : List Parameter) : Text :=
  ((ps.find? fun p => p.type ≠ []).map (·.type)).getD []

theorem firstType_cons : firstType (p :: ps) = if p.type = [] then firstType ps else p.type := by
  by_cases hp : p.type = [] <;> simp [firstType, hp]

theorem firstType_of_untyped (h : ∀ q ∈ qs, q.type = []) : firstType (qs ++ ps) = firstType ps := by
  induction qs with
  | nil => rfl
  | cons q qs ih =>
    obtain ⟨hq, hqs⟩ := List.forall_mem_cons.1 h
    rw [List.cons_append, firstType_cons, if_pos hq, ih hqs]

theorem type_head?_takeNextType (ps : List Parameter) :
    ((takeNextType ps).head?.map (·.type)).getD [] = firstType ps := by
  induction ps with
  | nil => rfl
  | cons p ps ih =>
    rw [takeNextType, firstType_cons]
    split
    · exact ih
    · rfl

theorem takeNextType_cons :
    takeNextType (p :: ps) = { p with type := firstType (p :: ps) } :: takeNextType ps := by
  rw [takeNextType, type_head?_takeNextType, firstType_cons]
  split <;> rfl

theorem getElem?_takeNextType (ps : List Parameter) (i : Nat) :
    (takeNextType ps)[i]? = ps[i]?.map fun p => { p with type := firstType (ps.drop i) } := by
  induction ps generalizing i with
  | nil => rfl
  | cons p ps ih =>
    rw [takeNextType_cons]
    cases i with
    | zero => rfl
    | succ i => exact ih i

theorem takeNextType_append_of_untyped (h : ∀ q ∈ qs, q.type = []) :
    takeNextType (qs ++ ps) = qs.map ({ · with type := firstType ps }) ++ takeNextType ps := by
  induction qs with
  | nil => rfl
  | cons q qs ih =>
    have hfirst : firstType (q :: (qs ++ ps)) = firstType ps := firstType_of_untyped h
    rw [List.cons_append, takeNextType_cons, hfirst, ih (List.forall_mem_cons.1 h).2]
    rfl

/-- A list that is read from the left: the parameters whose types are known, and those behind them
that wait for one. -/
structure Filling where
  settled : List Parameter
  waiting : List Parameter
  untyped : ∀ q ∈ waiting, q.type = []

namespace Filling

def start : Filling :=
  ⟨[], [], List.forall_mem_nil _⟩

/-- Reads the next parameter. One that has a type gives it to all that wait. -/
def add (s : Filling) (p : Parameter) : Filling :=
  if hp : p.type = [] then
    { settled := s.settled
      waiting := s.waiting ++ [p]
      untyped := List.forall_mem_append.2 ⟨s.untyped, List.forall_mem_singleton.2 hp⟩ }
  else
    { settled := s.settled ++ s.waiting.map ({ · with type := p.type }) ++ [p]
      waiting := []
      untyped := List.forall_mem_nil _ }

def listed (s : Filling) : List Parameter :=
  s.settled ++ s.waiting

def ahead (s : Filling) (ps : List Parameter) : List Parameter :=
  s.settled ++ takeNextType (s.waiting ++ ps)

theorem ahead_nil (s : Filling) : s.ahead [] = s.listed := by
  have hwaiting : s.waiting.map ({ · with type := firstType [] }) = s.waiting.map id := by
    apply List.map_congr_left
    intro q hq
    change { q with type := [] } = q
    rw [← s.untyped q hq]
  rw [ahead, takeNextType_append_of_untyped s.untyped, hwaiting, List.map_id]
  exact congrArg (s.settled ++ ·) (List.append_nil s.waiting)

theorem ahead_add (s : Filling) (p : Parameter) (ps : List Parameter) :
    (s.add p).ahead ps = s.ahead (p :: ps) := by
  by_cases hp : p.type = []
  · simp [add, ahead, hp]
  · -- all that wait are filled in at once
    rw [ahead, ahead, takeNextType_append_of_untyped s.untyped, firstType_cons, if_neg hp,
      takeNextType_cons, firstType_cons, if_neg hp]
    simp [add, hp]

theorem listed_foldl_add (ps : List Parameter) (s : Filling) :
    (ps.foldl add s).listed = s.ahead ps := by
  induction ps generalizing s with
  | nil => exact s.ahead_nil.symm
  | cons p ps ih => rw [List.foldl_cons, ih, ahead_add]

end Filling

theorem defaultValue_ofGo (t : Text) : (ofGo t).defaultValue = none := by
  unfold ofGo
  split <;> rfl

end Parameter

namespace Language

open Parameter

theorem parameters_go (t : Text) :
    Language.go.parameters t = takeNextType ((splitTopLevel (· == ',') t).map ofGo) := by
  have hall : List.filterMap Language.go.parameter? = List.map ofGo := List.filterMap_eq_map
  rw [parameters, if_pos rfl, hall]

/-- Each entry of a list gives one parameter: the name is its own, the type the first one declared
at the entry or behind it, and there is no default value. Reading the list in one pass from the
left, where the parameters without a type wait for the next one that has one, gives the same. -/
theorem group_takes_next_declared_type (t : Text) :
    let own := (splitTopLevel (· == ',') t).map ofGo
    (∀ i : Nat, (Language.go.parameters t)[i]? =
      own[i]?.map fun p =>
        ({ name := p.name, type := firstType (own.drop i), defaultValue := none } : Parameter)) ∧
    Language.go.parameters t = (own.foldl Filling.add Filling.start).listed := by
  intro own
  rw [parameters_go]
  constructor
  · intro i
    rw [getElem?_takeNextType]
    apply Option.map_congr
    intro p hp
    obtain ⟨part, -, rfl⟩ := List.mem_map.1 (List.mem_of_getElem? hp)
    rw [← defaultValue_ofGo part]
  · rw [Filling.listed_foldl_add]
    rfl

example : Language.go.parameters "a, b map[K, V], c".toList =
    [⟨['a'], "map[K, V]".toList, none⟩, ⟨['b'], "map[K, V]".toList, none⟩, ⟨['c'], [], none⟩] := by
  decide

end Language

end DependencyAtlas
