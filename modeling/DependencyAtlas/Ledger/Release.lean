import DependencyAtlas.Ledger.Record

namespace DependencyAtlas

structure ReleaseStats where
  nodes : Nat := 0
  structures : Nat := 0
  methods : Nat := 0
  parameters : Nat := 0
  references : Nat := 0
  deriving DecidableEq, Repr

def ReleaseStats.total (s : ReleaseStats) : Nat :=
  s.nodes + s.structures + s.methods + s.parameters + s.references

inductive Emptied where
  | method (key : MethodKey)
  | structureAt (key : StructureKey)
  | node (key : NodeKey)
  deriving DecidableEq, Repr

inductive ReleaseTask where
  | enterMethod (key : MethodKey)
  | enterStructure (key : StructureKey)
  | leave (thing : Emptied)
  deriving DecidableEq, Repr

/-- The things to empty, in order, and why the walk stopped early, if it did. -/
structure ReleasePlan where
  emptied : List Emptied := []
  fault : Option LedgerFault := none
  deriving DecidableEq, Repr

def addUp (counts : List Nat) : Nat :=
  counts.foldr (· + ·) 0

theorem le_foldr_max {counts : List Nat} {n : Nat} (h : n ∈ counts) : n ≤ counts.foldr max 0 := by
  induction h with
  | head => exact Nat.le_max_left ..
  | tail _ _ ih => exact Nat.le_trans ih (Nat.le_max_right ..)

namespace Ledger

def longest (l : Ledger) : Nat :=
  (l.methods.map (·.children.length) ++ l.structures.map (·.methods.length)).foldr max 0

theorem length_children_le (l : Ledger) (k : MethodKey) :
    (l.method k).children.length ≤ l.longest := by
  by_cases hk : k.index < l.methods.length
  · rw [method, List.getD_eq_getElem?_getD, List.getElem?_eq_getElem hk, Option.getD_some]
    exact le_foldr_max (List.mem_append_left _ (List.mem_map_of_mem (List.getElem_mem hk)))
  · simp [method, Nat.le_of_not_lt hk]

theorem length_structureMethods_le (l : Ledger) (k : StructureKey) :
    (l.structureAt k).methods.length ≤ l.longest := by
  by_cases hk : k.index < l.structures.length
  · rw [structureAt, List.getD_eq_getElem?_getD, List.getElem?_eq_getElem hk, Option.getD_some]
    exact le_foldr_max (List.mem_append_right _ (List.mem_map_of_mem (List.getElem_mem hk)))
  · simp [structureAt, Nat.le_of_not_lt hk]

/-- A bound for the steps of a walk. Entering an item adds its contents and one more task to the
tasks, so each item not yet entered stands for that many. -/
def workLeft (l : Ledger) (methods structures : List Nat) (tasks : List ReleaseTask) : Nat :=
  (FirstSeen.remaining (List.range l.methods.length) methods +
    FirstSeen.remaining (List.range l.structures.length) structures) * (l.longest + 2) +
    tasks.length

theorem workLeft_lt {l : Ledger} {methods methods' structures structures' : List Nat}
    {tasks contents : List ReleaseTask} {task thing : ReleaseTask}
    (hlt : FirstSeen.remaining (List.range l.methods.length) methods' +
        FirstSeen.remaining (List.range l.structures.length) structures' <
      FirstSeen.remaining (List.range l.methods.length) methods +
        FirstSeen.remaining (List.range l.structures.length) structures)
    (hle : contents.length ≤ l.longest) :
    l.workLeft methods' structures' (contents ++ thing :: tasks) <
      l.workLeft methods structures (task :: tasks) := by
  have hmul := Nat.mul_le_mul_right (l.longest + 2) (Nat.succ_le_of_lt hlt)
  rw [Nat.succ_mul] at hmul
  simp only [workLeft, List.length_append, List.length_cons]
  omega

/-- Plans the walk over the tasks, given the methods and structures that have been entered. -/
def planFrom (l : Ledger) (methods structures : List Nat) : List ReleaseTask → ReleasePlan
  | [] => {}
  | .leave thing :: rest =>
    let plan := planFrom l methods structures rest
    { plan with emptied := thing :: plan.emptied }
  | .enterMethod k :: rest =>
    if hk : k.index < l.methods.length then
      if hs : k.index ∈ methods then
        { fault := some (.methodReleasedTwice (l.method k).head.name) }
      else
        planFrom l (k.index :: methods) structures
          ((l.method k).children.map .enterMethod ++ .leave (.method k) :: rest)
    else planFrom l methods structures rest
  | .enterStructure k :: rest =>
    if hk : k.index < l.structures.length then
      if hs : k.index ∈ structures then
        { fault := some (.structureReleasedTwice (l.structureAt k).head.name) }
      else
        planFrom l methods (k.index :: structures)
          ((l.structureAt k).methods.map .enterMethod ++ .leave (.structureAt k) :: rest)
    else planFrom l methods structures rest
termination_by tasks => l.workLeft methods structures tasks
decreasing_by
  · simp [workLeft]
  · exact workLeft_lt
      (Nat.add_lt_add_right (FirstSeen.remaining_cons_lt (List.mem_range.2 hk) hs) _)
      (by simpa using length_children_le l k)
  · simp [workLeft]
  · exact workLeft_lt
      (Nat.add_lt_add_left (FirstSeen.remaining_cons_lt (List.mem_range.2 hk) hs) _)
      (by simpa using length_structureMethods_le l k)
  · simp [workLeft]

def plan (l : Ledger) (tasks : List ReleaseTask) : ReleasePlan :=
  l.planFrom [] [] tasks

def emptyOut (state : ReleaseStats × Ledger) (thing : Emptied) : ReleaseStats × Ledger :=
  let (stats, l) := state
  match thing with
  | .method k =>
    let m := l.method k
    ({ stats with
        methods := stats.methods + 1
        parameters := stats.parameters + m.head.parameters.length
        references := stats.references + m.references.length },
      l.updateMethod k fun e =>
        { e with
          head := { e.head with parameters := [] }
          calls := []
          references := []
          children := []
          owner := none })
  | .structureAt k =>
    ({ stats with structures := stats.structures + 1 },
      l.updateStructure k fun e =>
        { e with head := { e.head with traits := [] }, methods := [], owner := none })
  | .node k =>
    ({ stats with nodes := stats.nodes + 1 },
      l.updateNode k fun e => { e with structures := [], methods := [], methodCount := 0 })

def carryOut (l : Ledger) (p : ReleasePlan) : ReleaseStats × Ledger :=
  p.emptied.foldl emptyOut ({}, l)

def contentTasks (structures : List StructureKey) (methods : List MethodKey) : List ReleaseTask :=
  structures.map .enterStructure ++ methods.map .enterMethod

/-- Drops a record with all it owns; a consumed one owns nothing. -/
def releaseRecord (l : Ledger) (k : RecordKey) : Except LedgerFault ReleaseStats × Ledger :=
  if (l.record k).consumed then (.ok {}, l)
  else
    let p := l.plan (contentTasks (l.record k).structures (l.record k).methods)
    let (stats, l) := l.carryOut p
    match p.fault with
    | some fault => (.error fault, l)
    | none =>
      (.ok stats,
        l.updateRecord k fun r => { r with structures := [], methods := [], consumed := true })

end Ledger

end DependencyAtlas
