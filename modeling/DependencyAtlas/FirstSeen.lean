namespace DependencyAtlas

namespace FirstSeen

variable {α : Type} [DecidableEq α]

/-- Adds an element at the end unless it has been seen. -/
def add (xs : List α) (x : α) : List α :=
  if x ∈ xs then xs else xs ++ [x]

def ofList (xs : List α) : List α :=
  xs.foldl add []

def remaining (all seen : List α) : Nat :=
  (all.filter (· ∉ seen)).length

theorem filter_notMem_cons (all seen : List α) (x : α) :
    all.filter (· ∉ x :: seen) = (all.filter (· ∉ seen)).filter (· ≠ x) := by
  rw [List.filter_filter]
  refine List.filter_congr fun a _ => ?_
  by_cases h : a = x <;> simp [h]

theorem remaining_cons_lt {all seen : List α} {x : α} (hx : x ∈ all) (hs : x ∉ seen) :
    remaining all (x :: seen) < remaining all seen := by
  rw [remaining, remaining, filter_notMem_cons]
  exact List.length_filter_lt_length_iff_exists.2 ⟨x, by simp [hx, hs], by simp⟩

theorem remaining_cons_le (all seen : List α) (x : α) :
    remaining all (x :: seen) ≤ remaining all seen := by
  rw [remaining, remaining, filter_notMem_cons]
  exact List.length_filter_le _ _

end FirstSeen

/-- Values grouped under keys: the values of a key stand in the order in which they were added. -/
structure Grouping (κ α : Type) where
  groups : List (κ × List α) := []

namespace Grouping

variable {κ α : Type} [DecidableEq κ]

def get (g : Grouping κ α) (key : κ) : List α :=
  (g.groups.lookup key).getD []

def add (g : Grouping κ α) (key : κ) (value : α) : Grouping κ α :=
  if (g.groups.lookup key).isSome then
    ⟨g.groups.map fun e => if e.1 = key then (e.1, e.2 ++ [value]) else e⟩
  else ⟨g.groups ++ [(key, [value])]⟩

end Grouping

end DependencyAtlas
