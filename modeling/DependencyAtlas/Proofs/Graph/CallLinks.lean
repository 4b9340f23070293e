import DependencyAtlas.Proofs.Graph.Groups

namespace DependencyAtlas

open Ledger

namespace Ledger

variable {l : Ledger} {m : MethodKey}

theorem mem_references_addReference (hm : m.index < l.methods.length) (k : MethodKey)
    (place x : Text) :
    x ∈ ((l.addReference k place).method m).references ↔ x ∈ (l.method m).references ∨
    (k, place) = (m, x) := by
  rw [addReference, method_updateMethod]
  by_cases hk : m = k
  · subst hk
    rw [if_pos ⟨rfl, hm⟩, FirstSeen.mem_add, Prod.mk.injEq]
    simp [eq_comm]
  · rw [if_neg fun h => hk h.1, Prod.mk.injEq]
    simp [Ne.symm hk]

theorem nodup_references_addReference (h : (l.method m).references.Nodup) (k : MethodKey)
    (place : Text) :
    ((l.addReference k place).method m).references.Nodup := by
  rw [addReference, method_updateMethod]
  split
  · exact FirstSeen.nodup_add h place
  · exact h

end Ledger

namespace Atlas

section Folds

variable {f : Ledger → MethodKey × Text → Ledger} {P : MethodHead → Prop} {l : Ledger}
  {m : MethodKey}

theorem mem_references_foldl (halike : ∀ (l : Ledger) e, l.Alike (f l e))
    (hstep : ∀ (l : Ledger) e m x, m.index < l.methods.length →
      (x ∈ ((f l e).method m).references ↔ x ∈ (l.method m).references ∨ e = (m, x) ∧
        P (l.method m).head))
    (es : List (MethodKey × Text)) (hm : m.index < l.methods.length) (x : Text) :
    x ∈ ((es.foldl f l).method m).references ↔
      x ∈ (l.method m).references ∨ (m, x) ∈ es ∧ P (l.method m).head := by
  induction es generalizing l with
  | nil => simp
  | cons e es ih =>
    rw [List.foldl_cons, ih ((halike l e).length ▸ hm), hstep l e m x hm, (halike l e).head,
      List.mem_cons, or_assoc, ← or_and_right, eq_comm]

theorem nodup_references_foldl
    (hstep : ∀ (l : Ledger) e, (l.method m).references.Nodup → ((f l e).method m).references.Nodup)
    (es : List (MethodKey × Text)) (h : (l.method m).references.Nodup) :
    ((es.foldl f l).method m).references.Nodup := by
  induction es generalizing l with
  | nil => exact h
  | cons e es ih => exact ih (hstep l e h)

end Folds

theorem mem_references_referTo (file : Text) (l : Ledger) (e : MethodKey × Text) (m : MethodKey)
    (x : Text) (hm : m.index < l.methods.length) :
    x ∈ ((referTo l file e.1 e.2).method m).references ↔
      x ∈ (l.method m).references ∨ e = (m, x) ∧ (l.method m).head.definedIn ≠ file := by
  unfold referTo
  split
  · next hfile =>
    refine ⟨.inl, ?_⟩
    rintro (hx | ⟨rfl, hne⟩)
    · exact hx
    · exact (hne hfile).elim
  · next hfile =>
    rw [mem_references_addReference hm]
    refine or_congr_right ⟨?_, And.left⟩
    intro he
    obtain rfl : e = (m, x) := he
    exact ⟨rfl, hfile⟩

theorem mem_references_referAll {l : Ledger} {m : MethodKey} (file : Text)
    (es : List (MethodKey × Text)) (hm : m.index < l.methods.length) (x : Text) :
    x ∈ ((es.foldl (fun l e => referTo l file e.1 e.2) l).method m).references ↔
      x ∈ (l.method m).references ∨ (m, x) ∈ es ∧ (l.method m).head.definedIn ≠ file :=
  mem_references_foldl (P := fun head => head.definedIn ≠ file)
    (fun l e => alike_referTo l file e.1 e.2) (mem_references_referTo file) es hm x

theorem mem_references_addAll {l : Ledger} {m : MethodKey} (es : List (MethodKey × Text))
    (hm : m.index < l.methods.length) (x : Text) :
    x ∈ ((es.foldl (fun l e => l.addReference e.1 e.2) l).method m).references ↔
      x ∈ (l.method m).references ∨ (m, x) ∈ es := by
  have hstep : ∀ (l : Ledger) (e : MethodKey × Text) m x, m.index < l.methods.length →
      (x ∈ ((l.addReference e.1 e.2).method m).references ↔ x ∈ (l.method m).references ∨
        e = (m, x) ∧ True) := by
    intro l e m x hm
    rw [and_true]
    exact mem_references_addReference hm e.1 e.2 x
  have hfold :=
    mem_references_foldl (P := fun _ => True) (fun l e => .of_addReference l e.1 e.2) hstep es hm x
  rwa [and_true] at hfold

variable (a : Atlas) (file : Text) (methods : List MethodKey)

/-- The references after linking the methods of a file: those before, the calls from the file to
methods of other files, and the calls from other files to the methods of the file. -/
theorem mem_references_linkCalls {m : MethodKey} (hm : m.index < a.ledger.methods.length)
    (x : Text) :
    x ∈ ((a.linkCalls file methods).ledger.method m).references ↔
      x ∈ (a.ledger.method m).references ∨
      ((a.ledger.method m).head.definedIn ≠ file ∧ ∃ c ∈ methods.flatMap a.ledger.walk,
        ∃ callee ∈ (a.ledger.method c).calls, m ∈ a.graph.byName.get callee ∧
          x = MethodTree.location file (a.ledger.method c).head.name) ∨
      (m ∈ methods.flatMap a.ledger.walk ∧ ∃ c ∈
        a.graph.callersOf.get (a.ledger.method m).head.name,
        (a.ledger.method c).head.definedIn ≠ file ∧
          x = MethodTree.location (a.ledger.method c).head.definedIn
            (a.ledger.method c).head.name) := by
  let added := methods.flatMap a.ledger.walk
  let entry := a.ledger.method
  let outgoing := added.flatMap fun c => (entry c).calls.flatMap fun callee =>
    (a.graph.byName.get callee).map fun t => (t, MethodTree.location file (entry c).head.name)
  let incoming := added.flatMap fun t =>
    ((a.graph.callersOf.get (entry t).head.name).filter
      fun c => (entry c).head.definedIn ≠ file).map fun c =>
        (t, MethodTree.location (entry c).head.definedIn (entry c).head.name)
  let linked := outgoing.foldl (fun l e => referTo l file e.1 e.2) a.ledger
  have hlinked : m.index < linked.methods.length :=
    (alike_foldl (fun l (e : MethodKey × Text) => alike_referTo l file e.1 e.2) outgoing
      a.ledger).length ▸ hm
  have hout : (m, x) ∈ outgoing ↔ ∃ c ∈ added, ∃ callee ∈ (entry c).calls,
      m ∈ a.graph.byName.get callee ∧
      x = MethodTree.location file (entry c).head.name := by
    simp only [outgoing, List.mem_flatMap, List.mem_map, Prod.mk.injEq]
    grind
  have hin : (m, x) ∈ incoming ↔ m ∈ added ∧ ∃ c ∈ a.graph.callersOf.get (entry m).head.name,
      (entry c).head.definedIn ≠ file ∧
        x = MethodTree.location (entry c).head.definedIn (entry c).head.name := by
    simp only [incoming, List.mem_flatMap, List.mem_map, List.mem_filter, decide_eq_true_eq,
      Prod.mk.injEq]
    grind
  calc x ∈ ((a.linkCalls file methods).ledger.method m).references
    _ ↔ x ∈ (linked.method m).references ∨ (m, x) ∈ incoming :=
      mem_references_addAll incoming hlinked x
    _ ↔ (x ∈ (a.ledger.method m).references ∨ (m, x) ∈ outgoing ∧
      (a.ledger.method m).head.definedIn ≠ file) ∨
        (m, x) ∈ incoming := or_congr_left (mem_references_referAll file outgoing hm x)
    _ ↔ _ := by rw [hout, hin, or_assoc, and_comm (b := _ ≠ file)]

theorem nodup_references_linkCalls {m : MethodKey} (h : (a.ledger.method m).references.Nodup) :
    ((a.linkCalls file methods).ledger.method m).references.Nodup := by
  rw [linkCalls]
  apply nodup_references_foldl (fun l e hl => nodup_references_addReference hl e.1 e.2)
  refine nodup_references_foldl (f := fun l e => referTo l file e.1 e.2) (fun l e hl => ?_) _ h
  unfold referTo
  split
  · exact hl
  · exact nodup_references_addReference hl e.1 e.2

/-- The new methods of a name stand behind those that were there, in the order of the walk. -/
theorem byName_linkCalls (name : Text) :
    (a.linkCalls file methods).graph.byName.get name =
      a.graph.byName.get name ++
        (methods.flatMap a.ledger.walk).filter fun m => (a.ledger.method m).head.name = name := by
  have hget :=
    Grouping.get_foldl_add (fun k => [((a.ledger.method k).head.name, k)])
      (methods.flatMap a.ledger.walk)
    a.graph.byName name
  change Grouping.get (List.foldl _ a.graph.byName (methods.flatMap a.ledger.walk)) name = _
  simp only [List.foldl_cons, List.foldl_nil] at hget
  rw [hget, List.filterMap_flatMap, ← List.filterMap_eq_filter, List.filterMap_eq_flatMap_toList]
  congr 1
  apply List.flatMap_congr
  intro m _
  by_cases hm : (a.ledger.method m).head.name = name
  · simp [hm, Option.guard]
  · simp [hm, Ne.symm hm, Option.guard]

theorem mem_byName_linkCalls (name : Text) (m : MethodKey) :
    m ∈ (a.linkCalls file methods).graph.byName.get name ↔
      m ∈ a.graph.byName.get name ∨ m ∈ methods.flatMap a.ledger.walk ∧
      (a.ledger.method m).head.name = name := by
  rw [byName_linkCalls, List.mem_append, List.mem_filter, decide_eq_true_eq]

theorem mem_callersOf_linkCalls (callee : Text) (m : MethodKey) :
    m ∈ (a.linkCalls file methods).graph.callersOf.get callee ↔
      m ∈ a.graph.callersOf.get callee ∨ m ∈ methods.flatMap a.ledger.walk ∧
      callee ∈ (a.ledger.method m).calls := by
  have hget := Grouping.get_foldl_add (fun k => (a.ledger.method k).calls.map fun c => (c, k))
    (methods.flatMap a.ledger.walk) a.graph.callersOf callee
  change m ∈ Grouping.get (List.foldl _ a.graph.callersOf (methods.flatMap a.ledger.walk)) callee ↔
    _
  simp only [List.foldl_map] at hget
  rw [hget]
  simp [List.mem_append, List.mem_filterMap, eq_comm]

end Atlas

end DependencyAtlas
