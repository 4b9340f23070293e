import DependencyAtlas.Proofs.Graph.Stamping
import DependencyAtlas.Proofs.Graph.Transfer

namespace DependencyAtlas

open Ledger

namespace FirstSeen

variable {α : Type} {xs ys zs : List α}

/-- A list with values behind it that it did not have. -/
def Grows (xs ys : List α) : Prop :=
  ∃ added, ys = xs ++ added ∧ ∀ x ∈ added, x ∉ xs

theorem Grows.refl (xs : List α) : Grows xs xs :=
  ⟨[], (List.append_nil xs).symm, by simp⟩

theorem Grows.trans (h : Grows xs ys) (h' : Grows ys zs) : Grows xs zs := by
  obtain ⟨added, rfl, hnew⟩ := h
  obtain ⟨more, rfl, hmore⟩ := h'
  refine ⟨added ++ more, List.append_assoc .., ?_⟩
  intro x hx
  rcases List.mem_append.1 hx with hx | hx
  · exact hnew x hx
  · exact fun hin => hmore x hx (List.mem_append_left _ hin)

theorem grows_add [DecidableEq α] (xs : List α) (x : α) : Grows xs (add xs x) := by
  unfold add
  split
  · exact .refl xs
  · next hx => exact ⟨[x], rfl, by simpa using hx⟩

end FirstSeen

namespace Ledger

theorem grows_addReference (l : Ledger) (k m : MethodKey) (place : Text) :
    FirstSeen.Grows (l.method m).references ((l.addReference k place).method m).references := by
  rw [addReference, method_updateMethod]
  split
  · exact FirstSeen.grows_add ..
  · exact .refl _

end Ledger

namespace Atlas

variable {a b : Atlas} {rs : List Record} {r : Record} {k : RecordKey} {n : NodeKey} {m : MethodKey}
  {answer : Option NodeKey} {op : Operation}

section Nodes

theorem Placed.nodes_prefix (h : Placed a r b answer) : a.graph.nodes <+: b.graph.nodes := by
  cases h with
  | repeated _ _ hgraph _ => exact hgraph ▸ List.prefix_rfl
  | opened _ _ hnodes _ _ _ =>
    rw [hnodes]
    exact List.prefix_append ..
  | extended _ _ _ _ _ hnodes _ _ _ => exact hnodes ▸ List.prefix_rfl

theorem Placed.node_cases (h : Placed a r b answer) (hn : n.index < a.ledger.nodes.length) :
    b.ledger.node n = a.ledger.node n ∨
      ∃ count, b.ledger.node n = { (a.ledger.node n).received r with methodCount := count } := by
  by_cases hans : answer = some n
  · cases h with
    | repeated => cases hans
    | opened =>
      obtain rfl := Option.some.inj hans
      exact (Nat.lt_irrefl _ hn).elim
    | extended m rest count _ _ _ _ _ hentries =>
      obtain rfl := Option.some.inj hans
      refine .inr ⟨count (a.ledger.node m), ?_⟩
      rw [node, hentries, getD_modify, if_pos ⟨rfl, hn⟩, ← node]
  · exact .inl (h.node_of_ne hn hans)

end Nodes

section Names

/-- The methods that the graph has under a name are known, and have that name. -/
def NamesHold (a : Atlas) : Prop :=
  ∀ name, ∀ m ∈ a.graph.byName.get name, a.ledger.Has (.ofMethod m) ∧
    (a.ledger.method m).head.name = name

theorem namesHold_empty (l : Ledger) : NamesHold { ledger := l } := by
  intro name m hm
  cases hm

theorem reach_of_record (hm : m ∈ (a.ledger.record k).methods.flatMap a.ledger.walk) :
    a.ledger.Reach (.ofRecord k) (.method m) := by
  obtain ⟨top, htop, hm⟩ := List.mem_flatMap.1 hm
  exact Reach.of_mem_walkFrom (.listed (List.mem_append_right _ (List.mem_map_of_mem htop))) hm

theorem NamesHold.merge (h : a.NamesHold) (hex : a.ledger.Exclusive)
    (he : a.merge k = (.ok answer, b)) :
    b.NamesHold := by
  obtain ⟨hlength, hfixed⟩ := fixed_merge a k
  rw [he] at hlength hfixed
  intro name m hm
  have hold : a.ledger.Has (.ofMethod m) ∧ (a.ledger.method m).head.name = name := by
    rw [byName_merge he, List.mem_append] at hm
    rcases hm with hm | hm
    · exact h name m hm
    · obtain ⟨hm, hname⟩ := List.mem_filter.1 hm
      exact ⟨hex.has_of_reach (reach_of_record hm), of_decide_eq_true hname⟩
  have hhead : (b.ledger.method m).head = (a.ledger.method m).head :=
    (congrArg MethodEntry.head (hfixed m) :)
  refine ⟨?_, hhead ▸ hold.2⟩
  change m.index < b.ledger.methods.length
  rw [hlength]
  exact hold.1

theorem NamesHold.next (h : a.NamesHold) (hex : a.ledger.Exclusive)
    (hr : ∀ fault, (a.step op).1 ≠ .brokenOff fault) :
    (a.step op).2.NamesHold := by
  obtain ⟨reply, b, he, heffect⟩ := a.step_effect op
  rw [he] at hr ⊢
  cases heffect with
  | kept => exact h
  | edited _ _ _ hl =>
    intro name m hm
    obtain ⟨hknown, hname⟩ := h name m hm
    exact ⟨Nat.lt_of_lt_of_le hknown hl.keeps.known, (hl.keeps.names m hknown).trans hname⟩
  | cutShort _ => exact (hr _ rfl).elim
  | merged hmerge => exact h.merge hex hmerge
  | released _ => exact namesHold_empty _
  | stuck _ => exact (hr _ rfl).elim

theorem namesHold_run {ops : List Operation}
    (hr : ∀ fault, .brokenOff fault ∉ (Atlas.run {} ops).1) :
    (Atlas.run {} ops).2.NamesHold := by
  have hrun : (Atlas.run {} ops).2.ledger.Exclusive ∧ (Atlas.run {} ops).2.NamesHold := by
    apply run_preserves (P := fun a => a.ledger.Exclusive ∧ a.NamesHold) ?_ hr ⟨exclusive_empty,
      namesHold_empty {}⟩
    intro a op _ hr h
    exact ⟨exclusive_step h.1 hr, h.2.next h.1 hr⟩
  exact hrun.2

end Names

section Methods

theorem grows_foldl {f : Ledger → MethodKey × Text → Ledger}
    (hstep : ∀ (l : Ledger) e,
      FirstSeen.Grows (l.method m).references ((f l e).method m).references)
    (es : List (MethodKey × Text)) (l : Ledger) :
    FirstSeen.Grows (l.method m).references ((es.foldl f l).method m).references := by
  induction es generalizing l with
  | nil => exact .refl _
  | cons e es ih => exact (hstep l e).trans (ih _)

theorem grows_referTo (l : Ledger) (file : Text) (target : MethodKey) (place : Text)
    (m : MethodKey) :
    FirstSeen.Grows (l.method m).references
      ((referTo l file target place).method m).references := by
  unfold referTo
  split
  · exact .refl _
  · exact grows_addReference ..

theorem grows_linkCalls (a : Atlas) (file : Text) (methods : List MethodKey) (m : MethodKey) :
    FirstSeen.Grows (a.ledger.method m).references
      ((a.linkCalls file methods).ledger.method m).references :=
  (grows_foldl (fun l e => grows_referTo l file e.1 e.2 m) _ a.ledger).trans
    (grows_foldl (fun l e => grows_addReference l e.1 m e.2) _ _)

theorem method_merge_of_ne (h : Accepted (a.ledger.record k))
    (hl : (a.ledger.record k).layer ≠ .methods) (m : MethodKey) :
    (a.merge k).2.ledger.method m = a.ledger.method m := by
  cases hlayer : (a.ledger.record k).layer with
  | modules =>
    rw [merge_import h hlayer]
    split
    · rfl
    · rfl
  | structures =>
    rw [merge_structures h hlayer, Ledger.method, methods_receiveStructures, ← Ledger.method]
  | methods => exact (hl hlayer).elim

/-- What a record of methods adds to the references of a method that is not in it: the places in the
file of the record that call the method. -/
theorem references_merge (hok : Accepted (a.ledger.record k))
    (hl : (a.ledger.record k).layer = .methods) (hnames : a.NamesHold)
    (hm : a.ledger.Has (.ofMethod m))
    (hapart : m ∉ (a.ledger.record k).methods.flatMap a.ledger.walk) :
    ∃ added, ((a.merge k).2.ledger.method m).references = (a.ledger.method m).references ++ added ∧
      ∀ place ∈ added, place ∉ (a.ledger.method m).references ∧
        ∃ c ∈ (a.ledger.record k).methods.flatMap a.ledger.walk,
          (a.ledger.method m).head.name ∈ (a.ledger.method c).calls ∧
            place = MethodTree.location (a.ledger.record k).path (a.ledger.method c).head.name := by
  have hgrows :=
    grows_linkCalls (a.receiveMethods k).2 (a.ledger.record k).path (a.ledger.record k).methods m
  have hknown : m.index < (a.receiveMethods k).2.ledger.methods.length := by
    rw [length_methods_receiveMethods]
    exact hm
  rw [references_receiveMethods] at hgrows
  obtain ⟨added, hadded, hnew⟩ := hgrows
  rw [merge_methods hok hl]
  refine ⟨added, hadded, ?_⟩
  intro place hplace
  refine ⟨hnew place hplace, ?_⟩
  have hin :=
    (mem_references_linkCalls _ _ _ hknown place).1 (hadded ▸ List.mem_append_right _ hplace)
  simp only [references_receiveMethods, head_receiveMethods, calls_receiveMethods,
    walk_receiveMethods, (tables_receiveMethods a k).1] at hin
  rcases hin with hold | ⟨-, caller, hcaller, callee, hcallee, hfound, hat⟩ | ⟨hlisted, -⟩
  · exact (hnew place hplace hold).elim
  · obtain rfl := (hnames callee m hfound).2
    exact ⟨caller, hcaller, hcallee, hat⟩
  · exact (hapart hlisted).elim

end Methods

section Merging

theorem has_of_accepted (h : Accepted (a.ledger.record k)) : a.ledger.Has (.ofRecord k) := by
  by_contra hk
  rw [record_of_le (Nat.le_of_not_lt hk)] at h
  exact absurd h (by decide)

theorem not_reach_record (hex : a.ledger.Exclusive) {x : Item} (hx : a.ledger.Reach (.ofNode n) x) :
    ¬a.ledger.Reach (.ofRecord k) x := by
  intro hrecord
  have htop := hex.top_unique (isTop_ofNode n) (isTop_ofRecord k) hx hrecord
  cases htop

theorem layer_of_merge_none (he : a.merge k = (.ok none, b)) :
    (a.ledger.record k).layer = .modules := by
  obtain ⟨-, hplaced⟩ := placed_of_merge he
  cases hplaced with
  | repeated hlayer => exact hlayer

theorem ownerOf_merge (hex : a.ledger.Exclusive) (hg : a.Grouped rs)
    (hk : a.ledger.Has (.ofRecord k)) (he : a.merge k = (.ok answer, b)) {x : Item}
    (hx : x ∉ a.ledger.contents (.ofRecord k)) :
    b.ledger.ownerOf x = a.ledger.ownerOf x := by
  cases answer with
  | some n => rw [(moved_of_merge hex hg hk he).owner, if_neg hx]
  | none =>
    have hok : Accepted (a.ledger.record k) := merge_ok_iff.1 ⟨_, congrArg Prod.fst he⟩
    rw [merge_import hok (layer_of_merge_none he)] at he
    split at he
    · obtain ⟨-, rfl⟩ := Prod.mk.inj he
      cases x <;> rfl
    · cases he

theorem method_merge (hex : a.ledger.Exclusive) (hg : a.Grouped rs)
    (hk : a.ledger.Has (.ofRecord k)) (he : a.merge k = (.ok answer, b))
    (hm : .method m ∉ a.ledger.contents (.ofRecord k)) :
    b.ledger.method m =
      { a.ledger.method m with references := (b.ledger.method m).references } := by
  have hfixed := (fixed_merge a k).2 m
  have howner : (b.ledger.method m).owner = (a.ledger.method m).owner :=
    ownerOf_merge hex hg hk he hm
  rw [he] at hfixed
  have hlink := congrArg (fun e : MethodEntry =>
    { e with
      references := (b.ledger.method m).references
      owner := (b.ledger.method m).owner }) hfixed
  rw [howner] at hlink
  calc b.ledger.method m
    _ = { b.ledger.method m with owner := (a.ledger.method m).owner } := by rw [← howner]
    _ = _ := hlink

theorem structureAt_merge (hex : a.ledger.Exclusive) (hg : a.Grouped rs)
    (hk : a.ledger.Has (.ofRecord k)) (he : a.merge k = (.ok answer, b)) {s : StructureKey}
    (hs : .structureAt s ∉ a.ledger.contents (.ofRecord k)) :
    b.ledger.structureAt s = a.ledger.structureAt s := by
  have hhead : (b.ledger.structureAt s).head = (a.ledger.structureAt s).head := by
    have hheads := heads_merge a k
    rw [he] at hheads
    rw [head_structureAt, hheads, ← head_structureAt]
  have howner : (b.ledger.structureAt s).owner = (a.ledger.structureAt s).owner :=
    ownerOf_merge hex hg hk he hs
  have hlisted : b.ledger.contents (.ofStructure s) = a.ledger.contents (.ofStructure s) := by
    cases answer with
    | some n => exact (moved_of_merge hex hg hk he).others _ (by simp) (by simp)
    | none => exact (spent_of_merge_none hk he).2.2 _
  have hmethods : (b.ledger.structureAt s).methods = (a.ledger.structureAt s).methods :=
    List.map_injective_iff.2 (fun _ _ => Item.method.inj) hlisted
  calc b.ledger.structureAt s
    _ = ⟨(b.ledger.structureAt s).head, (b.ledger.structureAt s).methods,
      (b.ledger.structureAt s).owner⟩ := rfl
    _ = a.ledger.structureAt s := by rw [hhead, hmethods, howner]

end Merging

/-- After a session without broken releases, a merge that is accepted disturbs nothing that is in
the graph. The nodes stay where they are and keep their file, layer, language and target; a node
that does not receive the record stays the same in all, and one that does keeps its structures and
methods in front of the new ones. The structures in the graph stay the same, and so do the methods
but for their references: a record of methods adds behind them, for methods of the record that call
the method, where these stand. -/
theorem merge_keeps_graph (ops : List Operation)
    (hr : ∀ fault, .brokenOff fault ∉ (Atlas.run {} ops).1) (k : RecordKey)
    (answer : Option NodeKey) (he : ((Atlas.run {} ops).2.merge k).1 = .ok answer) :
    let a := (Atlas.run {} ops).2
    let r := a.ledger.record k
    let b := (a.merge k).2
    a.graph.nodes <+: b.graph.nodes ∧
    ∀ n ∈ a.graph.nodes,
      ((b.ledger.node n).source = (a.ledger.node n).source ∧
        (b.ledger.node n).layer = (a.ledger.node n).layer ∧
        (b.ledger.node n).language = (a.ledger.node n).language ∧
        (b.ledger.node n).target = (a.ledger.node n).target) ∧
      (answer ≠ some n → b.ledger.node n = a.ledger.node n) ∧
      ((a.ledger.node n).structures <+: (b.ledger.node n).structures ∧
        (a.ledger.node n).methods <+: (b.ledger.node n).methods) ∧
      (∀ s, a.ledger.Reach (.ofNode n) (.structureAt s) →
        b.ledger.structureAt s = a.ledger.structureAt s) ∧
      ∀ m, a.ledger.Reach (.ofNode n) (.method m) → ∃ added,
        b.ledger.method m =
          { a.ledger.method m with references := (a.ledger.method m).references ++ added } ∧
        (r.layer ≠ .methods → added = []) ∧
        ∀ place ∈ added, place ∉ (a.ledger.method m).references ∧
          ∃ c ∈ r.methods.flatMap a.ledger.walk,
            (a.ledger.method m).head.name ∈ (a.ledger.method c).calls ∧
            place = MethodTree.location r.path (a.ledger.method c).head.name := by
  intro a r b
  have hex : a.ledger.Exclusive := exclusive_run exclusive_empty hr
  have hg := grouped_run hr
  have hmerge : a.merge k = (.ok answer, b) := Prod.ext he rfl
  obtain ⟨hok, hplaced⟩ := placed_of_merge hmerge
  have hk := has_of_accepted hok
  refine ⟨hplaced.nodes_prefix, ?_⟩
  intro n hn
  have hknown := hg.known n hn
  have hsame := hplaced.node_cases hknown
  refine ⟨?_, hplaced.node_of_ne hknown, ?_, ?_, ?_⟩
  · rcases hsame with hsame | ⟨count, hsame⟩
    · rw [hsame]
      exact ⟨rfl, rfl, rfl, rfl⟩
    · rw [hsame]
      exact ⟨rfl, rfl, rfl, rfl⟩
  · rcases hsame with hsame | ⟨count, hsame⟩
    · rw [hsame]
      exact ⟨List.prefix_rfl, List.prefix_rfl⟩
    · rw [hsame]
      exact ⟨List.prefix_append .., List.prefix_append ..⟩
  · intro s hs
    exact structureAt_merge hex hg hk hmerge fun hlisted =>
      not_reach_record hex hs (.listed hlisted)
  · intro m hm
    by_cases hl : r.layer = .methods
    · have hapart : m ∉ r.methods.flatMap a.ledger.walk :=
        fun hin => not_reach_record hex hm (reach_of_record hin)
      obtain ⟨added, hadded, hplaces⟩ :=
        references_merge hok hl (namesHold_run hr) (hex.has_of_reach hm) hapart
      have hentry :=
        method_merge hex hg hk hmerge fun hlisted => not_reach_record hex hm (.listed hlisted)
      refine ⟨added, ?_, fun hne => (hne hl).elim, hplaces⟩
      rw [← hadded]
      exact hentry
    · refine ⟨[], ?_, fun _ => rfl, by simp⟩
      rw [List.append_nil]
      exact method_merge_of_ne hok hl m

/-- The graph has a method with another one inside; a method of another file, which calls both,
waits in a record. -/
def callsWaiting : List Operation :=
  [.makeMethod { name := ['f'], definedIn := ['p'] } [['g']] [],
    .makeMethod { name := ['g'], definedIn := ['p'] } [] [['p', ':', 'f']], .addChild ⟨0⟩ ⟨1⟩,
    .openRecord ['p'] .methods .python none [] [⟨0⟩], .merge ⟨0⟩,
    .makeMethod { name := ['h'], definedIn := ['q'] } [['f'], ['g']] [],
    .openRecord ['q'] .methods .python none [] [⟨2⟩]]

theorem merge_after_callsWaiting :
    let a := (Atlas.run {} callsWaiting).2
    let b := (a.merge ⟨1⟩).2
    (∀ fault, .brokenOff fault ∉ (Atlas.run {} callsWaiting).1) ∧ (a.merge ⟨1⟩).1 = .ok (some ⟨1⟩) ∧
      a.graph.nodes <+: b.graph.nodes ∧ b.ledger.node ⟨0⟩ = a.ledger.node ⟨0⟩ ∧
      a.ledger.Reach (.ofNode ⟨0⟩) (.method ⟨1⟩) ∧
      b.ledger.method ⟨1⟩ =
        { a.ledger.method ⟨1⟩ with references := [['p', ':', 'f'], ['q', ':', 'h']] } := by
  intro a b
  have hr : ∀ fault, .brokenOff fault ∉ (Atlas.run {} callsWaiting).1 :=
    unbroken_of_check (by decide)
  have he : (a.merge ⟨1⟩).1 = .ok (some ⟨1⟩) := by decide
  have hn : ⟨0⟩ ∈ a.graph.nodes := by decide
  have hlisted : .method ⟨0⟩ ∈ a.ledger.contents (.ofNode ⟨0⟩) := by decide
  have hinside : .method ⟨1⟩ ∈ a.ledger.contents (Item.method ⟨0⟩).asOwner := by decide
  have hreach : a.ledger.Reach (.ofNode ⟨0⟩) (.method ⟨1⟩) := .inside (.listed hlisted) hinside
  obtain ⟨hnodes, hkept⟩ := merge_keeps_graph callsWaiting hr ⟨1⟩ (some ⟨1⟩) he
  obtain ⟨-, hnode, -, -, hmethods⟩ := hkept ⟨0⟩ hn
  obtain ⟨added, hentry, -, -⟩ := hmethods ⟨1⟩ hreach
  refine ⟨hr, he, hnodes, hnode (by decide), hreach, ?_⟩
  have hreferences : (b.ledger.method ⟨1⟩).references = [['p', ':', 'f'], ['q', ':', 'h']] := by
    decide
  have hsplit := (congrArg MethodEntry.references hentry).symm.trans hreferences
  rw [← hsplit]
  exact hentry

end Atlas

end DependencyAtlas
