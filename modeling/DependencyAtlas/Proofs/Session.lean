import DependencyAtlas.Graph.Query
import DependencyAtlas.Proofs.Graph.Ownership
import DependencyAtlas.Proofs.Ledger.Editing
import DependencyAtlas.Proofs.Ledger.Nesting

namespace DependencyAtlas

open Ledger

inductive Operation where
  | makeMethod (head : MethodHead) (calls references : List Text)
  | makeStructure (head : StructureHead)
  | openRecord (path : Text) (layer : Layer) (language : Language) (target : Option Text)
      (structures : List StructureKey) (methods : List MethodKey)
  | addChild (parent child : MethodKey)
  | addMethod (parent : StructureKey) (child : MethodKey)
  | takeStructures (record : RecordKey)
  | takeMethods (record : RecordKey)
  | consume (record : RecordKey)
  | releaseRecord (record : RecordKey)
  | merge (record : RecordKey)
  | release
  deriving DecidableEq, Repr

/-- The answer to an operation. A merge answers the record as it was and the node that received
it. -/
inductive Reply where
  | unknown
  | refused (fault : LedgerFault)
  | brokenOff (fault : LedgerFault)
  | made (owner : Owner)
  | done
  | structures (keys : List StructureKey)
  | methods (keys : List MethodKey)
  | merged (record : Record) (node : Option NodeKey)
  | dropped (stats : ReleaseStats)
  deriving DecidableEq, Repr

def Reply.merge? : Reply → Option (Record × Option NodeKey)
  | .merged record node => some (record, node)
  | _ => none

def Operation.onGraph : Operation → Bool
  | .merge _ | .release => true
  | _ => false

def Operation.names : Operation → List Owner
  | .openRecord _ _ _ _ structures methods => structures.map .ofStructure ++ methods.map .ofMethod
  | .addChild parent child => [.ofMethod parent, .ofMethod child]
  | .addMethod parent child => [.ofStructure parent, .ofMethod child]
  | .takeStructures k | .takeMethods k | .consume k | .releaseRecord k | .merge k => [.ofRecord k]
  | .makeMethod .. | .makeStructure _ | .release => []

namespace Atlas

def giveMethod (a : Atlas) (owner : Owner) (child : MethodKey) : Reply × Atlas :=
  match a.ledger.adoptMethod owner child with
  | .error fault => (.refused fault, a)
  | .ok ledger => (.done, { a with ledger })

/-- Carries out an operation whose names are known. -/
def perform (a : Atlas) : Operation → Reply × Atlas
  | .makeMethod head calls references =>
    let (k, ledger) := a.ledger.addMethod { head, calls, references }
    (.made (.ofMethod k), { a with ledger })
  | .makeStructure head =>
    let (k, ledger) := a.ledger.addStructure { head }
    (.made (.ofStructure k), { a with ledger })
  | .openRecord path layer language target structures methods =>
    match a.ledger.openRecord path layer language target structures methods with
    | (.error fault, ledger) => (.refused fault, { a with ledger })
    | (.ok k, ledger) => (.made (.ofRecord k), { a with ledger })
  | .addChild parent child => a.giveMethod (.ofMethod parent) child
  | .addMethod parent child => a.giveMethod (.ofStructure parent) child
  | .takeStructures k =>
    match a.ledger.takeStructures k with
    | .error fault => (.refused fault, a)
    | .ok (structures, ledger) => (.structures structures, { a with ledger })
  | .takeMethods k =>
    match a.ledger.takeMethods k with
    | .error fault => (.refused fault, a)
    | .ok (methods, ledger) => (.methods methods, { a with ledger })
  | .consume k =>
    match a.ledger.consume k with
    | .error fault => (.refused fault, a)
    | .ok ledger => (.done, { a with ledger })
  | .releaseRecord k =>
    match a.ledger.releaseRecord k with
    | (.error fault, ledger) => (.brokenOff fault, { a with ledger })
    | (.ok stats, ledger) => (.dropped stats, { a with ledger })
  | .merge k =>
    match a.merge k with
    | (.error fault, a) => (.refused fault, a)
    | (.ok n, b) => (.merged (a.ledger.record k) n, b)
  | .release =>
    match a.release with
    | (.error fault, a) => (.brokenOff fault, a)
    | (.ok stats, a) => (.dropped stats, a)

def step (a : Atlas) (op : Operation) : Reply × Atlas :=
  if ∀ o ∈ op.names, a.ledger.Has o then a.perform op else (.unknown, a)

def run (a : Atlas) : List Operation → List Reply × Atlas
  | [] => ([], a)
  | op :: ops =>
    let (reply, a) := a.step op
    let (replies, a) := a.run ops
    (reply :: replies, a)

theorem run_cons (a : Atlas) (op : Operation) (ops : List Operation) :
    a.run (op :: ops) = ((a.step op).1 :: ((a.step op).2.run ops).1, ((a.step op).2.run ops).2) :=
  rfl

variable {a : Atlas}

theorem run_preserves {P : Atlas → Prop} {ops : List Operation}
    (hstep : ∀ a, ∀ op ∈ ops, (∀ fault, (a.step op).1 ≠ .brokenOff fault) → P a → P (a.step op).2)
    (hr : ∀ fault, .brokenOff fault ∉ (a.run ops).1) (h : P a) : P (a.run ops).2 := by
  induction ops generalizing a with
  | nil => exact h
  | cons op ops ih =>
    have hfirst : ∀ fault, (a.step op).1 ≠ .brokenOff fault := by
      intro fault he
      exact hr fault (he ▸ List.mem_cons_self)
    apply ih
    · intro a op hop
      exact hstep a op (List.mem_cons_of_mem _ hop)
    · intro fault hf
      exact hr fault (List.mem_cons_of_mem _ hf)
    · exact hstep a op List.mem_cons_self hfirst h

/-- A condition on every step of a session: on the state and the operation that is carried out
there. -/
def Along (Q : Atlas → Operation → Prop) (a : Atlas) : List Operation → Prop
  | [] => True
  | op :: ops => Q a op ∧ Along Q (a.step op).2 ops

def checkAlong (q : Atlas → Operation → Bool) (a : Atlas) : List Operation → Bool
  | [] => true
  | op :: ops => q a op && checkAlong q (a.step op).2 ops

theorem along_of_check {Q : Atlas → Operation → Prop} {q : Atlas → Operation → Bool}
    {ops : List Operation} (hq : ∀ a op, q a op = true → Q a op) (h : checkAlong q a ops = true) :
    Along Q a ops := by
  induction ops generalizing a with
  | nil => trivial
  | cons op ops ih =>
    obtain ⟨hop, hops⟩ := Bool.and_eq_true_iff.1 h
    exact ⟨hq a op hop, ih hops⟩

theorem unbroken_of_check {ops : List Operation}
    (h : (a.run ops).1.any (· matches .brokenOff _) = false) :
    ∀ fault, .brokenOff fault ∉ (a.run ops).1 := by
  intro fault hf
  exact absurd rfl (List.any_eq_false.1 h _ hf)

theorem along_of_unbroken {ops : List Operation} (hr : ∀ fault, .brokenOff fault ∉ (a.run ops).1) :
    Along (fun a op => ∀ fault, (a.step op).1 ≠ .brokenOff fault) a ops := by
  induction ops generalizing a with
  | nil => trivial
  | cons op ops ih =>
    constructor
    · intro fault he
      exact hr fault (he ▸ List.mem_cons_self)
    · apply ih
      intro fault hf
      exact hr fault (List.mem_cons_of_mem _ hf)

theorem unbroken_of_along {ops : List Operation}
    (h : Along (fun a op => ∀ fault, (a.step op).1 ≠ .brokenOff fault) a ops) :
    ∀ fault, .brokenOff fault ∉ (a.run ops).1 := by
  induction ops generalizing a with
  | nil => simp [run]
  | cons op ops ih =>
    intro fault hf
    rcases List.mem_cons.1 hf with he | hf
    · exact h.1 fault he.symm
    · exact ih h.2 fault hf

theorem Along.of_append {Q : Atlas → Operation → Prop} {before after : List Operation}
    (h : Along Q a (before ++ after)) : Along Q a before := by
  induction before generalizing a with
  | nil => trivial
  | cons op ops ih => exact ⟨h.1, ih h.2⟩

theorem Along.and {Q R : Atlas → Operation → Prop} {ops : List Operation} (h : Along Q a ops)
    (h' : Along R a ops) :
    Along (fun a op => Q a op ∧ R a op) a ops := by
  induction ops generalizing a with
  | nil => trivial
  | cons op ops ih => exact ⟨⟨h.1, h'.1⟩, ih h.2 h'.2⟩

theorem run_invariant {P : List (Operation × Reply) → Atlas → Prop} {Q : Atlas → Operation → Prop}
    {ops : List Operation}
    (hstep : ∀ history a op, Q a op → P history a →
      P (history ++ [(op, (a.step op).1)]) (a.step op).2)
    (hops : Along Q a ops) (history : List (Operation × Reply)) (h : P history a) :
    P (history ++ ops.zip (a.run ops).1) (a.run ops).2 := by
  induction ops generalizing a history with
  | nil => simpa [run] using h
  | cons op ops ih =>
    have hrest := ih hops.2 _ (hstep history a op hops.1 h)
    rwa [List.append_assoc] at hrest

theorem Along.preserves {P : Atlas → Prop} {Q R : Atlas → Operation → Prop} {ops : List Operation}
    (hstep : ∀ a op, Q a op → P a → R a op ∧ P (a.step op).2) (hops : Along Q a ops) (h : P a) :
    Along R a ops ∧ P (a.run ops).2 := by
  induction ops generalizing a with
  | nil => exact ⟨trivial, h⟩
  | cons op ops ih =>
    obtain ⟨hr, hnext⟩ := hstep a op hops.1 h
    obtain ⟨hrest, hend⟩ := ih hops.2 hnext
    exact ⟨⟨hr, hrest⟩, hend⟩

section Effect

theorem giveMethod_cases (a : Atlas) (owner : Owner) (child : MethodKey) :
    (¬a.ledger.Free owner (.method child) ∧ ∃ fault,
      a.giveMethod owner child = (.refused fault, a)) ∨
      a.ledger.Free owner (.method child) ∧
        a.giveMethod owner child =
          (.done, { a with ledger := a.ledger.grant owner (.method child) }) := by
  unfold giveMethod
  split
  · next ho =>
    refine .inl ⟨?_, _, rfl⟩
    intro hfree
    cases ho.symm.trans (adoptMethod_eq_ok_iff.2 ⟨hfree, rfl⟩)
  · next ho =>
    obtain ⟨hfree, rfl⟩ := adoptMethod_eq_ok_iff.1 ho
    exact .inr ⟨hfree, rfl⟩

/-- All that a step can do: nothing, or off the graph an edit of the ledger or the release of a
record that is broken off, or on the graph a merge or a release, which may be broken off as well. -/
inductive Effect (a : Atlas) : Operation → Reply → Atlas → Prop where
  | kept {op : Operation} {reply : Reply} (hop : op ≠ .release) (hquiet : reply.merge? = none)
      (hwhole : ∀ fault, reply ≠ .brokenOff fault) : Effect a op reply a
  | edited {op : Operation} {reply : Reply} {l : Ledger} (hop : op.onGraph = false)
      (hquiet : reply.merge? = none) (hwhole : ∀ fault, reply ≠ .brokenOff fault)
      (hl : a.ledger.Edit l) : Effect a op reply { a with ledger := l }
  | cutShort {k : RecordKey} {fault : LedgerFault}
      (h : (a.ledger.releaseRecord k).1 = .error fault) :
      Effect a (.releaseRecord k) (.brokenOff fault)
        { a with ledger := (a.ledger.releaseRecord k).2 }
  | merged {k : RecordKey} {n : Option NodeKey} {b : Atlas} (h : a.merge k = (.ok n, b)) :
      Effect a (.merge k) (.merged (a.ledger.record k) n) b
  | released {stats : ReleaseStats} {l : Ledger} (h : a.release = (.ok stats, { ledger := l })) :
      Effect a .release (.dropped stats) { ledger := l }
  | stuck {fault : LedgerFault} {l : Ledger}
      (h : a.release = (.error fault, { a with ledger := l })) :
      Effect a .release (.brokenOff fault) { a with ledger := l }

theorem effect_giveMethod {op : Operation} {owner : Owner} {child : MethodKey}
    (hop : op.onGraph = false) (howner : ∀ n, owner ≠ .ofNode n)
    (hchild : a.ledger.Has (.ofMethod child)) :
    a.Effect op (a.giveMethod owner child).1 (a.giveMethod owner child).2 := by
  rcases giveMethod_cases a owner child with ⟨-, fault, he⟩ | ⟨hfree, he⟩
  · rw [he]
    exact .kept (fun he => by simp [he, Operation.onGraph] at hop) rfl (by simp)
  · rw [he]
    exact .edited hop rfl (by simp) (.grant howner hchild hfree)

theorem perform_effect {op : Operation} (hnames : ∀ o ∈ op.names, a.ledger.Has o) :
    a.Effect op (a.perform op).1 (a.perform op).2 := by
  cases op with
  | makeMethod head calls references => exact .edited rfl rfl (by simp [perform]) (.addMethod ..)
  | makeStructure head => exact .edited rfl rfl (by simp [perform]) (.addStructure head)
  | openRecord path layer language target ss ms =>
    have hopen : a.ledger.Edit (a.ledger.openRecord path layer language target ss ms).2 := by
      apply Edit.openRecord
      · intro s hs
        exact hnames _ (List.mem_append_left _ (List.mem_map_of_mem hs))
      · intro m hm
        exact hnames _ (List.mem_append_right _ (List.mem_map_of_mem hm))
    rw [perform]
    split
    · next he => exact .edited rfl rfl (by simp) (by rwa [he] at hopen)
    · next he => exact .edited rfl rfl (by simp) (by rwa [he] at hopen)
  | addChild parent child =>
    exact effect_giveMethod rfl (by simp) (hnames _ (by simp [Operation.names]))
  | addMethod parent child =>
    exact effect_giveMethod rfl (by simp) (hnames _ (by simp [Operation.names]))
  | takeStructures k =>
    rw [perform]
    split
    · exact .kept (by simp) rfl (by simp)
    · next ht => exact .edited rfl rfl (by simp) (.takeStructures ht)
  | takeMethods k =>
    rw [perform]
    split
    · exact .kept (by simp) rfl (by simp)
    · next ht => exact .edited rfl rfl (by simp) (.takeMethods ht)
  | consume k =>
    rw [perform]
    split
    · exact .kept (by simp) rfl (by simp)
    · next hc => exact .edited rfl rfl (by simp) (.consume hc)
  | releaseRecord k =>
    rw [perform]
    split
    · next ledger he =>
      obtain rfl : _ = ledger := congrArg Prod.snd he
      exact .cutShort (congrArg Prod.fst he)
    · next ledger he =>
      obtain rfl : _ = ledger := congrArg Prod.snd he
      exact .edited rfl rfl (by simp) (.releaseRecord (congrArg Prod.fst he))
  | merge k =>
    rw [perform]
    by_cases hok : Accepted (a.ledger.record k)
    · obtain ⟨n, hn⟩ := merge_ok_iff.2 hok
      have he : a.merge k = (.ok n, (a.merge k).2) := Prod.ext hn rfl
      rw [he]
      exact .merged he
    · obtain ⟨fault, he⟩ := merge_of_not_accepted hok
      rw [he]
      exact .kept (by simp) rfl (by simp)
  | release =>
    have hrelease := release_eq a
    rw [perform]
    cases hfault : (a.ledger.plan a.releaseTasks).fault with
    | some fault =>
      rw [hfault] at hrelease
      rw [hrelease]
      exact .stuck hrelease
    | none =>
      rw [hfault] at hrelease
      rw [hrelease]
      exact .released hrelease

theorem step_effect (a : Atlas) (op : Operation) :
    ∃ reply b, a.step op = (reply, b) ∧ a.Effect op reply b := by
  refine ⟨(a.step op).1, (a.step op).2, rfl, ?_⟩
  unfold step
  split
  · next hnames => exact perform_effect hnames
  · next hnames =>
    refine .kept ?_ rfl (by simp)
    rintro rfl
    exact hnames (by simp [Operation.names])

end Effect

theorem exclusive_step {op : Operation} (h : a.ledger.Exclusive)
    (hr : ∀ fault, (a.step op).1 ≠ .brokenOff fault) : (a.step op).2.ledger.Exclusive := by
  obtain ⟨reply, b, he, heffect⟩ := a.step_effect op
  rw [he] at hr ⊢
  cases heffect with
  | kept => exact h
  | edited _ _ _ hl => exact hl.exclusive h
  | cutShort _ => exact (hr _ rfl).elim
  | @merged k _ _ hmerge => exact congrArg Prod.snd hmerge ▸ exclusive_merge h k
  | released hrelease =>
    exact congrArg Prod.snd hrelease ▸ exclusive_release h (congrArg Prod.fst hrelease)
  | stuck _ => exact (hr _ rfl).elim

theorem exclusive_empty : Ledger.Exclusive {} := by
  intro o x hx
  cases o <;> simp [contents, method, structureAt, record, node] at hx

theorem exclusive_run {ops : List Operation} (h : a.ledger.Exclusive)
    (hr : ∀ fault, .brokenOff fault ∉ (a.run ops).1) :
    (a.run ops).2.ledger.Exclusive := by
  apply run_preserves (P := fun a => a.ledger.Exclusive) ?_ hr h
  intro a op _ hr h
  exact exclusive_step h hr

/-- Where one comes to the methods of a session from: the nodes and the structures of the graph, and
the records that are not consumed. -/
inductive Root (a : Atlas) : Owner → Prop where
  | node {n : NodeKey} : n ∈ a.graph.nodes → Root a (.ofNode n)
  | structureAt {s : StructureKey} : s ∈ a.structures → Root a (.ofStructure s)
  | record {k : RecordKey} : (a.ledger.record k).consumed = false → Root a (.ofRecord k)

theorem Root.reach_top {root : Owner} (h : a.Root root) {x : Item} (hx : a.ledger.Reach root x) :
    ∃ top, IsTop top ∧ a.ledger.Reach top x := by
  cases h with
  | @node n _ => exact ⟨_, isTop_ofNode n, hx⟩
  | @structureAt s hs =>
    obtain ⟨e, he, hs⟩ := List.mem_flatMap.1 hs
    obtain ⟨n, hn, rfl⟩ := List.mem_map.1 (List.mem_filter.1 he).1
    have hlisted : Item.structureAt s ∈ a.ledger.contents (.ofNode n) :=
      List.mem_append_left _ (List.mem_map_of_mem hs)
    exact ⟨_, isTop_ofNode n, Reach.trans (x := .structureAt s) (.listed hlisted) hx⟩
  | @record k _ => exact ⟨_, isTop_ofRecord k, hx⟩

/-- After a session without broken releases every item belongs to the one owner that lists it, and
no method that is reached from the graph or a record is its own descendant, so that the walk through
it is complete. -/
theorem ownership_exclusive_and_acyclic (ops : List Operation)
    (hr : ∀ fault, .brokenOff fault ∉ (Atlas.run {} ops).1) :
    let a := (Atlas.run {} ops).2
    (∀ o x, x ∈ a.ledger.contents o → a.ledger.ownerOf x = some o) ∧
    (∀ o o' x, x ∈ a.ledger.contents o → x ∈ a.ledger.contents o' → o = o') ∧
    ∀ root m, a.Root root → a.ledger.Reach root (.method m) →
      ¬a.ledger.Reach (.ofMethod m) (.method m) ∧
      ∀ depth, a.ledger.methods.length ≤ depth → a.ledger.walkFrom depth m = a.ledger.walk m := by
  intro a
  have h : a.ledger.Exclusive := exclusive_run exclusive_empty hr
  refine ⟨h, fun o o' x hx hx' => h.unique hx hx', ?_⟩
  intro root m hroot hm
  obtain ⟨top, htop, hm⟩ := hroot.reach_top hm
  exact ⟨h.not_reach_self htop hm, fun depth hd => h.walkFrom_eq_walk htop hm hd⟩

/-- A loose method is put inside itself, a record is opened on a method that has an owner, one
record is released and another one is merged twice. -/
def looseCircle : List Operation :=
  [.makeMethod { name := ['f'] } [] [], .makeMethod { name := ['g'] } [['f']] [],
    .makeMethod { name := ['h'] } [] [], .makeMethod { name := ['k'] } [] [],
    .makeStructure { name := ['S'] }, .makeStructure { name := ['T'] }, .addChild ⟨2⟩ ⟨2⟩,
    .addChild ⟨0⟩ ⟨1⟩, .addMethod ⟨0⟩ ⟨1⟩,
    .openRecord ['p'] .structures .python none [⟨0⟩] [⟨3⟩, ⟨1⟩],
    .openRecord ['p'] .structures .python none [⟨1⟩] [], .releaseRecord ⟨1⟩,
    .openRecord ['p'] .methods .python none [] [⟨0⟩], .merge ⟨2⟩, .merge ⟨2⟩, .addChild ⟨1⟩ ⟨0⟩]

theorem ownership_in_looseCircle :
    let a := (Atlas.run {} looseCircle).2
    (∀ fault, .brokenOff fault ∉ (Atlas.run {} looseCircle).1) ∧ a.Root (.ofNode ⟨0⟩) ∧
      a.ledger.Reach (.ofNode ⟨0⟩) (.method ⟨1⟩) ∧ ¬a.ledger.Reach (.ofMethod ⟨1⟩) (.method ⟨1⟩) ∧
      a.ledger.Reach (.ofMethod ⟨2⟩) (.method ⟨2⟩) := by
  intro a
  have hreplies : (Atlas.run {} looseCircle).1.map (· matches .brokenOff _) =
      List.replicate 16 false := by decide +kernel
  have hr : ∀ fault, .brokenOff fault ∉ (Atlas.run {} looseCircle).1 := by
    intro fault hf
    have hin := List.mem_map_of_mem (f := (· matches .brokenOff _)) hf
    rw [hreplies] at hin
    simp at hin
  have hnodes : (Atlas.run {} looseCircle).2.graph.nodes = [⟨0⟩] := by decide +kernel
  have hnode : (Atlas.run {} looseCircle).2.ledger.contents (.ofNode ⟨0⟩) = [.method ⟨0⟩] := by
    decide +kernel
  have hmethod : (Atlas.run {} looseCircle).2.ledger.contents (.ofMethod ⟨0⟩) = [.method ⟨1⟩] := by
    decide +kernel
  have hloose : (Atlas.run {} looseCircle).2.ledger.contents (.ofMethod ⟨2⟩) = [.method ⟨2⟩] := by
    decide +kernel
  have hroot : a.Root (.ofNode ⟨0⟩) := .node (hnodes ▸ List.mem_cons_self)
  have hreach : a.ledger.Reach (.ofNode ⟨0⟩) (.method ⟨1⟩) :=
    .inside (x := .method ⟨0⟩) (.listed (hnode ▸ List.mem_cons_self)) (hmethod ▸ List.mem_cons_self)
  refine ⟨hr, hroot, hreach, ?_, .listed (hloose ▸ List.mem_cons_self)⟩
  exact ((ownership_exclusive_and_acyclic looseCircle hr).2.2 _ _ hroot hreach).1

end Atlas

end DependencyAtlas
