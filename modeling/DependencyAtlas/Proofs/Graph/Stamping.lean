import DependencyAtlas.Proofs.Graph.Groups
import DependencyAtlas.Proofs.Ledger.Stamping

namespace DependencyAtlas

open Ledger

section Mentions

variable {name : Text}

theorem separates_colon : CallSite.separates ':' = true := by
  decide +kernel

theorem mentionsFrom_colon (name t : Text) : mentionsFrom name (some ':') t = mentions name t := by
  cases t with
  | nil => simp [mentions, mentionsFrom, separates_colon]
  | cons c t => simp [mentions, mentionsFrom, separates_colon]

theorem mentionsFrom_of_mentions {dep : Text} (h : mentions name dep = true) (path : Text)
    (previous : Option Char) :
    mentionsFrom name previous (path ++ ':' :: dep) = true := by
  induction path generalizing previous with
  | nil =>
    rw [List.nil_append, mentionsFrom, mentionsFrom_colon, h, Bool.or_true]
  | cons c path ih =>
    rw [List.cons_append, mentionsFrom, ih, Bool.or_true]

theorem startsWord_append_colon (hname : ':' ∉ name) (t dep : Text) :
    (name.isPrefixOf (t ++ ':' :: dep) &&
      ((t ++ ':' :: dep).drop name.length).head?.all CallSite.separates) =
      (name.isPrefixOf t && (t.drop name.length).head?.all CallSite.separates) := by
  induction name generalizing t with
  | nil =>
    cases t with
    | nil => simp [separates_colon]
    | cons c t => simp
  | cons n name ih =>
    cases t with
    | nil => simp [List.isPrefixOf, Ne.symm (List.ne_of_not_mem_cons hname)]
    | cons c t =>
      have hrest := ih (List.not_mem_of_not_mem_cons hname) t
      simp only [List.cons_append, List.isPrefixOf, List.length_cons, List.drop_succ_cons,
        Bool.and_assoc, hrest]

theorem mentionsFrom_append_colon (hname : ':' ∉ name) (path dep : Text) (previous : Option Char) :
    mentionsFrom name previous (path ++ ':' :: dep) =
      (mentionsFrom name previous path || mentions name dep) := by
  induction path generalizing previous with
  | nil =>
    have hstart := startsWord_append_colon hname [] dep
    rw [List.nil_append] at hstart
    rw [List.nil_append, mentionsFrom, mentionsFrom, mentionsFrom_colon, Bool.and_assoc, hstart]
    cases name with
    | nil => simp
    | cons n name => simp [List.isPrefixOf]
  | cons c path ih =>
    have hstart := startsWord_append_colon hname (c :: path) dep
    rw [List.cons_append] at hstart
    rw [List.cons_append, mentionsFrom, mentionsFrom, ih, Bool.and_assoc, hstart, Bool.and_assoc,
      Bool.or_assoc]

end Mentions

namespace StructureHead

variable {h h' : StructureHead}

/-- Whether a name occurs in the dependency text. -/
def names (h : StructureHead) (name : Text) : Bool :=
  (h.dependencies.filter (· ≠ [])).any (DependencyAtlas.mentions name)

/-- The dependency text has the stamp of a file, and the name occurs in it but not behind the
stamp. -/
def NamesByStamp (h : StructureHead) (name file : Text) : Prop :=
  ∃ dep, h.provenance = some file ∧ h.dependencies = some (file ++ [':'] ++ dep) ∧
    DependencyAtlas.mentions name (file ++ [':'] ++ dep) = true ∧
    DependencyAtlas.mentions name dep = false

theorem Restamped.name_eq (hr : h.Restamped h') : h'.name = h.name := by
  obtain ⟨-, rfl | ⟨_, -, -, rfl⟩⟩ := hr
  · rfl
  · rfl

theorem Restamped.definedIn_eq (hr : h.Restamped h') : h'.definedIn = h.definedIn := by
  obtain ⟨-, rfl | ⟨_, -, -, rfl⟩⟩ := hr
  · rfl
  · rfl

theorem NamesByStamp.names {name file : Text} (hs : h.NamesByStamp name file) :
    h.names name = true := by
  obtain ⟨dep, -, hdep, hmentions, -⟩ := hs
  simpa [StructureHead.names, hdep, Option.filter] using hmentions

theorem NamesByStamp.mentions_path {name file : Text} (hname : ':' ∉ name)
    (hs : h.NamesByStamp name file) :
    DependencyAtlas.mentions name file = true := by
  obtain ⟨dep, -, -, hmentions, hbehind⟩ := hs
  rw [List.append_assoc, List.singleton_append, DependencyAtlas.mentions,
    mentionsFrom_append_colon hname, hbehind, Bool.or_false] at hmentions
  exact hmentions

theorem Restamped.definedIn_of_namesByStamp {name file : Text} (hr : h.Restamped h')
    (hs : h'.NamesByStamp name file) :
    h.definedIn = file := by
  obtain ⟨dep, hfile, -⟩ := hs
  obtain ⟨hnone, rfl | ⟨_, -, -, rfl⟩⟩ := hr
  · rw [hnone] at hfile
    cases hfile
  · exact Option.some.inj hfile

theorem Restamped.names_iff (hr : h.Restamped h') (name : Text) :
    h'.names name = true ↔ h.names name = true ∨ h'.NamesByStamp name h.definedIn := by
  obtain ⟨hnone, rfl | ⟨dep, hne, hdep, rfl⟩⟩ := hr
  · constructor
    · exact .inl
    · rintro (hnames | hstamp)
      · exact hnames
      · exact hstamp.names
  · have hplain : h.names name = DependencyAtlas.mentions name dep := by
      simp [names, hdep, Option.filter, hne]
    rw [hplain]
    constructor
    · intro hnames
      by_cases hbehind : DependencyAtlas.mentions name dep = true
      · exact .inl hbehind
      · refine .inr ⟨dep, rfl, rfl, ?_, by simpa using hbehind⟩
        simpa [names, stamp, Option.filter] using hnames
    · rintro (hbehind | hstamp)
      · have hmentions := mentionsFrom_of_mentions hbehind h.definedIn none
        simpa [names, stamp, Option.filter, DependencyAtlas.mentions] using hmentions
      · exact hstamp.names

end StructureHead

namespace Atlas

variable {a b : Atlas} {k : RecordKey}

theorem heads_receiveStructures (a : Atlas) (k : RecordKey) :
    (a.receiveStructures k).2.ledger.heads = a.ledger.heads := by
  unfold receiveStructures
  have hledger := nodeFor_ledger { a with ledger := takenStructures a.ledger k } (a.ledger.record k)
  generalize nodeFor { a with ledger := takenStructures a.ledger k } (a.ledger.record k) =
    p at hledger ⊢
  obtain ⟨n, b⟩ := p
  have hgrants := foldl_keeps heads fun l s => l.heads_grantStructure (.ofNode n) s
  apply (hgrants (a.ledger.record k).structures b.ledger).trans
  rw [hledger]
  exact heads_disownStructures ..

theorem heads_receiveMethods (a : Atlas) (k : RecordKey) :
    (a.receiveMethods k).2.ledger.heads = a.ledger.heads := by
  unfold receiveMethods
  have hledger := nodeFor_ledger { a with ledger := takenMethods a.ledger k } (a.ledger.record k)
  generalize nodeFor { a with ledger := takenMethods a.ledger k } (a.ledger.record k) =
    p at hledger ⊢
  obtain ⟨n, b⟩ := p
  have hgrants := foldl_keeps heads fun l m => l.heads_grantMethod (.ofNode n) m
  apply (hgrants (a.ledger.record k).methods b.ledger).trans
  rw [hledger]
  change (takenMethods a.ledger k).heads = _
  rw [takenMethods, disownMethods_eq]
  rfl

theorem heads_merge (a : Atlas) (k : RecordKey) : (a.merge k).2.ledger.heads = a.ledger.heads := by
  by_cases h : Accepted (a.ledger.record k)
  · cases hl : (a.ledger.record k).layer with
    | modules =>
      rw [merge_import h hl]
      split
      · rfl
      · rfl
    | structures =>
      rw [merge_structures h hl]
      exact heads_receiveStructures a k
    | methods =>
      rw [merge_methods h hl]
      have halike :=
        alike_linkCalls (a.receiveMethods k).2 (a.ledger.record k).path (a.ledger.record k).methods
      exact (congrArg (List.map StructureEntry.head) halike.structures).trans
        (heads_receiveMethods a k)
  · obtain ⟨fault, hfault⟩ := merge_of_not_accepted h
    rw [hfault]

/-- The state after the records `done` of the ledger `l` were merged into an empty graph. -/
structure Merged (l : Ledger) (done : List RecordKey) (a : Atlas) : Prop where
  grouped : a.Grouped (done.map l.record)
  records : ∀ k, k ∉ done → a.ledger.record k = l.record k
  heads : a.ledger.heads = l.heads
  length : a.ledger.methods.length = l.methods.length
  fixed : ∀ m, (a.ledger.method m).fixed = (l.method m).fixed

section Merged

variable {l l' : Ledger} {done order : List RecordKey}

theorem merged_start (l : Ledger) : Merged l [] { ledger := l } where
  grouped := grouped_empty l
  records _ _ := rfl
  heads := rfl
  length := rfl
  fixed _ := rfl

theorem Merged.merge (h : Merged l done a) (hk : Accepted (l.record k)) (hnew : k ∉ done) :
    ∃ answer b, a.merge k = (.ok answer, b) ∧ Merged l (done ++ [k]) b := by
  have hrecord := h.records k hnew
  obtain ⟨answer, hanswer⟩ := merge_ok_iff.2 (hrecord ▸ hk)
  have hmerge : a.merge k = (.ok answer, (a.merge k).2) := Prod.ext hanswer rfl
  have hplaced := (placed_of_merge hmerge).2
  rw [hrecord] at hplaced
  refine ⟨answer, (a.merge k).2, hmerge, ?_⟩
  constructor
  · rw [List.map_append, List.map_singleton]
    exact h.grouped.merge hk hplaced
  · intro j hj
    rw [record_merge a fun he => hj (List.mem_append_right _ (List.mem_singleton.2 he))]
    exact h.records j fun hin => hj (List.mem_append_left _ hin)
  · exact (heads_merge a k).trans h.heads
  · exact (fixed_merge a k).1.trans h.length
  · intro m
    exact ((fixed_merge a k).2 m).trans (h.fixed m)

theorem exists_merged (hnodup : order.Nodup) (haccepted : ∀ k ∈ order, Accepted (l.record k)) :
    ∃ a, mergeAll order { ledger := l } = (none, a) ∧ Merged l order a := by
  apply mergeAll_of_step ?_ (merged_start l) (fun _ hk => hk) hnodup
  intro done a k h hk hnew
  exact h.merge (haccepted k hk) hnew

end Merged

/-- Two graphs with the same nodes and methods, in which the structures of each node stand in the
file of the node and differ by stamps at most. -/
structure Restamped (a b : Atlas) : Prop where
  nodes : b.nodes.map Node.bare = a.nodes.map Node.bare
  length : b.ledger.methods.length = a.ledger.methods.length
  fixed : ∀ m, (b.ledger.method m).fixed = (a.ledger.method m).fixed
  head : ∀ x, (a.ledger.structureAt x).head.Restamped (b.ledger.structureAt x).head
  definedIn : ∀ n ∈ a.nodes.map Node.bare, ∀ x ∈ n.structures,
    (a.ledger.structureAt x).head.definedIn = n.source

theorem record_mem {l : Ledger} (h : k.index < l.records.length) : l.record k ∈ l.records := by
  rw [record, List.getD_eq_getElem _ _ h]
  exact List.getElem_mem h

theorem forall₂_getD {α β : Type} {R : α → β → Prop} {xs : List α} {ys : List β}
    (h : List.Forall₂ R xs ys) {x : α} {y : β} (hxy : R x y) (i : Nat) :
    R (xs.getD i x) (ys.getD i y) := by
  induction h generalizing i with
  | nil => exact hxy
  | cons hfirst _ ih =>
    cases i with
    | zero => exact hfirst
    | succ i => exact ih i

theorem Merged.restamped {l l' : Ledger} {order : List RecordKey} (ha : Merged l order a)
    (hb : Merged l' order b) (h : l.Restamped l') (hl : l.Mergeable)
    (hknown : ∀ k ∈ order, k.index < l.records.length) : a.Restamped b where
  nodes := by
    have hrecord : l'.record = l.record := funext fun k => by rw [record, record, h.records]
    rw [ha.grouped.nodes, hb.grouped.nodes, hrecord]
  length := by rw [hb.length, ha.length, h.methods]
  fixed m := by rw [hb.fixed, ha.fixed, method, method, h.methods]
  head x := by
    rw [head_structureAt, head_structureAt, ha.heads, hb.heads]
    exact forall₂_getD h.heads ⟨rfl, .inl rfl⟩ x.index
  definedIn := by
    intro _ hbare x hx
    obtain ⟨n, hn, rfl⟩ := List.mem_map.1 hbare
    have hstructures : n.bare.structures =
        ((order.map l.record).filter (·.group = n.group)).flatMap (·.structures) := by
      rw [← Node.structures_ofRecords, ← ha.grouped.node_eq hn]
    rw [hstructures] at hx
    obtain ⟨r, hr, hx⟩ := List.mem_flatMap.1 hx
    obtain ⟨hr, hgroup⟩ := List.mem_filter.1 hr
    obtain ⟨k, hk, rfl⟩ := List.mem_map.1 hr
    have hpath : (l.record k).path = n.source := congrArg Group.path (of_decide_eq_true hgroup)
    obtain ⟨head, hhead, hin⟩ := hl.homed _ (record_mem (hknown k hk)) x hx
    rw [head_structureAt, ha.heads, List.getD_eq_getElem?_getD, hhead]
    exact hin.trans hpath

theorem structures_eq_bare (a : Atlas) :
    a.structures =
      ((a.nodes.map Node.bare).filter (·.layer = .structures)).flatMap (·.structures) := by
  rw [List.filter_map, List.flatMap_map]
  rfl

theorem referencesTo_eq_bare (a : Atlas) (s : StructureHead) :
    a.referencesTo s = FirstSeen.ofList (((a.nodes.map Node.bare).filter fun n =>
      n.source ≠ s.definedIn && (a.textsOf n).any (mentions s.name)).map (·.source)) := by
  rw [List.filter_map, List.map_map]
  rfl

/-- Some structure of the graph names another by the stamp of a file. -/
def NamesByStamp (a : Atlas) (name file : Text) : Prop :=
  ∃ x ∈ a.structures, (a.ledger.structureAt x).head.NamesByStamp name file

section Restamped

variable (h : a.Restamped b)
include h

theorem Restamped.structures : b.structures = a.structures := by
  rw [structures_eq_bare, structures_eq_bare, h.nodes]

theorem Restamped.walk (m : MethodKey) : b.ledger.walk m = a.ledger.walk m :=
  walk_congr h.length (fun m => (congrArg MethodEntry.children (h.fixed m) :)) m

theorem Restamped.signature (m : MethodKey) :
    (b.ledger.method m).head.signature = (a.ledger.method m).head.signature :=
  (congrArg (fun e : MethodEntry => e.head.signature) (h.fixed m) :)

omit h in
theorem mentioned_iff {n : Node} (hl : n.layer = .structures) (name : Text) :
    (a.textsOf n).any (mentions name) = true ↔
      ∃ x ∈ n.structures, (a.ledger.structureAt x).head.names name = true := by
  simp only [textsOf, hl, List.any_eq_true, List.mem_filterMap]
  constructor
  · rintro ⟨t, ⟨x, hx, ht⟩, hmentions⟩
    refine ⟨x, hx, ?_⟩
    rw [StructureHead.names, ht]
    exact hmentions
  · rintro ⟨x, hx, hnames⟩
    obtain ⟨t, ht, hmentions⟩ := (Option.any_eq_true _ _).1 hnames
    exact ⟨t, ⟨x, hx, ht⟩, hmentions⟩

theorem Restamped.mentioned_iff {n : Node} (hn : n ∈ a.nodes.map Node.bare) (name : Text) :
    (b.textsOf n).any (mentions name) = true ↔ (a.textsOf n).any (mentions name) = true ∨
      n.layer = .structures ∧ ∃ x ∈ n.structures,
        (b.ledger.structureAt x).head.NamesByStamp name n.source := by
  cases hl : n.layer with
  | modules => simp [textsOf, hl]
  | methods => simp [textsOf, hl, funext h.walk, h.signature]
  | structures =>
    rw [Atlas.mentioned_iff hl, Atlas.mentioned_iff hl]
    constructor
    · rintro ⟨x, hx, hnames⟩
      rcases ((h.head x).names_iff name).1 hnames with hnames | hstamp
      · exact .inl ⟨x, hx, hnames⟩
      · exact .inr ⟨rfl, x, hx, h.definedIn n hn x hx ▸ hstamp⟩
    · rintro (⟨x, hx, hnames⟩ | ⟨-, x, hx, hstamp⟩)
      · exact ⟨x, hx, ((h.head x).names_iff name).2 (.inl hnames)⟩
      · exact ⟨x, hx, hstamp.names⟩

theorem Restamped.namesByStamp_iff {name file : Text} :
    b.NamesByStamp name file ↔ ∃ n ∈ a.nodes.map Node.bare, n.source = file ∧
      n.layer = .structures ∧
      ∃ x ∈ n.structures, (b.ledger.structureAt x).head.NamesByStamp name n.source := by
  rw [NamesByStamp, h.structures, structures_eq_bare]
  constructor
  · rintro ⟨x, hx, hstamp⟩
    obtain ⟨n, hn, hx⟩ := List.mem_flatMap.1 hx
    obtain ⟨hn, hl⟩ := List.mem_filter.1 hn
    have hsource : n.source = file :=
      (h.definedIn n hn x hx).symm.trans ((h.head x).definedIn_of_namesByStamp hstamp)
    exact ⟨n, hn, hsource, of_decide_eq_true hl, x, hx, hsource ▸ hstamp⟩
  · rintro ⟨n, hn, rfl, hl, x, hx, hstamp⟩
    exact ⟨x, List.mem_flatMap.2 ⟨n, List.mem_filter.2 ⟨hn, decide_eq_true hl⟩, hx⟩, hstamp⟩

omit h in
theorem mem_referencesTo_iff {s : StructureHead} {file : Text} :
    file ∈ a.referencesTo s ↔ file ≠ s.definedIn ∧
      ∃ n ∈ a.nodes.map Node.bare, n.source = file ∧
        (a.textsOf n).any (mentions s.name) = true := by
  rw [referencesTo_eq_bare, FirstSeen.mem_ofList, List.mem_map]
  constructor
  · rintro ⟨n, hn, rfl⟩
    obtain ⟨hn, hmentioned⟩ := List.mem_filter.1 hn
    obtain ⟨hne, hmentioned⟩ := Bool.and_eq_true_iff.1 hmentioned
    exact ⟨of_decide_eq_true hne, n, hn, rfl, hmentioned⟩
  · rintro ⟨hne, n, hn, rfl, hmentioned⟩
    exact ⟨n, List.mem_filter.2 ⟨hn, Bool.and_eq_true_iff.2 ⟨decide_eq_true hne, hmentioned⟩⟩, rfl⟩

variable {s t : StructureHead} (hname : t.name = s.name) (hin : t.definedIn = s.definedIn)
include hname hin

theorem Restamped.mem_referencesTo_iff {file : Text} :
    file ∈ b.referencesTo t ↔
      file ∈ a.referencesTo s ∨ file ≠ s.definedIn ∧ b.NamesByStamp s.name file := by
  rw [Atlas.mem_referencesTo_iff, Atlas.mem_referencesTo_iff, h.nodes, hname, hin, ← and_or_left,
    h.namesByStamp_iff, ← exists_or]
  apply and_congr_right
  intro _
  apply exists_congr
  intro n
  rw [← and_or_left, ← and_or_left]
  apply and_congr_right
  intro hn
  rw [h.mentioned_iff hn]

theorem Restamped.referencesTo_eq
    (hnone : ∀ file, file ≠ s.definedIn → ¬b.NamesByStamp s.name file) :
    b.referencesTo t = a.referencesTo s := by
  rw [referencesTo_eq_bare, referencesTo_eq_bare, h.nodes, hname, hin]
  congr 2
  apply List.filter_congr
  intro n hn
  by_cases hdefined : n.source = s.definedIn
  · simp [hdefined]
  · congr 1
    rw [Bool.eq_iff_iff, h.mentioned_iff hn, or_iff_left]
    intro hstamp
    exact hnone n.source hdefined (h.namesByStamp_iff.2 ⟨n, hn, rfl, hstamp⟩)

end Restamped

/-- Files are entered with their dependency texts explained and without, as the same records, and
these are merged in the same order. Both graphs have the same structures. A file that mentions one
of them in the stamped graph does so in the other, unless the name occurs in a stamped text of the
file and not behind the stamp; a name without a colon then occurs in the path. Where that is not the
case for any file but the structure's own, the references are the same. -/
theorem stamps_add_references_by_path_only (layers : LayerChoice) (files : List SourceFile)
    (order : List RecordKey) (hnodup : order.Nodup)
    (hkeys : ∀ k ∈ order, k ∈ (enterExtracts builtinRules layers false files {}).1) :
    (enterExtracts builtinRules layers true files {}).1 =
      (enterExtracts builtinRules layers false files {}).1 ∧
      ∃ a b, mergeAll order { ledger := (enterExtracts builtinRules layers false files {}).2 } =
        (none, a) ∧
      mergeAll order { ledger := (enterExtracts builtinRules layers true files {}).2 } = (none, b) ∧
      b.structures = a.structures ∧ ∀ x ∈ a.structures,
        let s := (a.ledger.structureAt x).head
        let t := (b.ledger.structureAt x).head
        t.name = s.name ∧ t.definedIn = s.definedIn ∧
          (∀ file, file ∈ b.referencesTo t ↔
            file ∈ a.referencesTo s ∨ file ≠ s.definedIn ∧ b.NamesByStamp s.name file) ∧
          ((∀ file, file ≠ s.definedIn → ¬b.NamesByStamp s.name file) →
            b.referencesTo t = a.referencesTo s) ∧
          (':' ∉ s.name → ∀ file, b.NamesByStamp s.name file → mentions s.name file = true) := by
  have hempty : ({} : Ledger).Restamped {} := ⟨rfl, rfl, .nil⟩
  have hfresh : ({} : Ledger).Mergeable := ⟨List.forall_mem_nil _, List.forall_mem_nil _⟩
  obtain ⟨hsame, hrestamped⟩ := hempty.enterExtracts RuleTables.named_builtinRules layers files
  have hmergeable := hfresh.enterExtracts RuleTables.named_builtinRules layers files
  have hknown := (keys_enterExtracts RuleTables.named_builtinRules layers files {}).2
  generalize enterExtracts builtinRules layers false files {} = p at *
  generalize enterExtracts builtinRules layers true files {} = q at *
  have haccepted : ∀ k ∈ order, Accepted (p.2.record k) := fun k hk =>
    hmergeable.accepted _ (record_mem (hknown k (hkeys k hk)))
  have haccepted' : ∀ k ∈ order, Accepted (q.2.record k) := by
    intro k hk
    rw [record, hrestamped.records]
    exact haccepted k hk
  obtain ⟨a, hmerge, ha⟩ := exists_merged hnodup haccepted
  obtain ⟨b, hmerge', hb⟩ := exists_merged hnodup haccepted'
  have h := ha.restamped hb hrestamped hmergeable fun k hk => hknown k (hkeys k hk)
  refine ⟨hsame, a, b, hmerge, hmerge', h.structures, ?_⟩
  intro x _ s t
  have hname : t.name = s.name := (h.head x).name_eq
  have hin : t.definedIn = s.definedIn := (h.head x).definedIn_eq
  refine ⟨hname, hin, fun file => h.mem_referencesTo_iff hname hin, h.referencesTo_eq hname hin, ?_⟩
  rintro hcolon file ⟨_, -, hstamp⟩
  exact hstamp.mentions_path hcolon

/-- A file whose path mentions the structure that the other declares, with a base that it
imports. -/
def widgetFiles : List SourceFile :=
  [⟨"Widget.py".toList, .python, "import Base\nclass X(Base):\n    pass\n".toList⟩,
    ⟨"w.py".toList, .python, "class Widget:\n    pass\n".toList⟩]

/-- The keys of their records. -/
def widgetOrder : List RecordKey :=
  [⟨0⟩, ⟨1⟩, ⟨2⟩]

/-- The graph of the two files. -/
def widgetGraph (explain : Bool) : Option LedgerFault × Atlas :=
  mergeAll widgetOrder { ledger := (enterExtracts builtinRules {} explain widgetFiles {}).2 }

theorem widgetGraph_eq : (enterExtracts builtinRules {} false widgetFiles {}).1 = widgetOrder ∧
    (widgetGraph false).1 = none ∧ (widgetGraph true).1 = none ∧
    ⟨1⟩ ∈ (widgetGraph false).2.structures ∧
    (widgetGraph true).2.structures = (widgetGraph false).2.structures ∧
    ((widgetGraph false).2.ledger.structureAt ⟨1⟩).head.name = "Widget".toList ∧
    (widgetGraph false).2.referencesTo ((widgetGraph false).2.ledger.structureAt ⟨1⟩).head = [] ∧
    (widgetGraph true).2.referencesTo ((widgetGraph true).2.ledger.structureAt ⟨1⟩).head =
      ["Widget.py".toList] := by
  decide +kernel

theorem references_of_widgetGraph :
    widgetOrder.Nodup ∧
    (∀ k ∈ widgetOrder, k ∈ (enterExtracts builtinRules {} false widgetFiles {}).1) ∧
      ∃ a b, widgetGraph false = (none, a) ∧ widgetGraph true = (none, b) ∧ ⟨1⟩ ∈ a.structures ∧
        "Widget.py".toList ∈ b.referencesTo (b.ledger.structureAt ⟨1⟩).head ∧
        b.NamesByStamp "Widget".toList "Widget.py".toList := by
  obtain ⟨hkeys, -, -, hin, -, hname, hplain, hstamped⟩ := widgetGraph_eq
  have hnodup : widgetOrder.Nodup := by decide
  have hall : ∀ k ∈ widgetOrder, k ∈ (enterExtracts builtinRules {} false widgetFiles {}).1 := by
    rw [hkeys]
    exact fun _ hk => hk
  obtain ⟨-, a, b, ha, hb, -, hreferences⟩ :=
    stamps_add_references_by_path_only {} widgetFiles _ hnodup hall
  rw [← widgetGraph] at ha hb
  rw [ha] at hin hname hplain
  rw [hb] at hstamped
  obtain ⟨-, -, hmem, -, -⟩ := hreferences ⟨1⟩ hin
  have hnew : "Widget.py".toList ∈ b.referencesTo (b.ledger.structureAt ⟨1⟩).head := by
    rw [hstamped]
    exact List.mem_singleton_self _
  refine ⟨hnodup, hall, a, b, ha, hb, hin, hnew, ?_⟩
  rcases (hmem _).1 hnew with hold | ⟨-, hstamp⟩
  · rw [hplain] at hold
    cases hold
  · exact hname ▸ hstamp

theorem stamp_makes_reference : (widgetFiles.map SourceFile.path).Nodup ∧
    ∃ a b, widgetGraph false = (none, a) ∧ widgetGraph true = (none, b) ∧ ⟨1⟩ ∈ a.structures ∧
      b.structures = a.structures ∧ a.referencesTo (a.ledger.structureAt ⟨1⟩).head = [] ∧
      b.referencesTo (b.ledger.structureAt ⟨1⟩).head = ["Widget.py".toList] := by
  have hpaths : (widgetFiles.map SourceFile.path).Nodup := by decide
  obtain ⟨-, ha, hb, hin, hsame, -, hplain, hstamped⟩ := widgetGraph_eq
  generalize widgetGraph false = p at *
  generalize widgetGraph true = q at *
  exact ⟨hpaths, p.2, q.2, Prod.ext ha rfl, Prod.ext hb rfl, hin, hsame, hplain, hstamped⟩

end Atlas

end DependencyAtlas
