import DependencyAtlas.Proofs.CallSite.Sites
import DependencyAtlas.Proofs.Graph.Teardown

namespace DependencyAtlas

open Text CallSite

/-- A name occurs somewhere in a text with neither a word character nor a dollar sign next to it. -/
def OccursAsWord (name t : Text) : Prop :=
  ∃ before after, t = before ++ (name ++ after) ∧
    (∀ c ∈ before.getLast?, isWord c = false ∧ c ≠ '$') ∧
      ∀ c ∈ after.head?, isWord c = false ∧ c ≠ '$'

section Word

variable {name t : Text} {previous : Option Char}

theorem startsWord_iff :
    (name.isPrefixOf t && (t.drop name.length).head?.all separates) = true ↔
      ∃ after, t = name ++ after ∧ ∀ c ∈ after.head?, isWord c = false ∧ c ≠ '$' := by
  rw [Bool.and_eq_true, List.isPrefixOf_iff_prefix, all_separates_iff]
  constructor
  · rintro ⟨⟨after, rfl⟩, hafter⟩
    rw [List.drop_left] at hafter
    exact ⟨after, rfl, hafter⟩
  · rintro ⟨after, rfl, hafter⟩
    rw [List.drop_left]
    exact ⟨List.prefix_append name after, hafter⟩

theorem mentionsFrom_iff : mentionsFrom name previous t = true ↔
    ∃ before after, t = before ++ (name ++ after) ∧
      (∀ c ∈ before.getLast?.or previous, isWord c = false ∧ c ≠ '$') ∧
      ∀ c ∈ after.head?, isWord c = false ∧ c ≠ '$' := by
  induction t generalizing previous with
  | nil =>
    rw [mentionsFrom, Bool.and_eq_true, List.isEmpty_iff, all_separates_iff]
    constructor
    · rintro ⟨rfl, hprevious⟩
      exact ⟨[], [], rfl, hprevious, fun _ hc => nomatch hc⟩
    · rintro ⟨before, after, he, hbefore, -⟩
      obtain ⟨rfl, hrest⟩ := List.append_eq_nil_iff.1 he.symm
      exact ⟨(List.append_eq_nil_iff.1 hrest).1, hbefore⟩
  | cons c t ih =>
    rw [mentionsFrom, Bool.or_eq_true, Bool.and_assoc, Bool.and_eq_true, startsWord_iff,
      all_separates_iff, ih]
    constructor
    · rintro (⟨hprevious, after, he, hafter⟩ | ⟨before, after, rfl, hbefore, hafter⟩)
      · exact ⟨[], after, he, hprevious, hafter⟩
      · exact ⟨c :: before, after, rfl, by rwa [getLast?_cons_or], hafter⟩
    · rintro ⟨before, after, he, hbefore, hafter⟩
      cases before with
      | nil => exact .inl ⟨hbefore, after, he, hafter⟩
      | cons d before =>
        cases he
        rw [getLast?_cons_or] at hbefore
        exact .inr ⟨before, after, rfl, hbefore, hafter⟩

theorem mentions_iff : mentions name t = true ↔ OccursAsWord name t := by
  rw [mentions, mentionsFrom_iff]
  simp only [Option.or_none, OccursAsWord]

end Word

namespace Atlas

/-- The texts of a node: its target if it is an import, otherwise the dependency texts of its
structures or the signatures of its methods and of the methods inside them, at any depth. -/
inductive HasText (a : Atlas) (n : Node) : Text → Prop where
  | target {t : Text} : n.layer = .modules → n.target = some t → t ≠ [] → HasText a n t
  | dependencies {x : StructureKey} {t : Text} : n.layer = .structures → x ∈ n.structures →
    (a.ledger.structureAt x).head.dependencies = some t → t ≠ [] → HasText a n t
  | signature {top m : MethodKey} : n.layer = .methods → top ∈ n.methods → a.ledger.Encloses top m →
    HasText a n (a.ledger.method m).head.signature

def Mentions (a : Atlas) (n : Node) (name : Text) : Prop :=
  ∃ t, a.HasText n t ∧ OccursAsWord name t

def FirstMention (a : Atlas) (name file : Text) (i : Nat) : Prop :=
  (∃ n, a.nodes[i]? = some n ∧ n.source = file ∧ a.Mentions n name) ∧
    ∀ j < i, ∀ n, a.nodes[j]? = some n → n.source = file → ¬a.Mentions n name

variable {a : Atlas} {n : Node} {s : StructureHead} {file name t : Text}

theorem mem_textsOf_iff : t ∈ a.textsOf n ↔ a.HasText n t := by
  constructor
  · intro ht
    unfold textsOf at ht
    split at ht
    · next hl =>
      obtain ⟨htarget, hne⟩ := Option.filter_eq_some_iff.1 (Option.mem_toList.1 ht)
      exact .target hl htarget (of_decide_eq_true hne)
    · next hl =>
      obtain ⟨x, hx, hdep⟩ := List.mem_filterMap.1 ht
      obtain ⟨hdep, hne⟩ := Option.filter_eq_some_iff.1 hdep
      exact .dependencies hl hx hdep (of_decide_eq_true hne)
    · next hl =>
      obtain ⟨m, hm, rfl⟩ := List.mem_map.1 ht
      obtain ⟨top, htop, hm⟩ := List.mem_flatMap.1 hm
      exact .signature hl htop (Ledger.mem_walk_iff.1 hm)
  · intro ht
    cases ht with
    | target hl htarget hne =>
      rw [textsOf, hl]
      exact Option.mem_toList.2 (Option.filter_eq_some_iff.2 ⟨htarget, decide_eq_true hne⟩)
    | dependencies hl hx hdep hne =>
      rw [textsOf, hl]
      exact List.mem_filterMap.2 ⟨_, hx, Option.filter_eq_some_iff.2 ⟨hdep, decide_eq_true hne⟩⟩
    | signature hl htop hm =>
      rw [textsOf, hl]
      exact List.mem_map.2 ⟨_, List.mem_flatMap.2 ⟨_, htop, Ledger.mem_walk_iff.2 hm⟩, rfl⟩

theorem any_textsOf_iff :
    (a.textsOf n).any (DependencyAtlas.mentions name) = true ↔ a.Mentions n name := by
  rw [List.any_eq_true, Mentions]
  exact exists_congr fun t => and_congr mem_textsOf_iff mentions_iff

def refers (a : Atlas) (s : StructureHead) (n : Node) : Bool :=
  n.source ≠ s.definedIn && (a.textsOf n).any (DependencyAtlas.mentions s.name)

theorem refers_iff : a.refers s n = true ↔ n.source ≠ s.definedIn ∧ a.Mentions n s.name := by
  rw [refers, Bool.and_eq_true, decide_eq_true_iff, any_textsOf_iff]

theorem referencesTo_eq (a : Atlas) (s : StructureHead) :
    a.referencesTo s = FirstSeen.ofList ((a.nodes.filter (a.refers s)).map (·.source)) :=
  rfl

theorem mem_referencesTo : file ∈ a.referencesTo s ↔
    file ≠ s.definedIn ∧ ∃ n ∈ a.nodes, n.source = file ∧ a.Mentions n s.name := by
  rw [referencesTo_eq, FirstSeen.mem_ofList, List.mem_map]
  constructor
  · rintro ⟨n, hn, rfl⟩
    obtain ⟨hn, hrefers⟩ := List.mem_filter.1 hn
    obtain ⟨hne, hmentions⟩ := refers_iff.1 hrefers
    exact ⟨hne, n, hn, rfl, hmentions⟩
  · rintro ⟨hne, n, hn, rfl, hmentions⟩
    exact ⟨n, List.mem_filter.2 ⟨hn, refers_iff.2 ⟨hne, hmentions⟩⟩, rfl⟩

theorem firstMention_findIdx (hfile : file ∈ a.referencesTo s) :
    a.FirstMention s.name file (a.nodes.findIdx fun n => a.refers s n && n.source = file) := by
  obtain ⟨hne, n, hn, rfl, hmentions⟩ := mem_referencesTo.1 hfile
  have hlt : a.nodes.findIdx (fun m => a.refers s m && m.source = n.source) < a.nodes.length :=
    List.findIdx_lt_length_of_exists ⟨n, hn, by simp [refers_iff.2 ⟨hne, hmentions⟩]⟩
  constructor
  · obtain ⟨hrefers, hsource⟩ := Bool.and_eq_true_iff.1 (List.findIdx_getElem (w := hlt))
    exact ⟨_, List.getElem?_eq_getElem hlt, of_decide_eq_true hsource, (refers_iff.1 hrefers).2⟩
  · intro j hj m hm hsource hearlier
    obtain ⟨hjlt, rfl⟩ := List.getElem?_eq_some_iff.1 hm
    have hnot := List.not_of_lt_findIdx hj
    rw [refers_iff.2 ⟨hsource ▸ hne, hearlier⟩, Bool.true_and, decide_eq_false_iff_not] at hnot
    exact hnot hsource

/-- A file is answered for a structure exactly if it is another one than the structure's own and a
text of one of its nodes has the structure's name as a word; the files come in the order of their
first nodes that do, each once. In a graph that a session leads to, each import has a target and
only nodes of structures and of methods list any, so that the texts of a node are all texts that it
has. -/
theorem references_are_word_mentions (a : Atlas) (s : StructureHead) :
    (∀ file, file ∈ a.referencesTo s ↔ file ≠ s.definedIn ∧
      ∃ n ∈ a.nodes, n.source = file ∧ ∃ t, a.HasText n t ∧ OccursAsWord s.name t) ∧
    (a.referencesTo s).Nodup ∧
    (a.referencesTo s).Pairwise (fun file file' =>
      ∃ i j, i < j ∧ a.FirstMention s.name file i ∧ a.FirstMention s.name file' j) ∧
    ∀ ops, (∀ fault, .brokenOff fault ∉ (Atlas.run {} ops).1) → a = (Atlas.run {} ops).2 →
      a.Layered ∧ ∀ n ∈ a.nodes, n.layer = .modules → ∃ t, n.target = some t ∧ t ≠ [] := by
  refine ⟨fun file => mem_referencesTo, FirstSeen.nodup_ofList _, ?_, ?_⟩
  · have hordered := FirstSeen.pairwise_findIdx_ofList Node.source (a.refers s) a.nodes
    rw [← referencesTo_eq] at hordered
    refine hordered.imp_of_mem fun hfile hfile' hlt => ?_
    exact ⟨_, _, hlt, firstMention_findIdx hfile, firstMention_findIdx hfile'⟩
  · rintro ops hr rfl
    exact ⟨layered_run hr, fun n hn hl => (grouped_run hr).exists_target hn hl⟩

end Atlas

end DependencyAtlas
