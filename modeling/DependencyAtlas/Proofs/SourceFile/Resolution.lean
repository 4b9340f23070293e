import DependencyAtlas.Proofs.SourceFile.Extraction
import Mathlib.Data.List.Forall2
import Mathlib.Logic.Relation

namespace DependencyAtlas

theorem Text.hasPart_iff {part t : Text} : hasPart part t = true ↔ part <:+: t := by
  induction t with
  | nil => rw [hasPart, List.isEmpty_iff, List.infix_nil]
  | cons c t ih =>
    rw [hasPart, Bool.or_eq_true, List.isPrefixOf_iff_prefix, ih, List.infix_cons_iff]

namespace StructureHead

/-- A dependency text without a stamp in which one of the targets occurs. -/
def Matched (targets : List Text) (s : StructureHead) : Prop :=
  s.provenance = none ∧ ∃ dep, s.dependencies = some dep ∧ dep ≠ [] ∧ ∃ x ∈ targets, x <:+: dep

/-- The second structure is the first with a file put in front of the dependency text and taken for
its provenance. -/
def StampedAs (file : Text) (s s' : StructureHead) : Prop :=
  ∃ dep, s.dependencies = some dep ∧
    s' = { s with dependencies := some (file ++ ':' :: dep), provenance := some file }

variable {file : Text} {targets targets' : List Text} {s s' : StructureHead}

theorem unexplained_iff :
    s.unexplained = true ↔ s.provenance = none ∧ ∃ dep, s.dependencies = some dep ∧ dep ≠ [] := by
  rw [unexplained, Bool.and_eq_true, Option.isNone_iff_eq_none, and_comm, Option.any_eq_true]
  simp only [decide_eq_true_iff]

theorem mentions_iff (htargets : ∀ x ∈ targets, x ≠ []) :
    s.mentions targets = true ↔ ∃ dep, s.dependencies = some dep ∧ ∃ x ∈ targets, x <:+: dep := by
  rw [mentions, List.any_eq_true]
  constructor
  · rintro ⟨x, hx, hpart⟩
    obtain ⟨dep, hdep, hpart⟩ := (Option.any_eq_true _ _).1 (Bool.and_eq_true_iff.1 hpart).2
    exact ⟨dep, hdep, x, hx, Text.hasPart_iff.1 hpart⟩
  · rintro ⟨dep, hdep, x, hx, hpart⟩
    refine ⟨x, hx, Bool.and_eq_true_iff.2 ⟨decide_eq_true (htargets x hx), ?_⟩⟩
    exact (Option.any_eq_true _ _).2 ⟨dep, hdep, Text.hasPart_iff.2 hpart⟩

theorem explainable_iff (htargets : ∀ x ∈ targets, x ≠ []) :
    s.explainable targets = true ↔ s.Matched targets := by
  rw [explainable, Bool.and_eq_true, unexplained_iff, mentions_iff htargets]
  constructor
  · rintro ⟨⟨hnone, dep, hdep, hne⟩, dep', hdep', hpart⟩
    cases hdep.symm.trans hdep'
    exact ⟨hnone, dep, hdep, hne, hpart⟩
  · rintro ⟨hnone, dep, hdep, hne, hpart⟩
    exact ⟨⟨hnone, dep, hdep, hne⟩, dep, hdep, hpart⟩

theorem explainable_congr (h : ∀ x, x ∈ targets ↔ x ∈ targets') :
    s.explainable targets = s.explainable targets' := by
  have hmentions : s.mentions targets = s.mentions targets' := by
    rw [Bool.eq_iff_iff, mentions, mentions, List.any_eq_true, List.any_eq_true]
    exact exists_congr fun x => and_congr_left fun _ => h x
  rw [explainable, explainable, hmentions]

theorem explainable_cons (x : Text) (targets : List Text) :
    s.explainable (x :: targets) = (s.explainable [x] || s.explainable targets) := by
  rw [explainable, explainable, explainable, mentions, mentions, mentions, List.any_cons,
    List.any_cons, List.any_nil, Bool.or_false, Bool.and_or_distrib_left]

theorem not_explainable_of_provenance (h : s.provenance ≠ none) (targets : List Text) :
    ¬s.explainable targets = true := by
  intro hexplain
  exact h (unexplained_iff.1 (Bool.and_eq_true_iff.1 hexplain).1).1

theorem explain_of_not_explainable (file : Text) (h : ¬s.explainable targets = true) :
    s.explain file targets = s :=
  if_neg h

theorem provenance_explain (file : Text) (h : s.explainable targets = true) :
    (s.explain file targets).provenance = some file := by
  rw [explain, if_pos h]

theorem explain_congr (file : Text) (h : s.explainable targets = s.explainable targets') :
    s.explain file targets = s.explain file targets' := by
  rw [explain, explain, h]

theorem stampedAs_explain (file : Text) (h : s.explainable targets = true) :
    s.StampedAs file (s.explain file targets) := by
  obtain ⟨-, dep, hdep, -⟩ := unexplained_iff.1 (Bool.and_eq_true_iff.1 h).1
  refine ⟨dep, hdep, ?_⟩
  rw [explain, if_pos h, hdep, Option.map_some, List.append_assoc, List.singleton_append]

theorem not_stampedAs_self : ¬s.StampedAs file s := by
  rintro ⟨dep, hdep, he⟩
  have hlonger : some (file ++ ':' :: dep) = some dep := (congrArg dependencies he).symm.trans hdep
  have hlength := congrArg List.length (Option.some.inj hlonger)
  rw [List.length_append, List.length_cons] at hlength
  omega

theorem unexplained_of_explain (h : (s.explain file targets).unexplained = true) :
    s.unexplained = true := by
  by_cases hexplain : s.explainable targets = true
  · exact (Bool.and_eq_true_iff.1 hexplain).1
  · rwa [explain_of_not_explainable file hexplain] at h

theorem explain_ne_iff (file : Text) (targets : List Text) (s : StructureHead) :
    s ≠ s.explain file targets ↔ s.explainable targets = true := by
  constructor
  · intro hne
    by_contra hnot
    exact hne (explain_of_not_explainable file hnot).symm
  · intro h he
    have hstamped := stampedAs_explain file h
    rw [← he] at hstamped
    exact not_stampedAs_self hstamped

theorem not_explainable_explain (file : Text) (targets : List Text) (s : StructureHead) :
    ¬(s.explain file targets).explainable targets = true := by
  by_cases h : s.explainable targets = true
  · apply not_explainable_of_provenance
    rw [provenance_explain file h]
    exact Option.some_ne_none file
  · rwa [explain_of_not_explainable file h]

theorem foldl_explain_of_provenance (file : Text) (h : s.provenance ≠ none) (targets : List Text) :
    targets.foldl (fun s x => s.explain file [x]) s = s := by
  induction targets with
  | nil => rfl
  | cons x targets ih =>
    rw [List.foldl_cons, explain_of_not_explainable file (not_explainable_of_provenance h [x]), ih]

/-- Imports explain a structure together as they do one after the other, where each is looked for in
the text that those before it left. -/
theorem foldl_explain (file : Text) (targets : List Text) (s : StructureHead) :
    targets.foldl (fun s x => s.explain file [x]) s = s.explain file targets := by
  induction targets generalizing s with
  | nil =>
    refine (explain_of_not_explainable file ?_).symm
    rw [explainable, mentions, List.any_nil, Bool.and_false]
    exact Bool.false_ne_true
  | cons x targets ih =>
    rw [List.foldl_cons]
    by_cases h : s.explainable [x] = true
    · have hstamped : (s.explain file [x]).provenance ≠ none := by
        rw [provenance_explain file h]
        exact Option.some_ne_none file
      rw [foldl_explain_of_provenance file hstamped]
      apply explain_congr
      rw [explainable_cons x targets, h, Bool.true_or]
    · rw [explain_of_not_explainable file h, ih]
      apply explain_congr
      rw [explainable_cons x targets, Bool.eq_false_iff.2 h, Bool.false_or]

end StructureHead

namespace SourceFile

/-- The targets of a file's imports, none if the rules for them cannot be read. -/
def targets (f : SourceFile) (t : RuleTables) : List Text :=
  match f.imports t with
  | .ok targets => targets
  | .error _ => []

variable {f g : SourceFile} {t u : RuleTables} {heads after : List StructureHead} {n : Nat}

theorem targets_of_imports {targets : List Text} (h : f.imports t = .ok targets) :
    f.targets t = targets := by
  rw [SourceFile.targets, h]

theorem ne_nil_of_mem_targets : ∀ x ∈ f.targets t, x ≠ [] := by
  unfold SourceFile.targets
  split
  · next h => exact ne_nil_of_mem_imports h
  · exact fun _ hx => nomatch hx

theorem map_explain_of_explained (file : Text) (targets : List Text)
    (h : ¬heads.any (·.unexplained) = true) :
    heads.countP (·.explainable targets) = 0 ∧
    heads.map (StructureHead.explain file targets) = heads := by
  have hnone : ∀ s ∈ heads, ¬s.explainable targets = true := by
    intro s hs hexplain
    exact h (List.any_eq_true.2 ⟨s, hs, (Bool.and_eq_true_iff.1 hexplain).1⟩)
  refine ⟨List.countP_eq_zero.2 hnone, ?_⟩
  exact (List.map_congr_left fun s hs => s.explain_of_not_explainable file (hnone s hs)).trans
    (List.map_id' _)

theorem resolve_eq_error_iff {e : ExtractError} :
    f.resolve t heads = .error e ↔ f.imports t = .error e ∧ ∃ s ∈ heads, s.unexplained = true := by
  rw [← List.any_eq_true, resolve]
  split
  · next h =>
    cases himports : f.imports t with
    | error e' => simp [h, bind, Except.bind]
    | ok targets => simp [bind, Except.bind, pure, Except.pure]
  · next h => simp [h]

theorem resolve_eq_ok (h : f.resolve t heads = .ok (n, after)) :
    n = heads.countP (·.explainable (f.targets t)) ∧
      after = heads.map (StructureHead.explain f.path (f.targets t)) := by
  rw [resolve] at h
  split at h
  · cases himports : f.imports t with
    | error e =>
      rw [himports] at h
      cases h
    | ok targets =>
      rw [himports] at h
      cases h
      rw [targets_of_imports himports]
      exact ⟨rfl, rfl⟩
  · next hnone =>
    cases h
    obtain ⟨hcount, hmap⟩ := map_explain_of_explained f.path (f.targets t) hnone
    exact ⟨hcount.symm, hmap.symm⟩

/-- A call on a list of structures, in which the first one stands, makes the second of it. -/
def Turns (s s' : StructureHead) : Prop :=
  ∃ (g : SourceFile) (u : RuleTables) (heads : List StructureHead) (n : Nat)
      (after : List StructureHead) (i : Nat),
    g.resolve u heads = .ok (n, after) ∧ heads[i]? = some s ∧ after[i]? = some s'

theorem Turns.eq_of_provenance {s s' : StructureHead} (h : Turns s s') (hs : s.provenance ≠ none) :
    s' = s := by
  obtain ⟨g, u, heads, n, after, i, hcall, hi, hi'⟩ := h
  obtain ⟨-, rfl⟩ := resolve_eq_ok hcall
  rw [List.getElem?_map, hi] at hi'
  rw [← Option.some.inj hi']
  exact s.explain_of_not_explainable g.path (s.not_explainable_of_provenance hs _)

theorem eq_of_reflTransGen_turns {s s' : StructureHead} (h : Relation.ReflTransGen Turns s s')
    (hs : s.provenance ≠ none) : s' = s := by
  induction h with
  | refl => rfl
  | tail _ hturns ih =>
    rw [ih] at hturns
    exact hturns.eq_of_provenance hs

theorem forall₂_explain (f : SourceFile) (t : RuleTables) (heads : List StructureHead) :
    List.Forall₂ (fun s s' => (s.StampedAs f.path s' ↔ s.Matched (f.targets t)) ∧
      (¬s.Matched (f.targets t) → s' = s))
      heads (heads.map (StructureHead.explain f.path (f.targets t))) := by
  rw [List.forall₂_map_right_iff, List.forall₂_same]
  intro s _
  rw [← StructureHead.explainable_iff ne_nil_of_mem_targets]
  by_cases h : s.explainable (f.targets t) = true
  · exact ⟨iff_of_true (s.stampedAs_explain f.path h) h, fun hnot => (hnot h).elim⟩
  · rw [s.explain_of_not_explainable f.path h]
    exact ⟨iff_of_false StructureHead.not_stampedAs_self h, fun _ => rfl⟩

theorem countP_changed (file : Text) (targets : List Text) (heads : List StructureHead) :
    (heads.zip (heads.map (StructureHead.explain file targets))).countP (fun p => p.1 ≠ p.2) =
      heads.countP (·.explainable targets) := by
  rw [← List.map_prod_left_eq_zip, List.countP_map]
  refine List.countP_congr fun s _ => ?_
  rw [← s.explain_ne_iff file]
  exact decide_eq_true_iff

theorem resolve_again (h : f.resolve t heads = .ok (n, after)) :
    f.resolve t after = .ok (0, after) := by
  obtain ⟨-, hafter⟩ := resolve_eq_ok h
  cases hagain : f.resolve t after with
  | error e =>
    obtain ⟨hfail, s', hs', hopen⟩ := resolve_eq_error_iff.1 hagain
    rw [hafter] at hs'
    obtain ⟨s, hs, rfl⟩ := List.mem_map.1 hs'
    rw [resolve_eq_error_iff.2 ⟨hfail, s, hs, s.unexplained_of_explain hopen⟩] at h
    cases h
  | ok r =>
    have hnone : ∀ s ∈ after, ¬s.explainable (f.targets t) = true := by
      rw [hafter, List.forall_mem_map]
      exact fun s _ => s.not_explainable_explain f.path (f.targets t)
    obtain ⟨hcount, hmap⟩ := resolve_eq_ok hagain
    rw [List.countP_eq_zero.2 hnone] at hcount
    rw [List.map_congr_left fun s hs => s.explain_of_not_explainable f.path (hnone s hs),
      List.map_id'] at hmap
    rw [← hcount, ← hmap]

/-- A call fails only where there is something to explain and the rules for imports cannot be read.
Otherwise it stamps the structures that have a dependency text without a stamp in which an import of
the file occurs, leaves the others as they are, and answers how many it stamped. It makes no
difference in which order, how often and whether together or one after the other the imports are
tried. The same call again finds nothing to stamp, and no later call changes what has a stamp. -/
theorem resolve_stamps_matched_once (f : SourceFile) (t : RuleTables) (heads : List StructureHead) :
    (∀ e, f.resolve t heads = .error e ↔ f.imports t = .error e ∧
      ∃ s ∈ heads, s.unexplained = true) ∧
    (∀ n after, f.resolve t heads = .ok (n, after) →
      List.Forall₂ (fun s s' =>
        (s.StampedAs f.path s' ↔ s.Matched (f.targets t)) ∧
        (¬s.Matched (f.targets t) → s' = s)) heads after ∧
      n = (heads.zip after).countP (fun p => p.1 ≠ p.2) ∧
      (∀ order : List Text, (∀ x, x ∈ order ↔ x ∈ f.targets t) →
        after = heads.map fun s => order.foldl (fun s x => s.explain f.path [x]) s) ∧
      f.resolve t after = .ok (0, after) ∧
      ∀ s ∈ after, s.provenance ≠ none → ∀ s', Relation.ReflTransGen Turns s s' → s' = s) ∧
    ∀ (g : SourceFile) (u : RuleTables), g.path = f.path →
      (∀ x, x ∈ g.targets u ↔ x ∈ f.targets t) →
      ∀ r r', f.resolve t heads = .ok r → g.resolve u heads = .ok r' → r' = r := by
  refine ⟨fun e => resolve_eq_error_iff, ?_, ?_⟩
  · intro n after hcall
    obtain ⟨rfl, rfl⟩ := resolve_eq_ok hcall
    refine ⟨forall₂_explain f t heads, (countP_changed ..).symm, ?_, ?_, ?_⟩
    · intro order horder
      apply List.map_congr_left
      intro s _
      rw [s.foldl_explain]
      exact s.explain_congr f.path (s.explainable_congr fun x => (horder x).symm)
    · exact resolve_again hcall
    · intro s _ hs s' hlater
      exact eq_of_reflTransGen_turns hlater hs
  · rintro g u hpath htargets ⟨n, after⟩ ⟨n', after'⟩ hcall hcall'
    obtain ⟨rfl, rfl⟩ := resolve_eq_ok hcall
    obtain ⟨rfl, rfl⟩ := resolve_eq_ok hcall'
    have hsame : ∀ s : StructureHead, s.explainable (g.targets u) = s.explainable (f.targets t) :=
      fun s => s.explainable_congr htargets
    rw [hpath, funext hsame]
    exact Prod.ext rfl (List.map_congr_left fun s _ => s.explain_congr f.path (hsame s))

end SourceFile

end DependencyAtlas
