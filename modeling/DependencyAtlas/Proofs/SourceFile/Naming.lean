import DependencyAtlas.Proofs.Graph.AddFile
import DependencyAtlas.Proofs.SourceFile.Bodies

namespace DependencyAtlas

def MethodHead.Named (head : MethodHead) : Prop :=
  head.name ≠ [] ∧ head.name ∉ definitionKeywords.map String.toList

namespace SourceFile

variable {f : SourceFile} {t : RuleTables} {ms sms : List Matcher}

theorem named_of_definitionOf {line : Text × Nat} {head : MethodHead}
    (h : f.definitionOf ms line = some head) :
    head.Named := by
  rw [definitionOf, if_pos (significant_of_definitionOf h)] at h
  obtain ⟨found, hfound, hdef⟩ := Option.bind_eq_some_iff.1 h
  obtain ⟨m, -, hfind⟩ := Matcher.exists_of_first? hfound
  obtain ⟨-, hname, hkeyword, -⟩ := definition?_eq_some hdef
  exact ⟨Matcher.ne_nil_of_get? hfind hname, hkeyword⟩

theorem named_of_scanMethods {lines : List (Text × Nat)} {ts : List MethodTree}
    (h : f.scanMethods ms lines = .ok ts) :
    ∀ m ∈ MethodTree.walkAll ts, m.head.Named := by
  intro m hm
  have hhead := List.mem_map_of_mem (f := (·.head)) hm
  rw [heads_scanMethods h] at hhead
  obtain ⟨line, -, hdef⟩ := List.mem_filterMap.1 hhead
  exact named_of_definitionOf hdef

theorem named_of_methods {ts : List MethodTree} (h : f.methods t = .ok ts) :
    ∀ m ∈ MethodTree.walkAll ts, m.head.Named := by
  obtain ⟨ms, found, -, hfound, rfl⟩ := methods_eq_ok h
  intro m hm
  rw [MethodTree.linkLocal, MethodTree.walkAll_referAll] at hm
  obtain ⟨s, hs, rfl⟩ := List.mem_map.1 hm
  rw [MethodTree.head_refer]
  exact named_of_scanMethods hfound s hs

theorem ne_nil_of_head {lines : List Text} {d : DeclaredStructure} {head : StructureHead}
    (hd : d ∈ declaredStructures sms lines) (h : d.head f = .ok head) : head.name ≠ [] := by
  obtain ⟨line, _, _, hfound, _⟩ := DeclaredStructure.mem_declaredStructures.1 hd
  obtain ⟨m, -, hfind⟩ := Matcher.exists_of_first? hfound
  rw [DeclaredStructure.head] at h
  cases hname : d.found.get? "name" with
  | none =>
    rw [hname] at h
    cases h
  | some name =>
    rw [hname] at h
    cases h
    exact Matcher.ne_nil_of_get? hfind hname

theorem named_of_structures {ss : List StructureTree} (hsms : f.matchers t .structures = .ok sms)
    (hms : f.matchers t .methods = .ok ms) (h : f.structures t = .ok ss) :
    ∀ s ∈ ss, s.head.name ≠ [] ∧ ∀ m ∈ MethodTree.walkAll s.methods, m.head.Named := by
  intro s hs
  obtain ⟨d, hd, hhead, hmethods⟩ := exists_of_forall₂ (forall₂_structures hsms hms h).flip hs
  exact ⟨ne_nil_of_head hd hhead, named_of_scanMethods hmethods⟩

/-- With the built-in rules every file yields its imports, structures and methods, all of them
named; and into any graph the records that are built from them are merged without a fault, none of
them empty. -/
theorem builtin_extraction_never_fails (f : SourceFile) :
    ∃ imports structures methods, f.imports builtinRules = .ok imports ∧
      f.structures builtinRules = .ok structures ∧
      f.methods builtinRules = .ok methods ∧
      (∀ target ∈ imports, target ≠ []) ∧
      (∀ s ∈ structures, s.head.name ≠ [] ∧ ∀ m ∈ MethodTree.walkAll s.methods, m.head.Named) ∧
      (∀ m ∈ MethodTree.walkAll methods, m.head.Named) ∧
      ∀ a : Atlas, ∃ ks l, a.ledger.buildRecords f { imports, structures, methods } = .ok (ks, l) ∧
        (∀ k ∈ ks, (l.record k).Reports f) ∧
          (Atlas.mergeAll ks { a with ledger := l }).1 = none := by
  have hnamed := RuleTables.named_builtinRules
  obtain ⟨sms, hsms, -⟩ := answers_matchers hnamed f .structures
  obtain ⟨ms, hms, -⟩ := answers_matchers hnamed f .methods
  obtain ⟨imports, himports, htargets⟩ := answers_imports hnamed f
  obtain ⟨structures, hstructures, -⟩ := answers_structures hnamed f
  obtain ⟨methods, hmethods, -⟩ := answers_methods hnamed f
  refine ⟨imports, structures, methods, himports, hstructures, hmethods, htargets,
    named_of_structures hsms hms hstructures, named_of_methods hmethods, fun a => ?_⟩
  have hentered := a.ledger.entered_enterRecords f (r := { imports, structures, methods }) htargets
  exact ⟨_, _, a.ledger.buildRecords_eq f _, fun k => hentered.reports, a.addFile_fault f htargets⟩

end SourceFile

end DependencyAtlas
