import DependencyAtlas.Proofs.Graph.AddFile
import DependencyAtlas.Proofs.Graph.CallLinks
import DependencyAtlas.Proofs.Ledger.Entering
import DependencyAtlas.Proofs.SourceFile.Methods
import DependencyAtlas.Rules

namespace DependencyAtlas

open Ledger

def Ledger.methodsOf (l : Ledger) (k : RecordKey) : List MethodKey :=
  (l.record k).methods.flatMap l.walk

def Ledger.Among (l : Ledger) (ks : List RecordKey) (m : MethodKey) : Prop :=
  ∃ k ∈ ks, m ∈ l.methodsOf k

def Ledger.CalledAt (l : Ledger) (m c : MethodKey) (place : Text) : Prop :=
  (l.method m).head.name ∈ (l.method c).calls ∧
    place = MethodTree.location (l.method c).head.definedIn (l.method c).head.name

/-- Records of methods of different files, each of them linked within its file. -/
structure Ledger.LinkedApart (l : Ledger) (ks : List RecordKey) : Prop where
  accepted : ∀ k ∈ ks, Atlas.Accepted (l.record k)
  layer : ∀ k ∈ ks, (l.record k).layer = .methods
  distinct : (ks.map fun k => (l.record k).path).Nodup
  known : ∀ k ∈ ks, ∀ m ∈ l.methodsOf k, m.index < l.methods.length
  definedIn : ∀ k ∈ ks, ∀ m ∈ l.methodsOf k, (l.method m).head.definedIn = (l.record k).path
  nodup : ∀ k ∈ ks, ∀ m ∈ l.methodsOf k, (l.method m).references.Nodup
  references : ∀ k ∈ ks, ∀ m ∈ l.methodsOf k, ∀ place,
    place ∈ (l.method m).references ↔ ∃ c ∈ l.methodsOf k, l.CalledAt m c place

namespace Atlas

/-- The state after the records `done` of the ledger `l` were merged: the tables hold their methods,
and their references are the local ones with the calls from one of the files to another. -/
structure Linked (l : Ledger) (done : List RecordKey) (a : Atlas) : Prop where
  length : a.ledger.methods.length = l.methods.length
  fixed : ∀ m, (a.ledger.method m).fixed = (l.method m).fixed
  records : ∀ k, k ∉ done → a.ledger.record k = l.record k
  grouped : a.Grouped (done.map l.record)
  byName : ∀ name m, m ∈ a.graph.byName.get name ↔ l.Among done m ∧ (l.method m).head.name = name
  callersOf : ∀ callee m, m ∈ a.graph.callersOf.get callee ↔ l.Among done m ∧
    callee ∈ (l.method m).calls
  nodup : ∀ m, (l.method m).references.Nodup → (a.ledger.method m).references.Nodup
  references : ∀ m, m.index < l.methods.length → ∀ place,
    place ∈ (a.ledger.method m).references ↔ place ∈ (l.method m).references ∨
      l.Among done m ∧ ∃ c, l.Among done c ∧
        (l.method c).head.definedIn ≠ (l.method m).head.definedIn ∧ l.CalledAt m c place

variable {l : Ledger} {done ks : List RecordKey} {a b : Atlas} {k : RecordKey}

theorem Linked.head (h : Linked l done a) (m : MethodKey) :
    (a.ledger.method m).head = (l.method m).head :=
  (congrArg MethodEntry.head (h.fixed m) :)

theorem Linked.calls (h : Linked l done a) (m : MethodKey) :
    (a.ledger.method m).calls = (l.method m).calls :=
  (congrArg MethodEntry.calls (h.fixed m) :)

theorem Linked.walk (h : Linked l done a) (m : MethodKey) : a.ledger.walk m = l.walk m :=
  walk_congr h.length (fun m => (congrArg MethodEntry.children (h.fixed m) :)) m

theorem linked_start (l : Ledger) : Linked l [] { ledger := l } where
  length := rfl
  fixed _ := rfl
  records _ _ := rfl
  grouped := grouped_empty l
  byName := by simp [Among, Grouping.get]
  callersOf := by simp [Among, Grouping.get]
  nodup _ h := h
  references := by simp [Among]

theorem among_concat {m : MethodKey} :
    l.Among (done ++ [k]) m ↔ l.Among done m ∨ m ∈ l.methodsOf k := by
  simp [Among, or_and_right, exists_or]

/-- The calls between the files merged before, the calls from the file of one more record, and the
calls to it are the calls between all of these files. -/
theorem calls_concat (hin : ∀ c ∈ l.methodsOf k, (l.method c).head.definedIn = (l.record k).path)
    (m : MethodKey) (place : Text) :
    (place ∈ (l.method m).references ∨
      l.Among done m ∧ ∃ c, l.Among done c ∧
        (l.method c).head.definedIn ≠ (l.method m).head.definedIn ∧ l.CalledAt m c place) ∨
    ((l.method m).head.definedIn ≠ (l.record k).path ∧
      ∃ c ∈ l.methodsOf k, ∃ callee ∈ (l.method c).calls,
        (l.Among done m ∧ (l.method m).head.name = callee) ∧
        place = MethodTree.location (l.record k).path (l.method c).head.name) ∨
    (m ∈ l.methodsOf k ∧ ∃ c, (l.Among done c ∧ (l.method m).head.name ∈ (l.method c).calls) ∧
      (l.method c).head.definedIn ≠ (l.record k).path ∧
        place = MethodTree.location (l.method c).head.definedIn (l.method c).head.name) ↔
    place ∈ (l.method m).references ∨
      l.Among (done ++ [k]) m ∧ ∃ c, l.Among (done ++ [k]) c ∧
        (l.method c).head.definedIn ≠ (l.method m).head.definedIn ∧ l.CalledAt m c place := by
  simp only [among_concat, CalledAt]
  constructor
  · rintro ((hold | ⟨hm, c, hc, hne, hcall⟩) | ⟨hne, c, hc, _, hcallee, ⟨hm, rfl⟩, rfl⟩ |
      ⟨hm, c, ⟨hc, hcall⟩, hne, rfl⟩)
    · exact .inl hold
    · exact .inr ⟨.inl hm, c, .inl hc, hne, hcall⟩
    · refine .inr ⟨.inl hm, c, .inr hc, ?_, hcallee, by rw [hin c hc]⟩
      rw [hin c hc]
      exact Ne.symm hne
    · refine .inr ⟨.inr hm, c, .inl hc, ?_, hcall, rfl⟩
      rwa [hin m hm]
  · rintro (hold | ⟨hm | hm, c, hc | hc, hne, hcall, rfl⟩)
    · exact .inl (.inl hold)
    · exact .inl (.inr ⟨hm, c, hc, hne, hcall, rfl⟩)
    · rw [hin c hc] at hne
      exact .inr (.inl ⟨Ne.symm hne, c, hc, _, hcall, ⟨hm, rfl⟩, by rw [hin c hc]⟩)
    · rw [hin m hm] at hne
      exact .inr (.inr ⟨hm, c, ⟨hc, hcall⟩, hne, rfl⟩)
    · rw [hin c hc, hin m hm] at hne
      exact (hne rfl).elim

theorem Linked.merge (h : Linked l done a) (hks : l.LinkedApart ks) (hk : k ∈ ks)
    (hnew : k ∉ done) :
    ∃ n b, a.merge k = (.ok (some n), b) ∧ Linked l (done ++ [k]) b := by
  have hrecord := h.records k hnew
  have hok : Accepted (a.ledger.record k) := hrecord ▸ hks.accepted k hk
  have hlayer : (a.ledger.record k).layer = .methods := hrecord ▸ hks.layer k hk
  have hmerge := merge_methods hok hlayer
  have hplaced := placed_of_merge hmerge
  refine ⟨_, _, hmerge, ?_⟩
  have hloose := method_receiveMethods a k
  have hlength := (length_methods_receiveMethods a k).trans h.length
  have hrecords : ∀ j, j ≠ k → (a.receiveMethods k).2.ledger.record j = a.ledger.record j :=
    fun j hj => record_receiveMethods a hj
  obtain ⟨hnames, hcallers⟩ := tables_receiveMethods a k
  rw [hrecord] at hplaced ⊢
  generalize (a.receiveMethods k).2 = c at *
  have hfixed : ∀ m, (c.ledger.method m).fixed = (l.method m).fixed := fun m =>
    (congrArg MethodEntry.fixed (hloose m)).trans (h.fixed m)
  have hhead : ∀ m, (c.ledger.method m).head = (l.method m).head :=
    fun m => (congrArg MethodEntry.head (hfixed m) :)
  have hcalls : ∀ m, (c.ledger.method m).calls = (l.method m).calls :=
    fun m => (congrArg MethodEntry.calls (hfixed m) :)
  have hreferences : ∀ m, (c.ledger.method m).references = (a.ledger.method m).references :=
    fun m => (congrArg MethodEntry.references (hloose m) :)
  have hadded : (l.record k).methods.flatMap c.ledger.walk = l.methodsOf k :=
    List.flatMap_congr fun m _ =>
      walk_congr hlength (fun m => (congrArg MethodEntry.children (hfixed m) :)) m
  have halike := alike_linkCalls c (l.record k).path (l.record k).methods
  constructor
  · exact halike.length.trans hlength
  · intro m
    exact (halike.method_of MethodEntry.fixed (fun _ => rfl) m).trans (hfixed m)
  · intro j hj
    have hjk : j ≠ k := by
      rintro rfl
      exact hj (List.mem_append_right _ (List.mem_singleton_self _))
    rw [record, halike.records, ← record, hrecords j hjk]
    exact h.records j fun hin => hj (List.mem_append_left _ hin)
  · rw [List.map_append, List.map_singleton]
    exact h.grouped.merge hplaced.1 hplaced.2
  · intro name m
    rw [mem_byName_linkCalls, hnames, h.byName, hadded, hhead, among_concat, or_and_right]
  · intro callee m
    rw [mem_callersOf_linkCalls, hcallers, h.callersOf, hadded, hcalls, among_concat, or_and_right]
  · intro m hm
    apply nodup_references_linkCalls
    rw [hreferences]
    exact h.nodup m hm
  · intro m hm place
    rw [mem_references_linkCalls c _ _ (hlength ▸ hm), ← calls_concat (hks.definedIn k hk) m place]
    simp only [hreferences, hhead, hcalls, hadded, hnames, hcallers, h.byName, h.callersOf,
      h.references m hm]

theorem Linked.mergeAll (h : Linked l done a) (hks : l.LinkedApart ks) {todo : List RecordKey}
    (htodo : ∀ k ∈ todo, k ∈ ks) (hnodup : (done ++ todo).Nodup) :
    ∃ b, Atlas.mergeAll todo a = (none, b) ∧ Linked l (done ++ todo) b := by
  apply mergeAll_of_step ?_ h htodo hnodup
  intro done a k h hk hnew
  obtain ⟨n, b, hmerge, hb⟩ := h.merge hks hk hnew
  exact ⟨some n, b, hmerge, hb⟩

theorem Linked.mem_methods_iff (h : Linked l done a) (hks : l.LinkedApart ks)
    (hdone : ∀ k ∈ done, k ∈ ks) {m : MethodKey} : m ∈ a.methods ↔ l.Among done m := by
  rw [h.grouped.mem_methods_iff]
  constructor
  · rintro ⟨_, hr, -, hm⟩
    obtain ⟨k, hk, rfl⟩ := List.mem_map.1 hr
    exact ⟨k, hk, by simpa only [methodsOf, funext h.walk] using hm⟩
  · rintro ⟨k, hk, hm⟩
    refine ⟨_, List.mem_map_of_mem hk, hks.layer k (hdone k hk), ?_⟩
    simpa only [methodsOf, funext h.walk] using hm

theorem Linked.mem_references_iff (h : Linked l done a) (hks : l.LinkedApart ks)
    (hdone : ∀ k ∈ done, k ∈ ks) {m : MethodKey} (hm : l.Among done m) (place : Text) :
    place ∈ (a.ledger.method m).references ↔ ∃ c, l.Among done c ∧ l.CalledAt m c place := by
  obtain ⟨k, hk, hmk⟩ := hm
  have hlocal := hks.references k (hdone k hk) m hmk place
  rw [h.references m (hks.known k (hdone k hk) m hmk), hlocal]
  constructor
  · rintro (⟨c, hc, hcall⟩ | ⟨-, c, hc, -, hcall⟩)
    · exact ⟨c, ⟨k, hk, hc⟩, hcall⟩
    · exact ⟨c, hc, hcall⟩
  · rintro ⟨c, ⟨j, hj, hcj⟩, hcall⟩
    by_cases hsame : (l.method c).head.definedIn = (l.method m).head.definedIn
    · rw [hks.definedIn j (hdone j hj) c hcj, hks.definedIn k (hdone k hk) m hmk] at hsame
      have hjk : j = k := List.inj_on_of_nodup_map hks.distinct (hdone j hj) (hdone k hk) hsame
      exact .inl ⟨c, hjk ▸ hcj, hcall⟩
    · exact .inr ⟨⟨k, hk, hmk⟩, c, ⟨j, hj, hcj⟩, hsame, hcall⟩

theorem Linked.nodup_references (h : Linked l done a) (hks : l.LinkedApart ks)
    (hdone : ∀ k ∈ done, k ∈ ks) {m : MethodKey} (hm : l.Among done m) :
    (a.ledger.method m).references.Nodup := by
  obtain ⟨k, hk, hmk⟩ := hm
  exact h.nodup m (hks.nodup k (hdone k hk) m hmk)

end Atlas

namespace Ledger

/-- Extracts the methods of files and enters a record for each file that has any. -/
def enterFiles (tables : RuleTables) : List SourceFile → Ledger → List RecordKey × Ledger
  | [], l => ([], l)
  | f :: fs, l =>
    let (ks, l) :=
      match f.methods tables with
      | .ok methods => l.enterRecords f { methods }
      | .error _ => ([], l)
    let (rest, l) := enterFiles tables fs l
    (ks ++ rest, l)

variable {l : Ledger} {f : SourceFile} {ts : List MethodTree} {k : RecordKey} {base : Nat}

theorem enterRecords_methods (l : Ledger) (f : SourceFile) (hts : ts ≠ []) :
    l.enterRecords f { methods := ts } =
      ([⟨l.records.length⟩], (l.enterRecord f .methods none [] ts).2) := by
  have hempty : ts.isEmpty = false := by simpa using hts
  simp only [enterRecords, enterImports, List.isEmpty_nil, if_true, hempty, Bool.false_eq_true,
    if_false, List.nil_append, enterRecord_methods]

theorem enterFiles_spec (tables : RuleTables) (files : List SourceFile) (l : Ledger) :
    l.Extends (enterFiles tables files l).2 ∧
    (∀ k ∈ (enterFiles tables files l).1, ∃ f ∈ files, ∃ ts base, f.methods tables = .ok ts ∧
      (enterFiles tables files l).2.HasMethods f ts k base) ∧
    (∀ f ∈ files, ∀ ts, f.methods tables = .ok ts → ts ≠ [] →
      ∃ k ∈ (enterFiles tables files l).1, ∃ base,
        (enterFiles tables files l).2.HasMethods f ts k base) ∧
    ((enterFiles tables files l).1.map fun k =>
      ((enterFiles tables files l).2.record k).path).Sublist
      (files.map SourceFile.path) := by
  induction files generalizing l with
  | nil => exact ⟨.refl l, by simp [enterFiles], by simp, by simp [enterFiles]⟩
  | cons f files ih =>
    by_cases hf : ∃ ts, f.methods tables = .ok ts ∧ ts ≠ []
    · obtain ⟨ts, hts, hne⟩ := hf
      have henter : enterFiles tables (f :: files) l =
          (⟨l.records.length⟩ ::
            (enterFiles tables files (l.enterRecord f .methods none [] ts).2).1,
            (enterFiles tables files (l.enterRecord f .methods none [] ts).2).2) := by
        simp only [enterFiles, hts, enterRecords_methods l f hne, List.singleton_append]
      obtain ⟨hext, hkeys, hfiles, hpaths⟩ := ih (l.enterRecord f .methods none [] ts).2
      have hfirst := (hasMethods_enterRecord l f ts).extend hext
      rw [henter]
      refine ⟨(extends_enterRecord l f ts).trans hext, ?_, ?_, ?_⟩
      · intro k hk
        rcases List.mem_cons.1 hk with rfl | hk
        · exact ⟨f, List.mem_cons_self, ts, _, hts, hfirst⟩
        · obtain ⟨g, hg, hk⟩ := hkeys k hk
          exact ⟨g, List.mem_cons_of_mem _ hg, hk⟩
      · intro g hg us hus hne
        rcases List.mem_cons.1 hg with rfl | hg
        · obtain rfl : ts = us := Except.ok.inj (hts.symm.trans hus)
          exact ⟨_, List.mem_cons_self, _, hfirst⟩
        · obtain ⟨k, hk, hk'⟩ := hfiles g hg us hus hne
          exact ⟨k, List.mem_cons_of_mem _ hk, hk'⟩
      · rw [List.map_cons, List.map_cons, hfirst.record]
        exact hpaths.cons_cons _
    · have henter : enterFiles tables (f :: files) l = enterFiles tables files l := by
        cases hts : f.methods tables with
        | error e => simp only [enterFiles, hts, List.nil_append]
        | ok ts =>
          have hnil : ts = [] := by
            by_contra hne
            exact hf ⟨ts, hts, hne⟩
          simp [enterFiles, hts, hnil, enterRecords, enterImports]
      obtain ⟨hext, hkeys, hfiles, hpaths⟩ := ih l
      rw [henter]
      refine ⟨hext, ?_, ?_, ?_⟩
      · intro k hk
        obtain ⟨g, hg, hk⟩ := hkeys k hk
        exact ⟨g, List.mem_cons_of_mem _ hg, hk⟩
      · intro g hg us hus hne
        rcases List.mem_cons.1 hg with rfl | hg
        · exact (hf ⟨us, hus, hne⟩).elim
        · exact hfiles g hg us hus hne
      · exact hpaths.cons _

theorem HasMethods.map_methodsOf {β : Type} (h : l.HasMethods f ts k base)
    (g : MethodHead → List Text → List Text → β) :
    (l.methodsOf k).map (fun m => g (l.method m).head (l.method m).calls (l.method m).references) =
      (MethodTree.walkAll ts).map fun s => g s.head s.calls s.references := by
  rw [methodsOf, h.record]
  exact h.holds.map_walk g

theorem HasMethods.exists_tree (h : l.HasMethods f ts k base) {m : MethodKey}
    (hm : m ∈ l.methodsOf k) :
    ∃ s ∈ MethodTree.walkAll ts, s.head = (l.method m).head ∧ s.calls = (l.method m).calls ∧
      s.references = (l.method m).references := by
  have hin :=
    List.mem_map_of_mem (f := fun m => ((l.method m).head, (l.method m).calls,
      (l.method m).references)) hm
  rw [h.map_methodsOf fun head calls references => (head, calls, references)] at hin
  obtain ⟨s, hs, he⟩ := List.mem_map.1 hin
  simp only [Prod.mk.injEq] at he
  exact ⟨s, hs, he⟩

theorem HasMethods.exists_method (h : l.HasMethods f ts k base) {s : MethodTree}
    (hs : s ∈ MethodTree.walkAll ts) :
    ∃ m ∈ l.methodsOf k, (l.method m).head = s.head ∧ (l.method m).calls = s.calls := by
  have hin := List.mem_map_of_mem (f := fun s => (s.head, s.calls)) hs
  rw [← h.map_methodsOf fun head calls _ => (head, calls)] at hin
  obtain ⟨m, hm, he⟩ := List.mem_map.1 hin
  simp only [Prod.mk.injEq] at he
  exact ⟨m, hm, he⟩

theorem HasMethods.known_of_mem (h : l.HasMethods f ts k base) {m : MethodKey}
    (hm : m ∈ l.methodsOf k) :
    m.index < l.methods.length := by
  have hlength := MethodTree.length_layoutAll base none ts
  have hwalk :=
    Holds.walkFromAll ts base l.methods.length none h.holds (hlength ▸ h.holds.length_le)
  rw [methodsOf, h.record] at hm
  obtain ⟨i, hi, rfl⟩ := List.mem_map.1 (hwalk ▸ hm)
  obtain ⟨j, hj, rfl⟩ := List.mem_range'.1 hi
  have hlt : j < (MethodTree.layoutAll base none ts).length := hlength ▸ hj
  simpa using (h.holds j _ (List.getElem?_eq_getElem hlt)).1

theorem linkedApart_enterFiles (tables : RuleTables) {files : List SourceFile}
    (hpaths : (files.map SourceFile.path).Nodup) (l : Ledger) :
    (enterFiles tables files l).2.LinkedApart (enterFiles tables files l).1 := by
  obtain ⟨-, hkeys, -, hsublist⟩ := enterFiles_spec tables files l
  generalize enterFiles tables files l = p at hkeys hsublist
  obtain ⟨ks, l'⟩ := p
  constructor
  · intro k hk
    obtain ⟨f, -, ts, base, -, hrecord⟩ := hkeys k hk
    rw [hrecord.record]
    exact ⟨rfl, by simp [Atlas.misplaced]⟩
  · intro k hk
    obtain ⟨f, -, ts, base, -, hrecord⟩ := hkeys k hk
    rw [hrecord.record]
  · exact hsublist.nodup hpaths
  · intro k hk m hm
    obtain ⟨f, -, ts, base, -, hrecord⟩ := hkeys k hk
    exact hrecord.known_of_mem hm
  · intro k hk m hm
    obtain ⟨f, -, ts, base, hts, hrecord⟩ := hkeys k hk
    obtain ⟨s, hs, hhead, -⟩ := hrecord.exists_tree hm
    rw [← hhead, hrecord.record]
    exact (SourceFile.methods_linked hts hs).1
  · intro k hk m hm
    obtain ⟨f, -, ts, base, hts, hrecord⟩ := hkeys k hk
    obtain ⟨s, hs, -, -, hreferences⟩ := hrecord.exists_tree hm
    exact hreferences ▸ (SourceFile.methods_linked hts hs).2.1
  · intro k hk m hm place
    obtain ⟨f, -, ts, base, hts, hrecord⟩ := hkeys k hk
    obtain ⟨s, hs, hhead, -, hreferences⟩ := hrecord.exists_tree hm
    rw [← hreferences, (SourceFile.methods_linked hts hs).2.2]
    constructor
    · rintro ⟨t, ht, hcall, rfl⟩
      obtain ⟨c, hc, hchead, hccalls⟩ := hrecord.exists_method ht
      refine ⟨c, hc, ?_, ?_⟩
      · rwa [hccalls, ← hhead]
      · rw [hchead, (SourceFile.methods_linked hts ht).1]
    · rintro ⟨c, hc, hcall, rfl⟩
      obtain ⟨t, ht, hthead, htcalls, -⟩ := hrecord.exists_tree hc
      refine ⟨t, ht, ?_, ?_⟩
      · rwa [htcalls, hhead]
      · rw [← hthead, (SourceFile.methods_linked hts ht).1]

end Ledger

namespace Atlas

theorem exists_linked {l : Ledger} {ks order : List RecordKey} (hks : l.LinkedApart ks)
    (horder : order.Perm ks) :
    ∃ a, mergeAll order { ledger := l } = (none, a) ∧ Linked l order a := by
  have hnodup : order.Nodup := horder.nodup_iff.2 (List.Nodup.of_map _ hks.distinct)
  simpa using (linked_start l).mergeAll hks (fun k hk => horder.mem_iff.1 hk)
    (by simpa using hnodup)

theorem among_enterFiles_iff (tables : RuleTables) (files : List SourceFile) (l : Ledger)
    (head : MethodHead) (calls : List Text) :
    (∃ m, (enterFiles tables files l).2.Among (enterFiles tables files l).1 m ∧
      ((enterFiles tables files l).2.method m).head = head ∧
      ((enterFiles tables files l).2.method m).calls = calls) ↔
    ∃ f ∈ files, ∃ ts, f.methods tables = .ok ts ∧ ∃ s ∈ MethodTree.walkAll ts, s.head = head ∧
      s.calls = calls := by
  obtain ⟨-, hkeys, hfiles, -⟩ := enterFiles_spec tables files l
  constructor
  · rintro ⟨m, ⟨k, hk, hm⟩, hhead, hcalls⟩
    obtain ⟨f, hf, ts, base, hts, hrecord⟩ := hkeys k hk
    obtain ⟨s, hs, hshead, hscalls, -⟩ := hrecord.exists_tree hm
    exact ⟨f, hf, ts, hts, s, hs, hshead.trans hhead, hscalls.trans hcalls⟩
  · rintro ⟨f, hf, ts, hts, s, hs, rfl, rfl⟩
    have hne : ts ≠ [] := by
      rintro rfl
      cases hs
    obtain ⟨k, hk, base, hrecord⟩ := hfiles f hf ts hts hne
    obtain ⟨m, hm, hhead, hcalls⟩ := hrecord.exists_method hs
    exact ⟨m, ⟨k, hk, hm⟩, hhead, hcalls⟩

theorem among_perm {l : Ledger} {ks order : List RecordKey} (horder : order.Perm ks)
    {m : MethodKey} :
    l.Among order m ↔ l.Among ks m :=
  exists_congr fun _ => and_congr_left fun _ => horder.mem_iff

/-- Files with different paths are entered and their records merged into an empty graph, in any
order: no merge fails, the methods in the graph are those of the files, and the references of each
are the places of the methods that call its name, each once. So they do not depend on the order. -/
theorem references_eq_inverse_of_calls (tables : RuleTables) (files : List SourceFile)
    (hpaths : (files.map SourceFile.path).Nodup) (l : Ledger) (order order' : List RecordKey)
    (horder : order.Perm (enterFiles tables files l).1)
    (horder' : order'.Perm (enterFiles tables files l).1) :
    ∃ a a', mergeAll order { ledger := (enterFiles tables files l).2 } = (none, a) ∧
      mergeAll order' { ledger := (enterFiles tables files l).2 } = (none, a') ∧
      (∀ head calls, (∃ m ∈ a.methods, (a.ledger.method m).head = head ∧
        (a.ledger.method m).calls = calls) ↔
        ∃ f ∈ files, ∃ ts, f.methods tables = .ok ts ∧
          ∃ s ∈ MethodTree.walkAll ts, s.head = head ∧ s.calls = calls) ∧
      (∀ t ∈ a.methods, (a.ledger.method t).references.Nodup ∧ ∀ place,
        place ∈ (a.ledger.method t).references ↔ ∃ c ∈ a.methods,
          (a.ledger.method t).head.name ∈ (a.ledger.method c).calls ∧
          place = (a.ledger.method c).head.definedIn ++ [':'] ++ (a.ledger.method c).head.name) ∧
      ∀ t, (t ∈ a'.methods ↔ t ∈ a.methods) ∧
        (t ∈ a.methods → ∀ place, place ∈ (a'.ledger.method t).references ↔
          place ∈ (a.ledger.method t).references) := by
  have hks := linkedApart_enterFiles tables hpaths l
  have hmethods := among_enterFiles_iff tables files l
  generalize enterFiles tables files l = p at *
  obtain ⟨ks, l⟩ := p
  obtain ⟨a, hmerge, ha⟩ := exists_linked hks horder
  obtain ⟨a', hmerge', ha'⟩ := exists_linked hks horder'
  have hdone : ∀ k ∈ order, k ∈ ks := fun k hk => horder.mem_iff.1 hk
  have hdone' : ∀ k ∈ order', k ∈ ks := fun k hk => horder'.mem_iff.1 hk
  have hmem : ∀ m, m ∈ a.methods ↔ l.Among ks m :=
    fun m => (ha.mem_methods_iff hks hdone).trans (among_perm horder)
  have hmem' : ∀ m, m ∈ a'.methods ↔ l.Among ks m := fun m =>
    (ha'.mem_methods_iff hks hdone').trans (among_perm horder')
  refine ⟨a, a', hmerge, hmerge', ?_, ?_, ?_⟩
  · intro head calls
    simp only [hmem, ha.head, ha.calls]
    exact hmethods head calls
  · intro t ht
    have hamong := (ha.mem_methods_iff hks hdone).1 ht
    refine ⟨ha.nodup_references hks hdone hamong, fun place => ?_⟩
    simp only [ha.mem_references_iff hks hdone hamong, hmem, among_perm horder, ha.head, ha.calls]
    rfl
  · intro t
    refine ⟨(hmem' t).trans (hmem t).symm, fun ht place => ?_⟩
    have hamong := (hmem t).1 ht
    rw [ha.mem_references_iff hks hdone ((among_perm horder).2 hamong),
      ha'.mem_references_iff hks hdone' ((among_perm horder').2 hamong)]
    simp only [among_perm horder, among_perm horder']

/-- Two files whose methods call each other, one of them with a method inside a method. -/
def mutualFiles : List SourceFile :=
  [⟨['p'], .python, "def f():\n    def h():\n        g()\n    g()\n".toList⟩,
    ⟨['q'], .python, "def g():\n    f()\n    h()\n".toList⟩]

def mutualLedger : Ledger :=
  (enterFiles builtinRules mutualFiles {}).2

theorem references_of_mutualFiles :
    (mutualFiles.map SourceFile.path).Nodup ∧
    [⟨1⟩, ⟨0⟩].Perm (enterFiles builtinRules mutualFiles {}).1 ∧
      ∃ a a', mergeAll [⟨0⟩, ⟨1⟩] { ledger := mutualLedger } = (none, a) ∧
        mergeAll [⟨1⟩, ⟨0⟩] { ledger := mutualLedger } = (none, a') ∧
        ⟨2⟩ ∈ a.methods ∧ (a.ledger.method ⟨2⟩).references = ["p:f".toList, "p:h".toList] ∧
        ∀ place, place ∈ (a'.ledger.method ⟨2⟩).references ↔
          place ∈ (a.ledger.method ⟨2⟩).references := by
  have hpaths : (mutualFiles.map SourceFile.path).Nodup := by decide
  have hrun : ((enterFiles builtinRules mutualFiles {}).1,
      (mergeAll [⟨0⟩, ⟨1⟩] { ledger := mutualLedger }).2.methods,
      ((mergeAll [⟨0⟩, ⟨1⟩] { ledger := mutualLedger }).2.ledger.method ⟨2⟩).references) =
        ([⟨0⟩, ⟨1⟩], [⟨0⟩, ⟨1⟩, ⟨2⟩], ["p:f".toList, "p:h".toList]) := by decide +kernel
  simp only [Prod.mk.injEq] at hrun
  obtain ⟨hkeys, hmethods, hreferences⟩ := hrun
  have horder : [⟨0⟩, ⟨1⟩].Perm (enterFiles builtinRules mutualFiles {}).1 := by rw [hkeys]
  have horder' : [⟨1⟩, ⟨0⟩].Perm (enterFiles builtinRules mutualFiles {}).1 := by
    rw [hkeys]
    exact .swap _ _ _
  obtain ⟨a, a', hmerge, hmerge', -, -, hsame⟩ :=
    references_eq_inverse_of_calls builtinRules mutualFiles hpaths {} _ _ horder horder'
  rw [← mutualLedger] at hmerge hmerge'
  rw [hmerge] at hmethods hreferences
  have hin : ⟨2⟩ ∈ a.methods := by simp [hmethods]
  exact ⟨hpaths, horder', a, a', hmerge, hmerge', hin, hreferences, (hsame ⟨2⟩).2 hin⟩

end Atlas

end DependencyAtlas
