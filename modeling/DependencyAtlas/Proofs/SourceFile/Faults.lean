import DependencyAtlas.Proofs.Pattern.Keeping
import DependencyAtlas.Proofs.SourceFile.Bodies

namespace DependencyAtlas

theorem foldlM_eq_error_iff {ε α β : Type} {f : α → β → Except ε α} {xs : List β} {start : α}
    {e : ε} :
    xs.foldlM f start = .error e ↔
      ∃ before x after a, xs = before ++ x :: after ∧ before.foldlM f start = .ok a ∧
        f a x = .error e := by
  induction xs generalizing start with
  | nil => simp [pure, Except.pure]
  | cons x xs ih =>
    rw [List.foldlM_cons]
    cases hx : f start x with
    | error e' =>
      constructor
      · intro h
        cases h
        exact ⟨[], x, xs, start, rfl, rfl, hx⟩
      · rintro ⟨before, y, after, a, heq, hbefore, hy⟩
        cases before with
        | nil =>
          cases heq
          cases hbefore
          exact hx.symm.trans hy
        | cons z before =>
          cases heq
          rw [List.foldlM_cons, hx] at hbefore
          cases hbefore
    | ok next =>
      apply ih.trans
      constructor
      · rintro ⟨before, y, after, a, rfl, hbefore, hy⟩
        refine ⟨x :: before, y, after, a, rfl, ?_, hy⟩
        rw [List.foldlM_cons, hx]
        exact hbefore
      · rintro ⟨before, y, after, a, heq, hbefore, hy⟩
        cases before with
        | nil =>
          cases heq
          cases hbefore
          exact nomatch hx.symm.trans hy
        | cons z before =>
          cases heq
          rw [List.foldlM_cons, hx] at hbefore
          exact ⟨before, y, after, a, rfl, hbefore, hy⟩

def CallsUnnamed (ms : List Matcher) (line : Text) : Prop :=
  Scope.isSignificant line = true ∧
    ∃ found, Matcher.first? ms line = some found ∧ found.kind = "call".toList ∧
      found.get? "name" = none

namespace SourceFile

/-- Behind these lines the scope of a method is open for a line that is indented by `depth`. -/
def Within (f : SourceFile) (ms : List Matcher) (before : List (Text × Nat)) (depth : Nat) : Prop :=
  ∃ earlier line later, before = earlier ++ line :: later ∧ (f.definitionOf ms line).isSome ∧
    Text.indent line.1 < depth ∧
    ∀ l ∈ later, Scope.isSignificant l.1 = true → Text.indent line.1 < Text.indent l.1

/-- Some line inside a method calls something that has no name. -/
def HasUnnamedCall (f : SourceFile) (ms : List Matcher) (lines : List (Text × Nat)) : Prop :=
  ∃ before line after, lines = before ++ line :: after ∧ CallsUnnamed ms line.1 ∧
    f.Within ms before (Text.indent line.1)

variable {f : SourceFile} {ms sms : List Matcher} {t : RuleTables}

/-- A line keeps a scope open unless it counts and is indented no deeper. -/
theorem within_concat {before : List (Text × Nat)} {line : Text × Nat} {depth : Nat} :
    f.Within ms (before ++ [line]) depth ↔
      (f.definitionOf ms line).isSome ∧ Text.indent line.1 < depth ∨
        f.Within ms before (if Scope.isSignificant line.1 then min (Text.indent line.1) depth
          else depth) := by
  constructor
  · rintro ⟨earlier, l, later, heq, hdef, hlt, hlater⟩
    rcases List.eq_nil_or_concat later with rfl | ⟨later, l', rfl⟩
    · cases (List.append_inj' heq rfl).2
      exact .inl ⟨hdef, hlt⟩
    · rw [List.concat_eq_append] at heq hlater
      rw [← List.cons_append, ← List.append_assoc] at heq
      obtain ⟨rfl, hline⟩ := List.append_inj' heq rfl
      cases hline
      refine .inr ⟨earlier, l, later, rfl, hdef, ?_,
        fun z hz => hlater z (List.mem_append_left _ hz)⟩
      split
      · next hsig =>
          exact Nat.lt_min.2 ⟨hlater line (List.mem_append_right _ List.mem_cons_self) hsig, hlt⟩
      · exact hlt
  · rintro (⟨hdef, hlt⟩ | ⟨earlier, l, later, rfl, hdef, hlt, hlater⟩)
    · exact ⟨before, line, [], rfl, hdef, hlt, fun l hl => nomatch hl⟩
    · refine ⟨earlier, l, later ++ [line], by simp, hdef, ?_, ?_⟩
      · split at hlt
        · exact (Nat.lt_min.1 hlt).2
        · exact hlt
      · intro z hz hsig
        rcases List.mem_append.1 hz with hz | hz
        · exact hlater z hz hsig
        · cases List.mem_singleton.1 hz
          rw [if_pos hsig] at hlt
          exact (Nat.lt_min.1 hlt).1

end SourceFile

namespace MethodScan

variable {f : SourceFile} {ms : List Matcher} {scan scan' : MethodScan} {line : Text × Nat}
  {depth : Nat}

def OpensBelow (scan : MethodScan) (depth : Nat) : Prop :=
  ∃ m ∈ scan.scopes.map OpenScope.mark, m.1 < depth

theorem opensBelow_close (depth' : Nat) :
    (scan.close depth').OpensBelow depth ↔ scan.OpensBelow (min depth' depth) := by
  rw [OpensBelow, OpensBelow, marks_close]
  generalize scan.scopes.map OpenScope.mark = marks
  induction marks with
  | nil => simp
  | cons m marks ih =>
    rw [List.dropWhile_cons]
    split
    · next hle =>
      have hnot : ¬m.1 < min depth' depth := by
        have hm := of_decide_eq_true hle
        omega
      rw [ih]
      constructor
      · rintro ⟨n, hn, hlt⟩
        exact ⟨n, List.mem_cons_of_mem _ hn, hlt⟩
      · rintro ⟨n, hn, hlt⟩
        rcases List.mem_cons.1 hn with rfl | hn
        · exact (hnot hlt).elim
        · exact ⟨n, hn, hlt⟩
    · next hle =>
      have hm : m.1 < depth' := Nat.lt_of_not_le (mt decide_eq_true hle)
      constructor
      · rintro ⟨n, hn, hlt⟩
        -- a scope that stays may be indented by `depth'` or more, but then the one on top will do
        by_cases hn' : n.1 < depth'
        · exact ⟨n, hn, Nat.lt_min.2 ⟨hn', hlt⟩⟩
        · exact ⟨m, List.mem_cons_self, Nat.lt_min.2 ⟨hm, by omega⟩⟩
      · rintro ⟨n, hn, hlt⟩
        exact ⟨n, hn, (Nat.lt_min.1 hlt).2⟩

theorem close_eq_nil_iff : (scan.close depth).scopes = [] ↔ ¬scan.OpensBelow depth := by
  rw [← List.map_eq_nil_iff (f := OpenScope.mark), marks_close, List.dropWhile_eq_nil_iff,
    OpensBelow]
  simp only [decide_eq_true_eq, not_exists, not_and, Nat.not_lt]

theorem Reads.opensBelow (h : Reads f ms scan line scan') :
    scan'.OpensBelow depth ↔
      (f.definitionOf ms line).isSome ∧ Text.indent line.1 < depth ∨
        scan.OpensBelow (if Scope.isSignificant line.1 then min (Text.indent line.1) depth
          else depth) := by
  cases h with
  | pass hsig =>
    rw [SourceFile.definitionOf]
    simp [hsig]
  | define hsig hdef =>
    rw [if_pos hsig, ← opensBelow_close, hdef]
    simp [OpensBelow, OpenScope.mark]
  | outside hsig hdef hclosed =>
    rw [if_pos hsig, ← opensBelow_close, hdef]
    simp
  | @call s rest names hsig hdef hopen hcallees =>
    rw [if_pos hsig, ← opensBelow_close, hdef, OpensBelow, marks_addCalls]
    simp [OpensBelow]

theorem opensBelow_iff_within {lines : List (Text × Nat)}
    (h : lines.foldlM (step f ms) {} = .ok scan) :
    scan.OpensBelow depth ↔ f.Within ms lines depth := by
  induction lines using List.reverseRecOn generalizing scan depth with
  | nil =>
    cases h
    simp [OpensBelow, SourceFile.Within]
  | append_singleton lines line ih =>
    rw [List.foldlM_append] at h
    cases hbefore : lines.foldlM (step f ms) {} with
    | error e =>
      rw [hbefore] at h
      cases h
    | ok scan₁ =>
      rw [hbefore] at h
      cases hstep : scan₁.step f ms line with
      | error e => simp [hstep, bind, Except.bind] at h
      | ok scan₂ =>
        simp only [List.foldlM_cons, List.foldlM_nil, hstep, bind, Except.bind, pure, Except.pure,
          Except.ok.injEq] at h
        subst h
        rw [(reads_of_step hstep).opensBelow, ih hbefore, SourceFile.within_concat]

theorem callees_eq_error_iff {line : Text} {e : ExtractError} :
    callees (Matcher.first? ms line) line = .error e ↔
      e = .unnamedCall ∧
        ∃ found, Matcher.first? ms line = some found ∧ found.kind = "call".toList ∧
          found.get? "name" = none := by
  cases hfound : Matcher.first? ms line with
  | none => simp [callees]
  | some found =>
    rw [callees]
    by_cases hkind : found.kind = "call".toList
    · rw [if_pos hkind]
      cases hname : found.get? "name" with
      | none => simp [hkind, hname, eq_comm]
      | some name => simp [hname]
    · rw [if_neg hkind]
      simp only [reduceCtorEq, Option.some.injEq, exists_eq_left', hkind, false_and, and_false]

theorem step_eq_error_iff {e : ExtractError} :
    scan.step f ms line = .error e ↔
      e = .unnamedCall ∧ CallsUnnamed ms line.1 ∧ scan.OpensBelow (Text.indent line.1) := by
  rw [step]
  by_cases hsig : Scope.isSignificant line.1 = true
  · rw [if_pos hsig]
    cases hdef : (Matcher.first? ms line.1).bind (definition? f (line.2 + 1)) with
    | some head =>
      -- the rule is one for definitions, hence none for calls
      obtain ⟨found, hfound, hhead⟩ := Option.bind_eq_some_iff.1 hdef
      obtain ⟨hkind, -⟩ := definition?_eq_some hhead
      simp only [hdef]
      constructor
      · intro h
        cases h
      · rintro ⟨-, ⟨-, found', hfound', hcall, -⟩, -⟩
        cases hfound.symm.trans hfound'
        exact absurd (hkind.symm.trans hcall) (by decide)
    | none =>
      simp only [hdef]
      by_cases hopen : (scan.close (Text.indent line.1)).scopes = []
      · simp only [hopen, List.isEmpty_nil, if_true, reduceCtorEq, close_eq_nil_iff.1 hopen,
          and_false]
      · have hbelow := Classical.not_not.1 (mt close_eq_nil_iff.2 hopen)
        rw [if_neg (mt List.isEmpty_iff.1 hopen)]
        simp only [CallsUnnamed, hsig, hbelow, true_and, and_true]
        rw [← callees_eq_error_iff]
        cases callees (Matcher.first? ms line.1) line.1 <;> simp [Except.map]
  · rw [if_neg hsig]
    simp only [reduceCtorEq, CallsUnnamed, hsig, false_and, and_false]

end MethodScan

namespace SourceFile

variable {f : SourceFile} {ms sms : List Matcher} {t : RuleTables}

theorem scanMethods_eq_error_iff {lines : List (Text × Nat)} {e : ExtractError} :
    f.scanMethods ms lines = .error e ↔ e = .unnamedCall ∧ f.HasUnnamedCall ms lines := by
  have hscan : f.scanMethods ms lines = .error e ↔
      lines.foldlM (MethodScan.step f ms) {} = .error e := by
    rw [scanMethods]
    cases lines.foldlM (MethodScan.step f ms) {} <;> simp [bind, Except.bind, pure, Except.pure]
  rw [hscan]
  constructor
  · intro h
    obtain ⟨before, line, after, scan, rfl, hbefore, hstep⟩ := foldlM_eq_error_iff.1 h
    obtain ⟨rfl, hcall, hopen⟩ := MethodScan.step_eq_error_iff.1 hstep
    exact ⟨rfl, before, line, after, rfl, hcall, (MethodScan.opensBelow_iff_within hbefore).1 hopen⟩
  · rintro ⟨rfl, before, line, after, rfl, hcall, hwithin⟩
    rw [List.foldlM_append]
    cases hbefore : before.foldlM (MethodScan.step f ms) {} with
    | error e =>
      -- an earlier line fails, and that for the same reason
      obtain ⟨_, _, _, _, -, -, hstep⟩ := foldlM_eq_error_iff.1 hbefore
      obtain ⟨rfl, -⟩ := MethodScan.step_eq_error_iff.1 hstep
      rfl
    | ok scan =>
      have hstep : scan.step f ms line = .error .unnamedCall := MethodScan.step_eq_error_iff.2
        ⟨rfl, hcall, (MethodScan.opensBelow_iff_within hbefore).2 hwithin⟩
      simp only [bind, Except.bind, List.foldlM_cons, hstep]

theorem methods_eq_error_iff (hms : f.matchers t .methods = .ok ms) {e : ExtractError} :
    f.methods t = .error e ↔ e = .unnamedCall ∧ f.HasUnnamedCall ms (Text.lines f.text).zipIdx := by
  rw [← scanMethods_eq_error_iff, methods, hms]
  simp only [bind, Except.bind]
  cases f.scanMethods ms (Text.lines f.text).zipIdx <;> simp [pure, Except.pure]

/-- Why the structure that a line declares cannot be extracted. -/
inductive Flaw (f : SourceFile) (ms : List Matcher) (lines : List Text)
    (declared : List DeclaredStructure) (d : DeclaredStructure) : ExtractError → Prop where
  | unnamed :
      d.found.get? "name" = none →
      Flaw f ms lines declared d (.unnamedStructure f.path (d.first + 1))
  | call :
      d.found.get? "name" ≠ none →
      f.HasUnnamedCall ms (lines.zipIdx.filter fun l => DeclaredStructure.owns declared d l.2) →
      Flaw f ms lines declared d .unnamedCall

/-- The flaw of the first declared structure that has one. -/
def FirstFlaw (f : SourceFile) (ms : List Matcher) (lines : List Text)
    (declared : List DeclaredStructure) (e : ExtractError) : Prop :=
  ∃ before d after, declared = before ++ d :: after ∧
    (∀ b ∈ before, ∀ e, ¬f.Flaw ms lines declared b e) ∧
    f.Flaw ms lines declared d e

theorem head_eq_error_iff {d : DeclaredStructure} {e : ExtractError} :
    d.head f = .error e ↔ d.found.get? "name" = none ∧
    e = .unnamedStructure f.path (d.first + 1) := by
  rw [DeclaredStructure.head]
  cases d.found.get? "name" <;> simp [eq_comm]

theorem extract_eq_error_iff {lines : List Text} {declared : List DeclaredStructure}
    {d : DeclaredStructure} {e : ExtractError} (hms : f.matchers t .methods = .ok ms) :
    d.extract f t lines declared = .error e ↔ f.Flaw ms lines declared d e := by
  rw [DeclaredStructure.extract, hms]
  cases hhead : d.head f with
  | error e' =>
    obtain ⟨hname, rfl⟩ := head_eq_error_iff.1 hhead
    constructor
    · intro h
      cases h
      exact .unnamed hname
    · rintro (_ | ⟨hnamed, -⟩)
      · rfl
      · exact (hnamed hname).elim
  | ok head =>
    have hnamed : d.found.get? "name" ≠ none := by
      intro hname
      cases hhead.symm.trans (head_eq_error_iff.2 ⟨hname, rfl⟩)
    have hflaw : f.Flaw ms lines declared d e ↔
        f.scanMethods ms (lines.zipIdx.filter fun l => DeclaredStructure.owns declared d l.2) =
          .error e := by
      rw [scanMethods_eq_error_iff]
      constructor
      · rintro (hname | ⟨-, hcall⟩)
        · exact (hnamed hname).elim
        · exact ⟨rfl, hcall⟩
      · rintro ⟨rfl, hcall⟩
        exact .call hnamed hcall
    rw [hflaw]
    simp only [bind, Except.bind]
    cases f.scanMethods ms (lines.zipIdx.filter fun l => DeclaredStructure.owns declared d l.2) <;>
      simp [pure, Except.pure]

theorem structures_eq_error_iff (hsms : f.matchers t .structures = .ok sms)
    (hms : f.matchers t .methods = .ok ms) {e : ExtractError} :
    f.structures t = .error e ↔ f.FirstFlaw ms (Text.lines f.text)
    (declaredStructures sms (Text.lines f.text)) e := by
  have hok (b : DeclaredStructure) :
      (∃ s, b.extract f t (Text.lines f.text) (declaredStructures sms (Text.lines f.text)) =
        .ok s) ↔
        ∀ e, ¬f.Flaw ms (Text.lines f.text) (declaredStructures sms (Text.lines f.text)) b e := by
    simp only [← extract_eq_error_iff hms]
    cases b.extract f t (Text.lines f.text) (declaredStructures sms (Text.lines f.text)) <;> simp
  rw [structures, hsms]
  apply mapM_eq_error_iff.trans
  simp only [hok, extract_eq_error_iff hms]
  rfl

theorem badPattern_of_matchers {layer : Layer} {e : ExtractError}
    (h : f.matchers t layer = .error e) :
    ∃ p, e = .badPattern p := by
  rw [SourceFile.matchers] at h
  cases hms : t.matchers f.language layer with
  | error p =>
    rw [hms] at h
    cases h
    exact ⟨p, rfl⟩
  | ok ms =>
    rw [hms] at h
    cases h

theorem badPattern_of_imports {e : ExtractError} (h : f.imports t = .error e) :
    ∃ p, e = .badPattern p := by
  cases hms : f.matchers t .modules with
  | error e' =>
    rw [imports, hms] at h
    cases h
    exact badPattern_of_matchers hms
  | ok ms =>
    obtain ⟨targets, htargets⟩ := imports_of_matchers hms
    cases htargets.symm.trans h

theorem methods_ne_unnamedStructure {path : Text} {line : Nat} :
    f.methods t ≠ .error (.unnamedStructure path line) := by
  intro h
  cases hms : f.matchers t .methods with
  | error e =>
    obtain ⟨p, rfl⟩ := badPattern_of_matchers hms
    rw [methods, hms] at h
    cases h
  | ok ms =>
    obtain ⟨hcall, -⟩ := (methods_eq_error_iff hms).1 h
    cases hcall

end SourceFile

def ifWanted {α : Type} (wanted : Bool) (found : Except ExtractError (List α)) :
    Except ExtractError (List α) :=
  if wanted then found else .ok []

theorem ifWanted_eq_error_iff {α : Type} {wanted : Bool} {found : Except ExtractError (List α)}
    {e : ExtractError} :
    ifWanted wanted found = .error e ↔ wanted = true ∧ found = .error e := by
  cases wanted <;> simp [ifWanted]

namespace SourceFile

/-- How the extraction of the wanted layers can go: the first that fails, fails it. -/
inductive Recorded (f : SourceFile) (t : RuleTables) (layers : LayerChoice) (explain : Bool) :
    Except ExtractError FileRecords → Prop where
  | imports {e : ExtractError} :
      ifWanted layers.modules (f.imports t) = .error e → Recorded f t layers explain (.error e)
  | structures {imports : List Text} {e : ExtractError} :
      ifWanted layers.modules (f.imports t) = .ok imports →
      ifWanted layers.structures (f.explainedStructures t explain) = .error e →
      Recorded f t layers explain (.error e)
  | methods {imports : List Text} {structures : List StructureTree} {e : ExtractError} :
      ifWanted layers.modules (f.imports t) = .ok imports →
      ifWanted layers.structures (f.explainedStructures t explain) = .ok structures →
      ifWanted layers.methods (f.methods t) = .error e → Recorded f t layers explain (.error e)
  | all {imports : List Text} {structures : List StructureTree} {methods : List MethodTree} :
    ifWanted layers.modules (f.imports t) = .ok imports →
    ifWanted layers.structures (f.explainedStructures t explain) = .ok structures →
    ifWanted layers.methods (f.methods t) = .ok methods →
    Recorded f t layers explain (.ok { imports, structures, methods })

theorem records_eq (f : SourceFile) (t : RuleTables) (layers : LayerChoice) (explain : Bool) :
    f.records t layers explain = do
      let imports ← ifWanted layers.modules (f.imports t)
      let structures ← ifWanted layers.structures (f.explainedStructures t explain)
      let methods ← ifWanted layers.methods (f.methods t)
      return { imports, structures, methods } := by
  obtain ⟨modules, structures, methods⟩ := layers
  cases modules <;> cases structures <;> cases methods <;> rfl

theorem recorded_of_records {f : SourceFile} {t : RuleTables} {layers : LayerChoice}
    {explain : Bool} {found : Except ExtractError FileRecords}
    (h : f.records t layers explain = found) :
    Recorded f t layers explain found := by
  rw [← h, records_eq]
  cases himports : ifWanted layers.modules (f.imports t) with
  | error e => exact .imports himports
  | ok imports =>
    cases hstructures : ifWanted layers.structures (f.explainedStructures t explain) with
    | error e => exact .structures himports hstructures
    | ok structures =>
      cases hmethods : ifWanted layers.methods (f.methods t) with
      | error e => exact .methods himports hstructures hmethods
      | ok methods => exact .all himports hstructures hmethods

theorem imports_ne_nil_of_records {f : SourceFile} {t : RuleTables} {layers : LayerChoice}
    {explain : Bool} {r : FileRecords} (h : f.records t layers explain = .ok r) :
    ∀ target ∈ r.imports, target ≠ [] := by
  cases recorded_of_records h with
  | all himports _ _ =>
    cases hwanted : layers.modules with
    | false =>
      rw [hwanted] at himports
      cases himports
      exact fun _ ht => nomatch ht
    | true =>
      rw [hwanted] at himports
      exact ne_nil_of_mem_imports himports

end SourceFile

namespace RuleTables

/-- Every pattern of the tables can be read. -/
def Readable (t : RuleTables) : Prop :=
  ∀ language layer, ∀ r ∈ t.rules language layer, r.fault? = none

/-- No rule for calls matches a line that counts without capturing what is called. -/
def NamesCalls (t : RuleTables) : Prop :=
  ∀ language ms, t.matchers language .methods = .ok ms → ∀ line, ¬CallsUnnamed ms line

theorem namesCalls_of_names {t : RuleTables}
    (h : ∀ language, (t.matchers language .methods).toOption.all (·.all (Matcher.names .methods)) =
      true) :
    t.NamesCalls := by
  rintro language ms hms line ⟨-, found, hfound, hkind, hname⟩
  have hnames := h language
  rw [hms] at hnames
  obtain ⟨name, hget⟩ := Matcher.get?_name_of_call (List.all_eq_true.1 hnames) hfound hkind
  exact nomatch hname.symm.trans hget

theorem Readable.matchers {t : RuleTables} (h : t.Readable) (language : Language) (layer : Layer) :
    ∃ ms, t.matchers language layer = .ok ms := by
  cases hms : t.matchers language layer with
  | ok ms => exact ⟨ms, rfl⟩
  | error e =>
    obtain ⟨r, hr, hbad⟩ := exists_firstFault_iff.1 ⟨e, matchers_eq_error_iff.1 hms⟩
    exact (hbad (h language layer r hr)).elim

end RuleTables

namespace SourceFile

variable {f : SourceFile} {t : RuleTables} {layers : LayerChoice} {explain : Bool}
  {e : ExtractError}

theorem matchers_of_readable (h : t.Readable) (f : SourceFile) (layer : Layer) :
    ∃ ms, f.matchers t layer = .ok ms := by
  obtain ⟨ms, hms⟩ := h.matchers f.language layer
  refine ⟨ms, ?_⟩
  rw [SourceFile.matchers, hms]
  rfl

theorem imports_of_readable (h : t.Readable) (f : SourceFile) :
    ∃ targets, f.imports t = .ok targets := by
  obtain ⟨ms, hms⟩ := matchers_of_readable h f .modules
  exact imports_of_matchers hms

theorem not_hasUnnamedCall (h : t.NamesCalls) {ms : List Matcher}
    (hms : f.matchers t .methods = .ok ms) (lines : List (Text × Nat)) :
    ¬f.HasUnnamedCall ms lines := by
  rintro ⟨before, line, after, -, hcall, -⟩
  cases htable : t.matchers f.language .methods with
  | error p =>
    rw [SourceFile.matchers, htable] at hms
    cases hms
  | ok ms' =>
    rw [SourceFile.matchers, htable] at hms
    cases hms
    exact h f.language ms htable line.1 hcall

theorem structures_of_explainedStructures (h : t.Readable)
    (hfail : f.explainedStructures t explain = .error e) :
    f.structures t = .error e := by
  obtain ⟨targets, htargets⟩ := imports_of_readable h f
  have hresolve (heads : List StructureHead) : ∃ p, f.resolve t heads = .ok p := by
    rw [resolve, htargets]
    split
    · exact ⟨_, rfl⟩
    · exact ⟨_, rfl⟩
  rw [explainedStructures] at hfail
  cases hfound : f.structures t with
  | error e' =>
    rw [hfound] at hfail
    cases hfail
    rfl
  | ok found =>
    rw [hfound] at hfail
    obtain ⟨p, hp⟩ := hresolve (found.map (·.head))
    cases explain with
    | false => cases hfail
    | true => simp [bind, Except.bind, hp, pure, Except.pure] at hfail

theorem error_of_structures (h : t.Readable) (hfail : f.structures t = .error e) :
    (∃ line, e = .unnamedStructure f.path line) ∨ e = .unnamedCall ∧ ¬t.NamesCalls := by
  obtain ⟨sms, hsms⟩ := matchers_of_readable h f .structures
  obtain ⟨ms, hms⟩ := matchers_of_readable h f .methods
  obtain ⟨before, d, after, -, -, hflaw⟩ := (structures_eq_error_iff hsms hms).1 hfail
  cases hflaw with
  | unnamed _ => exact .inl ⟨_, rfl⟩
  | call _ hcall => exact .inr ⟨rfl, fun hcalls => not_hasUnnamedCall hcalls hms _ hcall⟩

theorem error_of_methods (h : t.Readable) (hfail : f.methods t = .error e) :
    e = .unnamedCall ∧ ¬t.NamesCalls := by
  obtain ⟨ms, hms⟩ := matchers_of_readable h f .methods
  obtain ⟨rfl, hcall⟩ := (methods_eq_error_iff hms).1 hfail
  exact ⟨rfl, fun hcalls => not_hasUnnamedCall hcalls hms _ hcall⟩

theorem error_of_records (h : t.Readable) (hfail : f.records t layers explain = .error e) :
    (∃ line, e = .unnamedStructure f.path line) ∨ e = .unnamedCall ∧ ¬t.NamesCalls := by
  cases recorded_of_records hfail with
  | imports himports =>
    obtain ⟨targets, htargets⟩ := imports_of_readable h f
    exact nomatch htargets.symm.trans (ifWanted_eq_error_iff.1 himports).2
  | structures _ hstructures =>
    exact error_of_structures h (structures_of_explainedStructures h
      (ifWanted_eq_error_iff.1 hstructures).2)
  | methods _ _ hmethods => exact .inr (error_of_methods h (ifWanted_eq_error_iff.1 hmethods).2)

end SourceFile

end DependencyAtlas
