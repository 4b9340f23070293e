import DependencyAtlas.Crawl.FileRecords
import DependencyAtlas.Proofs.Pattern.Captures
import DependencyAtlas.Proofs.Text.Trim
import DependencyAtlas.Proofs.Text.Word
import DependencyAtlas.Rules

namespace DependencyAtlas

namespace CharSet

/-- No character of the set is blank, as can be seen from its items. -/
def visible (s : CharSet) : Bool :=
  !s.negated && s.items.all fun
    | .char c => !Text.isBlank c
    | .word | .notBlank => true
    | _ => false

theorem isBlank_of_visible {s : CharSet} {c : Char} (h : s.visible = true)
    (hc : s.contains c = true) :
    Text.isBlank c = false := by
  obtain ⟨hneg, hitems⟩ := Bool.and_eq_true_iff.1 h
  have hplain : s.negated = false := by simpa using hneg
  rw [contains, hplain, Bool.bne_false] at hc
  obtain ⟨i, hi, hholds⟩ := List.any_eq_true.1 hc
  have hvisible := List.all_eq_true.1 hitems i hi
  cases i with
  | char d =>
    rw [eq_of_beq hholds]
    simpa using hvisible
  | word => exact Text.isBlank_eq_false_of_isWord hholds
  | notBlank => simpa [CharItem.holds] using hholds
  | _ => cases hvisible

end CharSet

namespace Matcher

theorem ne_nil_of_get? {m : Matcher} {line : Text} {found : Finding} {name : String} {t : Text}
    (h : m.find? line = some found) (ht : found.get? name = some t) : t ≠ [] := by
  obtain ⟨captures, -, rfl⟩ := Option.map_eq_some_iff.1 h
  obtain ⟨l, r, hgroups, -⟩ := List.lookup_eq_some_iff.1 ht
  have hmem := List.mem_append_right l (List.mem_cons_self (a := (name.toList, t)) (l := r))
  rw [← hgroups] at hmem
  simpa using (List.mem_filter.1 hmem).2

/-- A capture that does not come out blank is found. -/
theorem lookup_trimmed {captures : Captures} {name w : Text} (h : captures.lookup name = some w)
    (hw : Text.trim w ≠ []) :
    ((captures.map fun (n, t) => (n, Text.trim t)).filter fun g => g.2 ≠ []).lookup name =
      some (Text.trim w) := by
  induction captures with
  | nil => cases h
  | cons c captures ih =>
    obtain ⟨n, t⟩ := c
    rw [List.lookup_cons] at h
    rw [List.map_cons]
    cases hn : name == n with
    | true =>
      rw [hn] at h
      cases h
      rw [List.filter_cons_of_pos (by simpa using hw), List.lookup_cons, hn]
    | false =>
      rw [hn] at h
      by_cases ht : Text.trim t = []
      · rw [List.filter_cons_of_neg (by simpa using ht)]
        exact ih h
      · rw [List.filter_cons_of_pos (by simpa using ht), List.lookup_cons, hn]
        exact ih h

/-- A rule that captures a visible name wherever the extraction needs one: on structures and on
calls. -/
def names (layer : Layer) (m : Matcher) : Bool :=
  layer == .modules || (layer == .methods && m.kind != "call".toList) ||
    (m.pattern.binds nameCapture && m.pattern.bindsOnly CharSet.visible nameCapture)

theorem get?_name_of_pattern {m : Matcher} {line : Text} {found : Finding}
    (hm : (m.pattern.binds nameCapture && m.pattern.bindsOnly CharSet.visible nameCapture) = true)
    (h : m.find? line = some found) : ∃ t, found.get? "name" = some t := by
  obtain ⟨hb, ho⟩ := Bool.and_eq_true_iff.1 hm
  obtain ⟨captures, hcaptures, rfl⟩ := Option.map_eq_some_iff.1 h
  obtain ⟨w, hw, c, hc, set, hset, hcontains⟩ := Pattern.lookup_of_match? _ _ hcaptures hb ho
  exact ⟨_, lookup_trimmed hw (Text.trim_ne_nil hc (CharSet.isBlank_of_visible hset hcontains))⟩

theorem exists_of_first? {ms : List Matcher} {line : Text} {found : Finding}
    (h : first? ms line = some found) :
    ∃ m ∈ ms, m.find? line = some found :=
  List.exists_of_findSome?_eq_some h

theorem get?_name_of_call {ms : List Matcher} {line : Text} {found : Finding}
    (hms : ∀ m ∈ ms, m.names .methods = true) (h : first? ms line = some found)
    (hkind : found.kind = "call".toList) : ∃ name, found.get? "name" = some name := by
  obtain ⟨m, hm, hfind⟩ := exists_of_first? h
  have hcall : m.kind = found.kind := by
    obtain ⟨captures, -, rfl⟩ := Option.map_eq_some_iff.1 hfind
    rfl
  have hnames := hms m hm
  rw [names, hcall, hkind] at hnames
  exact get?_name_of_pattern hnames hfind

end Matcher

/-- A computation answers, and what it answers satisfies `Q`. -/
def Answers {ε α : Type} (x : Except ε α) (Q : α → Prop) : Prop :=
  ∃ a, x = .ok a ∧ Q a

namespace Answers

variable {ε α β : Type} {P : α → Prop} {Q : β → Prop}

theorem ok {a : α} (h : P a) : Answers (.ok a : Except ε α) P :=
  ⟨a, rfl, h⟩

theorem bind {x : Except ε α} {f : α → Except ε β} (hx : Answers x P)
    (hf : ∀ a, P a → Answers (f a) Q) :
    Answers (x >>= f) Q := by
  obtain ⟨a, rfl, ha⟩ := hx
  exact hf a ha

theorem choose {b : Prop} [Decidable b] {x y : Except ε α} {f : α → Except ε β} (hx : Answers x P)
    (hy : Answers y P) (hf : ∀ a, P a → Answers (f a) Q) :
    Answers (if b then x >>= f else y >>= f) Q := by
  split
  · exact hx.bind hf
  · exact hy.bind hf

theorem mapM {f : α → Except ε β} {xs : List α} (h : ∀ x ∈ xs, Answers (f x) Q) :
    Answers (xs.mapM f) fun ys => ∀ y ∈ ys, Q y := by
  induction xs with
  | nil => exact .ok (fun y hy => nomatch hy)
  | cons x xs ih =>
    rw [List.mapM_cons]
    refine (h x List.mem_cons_self).bind fun y hy => ?_
    refine (ih fun z hz => h z (List.mem_cons_of_mem _ hz)).bind fun ys hys => ?_
    exact .ok (List.forall_mem_cons.2 ⟨hy, hys⟩)

theorem foldlM {f : β → α → Except ε β} (h : ∀ b a, Answers (f b a) fun _ => True) (xs : List α)
    (b : β) :
    Answers (xs.foldlM f b) fun _ => True := by
  induction xs generalizing b with
  | nil => exact .ok trivial
  | cons x xs ih =>
    rw [List.foldlM_cons]
    exact (h b x).bind fun b' _ => ih b'

end Answers

namespace Rule

/-- A rule whose pattern is given and that names what it finds. -/
def names (layer : Layer) (r : Rule) : Bool :=
  match r.source with
  | .given p => Matcher.names layer ⟨r.kind, p⟩
  | .written _ => false

/-- A rule whose pattern is given, and that is read as a rule of a kind. -/
def gives (ok : Matcher → Bool) (r : Rule) : Bool :=
  match r.source with
  | .given p => ok ⟨r.kind, p⟩
  | .written _ => false

end Rule

namespace RuleTables

/-- All rules of the tables name what they find. -/
def Named (t : RuleTables) : Prop :=
  ∀ language layer, ∀ r ∈ t.rules language layer, r.names layer = true

theorem answers_of_gives {t : RuleTables} {language : Language} {layer : Layer}
    {ok : Matcher → Bool} (h : ∀ r ∈ t.rules language layer, r.gives ok = true) :
    Answers (t.matchers language layer) fun ms => ∀ m ∈ ms, ok m = true := by
  apply Answers.mapM
  intro r hr
  have hgives := h r hr
  obtain ⟨kind, source⟩ := r
  cases source with
  | given p => exact .ok hgives
  | written s => cases hgives

theorem Named.matchers {t : RuleTables} (h : t.Named) (language : Language) (layer : Layer) :
    Answers (t.matchers language layer) fun ms => ∀ m ∈ ms, m.names layer = true :=
  answers_of_gives (h language layer)

theorem named_builtinRules : builtinRules.Named := by
  intro language layer
  cases language <;> cases layer <;> decide +kernel

end RuleTables

namespace SourceFile

variable {t : RuleTables} {ms : List Matcher}

theorem answers_matchers_of {f : SourceFile} {layer : Layer} {P : List Matcher → Prop}
    (h : Answers (t.matchers f.language layer) P) : Answers (f.matchers t layer) P := by
  obtain ⟨ms, hms, hP⟩ := h
  rw [SourceFile.matchers, hms]
  exact .ok hP

theorem answers_matchers (h : t.Named) (f : SourceFile) (layer : Layer) :
    Answers (f.matchers t layer) fun ms => ∀ m ∈ ms, m.names layer = true :=
  answers_matchers_of (h.matchers f.language layer)

theorem answers_callees (hms : ∀ m ∈ ms, m.names .methods = true) (line : Text) :
    Answers (callees (Matcher.first? ms line) line) fun _ => True := by
  cases hfound : Matcher.first? ms line with
  | none => exact .ok trivial
  | some found =>
    by_cases hkind : found.kind = "call".toList
    · obtain ⟨name, hname⟩ := Matcher.get?_name_of_call hms hfound hkind
      simp only [callees, hkind, if_true, hname]
      exact .ok trivial
    · simp only [callees, hkind, if_false]
      exact .ok trivial

theorem answers_step (hms : ∀ m ∈ ms, m.names .methods = true) (f : SourceFile) (scan : MethodScan)
    (line : Text × Nat) : Answers (MethodScan.step f ms scan line) fun _ => True := by
  unfold MethodScan.step
  split
  · dsimp only
    split
    · exact .ok trivial
    · split
      · exact .ok trivial
      · obtain ⟨names, hnames, -⟩ := answers_callees hms line.1
        rw [hnames]
        exact .ok trivial
  · exact .ok trivial

theorem answers_scanMethods (hms : ∀ m ∈ ms, m.names .methods = true) (f : SourceFile)
    (lines : List (Text × Nat)) :
    Answers (f.scanMethods ms lines) fun _ => True :=
  (Answers.foldlM (answers_step hms f) lines {}).bind fun _ _ => .ok trivial

theorem answers_methods (h : t.Named) (f : SourceFile) : Answers (f.methods t) fun _ => True :=
  (answers_matchers h f .methods).bind fun _ hms => (answers_scanMethods hms f _).bind fun _ _ =>
    .ok trivial

theorem ne_nil_of_importTarget? {line target : Text} (h : importTarget? ms line = some target) :
    target ≠ [] := by
  obtain ⟨found, hfound, htarget⟩ := Option.bind_eq_some_iff.1 h
  obtain ⟨m, -, hfind⟩ := Matcher.exists_of_first? hfound
  exact Matcher.ne_nil_of_get? hfind htarget

theorem ne_nil_of_groupLine {line target : Text}
    (h : (Rules.Go.groupLine.match? line).bind (·.lookup "target".toList) = some target) :
    target ≠ [] := by
  obtain ⟨captures, hcaptures, htarget⟩ := Option.bind_eq_some_iff.1 h
  obtain ⟨w, hw, c, hc, -⟩ :=
    Pattern.lookup_of_match? (fun _ => true) "target".toList hcaptures (by decide +kernel)
    (by decide +kernel)
  rw [hw] at htarget
  cases htarget
  exact List.ne_nil_of_mem hc

theorem ne_nil_of_mem_goImports {grouped : Bool} {lines : List Text} {target : Text}
    (h : target ∈ goImports ms grouped lines) : target ≠ [] := by
  induction lines generalizing grouped with
  | nil => cases grouped <;> cases h
  | cons line rest ih =>
    cases grouped with
    | true =>
      rw [goImports] at h
      split at h
      · exact ih h
      · rcases List.mem_append.1 h with h | h
        · exact ne_nil_of_groupLine (Option.mem_toList.1 h)
        · exact ih h
    | false =>
      rw [goImports] at h
      split at h
      · exact ih h
      · rcases List.mem_append.1 h with h | h
        · exact ne_nil_of_importTarget? (Option.mem_toList.1 h)
        · exact ih h

theorem imports_of_matchers {f : SourceFile} (hms : f.matchers t .modules = .ok ms) :
    ∃ targets, f.imports t = .ok targets := by
  rw [imports, hms]
  exact ⟨_, rfl⟩

theorem ne_nil_of_mem_imports {f : SourceFile} {targets : List Text}
    (h : f.imports t = .ok targets) :
    ∀ target ∈ targets, target ≠ [] := by
  rw [imports] at h
  cases hms : f.matchers t .modules with
  | error e =>
    rw [hms] at h
    cases h
  | ok ms =>
    rw [hms] at h
    cases h
    intro target htarget
    split at htarget
    · exact ne_nil_of_mem_goImports htarget
    · obtain ⟨line, -, hline⟩ := List.mem_filterMap.1 htarget
      exact ne_nil_of_importTarget? hline

theorem answers_imports (h : t.Named) (f : SourceFile) :
    Answers (f.imports t) fun targets => ∀ target ∈ targets, target ≠ [] := by
  obtain ⟨ms, hms, -⟩ := answers_matchers h f .modules
  obtain ⟨targets, htargets⟩ := imports_of_matchers hms
  exact ⟨targets, htargets, ne_nil_of_mem_imports htargets⟩

theorem answers_head (hms : ∀ m ∈ ms, m.names .structures = true) (f : SourceFile)
    {lines : List Text} {d : DeclaredStructure} (hd : d ∈ declaredStructures ms lines) :
    Answers (d.head f) fun _ => True := by
  obtain ⟨⟨line, i⟩, -, hline⟩ := List.mem_filterMap.1 hd
  dsimp only at hline
  split at hline
  · cases hline
  · obtain ⟨found, hfound, rfl⟩ := Option.map_eq_some_iff.1 hline
    obtain ⟨m, hm, hfind⟩ := Matcher.exists_of_first? hfound
    obtain ⟨name, hname⟩ := Matcher.get?_name_of_pattern (hms m hm) hfind
    simp only [DeclaredStructure.head, hname]
    exact .ok trivial

theorem answers_extract (h : t.Named) (hms : ∀ m ∈ ms, m.names .structures = true) (f : SourceFile)
    (lines : List Text) {d : DeclaredStructure} (hd : d ∈ declaredStructures ms lines) :
    Answers (d.extract f t lines (declaredStructures ms lines)) fun _ => True := by
  refine (answers_head hms f hd).bind fun head _ => ?_
  refine (answers_matchers h f .methods).bind fun methodMatchers hnames => ?_
  exact (answers_scanMethods hnames f _).bind fun _ _ => .ok trivial

theorem answers_structures (h : t.Named) (f : SourceFile) :
    Answers (f.structures t) fun _ => True := by
  refine (answers_matchers h f .structures).bind fun ms hms => ?_
  obtain ⟨found, hfound, -⟩ :=
    Answers.mapM fun d hd => answers_extract h hms f (Text.lines f.text) hd
  exact ⟨found, hfound, trivial⟩

theorem answers_resolve (h : t.Named) (f : SourceFile) (structures : List StructureHead) :
    Answers (f.resolve t structures) fun _ => True := by
  unfold resolve
  split
  · exact (answers_imports h f).bind fun _ _ => .ok trivial
  · exact .ok trivial

theorem answers_explainedStructures (h : t.Named) (f : SourceFile) (explain : Bool) :
    Answers (f.explainedStructures t explain) fun _ => True := by
  refine (answers_structures h f).bind fun found _ => ?_
  cases explain with
  | false => exact .ok trivial
  | true => exact (answers_resolve h f _).bind fun _ _ => .ok trivial

/-- Rules that name what they find yield the chosen layers of every file. -/
theorem answers_records (h : t.Named) (f : SourceFile) (layers : LayerChoice) (explain : Bool) :
    Answers (f.records t layers explain) fun r => ∀ target ∈ r.imports, target ≠ [] := by
  unfold SourceFile.records
  refine .choose (answers_imports h f) (.ok fun _ hx => nomatch hx) fun targets htargets => ?_
  refine .choose (answers_explainedStructures h f explain) (.ok trivial) fun structures _ => ?_
  exact .choose (answers_methods h f) (.ok trivial) fun methods _ => ⟨_, rfl, htargets⟩

end SourceFile

end DependencyAtlas
