import DependencyAtlas.Pattern.Library

namespace DependencyAtlas

theorem mapM_eq_error_iff {ε α β : Type} {f : α → Except ε β} {xs : List α} {e : ε} :
    xs.mapM f = .error e ↔
      ∃ before x after, xs = before ++ x :: after ∧ (∀ y ∈ before, ∃ b, f y = .ok b) ∧
        f x = .error e := by
  induction xs with
  | nil => simp [pure, Except.pure]
  | cons x xs ih =>
    rw [List.mapM_cons]
    cases hx : f x with
    | error e' =>
      constructor
      · intro h
        cases h
        exact ⟨[], x, xs, rfl, fun _ hy => (nomatch hy), hx⟩
      · rintro ⟨before, y, after, heq, hbefore, hy⟩
        cases before with
        | nil =>
          cases heq
          rw [hx] at hy
          cases hy
          rfl
        | cons z before =>
          cases heq
          obtain ⟨b, hb⟩ := hbefore x List.mem_cons_self
          exact nomatch hx.symm.trans hb
    | ok b =>
      have hrest : (do let ys ← xs.mapM f; pure (b :: ys)) = .error e ↔ xs.mapM f = .error e := by
        cases xs.mapM f <;> simp [bind, Except.bind, pure, Except.pure]
      rw [ih] at hrest
      apply hrest.trans
      constructor
      · rintro ⟨before, y, after, rfl, hbefore, hy⟩
        exact ⟨x :: before, y, after, rfl, List.forall_mem_cons.2 ⟨⟨b, hx⟩, hbefore⟩, hy⟩
      · rintro ⟨before, y, after, heq, hbefore, hy⟩
        cases before with
        | nil =>
          cases heq
          exact nomatch hx.symm.trans hy
        | cons z before =>
          cases heq
          exact ⟨before, y, after, rfl, (List.forall_mem_cons.1 hbefore).2, hy⟩

section

variable {κ : Type} [PatternForm κ]

namespace Rule

/-- The pattern of a rule that cannot be read, and why. -/
def fault? (r : Rule κ) : Option (Text × Unreadable) :=
  match r.source with
  | .given _ => none
  | .written s =>
    match PatternForm.read (κ := κ) s with
    | .ok _ => none
    | .error e => some (s, e)

variable {language : Language} {layer : Layer} {r : Rule κ}

theorem matcher_eq_error_iff {e : PatternFault} :
    r.matcher language layer = .error e ↔
      ∃ pattern why, r.fault? = some (pattern, why) ∧ e = why.fault language layer pattern := by
  obtain ⟨kind, source⟩ := r
  cases source with
  | given p => simp [matcher, fault?]
  | written s =>
    cases hread : PatternForm.read (κ := κ) s with
    | ok p => simp [matcher, fault?, hread]
    | error why =>
      simp only [matcher, fault?, hread, Except.error.injEq, Option.some.injEq, Prod.mk.injEq]
      constructor
      · rintro rfl
        exact ⟨s, why, ⟨rfl, rfl⟩, rfl⟩
      · rintro ⟨_, _, ⟨rfl, rfl⟩, rfl⟩
        rfl

theorem matcher_eq_ok_iff : (∃ m, r.matcher language layer = .ok m) ↔ r.fault? = none := by
  obtain ⟨kind, source⟩ := r
  cases source with
  | given p => simp [matcher, fault?]
  | written s => cases hread : PatternForm.read (κ := κ) s <;> simp [matcher, fault?, hread]

end Rule

namespace RuleTables

/-- What is reported about the first pattern of a table entry that cannot be read. -/
def FirstFault (t : RuleTables κ) (language : Language) (layer : Layer) (e : PatternFault) : Prop :=
  ∃ before r after pattern why, t.rules language layer = before ++ r :: after ∧
    (∀ q ∈ before, q.fault? = none) ∧ r.fault? = some (pattern, why) ∧
      e = why.fault language layer pattern

variable {t : RuleTables κ} {language : Language} {layer : Layer}

theorem matchers_eq_error_iff {e : PatternFault} :
    t.matchers language layer = .error e ↔ t.FirstFault language layer e := by
  rw [matchers, mapM_eq_error_iff]
  simp only [Rule.matcher_eq_ok_iff, Rule.matcher_eq_error_iff]
  constructor
  · rintro ⟨before, r, after, hrules, hbefore, pattern, why, hr, he⟩
    exact ⟨before, r, after, pattern, why, hrules, hbefore, hr, he⟩
  · rintro ⟨before, r, after, pattern, why, hrules, hbefore, hr, he⟩
    exact ⟨before, r, after, hrules, hbefore, pattern, why, hr, he⟩

theorem exists_firstFault_iff :
    (∃ e, t.FirstFault language layer e) ↔ ∃ r ∈ t.rules language layer, r.fault? ≠ none := by
  constructor
  · rintro ⟨e, before, r, after, pattern, why, hrules, -, hr, -⟩
    refine ⟨r, ?_, by simp [hr]⟩
    rw [hrules]
    exact List.mem_append_right _ List.mem_cons_self
  · intro ⟨r, hr, hbad⟩
    cases hfirst : (t.rules language layer).findSome? Rule.fault? with
    | none => exact (hbad (List.findSome?_eq_none_iff.1 hfirst r hr)).elim
    | some p =>
      obtain ⟨before, q, after, hrules, hq, hbefore⟩ := List.findSome?_eq_some_iff.1 hfirst
      exact ⟨_, before, q, after, p.1, p.2, hrules, hbefore, hq, rfl⟩

/-- What is reported about a table entry, if one of its patterns cannot be read. -/
def fault? (t : RuleTables κ) (entry : TableEntry) : Option PatternFault :=
  match t.matchers entry.1 entry.2 with
  | .error e => some e
  | .ok _ => none

end RuleTables

end

def MatcherSet.entry {κ : Type} (s : MatcherSet κ) : TableEntry :=
  (s.language, s.layer)

def MatcherSet.unnumbered {κ : Type} (s : MatcherSet κ) : MatcherSet κ :=
  { s with serial := 0 }

inductive LibraryStep where
  | prepare
  | clear
  | compile (language : Language) (layer : Layer)
  | apply (language : Language) (layer : Layer) (line : Text)
  | findCalls (line : Text)
  deriving DecidableEq, Repr

inductive LibraryAnswer (κ : Type := Pattern) where
  | prepared (fault : Option PatternFault)
  | cleared
  | compiled (result : Except PatternFault (MatcherSet κ))
  | applied (result : Except PatternFault (Option Finding))
  | calls (names : List Text)

def LibraryAnswer.unnumbered {κ : Type} : LibraryAnswer κ → LibraryAnswer κ
  | .compiled result => .compiled (result.map MatcherSet.unnumbered)
  | answer => answer

namespace Library

section Kept

variable {κ : Type} {l l' l'' : Library κ} {read read' : List TableEntry}

def entries (l : Library κ) : List TableEntry :=
  l.kept.map MatcherSet.entry

theorem kept?_eq_none_iff {language : Language} {layer : Layer} :
    l.kept? language layer = none ↔ (language, layer) ∉ l.entries := by
  simp only [kept?, List.find?_eq_none, decide_eq_true_eq, entries, List.mem_map, MatcherSet.entry,
    Prod.mk.injEq, not_exists, not_and]

/-- A library has become another by reading table entries that it did not keep. -/
structure Grown (l l' : Library κ) (read : List TableEntry) : Prop where
  entries : l'.entries = l.entries ++ read
  readings : l'.readings = l.readings + read.length

theorem Grown.refl (l : Library κ) : Grown l l [] :=
  ⟨(List.append_nil _).symm, rfl⟩

theorem Grown.trans (h : Grown l l' read) (h' : Grown l' l'' read') :
    Grown l l'' (read ++ read') := by
  constructor
  · rw [h'.entries, h.entries, List.append_assoc]
  · rw [h'.readings, h.readings, List.length_append, Nat.add_assoc]

end Kept

variable {κ : Type} [PatternForm κ]

def step (l : Library κ) : LibraryStep → LibraryAnswer κ × Library κ
  | .prepare =>
    let (fault, l) := l.prepare
    (.prepared fault, l)
  | .clear => (.cleared, l.clear)
  | .compile language layer =>
    let (result, l) := l.compile language layer
    (.compiled result, l)
  | .apply language layer line =>
    let (result, l) := l.compile language layer
    (.applied (result.map (·.find? line)), l)
  | .findCalls line =>
    let (names, l) := l.findCalls line
    (.calls names, l)

/-- The answers to steps and the library that they lead to. -/
def run (l : Library κ) : List LibraryStep → List (LibraryAnswer κ) × Library κ
  | [] => ([], l)
  | s :: rest =>
    let (answer, l) := l.step s
    let (answers, l) := l.run rest
    (answer :: answers, l)

def reads (l : Library κ) (language : Language) (layer : Layer) : List TableEntry :=
  match l.kept? language layer, l.tables.matchers language layer with
  | none, .ok _ => [(language, layer)]
  | _, _ => []

def readsAll : List TableEntry → Library κ → List TableEntry
  | [], _ => []
  | (language, layer) :: rest, l =>
    match l.compile language layer with
    | (.error _, _) => []
    | (.ok _, l') => l.reads language layer ++ readsAll rest l'

def stepReads (l : Library κ) : LibraryStep → List TableEntry
  | .prepare => if l.ready then [] else readsAll l.tables.entries l
  | .compile language layer | .apply language layer _ => l.reads language layer
  | .clear | .findCalls _ => []

/-- The table entries that are read in a run, each with the number of times that the library was
cleared before. -/
def readingLog (l : Library κ) (cleared : Nat) : List LibraryStep → List (Nat × TableEntry)
  | [] => []
  | s :: rest =>
    (l.stepReads s).map (cleared, ·) ++
      (l.step s).2.readingLog (if s = .clear then cleared + 1 else cleared) rest

/-- What asking for a table entry comes to: the answer, the library after it, and what was read. -/
inductive Compiled (l : Library κ) (language : Language) (layer : Layer) :
    Except PatternFault (MatcherSet κ) → Library κ → List TableEntry → Prop where
  | again {s : MatcherSet κ} : s ∈ l.kept → s.entry = (language, layer) →
    Compiled l language layer (.ok s) l []
  | fail {e : PatternFault} : (language, layer) ∉ l.entries →
    l.tables.matchers language layer = .error e → Compiled l language layer (.error e) l []
  | anew {rules : List (Matcher κ)} : (language, layer) ∉ l.entries →
    l.tables.matchers language layer = .ok rules →
    Compiled l language layer (.ok ⟨language, layer, rules, l.readings⟩)
      { l with
        kept := l.kept ++ [⟨language, layer, rules, l.readings⟩]
        readings := l.readings + 1 }
      [(language, layer)]

/-- What asking for table entries one after the other comes to: the first error, the library after
it, and what was read. -/
inductive CompiledAll :
    Library κ → List TableEntry → Option PatternFault → Library κ → List TableEntry → Prop where
  | done {l : Library κ} : CompiledAll l [] none l []
  | fail {l l' : Library κ} {language : Language} {layer : Layer} {rest : List TableEntry}
    {e : PatternFault} : Compiled l language layer (.error e) l' [] →
    CompiledAll l ((language, layer) :: rest) (some e) l' []
  | next {l l₁ l' : Library κ} {language : Language} {layer : Layer}
    {rest read read' : List TableEntry} {s : MatcherSet κ} {fault : Option PatternFault} :
    Compiled l language layer (.ok s) l₁ read → CompiledAll l₁ rest fault l' read' →
    CompiledAll l ((language, layer) :: rest) fault l' (read ++ read')

/-- What a step on a library comes to: the answer, the library after it, and what was read. -/
inductive Stepped (l : Library κ) :
    LibraryStep → LibraryAnswer κ → Library κ → List TableEntry → Prop where
  | ready : l.ready = true → Stepped l .prepare (.prepared none) l []
  | unready {l' : Library κ} {read : List TableEntry} {e : PatternFault} :
    CompiledAll l l.tables.entries (some e) l' read →
    Stepped l .prepare (.prepared (some e)) l' read
  | prepare {l' : Library κ} {read : List TableEntry} :
    CompiledAll l l.tables.entries none l' read →
    Stepped l .prepare (.prepared none)
      { l' with scanner := some CallSite.find, ready := true } read
  | clear : Stepped l .clear .cleared l.clear []
  | compile {language : Language} {layer : Layer} {answer : Except PatternFault (MatcherSet κ)}
    {l' : Library κ} {read : List TableEntry} : Compiled l language layer answer l' read →
    Stepped l (.compile language layer) (.compiled answer) l' read
  | apply {language : Language} {layer : Layer} {answer : Except PatternFault (MatcherSet κ)}
    {l' : Library κ} {read : List TableEntry} (line : Text) :
    Compiled l language layer answer l' read →
    Stepped l (.apply language layer line) (.applied (answer.map (·.find? line))) l' read
  | scan {scan : Text → List Text} (line : Text) : l.scanner = some scan →
    Stepped l (.findCalls line) (.calls (scan line)) l []
  | findCalls (line : Text) : l.scanner = none →
    Stepped l (.findCalls line) (.calls (CallSite.find line))
      { l with scanner := some CallSite.find } []

structure Sound (t : RuleTables κ) (l : Library κ) : Prop where
  tables : l.tables = t
  kept : ∀ s ∈ l.kept, t.matchers s.language s.layer = .ok s.rules
  nodup : l.entries.Nodup
  scanner : ∀ scan ∈ l.scanner, scan = CallSite.find
  ready : l.ready = true → ∀ e ∈ t.entries, e ∈ l.entries

variable {t : RuleTables κ} {l l' l'' : Library κ} {language : Language} {layer : Layer}
  {read read' : List TableEntry} {answer : Except PatternFault (MatcherSet κ)}

theorem compiled_compile (l : Library κ) (language : Language) (layer : Layer) :
    Compiled l language layer (l.compile language layer).1 (l.compile language layer).2
      (l.reads language layer) := by
  unfold compile reads
  cases hkept : l.kept? language layer with
  | some s =>
    have hentry := List.find?_some hkept
    rw [decide_eq_true_eq] at hentry
    exact .again (List.mem_of_find?_eq_some hkept) (Prod.ext hentry.1 hentry.2)
  | none =>
    cases hmatchers : l.tables.matchers language layer with
    | error e => exact .fail (kept?_eq_none_iff.1 hkept) hmatchers
    | ok rules => exact .anew (kept?_eq_none_iff.1 hkept) hmatchers

theorem Compiled.grown (h : Compiled l language layer answer l' read) : Grown l l' read := by
  cases h with
  | again _ _ => exact .refl l
  | fail _ _ => exact .refl l
  | anew _ _ => exact ⟨List.map_append, rfl⟩

theorem Compiled.mem_entries {s : MatcherSet κ} (h : Compiled l language layer (.ok s) l' read) :
    (language, layer) ∈ l'.entries := by
  cases h with
  | again hs hentry => exact hentry ▸ List.mem_map_of_mem hs
  | anew _ _ =>
    exact List.mem_map_of_mem (f := MatcherSet.entry) (List.mem_append_right _ List.mem_cons_self)

theorem Compiled.sound (h : Compiled l language layer answer l' read) (hl : l.Sound t) :
    l'.Sound t := by
  have hgrown := h.grown
  cases h with
  | again _ _ => exact hl
  | fail _ _ => exact hl
  | @anew rules hnew hrules =>
    rw [hl.tables] at hrules
    constructor
    · exact hl.tables
    · intro s hs
      rcases List.mem_append.1 hs with hs | hs
      · exact hl.kept s hs
      · rw [List.mem_singleton.1 hs]
        exact hrules
    · rw [hgrown.entries]
      apply List.nodup_append.2
      refine ⟨hl.nodup, List.pairwise_singleton _ _, ?_⟩
      intro a ha b hb hab
      rw [List.mem_singleton.1 hb] at hab
      exact hnew (hab ▸ ha)
    · exact hl.scanner
    · intro hready e he
      rw [hgrown.entries]
      exact List.mem_append_left _ (hl.ready hready e he)

theorem Compiled.of_ok {s : MatcherSet κ} (h : Compiled l language layer (.ok s) l' read)
    (hl : l.Sound t) :
    t.matchers language layer = .ok s.rules ∧ s.language = language ∧ s.layer = layer := by
  cases h with
  | again hs hentry =>
    obtain ⟨rfl, rfl⟩ := Prod.mk.inj hentry
    exact ⟨hl.kept s hs, rfl, rfl⟩
  | anew _ hrules => exact ⟨hl.tables ▸ hrules, rfl, rfl⟩

theorem Compiled.of_error {e : PatternFault} (h : Compiled l language layer (.error e) l' read)
    (hl : l.Sound t) :
    t.matchers language layer = .error e ∧ l' = l := by
  cases h with
  | fail _ hbad => exact ⟨hl.tables ▸ hbad, rfl⟩

theorem compiledAll_compileAll (es : List TableEntry) (l : Library κ) :
    CompiledAll l es (compileAll es l).1 (compileAll es l).2 (readsAll es l) := by
  induction es generalizing l with
  | nil => exact .done
  | cons e rest ih =>
    obtain ⟨language, layer⟩ := e
    have hfirst := l.compiled_compile language layer
    rw [compileAll, readsAll]
    generalize l.compile language layer = p at hfirst ⊢
    generalize l.reads language layer = read at hfirst ⊢
    obtain ⟨_ | s, l'⟩ := p
    · cases hfirst with
      | fail hnew hbad => exact .fail (.fail hnew hbad)
    · exact .next hfirst (ih l')

variable {es : List TableEntry} {fault : Option PatternFault}

theorem CompiledAll.grown (h : CompiledAll l es fault l' read) : Grown l l' read := by
  induction h with
  | done => exact .refl _
  | fail hfirst => exact hfirst.grown
  | next hfirst _ ih => exact hfirst.grown.trans ih

theorem CompiledAll.sound (h : CompiledAll l es fault l' read) (hl : l.Sound t) : l'.Sound t := by
  induction h with
  | done => exact hl
  | fail hfirst => exact hfirst.sound hl
  | next hfirst _ ih => exact ih (hfirst.sound hl)

theorem CompiledAll.mem_entries (h : CompiledAll l es fault l' read) (hnone : fault = none) :
    ∀ e ∈ es, e ∈ l'.entries := by
  induction h with
  | done => exact fun e he => nomatch he
  | fail _ => cases hnone
  | next hfirst hrest ih =>
    intro e he
    rcases List.mem_cons.1 he with rfl | he
    · rw [hrest.grown.entries]
      exact List.mem_append_left _ hfirst.mem_entries
    · exact ih hnone e he

theorem CompiledAll.fault_eq (h : CompiledAll l es fault l' read) (hl : l.Sound t) :
    fault = es.findSome? t.fault? := by
  induction h with
  | done => rfl
  | fail hfirst => simp [RuleTables.fault?, (hfirst.of_error hl).1]
  | next hfirst _ ih =>
    rw [ih (hfirst.sound hl), List.findSome?_cons, RuleTables.fault?, (hfirst.of_ok hl).1]

theorem stepped_step (l : Library κ) (s : LibraryStep) :
    Stepped l s (l.step s).1 (l.step s).2 (l.stepReads s) := by
  cases s with
  | prepare =>
    rw [step, prepare, stepReads]
    cases hready : l.ready with
    | true => exact .ready hready
    | false =>
      have hall := compiledAll_compileAll l.tables.entries l
      simp only [Bool.false_eq_true, if_false]
      generalize compileAll l.tables.entries l = p at hall ⊢
      obtain ⟨_ | e, l'⟩ := p
      · exact .prepare hall
      · exact .unready hall
  | clear => exact .clear
  | compile language layer => exact .compile (l.compiled_compile language layer)
  | apply language layer line => exact .apply line (l.compiled_compile language layer)
  | findCalls line =>
    rw [step, findCalls]
    cases hscanner : l.scanner with
    | none => exact .findCalls line hscanner
    | some scan => exact .scan line hscanner

variable {s : LibraryStep} {reply : LibraryAnswer κ} {steps : List LibraryStep}

theorem Stepped.sound (h : Stepped l s reply l' read) (hl : l.Sound t) : l'.Sound t := by
  cases h with
  | ready _ => exact hl
  | unready hall => exact hall.sound hl
  | prepare hall =>
    have hsound := hall.sound hl
    constructor
    · exact hsound.tables
    · exact hsound.kept
    · exact hsound.nodup
    · rintro _ ⟨⟩
      rfl
    · intro _ e he
      exact hall.mem_entries rfl e (hl.tables ▸ he)
  | clear =>
    exact ⟨hl.tables, fun _ hs => (nomatch hs), List.nodup_nil, fun _ hs => (nomatch hs),
      fun h => (nomatch h)⟩
  | compile hcompiled => exact hcompiled.sound hl
  | apply _ hcompiled => exact hcompiled.sound hl
  | scan _ _ => exact hl
  | findCalls _ _ =>
    constructor
    · exact hl.tables
    · exact hl.kept
    · exact hl.nodup
    · rintro _ ⟨⟩
      rfl
    · exact hl.ready

theorem Stepped.grown (h : Stepped l s reply l' read) (hs : s ≠ .clear) : Grown l l' read := by
  cases h with
  | ready _ => exact .refl l
  | unready hall => exact hall.grown
  | prepare hall => exact ⟨hall.grown.entries, hall.grown.readings⟩
  | clear => exact (hs rfl).elim
  | compile hcompiled => exact hcompiled.grown
  | apply _ hcompiled => exact hcompiled.grown
  | scan _ _ => exact .refl l
  | findCalls _ _ => exact ⟨(Grown.refl l).entries, rfl⟩

end Library

/-- What the tables alone say about a step. -/
def RuleTables.answer {κ : Type} [PatternForm κ] (t : RuleTables κ) : LibraryStep → LibraryAnswer κ
  | .prepare => .prepared (t.entries.findSome? t.fault?)
  | .clear => .cleared
  | .compile language layer =>
    .compiled ((t.matchers language layer).map fun rules => ⟨language, layer, rules, 0⟩)
  | .apply language layer line => .applied ((t.matchers language layer).map (Matcher.first? · line))
  | .findCalls line => .calls (CallSite.find line)

namespace Library

variable {κ : Type} [PatternForm κ] {t : RuleTables κ} {l l' : Library κ} {s : LibraryStep}
  {reply : LibraryAnswer κ} {read : List TableEntry} {language : Language} {layer : Layer}

theorem Sound.fault?_eq_none (hl : l.Sound t) {e : TableEntry} (he : e ∈ l.entries) :
    t.fault? e = none := by
  obtain ⟨s, hs, rfl⟩ := List.mem_map.1 he
  rw [RuleTables.fault?, MatcherSet.entry, hl.kept s hs]

theorem Stepped.reply_eq (h : Stepped l s reply l' read) (hl : l.Sound t) :
    reply.unnumbered = t.answer s := by
  cases h with
  | ready hready =>
    have hnone : t.entries.findSome? t.fault? = none := by
      apply List.findSome?_eq_none_iff.2
      intro e he
      exact hl.fault?_eq_none (hl.ready hready e he)
    rw [RuleTables.answer, hnone]
    rfl
  | unready hall =>
    rw [RuleTables.answer, ← hl.tables, hall.fault_eq (hl.tables ▸ hl)]
    rfl
  | prepare hall =>
    rw [RuleTables.answer, ← hl.tables, ← hall.fault_eq (hl.tables ▸ hl)]
    rfl
  | clear => rfl
  | @compile language layer answer l' read hcompiled =>
    cases answer with
    | error e =>
      rw [RuleTables.answer, (hcompiled.of_error hl).1]
      rfl
    | ok s =>
      obtain ⟨hrules, rfl, rfl⟩ := hcompiled.of_ok hl
      rw [RuleTables.answer, hrules]
      rfl
  | @apply language layer answer l' read line hcompiled =>
    cases answer with
    | error e =>
      rw [RuleTables.answer, (hcompiled.of_error hl).1]
      rfl
    | ok s =>
      rw [RuleTables.answer, (hcompiled.of_ok hl).1]
      rfl
  | scan line hscanner =>
    exact congrArg (fun scan => LibraryAnswer.calls (scan line)) (hl.scanner _ hscanner)
  | findCalls line _ => rfl

theorem sound_fresh (t : RuleTables κ) : Sound t { tables := t } :=
  ⟨rfl, fun _ hs => (nomatch hs), List.nodup_nil, fun _ hs => (nomatch hs), fun h => (nomatch h)⟩

theorem step_sound (hl : l.Sound t) (s : LibraryStep) : (l.step s).2.Sound t :=
  (l.stepped_step s).sound hl

theorem run_sound (hl : l.Sound t) (steps : List LibraryStep) : (l.run steps).2.Sound t := by
  induction steps generalizing l with
  | nil => exact hl
  | cons s rest ih => exact ih (step_sound hl s)

theorem run_answers (hl : l.Sound t) (steps : List LibraryStep) :
    (l.run steps).1.map LibraryAnswer.unnumbered = steps.map t.answer := by
  induction steps generalizing l with
  | nil => rfl
  | cons s rest ih =>
    rw [run, List.map_cons, List.map_cons, ih (step_sound hl s), (l.stepped_step s).reply_eq hl]

theorem run_readings (l : Library κ) (cleared : Nat) (steps : List LibraryStep) :
    (l.run steps).2.readings = l.readings + (l.readingLog cleared steps).length := by
  induction steps generalizing l cleared with
  | nil => rfl
  | cons s rest ih =>
    have hstep : (l.step s).2.readings = l.readings + (l.stepReads s).length := by
      by_cases hs : s = .clear
      · rw [hs]
        rfl
      · exact ((l.stepped_step s).grown hs).readings
    rw [readingLog, List.length_append, List.length_map, ← Nat.add_assoc, ← hstep]
    exact ih (l.step s).2 _

theorem nodup_readingLog (hl : l.Sound t) (cleared : Nat) (steps : List LibraryStep) :
    (l.readingLog cleared steps).Nodup ∧
      ∀ e ∈ l.readingLog cleared steps, cleared < e.1 ∨ e.1 = cleared ∧ e.2 ∉ l.entries := by
  induction steps generalizing l cleared with
  | nil => exact ⟨List.nodup_nil, fun e he => (nomatch he)⟩
  | cons s rest ih =>
    have hsound := step_sound hl s
    rw [readingLog]
    by_cases hs : s = .clear
    · obtain ⟨hnodup, hlater⟩ := ih hsound (cleared + 1)
      subst hs
      refine ⟨hnodup, ?_⟩
      intro e he
      rcases hlater e he with hlt | ⟨heq, -⟩
      · exact .inl (by omega)
      · exact .inl (by omega)
    · obtain ⟨hnodup, hlater⟩ := ih hsound cleared
      have hentries := ((l.stepped_step s).grown hs).entries
      have hunique := hsound.nodup
      rw [hentries, List.nodup_append] at hunique
      rw [if_neg hs]
      constructor
      · apply List.nodup_append.2
        refine ⟨List.Pairwise.map _ (fun _ _ hne h => hne (Prod.mk.inj h).2) hunique.2.1,
          hnodup, ?_⟩
        rintro _ hread e he rfl
        obtain ⟨entry, hentry, rfl⟩ := List.mem_map.1 hread
        rcases hlater _ he with hlt | ⟨-, hnew⟩
        · exact Nat.lt_irrefl _ hlt
        · exact hnew (hentries ▸ List.mem_append_right _ hentry)
      · intro e he
        rcases List.mem_append.1 he with he | he
        · obtain ⟨entry, hentry, rfl⟩ := List.mem_map.1 he
          exact .inr ⟨rfl, fun hkept => hunique.2.2 entry hkept entry hentry rfl⟩
        · rcases hlater e he with hlt | ⟨heq, hnew⟩
          · exact .inl hlt
          · exact .inr ⟨heq, fun hkept => hnew (hentries ▸ List.mem_append_left _ hkept)⟩

theorem compile_eq_error_iff (hl : l.Sound t) {e : PatternFault} :
    (l.compile language layer).1 = .error e ↔ t.FirstFault language layer e := by
  have hcompiled := l.compiled_compile language layer
  rw [← RuleTables.matchers_eq_error_iff]
  generalize (l.compile language layer).1 = answer at hcompiled ⊢
  cases answer with
  | error e' => rw [(hcompiled.of_error hl).1, Except.error.injEq, Except.error.injEq]
  | ok s => simp [(hcompiled.of_ok hl).1]

/-- Whatever steps have been taken on a library, every answer was that of a fresh library; asking
for a table entry fails just if one of its patterns cannot be read, with what is reported about the
first, and changes nothing then; no entry was read twice without the library being cleared in
between, and the count is that of the readings; and a library that is ready keeps all entries. -/
theorem keeping_shows_only_in_readings (tables : RuleTables κ) (steps : List LibraryStep) :
    let fresh : Library κ := { tables }
    let l := (fresh.run steps).2
    (fresh.run steps).1.map LibraryAnswer.unnumbered =
        steps.map (fun s => (fresh.step s).1.unnumbered) ∧
      (∀ language layer,
        ((∃ e, (l.compile language layer).1 = .error e) ↔
            ∃ r ∈ tables.rules language layer, r.fault? ≠ none) ∧
          ∀ e, (l.compile language layer).1 = .error e →
            tables.FirstFault language layer e ∧ (l.compile language layer).2 = l) ∧
      (fresh.readingLog 0 steps).Nodup ∧ l.readings = (fresh.readingLog 0 steps).length ∧
      (l.ready = true → ∀ e ∈ tables.entries, (l.kept? e.1 e.2).isSome = true) := by
  intro fresh l
  have hfresh : fresh.Sound tables := sound_fresh tables
  have hl : l.Sound tables := run_sound hfresh steps
  have hanswers : steps.map (fun s => (fresh.step s).1.unnumbered) = steps.map tables.answer := by
    apply List.map_congr_left
    intro s _
    exact (fresh.stepped_step s).reply_eq hfresh
  have hnodup := (nodup_readingLog hfresh 0 steps).1
  refine ⟨(run_answers hfresh steps).trans hanswers.symm, ?_, hnodup, ?_, ?_⟩
  · intro language layer
    constructor
    · rw [← RuleTables.exists_firstFault_iff]
      exact exists_congr fun e => compile_eq_error_iff hl
    · intro e he
      have hcompiled := l.compiled_compile language layer
      exact ⟨(compile_eq_error_iff hl).1 he, ((he ▸ hcompiled).of_error hl).2⟩
  · rw [run_readings fresh 0 steps]
    exact Nat.zero_add _
  · intro hready e he
    rw [Option.isSome_iff_ne_none, Ne, kept?_eq_none_iff, Classical.not_not]
    exact hl.ready hready e he

def overflowingRule : Rule where
  kind := "import".toList
  source := .written "a\x7b99999999999\x7d".toList

theorem overflow_is_not_reported :
    overflowingRule.fault? ≠ none ∧
      (compile { tables := [(.python, [(.modules, [overflowingRule])])] } .python .modules).1 =
        .error (.brokenOff "OverflowError".toList "the repetition number is too large".toList) := by
  constructor
  · decide
  · rfl

end Library

end DependencyAtlas
