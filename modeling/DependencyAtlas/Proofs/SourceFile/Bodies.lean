import DependencyAtlas.Proofs.SourceFile.Scoping
import Mathlib.Data.List.Forall2

namespace DependencyAtlas

namespace CharSet

/-- No character of the set is blank or an opening bracket, as can be seen from its items. -/
def solid (s : CharSet) : Bool :=
  !s.negated && s.items.all fun
    | .char c => !Text.isBlank c && !Scope.isLoneOpener [c]
    | .word => true
    | _ => false

theorem not_blank_of_solid {s : CharSet} {c : Char} (h : s.solid = true)
    (hc : s.contains c = true) :
    Text.isBlank c = false ∧ Scope.isLoneOpener [c] = false := by
  obtain ⟨hneg, hitems⟩ := Bool.and_eq_true_iff.1 h
  have hplain : s.negated = false := by simpa using hneg
  rw [contains, hplain, Bool.bne_false] at hc
  obtain ⟨i, hi, hholds⟩ := List.any_eq_true.1 hc
  have hsolid := List.all_eq_true.1 hitems i hi
  cases i with
  | char d =>
    rw [eq_of_beq hholds]
    simpa using hsolid
  | word =>
    refine ⟨Text.isBlank_eq_false_of_isWord hholds, ?_⟩
    have hne (d : Char) (hd : Text.isWord d = false) : c ≠ d := by
      rintro rfl
      rw [CharItem.holds, hd] at hholds
      cases hholds
    simp [Scope.isLoneOpener, hne '\x7b' (by decide +kernel), hne '(' (by decide +kernel),
      hne '[' (by decide +kernel)]
  | _ => cases hsolid

end CharSet

theorem Scope.isSignificant_of_mem {line : Text} {c : Char} (hc : c ∈ line)
    (hblank : Text.isBlank c = false) (hopener : isLoneOpener [c] = false)
    (hcomment : isComment (Text.trim line) = false) :
    isSignificant line = true := by
  have hmem := Text.mem_trim hc hblank
  have hne (d : Char) (hd : isLoneOpener [d] = true) : Text.trim line ≠ [d] := by
    intro heq
    rw [heq, List.mem_singleton] at hmem
    rw [hmem, hd] at hopener
    cases hopener
  simp [isSignificant, isLoneOpener, hcomment, List.ne_nil_of_mem hmem, hne '\x7b' rfl, hne '(' rfl,
    hne '[' rfl]

/-- The rules match only where there is a character that is neither blank nor an opening bracket. -/
def Matcher.AllSolid (ms : List Matcher) : Prop :=
  ∀ m ∈ ms, m.pattern.touches CharSet.solid = true

theorem Matcher.AllSolid.exists_of_first? {ms : List Matcher} (h : AllSolid ms) {line : Text}
    {found : Finding} (hfound : first? ms line = some found) :
    ∃ c ∈ line, Text.isBlank c = false ∧ Scope.isLoneOpener [c] = false := by
  obtain ⟨m, hm, hfind⟩ := Matcher.exists_of_first? hfound
  obtain ⟨captures, hcaptures, -⟩ := Option.map_eq_some_iff.1 hfind
  obtain ⟨t, hleads, -⟩ := Pattern.run_eq_some hcaptures
  obtain ⟨w, hspans, c, hc, set, hset, hcontains⟩ := hleads.touched (h m hm)
  refine ⟨c, ?_, CharSet.not_blank_of_solid hset hcontains⟩
  have hline : line = w ++ t.rest := hspans.1
  rw [hline]
  exact List.mem_append_left _ hc

theorem answers_allSolid (f : SourceFile) :
    Answers (f.matchers builtinRules .structures) Matcher.AllSolid := by
  have hgives : ∀ r ∈ builtinRules.rules f.language .structures,
      r.gives (fun m => m.pattern.touches CharSet.solid) = true := by
    cases f.language <;> decide +kernel
  exact SourceFile.answers_matchers_of (RuleTables.answers_of_gives hgives)

theorem pairwise_zipIdx {α : Type} (xs : List α) : xs.zipIdx.Pairwise fun a b => a.2 < b.2 := by
  have hsnd : (xs.zipIdx.map Prod.snd).Pairwise (· < ·) := by
    rw [List.zipIdx_map_snd]
    exact List.pairwise_lt_range'
  exact List.pairwise_map.1 hsnd

namespace DeclaredStructure

/-- Two structures have no line in common, or one lies in the other. -/
def Laminar (d e : DeclaredStructure) : Prop :=
  d.stop ≤ e.first ∨ e.stop ≤ d.first ∨ e.first ≤ d.first ∧ d.stop ≤ e.stop ∨ d.first ≤ e.first ∧
  e.stop ≤ d.stop

/-- A line is in the body of a structure, and all structures with the line in their bodies are
around this one. -/
structure Innermost (declared : List DeclaredStructure) (d : DeclaredStructure)
    (k : Nat) : Prop where
  after : d.first < k
  before : k < d.stop
  around : ∀ e ∈ declared, e.first < k → k < e.stop → e.first ≤ d.first ∧ d.stop ≤ e.stop

variable {ms : List Matcher} {lines : List Text} {d e : DeclaredStructure} {k : Nat}

theorem declares_iff {line : Text} {i : Nat} :
    (if Scope.isComment (Text.trim line) then none
      else (Matcher.first? ms line).map fun found => ⟨i, Scope.scopeEnd lines i, found⟩) = some d ↔
    Scope.isComment (Text.trim line) = false ∧ Matcher.first? ms line = some d.found ∧ d.first = i ∧
      d.stop = Scope.scopeEnd lines i := by
  obtain ⟨first, stop, found⟩ := d
  cases Scope.isComment (Text.trim line) with
  | true => simp
  | false =>
    simp only [Bool.false_eq_true, if_false, Option.map_eq_some_iff, mk.injEq, true_and]
    constructor
    · rintro ⟨_, hfound, rfl, rfl, rfl⟩
      exact ⟨hfound, rfl, rfl⟩
    · rintro ⟨hfound, rfl, rfl⟩
      exact ⟨found, hfound, rfl, rfl, rfl⟩

theorem mem_declaredStructures :
    d ∈ declaredStructures ms lines ↔ ∃ line, lines[d.first]? = some line ∧
    Scope.isComment (Text.trim line) = false ∧ Matcher.first? ms line = some d.found ∧
    d.stop = Scope.scopeEnd lines d.first := by
  rw [declaredStructures, List.mem_filterMap]
  constructor
  · rintro ⟨⟨line, i⟩, hmem, hd⟩
    obtain ⟨hcomment, hfound, rfl, hstop⟩ := declares_iff.1 hd
    exact ⟨line, List.mem_zipIdx_iff_getElem?.1 hmem, hcomment, hfound, hstop⟩
  · rintro ⟨line, hline, hcomment, hfound, hstop⟩
    exact ⟨(line, d.first), List.mem_zipIdx_iff_getElem?.2 hline,
      declares_iff.2 ⟨hcomment, hfound, rfl, hstop⟩⟩

theorem eq_of_first_eq (hd : d ∈ declaredStructures ms lines) (he : e ∈ declaredStructures ms lines)
    (h : d.first = e.first) : d = e := by
  obtain ⟨line, hline, -, hfound, hstop⟩ := mem_declaredStructures.1 hd
  obtain ⟨line', hline', -, hfound', hstop'⟩ := mem_declaredStructures.1 he
  rw [h] at hline hstop
  cases hline.symm.trans hline'
  have hsame := Option.some.inj (hfound.symm.trans hfound')
  cases d
  cases e
  rw [mk.injEq]
  exact ⟨h, hstop.trans hstop'.symm, hsame⟩

theorem first_lt_stop (hd : d ∈ declaredStructures ms lines) : d.first < d.stop := by
  obtain ⟨_, _, _, _, hstop⟩ := mem_declaredStructures.1 hd
  rw [hstop]
  exact Scope.lt_scopeEnd lines d.first

theorem stop_le_stop (hsolid : Matcher.AllSolid ms) (hd : d ∈ declaredStructures ms lines)
    (he : e ∈ declaredStructures ms lines) (hafter : d.first < e.first)
    (hbefore : e.first < d.stop) :
    e.stop ≤ d.stop := by
  obtain ⟨_, _, _, _, hstop⟩ := mem_declaredStructures.1 hd
  obtain ⟨line, hline, hcomment, hfound, hstop'⟩ := mem_declaredStructures.1 he
  obtain ⟨c, hc, hblank, hopener⟩ := hsolid.exists_of_first? hfound
  rw [hstop, hstop']
  apply Scope.scopeEnd_le_scopeEnd hafter (hstop ▸ hbefore) hline
  exact Scope.isSignificant_of_mem hc hblank hopener hcomment

theorem laminar (hsolid : Matcher.AllSolid ms) (hd : d ∈ declaredStructures ms lines)
    (he : e ∈ declaredStructures ms lines) : Laminar d e := by
  have hde := stop_le_stop hsolid hd he
  have hed := stop_le_stop hsolid he hd
  unfold Laminar
  rcases Nat.lt_trichotomy d.first e.first with h | h | h
  · omega
  · cases eq_of_first_eq hd he h
    omega
  · omega

theorem owns_iff : owns (declaredStructures ms lines) d k = true ↔ d.first < k ∧ k < d.stop ∧
    ∀ e ∈ declaredStructures ms lines, d.first < e.first → e.first < d.stop → e.first ≤ k →
      ¬k < e.stop := by
  simp only [owns, covers, Bool.and_eq_true, decide_eq_true_eq, Bool.not_eq_true',
    List.any_eq_false, not_and, and_assoc]

/-- A structure owns the lines that it is the innermost one around and that declare no structure. -/
theorem owns_iff_innermost (hsolid : Matcher.AllSolid ms) (hd : d ∈ declaredStructures ms lines) :
    owns (declaredStructures ms lines) d k = true ↔
      Innermost (declaredStructures ms lines) d k ∧ ∀ e ∈ declaredStructures ms lines,
        e.first ≠ k := by
  rw [owns_iff]
  constructor
  · rintro ⟨hafter, hbefore, hnone⟩
    refine ⟨⟨hafter, hbefore, ?_⟩, ?_⟩
    · intro e he hek hke
      have hle : e.first ≤ d.first := by
        rw [← Nat.not_lt]
        intro hlt
        exact hnone e he hlt (Nat.lt_trans hek hbefore) (Nat.le_of_lt hek) hke
      refine ⟨hle, ?_⟩
      rcases Nat.lt_or_eq_of_le hle with hlt | heq
      · exact stop_le_stop hsolid he hd hlt (Nat.lt_trans hafter hke)
      · rw [eq_of_first_eq he hd heq]
    · rintro e he rfl
      exact hnone e he hafter hbefore (Nat.le_refl _) (first_lt_stop he)
  · rintro ⟨hinnermost, hdeclares⟩
    refine ⟨hinnermost.after, hinnermost.before, ?_⟩
    intro e he hlt _ hek hke
    have hek : e.first < k := Nat.lt_of_le_of_ne hek (hdeclares e he)
    have hle := (hinnermost.around e he hek hke).1
    omega

theorem exists_owns (hd : d ∈ declaredStructures ms lines) (hafter : d.first < k)
    (hbefore : k < d.stop) (hdeclares : ∀ e ∈ declaredStructures ms lines, e.first ≠ k) :
    ∃ e ∈ declaredStructures ms lines, owns (declaredStructures ms lines) e k = true := by
  -- from a structure that does not own the line to one that is declared in it, closer to the line
  induction hdistance : k - d.first using Nat.strongRecOn generalizing d with
  | ind n ih =>
    by_cases howns : owns (declaredStructures ms lines) d k = true
    · exact ⟨d, hd, howns⟩
    · rw [owns_iff] at howns
      push Not at howns
      obtain ⟨e, he, hlt, -, hek, hke⟩ := howns hafter hbefore
      have hek : e.first < k := Nat.lt_of_le_of_ne hek (hdeclares e he)
      exact ih (k - e.first) (by omega) he hek hke rfl

theorem pairwise_declaredStructures (ms : List Matcher) (lines : List Text) :
    (declaredStructures ms lines).Pairwise fun d e => d.first < e.first := by
  rw [declaredStructures, List.pairwise_filterMap]
  apply (pairwise_zipIdx lines).imp
  intro a b hlt d hd e he
  obtain ⟨-, -, hfirst, -⟩ := declares_iff.1 hd
  obtain ⟨-, -, hfirst', -⟩ := declares_iff.1 he
  rwa [hfirst, hfirst']

theorem line_of_head {f : SourceFile} {head : StructureHead} (h : d.head f = .ok head) :
    head.line = (d.first + 1 : Nat) := by
  unfold DeclaredStructure.head at h
  cases hname : d.found.get? "name" with
  | none =>
    rw [hname] at h
    cases h
  | some name =>
    rw [hname] at h
    cases h
    rfl

end DeclaredStructure

theorem forall₂_of_mapM {ε α β : Type} {f : α → Except ε β} {xs : List α} {ys : List β}
    (h : xs.mapM f = .ok ys) :
    List.Forall₂ (fun x y => f x = .ok y) xs ys := by
  induction xs generalizing ys with
  | nil =>
    cases h
    exact .nil
  | cons x xs ih =>
    rw [List.mapM_cons] at h
    cases hx : f x with
    | error e =>
      rw [hx] at h
      cases h
    | ok y =>
      rw [hx] at h
      cases hxs : xs.mapM f with
      | error e =>
        rw [hxs] at h
        cases h
      | ok rest =>
        rw [hxs] at h
        cases h
        exact .cons hx (ih hxs)

theorem mapM_of_forall₂ {ε α β : Type} {f : α → Except ε β} {xs : List α} {ys : List β}
    (h : List.Forall₂ (fun x y => f x = .ok y) xs ys) : xs.mapM f = .ok ys := by
  induction h with
  | nil => rfl
  | cons hxy _ ih =>
    rw [List.mapM_cons, hxy, ih]
    rfl

section Matched

variable {α β : Type} {R : α → β → Prop} {xs : List α} {ys : List β}

theorem exists_of_forall₂ (h : List.Forall₂ R xs ys) {x : α} (hx : x ∈ xs) : ∃ y ∈ ys, R x y := by
  induction h with
  | nil => cases hx
  | cons hxy _ ih =>
    rcases List.mem_cons.1 hx with rfl | hx
    · exact ⟨_, List.mem_cons_self, hxy⟩
    · obtain ⟨y, hy, hxy⟩ := ih hx
      exact ⟨y, List.mem_cons_of_mem _ hy, hxy⟩

theorem pairwise_of_forall₂ (h : List.Forall₂ R xs ys) {S : α → α → Prop} {T : β → β → Prop}
    (hpairs : xs.Pairwise S) (hT : ∀ x x' y y', x' ∈ xs → R x y → R x' y' → S x x' → T y y') :
    ys.Pairwise T := by
  induction h with
  | nil => exact .nil
  | @cons x y xs ys hxy hrest ih =>
    obtain ⟨hx, hxs⟩ := List.pairwise_cons.1 hpairs
    apply List.Pairwise.cons
    · intro y' hy'
      obtain ⟨x', hx', hxy'⟩ := exists_of_forall₂ hrest.flip hy'
      exact hT x x' y y' (List.mem_cons_of_mem _ hx') hxy hxy' (hx x' hx')
    · apply ih hxs
      intro x x' y y' hx'
      exact hT x x' y y' (List.mem_cons_of_mem _ hx')

end Matched

namespace SourceFile

/-- A structure is what a line declares, with the methods that its own lines define. -/
structure Bodied (f : SourceFile) (ms : List Matcher) (lines : List Text)
    (declared : List DeclaredStructure) (d : DeclaredStructure) (s : StructureTree) : Prop where
  line : s.head.line = (d.first + 1 : Nat)
  heads : (MethodTree.walkAll s.methods).map (·.head) =
    (lines.zipIdx.filter fun l => DeclaredStructure.owns declared d l.2).filterMap
      (f.definitionOf ms)

variable {f : SourceFile} {ms sms : List Matcher} {lines : List Text}
  {declared : List DeclaredStructure} {d : DeclaredStructure} {s : StructureTree}
  {ss : List StructureTree} {head : MethodHead}

theorem extract_eq_ok_iff {tables : RuleTables} (hms : f.matchers tables .methods = .ok ms) :
    d.extract f tables lines declared = .ok s ↔ DeclaredStructure.head f d = .ok s.head ∧
      f.scanMethods ms (lines.zipIdx.filter fun l => DeclaredStructure.owns declared d l.2) =
        .ok s.methods := by
  obtain ⟨head, methods⟩ := s
  rw [DeclaredStructure.extract, hms]
  cases d.head f with
  | error e => simp [bind, Except.bind]
  | ok head =>
    cases hmethods : f.scanMethods ms (lines.zipIdx.filter fun l =>
      DeclaredStructure.owns declared d l.2) with
    | error e => simp [hmethods, bind, Except.bind]
    | ok methods => simp [hmethods, bind, Except.bind, pure, Except.pure]

theorem forall₂_structures {tables : RuleTables} (hsms : f.matchers tables .structures = .ok sms)
    (hms : f.matchers tables .methods = .ok ms) (h : f.structures tables = .ok ss) :
    List.Forall₂ (fun d s => DeclaredStructure.head f d = .ok s.head ∧
        f.scanMethods ms ((Text.lines f.text).zipIdx.filter fun l =>
          DeclaredStructure.owns (declaredStructures sms (Text.lines f.text)) d l.2) =
            .ok s.methods)
      (declaredStructures sms (Text.lines f.text)) ss := by
  rw [structures, hsms] at h
  apply (forall₂_of_mapM h).imp
  intro d s hs
  exact (extract_eq_ok_iff hms).1 hs

theorem bodied_structures {tables : RuleTables} (hsms : f.matchers tables .structures = .ok sms)
    (hms : f.matchers tables .methods = .ok ms) (h : f.structures tables = .ok ss) :
    List.Forall₂ (f.Bodied ms (Text.lines f.text) (declaredStructures sms (Text.lines f.text)))
      (declaredStructures sms (Text.lines f.text)) ss := by
  apply (forall₂_structures hsms hms h).imp
  rintro d s ⟨hhead, hmethods⟩
  exact ⟨DeclaredStructure.line_of_head hhead, heads_scanMethods hmethods⟩

theorem Bodied.mem_heads_iff (h : f.Bodied ms lines declared d s) :
    head ∈ (MethodTree.walkAll s.methods).map (·.head) ↔
      ∃ k, DeclaredStructure.owns declared d k = true ∧ f.definitionAt ms lines k = some head := by
  rw [h.heads, List.mem_filterMap]
  constructor
  · rintro ⟨⟨line, k⟩, hmem, hdef⟩
    obtain ⟨hline, howns⟩ := List.mem_filter.1 hmem
    exact ⟨k, howns, (definitionAt_eq (List.mem_zipIdx_iff_getElem?.1 hline)).trans hdef⟩
  · rintro ⟨k, howns, hdef⟩
    obtain ⟨line, hline, hdef⟩ := Option.bind_eq_some_iff.1 hdef
    exact ⟨(line, k), List.mem_filter.2 ⟨List.mem_zipIdx_iff_getElem?.2 hline, howns⟩, hdef⟩

theorem Bodied.nodup_lines (h : f.Bodied ms lines declared d s) :
    ((MethodTree.walkAll s.methods).map (·.head.line)).Nodup := by
  have hsorted :
      ((MethodTree.walkAll s.methods).map (·.head)).Pairwise fun a b => a.line < b.line := by
    rw [h.heads, List.pairwise_filterMap]
    apply ((pairwise_zipIdx lines).filter _).imp
    intro a b hlt x hx y hy
    rw [line_of_definitionOf hx, line_of_definitionOf hy]
    omega
  rw [List.pairwise_map] at hsorted
  apply List.pairwise_map.2
  exact hsorted.imp Int.ne_of_lt

theorem Bodied.owned (h : f.Bodied ms lines declared d s) {m : MethodTree}
    (hm : m ∈ MethodTree.walkAll s.methods) :
    ∃ k, DeclaredStructure.owns declared d k = true ∧ f.definitionAt ms lines k = some m.head :=
  h.mem_heads_iff.1 (List.mem_map_of_mem hm)

theorem Bodied.exists_of_owns (h : f.Bodied ms lines declared d s) {k : Nat}
    (howns : DeclaredStructure.owns declared d k = true)
    (hdef : f.definitionAt ms lines k = some head) :
    ∃ m ∈ MethodTree.walkAll s.methods, m.head = head :=
  List.mem_map.1 (h.mem_heads_iff.2 ⟨k, howns, hdef⟩)

theorem Bodied.defined_iff (h : f.Bodied ms lines declared d s) {k : Nat} :
    (∃ m ∈ MethodTree.walkAll s.methods, m.head.line = (k + 1 : Nat)) ↔
      (f.definitionAt ms lines k).isSome ∧ DeclaredStructure.owns declared d k = true := by
  constructor
  · rintro ⟨m, hm, hline⟩
    obtain ⟨k', howns, hdef⟩ := h.owned hm
    have hk : k' = k := by
      rw [line_of_definitionAt hdef] at hline
      omega
    rw [← hk, hdef]
    exact ⟨rfl, howns⟩
  · rintro ⟨hdef, howns⟩
    obtain ⟨head, hdef⟩ := Option.isSome_iff_exists.1 hdef
    obtain ⟨m, hm, hhead⟩ := h.exists_of_owns howns hdef
    exact ⟨m, hm, by rw [hhead, line_of_definitionAt hdef]⟩

theorem map_line_of_bodied {ds : List DeclaredStructure}
    (h : List.Forall₂ (f.Bodied ms lines declared) ds ss) :
    ss.map (·.head.line) = ds.map fun d => ((d.first + 1 : Nat) : Int) := by
  induction h with
  | nil => rfl
  | cons hbodied _ ih => rw [List.map_cons, List.map_cons, hbodied.line, ih]

theorem nodup_lines_of_bodied
    (h : List.Forall₂ (f.Bodied ms lines (declaredStructures sms lines))
      (declaredStructures sms lines) ss) :
    (ss.flatMap fun s => (MethodTree.walkAll s.methods).map (·.head.line)).Nodup := by
  rw [List.nodup_flatMap]
  constructor
  · intro s hs
    obtain ⟨d, -, hbodied⟩ := exists_of_forall₂ h.flip hs
    exact hbodied.nodup_lines
  · apply pairwise_of_forall₂ h (DeclaredStructure.pairwise_declaredStructures sms lines)
    intro d e s s' he hs hs' hlt x hx hx'
    obtain ⟨m, hm, rfl⟩ := List.mem_map.1 hx
    obtain ⟨m', hm', hline⟩ := List.mem_map.1 hx'
    obtain ⟨k, howns, hdef⟩ := hs.owned hm
    obtain ⟨k', howns', hdef'⟩ := hs'.owned hm'
    have hk : k' = k := by
      rw [line_of_definitionAt hdef, line_of_definitionAt hdef'] at hline
      omega
    obtain ⟨hafter, hbefore, hnone⟩ := DeclaredStructure.owns_iff.1 howns
    obtain ⟨hafter', hbefore', -⟩ := DeclaredStructure.owns_iff.1 (hk ▸ howns')
    exact hnone e he hlt (Nat.lt_trans hafter' hbefore) (Nat.le_of_lt hafter') hbefore'

theorem mem_heads_methods {tables : RuleTables} {ts : List MethodTree}
    (hms : f.matchers tables .methods = .ok ms) (h : f.methods tables = .ok ts) :
    head ∈ (MethodTree.walkAll ts).map (·.head) ↔
    ∃ k, f.definitionAt ms (Text.lines f.text) k = some head := by
  obtain ⟨_, found, hms', hfound, rfl⟩ := methods_eq_ok h
  cases hms.symm.trans hms'
  rw [← MethodTree.map_head_outlineAll none, MethodTree.linkLocal, MethodTree.outlineAll_referAll,
    MethodTree.map_head_outlineAll, heads_scanMethods hfound, List.mem_filterMap]
  constructor
  · rintro ⟨⟨line, k⟩, hline, hdef⟩
    exact ⟨k, (definitionAt_eq (List.mem_zipIdx_iff_getElem?.1 hline)).trans hdef⟩
  · rintro ⟨k, hdef⟩
    obtain ⟨line, hline, hdef⟩ := Option.bind_eq_some_iff.1 hdef
    exact ⟨(line, k), List.mem_zipIdx_iff_getElem?.2 hline, hdef⟩

/-- How the structures that lines declare share the methods of these lines: the structures are
disjoint or nested; no line defines two methods in them; a method is in the innermost structure
around its line, unless the line declares one; and what is found there is what the methods of the
file are. -/
structure SharedByBodies (f : SourceFile) (ms : List Matcher) (lines : List Text)
    (declared : List DeclaredStructure)
    (ss : List StructureTree) (ts : List MethodTree) : Prop where
  declares : ss.map (·.head.line) = declared.map fun d => ((d.first + 1 : Nat) : Int)
  ranges : ∀ d ∈ declared, d.stop = Scope.scopeEnd lines d.first
  laminar : ∀ d ∈ declared, ∀ e ∈ declared, d.Laminar e
  once : (ss.flatMap fun s => (MethodTree.walkAll s.methods).map (·.head.line)).Nodup
  owner : ∀ s ∈ ss, ∀ d ∈ declared, s.head.line = (d.first + 1 : Nat) → ∀ k : Nat,
    (∃ m ∈ MethodTree.walkAll s.methods, m.head.line = (k + 1 : Nat)) ↔
      (f.definitionAt ms lines k).isSome ∧ d.Innermost declared k ∧ ∀ e ∈ declared, e.first ≠ k
  agree : ∀ s ∈ ss, ∀ m ∈ MethodTree.walkAll s.methods, ∃ t ∈ MethodTree.walkAll ts, t.head = m.head
  covered : ∀ t ∈ MethodTree.walkAll ts, ∀ k : Nat, t.head.line = (k + 1 : Nat) →
    (∃ d ∈ declared, d.first < k ∧ k < d.stop) → (∀ e ∈ declared, e.first ≠ k) →
    ∃ s ∈ ss, ∃ m ∈ MethodTree.walkAll s.methods, m.head = t.head

/-- With the built-in rules every file has its structures and its methods, and the structures share
the methods. -/
theorem builtin_structures_share_methods (f : SourceFile) :
    ∃ sms ms ss ts, f.matchers builtinRules .structures = .ok sms ∧
      f.matchers builtinRules .methods = .ok ms ∧
      f.structures builtinRules = .ok ss ∧ f.methods builtinRules = .ok ts ∧
      f.SharedByBodies ms (Text.lines f.text)
      (declaredStructures sms (Text.lines f.text)) ss ts := by
  obtain ⟨sms, hsms, hsolid⟩ := answers_allSolid f
  obtain ⟨ms, hms, -⟩ := answers_matchers RuleTables.named_builtinRules f .methods
  obtain ⟨ss, hss, -⟩ := answers_structures RuleTables.named_builtinRules f
  obtain ⟨ts, hts, -⟩ := answers_methods RuleTables.named_builtinRules f
  have hbodied := bodied_structures hsms hms hss
  refine ⟨sms, ms, ss, ts, hsms, hms, hss, hts, ?_⟩
  constructor
  case declares => exact map_line_of_bodied hbodied
  case ranges =>
    intro d hd
    obtain ⟨_, _, _, _, hstop⟩ := DeclaredStructure.mem_declaredStructures.1 hd
    exact hstop
  case laminar => exact fun d hd e he => DeclaredStructure.laminar hsolid hd he
  case once => exact nodup_lines_of_bodied hbodied
  case owner =>
    intro s hs d hd hline k
    obtain ⟨e, he, hs⟩ := exists_of_forall₂ hbodied.flip hs
    have hfirst : d.first = e.first := by
      rw [hs.line] at hline
      omega
    cases DeclaredStructure.eq_of_first_eq hd he hfirst
    rw [hs.defined_iff, DeclaredStructure.owns_iff_innermost hsolid hd]
  case agree =>
    intro s hs m hm
    obtain ⟨d, -, hs⟩ := exists_of_forall₂ hbodied.flip hs
    obtain ⟨k, -, hdef⟩ := hs.owned hm
    exact List.mem_map.1 ((mem_heads_methods hms hts).2 ⟨k, hdef⟩)
  case covered =>
    rintro t ht k hline ⟨d, hd, hafter, hbefore⟩ hdeclares
    obtain ⟨k', hdef⟩ := (mem_heads_methods hms hts).1 (List.mem_map_of_mem ht)
    have hk : k' = k := by
      rw [line_of_definitionAt hdef] at hline
      omega
    obtain ⟨e, he, howns⟩ := DeclaredStructure.exists_owns hd hafter hbefore hdeclares
    obtain ⟨s, hs, hbody⟩ := exists_of_forall₂ hbodied he
    exact ⟨s, hs, hbody.exists_of_owns howns (hk ▸ hdef)⟩

end SourceFile

end DependencyAtlas
