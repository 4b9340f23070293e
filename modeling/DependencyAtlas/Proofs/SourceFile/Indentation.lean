import DependencyAtlas.Proofs.Pattern.Indentation
import DependencyAtlas.Proofs.SourceFile.Renumbering
import DependencyAtlas.Proofs.Text.Trim

namespace DependencyAtlas

namespace Text

/-- Puts `w` in front of each line of a text, where `atStart` says that a line starts with the
text. -/
def indentFrom (w : Text) : (atStart : Bool) → Text → Text
  | _, [] => []
  | atStart, '\r' :: '\n' :: t => (if atStart then w else []) ++ '\r' :: '\n' :: indentFrom w true t
  | atStart, c :: t => (if atStart then w else []) ++ c :: indentFrom w (isLineEnd c) t

/-- A text with `w` in front of each of its lines, and with the line ends that it has. -/
def indentLines (w t : Text) : Text :=
  indentFrom w true t

section Lines

variable {w t : Text} {c : Char}

theorem indentFrom_true (ht : t ≠ []) : indentFrom w true t = w ++ indentFrom w false t := by
  rw [indentFrom.eq_def, indentFrom.eq_def w false]
  split
  · exact (ht rfl).elim
  · rfl
  · rfl

theorem lines_of_plain (hc : isLineEnd c = false) :
    lines (c :: t) = match lines t with
      | [] => [[c]]
      | l :: ls => (c :: l) :: ls := by
  rw [lines.eq_def]
  split
  · next h => cases h
  · next h =>
    cases h
    cases hc
  · next h =>
    cases h
    exact if_neg (Bool.eq_false_iff.1 hc)

theorem lines_of_lineEnd (hc : isLineEnd c = true) (ht : t.head? = some '\n' → c ≠ '\r') :
    lines (c :: t) = [] :: lines t := by
  rw [lines.eq_def]
  split
  · next h => cases h
  · next h =>
    cases h
    exact (ht rfl rfl).elim
  · next h =>
    cases h
    rw [if_pos hc]

theorem lines_append {s l : Text} {ls : List Text} (hw : ∀ c ∈ w, isLineEnd c = false)
    (h : lines s = l :: ls) :
    lines (w ++ s) = (w ++ l) :: ls := by
  induction w with
  | nil => exact h
  | cons c w ih =>
    obtain ⟨hc, hw⟩ := List.forall_mem_cons.1 hw
    rw [List.cons_append, lines_of_plain hc, ih hw]
    rfl

/-- The lines behind a place in a line: the first one goes on, the others are indented. -/
def indentRest (w : Text) : List Text → List Text
  | [] => []
  | l :: ls => l :: ls.map (w ++ ·)

theorem lines_ne_nil (ht : t ≠ []) : lines t ≠ [] := by
  rw [lines.eq_def]
  split
  · exact (ht rfl).elim
  · exact List.cons_ne_nil _ _
  · split
    · exact List.cons_ne_nil _ _
    · split <;> exact List.cons_ne_nil _ _

theorem lines_indentFrom_true (hw : ∀ c ∈ w, isLineEnd c = false)
    (h : lines (indentFrom w false t) = indentRest w (lines t)) :
    lines (indentFrom w true t) = (lines t).map (w ++ ·) := by
  by_cases ht : t = []
  · rw [ht]
    rfl
  · obtain ⟨l, ls, hlines⟩ := List.exists_cons_of_ne_nil (lines_ne_nil ht)
    rw [hlines] at h
    rw [indentFrom_true ht, lines_append hw h, hlines, List.map_cons]

theorem indentFrom_false_cons (h : ∀ s, c = '\r' → t = '\n' :: s → False) :
    indentFrom w false (c :: t) = c :: indentFrom w (isLineEnd c) t := by
  rw [indentFrom.eq_def]
  split
  · next heq => cases heq
  · next heq =>
    cases heq
    exact (h _ rfl rfl).elim
  · next heq =>
    cases heq
    rfl

theorem head?_indentFrom_false : (indentFrom w false t).head? = t.head? := by
  rw [indentFrom.eq_def]
  split <;> rfl

theorem head?_indentFrom_true (hw : ∀ c ∈ w, isLineEnd c = false) (ht : t.head? ≠ some '\n') :
    (indentFrom w true t).head? ≠ some '\n' := by
  by_cases hnil : t = []
  · rw [hnil]
    exact fun h => nomatch h
  · rw [indentFrom_true hnil]
    cases w with
    | nil =>
      rw [List.nil_append, head?_indentFrom_false]
      exact ht
    | cons d w =>
      intro h
      cases h
      cases (List.forall_mem_cons.1 hw).1

theorem lines_indentFrom_false (hw : ∀ c ∈ w, isLineEnd c = false) (t : Text) :
    lines (indentFrom w false t) = indentRest w (lines t) := by
  fun_induction lines t with
  | case1 => rfl
  | case2 t ih =>
    change lines ('\r' :: '\n' :: indentFrom w true t) = [] :: (lines t).map (w ++ ·)
    rw [lines, lines_indentFrom_true hw ih]
  | case3 c t hne hc ih =>
    have hapart : (indentFrom w true t).head? = some '\n' → c ≠ '\r' := by
      intro hfeed hreturn
      apply head?_indentFrom_true hw _ hfeed
      intro ht
      obtain ⟨s, hs⟩ := List.head?_eq_some_iff.1 ht
      exact hne s hreturn hs
    rw [indentFrom_false_cons hne, hc, lines_of_lineEnd hc hapart, lines_indentFrom_true hw ih,
      indentRest]
  | case4 c t hne hc hnil ih =>
    rw [indentFrom_false_cons hne, Bool.eq_false_iff.2 hc, lines_of_plain (Bool.eq_false_iff.2 hc),
      ih, hnil]
    rfl
  | case5 c t hne hc l ls hlines ih =>
    rw [indentFrom_false_cons hne, Bool.eq_false_iff.2 hc, lines_of_plain (Bool.eq_false_iff.2 hc),
      ih, hlines]
    rfl

theorem lines_indentLines (hw : ∀ c ∈ w, isLineEnd c = false) (t : Text) :
    lines (indentLines w t) = (lines t).map (w ++ ·) :=
  lines_indentFrom_true hw (lines_indentFrom_false hw t)

end Lines

section Blank

variable {w : Text}

theorem indent_append (hw : ∀ c ∈ w, isBlank c = true) (l : Text) :
    indent (w ++ l) = indent l + w.length := by
  rw [indent, indent, List.takeWhile_append_of_pos hw, List.length_append, Nat.add_comm]

end Blank

end Text

namespace CallSite

open Text

variable {w : Text}

theorem blankLiterals_append (hw : ∀ c ∈ w, isBlank c = true) (line : Text) :
    blankLiterals (w ++ line) = w ++ blankLiterals line := by
  induction w with
  | nil => rfl
  | cons c w ih =>
    obtain ⟨hc, hw⟩ := List.forall_mem_cons.1 hw
    rw [List.cons_append, blankLiterals, blankFrom, isQuote_eq_false_of_isBlank hc]
    exact congrArg (c :: ·) (ih hw)

theorem separates_of_isBlank {c : Char} (hc : isBlank c = true) : separates c = true := by
  have hdollar : c ≠ '$' := ne_of_isBlank hc (by decide)
  simp [separates, isWord_eq_false_of_isBlank hc, hdollar]

theorem namesFrom_of_separates {previous : Option Char} (h : previous.all separates = true)
    (t : Text) :
    namesFrom previous t = namesFrom none t := by
  cases t with
  | nil => rfl
  | cons c t =>
    rw [namesFrom, namesFrom, nameAt, nameAt, h]
    rfl

theorem namesFrom_append (hw : ∀ c ∈ w, isBlank c = true) (t : Text) :
    namesFrom none (w ++ t) = namesFrom none t := by
  induction w with
  | nil => rfl
  | cons c w ih =>
    obtain ⟨hc, hw⟩ := List.forall_mem_cons.1 hw
    have hseparates : (some c).all separates = true := separates_of_isBlank hc
    rw [List.cons_append, namesFrom, nameAt, isNameStart_eq_false_of_isBlank hc,
      namesFrom_of_separates hseparates, ih hw]
    rfl

theorem find_append (hw : ∀ c ∈ w, isBlank c = true) (line : Text) :
    find (w ++ line) = find line := by
  rw [find, find, blankLiterals_append hw, namesFrom_append hw]

end CallSite

/-- Indenting all lines by the same blanks. -/
def Respacing.indenting (w : Text) (hw : ∀ c ∈ w, Text.isBlank c = true) : Respacing where
  line l := w ++ l
  index := id
  number := id
  depth := w.length
  strictMono := strictMono_id
  number_succ _ := rfl
  trim := Text.trim_append hw
  indent := Text.indent_append hw
  calls := CallSite.find_append hw

namespace Respacing

variable {w : Text} (hw : ∀ c ∈ w, Text.isBlank c = true)

theorem indenting_keeps {ms : List Matcher} (hms : Matcher.AllIndentable ms) :
    (indenting w hw).Keeps ms :=
  hms.first?_append hw

theorem indenting_relates (lines : List Text) :
    (indenting w hw).Relates lines (lines.map (w ++ ·)) := by
  refine ⟨?_, List.length_map _⟩
  have hsignificant : (fun l : Text × Nat => Scope.isSignificant l.1) ∘ Prod.map (w ++ ·) id =
      fun l => Scope.isSignificant l.1 := funext fun l => (indenting w hw).isSignificant_line l.1
  rw [Scope.significantLines, List.zipIdx_map, List.filter_map, hsignificant]
  rfl

end Respacing

section Imports

variable {w : Text} (hw : ∀ c ∈ w, Text.isBlank c = true) {ms : List Matcher}
  (hms : Matcher.AllIndentable ms)

include hw hms

theorem importTarget?_append (line : Text) :
    importTarget? ms (w ++ line) = importTarget? ms line := by
  rw [importTarget?, importTarget?, hms.first?_append hw]

theorem goImports_append (grouped : Bool) (lines : List Text) :
    goImports ms grouped (lines.map (w ++ ·)) = goImports ms grouped lines := by
  have hstart : Rules.Go.groupStart.isIndentable = true := by decide +kernel
  have hline : Rules.Go.groupLine.isIndentable = true := by decide +kernel
  induction lines generalizing grouped with
  | nil => rfl
  | cons line lines ih =>
    cases grouped with
    | true =>
      rw [List.map_cons, goImports, goImports, Text.trim_append hw,
        Pattern.match?_indented hline hw, ih, ih]
    | false =>
      rw [List.map_cons, goImports, goImports, Pattern.match?_indented hstart hw,
        importTarget?_append hw hms, ih, ih]

end Imports

namespace SourceFile

theorem imports_indentLines (f : SourceFile) {w : Text} (hblank : ∀ c ∈ w, Text.isBlank c = true)
    (hplain : ∀ c ∈ w, Text.isLineEnd c = false) :
    { f with text := Text.indentLines w f.text }.imports builtinRules = f.imports builtinRules := by
  obtain ⟨ms, hms, hindentable⟩ := answers_allIndentable f .modules
  have hms' :
      { f with text := Text.indentLines w f.text }.matchers builtinRules .modules = .ok ms := hms
  have htarget : importTarget? ms ∘ (w ++ ·) = importTarget? ms :=
    funext (importTarget?_append hblank hindentable)
  rw [imports, imports, hms, hms']
  simp only [bind, Except.bind, Text.lines_indentLines hplain, goImports_append hblank hindentable,
    List.filterMap_map, htarget]

/-- Spaces and tabs in front of all lines of a file leave its imports, structures and methods as
they are. -/
theorem builtin_extraction_ignores_base_indentation (f : SourceFile) {w : Text}
    (hw : ∀ c ∈ w, c = ' ' ∨ c = '\t') :
    ∃ targets ss ts, f.imports builtinRules = .ok targets ∧ f.structures builtinRules = .ok ss ∧
      f.methods builtinRules = .ok ts ∧
      { f with text := Text.indentLines w f.text }.imports builtinRules = .ok targets ∧
      { f with text := Text.indentLines w f.text }.structures builtinRules = .ok ss ∧
      { f with text := Text.indentLines w f.text }.methods builtinRules = .ok ts := by
  have hblank : ∀ c ∈ w, Text.isBlank c = true := by
    intro c hc
    rcases hw c hc with rfl | rfl <;> decide
  have hplain : ∀ c ∈ w, Text.isLineEnd c = false := by
    intro c hc
    rcases hw c hc with rfl | rfl <;> decide
  have hlines := Text.lines_indentLines hplain f.text
  have hrelates := Respacing.indenting_relates hblank (Text.lines f.text)
  rw [← hlines] at hrelates
  obtain ⟨sms, hsms, hsolid⟩ := answers_allSolid f
  obtain ⟨ms, hms, hmethods⟩ := answers_allIndentable f .methods
  obtain ⟨_, hsms', hstructures⟩ := answers_allIndentable f .structures
  cases hsms.symm.trans hsms'
  obtain ⟨targets, htargets, -⟩ := answers_imports RuleTables.named_builtinRules f
  obtain ⟨ss, hss, -⟩ := answers_structures RuleTables.named_builtinRules f
  obtain ⟨ts, hts, -⟩ := answers_methods RuleTables.named_builtinRules f
  refine ⟨targets, ss, ts, htargets, hss, hts, ?_, ?_, ?_⟩
  · rw [imports_indentLines f hblank hplain, htargets]
  · have h := structures_respaced hsms hsolid (Respacing.indenting_keeps hblank hstructures) hms
      (Respacing.indenting_keeps hblank hmethods) hrelates hss
    have hid : ss.map (StructureTree.renumber id) = ss :=
      (List.map_congr_left fun s _ => s.renumber_id).trans (List.map_id ss)
    exact h.trans (congrArg Except.ok hid)
  · have h := methods_respaced hms (Respacing.indenting_keeps hblank hmethods) hrelates
    rw [h, hts]
    exact congrArg Except.ok (MethodTree.renumberAll_id ts)

/-- A grouped import, a structure and a method that makes a call. -/
def groupedImport : SourceFile where
  path := "g.go".toList
  language := .go
  text := "package p\nimport (\n\t\"a/b\"\n)\ntype S struct \x7b\n\tn int\n\x7d\n".toList ++
    "func f(s S) int \x7b\n\treturn g(s)\n\x7d".toList

theorem extraction_of_groupedImport_indented :
    let indented := { groupedImport with text := Text.indentLines "\t ".toList groupedImport.text }
    (∀ c ∈ "\t ".toList, c = ' ' ∨ c = '\t') ∧
      ∃ ss ts, indented.imports builtinRules = .ok (["p", "a/b"].map String.toList) ∧
        indented.structures builtinRules = .ok ss ∧ indented.methods builtinRules = .ok ts ∧
        ss.map (fun s => (s.head.name, s.head.line)) = [(['S'], 5)] ∧
        ts.map (fun t => (t.head.name, t.head.line, t.calls)) = [(['f'], 8, [['g']])] := by
  intro indented
  have hw : ∀ c ∈ "\t ".toList, c = ' ' ∨ c = '\t' := by simp
  obtain ⟨targets, ss, ts, htargets, hss, hts, htargets', hss', hts'⟩ :=
    builtin_extraction_ignores_base_indentation groupedImport hw
  have himports :
      (groupedImport.imports builtinRules).toOption = some (["p", "a/b"].map String.toList) := by
    decide +kernel
  have hstructures : (groupedImport.structures builtinRules).toOption.map (fun ss =>
      ss.map fun s => (s.head.name, s.head.line)) = some [(['S'], 5)] := by
    decide +kernel
  have hmethods : (groupedImport.methods builtinRules).toOption.map (fun ts =>
      ts.map fun t => (t.head.name, t.head.line, t.calls)) = some [(['f'], 8, [['g']])] := by
    decide +kernel
  rw [htargets] at himports
  rw [hss] at hstructures
  rw [hts] at hmethods
  cases Option.some.inj himports
  exact ⟨hw, ss, ts, htargets', hss', hts', Option.some.inj hstructures, Option.some.inj hmethods⟩

end SourceFile

end DependencyAtlas
