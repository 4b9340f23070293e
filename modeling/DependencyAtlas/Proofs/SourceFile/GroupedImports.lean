import DependencyAtlas.Proofs.Pattern.Indentation
import DependencyAtlas.Proofs.Pattern.Search
import DependencyAtlas.Proofs.Text.Trim

namespace DependencyAtlas

open Text

namespace Pattern

section Beginning

variable {α : Type} {k : Place → Option α} {s : Place} {w t : Text}

theorem run_blanks_of_visible (hs : ∀ c ∈ s.rest.head?, isBlank c = false) :
    blanks.run s k = k s := by
  have hnone : s.advance ⟨[.blank], false⟩ = none := by
    apply Place.advance_eq_none
    intro c hc
    simp [CharSet.contains, CharItem.holds, hs c hc]
  simp only [blanks, many0, blank, run, Search.iterate, hnone, Option.bind_none, if_true]
  rfl

theorem run_exactly_append (hs : s.rest = w ++ t) : (exactly w).run s k = k (s.past w) := by
  induction w generalizing s with
  | nil => rfl
  | cons c w ih =>
    have hc : CharSet.contains ⟨[.char c], false⟩ c = true := by
      simp [CharSet.contains, CharItem.holds]
    change (s.advance ⟨[.char c], false⟩).bind (fun u => (exactly w).run u k) = _
    rw [Place.advance_of_contains hs hc, Option.bind_some, ih, Place.past_past,
      List.singleton_append]
    rw [Place.rest_past, hs]
    rfl

theorem run_lineStart_append (hw : ∀ c ∈ w.head?, isBlank c = false) (hne : w ≠ []) :
    (lineStart ++ exactly w).run { rest := w ++ t } k = k (Place.past { rest := w ++ t } w) := by
  have hhead : ∀ c ∈ (w ++ t).head?, isBlank c = false := by
    rwa [List.head?_append_of_ne_nil w hne]
  change blanks.run { rest := w ++ t } (fun u => (exactly w).run u k) = _
  rw [run_blanks_of_visible hhead, run_exactly_append rfl]

theorem Leads.spans_blanks {u : Place} (h : blanks.Leads s u) :
    ∃ w, s.Spans u w ∧ ∀ c ∈ w, isBlank c = true := by
  generalize hp : blanks = p at h
  induction h with
  | stop => exact ⟨[], .refl _, by simp⟩
  | round hst _ _ ih =>
    cases hp
    cases hst with
    | one hadvance =>
      obtain ⟨c, hspans, hc, -⟩ := Place.spans_of_advance hadvance
      obtain ⟨w, hw, hblank⟩ := ih rfl
      refine ⟨c :: w, hspans.trans hw, List.forall_mem_cons.2 ⟨?_, hblank⟩⟩
      simpa [CharSet.contains, CharItem.holds] using hc
  | _ => cases hp

theorem Leads.spans_sign {c : Char} {u : Place} (h : (exactly [c]).Leads s u) : s.Spans u [c] := by
  cases h with
  | seq hone hempty =>
    cases hempty
    cases hone with
    | one hadvance =>
      obtain ⟨d, hspans, hd, -⟩ := Place.spans_of_advance hadvance
      obtain rfl : d = c := by simpa [CharSet.contains, CharItem.holds] using hd
      exact hspans

end Beginning

end Pattern

namespace Rules.Go

open Pattern

def single : Pattern :=
  lineStart ++ spaced "import" ++ importSpec

def package : Pattern :=
  lineStart ++ spaced "package" ++ captureAs "target" word

theorem visible_import : ∀ c ∈ "import".toList.head?, isBlank c = false := by
  intro c hc
  obtain rfl : 'i' = c := Option.some.inj hc
  decide

theorem match?_single (spec : Text) :
    single.match? ("import ".toList ++ spec) = groupLine.match? spec := by
  let s : Place := { rest := "import ".toList ++ spec }
  let k : Place → Option Captures := fun u => some u.captures
  have hbehind : single.match? ("import ".toList ++ spec) =
      (blanks ++ importSpec).run (s.past "import ".toList) k :=
    run_lineStart_append (w := "import".toList) (t := ' ' :: spec) visible_import (by decide)
  -- a place behind a blank and the start of a line look the same to all that follows
  have hprevious : (s.past "import ".toList).previous = some ' ' := rfl
  have hword : isWord ' ' = false := isWord_eq_false_of_isBlank (by decide)
  have hshifted : Place.Shifted 7 { rest := spec } (s.past "import ".toList) :=
    ⟨rfl, by rw [hprevious, Option.any_some, hword, Option.any_none], rfl, rfl⟩
  rw [hbehind]
  apply run_shifted (by decide +kernel) hshifted
  intro u v huv
  exact congrArg some huv.captures

/-- Of the lines that start with the word for an import, only one that goes on with an opening
parenthesis opens a group. -/
theorem trim_of_groupStart {spec : Text}
    (h : (groupStart.match? ("import ".toList ++ spec)).isSome) :
    trim spec = ['('] := by
  obtain ⟨captures, h⟩ := Option.isSome_iff_exists.1 h
  let k : Place → Option Captures := fun t =>
    blanks.run t fun t => (text "(").run t fun u => blanks.run u fun v => finish.run v fun v =>
      some v.captures
  change (lineStart ++ exactly "import".toList).run { rest := "import".toList ++ ' ' :: spec } k =
    some captures at h
  rw [run_lineStart_append visible_import (by decide)] at h
  obtain ⟨t, hblanks, h⟩ := run_eq_some h
  obtain ⟨u, hsign, h⟩ := run_eq_some h
  obtain ⟨v, hblanks', h⟩ := run_eq_some h
  have hend : v.rest = [] ∨ v.rest = ['\n'] := by
    rw [run] at h
    split at h
    · assumption
    · cases h
  -- the rest of the line is blanks, the sign, blanks and at most a line break, which is a blank as
  -- well
  obtain ⟨front, hfront, hblank⟩ := hblanks.spans_blanks
  obtain ⟨back, hback, hblank'⟩ := hblanks'.spans_blanks
  have hrest : ' ' :: spec = front ++ (['('] ++ (back ++ v.rest)) :=
    hfront.1.trans
      (congrArg (front ++ ·) (hsign.spans_sign.1.trans (congrArg (['('] ++ ·) hback.1)))
  have hbehind : ∀ c ∈ back ++ v.rest, isBlank c = true := by
    intro c hc
    rcases List.mem_append.1 hc with hc | hc
    · exact hblank' c hc
    · rcases hend with he | he
      · rw [he] at hc
        cases hc
      · rw [he] at hc
        rw [List.mem_singleton.1 hc]
        decide
  calc trim spec = trim (' ' :: spec) := (trim_cons (by decide) spec).symm
    _ = trim (['('] ++ (back ++ v.rest)) := by rw [hrest, trim_append hblank]
    _ = ['('] := by rw [trim_append_right hbehind]; decide

theorem match?_package (spec : Text) : package.match? ("import ".toList ++ spec) = none :=
  rfl

end Rules.Go

/-- What a line of a grouped import imports. -/
def specTarget? (line : Text) : Option Text :=
  (Rules.Go.groupLine.match? line).bind (·.lookup "target".toList)

/-- A line that can stand in a group and, behind the word for it, on its own. The path that it
imports, if any, has no blanks at its ends. -/
structure Groupable (spec : Text) : Prop where
  inside : (trim spec).head? ≠ some ')'
  single : trim spec ≠ ['(']
  path : ∀ target, specTarget? spec = some target → trim target ≠ [] ∧ trim target = target

instance (spec : Text) : Decidable (Groupable spec) :=
  decidable_of_iff ((trim spec).head? ≠ some ')' ∧ trim spec ≠ ['('] ∧
      ∀ target ∈ specTarget? spec, trim target ≠ [] ∧ trim target = target)
    ⟨fun h => ⟨h.1, h.2.1, h.2.2⟩, fun h => ⟨h.inside, h.single, h.path⟩⟩

def goRules : List Matcher :=
  [⟨"import".toList, Rules.Go.single⟩, ⟨"import".toList, Rules.Go.package⟩]

theorem matchers_go {f : SourceFile} (hf : f.language = .go) :
    f.matchers builtinRules .modules = .ok goRules := by
  rw [SourceFile.matchers, hf]
  rfl

theorem importTarget?_single {spec : Text} (h : Groupable spec) :
    importTarget? goRules ("import ".toList ++ spec) = specTarget? spec := by
  -- the rule for packages has no part in it
  have hfirst : Matcher.first? goRules ("import ".toList ++ spec) =
      Matcher.find? ⟨"import".toList, Rules.Go.single⟩ ("import ".toList ++ spec) := by
    rw [goRules, Matcher.first?, List.findSome?_cons, List.findSome?_cons, List.findSome?_nil,
      Matcher.find?_eq, Matcher.find?_eq, Rules.Go.match?_package]
    cases Rules.Go.single.match? ("import ".toList ++ spec) <;> rfl
  rw [importTarget?, hfirst, Matcher.find?_eq, Rules.Go.match?_single]
  cases hmatch : Rules.Go.groupLine.match? spec with
  | none => rw [specTarget?, hmatch]; rfl
  | some captures =>
    obtain ⟨target, htarget, -⟩ :=
      Pattern.lookup_of_match? (fun _ => true) "target".toList hmatch (by decide) (by decide)
    have hspec : specTarget? spec = some target := by
      rw [specTarget?, hmatch, Option.bind_some, htarget]
    obtain ⟨hne, htrim⟩ := h.path target hspec
    rw [hspec, ← htrim]
    exact Matcher.lookup_trimmed htarget hne

/-- Whether a group is open behind a line of Go that is read from inside a group or from outside. -/
def groupStep (grouped : Bool) (line : Text) : Bool :=
  if grouped then (trim line).head? ≠ some ')' else (Rules.Go.groupStart.match? line).isSome

def groupOpen (grouped : Bool) (lines : List Text) : Bool :=
  lines.foldl groupStep grouped

def lineTarget? (ms : List Matcher) (grouped : Bool) : Text → Option Text :=
  if grouped then specTarget? else importTarget? ms

section Lines

variable {ms : List Matcher} {grouped : Bool} {lines : List Text}

theorem goImports_cons (ms : List Matcher) (grouped : Bool) (line : Text) (rest : List Text) :
    goImports ms grouped (line :: rest) =
      (if groupStep grouped line = grouped then (lineTarget? ms grouped line).toList else []) ++
        goImports ms (groupStep grouped line) rest := by
  cases grouped with
  | true =>
    by_cases hline : (trim line).head? = some ')'
    · simp [goImports, groupStep, hline]
    · simp [goImports, groupStep, hline, lineTarget?, specTarget?]
  | false =>
    cases hline : (Rules.Go.groupStart.match? line).isSome with
    | true => simp [goImports, groupStep, hline]
    | false => simp [goImports, groupStep, hline, lineTarget?]

theorem goImports_append_lines (ms : List Matcher) (grouped : Bool) (before rest : List Text) :
    goImports ms grouped (before ++ rest) =
      goImports ms grouped before ++ goImports ms (groupOpen grouped before) rest := by
  induction before generalizing grouped with
  | nil => cases grouped <;> rfl
  | cons line before ih =>
    rw [List.cons_append, goImports_cons, goImports_cons, ih, List.append_assoc]
    rfl

theorem goImports_of_steady (ms : List Matcher)
    (h : ∀ line ∈ lines, groupStep grouped line = grouped) :
    groupOpen grouped lines = grouped ∧ goImports ms grouped lines =
      lines.filterMap (lineTarget? ms grouped) := by
  induction lines with
  | nil => exact ⟨rfl, by cases grouped <;> rfl⟩
  | cons line lines ih =>
    obtain ⟨hline, hlines⟩ := List.forall_mem_cons.1 h
    obtain ⟨hopen, hrest⟩ := ih hlines
    refine ⟨?_, ?_⟩
    · rw [groupOpen, List.foldl_cons, hline]
      exact hopen
    · rw [goImports_cons, if_pos hline, hline, hrest, List.filterMap_cons]
      cases lineTarget? ms grouped line <;> rfl

variable {specs : List Text}

theorem goImports_group (ms : List Matcher) (hspecs : ∀ spec ∈ specs, Groupable spec)
    (after : List Text) :
    goImports ms false (["import (".toList] ++ specs ++ [[')']] ++ after) =
      specs.filterMap specTarget? ++ goImports ms false after := by
  have hsteady : ∀ spec ∈ specs, groupStep true spec = true := by
    intro spec hspec
    simpa [groupStep] using (hspecs spec hspec).inside
  obtain ⟨hopen, hinside⟩ := goImports_of_steady ms hsteady
  have hstart : groupStep false "import (".toList = true := by decide +kernel
  have hend : groupStep true [')'] = false := by decide
  rw [List.append_assoc, List.append_assoc, List.singleton_append, goImports_cons, hstart,
    goImports_append_lines, hopen, hinside, List.singleton_append, goImports_cons, hend]
  rfl

theorem goImports_singles (hspecs : ∀ spec ∈ specs, Groupable spec) (after : List Text) :
    goImports goRules false (specs.map ("import ".toList ++ ·) ++ after) =
      specs.filterMap specTarget? ++ goImports goRules false after := by
  have hsteady : ∀ line ∈ specs.map ("import ".toList ++ ·), groupStep false line = false := by
    intro line hline
    obtain ⟨spec, hspec, rfl⟩ := List.mem_map.1 hline
    apply Bool.eq_false_iff.2
    intro hstart
    exact (hspecs spec hspec).single (Rules.Go.trim_of_groupStart hstart)
  obtain ⟨hopen, hsingle⟩ := goImports_of_steady goRules hsteady
  have htargets : specs.filterMap (lineTarget? goRules false ∘ ("import ".toList ++ ·)) =
      specs.filterMap specTarget? :=
    List.filterMap_congr fun spec hspec => importTarget?_single (hspecs spec hspec)
  rw [goImports_append_lines, hopen, hsingle, List.filterMap_map, htargets]

end Lines

namespace SourceFile

theorem imports_go {f : SourceFile} (hf : f.language = .go) :
    f.imports builtinRules = .ok (goImports goRules false (Text.lines f.text)) := by
  rw [imports, matchers_go hf]
  simp only [bind, Except.bind, if_pos hf]
  rfl

/-- A group of imports means the same as a single import for each of its lines. -/
theorem grouped_imports_mean_singles {f g : SourceFile} {before specs after : List Text}
    (hf : f.language = .go) (hg : g.language = .go)
    (hflines : Text.lines f.text = before ++ ["import (".toList] ++ specs ++ [[')']] ++ after)
    (hglines : Text.lines g.text = before ++ specs.map ("import ".toList ++ ·) ++ after)
    (hbefore : groupOpen false before = false) (hspecs : ∀ spec ∈ specs, Groupable spec) :
    ∃ targets, f.imports builtinRules = .ok targets ∧ g.imports builtinRules = .ok targets ∧
      specs.filterMap specTarget? <:+: targets := by
  refine ⟨goImports goRules false before ++ specs.filterMap specTarget? ++
    goImports goRules false after, ?_, ?_, ?_⟩
  · rw [imports_go hf, hflines, List.append_assoc, List.append_assoc, List.append_assoc,
      goImports_append_lines, hbefore, ← List.append_assoc, ← List.append_assoc,
      goImports_group goRules hspecs, List.append_assoc]
  · rw [imports_go hg, hglines, List.append_assoc, goImports_append_lines, hbefore,
      goImports_singles hspecs, List.append_assoc]
  · exact ⟨_, _, rfl⟩

/-- A group between two others: an import under another name with a comment behind it, one into the
scope of the file, a comment and an empty line. -/
def inGroup : SourceFile where
  path := "g.go".toList
  language := .go
  text := "package p\nimport (\n\t\"a/b\"\n)\n".toList ++
    "import (\n\tstr \"strings\" // import \"x\"\n\t. \"fmt\"\n// none\n\n)\n".toList ++
      "import (\n\"os\"\n)".toList

def onTheirOwn : SourceFile where
  path := "s.go".toList
  language := .go
  text := "package p\nimport (\n\t\"a/b\"\n)\n".toList ++
    "import \tstr \"strings\" // import \"x\"\nimport \t. \"fmt\"\nimport // none\nimport \n".toList
      ++
    "import (\n\"os\"\n)".toList

theorem imports_of_inGroup_and_onTheirOwn :
    let specs :=
      ["\tstr \"strings\" // import \"x\"", "\t. \"fmt\"", "// none", ""].map String.toList
    (∀ spec ∈ specs, Groupable spec) ∧ specs.filterMap specTarget? =
      ["strings", "fmt"].map String.toList ∧
      inGroup.imports builtinRules = .ok (["p", "a/b", "strings", "fmt", "os"].map String.toList) ∧
      onTheirOwn.imports builtinRules = .ok (["p", "a/b", "strings", "fmt",
        "os"].map String.toList) := by
  intro specs
  have hspecs : ∀ spec ∈ specs, Groupable spec := by decide +kernel
  have htargets : specs.filterMap specTarget? = ["strings", "fmt"].map String.toList := by
    decide +kernel
  let before := ["package p", "import (", "\t\"a/b\"", ")"].map String.toList
  let after := ["import (", "\"os\"", ")"].map String.toList
  have hgrouped :
      Text.lines inGroup.text = before ++ ["import (".toList] ++ specs ++ [[')']] ++ after := by
    decide +kernel
  have halone : Text.lines onTheirOwn.text = before ++ specs.map ("import ".toList ++ ·) ++
      after := by decide +kernel
  have hclosed : groupOpen false before = false := by decide +kernel
  obtain ⟨targets, hgroup, hsingle, -⟩ :=
    grouped_imports_mean_singles rfl rfl hgrouped halone hclosed hspecs
  have himports : (inGroup.imports builtinRules).toOption =
      some (["p", "a/b", "strings", "fmt", "os"].map String.toList) := by
    decide +kernel
  rw [hgroup] at himports
  cases Option.some.inj himports
  exact ⟨hspecs, htargets, hgroup, hsingle⟩

end SourceFile

end DependencyAtlas
