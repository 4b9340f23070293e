import DependencyAtlas.Proofs.SourceFile.Renumbering

namespace DependencyAtlas

def indexAfterInsertion (p i : Nat) : Nat :=
  if i < p then i else i + 1

/-- The number that a line has when a line has been inserted at index `p`: those behind it have
moved by one. -/
def numberAfterInsertion (p : Nat) (number : Int) : Int :=
  if (p : Int) < number then number + 1 else number

theorem strictMono_indexAfterInsertion (p : Nat) : StrictMono (indexAfterInsertion p) := by
  intro i j hij
  rw [indexAfterInsertion, indexAfterInsertion]
  split <;> split <;> omega

theorem numberAfterInsertion_succ (p i : Nat) :
    numberAfterInsertion p (i + 1 : Nat) = (indexAfterInsertion p i + 1 : Nat) := by
  rw [numberAfterInsertion, indexAfterInsertion]
  split <;> split <;> omega

def Respacing.inserting (p : Nat) : Respacing where
  line := id
  index := indexAfterInsertion p
  number := numberAfterInsertion p
  depth := 0
  strictMono := strictMono_indexAfterInsertion p
  number_succ := numberAfterInsertion_succ p
  trim _ := rfl
  indent _ := rfl
  calls _ := rfl

namespace Scope

/-- Whether a line is blank, a comment or a lone opening bracket. -/
def isInert (line : Text) : Bool :=
  Text.trim line == [] || isComment (Text.trim line) || isLoneOpener (Text.trim line)

theorem isSignificant_eq_not_isInert (line : Text) : isSignificant line = !isInert line := by
  rw [isSignificant, isInert, Bool.not_or, Bool.not_or]
  rfl

variable {x : Text} {lines : List Text}

theorem significant_zipIdx_succ {k n : Nat} (hk : k ≤ n) (lines : List Text) :
    ((lines.zipIdx (n + 1)).filter fun l => isSignificant l.1) =
      ((lines.zipIdx n).filter fun l => isSignificant l.1).map
        (Prod.map id (indexAfterInsertion k)) := by
  induction lines generalizing n with
  | nil => rfl
  | cons l lines ih =>
    have hn : indexAfterInsertion k n = n + 1 := if_neg (Nat.not_lt.2 hk)
    rw [List.zipIdx_cons, List.zipIdx_cons, List.filter_cons, List.filter_cons,
      ih (Nat.le_succ_of_le hk)]
    split
    · rw [List.map_cons, Prod.map_apply, hn]
      rfl
    · rfl

theorem significant_zipIdx_insertIdx (hx : isSignificant x = false) {p : Nat}
    (hp : p ≤ lines.length) (n : Nat) :
    (((lines.insertIdx p x).zipIdx n).filter fun l => isSignificant l.1) =
      ((lines.zipIdx n).filter fun l => isSignificant l.1).map
        (Prod.map id (indexAfterInsertion (n + p))) := by
  induction p generalizing lines n with
  | zero =>
    rw [List.insertIdx_zero, List.zipIdx_cons, List.filter_cons, hx]
    exact significant_zipIdx_succ (Nat.le_refl n) lines
  | succ p ih =>
    cases lines with
    | nil => cases hp
    | cons l lines =>
      have hplace : n + 1 + p = n + (p + 1) := Nat.succ_add_eq_add_succ n p
      have hn : indexAfterInsertion (n + (p + 1)) n = n :=
        if_pos (Nat.lt_add_of_pos_right (Nat.succ_pos p))
      rw [List.insertIdx_succ_cons, List.zipIdx_cons, List.zipIdx_cons, List.filter_cons,
        List.filter_cons, ih (Nat.le_of_succ_le_succ hp), hplace]
      split
      · rw [List.map_cons, Prod.map_apply, hn]
        rfl
      · rfl

end Scope

theorem Respacing.inserting_relates {x : Text} {lines : List Text}
    (hx : Scope.isSignificant x = false) {p : Nat} (hp : p ≤ lines.length) :
    (inserting p).Relates lines (lines.insertIdx p x) := by
  constructor
  · have h := Scope.significant_zipIdx_insertIdx hx hp 0
    rw [Nat.zero_add] at h
    exact h
  · rw [List.length_insertIdx_of_le_length hp]
    exact (if_neg (Nat.not_lt.2 hp)).symm

namespace SourceFile

/-- A blank line, a comment or a lone opening bracket that is inserted in a file moves the
declarations behind it by one line, and leaves its structures and methods as they are in all
else. -/
theorem builtin_extraction_ignores_inert_line (f : SourceFile) {p : Nat} {x text : Text}
    (hp : p ≤ (Text.lines f.text).length) (hx : Scope.isInert x = true)
    (htext : Text.lines text = (Text.lines f.text).insertIdx p x) :
    ∃ ss ts, f.structures builtinRules = .ok ss ∧ f.methods builtinRules = .ok ts ∧
      { f with text }.structures builtinRules =
        .ok (ss.map (StructureTree.renumber (numberAfterInsertion p))) ∧
      { f with text }.methods builtinRules =
        .ok (MethodTree.renumberAll (numberAfterInsertion p) ts) := by
  have hinert : Scope.isSignificant x = false := by
    rw [Scope.isSignificant_eq_not_isInert, hx, Bool.not_true]
  have hrelates := Respacing.inserting_relates hinert hp
  rw [← htext] at hrelates
  have hkeeps (ms : List Matcher) : (Respacing.inserting p).Keeps ms := fun _ => rfl
  obtain ⟨sms, hsms, hsolid⟩ := answers_allSolid f
  obtain ⟨ms, hms, -⟩ := answers_matchers RuleTables.named_builtinRules f .methods
  obtain ⟨ss, hss, -⟩ := answers_structures RuleTables.named_builtinRules f
  obtain ⟨ts, hts, -⟩ := answers_methods RuleTables.named_builtinRules f
  refine ⟨ss, ts, hss, hts,
    structures_respaced hsms hsolid (hkeeps sms) hms (hkeeps ms) hrelates hss, ?_⟩
  rw [methods_respaced hms (hkeeps ms) hrelates, hts]
  rfl

def methodInClass : SourceFile where
  path := "m.py".toList
  language := .python
  text := "class A(B):\n    def f(self):\n        g()\ndef h():\n    f()\n".toList

theorem extraction_of_methodInClass_commented :
    let commented := "class A(B):\n    def f(self):\n# f\n        g()\ndef h():\n    f()\n".toList
    2 ≤ (Text.lines methodInClass.text).length ∧ Scope.isInert "# f".toList = true ∧
      Text.lines commented = (Text.lines methodInClass.text).insertIdx 2 "# f".toList ∧
      ∃ ss ts, { methodInClass with text := commented }.structures builtinRules = .ok ss ∧
        { methodInClass with text := commented }.methods builtinRules = .ok ts ∧
        (ss.flatMap fun s => s.methods.map fun t => (s.head.line, t.head.line, t.calls)) =
          [(1, 2, [['g']])] ∧
        (ts.map fun t => (t.head.line, t.calls, t.references)) =
          [(2, [['g']], ["m.py:h".toList]), (5, [['f']], [])] := by
  intro commented
  have hp : 2 ≤ (Text.lines methodInClass.text).length := by decide +kernel
  have hx : Scope.isInert "# f".toList = true := by decide +kernel
  have htext : Text.lines commented = (Text.lines methodInClass.text).insertIdx 2 "# f".toList := by
    decide +kernel
  obtain ⟨ss, ts, hss, hts, hss', hts'⟩ :=
    builtin_extraction_ignores_inert_line methodInClass hp hx htext
  have hstructures : (methodInClass.structures builtinRules).toOption.map (fun ss =>
      (ss.map (StructureTree.renumber (numberAfterInsertion 2))).flatMap fun s =>
        s.methods.map fun t => (s.head.line, t.head.line, t.calls)) = some [(1, 2, [['g']])] := by
    decide +kernel
  have hmethods : (methodInClass.methods builtinRules).toOption.map (fun ts =>
      (MethodTree.renumberAll (numberAfterInsertion 2) ts).map fun t => (t.head.line, t.calls,
        t.references)) =
      some [(2, [['g']], ["m.py:h".toList]), (5, [['f']], [])] := by
    decide +kernel
  rw [hss] at hstructures
  rw [hts] at hmethods
  exact ⟨hp, hx, htext, _, _, hss', hts', Option.some.inj hstructures, Option.some.inj hmethods⟩

end SourceFile

end DependencyAtlas
