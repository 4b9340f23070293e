import DependencyAtlas.Proofs.SourceFile.Methods
import Mathlib.Data.List.TakeWhile

namespace DependencyAtlas

/-- A method in an outline: the method that it is declared in, what its declaration says, and the
names it calls. -/
structure OutlineEntry where
  parent : Option MethodHead
  head : MethodHead
  calls : List Text
  deriving DecidableEq, Repr

namespace MethodTree

mutual

def outline (parent : Option MethodHead) : MethodTree → List OutlineEntry
  | ⟨head, calls, _, children⟩ => ⟨parent, head, calls⟩ :: outlineAll (some head) children

/-- The outline of methods that are declared in `parent`. -/
def outlineAll (parent : Option MethodHead) : List MethodTree → List OutlineEntry
  | [] => []
  | m :: ms => outline parent m ++ outlineAll parent ms

end

theorem outline_eq (parent : Option MethodHead) (t : MethodTree) :
    t.outline parent = ⟨parent, t.head, t.calls⟩ :: outlineAll (some t.head) t.children := by
  cases t
  rw [outline]

theorem outlineAll_append (parent : Option MethodHead) (ts us : List MethodTree) :
    outlineAll parent (ts ++ us) = outlineAll parent ts ++ outlineAll parent us := by
  induction ts with
  | nil => rfl
  | cons t ts ih => rw [List.cons_append, outlineAll, outlineAll, ih, List.append_assoc]

mutual

theorem map_head_outline (parent : Option MethodHead) :
    (t : MethodTree) → (t.outline parent).map (·.head) = t.walk.map (·.head)
  | ⟨head, _, _, children⟩ => by
    rw [outline, walk, List.map_cons, List.map_cons, map_head_outlineAll (some head) children]

theorem map_head_outlineAll (parent : Option MethodHead) :
    (ts : List MethodTree) → (outlineAll parent ts).map (·.head) = (walkAll ts).map (·.head)
  | [] => rfl
  | t :: ts => by
    rw [outlineAll, walkAll, List.map_append, List.map_append, map_head_outline parent t,
      map_head_outlineAll parent ts]

end

mutual

theorem outline_refer (references : Text → List Text) (parent : Option MethodHead) :
    (t : MethodTree) → (t.refer references).outline parent = t.outline parent
  | ⟨head, _, _, children⟩ => by
    rw [refer, outline, outline, outlineAll_referAll references (some head) children]

theorem outlineAll_referAll (references : Text → List Text) (parent : Option MethodHead) :
    (ts : List MethodTree) → outlineAll parent (referAll references ts) = outlineAll parent ts
  | [] => rfl
  | t :: ts => by
    rw [referAll, outlineAll, outlineAll, outline_refer references parent t,
      outlineAll_referAll references parent ts]

end

theorem addCalls_eq (names : List Text) (t : MethodTree) :
    names.foldl addCall t = { t with calls := (names.foldl addCall t).calls } := by
  induction names generalizing t with
  | nil =>
    cases t
    rfl
  | cons name names ih =>
    rw [List.foldl_cons, ih, addCall]
    split <;> rfl

theorem head_addCalls (names : List Text) (t : MethodTree) :
    (names.foldl addCall t).head = t.head := by
  rw [addCalls_eq]

theorem calls_addCalls {names : List Text} (h : ∀ name ∈ names, name ≠ []) (t : MethodTree) :
    (names.foldl addCall t).calls = names.foldl FirstSeen.add t.calls := by
  induction names generalizing t with
  | nil => rfl
  | cons name names ih =>
    obtain ⟨hname, hnames⟩ := List.forall_mem_cons.1 h
    rw [List.foldl_cons, List.foldl_cons, ih hnames, addCall, if_neg hname]

end MethodTree

def OpenScope.mark (s : OpenScope) : Nat × Option MethodHead :=
  (s.depth, some s.method.head)

namespace MethodScan

def innermost (scopes : List OpenScope) : Option MethodHead :=
  scopes.head?.map (·.method.head)

/-- The outline of the methods whose scopes are open, with what is complete inside them. -/
def outlineOpen : List OpenScope → List OutlineEntry
  | [] => []
  | s :: rest => outlineOpen rest ++ s.method.outline (innermost rest)

/-- The outline of all methods that have been read. -/
def outline (scan : MethodScan) : List OutlineEntry :=
  MethodTree.outlineAll none scan.complete ++ outlineOpen scan.scopes

theorem outline_receive (parent : Option MethodHead) (s : OpenScope) (child : Option MethodTree) :
    (s.receive child).method.outline parent =
      s.method.outline parent ++ MethodTree.outlineAll (some s.method.head) child.toList := by
  rw [MethodTree.outline_eq, MethodTree.outline_eq, OpenScope.receive, MethodTree.outlineAll_append,
    List.cons_append]

theorem outline_closeFrom (depth : Nat) (complete : List MethodTree) (child : Option MethodTree)
    (scopes : List OpenScope) :
    (closeFrom depth complete child scopes).outline =
      MethodTree.outlineAll none complete ++ outlineOpen scopes ++
      MethodTree.outlineAll (innermost scopes) child.toList := by
  induction scopes generalizing child with
  | nil =>
    rw [closeFrom, outline, MethodTree.outlineAll_append, outlineOpen, List.append_nil,
      List.append_nil]
    rfl
  | cons s rest ih =>
    have hmore : outlineOpen rest ++ (s.receive child).method.outline (innermost rest) =
        outlineOpen (s :: rest) ++ MethodTree.outlineAll (innermost (s :: rest)) child.toList := by
      rw [outline_receive, ← List.append_assoc]
      rfl
    rw [closeFrom, List.append_assoc, ← hmore]
    split
    · rw [ih, Option.toList_some, MethodTree.outlineAll, MethodTree.outlineAll, List.append_nil,
        List.append_assoc]
    · rw [outline, outlineOpen]

theorem outline_close (scan : MethodScan) (depth : Nat) :
    (scan.close depth).outline = scan.outline := by
  rw [close, outline_closeFrom, Option.toList_none, MethodTree.outlineAll, List.append_nil, outline]

theorem marks_closeFrom (depth : Nat) (complete : List MethodTree) (child : Option MethodTree)
    (scopes : List OpenScope) :
    (closeFrom depth complete child scopes).scopes.map OpenScope.mark =
      (scopes.map OpenScope.mark).dropWhile fun m => decide (depth ≤ m.1) := by
  induction scopes generalizing child with
  | nil => rfl
  | cons s rest ih =>
    rw [closeFrom, List.map_cons, List.dropWhile_cons]
    by_cases h : depth ≤ s.mark.1
    · rw [if_pos (show depth ≤ s.depth from h), if_pos (decide_eq_true h), ih]
    · rw [if_neg (show ¬depth ≤ s.depth from h), if_neg (mt of_decide_eq_true h)]
      rfl

theorem marks_close (scan : MethodScan) (depth : Nat) :
    (scan.close depth).scopes.map OpenScope.mark =
      (scan.scopes.map OpenScope.mark).dropWhile fun m => decide (depth ≤ m.1) :=
  marks_closeFrom depth _ none _

theorem outlineAll_complete (scan : MethodScan) :
    MethodTree.outlineAll none (scan.close 0).complete = scan.outline := by
  have hscopes : (scan.close 0).scopes = [] := by
    have hmarks := marks_close scan 0
    simp only [Nat.zero_le, decide_true] at hmarks
    rw [List.dropWhile_eq_nil_iff.2 (fun _ _ => rfl)] at hmarks
    exact List.map_eq_nil_iff.1 hmarks
  rw [← outline_close scan 0, outline, hscopes, outlineOpen, List.append_nil]

theorem outline_addCalls {scan : MethodScan} {s : OpenScope} {rest : List OpenScope}
    (h : scan.scopes = s :: rest) (names : List Text) :
    ∃ front back parent, scan.outline = front ++ ⟨parent, s.method.head, s.method.calls⟩ :: back ∧
      (scan.addCalls names).outline =
        front ++ ⟨parent, s.method.head, (names.foldl MethodTree.addCall s.method).calls⟩ ::
          back := by
  refine ⟨MethodTree.outlineAll none scan.complete ++ outlineOpen rest,
    MethodTree.outlineAll (some s.method.head) s.method.children, innermost rest, ?_, ?_⟩
  · rw [outline, h, outlineOpen, MethodTree.outline_eq, List.append_assoc]
  · rw [addCalls, h, outline, outlineOpen, MethodTree.addCalls_eq, MethodTree.outline_eq,
      List.append_assoc]

theorem marks_addCalls (scan : MethodScan) (names : List Text) :
    (scan.addCalls names).scopes.map OpenScope.mark = scan.scopes.map OpenScope.mark := by
  rw [addCalls]
  cases hscopes : scan.scopes with
  | nil => simp only [hscopes]
  | cons s rest => simp only [List.map_cons, OpenScope.mark, MethodTree.head_addCalls]

theorem outline_define (scan : MethodScan) (depth : Nat) (head : MethodHead) :
    MethodScan.outline { scan with scopes := ⟨depth, { head }⟩ :: scan.scopes } =
      scan.outline ++ [⟨innermost scan.scopes, head, []⟩] := by
  rw [outline, outlineOpen, MethodTree.outline, MethodTree.outlineAll, ← List.append_assoc]
  rfl

end MethodScan

/-- The method that a numbered line defines. -/
def SourceFile.definitionOf (f : SourceFile) (ms : List Matcher) (line : Text × Nat) :
    Option MethodHead :=
  if Scope.isSignificant line.1 then (Matcher.first? ms line.1).bind (definition? f (line.2 + 1))
  else none

theorem SourceFile.significant_of_definitionOf {f : SourceFile} {ms : List Matcher}
    {line : Text × Nat} {head : MethodHead} (h : f.definitionOf ms line = some head) :
    Scope.isSignificant line.1 = true := by
  rw [definitionOf] at h
  split at h
  · next hsig => exact hsig
  · cases h

theorem SourceFile.line_of_definitionOf {f : SourceFile} {ms : List Matcher} {line : Text × Nat}
    {head : MethodHead} (h : f.definitionOf ms line = some head) :
    head.line = (line.2 + 1 : Nat) := by
  rw [definitionOf, if_pos (significant_of_definitionOf h)] at h
  obtain ⟨found, -, hdef⟩ := Option.bind_eq_some_iff.1 h
  exact (definition?_eq_some hdef).2.2.2.2

namespace MethodScan

/-- What reading a line does to a scan. -/
inductive Reads (f : SourceFile) (ms : List Matcher) (scan : MethodScan)
    (line : Text × Nat) : MethodScan → Prop where
  | pass : Scope.isSignificant line.1 = false → Reads f ms scan line scan
  | define {head : MethodHead} : Scope.isSignificant line.1 = true →
      f.definitionOf ms line = some head →
    Reads f ms scan line { scan.close (Text.indent line.1) with
      scopes := ⟨Text.indent line.1, { head }⟩ :: (scan.close (Text.indent line.1)).scopes }
  | outside : Scope.isSignificant line.1 = true → f.definitionOf ms line = none →
    (scan.close (Text.indent line.1)).scopes = [] →
    Reads f ms scan line (scan.close (Text.indent line.1))
  | call {s : OpenScope} {rest : List OpenScope} {names : List Text} :
      Scope.isSignificant line.1 = true → f.definitionOf ms line = none →
      (scan.close (Text.indent line.1)).scopes = s :: rest →
      callees (Matcher.first? ms line.1) line.1 = .ok names →
      Reads f ms scan line ((scan.close (Text.indent line.1)).addCalls names)

variable {f : SourceFile} {ms : List Matcher} {scan scan' : MethodScan} {line : Text × Nat}

theorem reads_of_step (h : scan.step f ms line = .ok scan') : Reads f ms scan line scan' := by
  rw [step] at h
  split at h
  · next hsig =>
    have hdef :
        f.definitionOf ms line = (Matcher.first? ms line.1).bind (definition? f (line.2 + 1)) :=
          if_pos hsig
    simp only at h
    split at h
    · next head hhead =>
      cases h
      exact .define hsig (hdef.trans hhead)
    · next hnone =>
      split at h
      · next hempty =>
        cases h
        exact .outside hsig (hdef.trans hnone) (List.isEmpty_iff.1 hempty)
      · next hopen =>
        obtain ⟨s, rest, hscopes⟩ := List.exists_cons_of_ne_nil (mt List.isEmpty_iff.2 hopen)
        cases hcallees : callees (Matcher.first? ms line.1) line.1 with
        | error e =>
          rw [hcallees] at h
          cases h
        | ok names =>
          rw [hcallees] at h
          cases h
          exact .call hsig (hdef.trans hnone) hscopes hcallees
  · next hsig =>
    cases h
    exact .pass (Bool.eq_false_iff.2 hsig)

theorem Reads.heads (h : Reads f ms scan line scan') :
    scan'.outline.map (·.head) = scan.outline.map (·.head) ++ (f.definitionOf ms line).toList := by
  cases h with
  | pass hsig =>
    rw [SourceFile.definitionOf, if_neg (by simp [hsig]), Option.toList_none, List.append_nil]
  | define hsig hdef =>
    rw [outline_define, outline_close, List.map_append, hdef]
    rfl
  | outside hsig hdef hclosed => rw [outline_close, hdef, Option.toList_none, List.append_nil]
  | @call s rest names hsig hdef hopen hcallees =>
    obtain ⟨front, back, parent, hbefore, hafter⟩ := outline_addCalls hopen names
    rw [outline_close] at hbefore
    rw [hafter, hbefore, hdef, Option.toList_none, List.append_nil, List.map_append,
      List.map_append, List.map_cons, List.map_cons]

theorem heads_foldlM {xs : List (Text × Nat)} (h : xs.foldlM (step f ms) scan = .ok scan') :
    scan'.outline.map (·.head) = scan.outline.map (·.head) ++ xs.filterMap (f.definitionOf ms) := by
  induction xs generalizing scan with
  | nil =>
    cases h
    rw [List.filterMap_nil, List.append_nil]
  | cons line xs ih =>
    rw [List.foldlM_cons] at h
    cases hstep : scan.step f ms line with
    | error e =>
      rw [hstep] at h
      cases h
    | ok next =>
      rw [hstep] at h
      rw [ih h, (reads_of_step hstep).heads, List.append_assoc, List.filterMap_cons]
      cases f.definitionOf ms line <;> rfl

end MethodScan

/-- The names that the rules find called in a line, which is no definition. -/
def calledNames (ms : List Matcher) (line : Text) : List Text :=
  match Matcher.first? ms line with
  | none => CallSite.find line
  | some found =>
    if found.kind = "call".toList then (found.get? "name").toList else CallSite.find line

theorem eq_calledNames {ms : List Matcher} {line : Text} {names : List Text}
    (h : callees (Matcher.first? ms line) line = .ok names) : names = calledNames ms line := by
  unfold calledNames
  cases hfound : Matcher.first? ms line with
  | none =>
    rw [hfound] at h
    exact (Except.ok.inj h).symm
  | some found =>
    rw [hfound] at h
    simp only [callees] at h ⊢
    by_cases hcall : found.kind = "call".toList
    · rw [if_pos hcall] at h ⊢
      cases hname : found.get? "name" with
      | none =>
        rw [hname] at h
        cases h
      | some name =>
        rw [hname] at h
        exact (Except.ok.inj h).symm
    · rw [if_neg hcall] at h ⊢
      exact (Except.ok.inj h).symm

namespace SourceFile

variable {f : SourceFile} {ms : List Matcher} {ts : List MethodTree}

theorem scanMethods_eq_ok {xs : List (Text × Nat)} (h : f.scanMethods ms xs = .ok ts) :
    ∃ scan, xs.foldlM (MethodScan.step f ms) {} = .ok scan ∧
      MethodTree.outlineAll none ts = scan.outline := by
  rw [scanMethods] at h
  cases hscan : xs.foldlM (MethodScan.step f ms) {} with
  | error e =>
    rw [hscan] at h
    cases h
  | ok scan =>
    rw [hscan] at h
    cases h
    exact ⟨scan, rfl, scan.outlineAll_complete⟩

theorem heads_scanMethods {xs : List (Text × Nat)} (h : f.scanMethods ms xs = .ok ts) :
    (MethodTree.walkAll ts).map (·.head) = xs.filterMap (f.definitionOf ms) := by
  obtain ⟨scan, hscan, houtline⟩ := scanMethods_eq_ok h
  rw [← MethodTree.map_head_outlineAll none, houtline, MethodScan.heads_foldlM hscan]
  rfl

end SourceFile

end DependencyAtlas
