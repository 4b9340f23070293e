import DependencyAtlas.Proofs.SourceFile.Bodies
import Mathlib.Order.Monotone.Basic

namespace DependencyAtlas

namespace MethodTree

mutual

/-- Gives other line numbers to all methods of a tree. -/
def renumber (ρ : Int → Int) : MethodTree → MethodTree
  | ⟨head, calls, references, children⟩ =>
    ⟨{ head with line := ρ head.line }, calls, references, renumberAll ρ children⟩

/-- Gives other line numbers to all methods of a forest. -/
def renumberAll (ρ : Int → Int) : List MethodTree → List MethodTree
  | [] => []
  | t :: ts => renumber ρ t :: renumberAll ρ ts

end

variable {ρ : Int → Int}

theorem renumberAll_eq_map (ts : List MethodTree) : renumberAll ρ ts = ts.map (renumber ρ) := by
  induction ts with
  | nil => rfl
  | cons t ts ih => rw [renumberAll, ih, List.map_cons]

mutual

theorem renumber_id : (t : MethodTree) → renumber id t = t
  | ⟨head, calls, references, children⟩ => by rw [renumber, renumberAll_id children, id]

theorem renumberAll_id : (ts : List MethodTree) → renumberAll id ts = ts
  | [] => rfl
  | t :: ts => by rw [renumberAll, renumber_id t, renumberAll_id ts]

end

mutual

theorem walk_renumber : (t : MethodTree) → (renumber ρ t).walk = t.walk.map (renumber ρ)
  | ⟨head, calls, references, children⟩ => by
    rw [renumber, walk, walk, List.map_cons, walkAll_renumberAll children, renumber]

theorem walkAll_renumberAll :
    (ts : List MethodTree) → walkAll (renumberAll ρ ts) = (walkAll ts).map (renumber ρ)
  | [] => rfl
  | t :: ts => by
    rw [renumberAll, walkAll, walkAll, List.map_append, walk_renumber t, walkAll_renumberAll ts]

end

mutual

theorem refer_renumber (references : Text → List Text) :
    (t : MethodTree) → (renumber ρ t).refer references = renumber ρ (t.refer references)
  | ⟨head, calls, _, children⟩ => by
    rw [renumber, refer, refer, renumber, referAll_renumberAll references children]

theorem referAll_renumberAll (references : Text → List Text) :
    (ts : List MethodTree) → referAll references (renumberAll ρ ts) =
      renumberAll ρ (referAll references ts)
  | [] => rfl
  | t :: ts => by
    rw [renumberAll, referAll, referAll, renumberAll, refer_renumber references t,
      referAll_renumberAll references ts]

end

theorem calls_renumber (t : MethodTree) : (renumber ρ t).calls = t.calls := by
  cases t
  rfl

theorem name_renumber (t : MethodTree) : (renumber ρ t).head.name = t.head.name := by
  cases t
  rfl

theorem callers_renumber (file : Text) (every : List MethodTree) :
    callers file (every.map (renumber ρ)) = callers file every := by
  funext callee
  simp only [callers, List.filter_map, List.map_map, Function.comp_def, calls_renumber,
    name_renumber]

theorem linkLocal_renumberAll (file : Text) (ts : List MethodTree) :
    linkLocal file (renumberAll ρ ts) = renumberAll ρ (linkLocal file ts) := by
  rw [linkLocal, linkLocal, walkAll_renumberAll, callers_renumber, referAll_renumberAll]

theorem renumber_addCall (t : MethodTree) (callee : Text) :
    (renumber ρ t).addCall callee = renumber ρ (t.addCall callee) := by
  obtain ⟨head, calls, references, children⟩ := t
  by_cases h : callee = []
  · simp only [addCall, if_pos h]
  · simp only [addCall, if_neg h, renumber]

theorem renumber_addCalls (names : List Text) (t : MethodTree) :
    names.foldl addCall (renumber ρ t) = renumber ρ (names.foldl addCall t) := by
  induction names generalizing t with
  | nil => rfl
  | cons name names ih => rw [List.foldl_cons, List.foldl_cons, renumber_addCall, ih]

end MethodTree

/-- Gives other line numbers to a structure and to the methods in its body. -/
def StructureTree.renumber (ρ : Int → Int) (s : StructureTree) : StructureTree :=
  { head := { s.head with line := ρ s.head.line }, methods := MethodTree.renumberAll ρ s.methods }

theorem StructureTree.renumber_id (s : StructureTree) : s.renumber id = s := by
  rw [renumber, MethodTree.renumberAll_id, id]

namespace Scope

def significantLines (lines : List Text) : List (Text × Nat) :=
  lines.zipIdx.filter fun l => isSignificant l.1

theorem mem_significantLines {lines : List Text} {l : Text} {i : Nat} :
    (l, i) ∈ significantLines lines ↔ lines[i]? = some l ∧ isSignificant l = true := by
  rw [significantLines, List.mem_filter, List.mem_zipIdx_iff_getElem?]

/-- Whether a line with its index comes after line `i` and ends the scopes that are indented by
`depth`. -/
def endsAfter (i depth : Nat) (l : Text × Nat) : Bool :=
  i < l.2 && Text.indent l.1 ≤ depth

theorem find?_endsAfter_of_lt {i n : Nat} (hi : i < n) (depth : Nat) (lines : List Text) :
    ((((lines.zipIdx n).filter fun l => isSignificant l.1).find? (endsAfter i depth)).map
      Prod.snd).getD
        (n + lines.length) = n + (lines.takeWhile fun l => !ends depth l).length := by
  induction lines generalizing n with
  | nil => rfl
  | cons l lines ih =>
    have hrest := ih (Nat.lt_succ_of_lt hi)
    rw [Nat.succ_add_eq_add_succ, Nat.succ_add_eq_add_succ] at hrest
    rw [List.zipIdx_cons, List.filter_cons, List.takeWhile_cons, ends]
    cases isSignificant l with
    | false => exact hrest
    | true =>
      rw [if_pos rfl, List.find?_cons, endsAfter, decide_eq_true hi, Bool.true_and]
      cases decide (Text.indent l ≤ depth) with
      | true => rfl
      | false => exact hrest

theorem find?_endsAfter_of_le {i : Nat} {lines : List Text} (hi : lines.length ≤ i + 1)
    (depth : Nat) :
    (significantLines lines).find? (endsAfter i depth) = none := by
  rw [List.find?_eq_none]
  intro ⟨l, j⟩ hmem hends
  obtain ⟨hj, -⟩ := List.getElem?_eq_some_iff.1 (mem_significantLines.1 hmem).1
  have hij : i < j := of_decide_eq_true (Bool.and_eq_true_iff.1 hends).1
  omega

theorem scopeEnd_eq_find? {lines : List Text} {i : Nat} (hi : i < lines.length) :
    scopeEnd lines i =
      (((significantLines lines).find? (endsAfter i (depthAt lines i))).map Prod.snd).getD
        lines.length := by
  have hfront : (lines.take (i + 1)).length = i + 1 := List.length_take_of_le hi
  have hlines : significantLines lines = significantLines (lines.take (i + 1)) ++
      ((lines.drop (i + 1)).zipIdx (i + 1)).filter fun l => isSignificant l.1 := by
    rw [significantLines, significantLines, ← List.filter_append]
    conv_lhs => rw [← List.take_append_drop (i + 1) lines, List.zipIdx_append, hfront, Nat.zero_add]
  have hlength : lines.length = i + 1 + (lines.drop (i + 1)).length := by
    rw [List.length_drop]
    omega
  rw [hlines, List.find?_append, find?_endsAfter_of_le (Nat.le_of_eq hfront), Option.none_or,
    hlength, find?_endsAfter_of_lt (Nat.lt_succ_self i)]
  rfl

end Scope

theorem SourceFile.scanMethods_filter (f : SourceFile) (ms : List Matcher)
    (ls : List (Text × Nat)) :
    f.scanMethods ms (ls.filter fun l => Scope.isSignificant l.1) = f.scanMethods ms ls := by
  have hfold (scan : MethodScan) :
      (ls.filter fun l => Scope.isSignificant l.1).foldlM (MethodScan.step f ms) scan =
      ls.foldlM (MethodScan.step f ms) scan := by
    induction ls generalizing scan with
    | nil => rfl
    | cons l ls ih =>
      rw [List.filter_cons, List.foldlM_cons]
      split
      · rw [List.foldlM_cons]
        exact congrArg _ (funext ih)
      · next hinert =>
        rw [MethodScan.step, if_neg hinert]
        exact ih scan
  rw [scanMethods, scanMethods, hfold]

/-- Rules that match on significant lines or comments only declare on significant lines. -/
theorem Matcher.AllSolid.declaredStructures_eq {ms : List Matcher} (h : AllSolid ms)
    (lines : List Text) :
    declaredStructures ms lines = (Scope.significantLines lines).filterMap fun l =>
      (first? ms l.1).map fun found => ⟨l.2, Scope.scopeEnd lines l.2, found⟩ := by
  rw [declaredStructures, Scope.significantLines, List.filterMap_filter]
  apply List.filterMap_congr
  rintro ⟨line, i⟩ -
  dsimp only
  cases hsignificant : Scope.isSignificant line with
  | true =>
    have hcomment : Scope.isComment (Text.trim line) = false := by
      rw [Scope.isSignificant, Bool.and_eq_true, Bool.and_eq_true,
        Bool.not_eq_true'] at hsignificant
      exact hsignificant.1.2
    rw [hcomment]
    rfl
  | false =>
    split
    · rfl
    · next hcomment =>
      cases hfound : first? ms line with
      | none => rfl
      | some found =>
        obtain ⟨c, hc, hblank, hopener⟩ := h.exists_of_first? hfound
        rw [Scope.isSignificant_of_mem hc hblank hopener (Bool.not_eq_true _ ▸ hcomment)]
          at hsignificant
        cases hsignificant

/-- A way to space out and indent significant lines anew: what becomes of a line, of its index and
of its number. A respaced line calls what it called, and all lines are indented by the same amount
more. -/
structure Respacing where
  line : Text → Text
  index : Nat → Nat
  number : Int → Int
  depth : Nat
  strictMono : StrictMono index
  number_succ : ∀ i : Nat, number (i + 1 : Nat) = (index i + 1 : Nat)
  trim : ∀ l, Text.trim (line l) = Text.trim l
  indent : ∀ l, Text.indent (line l) = Text.indent l + depth
  calls : ∀ l, CallSite.find (line l) = CallSite.find l

namespace Respacing

variable {r : Respacing} {ms : List Matcher} {lines lines' : List Text}

/-- Rules find in a respaced line what they find in the line. -/
def Keeps (r : Respacing) (ms : List Matcher) : Prop :=
  ∀ l, Matcher.first? ms (r.line l) = Matcher.first? ms l

/-- The significant lines of the second list are the respaced ones of the first. -/
structure Relates (r : Respacing) (lines lines' : List Text) : Prop where
  significant : Scope.significantLines lines' =
    (Scope.significantLines lines).map (Prod.map r.line r.index)
  length : lines'.length = r.index lines.length

theorem isSignificant_line (r : Respacing) (l : Text) :
    Scope.isSignificant (r.line l) = Scope.isSignificant l := by
  rw [Scope.isSignificant, Scope.isSignificant, r.trim]

section Scan

def scope (r : Respacing) (s : OpenScope) : OpenScope :=
  ⟨s.depth + r.depth, s.method.renumber r.number⟩

/-- What a scan has come to when it reads respaced lines. -/
def scan (r : Respacing) (scan : MethodScan) : MethodScan :=
  ⟨scan.scopes.map r.scope, MethodTree.renumberAll r.number scan.complete⟩

theorem depth_scope (s : OpenScope) : (r.scope s).depth = s.depth + r.depth := rfl

theorem receive_scope (s : OpenScope) (child : Option MethodTree) :
    (r.scope s).receive (child.map (MethodTree.renumber r.number)) = r.scope (s.receive child) := by
  obtain ⟨depth, head, calls, references, children⟩ := s
  cases child with
  | none => simp [OpenScope.receive, scope, MethodTree.renumber]
  | some child =>
    simp [OpenScope.receive, scope, MethodTree.renumber, MethodTree.renumberAll_eq_map]

theorem closeFrom_scan {depth depth' : Nat} {complete : List MethodTree} (child : Option MethodTree)
    {scopes : List OpenScope}
    (hdepth : ∀ s ∈ scopes, depth' ≤ s.depth + r.depth ↔ depth ≤ s.depth) :
    MethodScan.closeFrom depth' (MethodTree.renumberAll r.number complete)
    (child.map (MethodTree.renumber r.number))
        (scopes.map r.scope) = r.scan (MethodScan.closeFrom depth complete child scopes) := by
  induction scopes generalizing child with
  | nil =>
    rw [List.map_nil, MethodScan.closeFrom, MethodScan.closeFrom, scan,
      MethodTree.renumberAll_eq_map, MethodTree.renumberAll_eq_map, List.map_append,
      Option.toList_map]
    rfl
  | cons s rest ih =>
    obtain ⟨hs, hrest⟩ := List.forall_mem_cons.1 hdepth
    rw [List.map_cons, MethodScan.closeFrom, MethodScan.closeFrom, receive_scope]
    by_cases h : depth ≤ s.depth
    · rw [if_pos h, depth_scope, if_pos (hs.2 h)]
      exact ih (some (s.receive child).method) hrest
    · rw [if_neg h, depth_scope, if_neg (mt hs.1 h)]
      rfl

theorem close_scan (r : Respacing) (scan : MethodScan) (depth : Nat) :
    (r.scan scan).close (depth + r.depth) = r.scan (scan.close depth) :=
  closeFrom_scan none fun _ _ => Nat.add_le_add_iff_right

theorem close_zero_scan (r : Respacing) (scan : MethodScan) :
    (r.scan scan).close 0 = r.scan (scan.close 0) :=
  closeFrom_scan none fun _ _ => ⟨fun _ => Nat.zero_le _, fun _ => Nat.zero_le _⟩

theorem isEmpty_scan (r : Respacing) (scan : MethodScan) :
    (r.scan scan).scopes.isEmpty = scan.scopes.isEmpty := List.isEmpty_map

theorem addCalls_scan (r : Respacing) (scan : MethodScan) (names : List Text) :
    (r.scan scan).addCalls names = r.scan (scan.addCalls names) := by
  obtain ⟨scopes, complete⟩ := scan
  cases scopes with
  | nil => rfl
  | cons s rest =>
    simp only [Respacing.scan, scope, MethodScan.addCalls, List.map_cons,
      MethodTree.renumber_addCalls]

theorem definition?_number (r : Respacing) (f : SourceFile) (i : Nat) (found : Finding) :
    definition? f (r.index i + 1) found =
      (definition? f (i + 1) found).map fun head => { head with line := r.number head.line } := by
  unfold definition?
  split
  · cases found.get? "name" with
    | none => rfl
    | some name =>
      dsimp only
      split
      · rfl
      · rw [Option.map_some, r.number_succ]
  · rfl

theorem callees_line (r : Respacing) (found : Option Finding) (l : Text) :
    callees found (r.line l) = callees found l := by
  cases found with
  | none => rw [callees, callees, r.calls]
  | some found => rw [callees, callees, r.calls]

/-- Reading a respaced line comes to what reading the line comes to. -/
theorem step_scan (hms : r.Keeps ms) (f : SourceFile) (scan : MethodScan) (l : Text × Nat) :
    MethodScan.step f ms (r.scan scan) (Prod.map r.line r.index l) =
      (MethodScan.step f ms scan l).map r.scan := by
  obtain ⟨line, i⟩ := l
  have hdefinition :
      ((Matcher.first? ms line).bind fun found => definition? f (r.index i + 1) found) =
      ((Matcher.first? ms line).bind (definition? f (i + 1))).map fun head =>
        { head with line := r.number head.line } := by
    cases Matcher.first? ms line with
    | none => rfl
    | some found => exact r.definition?_number f i found
  simp only [MethodScan.step, Prod.map_apply, r.isSignificant_line, hms line, r.indent,
    r.close_scan, r.callees_line, hdefinition]
  split
  · cases (Matcher.first? ms line).bind (definition? f (i + 1)) with
    | some head => rfl
    | none =>
      dsimp only [Option.map_none]
      rw [r.isEmpty_scan]
      split
      · rfl
      · cases callees (Matcher.first? ms line) line with
        | error e => rfl
        | ok names => exact congrArg Except.ok (r.addCalls_scan _ names)
  · rfl

theorem foldlM_scan (hms : r.Keeps ms) (f : SourceFile) (ls : List (Text × Nat))
    (scan : MethodScan) :
    (ls.map (Prod.map r.line r.index)).foldlM (MethodScan.step f ms) (r.scan scan) =
      (ls.foldlM (MethodScan.step f ms) scan).map r.scan := by
  induction ls generalizing scan with
  | nil => rfl
  | cons l ls ih =>
    rw [List.map_cons, List.foldlM_cons, List.foldlM_cons, step_scan hms]
    cases MethodScan.step f ms scan l with
    | error e => rfl
    | ok next => exact ih next

theorem scanMethods_map (hms : r.Keeps ms) (f : SourceFile) (ls : List (Text × Nat)) :
    f.scanMethods ms (ls.map (Prod.map r.line r.index)) =
      (f.scanMethods ms ls).map (MethodTree.renumberAll r.number) := by
  have hfold := foldlM_scan hms f ls {}
  rw [SourceFile.scanMethods, SourceFile.scanMethods]
  change (ls.map (Prod.map r.line r.index)).foldlM (MethodScan.step f ms) {} = _ at hfold
  rw [hfold]
  cases ls.foldlM (MethodScan.step f ms) {} with
  | error e => rfl
  | ok scan =>
    exact congrArg (fun scan => Except.ok (MethodScan.complete scan)) (r.close_zero_scan scan)

end Scan

section Declared

def declared (r : Respacing) (d : DeclaredStructure) : DeclaredStructure :=
  ⟨r.index d.first, r.index d.stop, d.found⟩

theorem depthAt_of_mem (h : r.Relates lines lines') {l : Text} {i : Nat}
    (hl : (l, i) ∈ Scope.significantLines lines) :
    Scope.depthAt lines i = Text.indent l ∧ Scope.depthAt lines' (r.index i) =
      Text.indent l + r.depth := by
  have hl' : (r.line l, r.index i) ∈ Scope.significantLines lines' := by
    rw [h.significant]
    exact List.mem_map_of_mem hl
  rw [Scope.depthAt_eq (Scope.mem_significantLines.1 hl).1,
    Scope.depthAt_eq (Scope.mem_significantLines.1 hl').1, r.indent]
  exact ⟨rfl, rfl⟩

theorem endsAfter_line (r : Respacing) (i depth : Nat) :
    Scope.endsAfter (r.index i) (depth + r.depth) ∘ Prod.map r.line r.index =
      Scope.endsAfter i depth := by
  funext l
  simp only [Function.comp_apply, Scope.endsAfter, Prod.map_fst, Prod.map_snd,
    r.strictMono.lt_iff_lt, r.indent, Nat.add_le_add_iff_right]

theorem scopeEnd_index (h : r.Relates lines lines') {l : Text} {i : Nat}
    (hl : (l, i) ∈ Scope.significantLines lines) :
    Scope.scopeEnd lines' (r.index i) = r.index (Scope.scopeEnd lines i) := by
  obtain ⟨hi, -⟩ := List.getElem?_eq_some_iff.1 (Scope.mem_significantLines.1 hl).1
  have hi' : r.index i < lines'.length := by
    rw [h.length]
    exact r.strictMono hi
  obtain ⟨hdepth, hdepth'⟩ := depthAt_of_mem h hl
  rw [Scope.scopeEnd_eq_find? hi, Scope.scopeEnd_eq_find? hi', hdepth, hdepth', h.significant,
    List.find?_map, r.endsAfter_line, h.length]
  cases (Scope.significantLines lines).find? (Scope.endsAfter i (Text.indent l)) with
  | none => rfl
  | some l => rfl

theorem declaredStructures_respaced (hms : r.Keeps ms) (hsolid : Matcher.AllSolid ms)
    (h : r.Relates lines lines') :
    declaredStructures ms lines' = (declaredStructures ms lines).map r.declared := by
  rw [hsolid.declaredStructures_eq, hsolid.declaredStructures_eq, h.significant, List.filterMap_map,
    List.map_filterMap]
  apply List.filterMap_congr
  intro ⟨l, i⟩ hl
  rw [Function.comp_apply, Prod.map_apply, hms l, scopeEnd_index h hl, Option.map_map]
  rfl

theorem owns_declared (ds : List DeclaredStructure) (d : DeclaredStructure) (i : Nat) :
    DeclaredStructure.owns (ds.map r.declared) (r.declared d)
    (r.index i) = DeclaredStructure.owns ds d i := by
  simp only [DeclaredStructure.owns, DeclaredStructure.covers, declared, List.any_map,
    Function.comp_def, r.strictMono.lt_iff_lt, r.strictMono.le_iff_le]

theorem head_declared {f : SourceFile} {d : DeclaredStructure} {head : StructureHead}
    (h : d.head f = .ok head) :
    (r.declared d).head f = .ok { head with line := r.number head.line } := by
  unfold DeclaredStructure.head at h ⊢
  rw [declared]
  cases hname : d.found.get? "name" with
  | none =>
    rw [hname] at h
    cases h
  | some name =>
    rw [hname] at h
    cases h
    rw [r.number_succ]

end Declared

end Respacing

namespace SourceFile

variable {r : Respacing} {f : SourceFile} {tables : RuleTables} {ms sms : List Matcher}
  {text : Text}

theorem methods_respaced (hms : f.matchers tables .methods = .ok ms) (hkeeps : r.Keeps ms)
    (h : r.Relates (Text.lines f.text) (Text.lines text)) :
    { f with text }.methods tables = (f.methods tables).map (MethodTree.renumberAll r.number) := by
  have hscan : { f with text }.scanMethods ms (Text.lines text).zipIdx =
      (f.scanMethods ms (Text.lines f.text).zipIdx).map (MethodTree.renumberAll r.number) := by
    rw [← scanMethods_filter, ← scanMethods_filter f]
    change f.scanMethods ms (Scope.significantLines (Text.lines text)) = _
    rw [h.significant, r.scanMethods_map hkeeps]
    rfl
  have hms' : { f with text }.matchers tables .methods = .ok ms := hms
  rw [methods, methods, hms, hms']
  simp only [bind, Except.bind, hscan]
  cases f.scanMethods ms (Text.lines f.text).zipIdx with
  | error e => rfl
  | ok found => exact congrArg Except.ok (MethodTree.linkLocal_renumberAll f.path found)

/-- A structure on respaced lines has another line number, as have its methods, and is the same in
all else. -/
theorem extract_respaced (hms : f.matchers tables .methods = .ok ms) (hkeeps : r.Keeps ms)
    (h : r.Relates (Text.lines f.text) (Text.lines text)) {ds : List DeclaredStructure}
    {d : DeclaredStructure} {s : StructureTree}
    (hs : d.extract f tables (Text.lines f.text) ds = .ok s) :
    (r.declared d).extract { f with text } tables (Text.lines text) (ds.map r.declared) =
      .ok (s.renumber r.number) := by
  obtain ⟨hhead, hmethods⟩ := (extract_eq_ok_iff hms).1 hs
  have hms' : { f with text }.matchers tables .methods = .ok ms := hms
  have hown : (DeclaredStructure.owns (ds.map r.declared) (r.declared d) ∘ Prod.snd) ∘
      Prod.map r.line r.index =
      DeclaredStructure.owns ds d ∘ Prod.snd := funext fun l => r.owns_declared ds d l.2
  refine (extract_eq_ok_iff hms').2 ⟨r.head_declared hhead, ?_⟩
  rw [← scanMethods_filter, List.filter_comm] at hmethods ⊢
  change f.scanMethods ms ((Scope.significantLines (Text.lines text)).filter
    (DeclaredStructure.owns (ds.map r.declared) (r.declared d) ∘ Prod.snd)) = _
  rw [h.significant, List.filter_map, hown, r.scanMethods_map hkeeps]
  exact congrArg (Except.map (MethodTree.renumberAll r.number)) hmethods

theorem structures_respaced (hsms : f.matchers tables .structures = .ok sms)
    (hsolid : Matcher.AllSolid sms) (hskeeps : r.Keeps sms)
    (hms : f.matchers tables .methods = .ok ms) (hkeeps : r.Keeps ms)
    (h : r.Relates (Text.lines f.text) (Text.lines text)) {ss : List StructureTree}
    (hss : f.structures tables = .ok ss) :
    { f with text }.structures tables = .ok (ss.map (StructureTree.renumber r.number)) := by
  have hsms' : { f with text }.matchers tables .structures = .ok sms := hsms
  rw [structures, hsms] at hss
  rw [structures, hsms']
  change (declaredStructures sms (Text.lines text)).mapM
    (DeclaredStructure.extract { f with text } tables
    (Text.lines text) (declaredStructures sms (Text.lines text))) = _
  rw [Respacing.declaredStructures_respaced hskeeps hsolid h]
  apply mapM_of_forall₂
  rw [List.forall₂_map_left_iff, List.forall₂_map_right_iff]
  apply (forall₂_of_mapM hss).imp
  intro d s hs
  exact extract_respaced hms hkeeps h hs

end SourceFile

end DependencyAtlas
