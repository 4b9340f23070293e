import DependencyAtlas.Proofs.SourceFile.Extraction
import DependencyAtlas.Proofs.SourceFile.Outline
import DependencyAtlas.Proofs.SourceFile.Scope
import Mathlib.Data.List.Induction

namespace DependencyAtlas

theorem FirstSeen.ofList_eq_eraseDups {α : Type} [DecidableEq α] [BEq α] [LawfulBEq α]
    (xs : List α) :
    ofList xs = xs.eraseDups := by
  induction xs using List.reverseRecOn with
  | nil => rfl
  | append_singleton xs x ih =>
    rw [ofList_concat, List.eraseDups_append, ← ih, add]
    by_cases hx : x ∈ xs
    · rw [if_pos (mem_ofList.2 hx)]
      simp [List.removeAll, hx]
    · rw [if_neg (mt mem_ofList.1 hx)]
      simp [List.removeAll, hx, List.eraseDups_cons]

namespace CallSite

theorem ne_nil_of_nameAt {previous : Option Char} {t name : Text}
    (h : nameAt previous t = some name) : name ≠ [] := by
  cases t with
  | nil => cases h
  | cons c t =>
    rw [nameAt] at h
    split at h
    · simp only at h
      split at h
      · cases h
        exact List.cons_ne_nil _ _
      · cases h
    · cases h

theorem ne_nil_of_mem_namesFrom {previous : Option Char} {t name : Text}
    (h : name ∈ namesFrom previous t) :
    name ≠ [] := by
  induction t generalizing previous with
  | nil => cases h
  | cons c t ih =>
    rw [namesFrom] at h
    rcases List.mem_append.1 h with h | h
    · exact ne_nil_of_nameAt (Option.mem_toList.1 h)
    · exact ih h

theorem ne_nil_of_mem_find {line name : Text} (h : name ∈ find line) : name ≠ [] :=
  ne_nil_of_mem_namesFrom (List.mem_filter.1 h).1

end CallSite

theorem ne_nil_of_mem_calledNames {ms : List Matcher} {line name : Text}
    (h : name ∈ calledNames ms line) :
    name ≠ [] := by
  unfold calledNames at h
  cases hfound : Matcher.first? ms line with
  | none =>
    rw [hfound] at h
    exact CallSite.ne_nil_of_mem_find h
  | some found =>
    rw [hfound] at h
    simp only at h
    split at h
    · obtain ⟨m, -, hfind⟩ := Matcher.exists_of_first? hfound
      exact Matcher.ne_nil_of_get? hfind (Option.mem_toList.1 h)
    · exact CallSite.ne_nil_of_mem_find h

theorem foldlM_zipIdx_induction {ε α β : Type} {P : Nat → α → Prop} {f : α → β × Nat → Except ε α}
    {xs : List β} {start last : α}
    (hstep : ∀ k x a a', xs[k]? = some x → P k a → f a (x, k) = .ok a' → P (k + 1) a')
    (h : P 0 start) (hr : xs.zipIdx.foldlM f start = .ok last) : P xs.length last := by
  induction xs using List.reverseRecOn generalizing last with
  | nil =>
    cases hr
    exact h
  | append_singleton xs x ih =>
    rw [List.zipIdx_append, List.foldlM_append] at hr
    cases hmiddle : xs.zipIdx.foldlM f start with
    | error e =>
      rw [hmiddle] at hr
      cases hr
    | ok middle =>
      rw [hmiddle] at hr
      have hread : P xs.length middle := by
        apply ih _ hmiddle
        intro k y a a' hy
        apply hstep
        rw [List.getElem?_append_left (List.getElem?_eq_some_iff.1 hy).1, hy]
      rw [List.length_append, List.length_singleton]
      apply hstep _ x middle last (by simp) hread
      simp only [Nat.zero_add, List.zipIdx_cons, List.zipIdx_nil, List.foldlM_cons, List.foldlM_nil,
        bind_pure] at hr
      exact hr

namespace SourceFile

section Scopes

variable (f : SourceFile) (ms : List Matcher) (lines : List Text)

def definitionAt (i : Nat) : Option MethodHead :=
  lines[i]?.bind fun line => f.definitionOf ms (line, i)

def reaching (k : Nat) : List Nat :=
  (List.range k).filter fun i => (f.definitionAt ms lines i).isSome && k < Scope.scopeEnd lines i

/-- The last definition before a line whose scope reaches over it. -/
def enclosing (k : Nat) : Option Nat :=
  (f.reaching ms lines k).max?

/-- The names that a line calls, if it is significant and no definition. -/
def calledAt (k : Nat) : List Text :=
  match lines[k]? with
  | none => []
  | some line =>
    if Scope.isSignificant line && (f.definitionAt ms lines k).isNone then
      calledNames ms line else []

/-- The names called by the lines before line `n` that belong to the definition on line `i` and to
none inside it. -/
def callsWithin (n i : Nat) : List Text :=
  (List.range n).flatMap fun k => if f.enclosing ms lines k = some i then
    f.calledAt ms lines k else []

/-- The outline of the definitions before line `n`, with the calls on the lines before it. -/
def scopedOutline (n : Nat) : List OutlineEntry :=
  (List.range n).filterMap fun i => (f.definitionAt ms lines i).map fun head =>
    { parent := (f.enclosing ms lines i).bind (f.definitionAt ms lines)
      head
      calls := (f.callsWithin ms lines n i).eraseDups }

/-- The definitions before line `k` whose scopes no line before it has ended. -/
def openAt (k : Nat) : List Nat :=
  (List.range k).filter fun i => (f.definitionAt ms lines i).isSome && k ≤ Scope.scopeEnd lines i

/-- A scan has read the lines before line `k`. -/
structure HasRead (k : Nat) (scan : MethodScan) : Prop where
  marks : scan.scopes.map OpenScope.mark =
    (f.openAt ms lines k).reverse.map fun i => (Scope.depthAt lines i, f.definitionAt ms lines i)
  outline : scan.outline = f.scopedOutline ms lines k

end Scopes

variable {f : SourceFile} {ms : List Matcher} {lines : List Text} {i k n : Nat} {line : Text}
  {head : MethodHead}

theorem definitionAt_eq (h : lines[i]? = some line) :
    f.definitionAt ms lines i = f.definitionOf ms (line, i) := by
  rw [definitionAt, h, Option.bind_some]

theorem line_of_definitionAt (h : f.definitionAt ms lines i = some head) :
    head.line = (i + 1 : Nat) := by
  obtain ⟨line, -, hdef⟩ := Option.bind_eq_some_iff.1 h
  exact line_of_definitionOf hdef

theorem depthAt_lt_of_definitionAt (h : f.definitionAt ms lines k = some head) (hik : i < k)
    (hlt : k < Scope.scopeEnd lines i) : Scope.depthAt lines i < Scope.depthAt lines k := by
  obtain ⟨line, hline, hdef⟩ := Option.bind_eq_some_iff.1 h
  exact Scope.depthAt_lt hik hlt hline (significant_of_definitionOf hdef)

theorem mem_reaching : i ∈ f.reaching ms lines k ↔
    i < k ∧ (f.definitionAt ms lines i).isSome ∧ k < Scope.scopeEnd lines i := by
  simp [reaching]

theorem lt_of_enclosing (h : f.enclosing ms lines k = some i) : i < k :=
  (mem_reaching.1 (List.max?_eq_some_iff.1 h).1).1

theorem pairwise_depthAt_openAt :
    (f.openAt ms lines k).Pairwise fun i j => Scope.depthAt lines i < Scope.depthAt lines j := by
  have hlt : (f.openAt ms lines k).Pairwise (· < ·) := List.pairwise_lt_range.filter _
  apply List.Pairwise.imp_of_mem ?_ hlt
  intro i j hi hj hij
  simp only [openAt, List.mem_filter, List.mem_range, Bool.and_eq_true, decide_eq_true_eq] at hi hj
  obtain ⟨head, hhead⟩ := Option.isSome_iff_exists.1 hj.2.1
  exact depthAt_lt_of_definitionAt hhead hij (Nat.lt_of_lt_of_le hj.1 hi.2.2)

theorem filter_openAt (hline : lines[k]? = some line) (hsig : Scope.isSignificant line = true) :
    (f.openAt ms lines k).filter (fun i => Scope.depthAt lines i < Text.indent line) =
      f.reaching ms lines k := by
  rw [openAt, reaching, List.filter_filter]
  apply List.filter_congr
  intro i hi
  have hik := List.mem_range.1 hi
  rw [Bool.eq_iff_iff]
  simp only [Bool.and_eq_true, decide_eq_true_eq]
  constructor
  · rintro ⟨hdepth, hdef, hle⟩
    refine ⟨hdef, (Scope.lt_scopeEnd_iff_of_le hik hle hline).2 ?_⟩
    rw [Scope.ends, Bool.and_eq_false_iff, decide_eq_false_iff_not, Nat.not_le]
    exact .inr hdepth
  · rintro ⟨hdef, hlt⟩
    have hends := (Scope.lt_scopeEnd_iff_of_le hik (Nat.le_of_lt hlt) hline).1 hlt
    rcases Scope.not_significant_or_deeper hends with hnot | hdepth
    · rw [hsig] at hnot
      cases hnot
    · exact ⟨hdepth, hdef, Nat.le_of_lt hlt⟩

theorem getLast?_reaching : (f.reaching ms lines k).getLast? = f.enclosing ms lines k := by
  have hlt : (f.reaching ms lines k).Pairwise (· < ·) := List.pairwise_lt_range.filter _
  rw [enclosing]
  rcases List.eq_nil_or_concat (f.reaching ms lines k) with hnil | ⟨is, i, hi⟩
  · rw [hnil]
    rfl
  · rw [hi, List.concat_eq_append, List.pairwise_append] at hlt
    rw [hi, List.concat_eq_append, List.getLast?_concat, eq_comm, List.max?_eq_some_iff]
    refine ⟨List.mem_append_right _ List.mem_cons_self, ?_⟩
    intro j hj
    rcases List.mem_append.1 hj with hj | hj
    · exact Nat.le_of_lt (hlt.2.2 j hj i List.mem_cons_self)
    · exact Nat.le_of_eq (List.mem_singleton.1 hj)

theorem dropWhile_reverse_eq {α : Type} {key : α → Nat} {xs : List α}
    (h : xs.Pairwise fun a b => key a < key b) (depth : Nat) :
    xs.reverse.dropWhile (fun a => decide (depth ≤ key a)) =
      (xs.filter fun a => key a < depth).reverse := by
  induction xs using List.reverseRecOn with
  | nil => rfl
  | append_singleton xs x ih =>
    obtain ⟨hxs, -, hx⟩ := List.pairwise_append.1 h
    rw [List.reverse_append, List.reverse_singleton, List.singleton_append, List.dropWhile_cons,
      List.filter_append]
    by_cases hdeep : depth ≤ key x
    · rw [if_pos (decide_eq_true hdeep), ih hxs, List.filter_cons_of_neg (by simpa using hdeep),
        List.filter_nil, List.append_nil]
    · have hall : ∀ a ∈ xs, decide (key a < depth) = true := by
        intro a ha
        have hax := hx a ha x List.mem_cons_self
        exact decide_eq_true (by omega)
      rw [if_neg (by simpa using hdeep), List.filter_eq_self.2 hall,
        List.filter_cons_of_pos (by simpa using hdeep), List.filter_nil, List.reverse_append,
        List.reverse_singleton, List.singleton_append]

variable {scan scan' : MethodScan}

theorem HasRead.marks_close (h : f.HasRead ms lines k scan) (hline : lines[k]? = some line)
    (hsig : Scope.isSignificant line = true) :
    (scan.close (Text.indent line)).scopes.map OpenScope.mark =
      (f.reaching ms lines k).reverse.map fun i => (Scope.depthAt lines i,
        f.definitionAt ms lines i) := by
  rw [scan.marks_close, h.marks, List.dropWhile_map, ← filter_openAt hline hsig,
    ← dropWhile_reverse_eq pairwise_depthAt_openAt]
  rfl

theorem HasRead.innermost_close (h : f.HasRead ms lines k scan) (hline : lines[k]? = some line)
    (hsig : Scope.isSignificant line = true) :
    MethodScan.innermost (scan.close (Text.indent line)).scopes =
      (f.enclosing ms lines k).bind (f.definitionAt ms lines) := by
  have hhead := congrArg List.head? (h.marks_close hline hsig)
  rw [List.head?_map, List.head?_map, List.head?_reverse, getLast?_reaching] at hhead
  rw [MethodScan.innermost]
  cases hscopes : (scan.close (Text.indent line)).scopes.head? with
  | none =>
    rw [hscopes, Option.map_none, eq_comm, Option.map_eq_none_iff] at hhead
    rw [hhead]
    rfl
  | some s =>
    rw [hscopes, Option.map_some, eq_comm, Option.map_eq_some_iff] at hhead
    obtain ⟨i, hi, hmark⟩ := hhead
    rw [hi, Option.bind_some, Option.map_some, (Prod.mk.inj hmark).2]

theorem HasRead.close_eq_nil_iff (h : f.HasRead ms lines k scan) (hline : lines[k]? = some line)
    (hsig : Scope.isSignificant line = true) :
    (scan.close (Text.indent line)).scopes = [] ↔ f.enclosing ms lines k = none := by
  rw [← List.map_eq_nil_iff (f := OpenScope.mark), h.marks_close hline hsig, List.map_eq_nil_iff,
    List.reverse_eq_nil_iff, enclosing, List.max?_eq_none_iff]

theorem openAt_succ (k : Nat) :
    f.openAt ms lines (k + 1) =
      f.reaching ms lines k ++ if (f.definitionAt ms lines k).isSome then [k] else [] := by
  rw [openAt, List.range_succ, List.filter_append, reaching]
  have hself := Scope.lt_scopeEnd lines k
  simp only [Nat.succ_le_iff]
  cases hdef : (f.definitionAt ms lines k).isSome with
  | false => simp [hdef]
  | true => simp [hdef, hself]

theorem openAt_eq_reaching (hline : lines[k]? = some line)
    (hsig : Scope.isSignificant line = false) :
    f.openAt ms lines k = f.reaching ms lines k := by
  apply List.filter_congr
  intro i hi
  have hiff (hle : k ≤ Scope.scopeEnd lines i) : k < Scope.scopeEnd lines i := by
    apply (Scope.lt_scopeEnd_iff_of_le (List.mem_range.1 hi) hle hline).2
    rw [Scope.ends, hsig, Bool.false_and]
  rw [decide_eq_decide.2 ⟨hiff, Nat.le_of_lt⟩]

def addTo (owner : Option MethodHead) (names : List Text) (e : OutlineEntry) : OutlineEntry :=
  if some e.head = owner then { e with calls := names.foldl FirstSeen.add e.calls } else e

theorem map_addTo_none (names : List Text) (es : List OutlineEntry) :
    es.map (addTo none names) = es :=
  List.map_id'' (fun e => by simp [addTo]) es

theorem map_addTo_nil (owner : Option MethodHead) (es : List OutlineEntry) :
    es.map (addTo owner []) = es :=
  List.map_id'' (fun e => by simp [addTo]) es

theorem map_addTo {front back : List OutlineEntry} {e : OutlineEntry}
    (h : ((front ++ e :: back).map (·.head)).Nodup) (names : List Text) :
    (front ++ e :: back).map (addTo (some e.head) names) =
      front ++ { e with calls := names.foldl FirstSeen.add e.calls } :: back := by
  rw [List.map_append, List.map_cons, List.nodup_middle, List.nodup_cons, ← List.map_append] at h
  have hother : ∀ d ∈ front ++ back, addTo (some e.head) names d = d := by
    intro d hd
    rw [addTo, if_neg]
    intro heq
    apply h.1
    rw [← Option.some.inj heq]
    exact List.mem_map_of_mem hd
  rw [List.map_append, List.map_cons, addTo, if_pos rfl,
    List.map_congr_left (g := id) (fun d hd => hother d (List.mem_append_left _ hd)),
    List.map_congr_left (g := id) (fun d hd => hother d (List.mem_append_right _ hd)), List.map_id,
    List.map_id]

theorem nodup_heads_scopedOutline (k : Nat) :
    ((f.scopedOutline ms lines k).map (·.head)).Nodup := by
  have hheads : (f.scopedOutline ms lines k).map (·.head) =
      (List.range k).filterMap (f.definitionAt ms lines) := by
    rw [scopedOutline, List.map_filterMap]
    simp only [Option.map_map, Function.comp_def, Option.map_id']
  rw [hheads]
  apply List.Nodup.filterMap _ List.nodup_range
  intro i j head hi hj
  have hline := (line_of_definitionAt hi).symm.trans (line_of_definitionAt hj)
  omega

theorem enclosing_iff_of_definitionAt (h : f.definitionAt ms lines i = some head) :
    some head = (f.enclosing ms lines k).bind (f.definitionAt ms lines) ↔
    f.enclosing ms lines k = some i := by
  constructor
  · intro heq
    obtain ⟨j, hj, hhead⟩ := Option.bind_eq_some_iff.1 heq.symm
    have hline := (line_of_definitionAt h).symm.trans (line_of_definitionAt hhead)
    rw [hj, show j = i by omega]
  · intro heq
    rw [heq, Option.bind_some, h]

theorem eraseDups_append_eq (xs ys : List Text) :
    (xs ++ ys).eraseDups = ys.foldl FirstSeen.add xs.eraseDups := by
  rw [← FirstSeen.ofList_eq_eraseDups, ← FirstSeen.ofList_eq_eraseDups, FirstSeen.ofList,
    List.foldl_append]
  rfl

theorem callsWithin_succ (n i : Nat) :
    f.callsWithin ms lines (n + 1) i =
      f.callsWithin ms lines n i ++
        if f.enclosing ms lines n = some i then f.calledAt ms lines n else [] := by
  rw [callsWithin, List.range_succ, List.flatMap_append, List.flatMap_singleton]
  rfl

theorem callsWithin_self (h : n ≤ i + 1) : f.callsWithin ms lines n i = [] := by
  apply List.flatMap_eq_nil_iff.2
  intro k hk
  apply if_neg
  intro henclosing
  have hlt := lt_of_enclosing henclosing
  have hkn := List.mem_range.1 hk
  omega

/-- One more line adds its calls to the entry of the method around it, and the method that it
defines. -/
theorem scopedOutline_succ (k : Nat) :
    f.scopedOutline ms lines (k + 1) =
      (f.scopedOutline ms lines k).map
          (addTo ((f.enclosing ms lines k).bind (f.definitionAt ms lines)) (f.calledAt ms lines k))
            ++
        (f.definitionAt ms lines k).toList.map fun head =>
          ⟨(f.enclosing ms lines k).bind (f.definitionAt ms lines), head, []⟩ := by
  rw [scopedOutline, scopedOutline, List.range_succ, List.filterMap_append, List.map_filterMap]
  congr 1
  · apply List.filterMap_congr
    intro i _
    cases hdef : f.definitionAt ms lines i with
    | none => rfl
    | some head =>
      simp only [Option.map_some, addTo, enclosing_iff_of_definitionAt hdef, callsWithin_succ]
      split
      · rw [eraseDups_append_eq]
      · rw [List.append_nil]
  · cases hdef : f.definitionAt ms lines k with
    | none => simp [hdef]
    | some head => simp [hdef, callsWithin_self (Nat.le_refl _)]

theorem calledAt_eq (h : lines[k]? = some line) :
    f.calledAt ms lines k =
      if Scope.isSignificant line && (f.definitionAt ms lines k).isNone then calledNames ms line
      else [] := by
  rw [calledAt, h]

theorem HasRead.step (h : f.HasRead ms lines k scan) (hline : lines[k]? = some line)
    (hreads : scan.Reads f ms (line, k) scan') : f.HasRead ms lines (k + 1) scan' := by
  have hdefinition : f.definitionAt ms lines k = f.definitionOf ms (line, k) :=
    definitionAt_eq hline
  cases hreads with
  | pass hsig =>
    have hnone : f.definitionAt ms lines k = none := by
      rw [hdefinition, definitionOf, if_neg (by simp [hsig])]
    constructor
    · rw [h.marks, openAt_succ, openAt_eq_reaching hline hsig, hnone, Option.isSome_none,
        if_neg (by decide), List.append_nil]
    · rw [h.outline, scopedOutline_succ, calledAt_eq hline, hsig, hnone, Bool.false_and,
        if_neg (by decide), map_addTo_nil, Option.toList_none, List.map_nil, List.append_nil]
  | @define head hsig hdef =>
    rw [hdef] at hdefinition
    constructor
    · rw [List.map_cons, h.marks_close hline hsig, openAt_succ, hdefinition, Option.isSome_some,
        if_pos rfl, List.reverse_append, List.reverse_singleton, List.singleton_append,
        List.map_cons, hdefinition, Scope.depthAt_eq hline]
      rfl
    · rw [MethodScan.outline_define, scan.outline_close, h.innermost_close hline hsig, h.outline,
        scopedOutline_succ, calledAt_eq hline, hdefinition, Option.isNone_some, Bool.and_false,
        if_neg (by decide), map_addTo_nil]
      rfl
  | outside hsig hdef hclosed =>
    rw [hdef] at hdefinition
    have henclosing := (h.close_eq_nil_iff hline hsig).1 hclosed
    constructor
    · rw [h.marks_close hline hsig, openAt_succ, hdefinition, Option.isSome_none,
        if_neg (by decide), List.append_nil]
    · rw [scan.outline_close, h.outline, scopedOutline_succ, henclosing, Option.bind_none,
        map_addTo_none, hdefinition, Option.toList_none, List.map_nil, List.append_nil]
  | @call s rest names hsig hdef hopen hcallees =>
    rw [hdef] at hdefinition
    have hnames : ∀ name ∈ names, name ≠ [] := by
      rw [eq_calledNames hcallees]
      exact fun name hname => ne_nil_of_mem_calledNames hname
    have hinnermost := h.innermost_close hline hsig
    rw [hopen] at hinnermost
    obtain ⟨front, back, parent, hbefore, hafter⟩ := MethodScan.outline_addCalls hopen names
    rw [scan.outline_close, h.outline] at hbefore
    rw [MethodTree.calls_addCalls hnames] at hafter
    constructor
    · rw [MethodScan.marks_addCalls, h.marks_close hline hsig, openAt_succ, hdefinition,
        Option.isSome_none, if_neg (by decide), List.append_nil]
    · have hnodup : ((f.scopedOutline ms lines k).map (·.head)).Nodup := nodup_heads_scopedOutline k
      rw [hbefore] at hnodup
      rw [hafter, scopedOutline_succ, hbefore, ← hinnermost, calledAt_eq hline, hsig, hdefinition,
        Option.isNone_none, Bool.and_true, if_pos rfl, ← eq_calledNames hcallees,
        Option.toList_none, List.map_nil, List.append_nil]
      exact (map_addTo hnodup names).symm

theorem hasRead_scan (h : lines.zipIdx.foldlM (MethodScan.step f ms) {} = .ok scan) :
    f.HasRead ms lines lines.length scan := by
  apply foldlM_zipIdx_induction _ _ h
  · intro k line a a' hline hread hstep
    exact hread.step hline (MethodScan.reads_of_step hstep)
  · exact ⟨rfl, rfl⟩

/-- The outline of the methods of a file is told by the scopes of its lines: the methods stand in
the order of the lines that define them, each is declared in the last definition before it whose
scope reaches over it, and its calls are those of the lines that it is the last such definition for,
each name once. -/
theorem outline_methods_eq_scopedOutline {tables : RuleTables} {ts : List MethodTree}
    (h : f.methods tables = .ok ts) :
    ∃ ms, f.matchers tables .methods = .ok ms ∧ MethodTree.outlineAll none ts =
      f.scopedOutline ms (Text.lines f.text) (Text.lines f.text).length := by
  obtain ⟨ms, found, hms, hfound, rfl⟩ := methods_eq_ok h
  obtain ⟨scan, hscan, houtline⟩ := scanMethods_eq_ok hfound
  refine ⟨ms, hms, ?_⟩
  rw [MethodTree.linkLocal, MethodTree.outlineAll_referAll, houtline]
  exact (hasRead_scan hscan).outline

/-- A method inside another, lines that are indented irregularly, and a line that only looks like a
definition. -/
def nestedMethods : SourceFile where
  path := "n.py".toList
  language := .python
  text :=
    "def a(x):\n    def b() -> int:\n        go(x)\n# c()\n".toList ++
      "        go(to())\n  at()\n    go()\ndef if(y):".toList

theorem outline_of_nestedMethods :
    let a : MethodHead :=
      { name := ['a'], definedIn := "n.py".toList, line := 1, parameters := [{ name := ['x'] }] }
    let b : MethodHead :=
      { name := ['b'], definedIn := "n.py".toList, line := 2, returnType := some "int".toList }
    ∃ ts, nestedMethods.methods builtinRules = .ok ts ∧ MethodTree.outlineAll none ts =
      [⟨none, a, ["at", "go"].map String.toList⟩, ⟨some a, b, ["go", "to"].map String.toList⟩] := by
  intro a b
  obtain ⟨ts, hts, -⟩ := answers_methods RuleTables.named_builtinRules nestedMethods
  obtain ⟨ms, hms, houtline⟩ := outline_methods_eq_scopedOutline hts
  have hscoped : (nestedMethods.matchers builtinRules .methods).toOption.map (fun ms =>
      nestedMethods.scopedOutline ms (Text.lines nestedMethods.text)
        (Text.lines nestedMethods.text).length) =
      some [⟨none, a, ["at", "go"].map String.toList⟩,
        ⟨some a, b, ["go", "to"].map String.toList⟩] := by
    decide +kernel
  rw [hms] at hscoped
  exact ⟨ts, hts, houtline.trans (Option.some.inj hscoped)⟩

end SourceFile

end DependencyAtlas
