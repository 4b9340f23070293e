import DependencyAtlas.Proofs.FirstSeen
import DependencyAtlas.SourceFile.Methods

namespace DependencyAtlas

namespace MethodTree

/-- A tree all of whose methods have heads and references of a kind. -/
def Each (P : MethodHead → List Text → Prop) (t : MethodTree) : Prop :=
  ∀ s ∈ t.walk, P s.head s.references

variable {P : MethodHead → List Text → Prop} {t : MethodTree} {ts : List MethodTree}

theorem mem_walkAll {s : MethodTree} : s ∈ walkAll ts ↔ ∃ t ∈ ts, s ∈ t.walk := by
  induction ts with
  | nil => simp [walkAll]
  | cons t ts ih => simp [walkAll, ih]

theorem each_iff : t.Each P ↔ P t.head t.references ∧ ∀ c ∈ t.children, c.Each P := by
  obtain ⟨head, calls, references, children⟩ := t
  simp only [Each, walk, List.mem_cons, forall_eq_or_imp, mem_walkAll]
  refine and_congr_right fun _ => ?_
  constructor
  · intro h c hc s hs
    exact h s ⟨c, hc, hs⟩
  · rintro h s ⟨c, hc, hs⟩
    exact h c hc s hs

theorem Each.addCall (h : t.Each P) (callee : Text) : (t.addCall callee).Each P := by
  unfold MethodTree.addCall
  split
  · exact h
  · obtain ⟨hhead, hchildren⟩ := each_iff.1 h
    exact each_iff.2 ⟨hhead, hchildren⟩

theorem Each.addCalls (h : t.Each P) (names : List Text) :
    (names.foldl MethodTree.addCall t).Each P := by
  induction names generalizing t with
  | nil => exact h
  | cons name names ih => exact ih (h.addCall name)

mutual

theorem walk_refer (references : Text → List Text) :
    (t : MethodTree) → (t.refer references).walk = t.walk.map (refer references)
  | ⟨head, calls, _, children⟩ => by
    rw [refer, walk, walk, List.map_cons, walkAll_referAll, refer]

theorem walkAll_referAll (references : Text → List Text) :
    (ts : List MethodTree) → walkAll (referAll references ts) = (walkAll ts).map (refer references)
  | [] => rfl
  | t :: ts => by
    rw [referAll, walkAll, walkAll, List.map_append, walk_refer, walkAll_referAll]

end

theorem head_refer (references : Text → List Text) (t : MethodTree) :
    (t.refer references).head = t.head := by
  cases t
  rfl

theorem calls_refer (references : Text → List Text) (t : MethodTree) :
    (t.refer references).calls = t.calls := by
  cases t
  rfl

theorem references_refer (references : Text → List Text) (t : MethodTree) :
    (t.refer references).references = references t.head.name := by
  cases t
  rfl

/-- The references of a method that was linked within its file are the places in the file that call
it, each once. -/
theorem references_of_mem_linkLocal {file : Text} {s : MethodTree}
    (hs : s ∈ walkAll (linkLocal file ts)) :
    s.references.Nodup ∧ ∀ place, place ∈ s.references ↔
      ∃ c ∈ walkAll (linkLocal file ts), s.head.name ∈ c.calls ∧
        place = location file c.head.name := by
  rw [linkLocal, walkAll_referAll] at hs ⊢
  obtain ⟨t, -, rfl⟩ := List.mem_map.1 hs
  rw [references_refer, head_refer, callers]
  refine ⟨FirstSeen.nodup_ofList _, fun place => ?_⟩
  rw [FirstSeen.mem_ofList, List.mem_map]
  constructor
  · rintro ⟨c, hc, rfl⟩
    obtain ⟨hc, hcall⟩ := List.mem_filter.1 hc
    refine ⟨_, List.mem_map_of_mem hc, ?_, ?_⟩
    · rw [calls_refer]
      exact of_decide_eq_true hcall
    · rw [head_refer]
  · rintro ⟨_, hmem, hcall, rfl⟩
    obtain ⟨c, hc, rfl⟩ := List.mem_map.1 hmem
    rw [calls_refer] at hcall
    exact ⟨c, List.mem_filter.2 ⟨hc, decide_eq_true hcall⟩, by rw [head_refer]⟩

section OneByOne

mutual

/-- Changes the references of the methods of a tree, by their names. -/
def adjust (change : Text → List Text → List Text) : MethodTree → MethodTree
  | ⟨head, calls, references, children⟩ =>
    ⟨head, calls, change head.name references, adjustAll change children⟩

def adjustAll (change : Text → List Text → List Text) : List MethodTree → List MethodTree
  | [] => []
  | m :: ms => adjust change m :: adjustAll change ms

end

/-- Enters a place as a reference of the methods with a name. -/
def enter (place callee name : Text) (references : List Text) : List Text :=
  if name = callee then FirstSeen.add references place else references

/-- Links the methods of a file call by call: each enters the place it comes from at all methods
that have the called name. -/
def linkOneByOne (file : Text) (ms : List MethodTree) : List MethodTree :=
  (walkAll ms).foldl
    (fun ms c => c.calls.foldl (fun ms callee =>
      adjustAll (enter (location file c.head.name) callee) ms) ms) ms

variable {first second : Text → List Text → List Text}

mutual

theorem adjust_id : (t : MethodTree) → t.adjust (fun _ rs => rs) = t
  | ⟨head, calls, references, children⟩ => by rw [adjust, adjustAll_id]

theorem adjustAll_id : (ts : List MethodTree) → adjustAll (fun _ rs => rs) ts = ts
  | [] => rfl
  | t :: ts => by rw [adjustAll, adjust_id, adjustAll_id]

end

mutual

theorem adjust_adjust : (t : MethodTree) →
    (t.adjust first).adjust second = t.adjust fun name rs => second name (first name rs)
  | ⟨head, calls, references, children⟩ => by
    rw [adjust, adjust, adjust, adjustAll_adjustAll]

theorem adjustAll_adjustAll : (ts : List MethodTree) →
    adjustAll second (adjustAll first ts) =
      adjustAll (fun name rs => second name (first name rs)) ts
  | [] => rfl
  | t :: ts => by rw [adjustAll, adjustAll, adjustAll, adjust_adjust, adjustAll_adjustAll]

end

mutual

theorem adjust_eq_refer {references : Text → List Text} : (t : MethodTree) →
    t.Each (fun head rs => first head.name rs = references head.name) →
    t.adjust first = t.refer references
  | ⟨head, calls, _, children⟩, h => by
    obtain ⟨hhead, hchildren⟩ := each_iff.1 h
    rw [adjust, refer, hhead, adjustAll_eq_referAll children hchildren]

theorem adjustAll_eq_referAll {references : Text → List Text} : (ts : List MethodTree) →
    (∀ t ∈ ts, t.Each fun head rs => first head.name rs = references head.name) →
    adjustAll first ts = referAll references ts
  | [], _ => rfl
  | t :: ts, h => by
    obtain ⟨ht, hts⟩ := List.forall_mem_cons.1 h
    rw [adjustAll, referAll, adjust_eq_refer t ht, adjustAll_eq_referAll ts hts]

end

theorem foldl_adjustAll {α : Type} (change : α → Text → List Text → List Text) (xs : List α) :
    xs.foldl (fun ts x => adjustAll (change x) ts) ts =
      adjustAll (fun name rs => xs.foldl (fun rs x => change x name rs) rs) ts := by
  induction xs generalizing ts with
  | nil => exact (adjustAll_id ts).symm
  | cons x xs ih => rw [List.foldl_cons, ih, adjustAll_adjustAll]; rfl

theorem foldl_enter (place name : Text) (callees references : List Text) :
    callees.foldl (fun rs callee => enter place callee name rs) references =
      if name ∈ callees then FirstSeen.add references place else references := by
  induction callees generalizing references with
  | nil => rfl
  | cons callee callees ih =>
    rw [List.foldl_cons, ih, enter]
    by_cases hname : name = callee
    · simp [hname, FirstSeen.add_add]
    · simp [hname]

theorem linkLocal_eq_linkOneByOne {file : Text} (h : ∀ s ∈ walkAll ts, s.references = []) :
    linkLocal file ts = linkOneByOne file ts := by
  simp only [linkOneByOne, foldl_adjustAll, foldl_enter]
  symm
  apply adjustAll_eq_referAll
  intro t ht s hs
  simp only [h s (mem_walkAll.2 ⟨t, ht, hs⟩), callers, FirstSeen.ofList, List.foldl_map,
    List.foldl_filter, decide_eq_true_eq]

end OneByOne

end MethodTree

theorem definition?_eq_some {f : SourceFile} {line : Nat} {found : Finding} {head : MethodHead}
    (h : definition? f line found = some head) :
    found.kind = "definition".toList ∧ found.get? "name" = some head.name ∧
      head.name ∉ definitionKeywords.map String.toList ∧ head.definedIn = f.path ∧
      head.line = line := by
  unfold definition? at h
  split at h
  · next hkind =>
    split at h
    · cases h
    · next name hname =>
      split at h
      · cases h
      · next hplain =>
        cases h
        simp only [Bool.or_eq_true, not_or, decide_eq_true_eq] at hplain
        exact ⟨hkind, hname, hplain.1, rfl, rfl⟩
  · cases h

namespace MethodScan

/-- A scan all of whose methods have heads and references of a kind. -/
structure Each (P : MethodHead → List Text → Prop) (scan : MethodScan) : Prop where
  scopes : ∀ s ∈ scan.scopes, s.method.Each P
  complete : ∀ t ∈ scan.complete, t.Each P

variable {P : MethodHead → List Text → Prop} {scan scan' : MethodScan}

theorem each_receive {s : OpenScope} {child : Option MethodTree} (hs : s.method.Each P)
    (hchild : ∀ t ∈ child, t.Each P) : (s.receive child).method.Each P := by
  obtain ⟨hhead, hchildren⟩ := MethodTree.each_iff.1 hs
  refine MethodTree.each_iff.2 ⟨hhead, fun c hc => ?_⟩
  rcases List.mem_append.1 hc with hc | hc
  · exact hchildren c hc
  · exact hchild c (Option.mem_toList.1 hc)

theorem each_closeFrom (depth : Nat) {complete : List MethodTree} {child : Option MethodTree}
    {scopes : List OpenScope} (hcomplete : ∀ t ∈ complete, t.Each P)
    (hchild : ∀ t ∈ child, t.Each P) (hscopes : ∀ s ∈ scopes, s.method.Each P) :
    (closeFrom depth complete child scopes).Each P := by
  induction scopes generalizing child with
  | nil =>
    refine ⟨by simp [closeFrom], fun t ht => ?_⟩
    rcases List.mem_append.1 ht with ht | ht
    · exact hcomplete t ht
    · exact hchild t (Option.mem_toList.1 ht)
  | cons s rest ih =>
    have hs := each_receive (hscopes s List.mem_cons_self) hchild
    have hrest : ∀ s ∈ rest, s.method.Each P := fun s hs => hscopes s (List.mem_cons_of_mem _ hs)
    rw [closeFrom]
    split
    · exact ih (by simpa using hs) hrest
    · exact ⟨List.forall_mem_cons.2 ⟨hs, hrest⟩, hcomplete⟩

theorem Each.close (h : scan.Each P) (depth : Nat) : (scan.close depth).Each P :=
  each_closeFrom depth h.complete (by simp) h.scopes

theorem Each.addCalls (h : scan.Each P) (names : List Text) : (scan.addCalls names).Each P := by
  unfold MethodScan.addCalls
  split
  · exact h
  · next s rest hs =>
    have hscopes := h.scopes
    rw [hs, List.forall_mem_cons] at hscopes
    exact ⟨List.forall_mem_cons.2 ⟨hscopes.1.addCalls names, hscopes.2⟩, h.complete⟩

/-- What the methods are like while a file is scanned. -/
def Scanned (f : SourceFile) (head : MethodHead) (references : List Text) : Prop :=
  head.definedIn = f.path ∧ references = []

theorem Each.step {f : SourceFile} {ms : List Matcher} {line : Text × Nat}
    (h : scan.Each (Scanned f)) (hstep : scan.step f ms line = .ok scan') :
    scan'.Each (Scanned f) := by
  unfold MethodScan.step at hstep
  split at hstep
  · have hclosed := h.close (Text.indent line.1)
    simp only at hstep
    split at hstep
    · next head hfound =>
      obtain ⟨found, -, hdef⟩ := Option.bind_eq_some_iff.1 hfound
      obtain ⟨-, -, -, hpath, -⟩ := definition?_eq_some hdef
      cases hstep
      refine ⟨List.forall_mem_cons.2 ⟨?_, hclosed.scopes⟩, hclosed.complete⟩
      exact MethodTree.each_iff.2 ⟨⟨hpath, rfl⟩, by simp⟩
    · split at hstep
      · cases hstep
        exact hclosed
      · cases hc : callees (Matcher.first? ms line.1) line.1 with
        | error e =>
          rw [hc] at hstep
          cases hstep
        | ok names =>
          rw [hc] at hstep
          cases hstep
          exact hclosed.addCalls names
  · cases hstep
    exact h

end MethodScan

theorem foldlM_ok_induction {ε α β : Type} {P : α → Prop} {f : α → β → Except ε α} {xs : List β}
    {start last : α} (hstep : ∀ a b a', P a → f a b = .ok a' → P a') (h : P start)
    (hr : xs.foldlM f start = .ok last) : P last := by
  induction xs generalizing start with
  | nil =>
    cases hr
    exact h
  | cons x xs ih =>
    rw [List.foldlM_cons] at hr
    cases hx : f start x with
    | error e =>
      rw [hx] at hr
      cases hr
    | ok next =>
      rw [hx] at hr
      exact ih (hstep _ _ _ h hx) hr

namespace SourceFile

variable {f : SourceFile} {tables : RuleTables} {ts : List MethodTree}

theorem scanned_of_mem_scanMethods {ms : List Matcher} {lines : List (Text × Nat)}
    (h : f.scanMethods ms lines = .ok ts) {s : MethodTree} (hs : s ∈ MethodTree.walkAll ts) :
    MethodScan.Scanned f s.head s.references := by
  unfold scanMethods at h
  cases hr : lines.foldlM (MethodScan.step f ms) {} with
  | error e =>
    rw [hr] at h
    cases h
  | ok scan =>
    rw [hr] at h
    cases h
    have hscan : scan.Each (MethodScan.Scanned f) :=
      foldlM_ok_induction (fun _ _ _ h hstep => h.step hstep) ⟨by simp, by simp⟩ hr
    obtain ⟨t, ht, hs⟩ := MethodTree.mem_walkAll.1 hs
    exact (hscan.close 0).complete t ht s hs

theorem methods_eq_ok (h : f.methods tables = .ok ts) :
    ∃ ms found, f.matchers tables .methods = .ok ms ∧
      f.scanMethods ms (Text.lines f.text).zipIdx = .ok found ∧
      ts = MethodTree.linkLocal f.path found := by
  rw [SourceFile.methods] at h
  cases hms : f.matchers tables .methods with
  | error e =>
    rw [hms] at h
    cases h
  | ok ms =>
    rw [hms] at h
    cases hfound : f.scanMethods ms (Text.lines f.text).zipIdx with
    | error e => simp [hfound, bind, Except.bind] at h
    | ok found =>
      simp only [hfound, bind, Except.bind, pure, Except.pure, Except.ok.injEq] at h
      exact ⟨ms, found, rfl, hfound, h.symm⟩

theorem methods_eq_linkOneByOne (h : f.methods tables = .ok ts) :
    ∃ ms found, f.matchers tables .methods = .ok ms ∧
      f.scanMethods ms (Text.lines f.text).zipIdx = .ok found ∧
      ts = MethodTree.linkOneByOne f.path found := by
  obtain ⟨ms, found, hms, hfound, rfl⟩ := methods_eq_ok h
  have hfresh : ∀ s ∈ MethodTree.walkAll found, s.references = [] :=
    fun s hs => (scanned_of_mem_scanMethods hfound hs).2
  exact ⟨ms, found, hms, hfound, MethodTree.linkLocal_eq_linkOneByOne hfresh⟩

theorem methods_linked (h : f.methods tables = .ok ts) {s : MethodTree}
    (hs : s ∈ MethodTree.walkAll ts) :
    s.head.definedIn = f.path ∧ s.references.Nodup ∧ ∀ place, place ∈ s.references ↔
      ∃ c ∈ MethodTree.walkAll ts, s.head.name ∈ c.calls ∧
        place = MethodTree.location f.path c.head.name := by
  obtain ⟨ms, found, -, hfound, rfl⟩ := methods_eq_ok h
  refine ⟨?_, MethodTree.references_of_mem_linkLocal hs⟩
  rw [MethodTree.linkLocal, MethodTree.walkAll_referAll] at hs
  obtain ⟨t, ht, rfl⟩ := List.mem_map.1 hs
  rw [MethodTree.head_refer]
  exact (scanned_of_mem_scanMethods hfound ht).1

end SourceFile

end DependencyAtlas
