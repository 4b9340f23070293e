import DependencyAtlas.Crawl.FileRecords
import DependencyAtlas.Proofs.Ledger.Nesting

namespace DependencyAtlas

namespace MethodTree

def keysFrom (base : Nat) : List MethodTree → List MethodKey
  | [] => []
  | t :: ts => ⟨base⟩ :: keysFrom (base + t.walk.length) ts

mutual

/-- The entries of a method and of those inside it when it is entered at `base`. -/
def layout (base : Nat) (owner : Option Owner) : MethodTree → List MethodEntry
  | ⟨head, calls, references, children⟩ =>
    { head, calls, references, children := keysFrom (base + 1) children, owner } ::
      layoutAll (base + 1) (some (.ofMethod ⟨base⟩)) children

/-- The entries of methods that are entered one after the other from `base` on. -/
def layoutAll (base : Nat) (owner : Option Owner) : List MethodTree → List MethodEntry
  | [] => []
  | t :: ts => layout base owner t ++ layoutAll (base + t.walk.length) owner ts

end

mutual

theorem length_layout (base : Nat) (owner : Option Owner) :
    (t : MethodTree) → (t.layout base owner).length = t.walk.length
  | ⟨head, calls, references, children⟩ => by
    rw [layout, walk, List.length_cons, List.length_cons, length_layoutAll]

theorem length_layoutAll (base : Nat) (owner : Option Owner) :
    (ts : List MethodTree) → (layoutAll base owner ts).length = (walkAll ts).length
  | [] => rfl
  | t :: ts => by
    rw [layoutAll, walkAll, List.length_append, List.length_append, length_layout, length_layoutAll]

end

end MethodTree

namespace Ledger

open MethodTree

mutual

theorem enterMethod_eq : (t : MethodTree) → (l : Ledger) →
    enterMethod t l =
      (⟨l.methods.length⟩, { l with methods := l.methods ++ t.layout l.methods.length none })
  | ⟨head, calls, references, children⟩, l => by
    have hchildren := enterChildren_eq ⟨l.methods.length⟩ children
      { l with methods := l.methods ++ [{ head, calls, references }] } (by simp)
    rw [enterMethod]
    simp only [addMethod, hchildren, modify_append_length, layout, List.length_append,
      List.length_singleton, List.append_assoc, List.cons_append, List.nil_append]

theorem enterChildren_eq (parent : MethodKey) : (ts : List MethodTree) → (l : Ledger) →
    parent.index < l.methods.length →
    enterChildren parent ts l =
      { l with
        methods :=
          l.methods.modify parent.index (fun e =>
            { e with children := e.children ++ keysFrom l.methods.length ts })
          ++ layoutAll l.methods.length (some (.ofMethod parent)) ts }
  | [], l, _ => by
    have hsame : l.methods.modify parent.index (fun e => { e with children := e.children ++ [] }) =
        l.methods := by
      simp only [List.append_nil]
      exact List.modify_id ..
    rw [enterChildren, keysFrom, layoutAll, List.append_nil, hsame]
  | t :: ts, l, hp => by
    have howner : (l.methods ++ t.layout l.methods.length none).modify l.methods.length
        (fun e => { e with owner := some (.ofMethod parent) }) =
          l.methods ++ t.layout l.methods.length (some (.ofMethod parent)) := by
      cases t
      exact modify_append_length ..
    rw [enterChildren, enterMethod_eq t l]
    simp only [updateMethod, listMethod, howner, modify_append_of_lt hp]
    have hp' : parent.index < (l.methods.modify parent.index
        fun e => { e with children := e.children ++ [⟨l.methods.length⟩] }).length := by
          rwa [List.length_modify]
    rw [enterChildren_eq parent ts]
    · simp only [modify_append_of_lt hp', List.modify_modify_eq, List.length_append,
        List.length_modify, length_layout, keysFrom, layoutAll, List.append_assoc,
        Function.comp_def, List.cons_append, List.nil_append]
    · rw [List.length_append]
      exact Nat.lt_add_right _ hp'

end

theorem enterMethods_eq (ts : List MethodTree) (l : Ledger) :
    enterMethods ts l =
      (keysFrom l.methods.length ts,
        { l with methods := l.methods ++ layoutAll l.methods.length none ts }) := by
  induction ts generalizing l with
  | nil => simp [enterMethods, keysFrom, layoutAll]
  | cons t ts ih =>
    simp only [enterMethods, enterMethod_eq, ih, keysFrom, layoutAll, List.length_append,
      length_layout, List.append_assoc]

/-- Entries stand in the ledger from `base` on, whoever owns them. -/
def Holds (l : Ledger) (base : Nat) (es : List MethodEntry) : Prop :=
  ∀ i e, es[i]? = some e → base + i < l.methods.length ∧ (l.method ⟨base + i⟩).loose = e.loose

variable {l l' : Ledger} {base n : Nat} {owner : Option Owner}

theorem Holds.append_left {es fs : List MethodEntry} (h : l.Holds base (es ++ fs)) :
    l.Holds base es := by
  intro i e hi
  obtain ⟨hlt, -⟩ := List.getElem?_eq_some_iff.1 hi
  exact h i e (by rwa [List.getElem?_append_left hlt])

theorem Holds.append_right {es fs : List MethodEntry} (h : l.Holds base (es ++ fs)) :
    l.Holds (base + es.length) fs := by
  intro i e hi
  have hpos := h (es.length + i) e (by simpa [List.getElem?_append_right] using hi)
  rwa [← Nat.add_assoc] at hpos

theorem Holds.head {e : MethodEntry} {es : List MethodEntry} (h : l.Holds base (e :: es)) :
    base < l.methods.length ∧ (l.method ⟨base⟩).loose = e.loose :=
  h 0 e rfl

theorem Holds.tail {e : MethodEntry} {es : List MethodEntry} (h : l.Holds base (e :: es)) :
    l.Holds (base + 1) es := by
  rw [← List.singleton_append] at h
  exact h.append_right

theorem Holds.length_le {es : List MethodEntry} (h : l.Holds base es) :
    es.length ≤ l.methods.length := by
  cases hes : es.length with
  | zero => exact Nat.zero_le _
  | succ i =>
    have hi : i < es.length := by omega
    have hpos := (h i _ (List.getElem?_eq_getElem hi)).1
    omega

theorem Holds.map_range {β : Type} (f : MethodEntry → β) (hf : ∀ e, f e.loose = f e)
    {es : List MethodEntry} (h : l.Holds base es) :
    (List.range' base es.length).map (fun i => f (l.method ⟨i⟩)) = es.map f := by
  induction es generalizing base with
  | nil => rfl
  | cons e es ih =>
    obtain ⟨-, he⟩ := h.head
    rw [List.length_cons, List.range'_succ, List.map_cons, List.map_cons, ih h.tail, ← hf, he, hf]

mutual

theorem Holds.walkFrom : (t : MethodTree) → (base n : Nat) → (owner : Option Owner) →
    l.Holds base (t.layout base owner) → t.walk.length ≤ n →
    l.walkFrom n ⟨base⟩ = (List.range' base t.walk.length).map MethodKey.mk
  | ⟨head, calls, references, children⟩, base, 0, _, _, hn => by simp [MethodTree.walk] at hn
  | ⟨head, calls, references, children⟩, base, n + 1, owner, h, hn => by
    rw [layout] at h
    have hchildren : (l.method ⟨base⟩).children = keysFrom (base + 1) children :=
      (congrArg MethodEntry.children h.head.2 :)
    rw [MethodTree.walk, List.length_cons] at hn ⊢
    rw [Ledger.walkFrom, hchildren,
      Holds.walkFromAll children (base + 1) n _ h.tail (Nat.le_of_succ_le_succ hn),
      List.range'_succ, List.map_cons]

theorem Holds.walkFromAll : (ts : List MethodTree) → (base n : Nat) → (owner : Option Owner) →
    l.Holds base (layoutAll base owner ts) → (walkAll ts).length ≤ n →
    (keysFrom base ts).flatMap (l.walkFrom n) =
      (List.range' base (walkAll ts).length).map MethodKey.mk
  | [], _, _, _, _, _ => rfl
  | t :: ts, base, n, owner, h, hn => by
    rw [layoutAll] at h
    rw [walkAll, List.length_append] at hn ⊢
    have hrest := h.append_right
    rw [length_layout] at hrest
    rw [keysFrom, List.flatMap_cons, Holds.walkFrom t base n owner h.append_left (by omega),
      Holds.walkFromAll ts _ n owner hrest (by omega), ← List.map_append, List.range'_append_1]

end

mutual

theorem map_layout {β : Type} (f : MethodHead → List Text → List Text → β) (base : Nat)
    (owner : Option Owner) :
    (t : MethodTree) → (t.layout base owner).map (fun e => f e.head e.calls e.references) =
      t.walk.map fun s => f s.head s.calls s.references
  | ⟨head, calls, references, children⟩ => by
    rw [layout, MethodTree.walk, List.map_cons, List.map_cons, map_layoutAll f]

theorem map_layoutAll {β : Type} (f : MethodHead → List Text → List Text → β) (base : Nat)
    (owner : Option Owner) :
    (ts : List MethodTree) →
    (layoutAll base owner ts).map (fun e => f e.head e.calls e.references) =
      (walkAll ts).map fun s => f s.head s.calls s.references
  | [] => rfl
  | t :: ts => by
    rw [layoutAll, walkAll, List.map_append, List.map_append, map_layout f, map_layoutAll f]

end

theorem Holds.map_walk {β : Type} (f : MethodHead → List Text → List Text → β)
    {ts : List MethodTree} (h : l.Holds base (layoutAll base owner ts)) :
    ((keysFrom base ts).flatMap l.walk).map
        (fun m => f (l.method m).head (l.method m).calls (l.method m).references) =
      (walkAll ts).map fun s => f s.head s.calls s.references := by
  have hlength : (walkAll ts).length ≤ l.methods.length :=
    length_layoutAll base owner ts ▸ h.length_le
  have hwalk := Holds.walkFromAll ts base _ owner h hlength
  have hentries := h.map_range (fun e => f e.head e.calls e.references) (fun _ => rfl)
  rw [map_layoutAll f, length_layoutAll] at hentries
  rw [← hentries]
  change ((keysFrom base ts).flatMap (l.walkFrom l.methods.length)).map _ = _
  rw [hwalk, List.map_map]
  rfl

/-- A later ledger: what was entered is still there, whoever owns it now. -/
structure Extends (l l' : Ledger) : Prop where
  length : l.methods.length ≤ l'.methods.length
  methods : ∀ m, m.index < l.methods.length → (l'.method m).loose = (l.method m).loose
  count : l.records.length ≤ l'.records.length
  records : ∀ k, k.index < l.records.length → l'.record k = l.record k

theorem Extends.refl (l : Ledger) : l.Extends l :=
  ⟨Nat.le_refl _, fun _ _ => rfl, Nat.le_refl _, fun _ _ => rfl⟩

theorem Extends.trans {l'' : Ledger} (h : l.Extends l') (h' : l'.Extends l'') : l.Extends l'' where
  length := Nat.le_trans h.length h'.length
  methods m hm := (h'.methods m (Nat.lt_of_lt_of_le hm h.length)).trans (h.methods m hm)
  count := Nat.le_trans h.count h'.count
  records k hk := (h'.records k (Nat.lt_of_lt_of_le hk h.count)).trans (h.records k hk)

theorem Holds.extend {es : List MethodEntry} (h : l.Holds base es) (he : l.Extends l') :
    l'.Holds base es := by
  intro i e hi
  obtain ⟨hlt, hentry⟩ := h i e hi
  exact ⟨Nat.lt_of_lt_of_le hlt he.length, (he.methods _ hlt).trans hentry⟩

theorem owner_of_mem_keysFrom {ts : List MethodTree} (pre : List MethodEntry) {m : MethodKey}
    (hl : l.methods = pre ++ layoutAll pre.length none ts) (hm : m ∈ keysFrom pre.length ts) :
    (l.method m).owner = none := by
  induction ts generalizing pre with
  | nil => cases hm
  | cons t ts ih =>
    rw [layoutAll] at hl
    rcases List.mem_cons.1 hm with rfl | hm
    · cases t
      rw [method, hl, layout]
      simp [List.getD_eq_getElem?_getD]
    · apply ih (pre ++ t.layout pre.length none)
      · rw [hl, List.length_append, length_layout]
        simp [List.append_assoc]
      · rwa [List.length_append, length_layout]

/-- The record of a file's methods, once they have been entered. -/
structure HasMethods (l : Ledger) (f : SourceFile) (ts : List MethodTree) (k : RecordKey)
    (base : Nat) : Prop where
  known : k.index < l.records.length
  record : l.record k =
    { path := f.path, layer := .methods, language := f.language, methods := keysFrom base ts }
  holds : l.Holds base (layoutAll base none ts)

theorem HasMethods.extend {f : SourceFile} {ts : List MethodTree} {k : RecordKey}
    (h : l.HasMethods f ts k base) (he : l.Extends l') : l'.HasMethods f ts k base where
  known := Nat.lt_of_lt_of_le h.known he.count
  record := (he.records k h.known).trans h.record
  holds := h.holds.extend he

/-- The ledger with the methods of a file and a record that does not list them yet. -/
def withMethods (l : Ledger) (f : SourceFile) (ts : List MethodTree) : Ledger :=
  { l with
    methods := l.methods ++ layoutAll l.methods.length none ts
    records := l.records ++ [{ path := f.path, layer := .methods, language := f.language }] }

theorem enterRecord_methods (l : Ledger) (f : SourceFile) (ts : List MethodTree) :
    l.enterRecord f .methods none [] ts =
      (⟨l.records.length⟩, (keysFrom l.methods.length ts).foldl
        (fun l' m => l'.grantMethod (.ofRecord ⟨l.records.length⟩) m) (l.withMethods f ts)) := by
  have hfree : ∀ m ∈ keysFrom l.methods.length ts, ((l.withMethods f ts).method m).owner = none ∨
      ((l.withMethods f ts).method m).owner = some (.ofRecord ⟨l.records.length⟩) :=
    fun m hm => .inl (owner_of_mem_keysFrom l.methods rfl hm)
  simp only [enterRecord, enterStructures, enterMethods_eq, addRecord, adoptStructures]
  change (_,
    (adoptMethods (.ofRecord ⟨l.records.length⟩) (keysFrom l.methods.length ts)
      (l.withMethods f ts)).2) = _
  rw [adoptMethods_eq_foldl _ hfree]

theorem hasMethods_enterRecord (l : Ledger) (f : SourceFile) (ts : List MethodTree) :
    (l.enterRecord f .methods none [] ts).2.HasMethods f ts ⟨l.records.length⟩
      l.methods.length := by
  rw [enterRecord_methods]
  have hrecords :=
    records_foldl_grantMethod ⟨l.records.length⟩ (keysFrom l.methods.length ts) (l.withMethods f ts)
  simp only [withMethods, modify_append_length, List.nil_append] at hrecords
  refine ⟨?_, ?_, ?_⟩
  · simp [withMethods, hrecords]
  · simp [record, withMethods, hrecords, List.getD_eq_getElem?_getD]
  · intro i e hi
    obtain ⟨hlt, he⟩ := List.getElem?_eq_some_iff.1 hi
    constructor
    · rw [length_methods_foldl_grantMethod, withMethods, List.length_append]
      exact Nat.add_lt_add_left hlt _
    · rw [method_foldl_grantMethod (by simp)]
      simp [withMethods, method, List.getD_eq_getElem?_getD, List.getElem?_append_right, hi]

theorem extends_enterRecord (l : Ledger) (f : SourceFile) (ts : List MethodTree) :
    l.Extends (l.enterRecord f .methods none [] ts).2 := by
  rw [enterRecord_methods]
  have hrecords :=
    records_foldl_grantMethod ⟨l.records.length⟩ (keysFrom l.methods.length ts) (l.withMethods f ts)
  simp only [withMethods, modify_append_length, List.nil_append] at hrecords
  refine ⟨?_, ?_, ?_, ?_⟩
  · rw [length_methods_foldl_grantMethod, withMethods, List.length_append]
    exact Nat.le_add_right _ _
  · intro m hm
    rw [method_foldl_grantMethod (by simp), method, withMethods, List.getD_append _ _ _ _ hm,
      ← method]
  · simp [withMethods, hrecords]
  · intro k hk
    rw [record, withMethods, hrecords, List.getD_append _ _ _ _ hk, ← record]

end Ledger

end DependencyAtlas
