import DependencyAtlas.Parameter.Dialect
import DependencyAtlas.Proofs.Text.Splitting

namespace DependencyAtlas

open Text

namespace Parameter

variable {t : Text} {P : Text → Prop} {p : Parameter}

/-- A parameter as signatures show it, without its default value. -/
def declaration (p : Parameter) : Text :=
  if p.type = [] then p.name else p.name ++ ": ".toList ++ p.type

theorem render_eq (p : Parameter) :
    p.render = p.declaration ++ p.defaultValue.elim [] (" = ".toList ++ ·) := by
  rw [render, declaration]
  cases p.defaultValue with
  | none => simp
  | some v => simp

theorem ofColon_cases (t : Text) :
    (findTopLevel (· == ':') (splitDefault t).1 = none ∧
        ofColon t = { name := (splitDefault t).1, defaultValue := (splitDefault t).2 }) ∨
      ∃ name type, (splitDefault t).1 = name ++ ':' :: type ∧ findTopLevel (· == ':') name = none ∧
        Nesting.after {} name = {} ∧
        ofColon t =
          { name := trim name, type := trim type, defaultValue := (splitDefault t).2 } := by
  have htrim := trim_fst_splitDefault t
  rw [ofColon]
  generalize splitDefault t = r at htrim ⊢
  obtain ⟨decl, value⟩ := r
  cases hcolon : findTopLevel (· == ':') decl with
  | none => exact .inl ⟨rfl, by simp [hcolon, htrim]⟩
  | some i =>
    obtain ⟨name, c, type, rfl, rfl, hname, hafter, -, hc⟩ := findFrom_eq_some hcolon
    obtain rfl := eq_of_beq hc
    exact .inr ⟨name, type, rfl, hname, hafter, by simp [hcolon]⟩

theorem inherited_declared (hP : Inherited ':' P) (h : P (splitDefault t).1) :
    P (ofColon t).name ∧ P (ofColon t).type := by
  obtain ⟨-, heq⟩ | ⟨name, type, hdecl, -, hafter, heq⟩ := ofColon_cases t
  · rw [heq]
    exact ⟨h, hP.empty⟩
  · rw [hdecl] at h
    obtain ⟨hname, htype⟩ := hP.parts name type hafter h
    rw [heq]
    exact ⟨hP.trim name hname, hP.trim type htype⟩

theorem defaultValue_ofColon (t : Text) : (ofColon t).defaultValue = (splitDefault t).2 := by
  obtain ⟨-, heq⟩ | ⟨name, type, -, -, -, heq⟩ := ofColon_cases t
  · rw [heq]
  · rw [heq]

theorem inherited_ofColon (hcolon : Inherited ':' P) (hequals : Inherited '=' P) (h : P t) :
    P (ofColon t).name ∧ P (ofColon t).type ∧ ∀ v ∈ (ofColon t).defaultValue, P v := by
  obtain ⟨hdecl, hvalue⟩ := inherited_splitDefault hequals h
  obtain ⟨hname, htype⟩ := inherited_declared hcolon hdecl
  rw [defaultValue_ofColon]
  exact ⟨hname, htype, hvalue⟩

/-- A parameter whose parts can be told apart when it is written out: they are trimmed and have no
free signs, and each part with another one behind it closes what it opens. -/
structure Separable (p : Parameter) : Prop where
  name_trim : trim p.name = p.name
  type_trim : trim p.type = p.type
  value_trim : ∀ v ∈ p.defaultValue, v ≠ [] ∧ trim v = v
  name_avoids : findTopLevel (· == ':') p.name = none
  name_unassigned : assignmentFrom {} none p.name = none
  type_unassigned : assignmentFrom {} none p.type = none
  name_closed : p.type ≠ [] → Nesting.after {} p.name = {}
  closed : p.defaultValue ≠ none → Nesting.after {} p.name = {} ∧ Nesting.after {} p.type = {}

theorem separable_ofColon (t : Text) : (ofColon t).Separable := by
  obtain ⟨hname, htype⟩ := inherited_declared inherited_unassigned (assignmentFrom_splitDefault t)
  have hvalue : ∀ v ∈ (ofColon t).defaultValue, v ≠ [] ∧ trim v = v := by
    rw [defaultValue_ofColon]
    exact fun v => trim_of_mem_splitDefault
  have hclosed : (ofColon t).defaultValue ≠ none →
      Nesting.after {} (ofColon t).name = {} ∧ Nesting.after {} (ofColon t).type = {} := by
    rw [defaultValue_ofColon]
    exact fun h => inherited_declared (inherited_closed (by decide)) (after_splitDefault h)
  obtain ⟨hnone, heq⟩ | ⟨name, type, -, hnone, hafter, heq⟩ := ofColon_cases t
  · rw [heq] at hname htype hvalue hclosed ⊢
    exact ⟨trim_fst_splitDefault t, rfl, hvalue, hnone, hname, htype, fun h => absurd rfl h,
      hclosed⟩
  · rw [heq] at hname htype hvalue hclosed ⊢
    exact ⟨trim_trim name, trim_trim type, hvalue, findTopLevel_trim hnone, hname, htype,
      fun _ => (Nesting.sound_start.after_trim name).trans hafter, hclosed⟩

theorem declaration_of_typed (h : p.type ≠ []) :
    p.declaration = p.name ++ ':' :: ' ' :: p.type := by
  rw [declaration, if_neg h]
  simp

theorem declaration_of_untyped (h : p.type = []) : p.declaration = p.name :=
  if_pos h

theorem after_declaration (hname : Nesting.after {} p.name = {})
    (htype : Nesting.after {} p.type = {}) :
    Nesting.after {} p.declaration = {} := by
  rw [declaration]
  split
  · exact hname
  · rw [Nesting.after_append, Nesting.after_append, hname]
    exact htype

namespace Separable

theorem declaration_closed (h : p.Separable) (hvalue : p.defaultValue ≠ none) :
    Nesting.after {} p.declaration = {} := by
  obtain ⟨hname, htype⟩ := h.closed hvalue
  exact after_declaration hname htype

theorem trim_declaration (h : p.Separable) : trim p.declaration = p.declaration := by
  by_cases htype : p.type = []
  · rw [declaration_of_untyped htype, h.name_trim]
  · rw [declaration, if_neg htype]
    cases hname : p.name with
    | nil => exact trim_around (t := [':']) [' '] (by decide) htype rfl h.type_trim
    | cons c name =>
      have htrim : trim (c :: name) = c :: name := hname ▸ h.name_trim
      exact trim_around ": ".toList (List.cons_ne_nil c name) htype htrim h.type_trim

theorem declaration_unassigned (h : p.Separable) : assignmentFrom {} none p.declaration = none := by
  by_cases htype : p.type = []
  · rw [declaration_of_untyped htype]
    exact h.name_unassigned
  · have hrest : assignmentFrom {} (p.name.getLast?.or none) (':' :: ' ' :: p.type) = none := by
      rw [assignmentFrom_cons_eq_none_iff, assignmentFrom_cons_eq_none_iff]
      exact ⟨fun _ hc => absurd hc (by decide), fun _ hc => absurd hc (by decide),
        assignmentFrom_of_neutral h.type_unassigned rfl (some ' ')⟩
    rw [declaration_of_typed htype, assignmentFrom_append h.name_unassigned,
      h.name_closed htype, hrest]
    rfl

theorem splitDefault_render (h : p.Separable) :
    splitDefault p.render = (p.declaration, p.defaultValue) := by
  rw [render_eq]
  cases hvalue : p.defaultValue with
  | none =>
    rw [Option.elim_none, List.append_nil, splitDefault, h.declaration_unassigned,
      h.trim_declaration]
  | some v =>
    obtain ⟨hne, htrim⟩ := h.value_trim v hvalue
    have hsign : assignmentFrom {} (p.declaration.getLast?.or none) (' ' :: '=' :: ' ' :: v) =
        some ([' '], ' ' :: v) :=
      rfl
    have hfound : assignmentFrom {} none (p.declaration ++ ' ' :: '=' :: ' ' :: v) =
        some (p.declaration ++ [' '], ' ' :: v) := by
      rw [assignmentFrom_append h.declaration_unassigned,
        h.declaration_closed (by simp [hvalue]), hsign]
      rfl
    have hdecl : trim (p.declaration ++ [' ']) = p.declaration := by
      rw [trim_concat (by decide), h.trim_declaration]
    have hdefault : trim (' ' :: v) = v := by rw [trim_cons (by decide), htrim]
    change splitDefault (p.declaration ++ ' ' :: '=' :: ' ' :: v) = _
    rw [splitDefault, hfound]
    simp only [hdecl, hdefault, if_neg hne]

theorem findTopLevel_declaration (h : p.Separable) :
    findTopLevel (· == ':') p.declaration = if p.type = [] then none else some p.name.length := by
  split
  · next htype => rw [declaration_of_untyped htype, h.name_avoids]
  · next htype =>
    rw [declaration_of_typed htype]
    exact findFrom_eq_some_of h.name_avoids (h.name_closed htype) (by decide) (by decide)

theorem ofColon_render (h : p.Separable) : ofColon p.render = p := by
  rw [ofColon, h.splitDefault_render]
  simp only [h.findTopLevel_declaration]
  by_cases htype : p.type = []
  · simp only [if_pos htype, declaration_of_untyped htype, h.name_trim]
    cases p
    cases htype
    rfl
  · have htrim : trim (' ' :: p.type) = p.type := by rw [trim_cons (by decide), h.type_trim]
    have hdrop : (p.name ++ ':' :: ' ' :: p.type).drop (p.name.length + 1) = ' ' :: p.type := by
      rw [← List.drop_drop, List.drop_left]
      rfl
    simp only [if_neg htype, declaration_of_typed htype, List.take_left, hdrop, htrim, h.name_trim]

/-- Writing a parameter out puts no free character into it but the signs and blanks between its
parts. -/
theorem findTopLevel_render (h : p.Separable) {cut : Char → Bool}
    (hcolon : findTopLevel cut ": ".toList = none) (hequals : findTopLevel cut " = ".toList = none)
    (hname : findTopLevel cut p.name = none) (htype : findTopLevel cut p.type = none)
    (hvalue : ∀ v ∈ p.defaultValue, findTopLevel cut v = none) :
    findTopLevel cut p.render = none := by
  have hdecl : findTopLevel cut p.declaration = none := by
    rw [declaration]
    split
    · exact hname
    · next hne => exact findTopLevel_around hname (h.name_closed hne) hcolon rfl htype
  rw [render_eq]
  cases hdefault : p.defaultValue with
  | none => rwa [Option.elim_none, List.append_nil]
  | some v =>
    rw [Option.elim_some, ← List.append_assoc]
    exact findTopLevel_around hdecl (h.declaration_closed (by simp [hdefault])) hequals rfl
      (hvalue v hdefault)

theorem trim_render (h : p.Separable) (hname : p.name ≠ []) : trim p.render = p.render := by
  have hdecl : p.declaration ≠ [] := by
    rw [declaration]
    split
    · exact hname
    · simp [hname]
  rw [render_eq]
  cases hdefault : p.defaultValue with
  | none => rw [Option.elim_none, List.append_nil, h.trim_declaration]
  | some v =>
    obtain ⟨hne, htrim⟩ := h.value_trim v hdefault
    rw [Option.elim_some, ← List.append_assoc]
    exact trim_around " = ".toList hdecl hne h.trim_declaration htrim

end Separable

theorem after_render (hname : Nesting.after {} p.name = {}) (htype : Nesting.after {} p.type = {})
    (hvalue : ∀ v ∈ p.defaultValue, Nesting.after {} v = {}) : Nesting.after {} p.render = {} := by
  rw [render_eq, Nesting.after_append, after_declaration hname htype]
  cases hdefault : p.defaultValue with
  | none => rfl
  | some v => exact hvalue v hdefault

theorem name_prefix_render (p : Parameter) : p.name <+: p.render := by
  rw [render_eq, declaration]
  split
  · exact List.prefix_append _ _
  · rw [List.append_assoc, List.append_assoc]
    exact List.prefix_append _ _

theorem ofColon_of_ofPython? {q : Text} (h : ofPython? q = some p) : p = ofColon q := by
  rw [ofPython?] at h
  split at h
  · cases h
  · exact (Option.some.inj h).symm

/-- An entry that was read is written out as a part that can be told from its neighbours. -/
theorem render_of_ofPython? {q : Text} (h : ofPython? q = some p) (hname : p.name ≠ [])
    (hq : findTopLevel (· == ',') q = none) :
    p.render ≠ [] ∧ trim p.render = p.render ∧ findTopLevel (· == ',') p.render = none := by
  obtain rfl := ofColon_of_ofPython? h
  have hseparable := separable_ofColon q
  obtain ⟨havoids, htype, hvalue⟩ :=
    inherited_ofColon (inherited_avoids (by decide) _) (inherited_avoids (by decide) _) hq
  refine ⟨?_, hseparable.trim_render hname,
    hseparable.findTopLevel_render rfl rfl havoids htype hvalue⟩
  intro hrender
  have hprefix := name_prefix_render (ofColon q)
  rw [hrender, List.prefix_nil] at hprefix
  exact hname hprefix

theorem after_render_of_ofPython? {q : Text} (h : ofPython? q = some p)
    (hq : Nesting.after {} q = {}) :
    Nesting.after {} p.render = {} := by
  obtain rfl := ofColon_of_ofPython? h
  obtain ⟨hname, htype, hvalue⟩ :=
    inherited_ofColon (inherited_closed (by decide)) (inherited_closed (by decide)) hq
  exact after_render hname htype hvalue

theorem ofPython?_render (h : p.Separable) (hname : p.name ≠ []) (hstar : p.name ≠ ['*'])
    (hslash : p.name ≠ ['/']) :
    ofPython? p.render = some p := by
  have hne {c : Char} (hc : p.name ≠ [c]) : p.render ≠ [c] := by
    intro hrender
    have hprefix := name_prefix_render p
    rw [hrender] at hprefix
    obtain hnil | hall := List.prefix_cons_iff.1 hprefix
    · exact hname hnil
    · obtain ⟨rest, hrest, hempty⟩ := hall
      rw [List.prefix_nil.1 hempty] at hrest
      exact hc hrest
  rw [ofPython?, h.trim_render hname, if_neg (not_or.2 ⟨hne hstar, hne hslash⟩), h.ofColon_render]

theorem filterMap_map_render {ps : List Parameter} (h : ∀ p ∈ ps, p.Separable)
    (hnames : ∀ p ∈ ps, p.name ≠ [] ∧ p.name ≠ ['*'] ∧ p.name ≠ ['/']) :
    (ps.map render).filterMap ofPython? = ps := by
  induction ps with
  | nil => rfl
  | cons p ps ih =>
    obtain ⟨hp, hps⟩ := List.forall_mem_cons.1 h
    obtain ⟨⟨hname, hstar, hslash⟩, hnames⟩ := List.forall_mem_cons.1 hnames
    rw [List.map_cons, List.filterMap_cons_some (ofPython?_render hp hname hstar hslash),
      ih hps hnames]

end Parameter

namespace Language

theorem parameters_python (t : Text) :
    python.parameters t = (splitTopLevel (· == ',') t).filterMap Parameter.ofPython? := by
  rw [parameters, if_neg (by decide)]
  rfl

/-- Reading a parameter, writing it out and reading it again gives the same parameter. A list of
parameters that is read, written out with commas as signatures show it, and read again is the same
list, provided that every parameter has a name that is not one of the signs which only separate
parameters. -/
theorem colon_parameters_read_back :
    (∀ t, Parameter.ofColon (Parameter.ofColon t).render = Parameter.ofColon t) ∧
    ∀ t, (∀ p ∈ python.parameters t, p.name ≠ [] ∧ p.name ≠ ['*'] ∧ p.name ≠ ['/']) →
      python.parameters (join ", ".toList ((python.parameters t).map Parameter.render)) =
        python.parameters t := by
  constructor
  · intro t
    exact (Parameter.separable_ofColon t).ofColon_render
  · intro t hnames
    obtain ⟨hparts, hclosed⟩ := splitTopLevel_apart (· == ',') t
    have hread := parameters_python t
    generalize python.parameters t = ps at hread hnames ⊢
    subst hread
    rw [parameters_python, splitTopLevel_join, Parameter.filterMap_map_render]
    · intro p hp
      obtain ⟨q, -, hread⟩ := List.mem_filterMap.1 hp
      rw [Parameter.ofColon_of_ofPython? hread]
      exact Parameter.separable_ofColon q
    · exact hnames
    · intro r hr
      obtain ⟨p, hp, rfl⟩ := List.mem_map.1 hr
      obtain ⟨q, hq, hread⟩ := List.mem_filterMap.1 hp
      exact Parameter.render_of_ofPython? hread (hnames p hp).1 (hparts q hq).2.2
    · apply List.pairwise_map.2
      apply List.pairwise_filterMap.2
      apply hclosed.imp
      intro q _ hq p hread _ _
      exact Parameter.after_render_of_ofPython? hread hq

/-- A list with a sign that only separates, and with a bracket that is not closed. -/
def unclosedList : Text :=
  "x:int=3,/,f :g(a, b".toList

theorem unclosedList_read_back :
    python.parameters unclosedList =
        [⟨['x'], "int".toList, some ['3']⟩, ⟨['f'], "g(a, b".toList, none⟩] ∧
      python.parameters (join ", ".toList ((python.parameters unclosedList).map Parameter.render)) =
        python.parameters unclosedList := by
  have hread : python.parameters unclosedList =
      [⟨['x'], "int".toList, some ['3']⟩, ⟨['f'], "g(a, b".toList, none⟩] := by decide
  refine ⟨hread, colon_parameters_read_back.2 unclosedList ?_⟩
  rw [hread]
  decide

end Language

end DependencyAtlas
