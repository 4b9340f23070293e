import DependencyAtlas.Export.Dot

namespace DependencyAtlas

/-- What the DOT graph shows of a relationship. -/
def Relationship.edge (r : Relationship) : Text × Text × Verb :=
  (r.source, r.target, r.verb)

theorem Verb.ofWord?_eq_some_iff {w : Text} {v : Verb} :
    ofWord? w = some v ↔ w = v.word.toList := by
  constructor
  · intro h
    have hfound := List.find?_some h
    exact (of_decide_eq_true hfound).symm
  · rintro rfl
    cases v <;> decide

namespace Export

def dotChar (c : Char) : Text :=
  if c = '\\' ∨ c = '"' then ['\\', c] else [c]

theorem escapeEach_escapeEach (t : Text) :
    escapeEach '"' (escapeEach '\\' t) = t.flatMap dotChar := by
  rw [escapeEach, escapeEach, List.flatMap_assoc]
  congr 1
  funext c
  by_cases hbackslash : c = '\\'
  · subst hbackslash
    decide
  · by_cases hquote : c = '"' <;> simp [dotChar, hbackslash, hquote]

theorem dotQuoted_eq (t : Text) : dotQuoted t = '"' :: t.flatMap dotChar ++ ['"'] := by
  rw [dotQuoted, escapeEach_escapeEach]

def expect (beginning : String) (t : Text) : Option Text :=
  if beginning.toList.isPrefixOf t then some (t.drop beginning.length) else none

/-- Reads a quoted text behind its opening quote. A backslash stands only in front of a backslash or
a quote. -/
def readQuoted : Text → Option (Text × Text)
  | [] => none
  | c :: t =>
    if c = '"' then some ([], t)
    else if c = '\\' then
      match t with
      | [] => none
      | e :: t => if e = '\\' ∨ e = '"' then (readQuoted t).map fun r => (e :: r.1, r.2) else none
    else (readQuoted t).map fun r => (c :: r.1, r.2)

def readNext (beginning : String) (t : Text) : Option (Text × Text) :=
  (expect beginning t).bind readQuoted

def readEdge (t : Text) : Option ((Text × Text × Verb) × Text) :=
  (readNext "  \"" t).bind fun (source, t) =>
    (readNext " -> \"" t).bind fun (target, t) =>
      (readNext " [label=\"" t).bind fun (word, t) =>
        (Verb.ofWord? word).bind fun verb => (expect "];\n" t).map fun t =>
          ((source, target, verb), t)

def readEdges : (fuel : Nat) → Text → Option (List (Text × Text × Verb))
  | 0, _ => none
  | n + 1, t =>
    if t = "\x7d\n".toList then some []
    else (readEdge t).bind fun (e, t) => (readEdges n t).map (e :: ·)

/-- The edges of a graph. -/
def readDot (t : Text) : Option (List (Text × Text × Verb)) :=
  (expect "digraph Dependencies \x7b\n" t).bind fun t => readEdges t.length t

theorem expect_eq_some_iff {beginning : String} {t rest : Text} :
    expect beginning t = some rest ↔ t = beginning.toList ++ rest := by
  rw [expect, Option.ite_none_right_eq_some, List.isPrefixOf_iff_prefix, Option.some.injEq,
    ← String.length_toList]
  constructor
  · rintro ⟨⟨u, rfl⟩, rfl⟩
    rw [List.drop_left]
  · rintro rfl
    exact ⟨List.prefix_append _ _, List.drop_left⟩

theorem readQuoted_dotChars (x rest : Text) :
    readQuoted (x.flatMap dotChar ++ '"' :: rest) = some (x, rest) := by
  induction x with
  | nil => rw [List.flatMap_nil, List.nil_append, readQuoted.eq_def]; rfl
  | cons c x ih =>
    rw [List.flatMap_cons, List.append_assoc, dotChar]
    split
    · next h =>
      rw [List.cons_append, List.cons_append, List.nil_append, readQuoted.eq_def]
      simp only [if_neg (show '\\' ≠ '"' by decide), if_true, if_pos h, ih, Option.map_some]
    · next h =>
      obtain ⟨hbackslash, hquote⟩ := not_or.1 h
      rw [List.cons_append, List.nil_append, readQuoted.eq_def]
      simp only [if_neg hquote, if_neg hbackslash, ih, Option.map_some]

theorem eq_of_readQuoted {t x rest : Text} (h : readQuoted t = some (x, rest)) :
    t = x.flatMap dotChar ++ '"' :: rest := by
  fun_induction readQuoted t generalizing x with
  | case1 => cases h
  | case2 t =>
    cases h
    rfl
  | case3 => cases h
  | case4 e t hescaped _ ih =>
    obtain ⟨⟨y, u⟩, hread, heq⟩ := Option.map_eq_some_iff.1 h
    cases heq
    rw [ih hread, List.flatMap_cons, dotChar, if_pos hescaped]
    rfl
  | case5 => cases h
  | case6 c t hquote hbackslash ih =>
    obtain ⟨⟨y, u⟩, hread, heq⟩ := Option.map_eq_some_iff.1 h
    cases heq
    rw [ih hread, List.flatMap_cons, dotChar, if_neg (not_or.2 ⟨hbackslash, hquote⟩)]
    rfl

theorem readNext_eq_some_iff {beginning : String} {t x rest : Text} :
    readNext beginning t = some (x, rest) ↔ t =
      beginning.toList ++ (x.flatMap dotChar ++ '"' :: rest) := by
  rw [readNext, Option.bind_eq_some_iff]
  constructor
  · rintro ⟨u, hu, hread⟩
    rw [expect_eq_some_iff.1 hu, eq_of_readQuoted hread]
  · intro ht
    exact ⟨_, expect_eq_some_iff.2 ht, readQuoted_dotChars x rest⟩

theorem readEdge_eq_some_iff {t rest : Text} {e : Text × Text × Verb} :
    readEdge t = some (e, rest) ↔ ∃ r : Relationship, r.edge = e ∧
      t = dotLine r ++ '\n' :: rest := by
  simp only [readEdge, Option.bind_eq_some_iff, Prod.exists, readNext_eq_some_iff,
    Option.map_eq_some_iff, expect_eq_some_iff, Verb.ofWord?_eq_some_iff]
  constructor
  · rintro ⟨source, _, rfl, target, _, rfl, word, _, rfl, verb, rfl, _, rfl, heq⟩
    cases heq
    exact ⟨⟨source, target, verb, .modules⟩, rfl, by simp [dotLine, dotQuoted_eq]⟩
  · rintro ⟨r, rfl, rfl⟩
    refine ⟨r.source, _, ?_, r.target, _, rfl, r.verb.word.toList, _, rfl, r.verb, rfl, rest,
      rfl, rfl⟩
    simp [dotLine, dotQuoted_eq]

def dotBody (rs : List Relationship) : Text :=
  rs.flatMap (fun r => dotLine r ++ ['\n']) ++ "\x7d\n".toList

theorem dotBody_cons (r : Relationship) (rs : List Relationship) :
    dotBody (r :: rs) = dotLine r ++ '\n' :: dotBody rs := by
  simp [dotBody]

theorem length_le_dotBody (rs : List Relationship) : rs.length < (dotBody rs).length := by
  induction rs with
  | nil => decide
  | cons r rs ih =>
    rw [dotBody_cons, List.length_cons, List.length_append, List.length_cons]
    omega

theorem readEdges_dotBody {rs : List Relationship} {fuel : Nat} (h : rs.length < fuel) :
    readEdges fuel (dotBody rs) = some (rs.map Relationship.edge) := by
  induction rs generalizing fuel with
  | nil =>
    cases fuel with
    | zero => cases h
    | succ n => rfl
  | cons r rs ih =>
    cases fuel with
    | zero => cases h
    | succ n =>
      have hline : readEdge (dotLine r ++ '\n' :: dotBody rs) = some (r.edge, dotBody rs) :=
        readEdge_eq_some_iff.2 ⟨r, rfl, rfl⟩
      have hgoes : dotLine r ++ '\n' :: dotBody rs ≠ "\x7d\n".toList := by
        intro he
        cases he
      have hrest := ih (Nat.lt_of_succ_lt_succ h)
      rw [dotBody_cons, readEdges, if_neg hgoes, hline]
      simp only [Option.bind_some, hrest, Option.map_some, List.map_cons]

theorem exists_of_readEdges {fuel : Nat} {t : Text} {es : List (Text × Text × Verb)}
    (h : readEdges fuel t = some es) :
    ∃ rs : List Relationship, rs.map Relationship.edge = es ∧ t = dotBody rs := by
  induction fuel generalizing t es with
  | zero => cases h
  | succ n ih =>
    rw [readEdges] at h
    split at h
    · next ht =>
      cases h
      exact ⟨[], rfl, ht⟩
    · obtain ⟨⟨e, rest⟩, hedge, hrest⟩ := Option.bind_eq_some_iff.1 h
      obtain ⟨es', hes, rfl⟩ := Option.map_eq_some_iff.1 hrest
      obtain ⟨r, rfl, rfl⟩ := readEdge_eq_some_iff.1 hedge
      obtain ⟨rs, rfl, rfl⟩ := ih hes
      exact ⟨r :: rs, rfl, (dotBody_cons r rs).symm⟩

theorem join_lines (first last : Text) (lines : List Text) :
    Text.join ['\n'] (first :: (lines ++ [last])) ++ ['\n'] =
      first ++ '\n' :: (lines.flatMap (· ++ ['\n']) ++ (last ++ ['\n'])) := by
  induction lines generalizing first with
  | nil => simp [Text.join, List.intercalate_cons_cons]
  | cons line lines ih =>
    rw [List.cons_append, Text.join, List.intercalate_cons_cons, List.append_assoc, ← Text.join, ih]
    simp

theorem dot_eq (rs : List Relationship) :
    dot rs = "digraph Dependencies \x7b\n".toList ++ dotBody rs := by
  rw [dot, List.append_assoc, List.singleton_append, join_lines, List.flatMap_map]
  rfl

/-- Reading accepts exactly the exports and answers the source, the target and the verb of each
relationship, in order. So lists of relationships with the same export have the same edges. -/
theorem dot_reads_back :
    (∀ rs, readDot (dot rs) = some (rs.map Relationship.edge)) ∧
    (∀ t es, readDot t = some es → ∃ rs, dot rs = t ∧ rs.map Relationship.edge = es) ∧
    ∀ rs rs', dot rs = dot rs' → rs.map Relationship.edge = rs'.map Relationship.edge := by
  have hread (rs : List Relationship) : readDot (dot rs) = some (rs.map Relationship.edge) := by
    rw [readDot, expect_eq_some_iff.2 (dot_eq rs), Option.bind_some,
      readEdges_dotBody (length_le_dotBody rs)]
  refine ⟨hread, ?_, ?_⟩
  · intro t es h
    obtain ⟨body, hbody, hes⟩ := Option.bind_eq_some_iff.1 h
    obtain ⟨rs, hedges, rfl⟩ := exists_of_readEdges hes
    exact ⟨rs, (dot_eq rs).trans (expect_eq_some_iff.1 hbody).symm, hedges⟩
  · intro rs rs' h
    apply Option.some.inj
    rw [← hread rs, ← hread rs', h]

/-- A source that ends in a backslash, and a target that looks like the end of its line and another
edge. -/
def fakeEdge (layer : Layer) : Relationship :=
  ⟨"a\\".toList, "b\"];\n  \"c\" -> \"d".toList, .calls, layer⟩

theorem dot_of_fakeEdge :
    dot [fakeEdge .modules] = dot [fakeEdge .methods] ∧
      [fakeEdge .modules].map Relationship.edge = [fakeEdge .methods].map Relationship.edge ∧
      readDot (dot [fakeEdge .modules]) = some [("a\\".toList, "b\"];\n  \"c\" -> \"d".toList,
        .calls)] ∧
      ∃ rs, dot rs = dot [fakeEdge .modules] ∧
        rs.map Relationship.edge = [(fakeEdge .methods).edge] := by
  obtain ⟨hread, hexact, hinjective⟩ := dot_reads_back
  have hdot : dot [fakeEdge .modules] = dot [fakeEdge .methods] := rfl
  exact ⟨hdot, hinjective _ _ hdot, hread _, hexact _ _ (hread _)⟩

end Export

end DependencyAtlas
