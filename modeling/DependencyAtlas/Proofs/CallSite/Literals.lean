import DependencyAtlas.Proofs.CallSite.Sites

namespace DependencyAtlas.CallSite

open Text

/-- What can stand between two quotes `q`: characters other than the quote and the backslash, and
pairs of a backslash and any character but a line feed. -/
inductive LiteralBody (q : Char) : Text → Prop where
  | nil : LiteralBody q []
  | plain {c : Char} {t : Text} : c ≠ q → c ≠ '\\' → LiteralBody q t → LiteralBody q (c :: t)
  | escaped {c : Char} {t : Text} : c ≠ '\n' → LiteralBody q t → LiteralBody q ('\\' :: c :: t)

def StartsLiteral (t : Text) : Prop :=
  ∃ q body rest, isQuote q = true ∧ LiteralBody q body ∧ t = q :: body ++ q :: rest

/-- The second text is the first with two double quotes in place of each complete literal, the
literals being found from left to right. -/
inductive Blanked : Text → Text → Prop where
  | nil : Blanked [] []
  | literal {q : Char} {body rest blanked : Text} :
    isQuote q = true → LiteralBody q body → Blanked rest blanked →
      Blanked (q :: body ++ q :: rest) ('"' :: '"' :: blanked)
  | plain {c : Char} {rest blanked : Text} :
    ¬StartsLiteral (c :: rest) → Blanked rest blanked → Blanked (c :: rest) (c :: blanked)

/-- Texts made of complete literals and of characters that are no quotes. -/
inductive Complete : Text → Prop where
  | nil : Complete []
  | plain {c : Char} {rest : Text} : isQuote c = false → Complete rest → Complete (c :: rest)
  | literal {q : Char} {body rest : Text} :
    isQuote q = true → LiteralBody q body → Complete rest → Complete (q :: body ++ q :: rest)

section Length

variable {q c : Char} {t body : Text}

theorem ne_backslash_of_isQuote (hq : isQuote q = true) : q ≠ '\\' := by
  rintro rfl
  cases hq

theorem literalLength_escaped (q : Char) (hc : c ≠ '\n') (t : Text) :
    literalLength q ('\\' :: c :: t) = (literalLength q t).map (· + 2) := by
  rw [literalLength, if_neg hc]

theorem literalLength_plain (q : Char) (hc : c ≠ '\\') (t : Text) :
    literalLength q (c :: t) = if c = q then some 1 else (literalLength q t).map (· + 1) := by
  rw [literalLength, if_neg hc]
  intro _ _ he
  exact (hc he).elim

theorem LiteralBody.literalLength_append (h : LiteralBody q body) (hq : isQuote q = true)
    (rest : Text) :
    literalLength q (body ++ q :: rest) = some (body.length + 1) := by
  induction h with
  | nil =>
    rw [List.nil_append, literalLength_plain q (ne_backslash_of_isQuote hq), if_pos rfl,
      List.length_nil]
  | plain hne hc _ ih =>
    rw [List.cons_append, literalLength_plain q hc, if_neg hne, ih, Option.map_some,
      List.length_cons]
  | escaped hc _ ih =>
    rw [List.cons_append, List.cons_append, literalLength_escaped q hc, ih, Option.map_some,
      List.length_cons, List.length_cons]

theorem exists_body_of_literalLength {n : Nat} (h : literalLength q t = some n) :
    ∃ body rest, LiteralBody q body ∧ t = body ++ q :: rest ∧ n = body.length + 1 := by
  fun_induction literalLength q t generalizing n with
  | case1 => cases h
  | case2 => cases h
  | case3 c t hc ih =>
    obtain ⟨m, hm, rfl⟩ := Option.map_eq_some_iff.1 h
    obtain ⟨body, rest, hbody, rfl, rfl⟩ := ih hm
    exact ⟨'\\' :: c :: body, rest, .escaped hc hbody, rfl, rfl⟩
  | case4 t =>
    cases h
    exact ⟨[], t, .nil, rfl, rfl⟩
  | case5 => cases h
  | case6 c t _ hq hc ih =>
    obtain ⟨m, hm, rfl⟩ := Option.map_eq_some_iff.1 h
    obtain ⟨body, rest, hbody, rfl, rfl⟩ := ih hm
    exact ⟨c :: body, rest, .plain hq hc hbody, rfl, rfl⟩

end Length

section Blank

variable {q c : Char} {line blanked body rest before : Text}

theorem blankFrom_append (w t : Text) : blankFrom w.length (w ++ t) = blankFrom 0 t := by
  induction w with
  | nil => rfl
  | cons c w ih => exact ih

theorem blankLiterals_literal (hq : isQuote q = true) (h : LiteralBody q body) (rest : Text) :
    blankLiterals (q :: body ++ q :: rest) = '"' :: '"' :: blankLiterals rest := by
  have hskip := blankFrom_append (body ++ [q]) rest
  rw [List.length_append, List.length_singleton, List.append_assoc, List.singleton_append] at hskip
  rw [blankLiterals, List.cons_append, blankFrom, if_pos hq, h.literalLength_append hq]
  dsimp only
  rw [hskip, blankLiterals]

theorem blankLiterals_plain (h : ¬StartsLiteral (c :: rest)) :
    blankLiterals (c :: rest) = c :: blankLiterals rest := by
  rw [blankLiterals, blankFrom]
  split
  · next hq =>
    split
    · next n hn =>
      obtain ⟨body, rest', hbody, rfl, -⟩ := exists_body_of_literalLength hn
      exact (h ⟨c, body, rest', hq, hbody, rfl⟩).elim
    · rfl
  · rfl

theorem not_startsLiteral_of_isQuote (h : isQuote c = false) (rest : Text) :
    ¬StartsLiteral (c :: rest) := by
  rintro ⟨q, body, rest', hq, -, he⟩
  rw [(List.cons.inj he).1, hq] at h
  cases h

theorem blanked_blankLiterals (line : Text) : Blanked line (blankLiterals line) := by
  induction hn : line.length using Nat.strongRecOn generalizing line with
  | ind n ih =>
    cases line with
    | nil => exact .nil
    | cons c rest =>
      by_cases h : StartsLiteral (c :: rest)
      · obtain ⟨q, body, rest', hq, hbody, he⟩ := h
        rw [he, blankLiterals_literal hq hbody]
        refine .literal hq hbody (ih _ ?_ rest' rfl)
        rw [← hn, he, List.length_append, List.length_cons, List.length_cons]
        omega
      · rw [blankLiterals_plain h]
        exact .plain h (ih _ (hn ▸ Nat.lt_succ_self _) rest rfl)

theorem blankLiterals_eq_iff : blankLiterals line = blanked ↔ Blanked line blanked := by
  constructor
  · rintro rfl
    exact blanked_blankLiterals line
  · intro h
    induction h with
    | nil => rfl
    | literal hq hbody _ ih => rw [blankLiterals_literal hq hbody, ih]
    | plain hstart _ ih => rw [blankLiterals_plain hstart, ih]

theorem Complete.blankLiterals_append (h : Complete before) (rest : Text) :
    blankLiterals (before ++ rest) = blankLiterals before ++ blankLiterals rest := by
  induction h with
  | nil => rfl
  | plain hc _ ih =>
    rw [List.cons_append, blankLiterals_plain (not_startsLiteral_of_isQuote hc _),
      blankLiterals_plain (not_startsLiteral_of_isQuote hc _), ih, List.cons_append]
  | literal hq hbody _ ih =>
    rw [List.append_assoc, List.cons_append, List.cons_append, ← List.cons_append,
      blankLiterals_literal hq hbody, blankLiterals_literal hq hbody, ih, List.cons_append,
      List.cons_append]

end Blank

section Find

variable {q : Char} {before body body' : Text}

theorem find_eq (line : Text) :
    find line = (namesFrom none (blankLiterals line)).filter fun n => n ∉
      keywords.map String.toList :=
  rfl

theorem find_append_literal (hq : isQuote q = true) (hbefore : Complete before)
    (hbody : LiteralBody q body) (after : Text) :
    find (before ++ (q :: body ++ q :: after)) = find before ++ find after := by
  have hbehind :
      namesFrom none ('"' :: blankLiterals after) = namesFrom none (blankLiterals after) :=
    namesFrom_append_quote none [] (blankLiterals after)
  rw [find_eq, hbefore.blankLiterals_append, blankLiterals_literal hq hbody, namesFrom_append_quote,
    hbehind, List.filter_append, ← find_eq, ← find_eq]

/-- What stands in a literal does not change the calls that are found, which are those before it and
those behind it. -/
theorem find_ignores_literal_body (hq : isQuote q = true) (hbefore : Complete before)
    (hbody : LiteralBody q body) (hbody' : LiteralBody q body') (after : Text) :
    find (before ++ (q :: body ++ q :: after)) = find (before ++ (q :: body' ++ q :: after)) ∧
      find (before ++ (q :: body ++ q :: after)) = find before ++ find after := by
  rw [find_append_literal hq hbefore hbody, find_append_literal hq hbefore hbody']
  exact ⟨rfl, rfl⟩

theorem find_of_quoted_call :
    isQuote '"' = true ∧ Complete "f('x(\\'', ".toList ∧ LiteralBody '"' "g(\\\"".toList ∧
    LiteralBody '"' "'`".toList ∧
      find "f('x(\\'', \"g(\\\"\" + h(`i(".toList = find "f('x(\\'', \"'`\" + h(`i(".toList ∧
      find "f('x(\\'', \"g(\\\"\" + h(`i(".toList = ["f".toList, "h".toList, "i".toList] := by
  have hliteral : Complete ('\'' :: ['x', '(', '\\', '\''] ++ '\'' :: [',', ' ']) :=
    .literal rfl (.plain (by decide) (by decide)
      (.plain (by decide) (by decide) (.escaped (by decide) .nil))) (.plain rfl (.plain rfl .nil))
  have hbefore : Complete "f('x(\\'', ".toList := .plain rfl (.plain rfl hliteral)
  have hbody : LiteralBody '"' "g(\\\"".toList :=
    .plain (by decide) (by decide) (.plain (by decide) (by decide) (.escaped (by decide) .nil))
  have hbody' : LiteralBody '"' "'`".toList :=
    .plain (by decide) (by decide) (.plain (by decide) (by decide) .nil)
  obtain ⟨hsame, hsplit⟩ := find_ignores_literal_body rfl hbefore hbody hbody' " + h(`i(".toList
  refine ⟨rfl, hbefore, hbody, hbody', hsame, hsplit.trans ?_⟩
  decide +kernel

end Find

end DependencyAtlas.CallSite
