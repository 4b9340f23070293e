import DependencyAtlas.Pattern.Reader
import DependencyAtlas.Proofs.CallSite.Literals
import DependencyAtlas.Proofs.Pattern.Search
import DependencyAtlas.Proofs.Pattern.Indentation

namespace DependencyAtlas.CallSite

open Text Pattern

/-- What can stand in a literal between two quotes `q`, one character or one pair at a time. -/
def bodyPattern (q : Char) : Pattern :=
  (empty ++ one ⟨[.char '\\'], false⟩ ++ anyChar) ||| (empty ++ one ⟨[.char q, .char '\\'], true⟩)

/-- A literal between two quotes `q`. -/
def quotedPattern (q : Char) : Pattern :=
  empty ++ one ⟨[.char q], false⟩ ++ many0 (bodyPattern q) ++ one ⟨[.char q], false⟩

/-- A literal between quotes of any kind. -/
def literalPattern : Pattern :=
  quotedPattern '"' ||| quotedPattern '\'' ||| quotedPattern '`'

/-- A name with its mark, blanks and an opening parenthesis. -/
def callPattern : Pattern :=
  empty ++
    captureAs "name" (empty ++ one ⟨[.range 'A' 'Z', .range 'a' 'z', .char '_'], false⟩ ++
      many0 wordChar ++ opt (among "?!")) ++
    blanks ++ one ⟨[.char '('], false⟩

theorem read_literalPattern :
    read "\\\"(?:\\\\.|[^\\\"\\\\])*\\\"|'(?:\\\\.|[^'\\\\])*'|`(?:\\\\.|[^`\\\\])*`".toList =
      .ok literalPattern := by
  rfl

theorem read_callPattern : read "(?P<name>[A-Za-z_]\\w*[?!]?)\\s*\\(".toList = .ok callPattern := by
  rfl

section Sets

theorem contains_char (c d : Char) : (CharSet.mk [.char d] false).contains c = (c == d) := by
  simp [CharSet.contains, CharItem.holds]

theorem contains_other (c d : Char) : (CharSet.mk [.char d] true).contains c = (c != d) := by
  simp [CharSet.contains, CharItem.holds, bne]

theorem contains_neither (c d e : Char) :
    (CharSet.mk [.char d, .char e] true).contains c = (c != d && c != e) := by
  simp [CharSet.contains, CharItem.holds, bne]

theorem contains_nameStart (c : Char) :
    (CharSet.mk [.range 'A' 'Z', .range 'a' 'z', .char '_'] false).contains c = isNameStart c := by
  have hupper : (decide ('A'.toNat ≤ c.toNat) && decide (c.toNat ≤ 'Z'.toNat)) = c.isUpper := by
    delta Char.isUpper
    rw [Bool.eq_iff_iff]
    simp [UInt32.le_iff_toNat_le]
  have hlower : (decide ('a'.toNat ≤ c.toNat) && decide (c.toNat ≤ 'z'.toNat)) = c.isLower := by
    delta Char.isLower
    rw [Bool.eq_iff_iff]
    simp [UInt32.le_iff_toNat_le]
  delta isNameStart Char.isAlpha
  simp only [CharSet.contains, List.any_cons, List.any_nil, CharItem.holds, hupper, hlower,
    Bool.or_false, Bool.bne_false, Bool.or_assoc]

end Sets

section Literal

variable {q c : Char} {previous : Option Char} {t w body : Text}

/-- The pair or the character that a text starts with, if it can stand in a literal between two
quotes `q`. -/
def bodyUnit (q : Char) (t : Text) : Option Text :=
  (thenTake (firstOf ⟨[.char '\\'], false⟩) (firstOf ⟨[.char '\n'], true⟩) t).or
    (firstOf ⟨[.char q, .char '\\'], true⟩ t)

theorem bodyUnit_escaped (q c : Char) (t : Text) :
    bodyUnit q ('\\' :: c :: t) = if c = '\n' then none else some ['\\', c] := by
  have hfirst : firstOf ⟨[.char '\\'], false⟩ ('\\' :: c :: t) = some ['\\'] := rfl
  have hplain : firstOf ⟨[.char q, .char '\\'], true⟩ ('\\' :: c :: t) = none := by
    rw [firstOf, contains_neither, bne_self_eq_false, Bool.and_false, if_neg Bool.false_ne_true]
  rw [bodyUnit, thenTake, hfirst, hplain, Option.or_none, Option.bind_some, List.length_singleton,
    List.drop_one, List.tail_cons, firstOf, contains_other]
  by_cases hc : c = '\n'
  · rw [if_pos hc, if_neg (by rw [hc]; decide)]
    rfl
  · rw [if_neg hc, if_pos (bne_iff_ne.2 hc)]
    rfl

theorem bodyUnit_plain (q : Char) (hc : c ≠ '\\') (t : Text) :
    bodyUnit q (c :: t) = if c = q then none else some [c] := by
  have hfirst : firstOf ⟨[.char '\\'], false⟩ (c :: t) = none := by
    rw [firstOf, contains_char, if_neg (mt beq_iff_eq.1 hc)]
  rw [bodyUnit, thenTake, hfirst, Option.bind_none, Option.none_or, firstOf, contains_neither,
    bne_iff_ne.2 hc, Bool.and_true]
  simp only [bne_iff_ne, ne_eq, ite_not]

theorem bodyUnit_quote (hq : isQuote q = true) (t : Text) : bodyUnit q (q :: t) = none := by
  rw [bodyUnit_plain q (ne_backslash_of_isQuote hq), if_pos rfl]

theorem exists_of_bodyUnit (h : bodyUnit q t = some w) :
    (∃ c rest, t = '\\' :: c :: rest ∧ c ≠ '\n' ∧ w = ['\\', c]) ∨
      ∃ c rest, t = c :: rest ∧ c ≠ q ∧ c ≠ '\\' ∧ w = [c] := by
  cases t with
  | nil => cases h
  | cons c rest =>
    by_cases hc : c = '\\'
    · subst hc
      cases rest with
      | nil => simp [bodyUnit, thenTake, firstOf, contains_char, contains_neither] at h
      | cons d rest =>
        rw [bodyUnit_escaped] at h
        split at h
        · cases h
        · next hd => exact .inl ⟨d, rest, rfl, hd, (Option.some.inj h).symm⟩
    · rw [bodyUnit_plain q hc] at h
      split at h
      · cases h
      · next hq => exact .inr ⟨c, rest, rfl, hq, hc, (Option.some.inj h).symm⟩

theorem takes_bodyPattern (q : Char) : (bodyPattern q).Takes (bodyUnit q) := by
  refine .either (.seq (.behind_empty (takes_one _)) (takes_one _)) (.behind_empty (takes_one _)) ?_
  intro t h
  cases t with
  | nil => rfl
  | cons c t =>
    by_cases hc : c = '\\'
    · rw [firstOf, contains_neither, hc, bne_self_eq_false, Bool.and_false,
        if_neg Bool.false_ne_true]
    · rw [thenTake, firstOf, contains_char, if_neg (mt beq_iff_eq.1 hc)] at h
      exact (h rfl).elim

theorem LiteralBody.rounds (h : LiteralBody q body) (hq : isQuote q = true) (rest : Text) :
    Rounds (bodyUnit q) (body ++ q :: rest) body := by
  induction h with
  | nil => exact .stop (bodyUnit_quote hq rest)
  | @plain c t hne hc _ ih =>
    refine Rounds.round (v := [c]) ?_ ih
    rw [List.cons_append, bodyUnit_plain q hc, if_neg hne]
  | @escaped c t hc _ ih =>
    refine Rounds.round (v := ['\\', c]) ?_ ih
    rw [List.cons_append, List.cons_append, bodyUnit_escaped, if_neg hc]

theorem literalBody_of_rounds (h : Rounds (bodyUnit q) t w) : LiteralBody q w ∧ w <+: t := by
  induction h with
  | stop => exact ⟨.nil, List.nil_prefix⟩
  | @round t v w hunit _ ih =>
    obtain ⟨hbody, u, hu⟩ := ih
    rcases exists_of_bodyUnit hunit with ⟨c, rest, rfl, hc, rfl⟩ | ⟨c, rest, rfl, hne, hc, rfl⟩
    · exact ⟨.escaped hc hbody, u, congrArg (['\\', c] ++ ·) hu⟩
    · exact ⟨.plain hne hc hbody, u, congrArg ([c] ++ ·) hu⟩

theorem firstOf_char (c d : Char) (t : Text) :
    firstOf ⟨[.char d], false⟩ (c :: t) = if c = d then some [c] else none := by
  rw [firstOf, contains_char]
  simp only [beq_iff_eq]

/-- A quoted literal is matched from its first quote to the first quote behind it that is not
escaped. -/
theorem map_offset_quotedPattern (hq : isQuote q = true) (previous : Option Char) (c : Char)
    (t : Text) :
    ((quotedPattern q).matchAt? previous (c :: t)).map Place.offset =
      if c = q then (literalLength q t).map (· + 1) else none := by
  have hrun : (quotedPattern q).matchAt? previous (c :: t) =
      (firstOf ⟨[.char q], false⟩ (c :: t)).bind fun v =>
      (many true (bodyPattern q) ++ one ⟨[.char q], false⟩).run
        (Place.past { previous, rest := c :: t } v) some :=
    (takes_one _).run_eq _ _
  have happart : ∀ t, bodyUnit q t ≠ none → firstOf ⟨[.char q], false⟩ t = none := by
    rintro (_ | ⟨d, t⟩) h
    · rfl
    · rw [firstOf_char, if_neg]
      rintro rfl
      exact h (bodyUnit_quote hq t)
  rw [hrun, firstOf_char]
  by_cases hc : c = q
  · rw [if_pos hc, if_pos hc, Option.bind_some]
    cases hlength : literalLength q t with
    | some n =>
      obtain ⟨body, rest, hbody, rfl, rfl⟩ := exists_body_of_literalLength hlength
      rw [(takes_bodyPattern q).run_many_seq (takes_one _) happart (hbody.rounds hq rest),
        Place.rest_past]
      change ((firstOf _ ((body ++ q :: rest).drop body.length)).bind _).map _ = _
      rw [List.drop_left, firstOf_char, if_pos rfl]
      change some (0 + 1 + (body ++ [q]).length) = some (body.length + 1 + 1)
      rw [List.length_append, List.length_singleton, Nat.zero_add, Nat.add_comm 1]
    | none =>
      obtain ⟨w, hw⟩ := (takes_bodyPattern q).exists_rounds t
      obtain ⟨hbody, u, rfl⟩ := literalBody_of_rounds hw
      rw [(takes_bodyPattern q).run_many_seq (takes_one _) happart hw, Place.rest_past]
      change ((firstOf _ ((w ++ u).drop w.length)).bind _).map _ = _
      rw [List.drop_left]
      cases u with
      | nil => rfl
      | cons d u =>
        rw [firstOf_char, if_neg]
        · rfl
        · rintro rfl
          rw [hbody.literalLength_append hq] at hlength
          cases hlength
  · rw [if_neg hc, if_neg hc]
    rfl

theorem map_offset_literalPattern (previous : Option Char) (c : Char) (t : Text) :
    (literalPattern.matchAt? previous (c :: t)).map Place.offset =
      if isQuote c then (literalLength c t).map (· + 1) else none := by
  rw [literalPattern, matchAt?_either, matchAt?_either, Option.map_or, Option.map_or,
    map_offset_quotedPattern rfl, map_offset_quotedPattern rfl, map_offset_quotedPattern rfl]
  by_cases hc : c = '"' ∨ c = '\'' ∨ c = '`'
  · rcases hc with rfl | rfl | rfl <;> simp [isQuote]
  · obtain ⟨hdouble, hsingle, hback⟩ : c ≠ '"' ∧ c ≠ '\'' ∧ c ≠ '`' := by
      simpa only [not_or] using hc
    simp [isQuote, hdouble, hsingle, hback]

theorem blankFrom_cons (c : Char) (t : Text) :
    blankFrom 0 (c :: t) =
      match if isQuote c then (literalLength c t).map (· + 1) else none with
      | some n => ['"', '"'] ++ blankFrom (n - 1) t
      | none => c :: blankFrom 0 t := by
  rw [blankFrom]
  split
  · cases literalLength c t with
    | none => rfl
    | some n => rfl
  · rfl

theorem replace_literalPattern (line : Text) :
    literalPattern.replace ['"', '"'] line = blankLiterals line := by
  have hscan : ∀ (n : Nat) (previous : Option Char) (t : Text),
      (literalPattern.scanFrom (fun _ => true) n previous t).flatMap
        (Sum.elim ([·]) fun _ => ['"', '"']) =
        blankFrom n t := by
    intro n previous t
    induction t generalizing n previous with
    | nil => rfl
    | cons c t ih =>
      cases n with
      | succ n => exact ih n (some c)
      | zero =>
        rw [scanFrom, if_pos rfl, blankFrom_cons, ← map_offset_literalPattern previous]
        cases literalPattern.matchAt? previous (c :: t) with
        | none => exact congrArg (c :: ·) (ih 0 (some c))
        | some s => exact congrArg (['"', '"'] ++ ·) (ih (s.offset - 1) (some c))
  exact hscan 0 none line

end Literal

section Call

variable {α : Type} {c : Char} {previous : Option Char} {t name : Text} {s : Place}
  {k : Place → Option α}

theorem drop_length_takeWhile (p : Char → Bool) (t : Text) :
    t.drop (t.takeWhile p).length = t.dropWhile p := by
  have h : (t.takeWhile p ++ t.dropWhile p).drop (t.takeWhile p).length = t.dropWhile p :=
    List.drop_left
  rwa [List.takeWhile_append_dropWhile] at h

theorem head?_trimLeft_cons (hc : isBlank c = false) (t : Text) :
    (trimLeft (c :: t)).head? = some c := by
  rw [trimLeft, List.dropWhile_cons_of_neg (by rw [hc]; exact Bool.false_ne_true), List.head?_cons]

theorem run_opening (s : Place) (k : Place → Option α) :
    (blanks ++ one ⟨[.char '('], false⟩).run s k =
    if (trimLeft s.rest).head? = some '(' then k (s.past (s.rest.takeWhile isBlank ++ ['(']))
    else none := by
  have hblank : (CharSet.mk [.blank] false).contains = isBlank := by
    funext c
    simp [CharSet.contains, CharItem.holds]
  have hrounds := rounds_firstOf ⟨[.blank], false⟩ s.rest
  rw [hblank] at hrounds
  have happart : ∀ t, firstOf ⟨[.blank], false⟩ t ≠ none →
      firstOf ⟨[.char '('], false⟩ t = none := by
    rintro (_ | ⟨c, t⟩) h
    · rfl
    · rw [firstOf_char, if_neg]
      rintro rfl
      exact h rfl
  rw [blanks, many0, blank, (takes_one _).run_many_seq (takes_one _) happart hrounds,
    drop_length_takeWhile, ← trimLeft]
  cases trimLeft s.rest with
  | nil => rfl
  | cons c t =>
    rw [firstOf_char, List.head?_cons]
    by_cases hc : c = '('
    · rw [if_pos hc, if_pos (congrArg some hc), hc]
      rfl
    · rw [if_neg hc, if_neg fun h => hc (Option.some.inj h)]
      rfl

theorem mark_ne_nil (h : mark t ≠ []) : ∃ rest, t = '?' :: rest ∨ t = '!' :: rest := by
  unfold mark at h
  split at h
  · next rest => exact ⟨rest, .inl rfl⟩
  · next rest => exact ⟨rest, .inr rfl⟩
  · exact (h rfl).elim

theorem firstOf_mark (t : Text) :
    firstOf ⟨[.char '?', .char '!'], false⟩ t = if mark t = [] then none else some (mark t) := by
  by_cases h : mark t = []
  · rw [if_pos h]
    cases t with
    | nil => rfl
    | cons c t =>
      have hquestion : c ≠ '?' := by
        rintro rfl
        cases h
      have hexclamation : c ≠ '!' := by
        rintro rfl
        cases h
      simp [firstOf, CharSet.contains, CharItem.holds, hquestion, hexclamation]
  · obtain ⟨rest, rfl | rfl⟩ := mark_ne_nil h
    · rfl
    · rfl

theorem run_mark (hk : ∀ u : Place, (trimLeft u.rest).head? ≠ some '(' → k u = none) :
    (opt (among "?!")).run s k = k (s.past (mark s.rest)) := by
  change ((one ⟨[.char '?', .char '!'], false⟩).run s k).orElse (fun _ => k s) = _
  rw [(takes_one _).run_eq, firstOf_mark]
  by_cases hmark : mark s.rest = []
  · rw [if_pos hmark, hmark, s.past_nil]
    rfl
  · have hback : k s = none := by
      apply hk
      obtain ⟨rest, hrest | hrest⟩ := mark_ne_nil hmark
      · rw [hrest, head?_trimLeft_cons rfl]
        decide
      · rw [hrest, head?_trimLeft_cons rfl]
        decide
    rw [if_neg hmark, Option.bind_some, hback, Option.orElse_eq_or, Option.or_none]

theorem contains_word : (CharSet.mk [.word] false).contains = isWord := by
  funext c
  simp [CharSet.contains, CharItem.holds]

theorem isWord_sign (h : c = '(' ∨ c = '?' ∨ c = '!') : isWord c = false := by
  rcases h with rfl | rfl | rfl <;> decide +kernel

theorem mark_eq_nil_of_isWord (hc : isWord c = true) (t : Text) :
    mark (c :: t) = [] ∧ (trimLeft (c :: t)).head? ≠ some '(' := by
  constructor
  · by_contra hmark
    obtain ⟨rest, h | h⟩ := mark_ne_nil hmark
    · rw [isWord_sign (.inr (.inl (List.cons.inj h).1))] at hc
      cases hc
    · rw [isWord_sign (.inr (.inr (List.cons.inj h).1))] at hc
      cases hc
  · rw [head?_trimLeft_cons (isBlank_eq_false_of_isWord hc)]
    intro h
    rw [isWord_sign (.inl (Option.some.inj h))] at hc
    cases hc

/-- A name is taken with all of its word and with the mark behind it. -/
theorem run_name (hk : ∀ u : Place, (trimLeft u.rest).head? ≠ some '(' → k u = none)
    (hs : s.rest = c :: t) :
    (empty ++ one ⟨[.range 'A' 'Z', .range 'a' 'z', .char '_'], false⟩ ++ many0 wordChar ++
      opt (among "?!")).run s k =
      if isNameStart c then k (s.past (c :: t.takeWhile isWord ++ mark (t.dropWhile isWord)))
      else none := by
  change (one _).run s (fun u => (many true wordChar).run u fun v => (opt (among "?!")).run v k) = _
  rw [(takes_one _).run_eq, hs, firstOf, contains_nameStart]
  split
  · have hrest : (s.past [c]).rest = t := by
      rw [s.rest_past, hs]
      rfl
    have hrounds : Rounds (firstOf ⟨[.word], false⟩) (s.past [c]).rest (t.takeWhile isWord) := by
      rw [hrest, ← contains_word]
      exact rounds_firstOf _ t
    rw [Option.bind_some, wordChar, (takes_one _).run_many _ hrounds, run_mark hk,
      Place.rest_past, hrest, drop_length_takeWhile, s.past_past, s.past_past]
    · rfl
    · intro u hu
      rw [run_mark hk]
      cases hword : u.rest with
      | nil =>
        rw [hword] at hu
        exact (hu rfl).elim
      | cons d rest =>
        rw [hword, firstOf, contains_word] at hu
        obtain ⟨hmark, hopen⟩ := mark_eq_nil_of_isWord (by_contra fun hd => hu (if_neg hd)) rest
        rw [hmark, u.past_nil]
        exact hk u (by rwa [hword])
  · rfl

/-- The place behind a call, where its name has been captured. -/
def behindCall (previous : Option Char) (t name gap : Text) : Place :=
  { Place.past { previous, rest := t } (name ++ gap ++ ['(']) with
    captures := [("name".toList, name)] }

theorem lookup_behindCall (previous : Option Char) (t name gap : Text) :
    (behindCall previous t name gap).captures.lookup "name".toList = some name :=
  rfl

theorem offset_behindCall (previous : Option Char) (c : Char) (t run mark' gap : Text) :
    (behindCall previous t (c :: run ++ mark') gap).offset =
      (run ++ (mark' ++ gap ++ ['('])).length + 1 := by
  change 0 + (c :: run ++ mark' ++ gap ++ ['(']).length = _
  rw [List.append_assoc, List.append_assoc, List.cons_append, List.length_cons, Nat.zero_add,
    List.append_assoc]

theorem past_bind_past (previous : Option Char) (name rest gap : Text) :
    (Place.bind "name".toList { previous, rest := name ++ rest }
      (Place.past { previous, rest := name ++ rest } name)).past (gap ++ ['(']) =
        behindCall previous (name ++ rest) name gap := by
  change { (Place.past { previous, rest := name ++ rest } name).past (gap ++ ['(']) with
    captures := [("name".toList, (name ++ rest).take (0 + name.length - 0))] } = _
  rw [Place.past_past, ← List.append_assoc, Nat.sub_zero, Nat.zero_add, List.take_left]
  rfl

theorem matchAt?_callPattern (previous : Option Char) (c : Char) (t : Text) :
    callPattern.matchAt? previous (c :: t) =
      let name := c :: t.takeWhile isWord ++ mark (t.dropWhile isWord)
      let behind := (t.dropWhile isWord).drop (mark (t.dropWhile isWord)).length
      if isNameStart c ∧ (trimLeft behind).head? = some '(' then
        some (behindCall previous (c :: t) name (behind.takeWhile isBlank))
      else none := by
  have hrun : callPattern.matchAt? previous (c :: t) =
      (empty ++ one ⟨[.range 'A' 'Z', .range 'a' 'z', .char '_'], false⟩ ++ many0 wordChar ++
        opt (among "?!")).run
        { previous, rest := c :: t } fun u => (blanks ++ one ⟨[.char '('], false⟩).run
          (Place.bind "name".toList { previous, rest := c :: t } u) some := rfl
  rw [hrun, run_name (c := c) (t := t) _ rfl]
  · dsimp only
    have hsplit : c :: t = (c :: t.takeWhile isWord ++ mark (t.dropWhile isWord)) ++
        (t.dropWhile isWord).drop (mark (t.dropWhile isWord)).length := by
      rw [List.append_assoc, mark_append_drop, List.cons_append, List.takeWhile_append_dropWhile]
    generalize c :: t.takeWhile isWord ++ mark (t.dropWhile isWord) = name at hsplit ⊢
    generalize (t.dropWhile isWord).drop (mark (t.dropWhile isWord)).length = behind at hsplit ⊢
    have hrest : (Place.bind "name".toList { previous, rest := c :: t }
        (Place.past { previous, rest := c :: t } name)).rest = behind := by
      change (c :: t).drop name.length = behind
      rw [hsplit, List.drop_left]
    rw [run_opening, hrest, hsplit, past_bind_past, ite_and]
  · intro u hu
    rw [run_opening]
    exact if_neg hu

theorem matchAt?_of_startsCall {first : Char} {run mark' gap : Text}
    (hfirst : isNameStart first = true) (hrun : ∀ c ∈ run, isWord c = true)
    (hend : ∀ c ∈ (mark' ++ gap ++ ['(']).head?, isWord c = false)
    (hmark : mark' = [] ∨ mark' = ['?'] ∨ mark' = ['!']) (hgap : ∀ c ∈ gap, isBlank c = true)
    (after : Text) (previous : Option Char) :
    callPattern.matchAt? previous (first :: run ++ (mark' ++ gap ++ '(' :: after)) =
      some (behindCall previous (first :: run ++ (mark' ++ gap ++ '(' :: after))
        (first :: run ++ mark') gap) := by
  rw [← head?_append_paren _ after] at hend
  obtain ⟨hword, hrest⟩ := takeWhile_isWord_append hrun hend
  have hparen : ¬isBlank '(' = true := by decide
  have hopen : (trimLeft (gap ++ '(' :: after)).head? = some '(' := by
    rw [trimLeft, List.dropWhile_append_of_pos hgap]
    rfl
  rw [List.cons_append, matchAt?_callPattern, hword, hrest, mark_append hmark hgap,
    List.append_assoc mark', List.drop_left]
  dsimp only
  rw [if_pos ⟨hfirst, hopen⟩, List.takeWhile_append_of_pos hgap, List.takeWhile_cons_of_neg hparen,
    List.append_nil]

theorem matchAt?_eq_none (previous : Option Char) (h : ∀ name, ¬StartsCall (c :: t) name) :
    callPattern.matchAt? previous (c :: t) = none := by
  rw [matchAt?_callPattern]
  apply if_neg
  rintro ⟨hfirst, hopen⟩
  exact h _ (startsCall_cons_iff.2 ⟨hfirst, hopen, rfl⟩)

theorem nameAt_behind_word (hc : isWord c = true) (t : Text) : nameAt (some c) t = none := by
  cases hname : nameAt (some c) t with
  | none => rfl
  | some name =>
    have hfree := (nameAt_eq_some_iff.1 hname).2 c rfl
    rw [hc] at hfree
    cases hfree.1

theorem namesFrom_word {run : Text} (hc : isWord c = true) (hrun : ∀ d ∈ run, isWord d = true)
    (t : Text) :
    namesFrom (some c) (run ++ t) = namesFrom (run.getLast?.or (some c)) t := by
  induction run generalizing c with
  | nil => rfl
  | cons d run ih =>
    obtain ⟨hd, hrun⟩ := List.forall_mem_cons.1 hrun
    rw [List.cons_append, namesFrom, nameAt_behind_word hc, ih hd hrun, getLast?_cons_or]
    rfl

theorem namesFrom_signs {w : Text} (hw : ∀ c ∈ w, isNameStart c = false) (previous : Option Char)
    (t : Text) :
    namesFrom previous (w ++ t) = namesFrom (w.getLast?.or previous) t := by
  induction w generalizing previous with
  | nil => rfl
  | cons c w ih =>
    obtain ⟨hc, hw⟩ := List.forall_mem_cons.1 hw
    rw [List.cons_append, namesFrom, nameAt, hc, Bool.false_and, if_neg Bool.false_ne_true, ih hw,
      getLast?_cons_or]
    rfl

theorem namesFrom_call {first : Char} {run mark' gap : Text} (hfirst : isNameStart first = true)
    (hrun : ∀ c ∈ run, isWord c = true) (hmark : mark' = [] ∨ mark' = ['?'] ∨ mark' = ['!'])
    (hgap : ∀ c ∈ gap, isBlank c = true) (after : Text) :
    namesFrom (some first) (run ++ (mark' ++ gap ++ ['(']) ++ after) =
      namesFrom ((run ++ (mark' ++ gap ++ ['('])).getLast?.or (some first)) after := by
  have hword : isWord first = true := isWord_of_isNameStart hfirst
  have hsigns : ∀ c ∈ mark' ++ gap ++ ['('], isNameStart c = false := by
    simp only [List.forall_mem_append]
    refine ⟨⟨?_, fun c hc => isNameStart_eq_false (isWord_eq_false_of_isBlank (hgap c hc))⟩, ?_⟩
    · rcases hmark with rfl | rfl | rfl
      · exact List.forall_mem_nil _
      · exact List.forall_mem_singleton.2 rfl
      · exact List.forall_mem_singleton.2 rfl
    · exact List.forall_mem_singleton.2 rfl
  rw [List.append_assoc, namesFrom_word hword hrun, namesFrom_signs hsigns, ← Option.or_assoc,
    ← List.getLast?_append]

theorem scanFrom_of_no_call (hname : nameAt previous (c :: t) = none) :
    callPattern.scanFrom (·.all separates) 0 previous (c :: t) =
      .inl c :: callPattern.scanFrom (·.all separates) 0 (some c) t := by
  have hmatch :
      (if previous.all separates then callPattern.matchAt? previous (c :: t) else none) = none := by
    split
    · next hfree =>
      apply matchAt?_eq_none
      intro name hcall
      rw [nameAt_eq_some_iff.2 ⟨hcall, all_separates_iff.1 hfree⟩] at hname
      cases hname
    · rfl
  rw [scanFrom, hmatch]

theorem scanFrom_of_call (hname : nameAt previous (c :: t) = some name) :
    ∃ (s : Place) (w after : Text), t = w ++ after ∧ s.captures.lookup "name".toList = some name ∧
      callPattern.scanFrom (·.all separates) 0 previous (c :: t) =
        .inr s :: callPattern.scanFrom (·.all separates) 0 (w.getLast?.or (some c)) after ∧
      namesFrom (some c) t = namesFrom (w.getLast?.or (some c)) after := by
  obtain ⟨hcall, hprevious⟩ := nameAt_eq_some_iff.1 hname
  clear hname
  generalize hwhole : c :: t = whole at hcall
  cases hcall with
  | @intro first run mark' gap after hfirst hrun hend hmark hgap =>
    have hmatch := matchAt?_of_startsCall hfirst hrun hend hmark hgap after previous
    have hparts : first :: run ++ (mark' ++ gap ++ '(' :: after) =
        first :: (run ++ (mark' ++ gap ++ ['('])) ++ after := by
      simp only [List.cons_append, List.append_assoc, List.nil_append]
    rw [hparts] at hwhole hmatch ⊢
    rw [List.cons_append] at hwhole
    obtain ⟨rfl, rfl⟩ := List.cons.inj hwhole
    exact ⟨_, _, after, rfl, lookup_behindCall ..,
      scanFrom_match (all_separates_iff.2 hprevious) hmatch (offset_behindCall ..),
      namesFrom_call hfirst hrun hmark hgap after⟩

/-- The calls of a text are the matches of the pattern where neither a word character nor a dollar
sign stands before. -/
theorem capturesOf_callPattern (t : Text) :
    callPattern.capturesOf (·.all separates) "name".toList t = namesFrom none t := by
  have hscan : ∀ previous, (callPattern.scanFrom (·.all separates) 0 previous t).filterMap
      (Sum.elim (fun _ => none) fun s => s.captures.lookup "name".toList) =
        namesFrom previous t := by
    induction hn : t.length using Nat.strongRecOn generalizing t with
    | ind n ih =>
      intro previous
      cases t with
      | nil => rfl
      | cons c t =>
        rw [namesFrom]
        cases hname : nameAt previous (c :: t) with
        | none =>
          rw [scanFrom_of_no_call hname]
          exact ih t.length (hn ▸ Nat.lt_succ_self _) t rfl (some c)
        | some name =>
          obtain ⟨s, w, after, rfl, hcapture, hscan, hnames⟩ := scanFrom_of_call hname
          have hshorter : after.length < n := by
            rw [← hn, List.length_cons, List.length_append]
            omega
          rw [hscan, hnames, List.filterMap_cons, Sum.elim_inr, hcapture, ih _ hshorter after rfl]
          rfl
  exact hscan none

end Call

/-- The calls of a line are the names of the sites of the emptied line, from left to right, keywords
left out. The line is emptied and the calls are found as by searching from left to right for the
patterns of a literal and of a call. -/
theorem find_lists_call_sites (line : Text) :
    ∃ blanked, (∀ b, Blanked line b ↔ b = blanked) ∧
      (∃ sites : List (Nat × Text), sites.Pairwise (fun s s' => s.1 < s'.1) ∧
        (∀ i name, (i, name) ∈ sites ↔ SiteAt blanked i name ∧ name ∉ keywords.map String.toList) ∧
        find line = sites.map Prod.snd) ∧
      ∃ literal call,
        read "\\\"(?:\\\\.|[^\\\"\\\\])*\\\"|'(?:\\\\.|[^'\\\\])*'|`(?:\\\\.|[^`\\\\])*`".toList =
          .ok literal ∧
        read "(?P<name>[A-Za-z_]\\w*[?!]?)\\s*\\(".toList = .ok call ∧
        literal.replace "\"\"".toList line = blanked ∧
        find line = (call.capturesOf (·.all separates) "name".toList blanked).filter
          fun n => n ∉ keywords.map String.toList := by
  refine ⟨blankLiterals line, fun b => ?_, ⟨(sitesFrom 0 none (blankLiterals line)).filter fun s =>
    s.2 ∉ keywords.map String.toList, ?_, ?_, ?_⟩, literalPattern, callPattern, read_literalPattern,
    read_callPattern, replace_literalPattern line, ?_⟩
  · rw [← blankLiterals_eq_iff, eq_comm]
  · exact (pairwise_sitesFrom ..).filter _
  · intro i name
    rw [List.mem_filter, mem_sitesFrom_iff_siteAt, decide_eq_true_iff]
  · rw [find_eq, ← map_snd_sitesFrom 0, List.filter_map]
    rfl
  · rw [find_eq, capturesOf_callPattern]

end DependencyAtlas.CallSite
