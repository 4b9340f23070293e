import DependencyAtlas.Export.Json
import DependencyAtlas.Proofs.Export.JsonReader

namespace DependencyAtlas

namespace JsonDocument

section Texts

theorem hexValue?_digitChar : ∀ d < 16, hexValue? (Nat.digitChar d) = some d := by
  decide

theorem hexNumber?_hexDigits {n : Nat} (h : n < 0x10000) :
    hexNumber? (Text.hexDigits 4 n) = some n := by
  have hdigit (m : Nat) : hexValue? (Nat.digitChar (m % 16)) = some (m % 16) :=
    hexValue?_digitChar _ (Nat.mod_lt m (by decide))
  simp only [Text.hexDigits, hexNumber?, List.nil_append, List.cons_append, List.foldlM_cons,
    List.foldlM_nil, hdigit, Option.map_some, Option.bind_eq_bind, Option.bind_some,
    Option.pure_def, Option.some.injEq]
  omega

theorem readUnits_unitEscape {n : Nat} (h : n < 0x10000) (t : Text) :
    readUnits (JsonValue.unitEscape n ++ t) = (readUnits t).map fun r => (n :: r.1, r.2) := by
  have hvalue := hexNumber?_hexDigits h
  simp only [Text.hexDigits, List.nil_append, List.cons_append] at hvalue
  simp only [JsonValue.unitEscape, Text.hexDigits, List.nil_append, List.cons_append,
    readUnits, hvalue, Option.bind_some]
  rfl

theorem readUnits_short {e c : Char} (h : shortEscape? e = some c) (t : Text) :
    readUnits ('\\' :: e :: t) = (readUnits t).map fun r => (unitsOf c ++ r.1, r.2) := by
  have hne : e ≠ 'u' := by
    intro he
    subst he
    cases h
  rw [readUnits.eq_def]
  simp only [if_neg (show '\\' ≠ '"' by decide), if_pos]
  split
  · next heq => cases heq
  · next heq => exact absurd (List.cons.inj heq).1 hne
  · next heq =>
    cases heq
    rw [h, Option.bind_some]

theorem readUnits_escape (c : Char) (t : Text) :
    readUnits (JsonValue.escape c ++ t) = (readUnits t).map fun r => (unitsOf c ++ r.1, r.2) := by
  rw [JsonValue.escape]
  split
  · next h =>
    rcases h with h | h
    · exact readUnits_short (by rw [h]; rfl) t
    · exact readUnits_short (by rw [h]; rfl) t
  split
  · next h => exact readUnits_short (by rw [h]; rfl) t
  split
  · next h => exact readUnits_short (by rw [h]; rfl) t
  split
  · next h => exact readUnits_short (by rw [h]; rfl) t
  split
  · next h => exact readUnits_short (by rw [h]; rfl) t
  split
  · next h => exact readUnits_short (by rw [h]; rfl) t
  split
  · next hplain _ _ _ _ _ hprintable =>
    obtain ⟨hquote, hbackslash⟩ := not_or.1 hplain
    rw [List.singleton_append, readUnits.eq_def]
    simp only [if_neg hquote, if_neg hbackslash, if_neg (Nat.not_lt.2 hprintable.1)]
  split
  · next hunit =>
    rw [readUnits_unitEscape hunit, unitsOf, if_pos hunit]
    rfl
  · next hunit =>
    have hvalid : c.toNat < 0xD800 ∨ 0xDFFF < c.toNat ∧ c.toNat < 0x110000 := c.valid
    rw [List.append_assoc, readUnits_unitEscape (by omega), readUnits_unitEscape (by omega),
      unitsOf, if_neg hunit, Option.map_map]
    rfl

theorem joinUnits_unitsOf (c : Char) (us : List Nat) :
    joinUnits (unitsOf c ++ us) = (joinUnits us).map (c :: ·) := by
  have hvalid : c.toNat < 0xD800 ∨ 0xDFFF < c.toNat ∧ c.toNat < 0x110000 := c.valid
  rw [unitsOf]
  split
  · have hplain : c.toNat < 0xD800 ∨ 0xDFFF < c.toNat := by omega
    cases us with
    | nil =>
      simp only [List.append_nil, joinUnits, if_pos hplain, Char.ofNat_toNat, Option.map_some]
    | cons v us => simp only [List.singleton_append, joinUnits, if_pos hplain, Char.ofNat_toNat]
  · have hjoined : 0x10000 + (0xD800 + (c.toNat - 0x10000) / 0x400 - 0xD800) * 0x400
        + (0xDC00 + (c.toNat - 0x10000) % 0x400 - 0xDC00) = c.toNat := by omega
    rw [List.cons_append, List.cons_append, List.nil_append, joinUnits, if_neg (by omega),
      if_pos (by omega), hjoined, Char.ofNat_toNat]

theorem readUnits_flatMap_escape (t rest : Text) :
    readUnits (t.flatMap JsonValue.escape ++ '"' :: rest) = some (t.flatMap unitsOf, rest) := by
  induction t with
  | nil => rw [List.flatMap_nil, List.nil_append, readUnits.eq_def, List.flatMap_nil]; rfl
  | cons c t ih =>
    rw [List.flatMap_cons, List.append_assoc, readUnits_escape, ih, List.flatMap_cons,
      Option.map_some]

theorem joinUnits_flatMap_unitsOf (t : Text) : joinUnits (t.flatMap unitsOf) = some t := by
  induction t with
  | nil => rfl
  | cons c t ih => rw [List.flatMap_cons, joinUnits_unitsOf, ih, Option.map_some]

theorem readText_quote (t rest : Text) :
    ∃ u, JsonValue.quote t ++ rest = '"' :: u ∧ readText u = some (t, rest) := by
  refine ⟨t.flatMap JsonValue.escape ++ '"' :: rest, by simp [JsonValue.quote], ?_⟩
  rw [readText, readUnits_flatMap_escape, Option.bind_some, joinUnits_flatMap_unitsOf,
    Option.map_some]

end Texts

section Numbers

/-- The text does not go on with a number that ends before it. -/
def EndsNumber (t : Text) : Prop :=
  ∀ c ∈ t.head?, c.isDigit = false ∧ c ≠ '.' ∧ c ≠ 'e' ∧ c ≠ 'E'

theorem digitChar_ne_zero : ∀ n < 10, 0 < n → Nat.digitChar n ≠ '0' := by
  decide

theorem ofNat_eq_cons (n : Nat) :
    ∃ c t, Text.ofNat n = c :: t ∧ c.isDigit = true ∧ (0 < n → c ≠ '0') := by
  rw [Text.ofNat]
  induction n using Nat.strongRecOn with
  | ind n ih =>
    by_cases hn : n < 10
    · exact ⟨Nat.digitChar n, [], Nat.toDigits_of_lt_base hn,
        by simpa [Nat.isDigit_digitChar] using hn, digitChar_ne_zero n hn⟩
    · have hsplit :=
        Nat.toDigits_append_toDigits (b := 10) (n := n / 10) (d := n % 10) (by decide) (by omega)
        (by omega)
      obtain ⟨c, t, ht, hdigit, hzero⟩ := ih (n / 10) (by omega)
      rw [Nat.div_add_mod, ht] at hsplit
      exact ⟨c, _, hsplit.symm, hdigit, fun _ => hzero (by omega)⟩

theorem readWhole_ofNat (n : Nat) {rest : Text} (h : EndsNumber rest) :
    readWhole (Text.ofNat n ++ rest) = some (Text.ofNat n, rest) := by
  have hdigits : ∀ c ∈ Text.ofNat n, c.isDigit = true := fun c hc =>
    Nat.isDigit_of_mem_toDigits (by decide) (by decide) hc
  have hrest : rest.takeWhile Char.isDigit = [] ∧ rest.dropWhile Char.isDigit = rest := by
    cases rest with
    | nil => exact ⟨rfl, rfl⟩
    | cons c rest =>
      obtain ⟨hc, -⟩ := h c rfl
      simp [List.takeWhile, List.dropWhile, hc]
  have hwhole : ¬((Text.ofNat n).head? = some '0' ∧ Text.ofNat n ≠ ['0']) := by
    intro ⟨hhead, hne⟩
    obtain ⟨c, t, ht, -, hzero⟩ := ofNat_eq_cons n
    rw [ht] at hhead
    cases n with
    | zero => exact hne rfl
    | succ n => exact hzero (Nat.succ_pos n) (Option.some.inj hhead)
  rw [readWhole, readDigits, List.takeWhile_append_of_pos hdigits,
    List.dropWhile_append_of_pos hdigits, hrest.1, hrest.2, List.append_nil]
  simp only [if_neg (show Text.ofNat n ≠ [] from Nat.toDigits_ne_nil), Option.bind_some,
    if_neg hwhole]

theorem readDecimals_of_endsNumber {rest : Text} (h : EndsNumber rest) :
    readDecimals rest = some (none, rest) := by
  cases rest with
  | nil => rfl
  | cons c rest =>
    obtain ⟨-, hpoint, -⟩ := h c rfl
    rw [readDecimals, if_neg hpoint]

theorem readExponent_of_endsNumber {rest : Text} (h : EndsNumber rest) :
    readExponent rest = some (none, rest) := by
  cases rest with
  | nil => rfl
  | cons c rest =>
    obtain ⟨-, -, hlower, hupper⟩ := h c rfl
    rw [readExponent.eq_def]
    simp only [if_neg (not_or.2 ⟨hlower, hupper⟩)]

theorem readUnsigned_ofNat (sign : Int) (n : Nat) {rest : Text} (h : EndsNumber rest) :
    readUnsigned sign (Text.ofNat n ++ rest) = some (.integer (sign * n), rest) := by
  have hvalue : digitsValue (Text.ofNat n) = n :=
    congrArg Int.ofNat (Nat.ofDigitChars_toDigits (by decide) (by decide))
  simp only [readUnsigned, readWhole_ofNat n h, readDecimals_of_endsNumber h,
    readExponent_of_endsNumber h, Option.bind_some, Option.map_some, and_self, if_true, hvalue]

theorem readNumber_ofInt (i : Int) {rest : Text} (h : EndsNumber rest) :
    readNumber (Text.ofInt i ++ rest) = some (.integer i, rest) := by
  rw [Text.ofInt]
  split
  · next hneg =>
    rw [List.cons_append, readNumber, if_pos rfl, readUnsigned_ofNat _ _ h]
    congr
    omega
  · next hneg =>
    obtain ⟨c, t, ht, hdigit, -⟩ := ofNat_eq_cons i.natAbs
    have hc : c ≠ '-' := by
      intro hc
      subst hc
      cases hdigit
    have hread := readUnsigned_ofNat 1 i.natAbs h
    rw [ht, List.cons_append] at hread
    rw [ht, List.cons_append, readNumber, if_neg hc, hread]
    congr
    omega

end Numbers

end JsonDocument

namespace JsonValue

open JsonDocument

mutual

/-- The document that the text of a value stands for. -/
def document : JsonValue → JsonDocument
  | .text t => .text t
  | .number n => .integer n
  | .array items => .array (documents items)
  | .object fields => .object (fieldDocuments fields)

def documents : List JsonValue → List JsonDocument
  | [] => []
  | v :: vs => document v :: documents vs

def fieldDocuments : List (Text × JsonValue) → List (Text × JsonDocument)
  | [] => []
  | (name, v) :: fields => (name, document v) :: fieldDocuments fields

end

theorem skip_newline (level : Nat) (t : Text) : skip (newline level ++ t) = skip t := by
  have hspaces : ∀ c ∈ newline level, isSpace c = true := by
    intro c hc
    rcases List.mem_cons.1 hc with rfl | hc
    · rfl
    · rw [List.eq_of_mem_replicate hc]
      rfl
  exact List.dropWhile_append_of_pos hspaces

theorem skip_cons {c : Char} (h : isSpace c = false) (t : Text) : skip (c :: t) = c :: t := by
  rw [skip, List.dropWhile_cons_of_neg (by simp [h])]

/-- A value starts with a character that is no blank and closes nothing. -/
theorem render_eq_cons (level : Nat) (v : JsonValue) :
    ∃ c t, render level v = c :: t ∧ isSpace c = false ∧ c ≠ ']' := by
  cases v with
  | text t => exact ⟨_, _, rfl, rfl, by decide⟩
  | number n =>
    rw [render, Text.ofInt]
    split
    · exact ⟨_, _, rfl, rfl, by decide⟩
    · obtain ⟨c, t, ht, hdigit, -⟩ := ofNat_eq_cons n.natAbs
      have hne (d : Char) (hd : d.isDigit = false) : c ≠ d := by
        intro hc
        rw [hc, hd] at hdigit
        cases hdigit
      refine ⟨c, t, ht, ?_, hne ']' rfl⟩
      simp [isSpace, hne ' ' rfl, hne '\n' rfl, hne '\r' rfl, hne '\t' rfl]
  | array items =>
    cases items with
    | nil => exact ⟨_, _, rfl, rfl, by decide⟩
    | cons v vs => exact ⟨_, _, rfl, rfl, by decide⟩
  | object fields =>
    cases fields with
    | nil => exact ⟨_, _, rfl, rfl, by decide⟩
    | cons field fields => exact ⟨_, _, rfl, rfl, by decide⟩

theorem readValue_newline (n level : Nat) (t : Text) :
    readValue n (newline level ++ t) = readValue n t := by
  cases n with
  | zero => rfl
  | succ n => rw [readValue, readValue, skip_newline]

theorem readName_quote (name t : Text) :
    readName (quote name ++ ": ".toList ++ t) = some (name, ' ' :: t) := by
  obtain ⟨u, hu, hread⟩ := readText_quote name (": ".toList ++ t)
  rw [List.append_assoc, hu, readName, skip_cons rfl]
  simp only [hread, Option.bind_some]
  rfl

theorem readName_newline (level : Nat) (t : Text) : readName (newline level ++ t) = readName t := by
  rw [readName, readName, skip_newline]

theorem readValue_space (n : Nat) (t : Text) : readValue n (' ' :: t) = readValue n t := by
  cases n with
  | zero => rfl
  | succ n => rw [readValue, readValue]; rfl

theorem readValue_quote (n : Nat) (t rest : Text) :
    readValue (n + 1) (quote t ++ rest) = some (.text t, rest) := by
  obtain ⟨u, hu, hread⟩ := readText_quote t rest
  rw [hu, readValue, skip_cons rfl]
  simp only [if_true, hread, Option.map_some]

theorem readWord_eq_none {c : Char} (hn : c ≠ 'n') (ht : c ≠ 't') (hf : c ≠ 'f') (t : Text) :
    readWord (c :: t) = none := by
  simp [readWord, words, Ne.symm hn, Ne.symm ht, Ne.symm hf]

theorem readValue_ofInt (n : Nat) (i : Int) {rest : Text} (h : EndsNumber rest) :
    readValue (n + 1) (Text.ofInt i ++ rest) = some (.integer i, rest) := by
  have hread := readNumber_ofInt i h
  have hhead : ∃ c t, Text.ofInt i ++ rest = c :: t ∧ (c = '-' ∨ c.isDigit = true) := by
    rw [Text.ofInt]
    split
    · exact ⟨_, _, rfl, .inl rfl⟩
    · obtain ⟨c, t, ht, hdigit, -⟩ := ofNat_eq_cons i.natAbs
      exact ⟨c, t ++ rest, by rw [ht, List.cons_append], .inr hdigit⟩
  obtain ⟨c, t, ht, hc⟩ := hhead
  have hne (d : Char) (hminus : '-' ≠ d) (hdigit : d.isDigit = false) : c ≠ d := by
    rcases hc with rfl | hc
    · exact hminus
    · intro hcd
      rw [hcd, hdigit] at hc
      cases hc
  have hspace : isSpace c = false := by
    simp [isSpace, hne ' ' (by decide) rfl, hne '\n' (by decide) rfl, hne '\r' (by decide) rfl,
      hne '\t' (by decide) rfl]
  rw [ht] at hread ⊢
  rw [readValue, skip_cons hspace]
  simp only [if_neg (hne '"' (by decide) rfl), if_neg (hne '[' (by decide) rfl),
    if_neg (hne '\x7b' (by decide) rfl), readWord_eq_none (hne 'n' (by decide) rfl)
      (hne 't' (by decide) rfl) (hne 'f' (by decide) rfl), hread]
  rfl

theorem endsNumber_renderItems (level m : Nat) (vs : List JsonValue) (t : Text) :
    EndsNumber (renderItems level vs ++ newline m ++ t) := by
  intro c hc
  cases vs with
  | nil =>
    cases hc
    decide
  | cons v vs =>
    cases hc
    decide

theorem endsNumber_renderFields (level m : Nat) (fields : List (Text × JsonValue)) (t : Text) :
    EndsNumber (renderFields level fields ++ newline m ++ t) := by
  intro c hc
  cases fields with
  | nil =>
    cases hc
    decide
  | cons field fields =>
    cases hc
    decide

mutual

theorem readValue_render (level : Nat) :
    (v : JsonValue) → (n : Nat) → (rest : Text) → (render level v).length ≤ n →
    EndsNumber rest → readValue (n + 1) (render level v ++ rest) = some (v.document, rest)
  | .text t, n, rest, _, _ => by rw [render, readValue_quote, document]
  | .number i, n, rest, _, hrest => by rw [render, readValue_ofInt n i hrest, document]
  | .array [], n, rest, _, _ => by
    rw [render, readValue]
    rfl
  | .array (v :: vs), n, rest, hn, _ => by
    simp only [render, List.length_append, List.length_cons, List.length_nil] at hn
    obtain ⟨n, rfl⟩ : ∃ m, n = m + 1 := ⟨n - 1, by omega⟩
    obtain ⟨c, t, ht, hspace, hclose⟩ := render_eq_cons (level + 1) v
    have hv := readValue_render (level + 1) v n _ (by omega)
      (endsNumber_renderItems (level + 1) level vs (']' :: rest))
    have hvs := readItems_render (level + 1) vs n level rest (by omega)
    simp only [render, List.append_assoc, List.cons_append, List.nil_append] at hv hvs ⊢
    rw [readValue, skip_cons rfl]
    simp only [if_neg (show '[' ≠ '"' by decide), if_true, skip_newline]
    rw [ht, List.cons_append] at hv ⊢
    rw [skip_cons hspace]
    split
    · next heq => exact absurd (List.cons.inj heq).1 hclose
    · rw [hv, Option.bind_some, hvs, Option.map_some, document, documents]
  | .object [], n, rest, _, _ => by
    rw [render, readValue]
    rfl
  | .object ((name, v) :: fields), n, rest, hn, _ => by
    simp only [render, List.length_append, List.length_cons, List.length_nil] at hn
    obtain ⟨n, rfl⟩ : ∃ m, n = m + 1 := ⟨n - 1, by omega⟩
    have hv := readValue_render (level + 1) v n _ (by omega)
      (endsNumber_renderFields (level + 1) level fields ('\x7d' :: rest))
    have hfields := readFields_render (level + 1) fields n level rest (by omega)
    have hname := readName_quote name
      (render (level + 1) v ++ (renderFields (level + 1) fields ++ newline level ++ '\x7d' :: rest))
    simp only [render, List.append_assoc, List.cons_append, List.nil_append] at hv hfields hname ⊢
    rw [readValue, skip_cons rfl]
    simp only [if_neg (show '\x7b' ≠ '"' by decide), if_neg (show '\x7b' ≠ '[' by decide), if_true,
      skip_newline]
    obtain ⟨u, hu, -⟩ := readText_quote name
      (": ".toList ++ (render (level + 1) v ++
        (renderFields (level + 1) fields ++ (newline level ++ '\x7d' :: rest))))
    rw [hu] at hname ⊢
    rw [skip_cons rfl]
    split
    · next heq => cases heq
    · simp only [hname, Option.bind_some, readValue_space, hv, hfields, Option.map_some, document,
        fieldDocuments]

theorem readItems_render (level : Nat) : (vs : List JsonValue) → (n m : Nat) → (rest : Text) →
    (renderItems level vs).length ≤ n →
    readItems (n + 1) (renderItems level vs ++ newline m ++ ']' :: rest) = some (documents vs, rest)
  | [], n, m, rest, _ => by
    rw [renderItems, List.nil_append, readItems, skip_newline, skip_cons rfl, documents]
    rfl
  | v :: vs, n, m, rest, hn => by
    simp only [renderItems, List.length_append, List.length_cons, List.length_nil] at hn
    obtain ⟨n, rfl⟩ : ∃ m, n = m + 1 := ⟨n - 1, by omega⟩
    have hv := readValue_render level v n _ (by omega)
      (endsNumber_renderItems level m vs (']' :: rest))
    have hvs := readItems_render level vs n m rest (by omega)
    simp only [renderItems, List.append_assoc, List.cons_append, List.nil_append] at hv hvs ⊢
    rw [readItems, skip_cons rfl]
    simp only [readValue_newline, hv, Option.bind_some, hvs, Option.map_some, documents]

theorem readFields_render (level : Nat) :
    (fields : List (Text × JsonValue)) → (n m : Nat) → (rest : Text) →
    (renderFields level fields).length ≤ n →
    readFields (n + 1) (renderFields level fields ++ newline m ++ '\x7d' :: rest) =
      some (fieldDocuments fields, rest)
  | [], n, m, rest, _ => by
    rw [renderFields, List.nil_append, readFields, skip_newline, skip_cons rfl, fieldDocuments]
    rfl
  | (name, v) :: fields, n, m, rest, hn => by
    simp only [renderFields, List.length_append, List.length_cons, List.length_nil] at hn
    obtain ⟨n, rfl⟩ : ∃ m, n = m + 1 := ⟨n - 1, by omega⟩
    have hname :=
      readName_quote name (render level v ++ (renderFields level fields ++ newline m ++
        '\x7d' :: rest))
    have hv := readValue_render level v n _ (by omega)
      (endsNumber_renderFields level m fields ('\x7d' :: rest))
    have hfields := readFields_render level fields n m rest (by omega)
    simp only [renderFields, List.append_assoc, List.cons_append,
      List.nil_append] at hname hv hfields ⊢
    rw [readFields, skip_cons rfl]
    simp only [readName_newline, hname, Option.bind_some, readValue_space, hv, hfields,
      Option.map_some, fieldDocuments]

end

end JsonValue

namespace Text

/-- All characters of the text are in ASCII. -/
def IsAscii (t : Text) : Prop :=
  ∀ c ∈ t, c.toNat < 0x80

instance (t : Text) : Decidable (IsAscii t) :=
  List.decidableBAll (fun c : Char => c.toNat < 0x80) t

theorem isAscii_append {s t : Text} : IsAscii (s ++ t) ↔ IsAscii s ∧ IsAscii t :=
  List.forall_mem_append

theorem isAscii_cons {c : Char} {t : Text} : IsAscii (c :: t) ↔ c.toNat < 0x80 ∧ IsAscii t :=
  List.forall_mem_cons

theorem isAscii_nil : IsAscii [] :=
  fun _ hc => nomatch hc

theorem toNat_digitChar_lt : ∀ d < 16, (Nat.digitChar d).toNat < 0x80 := by
  decide

theorem isAscii_hexDigits (width n : Nat) : IsAscii (hexDigits width n) := by
  induction width generalizing n with
  | zero => exact isAscii_nil
  | succ width ih =>
    apply isAscii_append.2
    exact ⟨ih (n / 16), isAscii_cons.2 ⟨toNat_digitChar_lt _ (Nat.mod_lt n (by decide)),
      isAscii_nil⟩⟩

theorem isAscii_ofNat (n : Nat) : IsAscii (ofNat n) := by
  intro c hc
  have hdigit := Nat.isDigit_of_mem_toDigits (by decide) (by decide) hc
  simp only [Char.isDigit, Bool.and_eq_true, decide_eq_true_eq] at hdigit
  exact Nat.lt_of_le_of_lt (UInt32.le_iff_toNat_le.1 hdigit.2) (by decide)

theorem isAscii_ofInt (i : Int) : IsAscii (ofInt i) := by
  rw [ofInt]
  split
  · exact isAscii_cons.2 ⟨by decide, isAscii_ofNat _⟩
  · exact isAscii_ofNat _

end Text

namespace JsonValue

open Text JsonDocument

theorem isAscii_unitEscape (n : Nat) : IsAscii (unitEscape n) :=
  isAscii_append (s := ['\\', 'u']).2 ⟨by decide, isAscii_hexDigits 4 n⟩

theorem isAscii_escape (c : Char) : IsAscii (escape c) := by
  rw [escape]
  split
  · next h =>
    rcases h with rfl | rfl
    · decide
    · decide
  split
  · decide
  split
  · decide
  split
  · decide
  split
  · decide
  split
  · decide
  split
  · next hprintable => exact isAscii_cons.2 ⟨Nat.lt_trans hprintable.2 (by decide), isAscii_nil⟩
  split
  · exact isAscii_unitEscape _
  · exact isAscii_append.2 ⟨isAscii_unitEscape _, isAscii_unitEscape _⟩

theorem isAscii_quote (t : Text) : IsAscii (quote t) := by
  have hbody : IsAscii (t.flatMap escape) := by
    induction t with
    | nil => exact isAscii_nil
    | cons c t ih =>
      rw [List.flatMap_cons]
      exact isAscii_append.2 ⟨isAscii_escape c, ih⟩
  exact isAscii_cons.2 ⟨by decide, isAscii_append.2 ⟨hbody, by decide⟩⟩

theorem isAscii_newline (level : Nat) : IsAscii (newline level) := by
  intro c hc
  rcases List.mem_cons.1 hc with rfl | hc
  · decide
  · rw [List.eq_of_mem_replicate hc]
    decide

mutual

theorem isAscii_render (level : Nat) : (v : JsonValue) → IsAscii (render level v)
  | .text t => isAscii_quote t
  | .number i => isAscii_ofInt i
  | .array [] => by
    rw [render]
    decide
  | .array (v :: vs) => by
    simp only [render, isAscii_append]
    exact ⟨⟨⟨⟨⟨by decide, isAscii_newline _⟩, isAscii_render _ v⟩, isAscii_renderItems _ vs⟩,
      isAscii_newline _⟩, by decide⟩
  | .object [] => by
    rw [render]
    decide
  | .object ((name, v) :: fields) => by
    simp only [render, isAscii_append]
    exact
      ⟨⟨⟨⟨⟨⟨⟨by decide, isAscii_newline _⟩, isAscii_quote name⟩, by decide⟩, isAscii_render _ v⟩,
      isAscii_renderFields _ fields⟩, isAscii_newline _⟩, by decide⟩

theorem isAscii_renderItems (level : Nat) : (vs : List JsonValue) → IsAscii (renderItems level vs)
  | [] => isAscii_nil
  | v :: vs => by
    simp only [renderItems, isAscii_append]
    exact ⟨⟨⟨by decide, isAscii_newline _⟩, isAscii_render _ v⟩, isAscii_renderItems _ vs⟩

theorem isAscii_renderFields (level : Nat) :
    (fields : List (Text × JsonValue)) → IsAscii (renderFields level fields)
  | [] => isAscii_nil
  | (name, v) :: fields => by
    simp only [renderFields, isAscii_append]
    exact ⟨⟨⟨⟨⟨by decide, isAscii_newline _⟩, isAscii_quote name⟩, by decide⟩, isAscii_render _ v⟩,
      isAscii_renderFields _ fields⟩

end

theorem document_payload (rs : List Relationship) :
    (Export.payload rs).document = .object [("relationships".toList, .array (rs.map fun r => .object
      [("from".toList, .text r.source), ("to".toList, .text r.target),
        ("type".toList, .text r.verb.word.toList),
        ("layer".toList, .integer r.layer.number)]))] := by
  have hitems : documents (rs.map Relationship.toJson) = rs.map fun r => .object
      [("from".toList, .text r.source), ("to".toList, .text r.target),
        ("type".toList, .text r.verb.word.toList), ("layer".toList, .integer r.layer.number)] := by
    induction rs with
    | nil => rfl
    | cons r rs ih =>
      rw [List.map_cons, documents, ih]
      rfl
  simp only [Export.payload, document, fieldDocuments, hitems]

theorem ofText?_render (v : JsonValue) : ofText? (v.render 0 ++ ['\n']) = some v.document := by
  have hends : EndsNumber ['\n'] := by
    intro c hc
    cases hc
    decide
  rw [ofText?, readValue_render 0 v _ _ (by simp) hends]
  rfl

end JsonValue

/-- The export of relationships is in ASCII and ends in one line feed, and what is read from it is
one object with one field, the list of the relationships in order with their own texts and
numbers. -/
theorem Export.json_reads_back (rs : List Relationship) :
    Text.IsAscii (json rs) ∧ (∃ t, json rs = t ++ ['\n'] ∧ t.getLast? ≠ some '\n') ∧
      JsonDocument.ofText? (json rs) =
        some (.object [("relationships".toList, .array (rs.map fun r => .object
        [("from".toList, .text r.source), ("to".toList, .text r.target),
          ("type".toList, .text r.verb.word.toList),
          ("layer".toList, .integer r.layer.number)]))]) := by
  refine ⟨?_, ⟨(payload rs).render 0, rfl, ?_⟩, ?_⟩
  · exact Text.isAscii_append.2 ⟨JsonValue.isAscii_render 0 _, by decide⟩
  · have hlast : ((payload rs).render 0).getLast? = some '\x7d' := by
      rw [payload, JsonValue.render, List.getLast?_append]
      rfl
    rw [hlast]
    decide
  · rw [json, JsonValue.ofText?_render, JsonValue.document_payload]

end DependencyAtlas
