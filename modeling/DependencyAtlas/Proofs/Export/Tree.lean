import DependencyAtlas.Export.Tree
import Mathlib.Data.List.Basic

namespace DependencyAtlas

/-- Labelled trees side by side: a label with the forest inside it, and the forest after it. -/
inductive LabelForest where
  | nil
  | cons (label : Text) (inside after : LabelForest)
  deriving DecidableEq

namespace LabelForest

def leaves : List Text → LabelForest
  | [] => nil
  | t :: ts => cons t nil (leaves ts)

/-- A heading with items inside it, in front of a forest; without items there is no heading. -/
def listed (heading : String) (items : List Text) (after : LabelForest) : LabelForest :=
  if items = [] then after else cons heading.toList (leaves items) after

def isEmpty : LabelForest → Bool
  | nil => true
  | cons .. => false

def first? : LabelForest → Option Text
  | nil => none
  | cons label _ _ => some label

/-- The label at an address, which counts the earlier siblings of each label on the way from
outside. -/
def find? : LabelForest → List Nat → Option Text
  | nil, _ => none
  | cons .., [] => none
  | cons label _ _, [0] => some label
  | cons _ inside _, 0 :: i :: p => inside.find? (i :: p)
  | cons _ _ after, (i + 1) :: p => after.find? (i :: p)

def next : List Nat → List Nat
  | [] => []
  | [i] => [i + 1]
  | i :: j :: p => i :: next (j :: p)

/-- The addresses of what is around an address, from outside. -/
def ancestors : List Nat → List (List Nat)
  | [] => []
  | [_] => []
  | i :: j :: p => [i] :: (ancestors (j :: p)).map (i :: ·)

def hasLaterSibling (f : LabelForest) (p : List Nat) : Bool :=
  (f.find? (next p)).isSome

/-- What stands below the label at an address, in front of the labels inside it. -/
def columnAt (f : LabelForest) (p : List Nat) : Text :=
  if f.hasLaterSibling p then "│   ".toList else "    ".toList

/-- The line at an address: the columns of the ancestors, a sign and the label. -/
def lineAt (indent : Text) (f : LabelForest) (p : List Nat) : Text :=
  indent ++ (ancestors p).flatMap f.columnAt ++
    (if f.hasLaterSibling p then "├── ".toList else "└── ".toList) ++ (f.find? p).getD []

def shift : List Nat → List Nat
  | [] => []
  | i :: p => (i + 1) :: p

def addresses : LabelForest → List (List Nat)
  | nil => []
  | cons _ inside after => [0] :: (inside.addresses.map (0 :: ·) ++ after.addresses.map shift)

def draw (indent : Text) : LabelForest → List Text
  | nil => []
  | cons label inside after =>
    Export.item indent after.isEmpty label ::
      (inside.draw (indent ++ Export.column after.isEmpty) ++ after.draw indent)

section Addresses

theorem find?_nil (f : LabelForest) : f.find? [] = none := by
  cases f <;> rfl

theorem find?_shift (label : Text) (inside after : LabelForest) (p : List Nat) :
    (cons label inside after).find? (shift p) = after.find? p := by
  cases p with
  | nil => exact (find?_nil after).symm
  | cons i p => rfl

theorem find?_zero_cons (label : Text) (inside after : LabelForest) {p : List Nat} (h : p ≠ []) :
    (cons label inside after).find? (0 :: p) = inside.find? p := by
  cases p with
  | nil => exact absurd rfl h
  | cons i p => rfl

theorem ne_nil_of_mem_addresses {f : LabelForest} {p : List Nat} (h : p ∈ f.addresses) :
    p ≠ [] := by
  induction f generalizing p with
  | nil => cases h
  | cons label inside after ihInside ihAfter =>
    simp only [addresses, List.mem_cons, List.mem_append, List.mem_map] at h
    obtain rfl | ⟨q, -, rfl⟩ | ⟨q, hq, rfl⟩ := h
    · exact List.cons_ne_nil _ _
    · exact List.cons_ne_nil _ _
    · have hne := ihAfter hq
      cases q with
      | nil => exact absurd rfl hne
      | cons i q => exact List.cons_ne_nil _ _

theorem mem_addresses_of_find? {f : LabelForest} {p : List Nat} (h : (f.find? p).isSome = true) :
    p ∈ f.addresses := by
  fun_induction find? f p with
  | case1 => cases h
  | case2 => cases h
  | case3 => exact List.mem_cons_self
  | case4 label inside after i p ih =>
    exact List.mem_cons_of_mem _ (List.mem_append_left _ (List.mem_map_of_mem (ih h)))
  | case5 label inside after i p ih =>
    exact List.mem_cons_of_mem _ (List.mem_append_right _ (List.mem_map_of_mem (f := shift) (ih h)))

theorem find?_of_mem_addresses {f : LabelForest} {p : List Nat} (h : p ∈ f.addresses) :
    (f.find? p).isSome = true := by
  induction f generalizing p with
  | nil => cases h
  | cons label inside after ihInside ihAfter =>
    simp only [addresses, List.mem_cons, List.mem_append, List.mem_map] at h
    obtain rfl | ⟨q, hq, rfl⟩ | ⟨q, hq, rfl⟩ := h
    · rfl
    · rw [find?_zero_cons _ _ _ (ne_nil_of_mem_addresses hq)]
      exact ihInside hq
    · rw [find?_shift]
      exact ihAfter hq

theorem shift_lt_shift {p q : List Nat} (hp : p ≠ []) (hq : q ≠ []) :
    shift p < shift q ↔ p < q := by
  cases p with
  | nil => exact absurd rfl hp
  | cons i p =>
    cases q with
    | nil => exact absurd rfl hq
    | cons j q => simp [shift, List.cons_lt_cons_iff]

theorem pairwise_addresses (f : LabelForest) : f.addresses.Pairwise (· < ·) := by
  induction f with
  | nil => exact .nil
  | cons label inside after ihInside ihAfter =>
    have hshifted : ∀ p q, p ∈ after.addresses → 0 :: q < shift p := by
      intro p q hp
      cases p with
      | nil => exact absurd rfl (ne_nil_of_mem_addresses hp)
      | cons i p => simp [shift, List.cons_lt_cons_iff]
    apply List.pairwise_cons.2
    constructor
    · intro p hp
      obtain hp | hp := List.mem_append.1 hp
      · obtain ⟨q, hq, rfl⟩ := List.mem_map.1 hp
        cases q with
        | nil => exact absurd rfl (ne_nil_of_mem_addresses hq)
        | cons i q => simp
      · obtain ⟨q, hq, rfl⟩ := List.mem_map.1 hp
        exact hshifted q [] hq
    · apply List.pairwise_append.2
      refine ⟨?_, ?_, ?_⟩
      · apply List.pairwise_map.2
        exact ihInside.imp fun h => List.cons_lt_cons_iff.2 (.inr ⟨rfl, h⟩)
      · apply List.pairwise_map.2
        exact ihAfter.imp_of_mem fun hp hq h =>
          (shift_lt_shift (ne_nil_of_mem_addresses hp) (ne_nil_of_mem_addresses hq)).2 h
      · intro p hp q hq
        obtain ⟨p, -, rfl⟩ := List.mem_map.1 hp
        obtain ⟨q, hin, rfl⟩ := List.mem_map.1 hq
        exact hshifted q p hin

end Addresses

section Lines

theorem next_shift {p : List Nat} : next (shift p) = shift (next p) := by
  cases p with
  | nil => rfl
  | cons i p => cases p <;> rfl

theorem ancestors_shift (p : List Nat) : ancestors (shift p) = (ancestors p).map shift := by
  cases p with
  | nil => rfl
  | cons i p =>
    cases p with
    | nil => rfl
    | cons j p => simp [shift, ancestors]

theorem hasLaterSibling_shift (label : Text) (inside after : LabelForest) (p : List Nat) :
    (cons label inside after).hasLaterSibling (shift p) = after.hasLaterSibling p := by
  rw [hasLaterSibling, next_shift, find?_shift, hasLaterSibling]

theorem hasLaterSibling_inside (label : Text) (inside after : LabelForest) {p : List Nat}
    (h : p ≠ []) :
    (cons label inside after).hasLaterSibling (0 :: p) = inside.hasLaterSibling p := by
  cases p with
  | nil => exact absurd rfl h
  | cons i p =>
    have hne : next (i :: p) ≠ [] := by cases p <;> exact List.cons_ne_nil _ _
    rw [hasLaterSibling, next, find?_zero_cons _ _ _ hne, hasLaterSibling]

theorem hasLaterSibling_first (label : Text) (inside after : LabelForest) :
    (cons label inside after).hasLaterSibling [0] = !after.isEmpty := by
  cases after <;> rfl

theorem lineAt_first (indent label : Text) (inside after : LabelForest) :
    (cons label inside after).lineAt indent [0] = Export.item indent after.isEmpty label := by
  rw [lineAt, hasLaterSibling_first]
  cases after <;> simp [ancestors, isEmpty, find?, Export.item, Export.branch]

theorem ne_nil_of_mem_ancestors {p q : List Nat} (h : q ∈ ancestors p) : q ≠ [] := by
  fun_cases ancestors p with
  | case1 => cases h
  | case2 => cases h
  | case3 i j p =>
    obtain rfl | h := List.mem_cons.1 h
    · exact List.cons_ne_nil _ _
    · obtain ⟨r, -, rfl⟩ := List.mem_map.1 h
      exact List.cons_ne_nil _ _

theorem columnAt_first (label : Text) (inside after : LabelForest) :
    (cons label inside after).columnAt [0] = Export.column after.isEmpty := by
  rw [columnAt, hasLaterSibling_first]
  cases after <;> rfl

theorem columnAt_inside (label : Text) (inside after : LabelForest) {p : List Nat} (h : p ≠ []) :
    (cons label inside after).columnAt (0 :: p) = inside.columnAt p := by
  rw [columnAt, hasLaterSibling_inside _ _ _ h, columnAt]

theorem lineAt_inside (indent label : Text) (inside after : LabelForest) {p : List Nat}
    (h : p ≠ []) :
    (cons label inside after).lineAt indent (0 :: p) =
      inside.lineAt (indent ++ Export.column after.isEmpty) p := by
  cases p with
  | nil => exact absurd rfl h
  | cons i p =>
    have hcolumns :
        (ancestors (i :: p)).flatMap (fun q => (cons label inside after).columnAt (0 :: q)) =
        (ancestors (i :: p)).flatMap inside.columnAt := by
      apply List.flatMap_congr
      intro q hq
      exact columnAt_inside label inside after (ne_nil_of_mem_ancestors hq)
    rw [lineAt, ancestors, List.flatMap_cons, List.flatMap_map, columnAt_first, hcolumns,
      find?_zero_cons _ _ _ h, hasLaterSibling_inside _ _ _ h, lineAt]
    simp only [List.append_assoc]

theorem lineAt_shift (indent label : Text) (inside after : LabelForest) (p : List Nat) :
    (cons label inside after).lineAt indent (shift p) = after.lineAt indent p := by
  have hcolumns : (ancestors p).flatMap (fun q => (cons label inside after).columnAt (shift q)) =
      (ancestors p).flatMap after.columnAt := by
    apply List.flatMap_congr
    intro q _
    rw [columnAt, hasLaterSibling_shift, columnAt]
  rw [lineAt, ancestors_shift, List.flatMap_map, hcolumns, find?_shift,
    hasLaterSibling_shift, lineAt]

theorem draw_eq_map_lineAt (indent : Text) (f : LabelForest) :
    f.draw indent = f.addresses.map (f.lineAt indent) := by
  induction f generalizing indent with
  | nil => rfl
  | cons label inside after ihInside ihAfter =>
    rw [draw, addresses, List.map_cons, List.map_append, List.map_map, List.map_map, lineAt_first,
      ihInside, ihAfter]
    congr 2
    · apply List.map_congr_left
      intro p hp
      exact (lineAt_inside indent label inside after (ne_nil_of_mem_addresses hp)).symm
    · apply List.map_congr_left
      intro p hp
      exact (lineAt_shift indent label inside after p).symm

end Lines

section Reading

theorem prefix_of_mem_draw {indent line : Text} {f : LabelForest} (h : line ∈ f.draw indent) :
    indent <+: line := by
  induction f generalizing indent with
  | nil => cases h
  | cons label inside after ihInside ihAfter =>
    obtain rfl | h := List.mem_cons.1 h
    · rw [Export.item, List.append_assoc, List.append_assoc]
      exact List.prefix_append _ _
    · obtain h | h := List.mem_append.1 h
      · exact (List.prefix_append _ _).trans (ihInside h)
      · exact ihAfter h

/-- Whether a line goes on behind an indentation with a column and not with a sign. -/
def isInside (indent line : Text) : Bool :=
  match line.drop indent.length with
  | c :: _ => c == ' ' || c == '│'
  | [] => false

theorem isInside_of_mem_draw {indent line : Text} {f : LabelForest} {last : Bool}
    (h : line ∈ f.draw (indent ++ Export.column last)) : isInside indent line = true := by
  obtain ⟨rest, rfl⟩ := prefix_of_mem_draw h
  rw [isInside, List.append_assoc, List.drop_left]
  cases last <;> rfl

theorem item_eq (indent label : Text) (last : Bool) :
    Export.item indent last label = indent ++ (if last then '└' else '├') :: ['─', '─', ' '] ++
      label := by
  cases last <;> simp [Export.item, Export.branch]

theorem isInside_item (indent label : Text) (last : Bool) :
    isInside indent (Export.item indent last label) = false := by
  rw [isInside, item_eq, List.append_assoc, List.drop_left]
  cases last <;> rfl

theorem takeWhile_isInside (indent : Text) (last : Bool) (inside after : LabelForest) :
    (inside.draw (indent ++ Export.column last) ++ after.draw indent).takeWhile (isInside indent) =
      inside.draw (indent ++ Export.column last) := by
  rw [List.takeWhile_append_of_pos fun line h => isInside_of_mem_draw h]
  cases after with
  | nil => exact List.append_nil _
  | cons label _ _ => simp [draw, isInside_item]

theorem sign_injective : ∀ last last' : Bool,
    (if last then '└' else '├') = (if last' then '└' else '├') → last = last' := by
  decide

theorem item_inj {indent label label' : Text} {last last' : Bool}
    (h : Export.item indent last label = Export.item indent last' label') :
    last = last' ∧ label = label' := by
  rw [item_eq, item_eq, List.append_assoc, List.append_assoc] at h
  obtain ⟨hsign, hlabel⟩ := List.cons.inj (List.append_cancel_left h)
  exact ⟨sign_injective last last' hsign, by simpa using hlabel⟩

theorem draw_injective {indent : Text} {f g : LabelForest} (h : f.draw indent = g.draw indent) :
    f = g := by
  induction f generalizing indent g with
  | nil =>
    cases g with
    | nil => rfl
    | cons => cases h
  | cons label inside after ihInside ihAfter =>
    cases g with
    | nil => cases h
    | cons label' inside' after' =>
      obtain ⟨hitem, hrest⟩ := List.cons.inj h
      obtain ⟨hlast, rfl⟩ := item_inj hitem
      rw [← hlast] at hrest
      have hinside := congrArg (List.takeWhile (isInside indent)) hrest
      rw [takeWhile_isInside, takeWhile_isInside] at hinside
      obtain rfl := ihInside hinside
      obtain rfl := ihAfter (List.append_cancel_left hrest)
      rfl

end Reading

end LabelForest

/-- What the tree shows of a method. -/
structure ShownMethod where
  signature : Text
  calls : List Text
  references : List Text
  inside : List ShownMethod

namespace MethodTree

mutual

/-- What the tree shows of a method and of the methods inside it. -/
def shown : MethodTree → ShownMethod
  | ⟨head, calls, references, children⟩ => ⟨head.signature, calls, references, shownAll children⟩

def shownAll : List MethodTree → List ShownMethod
  | [] => []
  | m :: ms => shown m :: shownAll ms

end

mutual

/-- A method as a label in front of others: its signature with its calls, the places it is called
from and the methods inside it. -/
def labelled : MethodTree → LabelForest → LabelForest
  | ⟨head, calls, references, children⟩, after =>
    .cons head.signature
      (.listed "calls:" calls (.listed "called by:" references (labelledAll children))) after

def labelledAll : List MethodTree → LabelForest
  | [] => .nil
  | m :: ms => labelled m (labelledAll ms)

end

end MethodTree

namespace Export

open LabelForest MethodTree

theorem leaves_eq_draw (indent : Text) (ts : List Text) :
    leaves indent ts = (LabelForest.leaves ts).draw indent := by
  induction ts with
  | nil => rfl
  | cons t ts ih =>
    have hlast : (LabelForest.leaves ts).isEmpty = ts.isEmpty := by cases ts <;> rfl
    rw [leaves, ih, LabelForest.leaves, draw, draw, hlast]
    rfl

/-- Labelled lists in front of a forest. -/
def headed (ss : List (String × List Text)) (f : LabelForest) : LabelForest :=
  ss.foldr (fun s after => listed s.1 s.2 after) f

theorem isEmpty_headed (ss : List (String × List Text)) (f : LabelForest) :
    (headed ss f).isEmpty = (f.isEmpty && ss.all fun s => s.2.isEmpty) := by
  induction ss with
  | nil => simp [headed]
  | cons s ss ih =>
    rw [headed, List.foldr_cons, ← headed, listed, List.all_cons]
    split
    · next h => simp [ih, h]
    · next h => simp [h, LabelForest.isEmpty]

theorem sections_append_draw (indent : Text) (ss : List (String × List Text)) (f : LabelForest) :
    sections indent (!f.isEmpty) ss ++ f.draw indent = (headed ss f).draw indent := by
  induction ss with
  | nil => rfl
  | cons s ss ih =>
    rw [headed, List.foldr_cons, ← headed, listed, sections]
    split
    · exact ih
    · have hlast : (!!f.isEmpty && ss.all fun s => s.2.isEmpty) = (headed ss f).isEmpty := by
        rw [Bool.not_not, isEmpty_headed]
      simp only [draw, hlast, leaves_eq_draw, List.cons_append, List.append_assoc, ih]

theorem isEmpty_labelledAll (ms : List MethodTree) : (labelledAll ms).isEmpty = ms.isEmpty := by
  cases ms with
  | nil => rfl
  | cons m ms =>
    obtain ⟨⟩ := m
    rfl

mutual

theorem methodLines_append_draw (indent : Text) : ∀ (m : MethodTree) (f : LabelForest),
    methodLines indent f.isEmpty m ++ f.draw indent = (labelled m f).draw indent
  | ⟨head, calls, references, children⟩, f => by
    have hinner := sections_append_draw (indent ++ column f.isEmpty)
      [("calls:", calls), ("called by:", references)] (labelledAll children)
    rw [isEmpty_labelledAll, ← forestLines_eq_draw] at hinner
    rw [methodLines, labelled, draw, List.cons_append, hinner]
    rfl

theorem forestLines_eq_draw (indent : Text) : ∀ ms : List MethodTree,
    forestLines indent ms = (labelledAll ms).draw indent
  | [] => rfl
  | m :: ms => by
    rw [forestLines, ← isEmpty_labelledAll, forestLines_eq_draw indent ms, methodLines_append_draw,
      labelledAll]

end

end Export

namespace LabelForest

theorem leaves_injective {ts us : List Text} (h : leaves ts = leaves us) : ts = us := by
  induction ts generalizing us with
  | nil =>
    cases us with
    | nil => rfl
    | cons => cases h
  | cons t ts ih =>
    cases us with
    | nil => cases h
    | cons u us =>
      obtain ⟨rfl, -, hrest⟩ := cons.inj h
      rw [ih hrest]

theorem listed_inj {heading : String} {items items' : List Text} {f g : LabelForest}
    (hf : f.first? ≠ some heading.toList) (hg : g.first? ≠ some heading.toList)
    (h : listed heading items f = listed heading items' g) : items = items' ∧ f = g := by
  unfold listed at h
  split at h
  · next hnone =>
    split at h
    · next hnone' => exact ⟨hnone.trans hnone'.symm, h⟩
    · subst h
      exact absurd rfl hf
  · split at h
    · subst h
      exact absurd rfl hg
    · obtain ⟨-, hleaves, hrest⟩ := cons.inj h
      exact ⟨leaves_injective hleaves, hrest⟩

end LabelForest

namespace MethodTree

open LabelForest

theorem first?_labelledAll {ms : List MethodTree} {t : Text} (h : '(' ∉ t) :
    (labelledAll ms).first? ≠ some t := by
  intro he
  cases ms with
  | nil => cases he
  | cons m ms =>
    obtain ⟨⟩ := m
    apply h
    rw [← Option.some.inj he]
    simp [MethodHead.signature]

theorem first?_listed {ms : List MethodTree} (items : List Text) :
    (listed "called by:" items (labelledAll ms)).first? ≠ some "calls:".toList := by
  rw [listed]
  split
  · exact first?_labelledAll (by decide)
  · intro he
    exact absurd (Option.some.inj he) (by decide)

mutual

theorem shown_of_labelled : ∀ (m m' : MethodTree) {f f' : LabelForest},
    labelled m f = labelled m' f' → shown m = shown m' ∧ f = f'
  | ⟨head, calls, references, children⟩, ⟨head', calls', references', children'⟩, f, f', h => by
    rw [labelled, labelled] at h
    obtain ⟨hsignature, hinside, hafter⟩ := cons.inj h
    obtain ⟨hcalls, hrest⟩ := listed_inj (first?_listed _) (first?_listed _) hinside
    have hheading (ms : List MethodTree) : (labelledAll ms).first? ≠ some "called by:".toList :=
      first?_labelledAll (by decide)
    obtain ⟨hreferences, hchildren⟩ := listed_inj (hheading _) (hheading _) hrest
    rw [shown, shown, hsignature, hcalls, hreferences,
      shownAll_of_labelledAll children children' hchildren]
    exact ⟨rfl, hafter⟩

theorem shownAll_of_labelledAll : ∀ ms ms' : List MethodTree,
    labelledAll ms = labelledAll ms' → shownAll ms = shownAll ms'
  | [], [], _ => rfl
  | [], ⟨_, _, _, _⟩ :: _, h => by cases h
  | ⟨_, _, _, _⟩ :: _, [], h => by cases h
  | m :: ms, m' :: ms', h => by
    obtain ⟨hshown, hrest⟩ := shown_of_labelled m m' h
    rw [shownAll, shownAll, hshown, shownAll_of_labelledAll ms ms' hrest]

end

end MethodTree

namespace Export

open LabelForest MethodTree

/-- The lines of methods are those of their labels in the order of the addresses: at each address a
column for every ancestor, with a pipe exactly if that has a later sibling, and a sign, which is the
last one exactly if the label has no later sibling. Methods with the same lines have the same
signatures, calls, references and nesting. -/
theorem forestLines_draw_labels (indent : Text) (ms : List MethodTree) :
    (∃ places : List (List Nat), places.Pairwise (· < ·) ∧
      (∀ p, p ∈ places ↔ ((labelledAll ms).find? p).isSome = true) ∧
      forestLines indent ms = places.map ((labelledAll ms).lineAt indent)) ∧
    ∀ ms', forestLines indent ms = forestLines indent ms' → shownAll ms = shownAll ms' := by
  constructor
  · refine ⟨(labelledAll ms).addresses, pairwise_addresses _, ?_, ?_⟩
    · intro p
      exact ⟨find?_of_mem_addresses, mem_addresses_of_find?⟩
    · rw [forestLines_eq_draw, draw_eq_map_lineAt]
  · intro ms' h
    rw [forestLines_eq_draw, forestLines_eq_draw] at h
    exact shownAll_of_labelledAll ms ms' (draw_injective h)

/-- A method that calls something with the name of a heading and has another one inside it, and a
method after it. -/
def nestedPair (parameters : List Parameter) : List MethodTree :=
  [⟨{ name := ['f'], parameters }, ["calls:".toList], ["a:g".toList],
    [⟨{ name := ['h'] }, [], [], []⟩]⟩, ⟨{ name := ['k'] }, [], [], []⟩]

theorem lines_of_nestedPair :
    forestLines [' '] (nestedPair [{ name := ['x'] }, { name := ['y'] }]) =
        forestLines [' '] (nestedPair [{ name := "x, y".toList }]) ∧
      shownAll (nestedPair [{ name := ['x'] }, { name := ['y'] }]) =
        shownAll (nestedPair [{ name := "x, y".toList }]) ∧
      ∃ places : List (List Nat), places.Pairwise (· < ·) ∧
        forestLines [' ']
        (nestedPair []) = places.map ((labelledAll (nestedPair [])).lineAt [' ']) := by
  obtain ⟨⟨places, hsorted, -, hlines⟩, -⟩ := forestLines_draw_labels [' '] (nestedPair [])
  have hsame : forestLines [' '] (nestedPair [{ name := ['x'] }, { name := ['y'] }]) =
      forestLines [' '] (nestedPair [{ name := "x, y".toList }]) := rfl
  exact ⟨hsame, (forestLines_draw_labels [' '] _).2 _ hsame, places, hsorted, hlines⟩

end Export

end DependencyAtlas
