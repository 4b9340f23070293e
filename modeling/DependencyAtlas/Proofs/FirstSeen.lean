import DependencyAtlas.FirstSeen
import Mathlib.Data.List.Induction
import Mathlib.Data.List.Nodup
import Mathlib.Data.List.Perm.Basic

namespace DependencyAtlas

namespace FirstSeen

variable {α : Type} [DecidableEq α]

theorem mem_add {xs : List α} {x y : α} : y ∈ add xs x ↔ y ∈ xs ∨ y = x := by
  unfold add
  split
  · next h =>
    constructor
    · exact .inl
    · rintro (hy | rfl)
      · exact hy
      · exact h
  · simp

theorem add_add (xs : List α) (x : α) : add (add xs x) x = add xs x :=
  if_pos (mem_add.2 (.inr rfl))

theorem nodup_add {xs : List α} (h : xs.Nodup) (x : α) : (add xs x).Nodup := by
  unfold add
  split
  · exact h
  · next hx => exact h.append (List.nodup_singleton x) (by simpa using hx)

theorem mem_foldl_add {xs ys : List α} {y : α} : y ∈ ys.foldl add xs ↔ y ∈ xs ∨ y ∈ ys := by
  induction ys generalizing xs with
  | nil => simp
  | cons x ys ih => rw [List.foldl_cons, ih, mem_add, List.mem_cons, or_assoc]

theorem nodup_foldl_add {xs : List α} (h : xs.Nodup) (ys : List α) : (ys.foldl add xs).Nodup := by
  induction ys generalizing xs with
  | nil => exact h
  | cons x ys ih => exact ih (nodup_add h x)

theorem mem_ofList {xs : List α} {x : α} : x ∈ ofList xs ↔ x ∈ xs := by
  simp [ofList, mem_foldl_add]

theorem nodup_ofList (xs : List α) : (ofList xs).Nodup :=
  nodup_foldl_add .nil xs

theorem ofList_concat (xs : List α) (x : α) : ofList (xs ++ [x]) = add (ofList xs) x :=
  List.foldl_append

theorem remaining_le (all seen : List α) : remaining all seen ≤ all.length :=
  List.length_filter_le _ _

theorem remaining_cons_add_countP {all seen : List α} {x : α} (hx : x ∉ seen) :
    remaining all (x :: seen) + all.countP (· = x) = remaining all seen := by
  have hcount : (all.filter (· ∉ seen)).countP (· = x) = all.countP (· = x) := by
    rw [List.countP_filter]
    apply List.countP_congr
    intro a _
    by_cases ha : a = x <;> simp [ha, hx]
  have hsplit := List.length_eq_countP_add_countP (· = x) (l := all.filter (· ∉ seen))
  rw [remaining, remaining, filter_notMem_cons, ← List.countP_eq_length_filter, hsplit, hcount,
    Nat.add_comm]
  congr 2
  funext a
  simp

section Groups

variable {κ β : Type} [DecidableEq κ] (key : β → κ)

theorem notMem_ofList_map {xs : List β} {k : κ} (hk : k ∉ ofList (xs.map key)) :
    xs.filter (key · = k) = [] := by
  apply List.filter_eq_nil_iff.2
  intro x hx he
  exact hk (mem_ofList.2 (List.mem_map.2 ⟨x, hx, by simpa using he⟩))

/-- The groups of a list, in the order of their first elements, are together the whole list. -/
theorem flatMap_filter_perm (xs : List β) :
    ((ofList (xs.map key)).flatMap fun k => xs.filter (key · = k)).Perm xs := by
  induction xs using List.reverseRecOn with
  | nil => exact .refl _
  | append_singleton xs x ih =>
    have hsplit : ((ofList (xs.map key)).flatMap fun k => (xs ++ [x]).filter (key · = k)).Perm
        (xs ++ (ofList (xs.map key)).flatMap fun k => [x].filter (key · = k)) := by
      simp only [List.filter_append]
      exact (List.flatMap_append_perm _ _ _).symm.trans (ih.append_right _)
    have hlast : ∀ ks : List κ, (ks.flatMap fun k => [x].filter (key · = k)) =
        List.replicate (ks.count (key x)) x := by
      intro ks
      induction ks with
      | nil => rfl
      | cons k ks ih =>
        by_cases hk : key x = k
        · simp [hk, ih, List.replicate_succ]
        · simp [hk, Ne.symm hk, ih]
    rw [hlast] at hsplit
    rw [List.map_append, List.map_singleton, ofList_concat, add]
    split
    · next hk => rwa [List.count_eq_one_of_mem (nodup_ofList _) hk] at hsplit
    · next hk =>
      rw [List.count_eq_zero_of_not_mem hk, List.replicate_zero, List.append_nil] at hsplit
      rw [List.flatMap_append, List.flatMap_singleton, List.filter_append, notMem_ofList_map key hk]
      simpa using hsplit.append_right [x]

/-- What the elements of a list yield comes in the order of the groups too, if only the first one of
each group yields anything. -/
theorem flatMap_filter_eq {γ : Type} {f : β → List γ} {xs : List β}
    (h : xs.Pairwise fun x y => key x = key y → f y = []) :
    ((ofList (xs.map key)).flatMap fun k => (xs.filter (key · = k)).flatMap f) = xs.flatMap f := by
  induction xs using List.reverseRecOn with
  | nil => rfl
  | append_singleton xs x ih =>
    obtain ⟨hxs, -, hx⟩ := List.pairwise_append.1 h
    have hsplit : ∀ ks : List κ, (∀ k ∈ ks, key x = k → f x = []) →
        (ks.flatMap fun k => ((xs ++ [x]).filter (key · = k)).flatMap f) =
          ks.flatMap fun k => (xs.filter (key · = k)).flatMap f := by
      intro ks hks
      apply List.flatMap_congr
      intro k hk
      by_cases he : key x = k
      · simp [List.filter_append, he, hks k hk he]
      · simp [List.filter_append, he]
    rw [List.map_append, List.map_singleton, ofList_concat, add, List.flatMap_append,
      List.flatMap_singleton, ← ih hxs]
    split
    · next hk =>
      obtain ⟨y, hy, he⟩ := List.mem_map.1 (mem_ofList.1 hk)
      have hnone : f x = [] := hx y hy x (List.mem_singleton_self x) he
      rw [hsplit _ fun _ _ _ => hnone, hnone, List.append_nil]
    · next hk =>
      have hnew : ∀ k ∈ ofList (xs.map key), key x = k → f x = [] := by
        intro k hin he
        exact (hk (he ▸ hin)).elim
      rw [List.flatMap_append, hsplit _ hnew, List.flatMap_singleton, List.filter_append,
        notMem_ofList_map key hk]
      simp

/-- The keys of the elements that satisfy `p` come in the order of the first such elements. -/
theorem pairwise_findIdx_ofList (p : β → Bool) (xs : List β) :
    (ofList ((xs.filter p).map key)).Pairwise fun k k' =>
      xs.findIdx (fun x => p x && key x = k) < xs.findIdx fun x => p x && key x = k' := by
  induction xs using List.reverseRecOn with
  | nil => exact .nil
  | append_singleton xs x ih =>
    have hfound : ∀ k ∈ ofList ((xs.filter p).map key),
        xs.findIdx (fun y => p y && key y = k) < xs.length := by
      intro k hk
      obtain ⟨y, hy, rfl⟩ := List.mem_map.1 (mem_ofList.1 hk)
      obtain ⟨hy, hp⟩ := List.mem_filter.1 hy
      exact List.findIdx_lt_length_of_exists ⟨y, hy, by simp [hp]⟩
    have hstays : ∀ k ∈ ofList ((xs.filter p).map key),
        (xs ++ [x]).findIdx (fun y => p y && key y = k) = xs.findIdx fun y => p y && key y = k := by
      intro k hk
      rw [List.findIdx_append, if_pos (hfound k hk)]
    have hpairs : (ofList ((xs.filter p).map key)).Pairwise fun k k' =>
        (xs ++ [x]).findIdx (fun y => p y && key y = k) <
          (xs ++ [x]).findIdx fun y => p y && key y = k' := by
      refine ih.imp_of_mem fun hk hk' hlt => ?_
      rwa [hstays _ hk, hstays _ hk']
    by_cases hp : p x = true
    · rw [List.filter_append, List.filter_cons_of_pos hp, List.filter_nil, List.map_append,
        List.map_singleton, ofList_concat, add]
      split
      · exact hpairs
      · next hnew =>
        refine List.pairwise_append.2 ⟨hpairs, List.pairwise_singleton .., ?_⟩
        intro k hk k' hk'
        cases List.mem_singleton.1 hk'
        -- the new key has its first element at the end
        have hnone : ¬xs.findIdx (fun y => p y && key y = key x) < xs.length := by
          intro hlt
          obtain ⟨y, hy, hyx⟩ := List.findIdx_lt_length.1 hlt
          obtain ⟨hpy, hkey⟩ := Bool.and_eq_true_iff.1 hyx
          exact hnew (mem_ofList.2 (List.mem_map.2 ⟨y, List.mem_filter.2 ⟨hy, hpy⟩,
            of_decide_eq_true hkey⟩))
        have hlast : xs.length ≤ (xs ++ [x]).findIdx fun y => p y && key y = key x := by
          rw [List.findIdx_append, if_neg hnone]
          exact Nat.le_add_left ..
        rw [hstays k hk]
        exact Nat.lt_of_lt_of_le (hfound k hk) hlast
    · rw [List.filter_append, List.filter_cons_of_neg hp, List.filter_nil, List.append_nil]
      exact hpairs

end Groups

end FirstSeen

namespace Grouping

variable {κ α : Type} [DecidableEq κ]

theorem lookup_map_extend (groups : List (κ × List α)) (key k : κ) (value : α) :
    (groups.map fun e => if e.1 = key then (e.1, e.2 ++ [value]) else e).lookup k =
      (groups.lookup k).map fun vs => if k = key then vs ++ [value] else vs := by
  induction groups with
  | nil => rfl
  | cons e groups ih =>
    obtain ⟨k', vs⟩ := e
    rw [List.map_cons]
    by_cases hk : k = k'
    · subst hk
      split <;> simp_all
    · have hne : (k == k') = false := by simpa using hk
      split <;> simp only [List.lookup_cons, hne, ih]

theorem get_add (g : Grouping κ α) (key k : κ) (value : α) :
    (g.add key value).get k = g.get k ++ (if k = key then [value] else []) := by
  unfold add get
  split
  · next h =>
    rw [lookup_map_extend]
    by_cases hk : k = key
    · subst hk
      obtain ⟨vs, hvs⟩ := Option.isSome_iff_exists.1 h
      simp [hvs]
    · simp [hk]
  · next h =>
    rw [List.lookup_append]
    by_cases hk : k = key
    · subst hk
      simp [Option.not_isSome_iff_eq_none.1 h]
    · have hne : (k == key) = false := by simpa using hk
      simp [hk, hne, List.lookup_cons]

theorem get_foldl_add {β : Type} (entries : β → List (κ × α)) (xs : List β) (g : Grouping κ α)
    (k : κ) :
    (xs.foldl (fun g x => (entries x).foldl (fun g e => g.add e.1 e.2) g) g).get k =
      g.get k ++ (xs.flatMap entries).filterMap fun e => if k = e.1 then some e.2 else none := by
  have hone : ∀ (es : List (κ × α)) (g : Grouping κ α),
      (es.foldl (fun g e => g.add e.1 e.2) g).get k =
      g.get k ++ es.filterMap fun e => if k = e.1 then some e.2 else none := by
    intro es
    induction es with
    | nil => simp
    | cons e es ih =>
      intro g
      rw [List.foldl_cons, ih, get_add, List.filterMap_cons]
      split <;> simp_all
  induction xs generalizing g with
  | nil => simp
  | cons x xs ih =>
    rw [List.foldl_cons, ih, hone, List.flatMap_cons, List.filterMap_append, List.append_assoc]

end Grouping

end DependencyAtlas
