import Mathlib.Data.List.Sort
import Mathlib.Data.Set.Card

/-!
# Draining in rounds

Elements with a key wait in a set. A round takes some of them in the order of their keys, and takes
none before one that it leaves; if anything waits, it takes something. Wherever the rounds end, they
take every element at most once and in order (`Rounds.nodup`, `Rounds.sorted`), and as many rounds
as there are elements leave none (`Rounds.drained`).

`First` is the usual way to find what a round may take: the first elements, up to some number. Any
part of them from the beginning is a round (`First.round`).
-/

namespace Store

variable {α κ : Type} [LinearOrder κ] (key : α → κ)

/-- A round takes the elements `xs` of the set `S`. -/
structure Round (S : Set α) (xs : List α) : Prop where
  nodup : xs.Nodup
  mem : ∀ x ∈ xs, x ∈ S
  sorted : xs.Pairwise fun x y => key x ≤ key y
  le_rest : ∀ x ∈ xs, ∀ y ∈ S, y ∉ xs → key x ≤ key y
  progress : xs = [] → S = ∅

/-- Rounds that take `xss` of `S`, and leave `S'`. -/
inductive Rounds : Set α → List (List α) → Set α → Prop
  | nil (S : Set α) : Rounds S [] S
  | cons {S S' S'' : Set α} {xs : List α} {xss : List (List α)} (h : Round key S xs)
      (hrest : ∀ x, x ∈ S' ↔ x ∈ S ∧ x ∉ xs) (hs : Rounds S' xss S'') : Rounds S (xs :: xss) S''

namespace Rounds

variable {key} {S S' : Set α} {xss : List (List α)}

/-- What is taken and what is left. -/
theorem mem_iff (h : Rounds key S xss S') (x : α) : x ∈ S ↔ x ∈ xss.flatten ∨ x ∈ S' := by
  induction h with
  | nil S => simp
  | @cons S S' S'' xs xss h hrest _ ih =>
    rw [List.flatten_cons, List.mem_append, or_assoc, ← ih, hrest]
    constructor
    · intro hx
      by_cases hxs : x ∈ xs
      · exact .inl hxs
      · exact .inr ⟨hx, hxs⟩
    · rintro (hxs | ⟨hx, -⟩)
      · exact h.mem x hxs
      · exact hx

/-- Nothing is taken twice. -/
theorem nodup (h : Rounds key S xss S') : xss.flatten.Nodup := by
  induction h with
  | nil S => exact List.nodup_nil
  | @cons S S' S'' xs xss h hrest hs ih =>
    rw [List.flatten_cons, List.nodup_append]
    refine ⟨h.nodup, ih, ?_⟩
    rintro x hx _ hy rfl
    exact ((hrest x).mp ((hs.mem_iff x).mpr (.inl hy))).2 hx

/-- Everything is taken in order. -/
theorem sorted (h : Rounds key S xss S') : xss.flatten.Pairwise fun x y => key x ≤ key y := by
  induction h with
  | nil S => exact List.Pairwise.nil
  | @cons S S' S'' xs xss h hrest hs ih =>
    rw [List.flatten_cons, List.pairwise_append]
    refine ⟨h.sorted, ih, fun x hx y hy => ?_⟩
    obtain ⟨hyS, hyxs⟩ := (hrest y).mp ((hs.mem_iff y).mpr (.inl hy))
    exact h.le_rest x hx y hyS hyxs

/-- While something is left, every round takes something. -/
theorem length_lt (h : Rounds key S xss S') (hfin : S.Finite) (hne : S'.Nonempty) :
    xss.length < S.ncard := by
  induction h with
  | nil S => exact (Set.ncard_pos hfin).mpr hne
  | @cons S S' S'' xs xss h hrest hs ih =>
    have hsub : S' ⊆ S := fun x hx => ((hrest x).mp hx).1
    have hlt : S'.ncard < S.ncard := by
      apply Set.ncard_lt_ncard _ hfin
      obtain ⟨y, hy⟩ := hne
      have hyS : y ∈ S := hsub ((hs.mem_iff y).mpr (.inr hy))
      obtain ⟨x, hx⟩ : ∃ x, x ∈ xs := by
        apply List.exists_mem_of_ne_nil
        intro hnil
        rw [h.progress hnil] at hyS
        exact hyS
      exact ⟨hsub, fun hsup => ((hrest x).mp (hsup (h.mem x hx))).2 hx⟩
    have hrec := ih (hfin.subset hsub) hne
    rw [List.length_cons]
    omega

/-- **As many rounds as there are elements leave none.** -/
theorem drained (h : Rounds key S xss S') (hfin : S.Finite) (hn : S.ncard ≤ xss.length) : S' = ∅ := by
  by_contra hne
  exact absurd (h.length_lt hfin (Set.nonempty_iff_ne_empty.mpr hne)) (by omega)

end Rounds

/-! ## The first elements -/

/-- The first `n` elements of a set, or all if there are no more. -/
structure First (S : Set α) (n : ℕ) (xs : List α) : Prop where
  nodup : xs.Nodup
  mem : ∀ x ∈ xs, x ∈ S
  sorted : xs.Pairwise fun x y => key x ≤ key y
  length_le : xs.length ≤ n
  complete : ∀ y ∈ S, y ∉ xs → xs.length = n ∧ ∀ x ∈ xs, key x ≤ key y

variable {key} {S : Set α} {n : ℕ}

/-- The first elements can be found. -/
theorem exists_first (hfin : S.Finite) (n : ℕ) : ∃ xs, First key S n xs := by
  let le (x y : α) : Bool := key x ≤ key y
  let l := hfin.toFinset.toList.mergeSort le
  have hsorted : l.Pairwise fun x y => key x ≤ key y := by
    have h := @List.pairwise_mergeSort _ le
      (fun x y z hxy hyz => decide_eq_true ((of_decide_eq_true hxy).trans (of_decide_eq_true hyz)))
      (fun x y => by simpa [le] using le_total (key x) (key y)) hfin.toFinset.toList
    exact h.imp fun hxy => of_decide_eq_true hxy
  have hperm : l.Perm hfin.toFinset.toList := List.mergeSort_perm ..
  have hmem : ∀ x, x ∈ l ↔ x ∈ S := fun x => by simp [hperm.mem_iff]
  have hnodup : l.Nodup := hperm.nodup_iff.mpr hfin.toFinset.nodup_toList
  refine ⟨l.take n, hnodup.sublist (List.take_sublist n l), ?_,
    hsorted.sublist (List.take_sublist n l),
    List.length_take_le n l, ?_⟩
  · intro x hx
    exact (hmem x).mp (List.mem_of_mem_take hx)
  · intro y hy hnot
    have hl : y ∈ l.take n ++ l.drop n := by
      rw [List.take_append_drop]
      exact (hmem y).mpr hy
    have hdrop : y ∈ l.drop n := (List.mem_append.mp hl).resolve_left hnot
    constructor
    · have hpos := List.length_pos_of_mem hdrop
      rw [List.length_drop] at hpos
      rw [List.length_take]
      omega
    · rw [← List.take_append_drop n l, List.pairwise_append] at hsorted
      exact fun x hx => hsorted.2.2 x hx y hdrop

/-- **A part of the first elements is a round.** -/
theorem First.round {xs ys : List α} (h : First key S n xs) (hn : 1 ≤ n) (hpre : ys <+: xs)
    (hne : ys = [] → xs = []) : Round key S ys := by
  obtain ⟨zs, rfl⟩ := hpre
  have hsorted := List.pairwise_append.mp h.sorted
  refine ⟨h.nodup.sublist (List.sublist_append_left ys zs), ?_, hsorted.1, ?_, ?_⟩
  · intro x hx
    exact h.mem x (List.mem_append_left zs hx)
  · intro x hx y hy hnot
    by_cases hz : y ∈ zs
    · exact hsorted.2.2 x hx y hz
    · exact (h.complete y hy (by simp [hnot, hz])).2 x (List.mem_append_left zs hx)
  · intro hnil
    have hxs := hne hnil
    apply Set.eq_empty_of_forall_notMem
    intro y hy
    have hlen := (h.complete y hy (by simp [hxs])).1
    rw [hxs, List.length_nil] at hlen
    omega

end Store
