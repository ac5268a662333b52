import Mathlib.Algebra.Order.BigOperators.Group.Finset
import PaymentProcessing.Foundations.Effects.Machine

/-!
# Tallies

A run in which the steps of one kind are counted (`Tally`), and the potential method: if what is
spent and what is left to spend grow by no more than the income, and by a fixed price more in the
steps that are counted, then the price times their number bounds what a run has overdrawn
(`Tally.bounded`).
-/

namespace Effects

open Relation

/-- Steps of which `n` are marked. -/
inductive Tally {α : Type*} (step mark : α → α → Prop) (a : α) : ℕ → α → Prop
  | refl : Tally step mark a 0 a
  | plain {n : ℕ} {b c : α} (h : Tally step mark a n b) (hs : step b c) (hm : ¬mark b c) :
      Tally step mark a n c
  | marked {n : ℕ} {b c : α} (h : Tally step mark a n b) (hs : step b c) (hm : mark b c) :
      Tally step mark a (n + 1) c

namespace Tally

variable {α : Type*} {step mark : α → α → Prop} {a b : α} {n : ℕ}

theorem run (h : Tally step mark a n b) : ReflTransGen step a b := by
  induction h with
  | refl => exact .refl
  | plain _ hs _ ih => exact ih.tail hs
  | marked _ hs _ ih => exact ih.tail hs

/-- The marked steps of a run can be counted. -/
theorem exists_of_run (h : ReflTransGen step a b) : ∃ n, Tally step mark a n b := by
  induction h with
  | refl => exact ⟨0, .refl⟩
  | @tail b c _ hs ih =>
    obtain ⟨n, hn⟩ := ih
    by_cases hm : mark b c
    · exact ⟨n + 1, hn.marked hs hm⟩
    · exact ⟨n, hn.plain hs hm⟩

/-- **The potential method.** -/
theorem bounded (reached : α → Prop) (spent income : α → ℕ) (price : ℕ)
    (hreached : ∀ {b c}, reached b → step b c → reached c)
    (hstep : ∀ {b c}, reached b → step b c → spent c + income b ≤ spent b + income c ∨
      (mark b c ∧ spent c + income b ≤ spent b + income c + price))
    (ha : reached a) (h : Tally step mark a n b) :
    reached b ∧ spent b + income a ≤ spent a + income b + price * n := by
  induction h with
  | refl => exact ⟨ha, by omega⟩
  | @plain n b c _ hs hm ih =>
    obtain ⟨hb, ih⟩ := ih
    refine ⟨hreached hb hs, ?_⟩
    rcases hstep hb hs with hle | ⟨hm', -⟩
    · omega
    · exact absurd hm' hm
  | @marked n b c _ hs _ ih =>
    obtain ⟨hb, ih⟩ := ih
    refine ⟨hreached hb hs, ?_⟩
    rw [Nat.mul_succ]
    rcases hstep hb hs with hle | ⟨-, hle⟩
    · omega
    · omega

end Tally

/-- Where two functions differ at one point only, so do their sums. -/
theorem sum_add_of_eq_off {ι : Type*} {s : Finset ι} {f g : ι → ℕ} {i : ι}
    (hi : i ∈ s) (h : ∀ j ≠ i, f j = g j) : ∑ j ∈ s, f j + g i = ∑ j ∈ s, g j + f i := by
  classical
  have hrest : ∑ j ∈ s.erase i, f j = ∑ j ∈ s.erase i, g j :=
    Finset.sum_congr rfl fun j hj => h j (Finset.ne_of_mem_erase hj)
  rw [← Finset.add_sum_erase s f hi, ← Finset.add_sum_erase s g hi, hrest]
  omega

namespace Machine.Spec

variable {M : Machine} {S : M.Spec}

/-- What is counted by the worlds of the states is counted in the view. -/
theorem Tracks.tally (mark : M.World → M.World → Prop) {s s' : M.State} {v : S.View}
    (h : S.Tracks s v) {n : ℕ} (hr : Tally M.Step (fun s s' => mark s.world s'.world) s n s') :
    ∃ v', Tally S.Step (fun v v' => mark v.world v'.world) v n v' ∧ S.Tracks s' v' := by
  induction hr with
  | refl => exact ⟨v, .refl, h⟩
  | plain _ hs hm ih =>
    obtain ⟨v', hv, htr⟩ := ih
    obtain ⟨v'', hv', htr'⟩ := htr.step hs
    exact ⟨v'', hv.plain hv' (by rwa [htr.world, htr'.world]), htr'⟩
  | marked _ hs hm ih =>
    obtain ⟨v', hv, htr⟩ := ih
    obtain ⟨v'', hv', htr'⟩ := htr.step hs
    exact ⟨v'', hv.marked hv' (by rwa [htr.world, htr'.world]), htr'⟩

end Machine.Spec

end Effects
