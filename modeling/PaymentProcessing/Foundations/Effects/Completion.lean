import Mathlib.Algebra.Order.BigOperators.Group.Finset
import Mathlib.Logic.Hydra
import PaymentProcessing.Foundations.Effects.Termination

/-!
# Threads that run to their ends

The threads of a machine when none is started and none is killed, and the operations have only some
of their outcomes (`Machine.Onward`). A program is finite, so this cannot go on for ever: the
multiset of the threads descends, as in a game against a hydra that is never given new heads
(`Machine.Onward.heads`). If in every state in which some thread has something left to do one
of them can go on, then all of them return, whatever the order (`Machine.terminates_onward`).
-/

namespace Effects

open Relation

namespace Machine

variable {M : Machine}

/-- The thread has something left to do. -/
def Busy (s : M.State) (t : ℕ) : Prop :=
  ∃ (k : M.Kind) (o : M.Op) (c : M.Res o → Prog M.Op M.Res (M.Out k)),
    s.threads t = .running k (.op o c)

/-- The threads that have not been started. -/
theorem Reachable.unborn {s : M.State} (h : M.Reachable s) {t : ℕ} (ht : s.born ≤ t) :
    s.threads t = .unborn := by
  refine h.induction (I := fun s => ∀ t, s.born ≤ t → s.threads t = .unborn) ?_ ?_ t ht
  · exact fun s hs t _ => hs.2.1 t
  · intro s s' _ ih hs t htb
    cases hs with
    | start _ =>
      have hlt : s.born + 1 ≤ t := htb
      have hne : t ≠ s.born := by omega
      exact (Function.update_of_ne hne _ _).trans (ih t (by omega))
    | @exec t' _ _ _ _ _ ht' _ =>
      have hne : t ≠ t' := by
        rintro rfl
        cases ht'.symm.trans (ih t htb)
      exact (Function.update_of_ne hne _ _).trans (ih t htb)
    | @crash t' _ _ _ ht' _ =>
      have hne : t ≠ t' := by
        rintro rfl
        cases ht'.symm.trans (ih t htb)
      exact (Function.update_of_ne hne _ _).trans (ih t htb)
    | env _ => exact ih t htb

/-- Threads that have something left to do have been started. -/
theorem Reachable.busy_lt {s : M.State} (h : M.Reachable s) {t : ℕ} (ht : M.Busy s t) :
    t < s.born := by
  by_contra hge
  obtain ⟨k, o, c, ht⟩ := ht
  cases ht.symm.trans (h.unborn (not_lt.mp hge))

section Onward

variable (exec : ℕ → (o : M.Op) → M.Res o → M.World → M.World → Prop)

/-- A thread goes on. -/
inductive Onward : M.State → M.State → Prop
  | exec {s : M.State} {t : ℕ} {k : M.Kind} {o : M.Op} {c : M.Res o → Prog M.Op M.Res (M.Out k)}
      {r : M.Res o} {w : M.World} (ht : s.threads t = .running k (.op o c))
      (h : exec t o r s.world w) :
      Onward s ⟨w, Function.update s.threads t (.running k (c r)), s.born⟩

variable {exec}

theorem Onward.step (hsub : ∀ {t o r w w'}, exec t o r w w' → M.exec t o r w w') {s s' : M.State}
    (h : M.Onward exec s s') : M.Step s s' := by
  cases h with
  | exec ht h => exact .exec ht (hsub h)

/-! ## The descent -/

/-- A thread after one of its operations. -/
inductive Thread.Later : M.Thread → M.Thread → Prop
  | op {k : M.Kind} {o : M.Op} (c : M.Res o → Prog M.Op M.Res (M.Out k)) (r : M.Res o) :
      Later (.running k (c r)) (.running k (.op o c))

theorem Thread.later_wellFounded : WellFounded (Thread.Later (M := M)) := by
  refine ⟨fun x => ?_⟩
  cases x with
  | unborn => exact ⟨_, fun y h => by cases h⟩
  | crashed k => exact ⟨_, fun y h => by cases h⟩
  | running k p =>
    induction p with
    | ret a => exact ⟨_, fun y h => by cases h⟩
    | op o c ih =>
      refine ⟨_, fun y h => ?_⟩
      cases h with
      | op _ r => exact ih r

/-- The threads that have been started. -/
def heads (s : M.State) : Multiset M.Thread := ∑ t ∈ Finset.range s.born, {s.threads t}

theorem Onward.heads {s s' : M.State} (h : M.Onward exec s s')
    (hborn : ∀ t, M.Busy s t → t < s.born) :
    CutExpand Thread.Later (Machine.heads s') (Machine.heads s) := by
  cases h with
  | @exec t k o c r w ht h =>
    have hmem : {t} ⊆ Finset.range s.born :=
      Finset.singleton_subset_iff.mpr (Finset.mem_range.mpr (hborn t ⟨k, o, c, ht⟩))
    let others := ∑ i ∈ Finset.range s.born \ {t}, ({s.threads i} : Multiset M.Thread)
    have hbefore : Machine.heads s = others + {.running k (.op o c)} := by
      rw [← ht]
      unfold Machine.heads
      rw [← Finset.sum_sdiff hmem, Finset.sum_singleton]
    have hafter : Machine.heads (⟨w, Function.update s.threads t (.running k (c r)), s.born⟩ :
        M.State) = others + {.running k (c r)} := by
      unfold Machine.heads
      rw [← Finset.sum_sdiff hmem, Finset.sum_singleton]
      refine congrArg₂ (· + ·) (Finset.sum_congr rfl fun i hi => ?_) ?_
      · have hne : i ≠ t := by simpa using (Finset.mem_sdiff.mp hi).2
        exact congrArg _ (Function.update_of_ne hne _ _)
      · exact congrArg _ (Function.update_self t _ s.threads)
    rw [hbefore, hafter]
    exact cutExpand_add_single _ (.op c r)

/-- **Threads that are left alone return**, in whatever order they go on, if one of them always
can. -/
theorem terminates_onward (hsub : ∀ {t o r w w'}, exec t o r w w' → M.exec t o r w w')
    (hprogress : ∀ {s}, M.Reachable s → ∀ t, M.Busy s t → ∃ s', M.Onward exec s s') {s : M.State}
    (h : M.Reachable s) : Terminates (M.Onward exec) (fun s => ∀ t, ¬M.Busy s t) s := by
  refine .of_descent Thread.later_wellFounded.cutExpand Machine.heads (fun hs hgo => ?_)
    (fun hs hstop t ht => ?_) h
  · exact ⟨hs.step (hgo.step hsub), hgo.heads fun t ht => hs.busy_lt ht⟩
  · obtain ⟨s', hgo⟩ := hprogress hs t ht
    exact hstop s' hgo

end Onward

end Machine

end Effects
