import PaymentProcessing.Foundations.Effects.Machine

/-!
# Runs that end

`Terminates step Q s`: every run from `s` ends, and it ends in a state of `Q`. A run of a program is
covered by the total correctness of the program (`Terminates.of_wp`), and a single run by a possible
execution (`exists_run_of_wp`; `Machine.run_of_wp` for a thread of a machine).
-/

namespace Effects

open Relation

section Terminates

variable {S : Type} {step : S → S → Prop} {Q Q' : S → Prop} {s s' : S}

/-- Every run from a state ends, and ends in a state of `Q`. -/
inductive Terminates (step : S → S → Prop) (Q : S → Prop) : S → Prop
  | stop {s : S} (h : ∀ s', ¬step s s') (hQ : Q s) : Terminates step Q s
  | go {s s' : S} (hs : step s s') (h : ∀ s', step s s' → Terminates step Q s') :
      Terminates step Q s

namespace Terminates

theorem mono (h : Terminates step Q s) (hQ : ∀ s, Q s → Q' s) : Terminates step Q' s := by
  induction h with
  | stop h hs => exact .stop h (hQ _ hs)
  | go hs _ ih => exact .go hs ih

theorem run (h : Terminates step Q s) (hr : ReflTransGen step s s') : Terminates step Q s' := by
  induction hr with
  | refl => exact h
  | tail _ hs ih =>
    cases ih with
    | stop h _ => exact absurd hs (h _)
    | go _ h => exact h _ hs

/-- A run that cannot go on has ended in a state of `Q`. -/
theorem final (h : Terminates step Q s) (hr : ReflTransGen step s s')
    (hstop : ∀ s'', ¬step s' s'') : Q s' := by
  cases h.run hr with
  | stop _ hQ => exact hQ
  | go hs _ => exact absurd hs (hstop _)

/-- **The rule of descent**: every step descends, and where there is no step, `Q` holds. -/
theorem of_descent {X : Type} {r : X → X → Prop} (hr : WellFounded r) {I : S → Prop} (f : S → X)
    (hstep : ∀ {s s'}, I s → step s s' → I s' ∧ r (f s') (f s))
    (hstop : ∀ {s}, I s → (∀ s', ¬step s s') → Q s) (h : I s) : Terminates step Q s := by
  generalize hx : f s = x
  induction x using hr.induction generalizing s with
  | _ x ih =>
    subst hx
    by_cases hs : ∃ s', step s s'
    · obtain ⟨s', hs⟩ := hs
      exact .go hs fun s'' hs' => ih _ (hstep h hs').2 (hstep h hs').1 rfl
    · have hend : ∀ s', ¬step s s' := fun s' hs' => hs ⟨s', hs'⟩
      exact .stop hend (hstop h hend)

/-- **Runs of a program**: if the only steps are those of a program that is totally correct, then it
is enough that the runs from where it returns terminate. -/
theorem of_wp {Op : Type} {Res : Op → Type} {α X : Type} {exec : (o : Op) → Res o → X → X → Prop}
    {C : Prog Op Res α → X → S}
    (hexec : ∀ {o k r x x'}, exec o r x x' → step (C (.op o k) x) (C (k r) x'))
    (honly : ∀ {o k x s'}, step (C (.op o k) x) s' →
      ∃ r x', exec o r x x' ∧ s' = C (k r) x')
    {p : Prog Op Res α} {post : α → X → Prop} {x : X}
    (hp : p.wp (.executing exec) post x)
    (hend : ∀ a x', post a x' → ReflTransGen step (C p x) (C (.ret a) x') →
      Terminates step Q (C (.ret a) x')) :
    Terminates step Q (C p x) := by
  induction p generalizing x with
  | ret a => exact hend a x hp .refl
  | op o k ih =>
    obtain ⟨⟨r, x', hx⟩, hall⟩ := hp
    refine .go (hexec hx) fun s' hs => ?_
    obtain ⟨r, x', hx, rfl⟩ := honly hs
    exact ih r (hall r x' hx) fun a x'' hpost hr => hend a x'' hpost (.head hs hr)

end Terminates

end Terminates

/-! ## Single runs -/

/-- What is possible stays possible when more is. -/
theorem Prog.wp_possible_mono {Op : Type} {Res : Op → Type} {α X : Type}
    {exec exec' : (o : Op) → Res o → X → X → Prop}
    (hexec : ∀ {o r x x'}, exec o r x x' → exec' o r x x') {p : Prog Op Res α}
    {post : α → X → Prop} {x : X} (hp : p.wp (.possible exec) post x) :
    p.wp (.possible exec') post x := by
  induction p generalizing x with
  | ret a => exact hp
  | op o k ih =>
    obtain ⟨r, x', hx, hk⟩ := hp
    exact ⟨r, x', hexec hx, ih r hk⟩

/-- A possible execution of a program is a run, if its operations are steps. -/
theorem exists_run_of_wp {Op : Type} {Res : Op → Type} {α S X : Type} {step : S → S → Prop}
    {exec : (o : Op) → Res o → X → X → Prop} {C : Prog Op Res α → X → S}
    (hexec : ∀ {o k r x x'}, exec o r x x' → step (C (.op o k) x) (C (k r) x'))
    {p : Prog Op Res α} {post : α → X → Prop} {x : X} (hp : p.wp (.possible exec) post x) :
    ∃ a x', post a x' ∧ ReflTransGen step (C p x) (C (.ret a) x') := by
  induction p generalizing x with
  | ret a => exact ⟨a, x, hp, .refl⟩
  | op o k ih =>
    obtain ⟨r, x', hx, hk⟩ := hp
    obtain ⟨a, x'', hpost, hr⟩ := ih r hk
    exact ⟨a, x'', hpost, .head (hexec hx) hr⟩

namespace Machine

variable {M : Machine}

/-- A possible execution of a thread is a run of the machine. -/
theorem run_of_wp {s : M.State} {t : ℕ} {k : M.Kind} {p : Prog M.Op M.Res (M.Out k)}
    {post : M.Out k → M.World → Prop} (ht : s.threads t = .running k p)
    (hp : p.wp (.possible (M.exec t)) post s.world) :
    ∃ a w, post a w ∧
      M.Run s ⟨w, Function.update s.threads t (.running k (.ret a)), s.born⟩ := by
  induction p generalizing s with
  | ret a =>
    refine ⟨a, s.world, hp, ?_⟩
    rw [← ht, Function.update_eq_self]
    exact .refl
  | op o c ih =>
    obtain ⟨r, w, hx, hc⟩ := hp
    obtain ⟨a, w', hpost, hr⟩ := ih r
      (s := ⟨w, Function.update s.threads t (.running k (c r)), s.born⟩) (Function.update_self ..) hc
    refine ⟨a, w', hpost, .head (.exec ht hx) ?_⟩
    rwa [Function.update_idem] at hr

end Machine

end Effects
