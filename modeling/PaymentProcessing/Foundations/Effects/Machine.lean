import Mathlib.Data.Nat.Notation
import Mathlib.Logic.Relation
import Mathlib.Logic.Function.Basic
import Mathlib.Tactic.Choose
import PaymentProcessing.Foundations.Effects.Prog

/-!
# Machines of interleaved threads

A `Machine` runs an unbounded number of threads over one shared world. A thread is started for
some `Kind` of work and runs the code of that kind; a step of the machine starts a thread, executes
one operation of one thread, kills a thread, or changes the world from outside. An operation may
have several outcomes, and one that must wait has none until it may proceed.

A `Machine.Spec` gives each kind of thread a protocol its code follows. The machine then refines
the *view* in which a thread is nothing but its phase (`Reachable.tracked`, `Step.tracked`):
an invariant of the view is an invariant of the machine, and proving it needs the moves of the
protocol only, never the text of a program.
-/

namespace Effects

open Relation

/-- Threads over a shared world. -/
structure Machine where
  Op : Type
  Res : Op → Type
  World : Type
  Kind : Type
  Out : Kind → Type
  /-- The program a thread of this kind runs. -/
  code : (k : Kind) → Prog Op Res (Out k)
  init : World → Prop
  /-- Thread `t` is started for `k`. -/
  start : (t : ℕ) → (k : Kind) → World → World → Prop
  /-- Thread `t` executes an operation and gets a result. -/
  exec : (t : ℕ) → (o : Op) → Res o → World → World → Prop
  /-- Thread `t` is killed. -/
  crash : (t : ℕ) → World → World → Prop
  /-- The world changes while no thread acts. -/
  env : World → World → Prop

namespace Machine

variable (M : Machine)

/-- What has become of a thread. -/
inductive Thread
  | unborn
  | running (k : M.Kind) (p : Prog M.Op M.Res (M.Out k))
  | crashed (k : M.Kind)

/-- A state of the machine; the threads `0, …, born - 1` have been started. -/
structure State where
  world : M.World
  threads : ℕ → M.Thread
  born : ℕ

/-- No thread has been started. -/
def Initial (s : M.State) : Prop :=
  M.init s.world ∧ (∀ t, s.threads t = .unborn) ∧ s.born = 0

/-- One step of the machine. -/
inductive Step : M.State → M.State → Prop
  | start {s : M.State} {k : M.Kind} {w : M.World} (h : M.start s.born k s.world w) :
      Step s ⟨w, Function.update s.threads s.born (.running k (M.code k)), s.born + 1⟩
  | exec {s : M.State} {t : ℕ} {k : M.Kind} {o : M.Op} {c : M.Res o → Prog M.Op M.Res (M.Out k)}
      {r : M.Res o} {w : M.World} (ht : s.threads t = .running k (.op o c))
      (h : M.exec t o r s.world w) :
      Step s ⟨w, Function.update s.threads t (.running k (c r)), s.born⟩
  | crash {s : M.State} {t : ℕ} {k : M.Kind} {p : Prog M.Op M.Res (M.Out k)} {w : M.World}
      (ht : s.threads t = .running k p) (h : M.crash t s.world w) :
      Step s ⟨w, Function.update s.threads t (.crashed k), s.born⟩
  | env {s : M.State} {w : M.World} (h : M.env s.world w) : Step s ⟨w, s.threads, s.born⟩

/-- Any number of steps. -/
def Run : M.State → M.State → Prop := ReflTransGen M.Step

/-- The states of all runs from an initial state. -/
def Reachable (s : M.State) : Prop := ∃ s₀, M.Initial s₀ ∧ M.Run s₀ s

variable {M}

theorem Reachable.run {s s' : M.State} (h : M.Reachable s) (hr : M.Run s s') : M.Reachable s' := by
  obtain ⟨s₀, h₀, h⟩ := h
  exact ⟨s₀, h₀, h.trans hr⟩

theorem Reachable.step {s s' : M.State} (h : M.Reachable s) (hs : M.Step s s') : M.Reachable s' :=
  h.run (.single hs)

/-- A property that holds initially and is preserved by the steps from reachable states holds of
every reachable state. -/
theorem Reachable.induction {I : M.State → Prop} (hinit : ∀ s, M.Initial s → I s)
    (hstep : ∀ s s', M.Reachable s → I s → M.Step s s' → I s') {s : M.State}
    (h : M.Reachable s) : I s := by
  obtain ⟨s₀, h₀, hr⟩ := h
  induction hr with
  | refl => exact hinit _ h₀
  | tail hr hs ih => exact hstep _ _ ⟨s₀, h₀, hr⟩ ih hs

/-- A relation between the states of a run that is reflexive, transitive and holds of the steps
from reachable states holds along every run. -/
theorem Reachable.along {R : M.State → M.State → Prop} (hrefl : ∀ s, R s s)
    (htrans : ∀ s₁ s₂ s₃, R s₁ s₂ → R s₂ s₃ → R s₁ s₃)
    (hstep : ∀ s s', M.Reachable s → M.Step s s' → R s s') {s s' : M.State}
    (h : M.Reachable s) (hr : M.Run s s') : R s s' := by
  induction hr with
  | refl => exact hrefl _
  | tail hr hs ih => exact htrans _ _ _ ih (hstep _ _ (h.run hr) hs)

/-! ## Specifications -/

variable (M) in
/-- A protocol for each kind of thread, and the proof that the code follows it. -/
structure Spec where
  protocol : Protocol M.Op M.Res
  /-- The phase a thread starts in. -/
  first : M.Kind → protocol.Phase
  /-- What holds when a thread returns. -/
  post : (k : M.Kind) → M.Out k → protocol.Phase → Prop
  follows : ∀ k, (M.code k).wp protocol (post k) (first k)

namespace Spec

variable (S : M.Spec)

/-- A phase of the specification. -/
abbrev Phase : Type := S.protocol.Phase

/-- A thread seen as its phase. -/
inductive Status
  | unborn
  | active (φ : S.Phase)
  | crashed

/-- A state of the machine in which the threads are seen as their phases. -/
structure View where
  world : M.World
  status : ℕ → S.Status
  born : ℕ

/-- No thread has been started. -/
def Initial (v : S.View) : Prop :=
  M.init v.world ∧ (∀ t, v.status t = .unborn) ∧ v.born = 0

/-- One step of the view: the moves of the protocol take the place of the code. -/
inductive Step : S.View → S.View → Prop
  | start {v : S.View} {k : M.Kind} {w : M.World} (h : M.start v.born k v.world w) :
      Step v ⟨w, Function.update v.status v.born (.active (S.first k)), v.born + 1⟩
  | exec {v : S.View} {t : ℕ} {φ φ' : S.Phase} {o : M.Op} {r : M.Res o} {w : M.World}
      (ht : v.status t = .active φ) (hm : S.protocol.move φ o r φ')
      (h : M.exec t o r v.world w) :
      Step v ⟨w, Function.update v.status t (.active φ'), v.born⟩
  | crash {v : S.View} {t : ℕ} {φ : S.Phase} {w : M.World}
      (ht : v.status t = .active φ) (h : M.crash t v.world w) :
      Step v ⟨w, Function.update v.status t .crashed, v.born⟩
  | env {v : S.View} {w : M.World} (h : M.env v.world w) : Step v ⟨w, v.status, v.born⟩

/-- The states of all runs of the view. -/
def Reachable (v : S.View) : Prop := ∃ v₀, S.Initial v₀ ∧ ReflTransGen S.Step v₀ v

/-- The code left to a thread follows the protocol from the thread's phase. -/
inductive TracksThread : M.Thread → S.Status → Prop
  | unborn : TracksThread .unborn .unborn
  | running {k : M.Kind} {p : Prog M.Op M.Res (M.Out k)} {φ : S.Phase}
      (h : p.wp S.protocol (S.post k) φ) : TracksThread (.running k p) (.active φ)
  | crashed {k : M.Kind} : TracksThread (.crashed k) .crashed

/-- The view shows the same world, and every thread in a phase its code can continue from. -/
structure Tracks (s : M.State) (v : S.View) : Prop where
  world : v.world = s.world
  thread : ∀ t, S.TracksThread (s.threads t) (v.status t)
  born : v.born = s.born

variable {S}

theorem Tracks.update {s : M.State} {v : S.View} (h : S.Tracks s v) (w : M.World) (n t : ℕ)
    {x : M.Thread} {y : S.Status} (hxy : S.TracksThread x y) :
    S.Tracks ⟨w, Function.update s.threads t x, n⟩ ⟨w, Function.update v.status t y, n⟩ := by
  refine ⟨rfl, fun t' => ?_, rfl⟩
  by_cases ht : t' = t
  · subst ht
    simpa using hxy
  · simpa [ht] using h.thread t'

/-- **Simulation**: the view follows every step of the machine. -/
theorem Tracks.step {s s' : M.State} {v : S.View} (h : S.Tracks s v) (hs : M.Step s s') :
    ∃ v', S.Step v v' ∧ S.Tracks s' v' := by
  cases hs with
  | @start k w hw =>
    rw [← h.born, ← h.world] at hw
    rw [← h.born]
    exact ⟨_, .start hw, h.update _ _ _ (.running (S.follows k))⟩
  | @exec t k o c r w ht hw =>
    have htr := h.thread t
    rw [ht] at htr
    generalize hst : v.status t = y at htr
    cases htr with
    | @running _ _ φ hp =>
      obtain ⟨φ', hm, hk⟩ := hp r
      rw [← h.world] at hw
      rw [← h.born]
      exact ⟨_, .exec hst hm hw, h.update _ _ _ (.running hk)⟩
  | @crash t k p w ht hw =>
    have htr := h.thread t
    rw [ht] at htr
    generalize hst : v.status t = y at htr
    cases htr with
    | running hp =>
      rw [← h.world] at hw
      rw [← h.born]
      exact ⟨_, .crash hst hw, h.update _ _ _ .crashed⟩
  | @env w hw =>
    rw [← h.world] at hw
    rw [← h.born]
    exact ⟨_, .env hw, rfl, h.thread, rfl⟩

/-- Every reachable state of the machine is seen in a reachable view. -/
theorem tracked (S : M.Spec) {s : M.State} (h : M.Reachable s) :
    ∃ v, S.Reachable v ∧ S.Tracks s v := by
  refine h.induction (I := fun s => ∃ v, S.Reachable v ∧ S.Tracks s v) (fun s hs => ?_) ?_
  · obtain ⟨hw, ht, hb⟩ := hs
    refine ⟨⟨s.world, fun _ => .unborn, 0⟩, ⟨_, ⟨hw, fun _ => rfl, rfl⟩, .refl⟩, rfl, fun t => ?_,
      hb.symm⟩
    rw [ht t]
    exact .unborn
  · rintro s s' _ ⟨v, ⟨v₀, h₀, hr⟩, htr⟩ hst
    obtain ⟨v', hv, htr'⟩ := htr.step hst
    exact ⟨v', ⟨v₀, h₀, hr.tail hv⟩, htr'⟩

theorem Reachable.step {v v' : S.View} (h : S.Reachable v) (hs : S.Step v v') : S.Reachable v' := by
  obtain ⟨v₀, h₀, hr⟩ := h
  exact ⟨v₀, h₀, hr.tail hs⟩

theorem Reachable.run {v v' : S.View} (h : S.Reachable v) (hr : ReflTransGen S.Step v v') :
    S.Reachable v' := by
  obtain ⟨v₀, h₀, hr₀⟩ := h
  exact ⟨v₀, h₀, hr₀.trans hr⟩

/-- **The invariant rule**: a property of views that holds initially and is preserved by the steps
from reachable views holds of every reachable view. -/
theorem Reachable.invariant {I : S.View → Prop} (hinit : ∀ v, S.Initial v → I v)
    (hstep : ∀ v v', S.Reachable v → I v → S.Step v v' → I v') {v : S.View}
    (h : S.Reachable v) : I v := by
  obtain ⟨v₀, h₀, hr⟩ := h
  induction hr with
  | refl => exact hinit _ h₀
  | tail hr hs ih => exact hstep _ _ ⟨v₀, h₀, hr⟩ ih hs

/-- A relation between the views of a run, from the steps to the run. -/
theorem Reachable.along {Q : S.View → S.View → Prop} (hrefl : ∀ v, Q v v)
    (htrans : ∀ v₁ v₂ v₃, Q v₁ v₂ → Q v₂ v₃ → Q v₁ v₃)
    (hstep : ∀ v v', S.Reachable v → S.Step v v' → Q v v') {v v' : S.View}
    (h : S.Reachable v) (hr : ReflTransGen S.Step v v') : Q v v' ∧ S.Reachable v' := by
  induction hr with
  | refl => exact ⟨hrefl _, h⟩
  | tail _ hs ih => exact ⟨htrans _ _ _ ih.1 (hstep _ _ ih.2 hs), ih.2.step hs⟩

/-- A run of the machine is seen as a run of the view. -/
theorem Tracks.run {s s' : M.State} {v : S.View} (h : S.Tracks s v) (hr : M.Run s s') :
    ∃ v', ReflTransGen S.Step v v' ∧ S.Tracks s' v' := by
  induction hr with
  | refl => exact ⟨v, .refl, h⟩
  | tail _ hs ih =>
    obtain ⟨v', hv, htr⟩ := ih
    obtain ⟨v'', hv', htr'⟩ := htr.step hs
    exact ⟨v'', hv.tail hv', htr'⟩

/-- A thread that has returned is in a phase of its postcondition. -/
theorem Tracks.ended {s : M.State} {v : S.View} (h : S.Tracks s v) {t : ℕ} {k : M.Kind}
    {out : M.Out k} (ht : s.threads t = .running k (.ret out)) :
    ∃ φ, v.status t = .active φ ∧ S.post k out φ := by
  have htr := h.thread t
  rw [ht] at htr
  generalize hst : v.status t = y at htr
  cases htr with
  | @running _ _ φ hp => exact ⟨φ, rfl, hp⟩

/-- A run from a reachable state is seen as a run from a reachable view. -/
theorem tracked_run (S : M.Spec) {s s' : M.State} (h : M.Reachable s) (hr : M.Run s s') :
    ∃ v v', S.Reachable v ∧ S.Tracks s v ∧ ReflTransGen S.Step v v' ∧ S.Tracks s' v' := by
  obtain ⟨v, hv, htr⟩ := tracked S h
  obtain ⟨v', hrun, htr'⟩ := htr.run hr
  exact ⟨v, v', hv, htr, hrun, htr'⟩

/-- One choice after the other, each of which depends on the one before. -/
theorem exists_sequence {α : Type} {P : ℕ → α → Prop} {r : α → α → Prop} (h₀ : ∃ a, P 0 a)
    (hs : ∀ i a, P i a → ∃ b, P (i + 1) b ∧ r a b) :
    ∃ f : ℕ → α, ∀ i, P i (f i) ∧ r (f i) (f (i + 1)) := by
  obtain ⟨a, ha⟩ := h₀
  choose next hP hr using hs
  let f : (i : ℕ) → { a // P i a } :=
    fun i => Nat.rec ⟨a, ha⟩ (fun i x => ⟨next i x.1 x.2, hP i x.1 x.2⟩) i
  exact ⟨fun i => (f i).1, fun i => ⟨(f i).2, hr i (f i).1 (f i).2⟩⟩

/-- The states of a run, at any moments, are seen as views of one run. -/
theorem tracked_path (S : M.Spec) {path : ℕ → M.State} (h : M.Reachable (path 0))
    (hr : ∀ i, M.Run (path i) (path (i + 1))) :
    ∃ v : ℕ → S.View, ∀ i, (S.Reachable (v i) ∧ S.Tracks (path i) (v i)) ∧
      ReflTransGen S.Step (v i) (v (i + 1)) := by
  refine exists_sequence (P := fun i v => S.Reachable v ∧ S.Tracks (path i) v) (tracked S h) ?_
  rintro i v ⟨hv, htr⟩
  obtain ⟨v', hrun, htr'⟩ := htr.run (hr i)
  exact ⟨v', ⟨hv.run hrun, htr'⟩, hrun⟩

/-! ## Invariants of threads -/

/-- The threads that have not been started are those from `born` on. -/
theorem Reachable.unborn {v : S.View} (h : S.Reachable v) {t : ℕ} :
    v.status t = .unborn ↔ v.born ≤ t := by
  refine h.invariant (I := fun v => ∀ t, v.status t = .unborn ↔ v.born ≤ t) ?_ ?_ t
  · rintro v ⟨-, ht, hb⟩ t
    simp [ht t, hb]
  · intro v v' _ ih hs t
    cases hs with
    | start _ =>
      by_cases htb : t = v.born
      · simp [htb]
      · simp only [Function.update_of_ne htb, ih t]
        omega
    | @exec t' _ _ _ _ _ ht _ _ =>
      by_cases htt : t = t'
      · subst htt
        simpa [ht] using (ih t).not
      · simpa [htt] using ih t
    | @crash t' _ _ ht _ =>
      by_cases htt : t = t'
      · subst htt
        simpa [ht] using (ih t).not
      · simpa [htt] using ih t
    | env _ => exact ih t

/-- Thread `t` acts; `w` and `y` are the world and its status afterwards. -/
inductive Acts (v : S.View) : (t : ℕ) → (w : M.World) → (y : S.Status) → Prop
  | start {k : M.Kind} {w : M.World} (h : M.start v.born k v.world w)
      (hb : v.status v.born = .unborn) : Acts v v.born w (.active (S.first k))
  | exec {t : ℕ} {φ φ' : S.Phase} {o : M.Op} {r : M.Res o} {w : M.World}
      (ht : v.status t = .active φ) (hm : S.protocol.move φ o r φ') (h : M.exec t o r v.world w) :
      Acts v t w (.active φ')
  | crash {t : ℕ} {φ : S.Phase} {w : M.World} (ht : v.status t = .active φ)
      (h : M.crash t v.world w) : Acts v t w .crashed

/-- In a step, one thread acts or the environment does. -/
theorem Step.acts {v v' : S.View} (h : S.Reachable v) (hs : S.Step v v') :
    (∃ t y, S.Acts v t v'.world y ∧ v'.status = Function.update v.status t y) ∨
      (M.env v.world v'.world ∧ v'.status = v.status) := by
  cases hs with
  | start hw => exact .inl ⟨_, _, .start hw (h.unborn.mpr (Nat.le_refl _)), rfl⟩
  | exec ht hm hw => exact .inl ⟨_, _, .exec ht hm hw, rfl⟩
  | crash ht hw => exact .inl ⟨_, _, .crash ht hw, rfl⟩
  | env hw => exact .inr ⟨hw, rfl⟩

/-- **The rule for threads**: a property of each thread holds if a thread that acts establishes it
for itself and does not disturb it for the others. -/
theorem Reachable.threadwise {P : M.World → ℕ → S.Status → Prop}
    (hinit : ∀ w t, M.init w → P w t .unborn)
    (hown : ∀ {v t w y}, S.Reachable v → (∀ t, P v.world t (v.status t)) → S.Acts v t w y → P w t y)
    (hother : ∀ {v t t' w y}, S.Reachable v → (∀ t, P v.world t (v.status t)) → S.Acts v t w y →
      t' ≠ t → P w t' (v.status t'))
    (henv : ∀ {w w' t y}, P w t y → M.env w w' → P w' t y) {v : S.View} (h : S.Reachable v) (t : ℕ) :
    P v.world t (v.status t) := by
  refine h.invariant (I := fun v => ∀ t, P v.world t (v.status t)) ?_ ?_ t
  · rintro v ⟨hw, ht, -⟩ t
    rw [ht t]
    exact hinit _ t hw
  · intro v v' hv ih hs t
    rcases hs.acts hv with ⟨t', y, ha, hst⟩ | ⟨he, hst⟩
    · rw [hst]
      by_cases htt : t = t'
      · subst htt
        rw [Function.update_self]
        exact hown hv ih ha
      · rw [Function.update_of_ne htt]
        exact hother hv ih ha htt
    · rw [hst]
      exact henv (ih t) he

end Spec

end Machine

end Effects
