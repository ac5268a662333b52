import PaymentProcessing.Foundations.Effects.Completion

/-!
# Transactions under a lock

Threads that work on a database one after the other: each takes a lock, makes its statements in a
transaction and commits, and the lock is given back when the transaction ends, however it ends
(`Database.exclusively`). Any number of them may run at the same time, fail and be killed.

What a program does that has the database for itself is `Database.run`. If it succeeds from every
good state and ends in a good one (`Database.Sound`), then the threads are as good as programs that
run alone: what is committed is always good, no statement of any thread is refused, a step commits
nothing or what a whole program does (`Sound.step`, `Sound.reachable`), and threads that are left
alone return (`Sound.terminates`).
-/

namespace Effects

open Relation

/-- A database. -/
structure Database where
  Stmt : Type
  Ans : Stmt → Type
  State : Type
  Error : Type
  /-- What comes of a statement; `none` if it is refused. -/
  apply : (q : Stmt) → State → Option (Ans q × State)

namespace Database

variable (D : Database)

/-! ## Programs -/

/-- What a program gets for a statement. -/
abbrev Reply (q : D.Stmt) : Type := Except D.Error (D.Ans q)

/-- A program that makes statements. -/
abbrev Body (α : Type) : Type := Action D.Stmt D.Reply D.Error α

/-- Make a statement, and raise what it fails with. -/
def query (q : D.Stmt) : D.Body (D.Ans q) := ExceptT.mk (Prog.perform q)

/-- What becomes of a program that has the database for itself; `none` if a statement is refused. -/
def run {α : Type} : Prog D.Stmt D.Reply α → D.State → Option (α × D.State)
  | .ret a, σ => some (a, σ)
  | .op q c, σ => (D.apply q σ).bind fun x => run (c (.ok x.1)) x.2

variable {D}

/-- The program raises what its statements fail with. -/
inductive Strict {α : Type} : Prog D.Stmt D.Reply (Except D.Error α) → Prop
  | ret (out : Except D.Error α) : Strict (.ret out)
  | op {q : D.Stmt} {c : D.Reply q → Prog D.Stmt D.Reply (Except D.Error α)}
      (herr : ∀ e, c (.error e) = .ret (.error e)) (hok : ∀ a, Strict (c (.ok a))) :
      Strict (.op q c)

section Rules

variable {α β : Type}

namespace Strict

theorem pure (a : α) : Strict (Pure.pure a : D.Body α).run := .ret _

theorem throw (e : D.Error) : Strict (throw e : D.Body α).run := .ret _

theorem query (q : D.Stmt) : Strict (D.query q).run := .op (fun _ => rfl) fun a => .ret (.ok a)

theorem bind {x : D.Body α} {f : α → D.Body β} (hx : Strict x.run)
    (hf : ∀ a, Strict (f a).run) : Strict (x >>= f).run := by
  rw [ExceptT.run_bind, Prog.bind_eq]
  generalize x.run = p at hx
  induction hx with
  | ret out =>
    cases out with
    | ok a => exact hf a
    | error e => exact .ret _
  | op herr _ ih =>
    refine .op (fun e => ?_) ih
    rw [herr e]
    rfl

theorem forM {xs : List β} {f : β → D.Body Unit} (hf : ∀ x ∈ xs, Strict (f x).run) :
    Strict (xs.forM f).run := by
  induction xs with
  | nil => exact .ret _
  | cons x xs ih =>
    exact bind (hf x List.mem_cons_self) fun _ => ih fun y hy => hf y (List.mem_cons_of_mem x hy)

end Strict

/-- One program after another. -/
theorem run_bind {x : D.Body α} {f : α → D.Body β} {a : α} {σ σ' : D.State}
    (hx : D.run x.run σ = some (.ok a, σ')) : D.run (x >>= f).run σ = D.run (f a).run σ' := by
  rw [ExceptT.run_bind, Prog.bind_eq]
  generalize x.run = p at hx
  induction p generalizing σ with
  | ret out =>
    cases hx
    rfl
  | op q c ih =>
    rw [run, Option.bind_eq_some_iff] at hx
    obtain ⟨⟨b, mid⟩, happly, hx⟩ := hx
    change (D.apply q σ).bind (fun x => _) = _
    rw [happly, Option.bind_some]
    exact ih _ hx

theorem run_query {q : D.Stmt} {a : D.Ans q} {σ σ' : D.State} (h : D.apply q σ = some (a, σ')) :
    D.run (D.query q).run σ = some (.ok a, σ') := by
  change run D (.op q fun r => .ret r) σ = _
  rw [run, h]
  rfl

end Rules

variable (D)

/-! ## Connections -/

/-- The operations of a connection. -/
inductive SessionOp
  | lock
  | query (q : D.Stmt)
  | commit
  | rollback

/-- What an operation returns. -/
def Value : D.SessionOp → Type
  | .query q => D.Ans q
  | _ => Unit

/-- What a thread gets for an operation. -/
abbrev Result (o : D.SessionOp) : Type := Except D.Error (D.Value o)

/-- A program that uses a connection. -/
abbrev Session (α : Type) : Type := Action D.SessionOp D.Result D.Error α

/-- Perform an operation, and raise what it fails with. -/
def request (o : D.SessionOp) : D.Session (D.Value o) := ExceptT.mk (Prog.perform o)

/-- A program that makes its statements on a connection. -/
def embed {α : Type} : Prog D.Stmt D.Reply α → Prog D.SessionOp D.Result α
  | .ret a => .ret a
  | .op q c => .op (.query q) fun r => embed (c r)

/-- A program in a transaction of its own, under the lock. -/
def exclusively {α : Type} (x : D.Body α) : D.Session α :=
  tryCatch (do
    let _ ← D.request .lock
    let a ← (ExceptT.mk (D.embed x.run) : D.Session α)
    let _ ← D.request .commit
    return a) fun e => do
    let _ ← D.request .rollback
    throw e

/-- The database with the transactions of all threads. -/
structure Locked where
  committed : D.State
  /-- What a transaction sees once it has changed something. -/
  working : ℕ → Option D.State
  holder : Option ℕ

namespace Locked

variable {D} (w : D.Locked) (t : ℕ)

/-- What thread `t` sees. -/
def view : D.State := (w.working t).getD w.committed

/-- Thread `t` has changed something. -/
def write (σ : D.State) : D.Locked :=
  { w with working := Function.update w.working t (some σ) }

/-- The transaction of thread `t` ends, and nothing comes of it. -/
def abort : D.Locked :=
  { w with
    working := Function.update w.working t none
    holder := if w.holder = some t then none else w.holder }

/-- The transaction of thread `t` is committed. -/
def commit : D.Locked := { w.abort t with committed := w.view t }

theorem holder_abort : (w.abort t).holder ≠ some t := by
  unfold abort
  dsimp only
  split
  · simp
  · assumption

theorem holder_abort_of_ne {t t' : ℕ} (hne : t' ≠ t) :
    (w.abort t).holder = some t' ↔ w.holder = some t' := by
  unfold abort
  dsimp only
  split
  · rename_i hw
    simpa [hw] using hne.symm
  · rfl

theorem working_abort : (w.abort t).working t = none := Function.update_self ..

theorem working_abort_of_ne {t t' : ℕ} (hne : t' ≠ t) :
    (w.abort t).working t' = w.working t' := Function.update_of_ne hne _ _

end Locked

/-- **What may come of an operation** of thread `t`. A statement waits for the changes of others; an
operation may fail, and the connection may be lost. -/
inductive Exec (t : ℕ) : (o : D.SessionOp) → D.Result o → D.Locked → D.Locked → Prop
  | locked {w : D.Locked} (h : w.holder = none ∨ w.holder = some t) :
      Exec t .lock (.ok ()) w { w with holder := some t }
  | answered {w : D.Locked} {q : D.Stmt} {a : D.Ans q} {σ : D.State}
      (halone : ∀ t' ≠ t, w.working t' = none) (h : D.apply q (w.view t) = some (a, σ)) :
      Exec t (.query q) (.ok a) w (w.write t σ)
  | committed (w : D.Locked) : Exec t .commit (.ok ()) w (w.commit t)
  /-- The commit took effect, and the answer was lost. -/
  | commitLost (w : D.Locked) (e : D.Error) : Exec t .commit (.error e) w (w.commit t)
  | rolledBack (w : D.Locked) : Exec t .rollback (.ok ()) w (w.abort t)
  | failed {o : D.SessionOp} (w : D.Locked) (h : o ≠ .rollback) (e : D.Error) :
      Exec t o (.error e) w w
  | lost (o : D.SessionOp) (w : D.Locked) (e : D.Error) : Exec t o (.error e) w (w.abort t)

/-- Operations that do not fail. -/
inductive Smoothly (t : ℕ) (o : D.SessionOp) (r : D.Result o) (w w' : D.Locked) : Prop
  | intro (h : D.Exec t o r w w') (a : D.Value o) (hr : r = .ok a)

/-- Any number of threads, each of which runs a program in a transaction under the lock. -/
abbrev sessions {Kind : Type} {Out : Kind → Type} (body : (k : Kind) → D.Body (Out k))
    (InUse : Kind → Prop) (init : D.State → Prop) : Machine where
  Op := D.SessionOp
  Res := D.Result
  World := D.Locked
  Kind := Kind
  Out k := Except D.Error (Out k)
  code k := (D.exclusively (body k)).run
  init w := init w.committed ∧ (∀ t, w.working t = none) ∧ w.holder = none
  start _ k w w' := InUse k ∧ w' = w
  exec := D.Exec
  crash t w w' := w' = w.abort t
  env _ _ := False

/-! ## The protocol of a transaction -/

/-- Where a thread stands. -/
inductive Phase {Kind : Type} (Out : Kind → Type)
  | before (k : Kind)
  /-- It has the lock, and `p` is left of its program. -/
  | inside (k : Kind) (p : Prog D.Stmt D.Reply (Except D.Error (Out k)))
  | failing (k : Kind)
  | ended (k : Kind) (succeeded : Bool)

section Protocol

variable {Kind : Type} {Out : Kind → Type} (body : (k : Kind) → D.Body (Out k))

/-- The moves of a thread. -/
inductive Move : D.Phase Out → (o : D.SessionOp) → D.Result o → D.Phase Out → Prop
  | locked (k : Kind) : Move (.before k) .lock (.ok ()) (.inside k (body k).run)
  | lockFailed (k : Kind) (e : D.Error) : Move (.before k) .lock (.error e) (.failing k)
  | answered (k : Kind) {q : D.Stmt}
      (c : D.Reply q → Prog D.Stmt D.Reply (Except D.Error (Out k))) (a : D.Ans q) :
      Move (.inside k (.op q c)) (.query q) (.ok a) (.inside k (c (.ok a)))
  | queryFailed (k : Kind) {q : D.Stmt}
      (c : D.Reply q → Prog D.Stmt D.Reply (Except D.Error (Out k))) (e : D.Error) :
      Move (.inside k (.op q c)) (.query q) (.error e) (.failing k)
  | committed (k : Kind) (a : Out k) :
      Move (.inside k (.ret (.ok a))) .commit (.ok ()) (.ended k true)
  | commitFailed (k : Kind) (a : Out k) (e : D.Error) :
      Move (.inside k (.ret (.ok a))) .commit (.error e) (.failing k)
  | raised (k : Kind) (e : D.Error) (r : D.Result .rollback) :
      Move (.inside k (.ret (.error e))) .rollback r (.ended k false)
  | rolledBack (k : Kind) (r : D.Result .rollback) :
      Move (.failing k) .rollback r (.ended k false)

/-- The protocol of the threads. -/
abbrev protocol : Protocol D.SessionOp D.Result := ⟨D.Phase Out, D.Move body⟩

variable {D body}

theorem rollback_follows {k : Kind} {φ : D.Phase Out}
    (hm : ∀ r, D.Move body φ .rollback r (.ended k false)) {α : Type} (e : D.Error)
    {ok : α → D.Phase Out → Prop} :
    (do let _ ← D.request .rollback; throw e : D.Session α).wp (D.protocol body) ok
      (fun _ (ψ : D.Phase Out) => ψ = .ended k false) φ := by
  rw [Action.wp_bind]
  intro r
  refine ⟨_, hm r, ?_⟩
  cases r with
  | ok u => rfl
  | error e => rfl

/-- The program of a thread keeps to the protocol, from where it has come to. -/
theorem embed_follows {k : Kind} {p : Prog D.Stmt D.Reply (Except D.Error (Out k))}
    (hp : Strict p) :
    Action.wp (D.protocol body) (ExceptT.mk (D.embed p))
      (fun a (φ : D.Phase Out) => φ = .inside k (.ret (.ok a)))
      (fun e (φ : D.Phase Out) => φ = .failing k ∨ φ = .inside k (.ret (.error e)))
      (Phase.inside k p : D.Phase Out) := by
  induction hp with
  | ret out =>
    cases out with
    | ok a => rfl
    | error e => exact .inr rfl
  | @op q c herr _ ih =>
    intro r
    cases r with
    | ok a => exact ⟨_, .answered k c a, ih a⟩
    | error e =>
      refine ⟨_, .queryFailed k c e, ?_⟩
      change Prog.wp _ (D.embed (c (.error e))) _ _
      rw [herr e]
      exact .inl rfl

/-- A transaction keeps to the protocol. -/
theorem exclusively_follows {k : Kind} (hk : Strict (body k).run) :
    (D.exclusively (body k)).wp (D.protocol body) (fun _ (φ : D.Phase Out) => φ = .ended k true)
      (fun _ (φ : D.Phase Out) => φ = .ended k false) (Phase.before k : D.Phase Out) := by
  rw [exclusively, Action.wp_tryCatch, Action.wp_bind]
  have hfailing : ∀ e : D.Error, (do let _ ← D.request .rollback; throw e : D.Session (Out k)).wp
      (D.protocol body) (fun _ (φ : D.Phase Out) => φ = .ended k true)
      (fun _ (φ : D.Phase Out) => φ = .ended k false) (Phase.failing k : D.Phase Out) :=
    fun e => rollback_follows (.rolledBack k) e
  intro r
  cases r with
  | error e => exact ⟨_, .lockFailed k e, hfailing e⟩
  | ok u =>
    refine ⟨_, .locked k, ?_⟩
    refine (Action.wp_bind ..).mpr (Action.wp_mono (embed_follows hk) ?_ ?_)
    · rintro a φ rfl
      rw [Action.wp_bind]
      intro r
      cases r with
      | ok u => exact ⟨_, .committed k a, rfl⟩
      | error e => exact ⟨_, .commitFailed k a e, hfailing e⟩
    · rintro e φ (rfl | rfl)
      · exact hfailing e
      · exact rollback_follows (.raised k e) e

end Protocol

/-! ## Threads and programs that run alone -/

section Sound

variable {D} {Kind : Type} {Out : Kind → Type} {body : (k : Kind) → D.Body (Out k)}
  {InUse : Kind → Prop} {init Well : D.State → Prop}
  {Since : Kind → D.State → Prop}

/-- The specification of the threads. -/
abbrev sessionSpec (hstrict : ∀ k, Strict (body k).run) :
    (D.sessions body InUse init).Spec where
  protocol := D.protocol body
  first k := .before k
  post k out φ := φ = .ended k out.isOk
  follows k := by
    refine Prog.wp_mono _ (exclusively_follows (hstrict k)) ?_
    rintro (e | a) φ hφ
    · exact hφ
    · exact hφ

variable (body InUse Well Since) in
/-- Programs that have the database for themselves succeed and lead from good states to good ones;
and `Since k` holds from the time at which a program of the kind `k` has committed. -/
structure Sound : Prop where
  strict : ∀ k, Strict (body k).run
  succeeds : ∀ {k : Kind} {σ : D.State}, InUse k → Well σ → ∃ a σ',
    D.run (body k).run σ = some (.ok a, σ') ∧ Well σ' ∧ Since k σ' ∧
      ∀ k', InUse k' → Since k' σ → Since k' σ'

namespace Exec

variable {t t' : ℕ} {o : D.SessionOp} {r : D.Result o} {w w' : D.Locked}

/-- Only a commit changes what is committed. -/
theorem committed_cases (h : D.Exec t o r w w') :
    w'.committed = w.committed ∨ (o = .commit ∧ w' = w.commit t) := by
  cases h with
  | committed => exact .inr ⟨rfl, rfl⟩
  | commitLost => exact .inr ⟨rfl, rfl⟩
  | _ => exact .inl rfl

/-- The transactions of others stay as they are. -/
theorem working_of_ne (h : D.Exec t o r w w') (hne : t' ≠ t) : w'.working t' = w.working t' := by
  cases h with
  | locked => rfl
  | answered => exact Function.update_of_ne hne _ _
  | failed => rfl
  | _ => exact w.working_abort_of_ne hne

/-- So does the lock, if somebody else has it. -/
theorem holder_of_ne (h : D.Exec t o r w w') (hne : t' ≠ t) :
    w'.holder = some t' ↔ w.holder = some t' := by
  cases h with
  | locked h =>
    rcases h with h | h
    · simpa [h] using hne.symm
    · simp [h]
  | answered => rfl
  | failed => rfl
  | _ => exact w.holder_abort_of_ne hne

end Exec

/-- **What is known of a thread**: it has changed something only if it has the lock, and it has the
lock only while it works; its program has come as far as if it had run alone. -/
structure Keeping (body : (k : Kind) → D.Body (Out k)) (InUse : Kind → Prop)
    (Well : D.State → Prop) (Since : Kind → D.State → Prop) (w : D.Locked) (t : ℕ)
    (y : Option (D.Phase Out)) : Prop where
  well : Well w.committed
  alone : w.working t ≠ none → w.holder = some t
  holder : w.holder = some t → (∃ k p, y = some (.inside k p)) ∨ ∃ k, y = some (.failing k)
  before : ∀ k, y = some (.before k) → InUse k
  inside : ∀ k p, y = some (.inside k p) →
    InUse k ∧ w.holder = some t ∧ D.run p (w.view t) = D.run (body k).run w.committed
  since : ∀ k, y = some (.ended k true) → InUse k ∧ Since k w.committed

namespace Keeping

variable {w w' : D.Locked} {t t' : ℕ} {y : Option (D.Phase Out)} {k : Kind}

/-- What a thread commits is what its program does alone. -/
theorem run_eq {a : Out k}
    (h : Keeping body InUse Well Since w t (some (.inside k (.ret (.ok a))))) :
    InUse k ∧ D.run (body k).run w.committed = some (.ok a, w.view t) := by
  obtain ⟨hk, -, hrun⟩ := h.inside k _ rfl
  exact ⟨hk, hrun.symm⟩

theorem commit (hsound : Sound body InUse Well Since) {a : Out k}
    (h : Keeping body InUse Well Since w t (some (.inside k (.ret (.ok a))))) :
    Well (w.view t) ∧ Since k (w.view t) ∧
      ∀ k', InUse k' → Since k' w.committed → Since k' (w.view t) := by
  obtain ⟨hk, hrun⟩ := h.run_eq
  obtain ⟨a', σ', hrun', hend⟩ := hsound.succeeds hk h.well
  obtain ⟨-, rfl⟩ := Prod.mk.inj (Option.some.inj (hrun.symm.trans hrun'))
  exact hend

/-- The next statement of a thread is not refused. -/
theorem accepted (hsound : Sound body InUse Well Since) {q : D.Stmt}
    {c : D.Reply q → Prog D.Stmt D.Reply (Except D.Error (Out k))}
    (h : Keeping body InUse Well Since w t (some (.inside k (.op q c)))) :
    ∃ a σ, D.apply q (w.view t) = some (a, σ) := by
  obtain ⟨hk, -, hrun⟩ := h.inside k _ rfl
  obtain ⟨a, σ', hsucceeds, -⟩ := hsound.succeeds hk h.well
  rw [hsucceeds, run, Option.bind_eq_some_iff] at hrun
  obtain ⟨⟨a, σ⟩, happly, -⟩ := hrun
  exact ⟨a, σ, happly⟩

end Keeping

/-- A thread whose transaction is over. -/
theorem Keeping.of_abort {w' : D.Locked} {t : ℕ} {y : Option (D.Phase Out)}
    (hwell : Well w'.committed) (hholder : w'.holder ≠ some t) (hworking : w'.working t = none)
    (hy : y = none ∨ (∃ k, y = some (.failing k)) ∨ (∃ k, y = some (.ended k false)) ∨
      ∃ k, y = some (.ended k true) ∧ InUse k ∧ Since k w'.committed) :
    Keeping body InUse Well Since w' t y := by
  refine ⟨hwell, fun h => absurd hworking h, fun h => absurd h hholder, ?_, ?_, ?_⟩
  · rintro k rfl
    simp at hy
  · rintro k p rfl
    simp at hy
  · rintro k rfl
    simpa using hy

section Step

variable {w w' : D.Locked} {t t' : ℕ} {φ φ' : D.Phase Out} {o : D.SessionOp} {r : D.Result o}

/-- An operation that fails. -/
theorem Keeping.failing {k : Kind} {e : D.Error} (h : Keeping body InUse Well Since w t (some φ))
    (hx : D.Exec t o (.error e) w w') (ho : o ≠ .commit) :
    Keeping body InUse Well Since w' t (some (.failing k)) := by
  cases hx with
  | commitLost => exact absurd rfl ho
  | failed => exact ⟨h.well, h.alone, fun _ => .inr ⟨k, rfl⟩, by simp, by simp, by simp⟩
  | lost => exact .of_abort h.well (w.holder_abort t) (w.working_abort t) (.inr (.inl ⟨k, rfl⟩))

/-- What is known of a thread when it goes on. -/
theorem Keeping.move (hsound : Sound body InUse Well Since)
    (h : Keeping body InUse Well Since w t (some φ)) (hm : D.Move body φ o r φ')
    (hx : D.Exec t o r w w') : Keeping body InUse Well Since w' t (some φ') := by
  cases hm with
  | locked k =>
    cases hx
    have hnot : w.holder ≠ some t := fun hw => by simpa using h.holder hw
    have hview : w.view t = w.committed := by
      have hnone : w.working t = none := by
        by_contra hsome
        exact hnot (h.alone hsome)
      rw [Locked.view, hnone, Option.getD_none]
    refine ⟨h.well, fun _ => rfl, fun _ => .inl ⟨k, _, rfl⟩, by simp, ?_, by simp⟩
    intro k' p heq
    cases heq
    exact ⟨h.before k rfl, rfl, congrArg (D.run (body k).run) hview⟩
  | lockFailed => exact h.failing hx (by simp)
  | answered k c a =>
    cases hx with
    | answered _ happly =>
      obtain ⟨hk, hw, hrun⟩ := h.inside k _ rfl
      refine ⟨h.well, fun _ => hw, fun _ => .inl ⟨k, _, rfl⟩, by simp, ?_, by simp⟩
      intro k' p heq
      cases heq
      refine ⟨hk, hw, ?_⟩
      rw [run, happly] at hrun
      simpa [Locked.view, Locked.write] using hrun
  | queryFailed => exact h.failing hx (by simp)
  | committed k a =>
    cases hx
    obtain ⟨hwell, hsince, -⟩ := h.commit hsound
    exact .of_abort hwell (w.holder_abort t) (w.working_abort t)
      (.inr (.inr (.inr ⟨k, rfl, h.run_eq.1, hsince⟩)))
  | commitFailed k a e =>
    cases hx with
    | commitLost =>
      exact .of_abort (h.commit hsound).1 (w.holder_abort t) (w.working_abort t)
        (.inr (.inl ⟨k, rfl⟩))
    | failed => exact ⟨h.well, h.alone, fun _ => .inr ⟨k, rfl⟩, by simp, by simp, by simp⟩
    | lost =>
      exact .of_abort h.well (w.holder_abort t) (w.working_abort t) (.inr (.inl ⟨k, rfl⟩))
  | raised k =>
    have hend : Keeping body InUse Well Since (w.abort t) t (some (.ended k false)) :=
      .of_abort h.well (w.holder_abort t) (w.working_abort t) (.inr (.inr (.inl ⟨k, rfl⟩)))
    cases hx with
    | rolledBack => exact hend
    | failed _ hne => exact absurd rfl hne
    | lost => exact hend
  | rolledBack k =>
    have hend : Keeping body InUse Well Since (w.abort t) t (some (.ended k false)) :=
      .of_abort h.well (w.holder_abort t) (w.working_abort t) (.inr (.inr (.inl ⟨k, rfl⟩)))
    cases hx with
    | rolledBack => exact hend
    | failed _ hne => exact absurd rfl hne
    | lost => exact hend

/-- A thread that commits is done with its program. -/
theorem Move.committing {r : D.Result .commit} (hm : D.Move body φ .commit r φ') :
    ∃ k a, φ = .inside k (.ret (.ok a)) := by
  cases hm with
  | committed k a => exact ⟨k, a, rfl⟩
  | commitFailed k a => exact ⟨k, a, rfl⟩

/-- What is known of a thread, if it is left alone. -/
theorem Keeping.frame {y : Option (D.Phase Out)} (h : Keeping body InUse Well Since w t y)
    (hsame : w'.committed = w.committed) (hworking : w'.working t = w.working t)
    (hholder : w'.holder = some t ↔ w.holder = some t) :
    Keeping body InUse Well Since w' t y := by
  have hview : w'.view t = w.view t := by rw [Locked.view, Locked.view, hworking, hsame]
  refine ⟨hsame ▸ h.well, fun hw => hholder.mpr (h.alone (hworking ▸ hw)),
    fun hw => h.holder (hholder.mp hw), h.before, ?_, ?_⟩
  · intro k p heq
    obtain ⟨hk, hw, hrun⟩ := h.inside k p heq
    exact ⟨hk, hholder.mpr hw, by rw [hview, hsame, hrun]⟩
  · rw [hsame]
    exact h.since

/-- What is known of the other threads meanwhile. -/
theorem Keeping.other {y : Option (D.Phase Out)} (hsound : Sound body InUse Well Since)
    (h : Keeping body InUse Well Since w t' y) (ht : Keeping body InUse Well Since w t (some φ))
    (hm : D.Move body φ o r φ') (hx : D.Exec t o r w w') (hne : t' ≠ t) :
    Keeping body InUse Well Since w' t' y := by
  have hworking := hx.working_of_ne hne
  have hholder := hx.holder_of_ne hne
  rcases hx.committed_cases with hsame | ⟨rfl, rfl⟩
  · exact h.frame hsame hworking hholder
  · obtain ⟨k, a, rfl⟩ := hm.committing
    obtain ⟨hwell, -, hkept⟩ := ht.commit hsound
    have hmine : w.holder ≠ some t' := by
      rw [(ht.inside k _ rfl).2.1]
      exact fun heq => hne (Option.some.inj heq).symm
    refine ⟨hwell, fun hw => absurd (h.alone (hworking ▸ hw)) hmine,
      fun hw => absurd (hholder.mp hw) hmine, h.before, ?_, ?_⟩
    · exact fun k' p heq => absurd (h.inside k' p heq).2.1 hmine
    · intro k' heq
      obtain ⟨hk, hsince⟩ := h.since k' heq
      exact ⟨hk, hkept k' hk hsince⟩

end Step

/-- The phase of a thread that goes on. -/
def phaseOf {hstrict : ∀ k, Strict (body k).run} :
    (sessionSpec hstrict : (D.sessions body InUse init).Spec).Status → Option (D.Phase Out)
  | .active φ => some φ
  | _ => none

theorem keeping (hsound : Sound body InUse Well Since) (hinit : ∀ σ, init σ → Well σ)
    {v : (sessionSpec hsound.strict : (D.sessions body InUse init).Spec).View}
    (h : Machine.Spec.Reachable _ v) (t : ℕ) :
    Keeping body InUse Well Since v.world t (phaseOf (v.status t)) := by
  refine h.threadwise (P := fun w t y => Keeping body InUse Well Since w t (phaseOf y))
    ?_ ?_ ?_ ?_ t
  · intro w t ⟨hw, hworking, hholder⟩
    exact .of_abort (hinit _ hw) (by simp [hholder]) (hworking t) (.inl rfl)
  · intro v t w y hv hall ha
    cases ha with
    | @start k _ hw hb =>
      obtain ⟨hk, rfl⟩ := hw
      have hkeep := hall v.born
      rw [hb] at hkeep
      have hnot : v.world.holder ≠ some v.born := fun hw => by simpa [phaseOf] using hkeep.holder hw
      refine ⟨hkeep.well, hkeep.alone, fun hw => absurd hw hnot, ?_, ?_, ?_⟩
      · intro k' heq
        cases heq
        exact hk
      · intro k' p heq
        cases heq
      · intro k' heq
        cases heq
    | exec ht hm hx =>
      have hkeep := hall t
      rw [ht] at hkeep
      exact hkeep.move hsound hm hx
    | crash ht hw =>
      obtain rfl := hw
      exact .of_abort (hall t).well (v.world.holder_abort t) (v.world.working_abort t) (.inl rfl)
  · intro v t t' w y hv hall ha hne
    cases ha with
    | start hw _ =>
      obtain ⟨-, rfl⟩ := hw
      exact hall t'
    | exec ht hm hx =>
      have hkeep := hall t
      rw [ht] at hkeep
      exact (hall t').other hsound hkeep hm hx hne
    | crash ht hw =>
      obtain rfl := hw
      exact (hall t').frame rfl (v.world.working_abort_of_ne hne) (v.world.holder_abort_of_ne hne)
  · intro w w' t y _ he
    exact he.elim

/-- A thread that has the lock, or had it, can go on. -/
theorem exists_smooth (hsound : Sound body InUse Well Since) {w : D.Locked}
    {y : ℕ → Option (D.Phase Out)} (hall : ∀ t, Keeping body InUse Well Since w t (y t)) {t : ℕ}
    {φ φ' : D.Phase Out} (hφ : y t = some φ) {o : D.SessionOp} {r : D.Result o}
    (hm : D.Move body φ o r φ') (hbefore : o ≠ .lock) :
    ∃ a w', D.Smoothly t o (.ok a) w w' := by
  have hkeep := hall t
  rw [hφ] at hkeep
  have hquery : ∀ {k : Kind} {q : D.Stmt}
      {c : D.Reply q → Prog D.Stmt D.Reply (Except D.Error (Out k))},
      φ = .inside k (.op q c) → ∃ a w', D.Smoothly t (.query q) (.ok a) w w' := by
    rintro k q c rfl
    obtain ⟨a, σ, happly⟩ := hkeep.accepted hsound
    refine ⟨a, _, .intro (.answered (fun t' hne => ?_) happly) a rfl⟩
    by_contra hsome
    have hother := (hall t').alone hsome
    rw [(hkeep.inside k _ rfl).2.1] at hother
    exact hne (Option.some.inj hother).symm
  cases hm with
  | locked => exact absurd rfl hbefore
  | lockFailed => exact absurd rfl hbefore
  | answered => exact hquery rfl
  | queryFailed => exact hquery rfl
  | committed => exact ⟨(), _, .intro (.committed w) () rfl⟩
  | commitFailed => exact ⟨(), _, .intro (.committed w) () rfl⟩
  | raised => exact ⟨(), _, .intro (.rolledBack w) () rfl⟩
  | rolledBack => exact ⟨(), _, .intro (.rolledBack w) () rfl⟩

section Reachable

variable {s s' : (D.sessions body InUse init).State}

/-- **A step commits nothing, or what a whole program does.** -/
theorem Sound.step (hsound : Sound body InUse Well Since) (hinit : ∀ σ, init σ → Well σ)
    (h : (D.sessions body InUse init).Reachable s) (hs : (D.sessions body InUse init).Step s s') :
    s'.world.committed = s.world.committed ∨
      ∃ k a, InUse k ∧ D.run (body k).run s.world.committed = some (.ok a, s'.world.committed) := by
  obtain ⟨v, hv, htr⟩ := Machine.Spec.tracked (sessionSpec hsound.strict) h
  obtain ⟨v', hs', htr'⟩ := htr.step hs
  rw [← htr.world, ← htr'.world]
  cases hs' with
  | start hw => exact .inl (congrArg Locked.committed hw.2)
  | @exec t φ φ' o r w ht hm hx =>
    rcases hx.committed_cases with hsame | ⟨rfl, rfl⟩
    · exact .inl hsame
    · obtain ⟨k, a, rfl⟩ := hm.committing
      have hkeep := keeping hsound hinit hv t
      rw [ht] at hkeep
      obtain ⟨hk, hrun⟩ := hkeep.run_eq
      exact .inr ⟨k, a, hk, hrun⟩
  | crash _ hw =>
    obtain rfl := hw
    exact .inl rfl
  | env he => exact he.elim

variable [Nonempty D.Error]

/-- Where a thread that has something left to do stands. -/
theorem exists_move {hstrict : ∀ k, Strict (body k).run}
    {v : (sessionSpec hstrict : (D.sessions body InUse init).Spec).View}
    (htr : Machine.Spec.Tracks _ s v) {t : ℕ} {k : Kind} {o : D.SessionOp}
    {c : D.Result o → Prog D.SessionOp D.Result (Except D.Error (Out k))}
    (ht : s.threads t = .running k (.op o c)) :
    ∃ φ e φ', phaseOf (v.status t) = some φ ∧ D.Move body φ o (.error e) φ' := by
  have hthread := htr.thread t
  rw [ht] at hthread
  generalize v.status t = y at hthread
  cases hthread with
  | @running _ _ φ hp =>
    obtain ⟨e⟩ : Nonempty D.Error := inferInstance
    obtain ⟨φ', hm, -⟩ := hp (.error e)
    exact ⟨φ, e, φ', rfl, hm⟩

/-- A thread that has the lock has something left to do. -/
theorem exists_op {hstrict : ∀ k, Strict (body k).run}
    {v : (sessionSpec hstrict : (D.sessions body InUse init).Spec).View}
    (htr : Machine.Spec.Tracks _ s v) {t : ℕ}
    (hφ : (∃ k p, phaseOf (v.status t) = some (.inside k p)) ∨
      ∃ k, phaseOf (v.status t) = some (.failing k)) :
    ∃ (k : Kind) (o : D.SessionOp)
      (c : D.Result o → Prog D.SessionOp D.Result (Except D.Error (Out k))),
      s.threads t = .running k (.op o c) ∧ o ≠ .lock := by
  have hthread := htr.thread t
  generalize v.status t = y at hthread hφ
  generalize s.threads t = x at hthread
  cases hthread with
  | unborn => simp [phaseOf] at hφ
  | crashed => simp [phaseOf] at hφ
  | @running k p φ hp =>
    cases p with
    | ret out =>
      obtain rfl : φ = .ended k out.isOk := hp
      simp [phaseOf] at hφ
    | op o c =>
      refine ⟨k, o, c, rfl, ?_⟩
      rintro rfl
      obtain ⟨e⟩ : Nonempty D.Error := inferInstance
      obtain ⟨φ', hm, -⟩ := hp (.error e)
      cases hm
      simp [phaseOf] at hφ

/-- **Transactions under a lock are as good as programs that run alone**: what is committed is good,
no statement is refused, and what a program has established holds once its thread has returned. -/
theorem Sound.reachable (hsound : Sound body InUse Well Since) (hinit : ∀ σ, init σ → Well σ)
    (h : (D.sessions body InUse init).Reachable s) :
    Well s.world.committed ∧
    (∀ t k q c, s.threads t = .running k (.op (.query q) c) →
      ∃ a σ, D.apply q (s.world.view t) = some (a, σ)) ∧
    ∀ t k a, s.threads t = .running k (.ret (.ok a)) → Since k s.world.committed := by
  obtain ⟨v, hv, htr⟩ := Machine.Spec.tracked (sessionSpec hsound.strict) h
  have hall := keeping hsound hinit hv
  rw [htr.world] at hall
  refine ⟨(hall 0).well, fun t k q c ht => ?_, fun t k a ht => ?_⟩
  · obtain ⟨φ, e, φ', hφ, hm⟩ := exists_move htr ht
    have hkeep := hall t
    rw [hφ] at hkeep
    cases hm
    exact hkeep.accepted hsound
  · obtain ⟨φ, hφ, hend⟩ := htr.ended ht
    have hkeep := hall t
    rw [hφ] at hkeep
    exact (hkeep.since k (congrArg some hend)).2

/-- **There is no deadlock**: if no thread is started or killed and nothing fails, then all threads
return, whatever the order. -/
theorem Sound.terminates (hsound : Sound body InUse Well Since) (hinit : ∀ σ, init σ → Well σ)
    (h : (D.sessions body InUse init).Reachable s) :
    Terminates ((D.sessions body InUse init).Onward fun t o r => D.Smoothly t o r)
      (fun s' => ∀ t, ¬(D.sessions body InUse init).Busy s' t) s := by
  refine Machine.terminates_onward (fun hx => hx.1) (fun {s} hs t ht => ?_) h
  obtain ⟨v, hv, htr⟩ := Machine.Spec.tracked (sessionSpec hsound.strict) hs
  have hall := keeping hsound hinit hv
  rw [htr.world] at hall
  -- A thread that waits for the lock waits for the one that has it.
  have hgo : ∀ {t k o} {c : D.Result o → Prog D.SessionOp D.Result (Except D.Error (Out k))},
      s.threads t = .running k (.op o c) → o ≠ .lock →
      ∃ s', (D.sessions body InUse init).Onward (fun t o r => D.Smoothly t o r) s s' := by
    intro t k o c ht ho
    obtain ⟨φ, e, φ', hφ, hm⟩ := exists_move htr ht
    obtain ⟨a, w', hx⟩ := exists_smooth hsound hall hφ hm ho
    exact ⟨_, .exec ht hx⟩
  obtain ⟨k, o, c, ht⟩ := ht
  by_cases ho : o = .lock
  · subst ho
    by_cases hfree : s.world.holder = none
    · exact ⟨_, .exec ht (.intro (.locked (.inl hfree)) () rfl)⟩
    · obtain ⟨t', ht'⟩ := Option.ne_none_iff_exists'.mp hfree
      obtain ⟨k', o', c', ht'', ho'⟩ := exists_op htr ((hall t').holder ht')
      exact hgo ht'' ho'
  · exact hgo ht ho

end Reachable

/-! ## Transactions that are made -/

variable (D) in
/-- What a thread that has the lock does. -/
def unlocked {α : Type} (p : Prog D.Stmt D.Reply (Except D.Error α)) : D.Session α :=
  tryCatch (do
    let a ← (ExceptT.mk (D.embed p) : D.Session α)
    let _ ← D.request .commit
    return a) fun e => do
    let _ ← D.request .rollback
    throw e

/-- A thread that is left alone with its program commits what the program does. -/
theorem run_unlocked {k : Kind} {p : Prog D.Stmt D.Reply (Except D.Error (Out k))}
    {s : (D.sessions body InUse init).State} {t : ℕ} {a : Out k} {σ' : D.State}
    (ht : s.threads t = .running k (D.unlocked p).run)
    (halone : ∀ t' ≠ t, s.world.working t' = none)
    (h : D.run p (s.world.view t) = some (.ok a, σ')) :
    ∃ s', (D.sessions body InUse init).Run s s' ∧ s'.threads t = .running k (.ret (.ok a)) ∧
      s'.world.committed = σ' := by
  induction p generalizing s with
  | ret out =>
    obtain ⟨rfl, rfl⟩ := Prod.mk.inj (Option.some.inj h)
    exact ⟨_, .single (.exec ht (.committed s.world)), Function.update_self .., rfl⟩
  | op q c ih =>
    rw [run, Option.bind_eq_some_iff] at h
    obtain ⟨⟨b, mid⟩, happly, h⟩ := h
    have hview : (s.world.write t mid).view t = mid := by simp [Locked.view, Locked.write]
    obtain ⟨s', hrun, hs'⟩ := ih (.ok b) (s := ⟨s.world.write t mid,
      Function.update s.threads t (.running k (D.unlocked (c (.ok b))).run), s.born⟩)
      (Function.update_self ..) (fun t' hne => (Function.update_of_ne hne ..).trans (halone t' hne))
      (by rwa [hview])
    exact ⟨s', .head (.exec ht (.answered halone happly)) hrun, hs'⟩

/-- **A transaction can be made**: what a program does alone is committed in some run. -/
theorem exists_commit {k : Kind} {a : Out k} {σ σ' : D.State} (hσ : init σ) (hk : InUse k)
    (h : D.run (body k).run σ = some (.ok a, σ')) :
    ∃ s, (D.sessions body InUse init).Reachable s ∧ s.threads 0 = .running k (.ret (.ok a)) ∧
      s.world.committed = σ' := by
  let s₀ : (D.sessions body InUse init).State := ⟨⟨σ, fun _ => none, none⟩, fun _ => .unborn, 0⟩
  have h₀ : (D.sessions body InUse init).Initial s₀ := ⟨⟨hσ, fun _ => rfl, rfl⟩, fun _ => rfl, rfl⟩
  let s₁ : (D.sessions body InUse init).State :=
    ⟨s₀.world, Function.update s₀.threads 0 (.running k (D.exclusively (body k)).run), 1⟩
  let s₂ : (D.sessions body InUse init).State :=
    ⟨{ s₀.world with holder := some 0 },
      Function.update s₁.threads 0 (.running k (D.unlocked (body k).run).run), 1⟩
  have h₁ : (D.sessions body InUse init).Step s₀ s₁ := .start ⟨hk, rfl⟩
  have hlock : D.Exec 0 .lock (.ok ()) s₁.world s₂.world := .locked (.inl rfl)
  have ht : s₁.threads 0 = .running k (D.exclusively (body k)).run := by simp [s₁]
  have h₂ := Machine.Step.exec ht hlock
  obtain ⟨s, hrun, hs⟩ := run_unlocked (s := s₂) (t := 0) (by simp [s₂]) (fun _ _ => rfl) h
  exact ⟨s, ⟨s₀, h₀, .head h₁ (.head h₂ hrun)⟩, hs⟩
end Sound

end Database

end Effects
