import PaymentProcessing.System.Knowledge

/-!
# Reachable states

What a thread knows is true in every reachable view of the service (`Reachable.knows`). With it
come the facts that hold of every step: rows move along their life cycles (`Step.payments`,
`Step.outbox`).
-/

namespace Payments

open Effects Python Store Relation

variable {R : Runtime} {cfg : Settings}

/-- A view of the service. -/
abbrev View (R : Runtime) (cfg : Settings) : Type := (serviceSpec R cfg).View

/-- What has become of a thread in a view. -/
abbrev Status (R : Runtime) (cfg : Settings) : Type := (serviceSpec R cfg).Status

/-- A thread that is not running has written nothing. -/
def Knowing (w : World) (t : ℕ) : Status R cfg → Prop
  | .active φ => Knows R w t φ
  | _ => w.payments.Wrote t [] ∧ w.outbox.Wrote t []

/-! ## Steps that are not operations -/

theorem Knows.first {w : World} {t : ℕ} (hp : w.payments.Wrote t []) (ho : w.outbox.Wrote t [])
    (k : Kind) : Knows R w t (firstPhase k) := by
  cases k with
  | create command => exact ⟨hp, ho, trivial⟩
  | relay =>
    exact ⟨hp, ho, by simp [RelayPhase.held], by simp [RelayPhase.held], by simp [RelayPhase.held],
      by simp [RelayPhase.time], by simp [RelayPhase.marks]⟩
  | deliver e =>
    exact ⟨hp, ho, by simp [ConsumerPhase.held], by simp [ConsumerPhase.held], trivial,
      by simp [ConsumerPhase.committed]⟩

/-- The database and the clock after a thread has started. -/
theorem Start.same {t : ℕ} {k : Kind} {w w' : World} (h : Start t k w w') :
    w'.clock = w.clock ∧ w'.payments = w.payments ∧ w'.outbox = w.outbox ∧
      w'.journal = w.journal := by
  cases h <;> exact ⟨rfl, rfl, rfl, rfl⟩

/-- The database and the clock after a step of the environment. -/
theorem Environment.same {w w' : World} (h : Environment cfg w w') :
    w.clock ≤ w'.clock ∧ w'.payments = w.payments ∧ w'.outbox = w.outbox ∧
      w'.journal = w.journal := by
  cases h with
  | tick h => exact ⟨h, rfl, rfl, rfl⟩
  | expired h =>
    cases h
    exact ⟨le_rfl, rfl, rfl, rfl⟩
  | _ => exact ⟨le_rfl, rfl, rfl, rfl⟩

theorem Seen.same {t : ℕ} {w w' : World} (hc : w.clock ≤ w'.clock) (hp : w'.payments = w.payments)
    (ho : w'.outbox = w.outbox) : Seen t w w' :=
  ⟨hc, hp ▸ .keep _, ho ▸ .keep _, fun hr => ⟨_, by rw [hp, hr], .refl _⟩⟩

theorem Seen.crash (w : World) (t : ℕ) : Seen t w (w.crash t) :=
  ⟨le_rfl, .rollback _, .rollback _, fun hr => ⟨_, hr, .refl _⟩⟩

/-- What the other threads see of a thread that acts. -/
theorem seen_of_acts {v : View R cfg} {t : ℕ} {w : (service R cfg).World} {y : Status R cfg}
    (h : (serviceSpec R cfg).Acts v t w y) (hk : Knowing v.world t (v.status t)) :
    Seen t v.world w := by
  cases h with
  | start hs _ =>
    obtain ⟨hc, hp, ho, -⟩ := Start.same hs
    exact .same hc.ge hp ho
  | exec ht hm hx =>
    rw [ht] at hk
    exact Exec.seen hx hk
  | crash ht hw =>
    obtain rfl : w = World.crash v.world t := hw
    exact .crash _ _

theorem Knowing.frame {w w' : World} {t t' : ℕ} {y : Status R cfg} (h : Knowing w t y)
    (hs : Seen t' w w') (ht : t ≠ t') : Knowing w' t y := by
  cases y with
  | active φ => exact Knows.frame h hs ht
  | unborn => exact ⟨h.1.frame hs.payments ht, h.2.frame hs.outbox ht⟩
  | crashed => exact ⟨h.1.frame hs.payments ht, h.2.frame hs.outbox ht⟩

/-! ## The invariant -/

/-- Every thread knows what its phase says. -/
theorem knowing {v : View R cfg} (h : (serviceSpec R cfg).Reachable v) (t : ℕ) :
    Knowing v.world t (v.status t) := by
  refine h.threadwise (P := Knowing) ?_ ?_ ?_ ?_ t
  · rintro w t ⟨clock, rfl⟩
    exact ⟨Table.wrote_empty, Table.wrote_empty⟩
  · intro v t w y hv ih ha
    cases ha with
    | start hs hb =>
      have hk := ih v.born
      rw [hb] at hk
      obtain ⟨-, hp, ho, -⟩ := Start.same hs
      exact Knows.first (hp ▸ hk.1) (ho ▸ hk.2) _
    | exec ht hm hx =>
      have hk := ih t
      rw [ht] at hk
      exact Knows.step hk hm hx
    | crash ht hw =>
      obtain rfl : w = World.crash v.world t := hw
      exact ⟨Table.wrote_rollback, Table.wrote_rollback⟩
  · intro v t t' w y hv ih ha htt
    exact (ih t').frame (seen_of_acts ha (ih t)) htt
  · intro w w' t y hk he
    obtain ⟨hc, hp, ho, -⟩ := Environment.same he
    exact hk.frame (.same (t := t + 1) hc hp ho) (Nat.ne_of_lt (Nat.lt_succ_self t))

/-- **What an active thread knows.** -/
theorem knows {v : View R cfg} (h : (serviceSpec R cfg).Reachable v) {t : ℕ} {φ : Phase}
    (ht : v.status t = .active φ) : Knows R v.world t φ := by
  have hk := knowing h t
  rwa [ht] at hk

/-! ## What a step can do -/

section Steps

variable {v v' : View R cfg}

/-- **A payment moves along its life cycle.** -/
theorem step_payments (h : (serviceSpec R cfg).Reachable v) (hs : (serviceSpec R cfg).Step v v')
    {id : UUID} {p : Payment} (hp : v.world.payments.rows id = some p) :
    ∃ p', v'.world.payments.rows id = some p' ∧ p.LifeCycle p' := by
  rcases hs.acts h with ⟨t, y, ha, -⟩ | ⟨he, -⟩
  · exact (seen_of_acts ha (knowing h t)).evolves hp
  · obtain ⟨-, hpay, -⟩ := Environment.same he
    exact ⟨p, by rw [hpay, hp], .refl p⟩

/-- **An outbox message moves along its life cycle.** -/
theorem step_outbox (h : (serviceSpec R cfg).Reachable v) (hs : (serviceSpec R cfg).Step v v')
    {id : UUID} {m : OutboxMessage} (hm : v.world.outbox.rows id = some m) :
    ∃ m', v'.world.outbox.rows id = some m' ∧ m.LifeCycle m' := by
  rcases hs.acts h with ⟨t, y, ha, -⟩ | ⟨he, -⟩
  · cases ha with
    | start hst _ =>
      obtain ⟨-, -, ho, -⟩ := Start.same hst
      exact ⟨m, by rw [ho, hm], .refl m⟩
    | exec ht _ hx => exact Exec.outbox_evolves hx (knows h ht) hm
    | crash ht hw =>
      have hw : v'.world = World.crash v.world t := hw
      exact ⟨m, by rw [hw]; exact hm, .refl m⟩
  · obtain ⟨-, -, ho, -⟩ := Environment.same he
    exact ⟨m, by rw [ho, hm], .refl m⟩

end Steps

/-! ## What a run can do -/

section Runs

variable {v v' : View R cfg}

theorem run_payments (h : (serviceSpec R cfg).Reachable v)
    (hr : ReflTransGen (serviceSpec R cfg).Step v v') {id : UUID} {p : Payment}
    (hp : v.world.payments.rows id = some p) :
    ∃ p', v'.world.payments.rows id = some p' ∧ p.LifeCycle p' := by
  refine (h.along (Q := fun v v' : View R cfg => ∀ id p, v.world.payments.rows id = some p →
    ∃ p', v'.world.payments.rows id = some p' ∧ p.LifeCycle p') ?_ ?_ ?_ hr).1 id p hp
  · exact fun v id p hp => ⟨p, hp, .refl p⟩
  · intro v₁ v₂ v₃ h₁ h₂ id p hp
    obtain ⟨p', hp', hl⟩ := h₁ id p hp
    obtain ⟨p'', hp'', hl'⟩ := h₂ id p' hp'
    exact ⟨p'', hp'', hl.trans hl'⟩
  · exact fun v v' hv hs id p hp => step_payments hv hs hp

theorem run_outbox (h : (serviceSpec R cfg).Reachable v)
    (hr : ReflTransGen (serviceSpec R cfg).Step v v') {id : UUID} {m : OutboxMessage}
    (hm : v.world.outbox.rows id = some m) :
    ∃ m', v'.world.outbox.rows id = some m' ∧ m.LifeCycle m' := by
  refine (h.along (Q := fun v v' : View R cfg => ∀ id m, v.world.outbox.rows id = some m →
    ∃ m', v'.world.outbox.rows id = some m' ∧ m.LifeCycle m') ?_ ?_ ?_ hr).1 id m hm
  · exact fun v id m hm => ⟨m, hm, .refl m⟩
  · intro v₁ v₂ v₃ h₁ h₂ id m hm
    obtain ⟨m', hm', hl⟩ := h₁ id m hm
    obtain ⟨m'', hm'', hl'⟩ := h₂ id m' hm'
    exact ⟨m'', hm'', hl.trans hl'⟩
  · exact fun v v' hv hs id m hm => step_outbox hv hs hm

end Runs

/-! ## Locks -/

/-- A transaction that may have locked a payment is open. -/
def ConsumerPhase.open : ConsumerPhase → Bool
  | .fresh => false
  | .finalized => false
  | .settled => false
  | .failed _ => false
  | .routed => false
  | .requeueing => false
  | .done => false
  | _ => true

/-- The phases of deliveries with an open transaction. -/
def Phase.open : Phase → Bool
  | .consumer _ φ => φ.open
  | _ => false

/-- A transaction ends with its locks, and locks by one operation. -/
theorem Move.closed {φ φ' : Phase} {o : Op} {r : Res o} (hm : Move R cfg φ o r φ')
    (hφ : φ'.open = false) : o = .close ∨ (φ.open = false ∧ ∀ id, o ≠ .selectForUpdate id) := by
  cases hm with
  | api hm => exact .inr ⟨rfl, by cases hm <;> simp⟩
  | relay hm => exact .inr ⟨rfl, by cases hm <;> simp⟩
  | consumer hm => cases hm <;> simp_all [Phase.open, ConsumerPhase.open]

theorem Exec.lock_back {w w' : World} {t : ℕ} {o : Op} {r : Res o} (h : Exec cfg t o r w w')
    (ho : ∀ id, o ≠ .selectForUpdate id) {id : UUID} (hl : w'.payments.lock id = some t) :
    w.payments.lock id = some t := by
  have hrel : w.payments.released t id = some t → w.payments.lock id = some t := by
    unfold Table.released
    split <;> simp
  cases h with
  | locked => exact absurd rfl (ho _)
  | committed => exact hrel hl
  | commitLost => exact hrel hl
  | commitFailed => exact hrel hl
  | rolledBack => exact hrel hl
  | closed => exact hrel hl
  | _ => exact hl

/-- **Payments are locked by open transactions only.** -/
theorem unlocked {v : View R cfg} (h : (serviceSpec R cfg).Reachable v) {t : ℕ}
    (ht : ∀ φ, v.status t = .active φ → φ.open = false) (id : UUID) :
    v.world.payments.lock id ≠ some t := by
  have hreleased : ∀ (T : PaymentTable) (t : ℕ) (id : UUID), T.released t id ≠ some t := by
    intro T t id
    unfold Table.released
    split <;> simp_all
  refine h.threadwise (P := fun w t (y : Status R cfg) => (∀ φ, y = .active φ → φ.open = false) →
    ∀ id, w.payments.lock id ≠ some t) ?_ ?_ ?_ ?_ t ht id
  · rintro w t ⟨clock, rfl⟩ - id
    simp [World.initial, Table.empty]
  · intro v t w y hv ih ha hy id
    cases ha with
    | start hs hb =>
      rw [(Start.same hs).2.1]
      exact ih _ (by simp [hb]) id
    | @exec t φ φ' o r w hst hm hx =>
      rcases hm.closed (hy φ' rfl) with rfl | ⟨hφ, ho⟩
      · cases hx
        exact hreleased _ _ _
      · intro hl
        refine ih t (fun ψ hψ => ?_) id (Exec.lock_back hx ho hl)
        rw [hst] at hψ
        cases hψ
        exact hφ
    | crash hst hw =>
      obtain rfl : w = World.crash v.world t := hw
      exact hreleased _ _ _
  · intro v t t' w y hv ih ha htt hy id hl
    exact ih t' hy id ((seen_of_acts ha (knowing hv t)).payments.lock_back htt hl)
  · intro w w' t y hy he hopen id
    rw [(Environment.same he).2.1]
    exact hy hopen id

end Payments
