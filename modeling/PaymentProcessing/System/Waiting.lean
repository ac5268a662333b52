import PaymentProcessing.Foundations.Effects.Completion
import PaymentProcessing.System.Invariant

/-!
# Waiting

Two statements of the database wait for other transactions: `SELECT … FOR UPDATE` for the lock on
the row, and the insertion of a payment for a transaction that has inserted one with the same key
and is still open. A transaction that others wait for does not wait itself (`Phase.Holding`), so it
can go on (`exists_smooth`).
-/

namespace Payments

open Effects Python Store

variable {R : Runtime} {cfg : Settings}

/-! ## Operations that do not fail -/

/-- There is a row with the id or the key of a new one. -/
def Taken (w : World) (p : NewPayment) (m : NewOutboxMessage) : Prop :=
  (w.payments.rows p.id).isSome ∨ (w.outbox.rows m.id).isSome ∨
    ∃ id p', w.payments.rows id = some p' ∧ p'.idempotencyKey = p.idempotencyKey

/-- The outcome of an operation when nothing fails: an insertion is refused if the row is there
already, and a delivery cannot be settled a second time. -/
inductive Smooth (w : World) (t : ℕ) : (o : Op) → Res o → Prop
  | now (τ : Time) : Smooth w t .now τ
  | uuid4 (id : UUID) : Smooth w t .uuid4 id
  | selected (key : Str) (x : Option Payment) : Smooth w t (.selectByIdempotencyKey key) (.ok x)
  | inserted (p : NewPayment) (m : NewOutboxMessage) (now : Time) :
      Smooth w t (.insert p m) (.ok now)
  | taken {p : NewPayment} {m : NewOutboxMessage} (h : Taken w p m) (e : IntegrityError) :
      Smooth w t (.insert p m) (.error (.integrity e))
  | locked (id : UUID) (x : Option Payment) : Smooth w t (.selectForUpdate id) (.ok x)
  | batch (limit : ℕ) (now : Time) (rows : List OutboxMessage) :
      Smooth w t (.selectBatchForUpdate limit now) (.ok rows)
  | updatedPayment (p : Payment) : Smooth w t (.updatePayment p) (.ok ())
  | updatedOutbox (rows : List OutboxMessage) : Smooth w t (.updateOutbox rows) (.ok ())
  | committed : Smooth w t .commit (.ok ())
  | rolledBack : Smooth w t .rollback (.ok ())
  | closed (u : Unit) : Smooth w t .close u
  | called (c : Charge) (u : Unit) : Smooth w t (.gatewayCall c) u
  | charged (c : Charge) (result : GatewayResult) : Smooth w t (.gatewayReturn c) (.ok result)
  | posted (q : WebhookRequest) (u : Unit) : Smooth w t (.httpPost q) u
  | answered (q : WebhookRequest) (status : ℕ) : Smooth w t (.httpResponse q) (.ok status)
  | published (p : Publication) : Smooth w t (.publish p) (.ok ())
  | acked : Smooth w t .ack (.ok ())
  | notAcked (h : w.broker.unacked t = false) (e : ForeignError) : Smooth w t .ack (.error e)
  | nacked : Smooth w t .nack (.ok ())
  | notNacked (h : w.broker.unacked t = false) (e : ForeignError) : Smooth w t .nack (.error e)

variable (cfg) in
/-- An operation is executed, and nothing fails. -/
def Smoothly (t : ℕ) (o : Op) (r : Res o) (w w' : World) : Prop :=
  Exec cfg t o r w w' ∧ Smooth w t o r

/-! ## Waiting -/

/-- A statement has to wait until thread `t` has ended its transaction. -/
inductive WaitsFor (w : World) (t : ℕ) : Op → Prop
  | lock {id : UUID} (h : w.payments.lock id = some t) : WaitsFor w t (.selectForUpdate id)
  | payment {p : NewPayment} {m : NewOutboxMessage} {id : UUID} {p' : Payment}
      (h : w.payments.pending t id = some p')
      (hp : id = p.id ∨ p'.idempotencyKey = p.idempotencyKey) : WaitsFor w t (.insert p m)
  | message {p : NewPayment} {m : NewOutboxMessage} {m' : OutboxMessage}
      (h : w.outbox.pending t m.id = some m') : WaitsFor w t (.insert p m)

/-- The phases in which others may wait for a thread. -/
def Phase.Holding : Phase → Prop
  | .api _ (.staged _ _ _ _ _) => True
  | .relay (.flushed _ _ _) => True
  | .consumer _ φ => φ.open
  | _ => False

/-- **Who is waited for does not wait.** -/
theorem Phase.Holding.not_waiting {φ : Phase} (hφ : φ.Holding) {o : Op}
    (hm : ∀ r, ∃ φ', Move R cfg φ o r φ') (w : World) (t : ℕ) : ¬WaitsFor w t o := by
  intro h
  cases h with
  | lock _ =>
    obtain ⟨φ', hm⟩ := hm (.ok none)
    cases hm with
    | api hm => cases hm
    | relay hm => cases hm
    | consumer hm => cases hm <;> simp [Phase.Holding, ConsumerPhase.open] at hφ
  | payment _ _ =>
    obtain ⟨φ', hm⟩ := hm (.ok w.clock)
    cases hm with
    | api hm =>
      cases hm
      exact hφ
    | relay hm => cases hm
    | consumer hm => cases hm
  | message _ =>
    obtain ⟨φ', hm⟩ := hm (.ok w.clock)
    cases hm with
    | api hm =>
      cases hm
      exact hφ
    | relay hm => cases hm
    | consumer hm => cases hm

/-- A thread that has returned holds nothing. -/
theorem Ended.not_holding {k : Kind} {out : Out k} {φ : Phase} (h : Ended R k out φ) :
    ¬φ.Holding := by
  intro hφ
  cases k with
  | create c =>
    obtain ⟨ψ, rfl, hpost⟩ := h
    cases hpost with
    | error _ hψ => rcases hψ with rfl | rfl | ⟨p, rfl⟩ <;> exact hφ
    | _ => exact hφ
  | relay =>
    obtain rfl : φ = .relay .closing := h
    exact hφ
  | deliver e => rcases h with rfl | rfl <;> simp [Phase.Holding, ConsumerPhase.open] at hφ

theorem Phase.holding_of_written {φ : Phase}
    (h : φ.writtenPayments R ≠ [] ∨ φ.writtenMessages R ≠ []) : φ.Holding := by
  cases φ with
  | api c φ =>
    cases φ with
    | staged => trivial
    | _ => simp [writtenPayments, writtenMessages, ApiPhase.writtenPayments,
        ApiPhase.writtenMessages] at h
  | relay φ =>
    cases φ with
    | flushed => trivial
    | _ => simp [writtenPayments, writtenMessages, RelayPhase.written] at h
  | consumer m φ =>
    cases φ with
    | finalFlushed => rfl
    | deliveredFlushed => rfl
    | undeliveredFlushed => rfl
    | _ => simp [writtenPayments, writtenMessages, ConsumerPhase.written] at h

variable {v : View R cfg} {t : ℕ}

/-- **A thread that another waits for holds something.** -/
theorem WaitsFor.holding (h : (serviceSpec R cfg).Reachable v) {o : Op}
    (hw : WaitsFor v.world t o) : ∃ φ, v.status t = .active φ ∧ φ.Holding := by
  by_contra hnone
  push Not at hnone
  have hwrote : v.world.payments.Wrote t [] ∧ v.world.outbox.Wrote t [] := by
    have hk := knowing h t
    cases hst : v.status t with
    | unborn =>
      rw [hst] at hk
      exact hk
    | crashed =>
      rw [hst] at hk
      exact hk
    | active φ =>
      rw [hst] at hk
      have hk : Knows R v.world t φ := hk
      have hw : φ.writtenPayments R = [] ∧ φ.writtenMessages R = [] := by
        by_contra hw
        exact hnone φ hst (Phase.holding_of_written (not_and_or.mp hw))
      exact ⟨hw.1 ▸ hk.payments, hw.2 ▸ hk.outbox⟩
  cases hw with
  | lock hl =>
    refine unlocked h (fun φ hφ => ?_) _ hl
    cases φ with
    | api => rfl
    | relay => rfl
    | consumer m φ => exact Bool.eq_false_iff.mpr (hnone _ hφ)
  | payment hpend _ => simp [hwrote.1 _] at hpend
  | message hpend => simp [hwrote.2 _] at hpend

/-! ## Going on -/

/-- The channel of a delivery was lost. -/
def channelClosed : ForeignError where
  typeName := Str.ofString "ChannelInvalidStateError"
  text := []
  permanent := false
  connectionLike := false

/-- An operation of a thread that waits for nobody can be executed, and nothing fails. -/
theorem exists_smooth (h : (serviceSpec R cfg).Reachable v) {φ : Phase}
    (ht : v.status t = .active φ) {o : Op} (hm : ∀ r, ∃ φ', Move R cfg φ o r φ')
    (hfree : ∀ t' ≠ t, ¬WaitsFor v.world t' o) : ∃ r w, Smoothly cfg t o r v.world w := by
  have hk := knows h ht
  cases o with
  | now => exact ⟨_, _, .now _, .now _⟩
  | uuid4 => exact ⟨(0 : UUID), _, .uuid4 _ _, .uuid4 _⟩
  | selectByIdempotencyKey key =>
    by_cases hkey : ∃ id p, v.world.payments.rows id = some p ∧ p.idempotencyKey = key
    · obtain ⟨id, p, hp, hkey⟩ := hkey
      have hid := v.world.payments.key_rows hp
      exact ⟨_, _, .found (hid.symm ▸ hp) hkey, .selected _ _⟩
    · push Not at hkey
      exact ⟨_, _, .notFound hkey, .selected _ _⟩
  | insert p m =>
    by_cases htaken : Taken v.world p m
    · exact ⟨_, _, .insertFailed _ p m (.integrity ⟨none, none, none, []⟩), .taken htaken _⟩
    · obtain ⟨hp, hmsg, hkey⟩ : v.world.payments.rows p.id = none ∧ v.world.outbox.rows m.id = none ∧
          ∀ id p', v.world.payments.rows id = some p' → p'.idempotencyKey ≠ p.idempotencyKey := by
        simpa [Taken] using htaken
      have hpo : ∀ t' ≠ t, v.world.payments.pending t' p.id = none := fun t' hne => by
        cases hpend : v.world.payments.pending t' p.id with
        | none => rfl
        | some p' => exact absurd (.payment hpend (.inl rfl)) (hfree t' hne)
      have hmo : ∀ t' ≠ t, v.world.outbox.pending t' m.id = none := fun t' hne => by
        cases hpend : v.world.outbox.pending t' m.id with
        | none => rfl
        | some m' => exact absurd (.message hpend) (hfree t' hne)
      exact ⟨_, _, .inserted le_rfl hp hpo hmsg hmo hkey fun t' hne id p' hpend heq =>
        hfree t' hne (.payment hpend (.inr heq)), .inserted p m _⟩
  | selectForUpdate id =>
    cases hp : v.world.payments.rows id with
    | none => exact ⟨_, _, .missing hp, .locked _ _⟩
    | some p =>
      obtain rfl : p.id = id := v.world.payments.key_rows hp
      have hlock : v.world.payments.Free t p.id := by
        cases hl : v.world.payments.lock p.id with
        | none => exact .inl hl
        | some t' =>
          by_cases ht' : t' = t
          · exact .inr (ht' ▸ hl)
          · exact absurd (.lock hl) (hfree t' ht')
      exact ⟨_, _, .locked hlock hp, .locked _ _⟩
  | selectBatchForUpdate limit now =>
    have hsel : Selected v.world.outbox limit now [] :=
      ⟨by simp, by simp, by simp, by simp, by simp, by simp⟩
    exact ⟨_, _, .batch hsel, .batch limit now []⟩
  | updatePayment p =>
    have hlock : v.world.payments.lock p.id = some t := by
      obtain ⟨φ', hm⟩ := hm (.ok ())
      cases hm with
      | api hm => cases hm
      | relay hm => cases hm
      | consumer hm => cases hm <;> exact (ConsumerPhase.Knows.held hk _ rfl).lock
    exact ⟨_, _, .updatedPayment hlock, .updatedPayment p⟩
  | updateOutbox rows =>
    have hlock : ∀ r ∈ rows, v.world.outbox.lock r.id = some t := by
      obtain ⟨φ', hm⟩ := hm (.ok ())
      cases hm with
      | api hm => cases hm
      | consumer hm => cases hm
      | relay hm =>
        cases hm
        intro r hr
        obtain ⟨mark, hmark, rfl⟩ := List.mem_map.mp hr
        rw [Mark.id_result]
        exact (RelayPhase.Knows.held hk mark.row
          (List.mem_append_left _ (List.mem_map_of_mem hmark))).lock
    exact ⟨_, _, .updatedOutbox hlock, .updatedOutbox rows⟩
  | commit => exact ⟨_, _, .committed _, .committed⟩
  | rollback => exact ⟨_, _, .rolledBack _, .rolledBack⟩
  | close => exact ⟨_, _, .closed _, .closed _⟩
  | gatewayCall c => exact ⟨_, _, .called _ c, .called _ _⟩
  | gatewayReturn c => exact ⟨_, _, .charged _ c ⟨.succeeded, none, rfl, by decide⟩, .charged _ _⟩
  | httpPost q => exact ⟨_, _, .posted _ q, .posted _ _⟩
  | httpResponse q => exact ⟨_, _, .answered _ q 200, .answered _ _⟩
  | publish p => exact ⟨_, _, .confirmed _ p, .published p⟩
  | ack =>
    cases hu : v.world.broker.unacked t with
    | true => exact ⟨_, _, .acked hu, .acked⟩
    | false => exact ⟨_, _, .ackFailed _ channelClosed, .notAcked hu _⟩
  | nack =>
    cases hu : v.world.broker.unacked t with
    | true => exact ⟨_, _, .nacked hu, .nacked⟩
    | false => exact ⟨_, _, .nackFailed _ channelClosed, .notNacked hu _⟩

end Payments
