import PaymentProcessing.Domain.Instance
import PaymentProcessing.Foundations.Effects.Execution
import PaymentProcessing.System.ConsumerProtocol

/-!
# The settlement of deliveries

A delivery ends with one successful `ack` or one `nack`, never both, and an `ack` comes only after
the fate of the message is fixed. `delivery_settlement_iff` says of which messages this is true: of
all but those whose retry counter is an infinite `double`. `int(…)` of an infinity raises an
`OverflowError`, which `current_attempt` does not catch, and `handle_delivery` reads the counter
before its outer `try` begins.
-/

namespace Payments

open Effects Python

/-! ## Traces of a delivery -/

/-- An `ack` that succeeded. -/
def acknowledged : (o : Op) × Res o → Bool
  | ⟨.ack, .ok _⟩ => true
  | _ => false

/-- A call of `nack`. -/
def givenBack : (o : Op) × Res o → Bool
  | ⟨.nack, _⟩ => true
  | _ => false

/-- The operations that do not settle a delivery. -/
def Unsettling (o : Op) : Prop := o ≠ .ack ∧ o ≠ .nack

section Traces

variable (R : Runtime) (cfg : Settings) (message : Message)

/-- The fate of a message is fixed: `process` has returned, or a publication of the same body to the
retry or the dead-letter exchange has. -/
inductive Decided (tr : Trace Op Res) : Prop
  | processed {event : PaymentCreatedEvent} (h : R.validateEvent message.body = .ok event)
      (hr : (process R cfg event.paymentId).run.Runs tr (.ok ()))
  | routed {p : Publication} (hp : ⟨.publish p, .ok ()⟩ ∈ tr) (hbody : p.message.body = message.body)
      (hex : p.exchange = retryExchange ∨ p.exchange = dlxExchange)

/-- Whenever `ack` is called, the fate of the message is fixed. -/
def AckDecided (tr : Trace Op Res) : Prop :=
  ∀ pre (r : Res .ack), pre ++ [⟨.ack, r⟩] <+: tr → Decided R cfg message pre

/-- A delivery is settled once, and not too early. -/
structure Settled (tr : Trace Op Res) : Prop where
  once : tr.countP acknowledged + tr.countP givenBack = 1
  decided : AckDecided R cfg message tr

end Traces

variable {R : Runtime} {cfg : Settings} {message : Message} {tr : Trace Op Res}

theorem op_of_acknowledged {s : (o : Op) × Res o} (h : acknowledged s = true) : s.1 = .ack := by
  obtain ⟨o, r⟩ := s
  cases o <;> first | rfl | exact absurd h Bool.false_ne_true

theorem op_of_givenBack {s : (o : Op) × Res o} (h : givenBack s = true) : s.1 = .nack := by
  obtain ⟨o, r⟩ := s
  cases o <;> first | rfl | exact absurd h Bool.false_ne_true

theorem countP_unsettling (h : ∀ s ∈ tr, Unsettling s.1) :
    tr.countP acknowledged = 0 ∧ tr.countP givenBack = 0 := by
  constructor
  · exact List.countP_eq_zero.mpr fun s hs hack => (h s hs).1 (op_of_acknowledged hack)
  · exact List.countP_eq_zero.mpr fun s hs hnack => (h s hs).2 (op_of_givenBack hnack)

theorem AckDecided.of_unsettling (h : ∀ s ∈ tr, Unsettling s.1) : AckDecided R cfg message tr :=
  fun _ r hpre => absurd rfl (h ⟨.ack, r⟩ (hpre.subset (by simp))).1

/-- An operation is appended; if it is `ack`, the fate of the message is fixed by then. -/
theorem AckDecided.concat {s : (o : Op) × Res o} (h : AckDecided R cfg message tr)
    (hs : s.1 = .ack → Decided R cfg message tr) : AckDecided R cfg message (tr ++ [s]) := by
  intro pre r hpre
  rcases List.prefix_concat_iff.mp hpre with heq | hpre
  · obtain ⟨rfl, hs'⟩ := List.append_inj' heq rfl
    apply hs
    rw [← List.singleton_inj.mp hs']
  · exact h pre r hpre

theorem unsettling_concat {s : (o : Op) × Res o} (h : ∀ s ∈ tr, Unsettling s.1)
    (hs : Unsettling s.1) : ∀ s' ∈ tr ++ [s], Unsettling s'.1 := by
  intro s' hs'
  rcases List.mem_append.mp hs' with hs' | hs'
  · exact h s' hs'
  · rwa [List.mem_singleton.mp hs']

/-! ## Giving back, acknowledging, routing -/

/-- The delivery is settled when the `except` of `handle_delivery` is over. -/
theorem nack_settles (hacks : tr.countP acknowledged = 0) (hnacks : tr.countP givenBack = 0)
    (h : AckDecided R cfg message tr) :
    nack.wp .tracing (fun _ => Settled R cfg message) (fun _ => Settled R cfg message) tr := by
  refine wp_ask.mpr ?_
  have hset (r : Res .nack) : Settled R cfg message (tr ++ [⟨.nack, r⟩]) := by
    constructor
    · rw [List.countP_append, List.countP_append, hacks, hnacks]
      rfl
    · exact h.concat nofun
  rintro (e | u)
  · exact hset _
  · exact hset _

/-- The delivery is settled when `ack` is called at its place. -/
theorem ack_settles (h : ∀ s ∈ tr, Unsettling s.1) (hd : Decided R cfg message tr) :
    ack.wp .tracing (fun _ => Settled R cfg message)
      (fun _ => nack.wp .tracing (fun _ => Settled R cfg message) fun _ => Settled R cfg message)
      tr := by
  obtain ⟨hacks, hnacks⟩ := countP_unsettling h
  have hdec : AckDecided R cfg message tr := .of_unsettling h
  refine wp_ask.mpr ?_
  rintro (e | u)
  · apply nack_settles
    · rw [List.countP_append, hacks]
      rfl
    · rw [List.countP_append, hnacks]
      rfl
    · exact hdec.concat fun _ => hd
  · constructor
    · rw [List.countP_append, List.countP_append, hacks, hnacks]
      rfl
    · exact hdec.concat fun _ => hd

/-- The delivery is settled when a copy of the message is published and `ack` is called. -/
theorem publish_settles (h : ∀ s ∈ tr, Unsettling s.1) {p : Publication}
    (hbody : p.message.body = message.body)
    (hex : p.exchange = retryExchange ∨ p.exchange = dlxExchange) :
    (publish p >>= fun _ => ack).wp .tracing (fun _ => Settled R cfg message)
      (fun _ => nack.wp .tracing (fun _ => Settled R cfg message) fun _ => Settled R cfg message)
      tr := by
  have hun (r : Res (.publish p)) : ∀ s ∈ tr ++ [⟨.publish p, r⟩], Unsettling s.1 :=
    unsettling_concat h ⟨nofun, nofun⟩
  rw [Action.wp_bind]
  refine wp_ask.mpr ?_
  rintro (e | u)
  · obtain ⟨hacks, hnacks⟩ := countP_unsettling (hun (.error e))
    exact nack_settles hacks hnacks (.of_unsettling (hun _))
  · exact ack_settles (hun _) (.routed (by simp) hbody hex)

/-- A message that failed is routed as a whole. -/
theorem failurePublication_routes (R : Runtime) (cfg : Settings) (message : Message) (attempt : ℕ)
    (error : Exn) :
    (failurePublication R cfg message attempt error).message.body = message.body ∧
      ((failurePublication R cfg message attempt error).exchange = retryExchange ∨
        (failurePublication R cfg message attempt error).exchange = dlxExchange) := by
  unfold failurePublication
  split
  · exact ⟨rfl, .inr rfl⟩
  · split
    · exact ⟨rfl, .inr rfl⟩
    · exact ⟨rfl, .inl rfl⟩

/-! ## What precedes the settlement -/

theorem ask_only {S : Op → Prop} {ε α : Type} {toExn : ε → Exn} {x : Prog Op Res (Except ε α)}
    (h : x.wp (.only S) (fun _ _ => True) ()) : (ask toExn x).Only S := by
  refine wp_ask.mpr (Prog.wp_mono _ h ?_)
  rintro (e | a) ψ - <;> trivial

theorem perform_only {S : Op → Prop} {o : Op} (h : S o) :
    (Prog.perform o : Prog Op Res (Res o)).wp (.only S) (fun _ _ => True) () :=
  ⟨h, fun _ => trivial⟩

theorem selectForUpdate_unsettling (id : UUID) : (selectForUpdate id).Only Unsettling :=
  ask_only (perform_only ⟨nofun, nofun⟩)

theorem updatePayment_unsettling (payment : Payment) : (updatePayment payment).Only Unsettling :=
  ask_only (perform_only ⟨nofun, nofun⟩)

theorem commit_unsettling : commit.Only Unsettling := ask_only (perform_only ⟨nofun, nofun⟩)

theorem close_unsettling : close.Only Unsettling := .lift ⟨nofun, nofun⟩

theorem now_unsettling : now.Only Unsettling := .lift ⟨nofun, nofun⟩

theorem charge_unsettling (c : Charge) : (charge c).Only Unsettling :=
  .bind (.lift ⟨nofun, nofun⟩) fun _ => ask_only (perform_only ⟨nofun, nofun⟩)

theorem finalizePayment_unsettling (id : UUID) : (finalizePayment id).Only Unsettling := by
  unfold finalizePayment
  refine .within (.bind (selectForUpdate_unsettling id) ?_) close_unsettling
  rintro (_ | payment)
  · trivial
  · dsimp only
    split
    · trivial
    · refine .bind (charge_unsettling _) fun result => ?_
      refine .bind now_unsettling fun processedAt => ?_
      exact .bind (updatePayment_unsettling _) fun _ => commit_unsettling

theorem send_unsettling (payment : Payment) : (send R cfg payment).Only Unsettling := by
  unfold send
  split
  · refine .bind (.lift ⟨nofun, nofun⟩) fun _ => .bind (.lift ⟨nofun, nofun⟩) fun answer => ?_
    cases classify answer <;> trivial
  · trivial

theorem deliverWebhook_unsettling (id : UUID) : (deliverWebhook R cfg id).Only Unsettling := by
  unfold deliverWebhook
  refine .within (.bind (selectForUpdate_unsettling id) ?_) close_unsettling
  rintro (_ | payment)
  · trivial
  · dsimp only
    split
    · exact commit_unsettling
    · refine .bind (send_unsettling payment).attempt ?_
      rintro (error | ⟨⟩)
      · exact .bind (updatePayment_unsettling _) fun _ => .bind commit_unsettling fun _ => trivial
      · refine .bind now_unsettling fun deliveredAt => ?_
        exact .bind (updatePayment_unsettling _) fun _ => commit_unsettling

/-- `process` leaves the delivery alone. -/
theorem process_unsettling (R : Runtime) (cfg : Settings) (id : UUID) :
    (process R cfg id).Only Unsettling :=
  .bind (finalizePayment_unsettling id) fun _ => deliverWebhook_unsettling id

/-! ## The delivery -/

/-- Only an infinity is a number that `int(…)` cannot convert. -/
theorem toInt_eq_overflowError_iff (value : FieldValue) :
    value.toInt = .error .overflowError ↔ ∃ negative, value = .double (.infinity negative) := by
  constructor
  · intro h
    cases value with
    | double x =>
      cases x with
      | infinity negative => exact ⟨negative, rfl⟩
      | nan => cases h
      | finite => cases h
    | str s => cases hs : intOfStr s <;> simp [FieldValue.toInt, hs] at h
    | bytes b => cases hb : intOfBytes b <;> simp [FieldValue.toInt, hb] at h
    | _ => cases h
  · rintro ⟨negative, rfl⟩
    rfl

/-- Only an infinite counter keeps `current_attempt` from returning. -/
theorem exists_currentAttempt_iff {headers : Headers} :
    (∃ attempt, currentAttempt headers = .ok attempt) ↔
      ∀ negative, headers retryCountHeader ≠ some (.double (.infinity negative)) := by
  unfold currentAttempt
  cases hvalue : headers retryCountHeader with
  | none => simp
  | some value =>
    have hinf := toInt_eq_overflowError_iff value
    simp only [Option.elim_some, ne_eq, Option.some.injEq]
    rw [← not_exists, ← hinf]
    cases value.toInt with
    | ok n => simp
    | error e => cases e <;> simp

/-- If the counter cannot be read, nothing is done. -/
theorem handleDelivery_of_error (R : Runtime) (cfg : Settings) {message : Message} {error : Exn}
    (h : currentAttempt message.headers = .error error) :
    (handleDelivery R cfg message).run.Runs [] (.error error) := by
  unfold handleDelivery
  rw [h]
  exact .ret _

theorem not_settled_nil {R : Runtime} {cfg : Settings} {message : Message} :
    ¬Settled R cfg message [] := fun h => absurd h.once (by decide)

/-- **Every delivery is settled**, if and only if its retry counter is no infinite double. -/
theorem delivery_settlement_iff (R : Runtime) (cfg : Settings) (message : Message) :
    (∀ tr out, (handleDelivery R cfg message).run.Runs tr out → Settled R cfg message tr) ↔
      ∀ negative, message.headers retryCountHeader ≠ some (.double (.infinity negative)) := by
  rw [← exists_currentAttempt_iff]
  constructor
  · intro h
    cases hattempt : currentAttempt message.headers with
    | ok attempt => exact ⟨attempt, rfl⟩
    | error error =>
      exact absurd (h _ _ (handleDelivery_of_error R cfg hattempt)) not_settled_nil
  · rintro ⟨attempt, hattempt⟩
    have hwp : (handleDelivery R cfg message).wp .tracing (fun _ => Settled R cfg message)
        (fun _ => Settled R cfg message) [] := by
      unfold handleDelivery
      rw [hattempt, Action.wp_bind, Action.wp_ofExcept_ok, Action.wp_tryCatch]
      cases hevent : R.validateEvent message.body with
      | error text => exact publish_settles (by simp) rfl (.inr rfl)
      | ok event =>
        have hun := process_unsettling R cfg event.paymentId
        dsimp only
        rw [Action.wp_bind, Action.wp_attempt, Action.wp_tracing_iff]
        constructor
        · intro tr u hr
          exact ack_settles (hun.runs hr) (.processed hevent hr)
        · intro tr error hr
          obtain ⟨hbody, hex⟩ := failurePublication_routes R cfg message attempt error
          dsimp only
          rw [routeFailure_eq]
          exact publish_settles (hun.runs hr) hbody hex
    rw [Action.wp_tracing_iff] at hwp
    rintro tr (error | u) hr
    · exact hwp.2 tr error hr
    · exact hwp.1 tr u hr

/-- A well-formed event whose retry counter is infinite. -/
def infiniteCounter : Message where
  body := Runtime.transparent.encodeEvent ⟨paymentCreated, 1, 0⟩
  headers := fun key => if key = retryCountHeader then some (.double (.infinity false)) else none
  messageId := none
  correlationId := none

/-- Its delivery ends with an exception before anything is done. -/
theorem delivery_settlement_infinite :
    (∃ error, (handleDelivery Runtime.transparent default infiniteCounter).run.Runs []
      (.error error)) ∧
    ¬∀ tr out, (handleDelivery Runtime.transparent default infiniteCounter).run.Runs tr out →
      Settled Runtime.transparent default infiniteCounter tr := by
  have hattempt : currentAttempt infiniteCounter.headers =
      .error (.overflow (Str.ofString "cannot convert float infinity to integer")) := rfl
  have hrun := handleDelivery_of_error .transparent default hattempt
  exact ⟨⟨_, hrun⟩, fun h => not_settled_nil (h _ _ hrun)⟩

end Payments
