import PaymentProcessing.Services.PaymentService

/-!
# The protocol of a request

The phases of a request to create a payment, seen from the database: nothing is written until the
two new rows are staged together, and they are committed together. `createPayment_follows` says that
`PaymentService.create` keeps to it.
-/

namespace Payments

open Effects Python

variable (R : Runtime) (c : CreatePaymentCommand)

/-- Where a request to create a payment stands. -/
inductive ApiPhase
  /-- Nothing is written. -/
  | idle
  /-- The payment with the key of the request. -/
  | found (p : Payment)
  /-- The rows are inserted. -/
  | staged (fingerprint : Str) (id messageId : UUID) (occurredAt now : Time)
  | created (fingerprint : Str) (id : UUID) (now : Time)
  /-- An exception of the database is on its way to the client. -/
  | failed

/-- The moves of a request. -/
inductive ApiMove : ApiPhase → (o : Op) → Res o → ApiPhase → Prop
  | now (τ : Time) : ApiMove .idle .now τ .idle
  | uuid4 (id : UUID) : ApiMove .idle .uuid4 id .idle
  | missed : ApiMove .idle (.selectByIdempotencyKey c.idempotencyKey) (.ok none) .idle
  | found (p : Payment) :
      ApiMove .idle (.selectByIdempotencyKey c.idempotencyKey) (.ok (some p)) (.found p)
  | selectFailed (e : DbError) :
      ApiMove .idle (.selectByIdempotencyKey c.idempotencyKey) (.error e) .failed
  | inserted {fingerprint : Str} (h : c.fingerprint R = .ok fingerprint) (id messageId : UUID)
      (occurredAt now : Time) :
      ApiMove .idle (.insert (newPayment c fingerprint id) (newOutboxMessage messageId id occurredAt))
        (.ok now) (.staged fingerprint id messageId occurredAt now)
  | insertFailed (p : NewPayment) (m : NewOutboxMessage) (e : DbError) :
      ApiMove .idle (.insert p m) (.error e) .idle
  | committed {fingerprint : Str} {id messageId : UUID} {occurredAt now : Time} (u : Unit) :
      ApiMove (.staged fingerprint id messageId occurredAt now) .commit (.ok u)
        (.created fingerprint id now)
  | conflicted {fingerprint : Str} {id messageId : UUID} {occurredAt now : Time}
      (e : IntegrityError) :
      ApiMove (.staged fingerprint id messageId occurredAt now) .commit (.error (.integrity e)) .idle
  | commitFailed {fingerprint : Str} {id messageId : UUID} {occurredAt now : Time}
      (e : ForeignError) :
      ApiMove (.staged fingerprint id messageId occurredAt now) .commit (.error (.foreign e)) .failed
  | rolledBack {φ : ApiPhase} (h : φ = .idle ∨ φ = .failed ∨ ∃ p, φ = .found p)
      (r : Except DbError Unit) : ApiMove φ .rollback r φ
  | closed {φ : ApiPhase} (h : ∀ f id m τ now, φ ≠ .staged f id m τ now) (u : Unit) :
      ApiMove φ .close u φ

/-- The protocol of a request. -/
abbrev apiProtocol : Protocol Op Res := ⟨ApiPhase, ApiMove R c⟩

/-- What a request ends with. -/
inductive ApiPost : Except Exn CreatePaymentResult → ApiPhase → Prop
  | created {fingerprint : Str} (h : c.fingerprint R = .ok fingerprint) (id : UUID) (now : Time) :
      ApiPost (.ok ⟨(newPayment c fingerprint id).row now, false⟩) (.created fingerprint id now)
  | replayed {p : Payment} (h : c.fingerprint R = .ok p.requestFingerprint) :
      ApiPost (.ok ⟨p, true⟩) (.found p)
  | conflict {p : Payment} {fingerprint : Str} (h : c.fingerprint R = .ok fingerprint)
      (hne : p.requestFingerprint ≠ fingerprint) :
      ApiPost (.error (.idempotencyConflict c.idempotencyKey)) (.found p)
  | error {e : Exn} {φ : ApiPhase} (he : ∀ key, e ≠ .idempotencyConflict key)
      (hφ : φ = .idle ∨ φ = .failed ∨ ∃ p, φ = .found p) : ApiPost (.error e) φ

/-! ## The code follows the protocol -/

variable {R c}

theorem DbError.toExn_ne (e : DbError) (key : Str) : e.toExn ≠ .idempotencyConflict key := by
  cases e <;> simp [DbError.toExn]

theorem FingerprintError.toExn_ne (e : FingerprintError) (key : Str) :
    e.toExn ≠ .idempotencyConflict key := by
  cases e <;> simp [FingerprintError.toExn]

/-- A comparison with the payment that was found ends the request. -/
theorem replay_follows {fingerprint : Str} (h : c.fingerprint R = .ok fingerprint) (p : Payment) :
    (Action.ofExcept (replay p fingerprint c.idempotencyKey)).wp (apiProtocol R c).interface
      (fun a => ApiPost R c (.ok a)) (fun e => ApiPost R c (.error e)) (.found p) := by
  unfold replay
  split
  · rename_i hne
    exact .conflict h hne
  · rename_i heq
    exact .replayed (by rw [h, not_not.mp heq])

theorem failed_follows (e : DbError) : ApiPost R c (.error e.toExn) .failed :=
  .error e.toExn_ne (.inr (.inl rfl))

theorem recover_follows {fingerprint : Str} (h : c.fingerprint R = .ok fingerprint) (e : DbError)
    {φ : ApiPhase} (hφ : φ = .idle ∨ φ = .failed)
    (he : ∀ error, e = .integrity error → φ = .idle) :
    (recover c fingerprint e.toExn).wp (apiProtocol R c).interface
      (fun a => ApiPost R c (.ok a)) (fun e => ApiPost R c (.error e)) φ := by
  have hpost : ApiPost R c (.error e.toExn) φ := .error e.toExn_ne (by tauto)
  cases e with
  | foreign e => exact hpost
  | integrity e =>
    obtain rfl := he e rfl
    simp only [recover, DbError.toExn, Action.wp_bind, wp_rollback]
    refine ⟨fun u => ⟨.idle, .rolledBack (.inl rfl) _, ?_⟩,
      fun e' => ⟨.idle, .rolledBack (.inl rfl) _, .error e'.toExn_ne (.inl rfl)⟩⟩
    split
    · rw [Action.wp_bind, wp_selectByIdempotencyKey]
      refine ⟨fun p => ?_, fun e' => ⟨.failed, .selectFailed e', failed_follows e'⟩⟩
      cases p with
      | none => exact ⟨.idle, .missed, hpost⟩
      | some p => exact ⟨.found p, .found p, replay_follows h p⟩
    · exact hpost

theorem create_follows : (create R c).wp (apiProtocol R c).interface
    (fun a => ApiPost R c (.ok a)) (fun e => ApiPost R c (.error e)) .idle := by
  rw [create, Action.wp_bind]
  cases h : c.fingerprint R with
  | error e => exact .error e.toExn_ne (.inl rfl)
  | ok fingerprint =>
    simp only [Except.mapError, Action.wp_ofExcept_ok, Action.wp_bind, wp_selectByIdempotencyKey]
    refine ⟨fun p => ?_, fun e => ⟨.failed, .selectFailed e, failed_follows e⟩⟩
    cases p with
    | some p => exact ⟨.found p, .found p, replay_follows h p⟩
    | none =>
      refine ⟨.idle, .missed, ?_⟩
      simp only [Action.wp_bind, Action.wp_tryCatch, wp_uuid4, wp_now, wp_insert, wp_commit]
      refine fun id => ⟨.idle, .uuid4 id, fun τ => ⟨.idle, .now τ, fun m => ⟨.idle, .uuid4 m, ?_⟩⟩⟩
      refine ⟨fun now => ⟨_, .inserted h id m τ now, ?_⟩, fun e => ⟨.idle, .insertFailed _ _ e, ?_⟩⟩
      · refine ⟨fun u => ⟨_, .committed u, .created h id now⟩, fun e => ?_⟩
        cases e with
        | integrity e =>
          exact ⟨.idle, .conflicted e, recover_follows h (.integrity e) (.inl rfl) (by simp)⟩
        | foreign e =>
          exact ⟨.failed, .commitFailed e, recover_follows h (.foreign e) (.inr rfl) (by simp)⟩
      · exact recover_follows h e (.inl rfl) (by simp)

/-- A request that raises has nothing staged. -/
theorem ApiPost.not_staged {e : Exn} {φ : ApiPhase} (h : ApiPost R c (.error e) φ) :
    φ = .idle ∨ φ = .failed ∨ ∃ p, φ = .found p := by
  cases h with
  | conflict _ _ => exact .inr (.inr ⟨_, rfl⟩)
  | error _ hφ => exact hφ

theorem ApiPost.closed {r : Except Exn CreatePaymentResult} {φ : ApiPhase} (h : ApiPost R c r φ)
    (u : Unit) : ∃ φ', ApiMove R c φ .close u φ' ∧ ApiPost R c r φ' := by
  refine ⟨φ, .closed ?_ u, h⟩
  rintro f id m τ now rfl
  cases h with
  | error _ hφ => simp at hφ

/-- **A request keeps to its protocol.** -/
theorem createPayment_follows :
    (createPayment R c).run.wp (apiProtocol R c).interface (ApiPost R c) .idle := by
  have hwp : (createPayment R c).wp (apiProtocol R c).interface
      (fun a => ApiPost R c (.ok a)) (fun e => ApiPost R c (.error e)) .idle := by
    simp only [createPayment, withDbSession, Action.wp_within, Action.wp_tryCatch, Action.wp_bind,
      wp_rollback, wp_close, Action.wp_throw]
    refine Action.wp_mono create_follows (fun a ψ hψ => hψ.closed) fun e ψ hψ => ?_
    have hstay := hψ.not_staged
    exact ⟨fun u => ⟨ψ, .rolledBack hstay _, hψ.closed⟩,
      fun e' => ⟨ψ, .rolledBack hstay _, (ApiPost.error e'.toExn_ne hstay).closed⟩⟩
  refine Prog.wp_mono _ hwp ?_
  rintro (e | a) ψ hψ <;> exact hψ

end Payments
