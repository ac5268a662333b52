import PaymentProcessing.Outbox.Relay

/-!
# The protocol of the relay

The phases of one call of `publish_pending_batch`. The rows of the batch are published one after
the other, every outcome is noted with the time at which the relay looked at the clock, and the
notes are written and committed together at the end. `publishPendingBatch_follows` says that the
code keeps to it.
-/

namespace Payments

open Effects Python

variable (R : Runtime) (limit : ℕ)

/-- What the relay notes about a publication, and the time it reads then. -/
inductive Note
  | published (now : Time)
  | postponed (error : Exn) (now : Time)

/-- A row of the batch that has been dealt with. -/
structure Mark where
  row : OutboxMessage
  note : Note

/-- The changed row. -/
def Mark.result (m : Mark) : OutboxMessage :=
  match m.note with
  | .published now => m.row.published now
  | .postponed error now =>
    m.row.postponed (errorText R error) (now + backoff (m.row.attempts + 1))

/-- Where a call of `publish_pending_batch` stands. -/
inductive RelayPhase
  | fresh
  | timed (now : Time)
  | batch (now : Time) (done : List Mark) (todo : List OutboxMessage)
  | confirmed (now : Time) (done : List Mark) (row : OutboxMessage) (todo : List OutboxMessage)
  | postponed (now : Time) (done : List Mark) (row : OutboxMessage) (error : Exn)
      (todo : List OutboxMessage)
  | flushed (now : Time) (done : List Mark) (todo : List OutboxMessage)
  /-- The notes could not be written. -/
  | unflushed (now : Time) (done : List Mark) (todo : List OutboxMessage)
  /-- The transaction is over, or it will be undone and has done nothing. -/
  | closing

/-- The moves of the relay. -/
inductive RelayMove : RelayPhase → (o : Op) → Res o → RelayPhase → Prop
  | timed (now : Time) : RelayMove .fresh .now now (.timed now)
  | batch {now : Time} (rows : List OutboxMessage) :
      RelayMove (.timed now) (.selectBatchForUpdate limit now) (.ok rows) (.batch now [] rows)
  | batchFailed {now : Time} (e : DbError) :
      RelayMove (.timed now) (.selectBatchForUpdate limit now) (.error e) .closing
  | confirmed {now : Time} {done : List Mark} {row : OutboxMessage} {todo : List OutboxMessage}
      (u : Unit) :
      RelayMove (.batch now done (row :: todo)) (.publish (outboxPublication R row)) (.ok u)
        (.confirmed now done row todo)
  | postponed {now : Time} {done : List Mark} {row : OutboxMessage} {todo : List OutboxMessage}
      (e : ForeignError) :
      RelayMove (.batch now done (row :: todo)) (.publish (outboxPublication R row)) (.error e)
        (.postponed now done row (.foreign e) todo)
  | markPublished {now : Time} {done : List Mark} {row : OutboxMessage} {todo : List OutboxMessage}
      (τ : Time) :
      RelayMove (.confirmed now done row todo) .now τ
        (.batch now (done ++ [⟨row, .published τ⟩]) todo)
  | markPostponed {now : Time} {done : List Mark} {row : OutboxMessage} {error : Exn}
      {todo : List OutboxMessage} (h : row.attempts + 1 < maxPowerOfTwo) (τ : Time) :
      RelayMove (.postponed now done row error todo) .now τ
        (.batch now (done ++ [⟨row, .postponed error τ⟩]) todo)
  | overflow {now : Time} {done : List Mark} {row : OutboxMessage} {error : Exn}
      {todo : List OutboxMessage} (h : maxPowerOfTwo ≤ row.attempts + 1) (u : Unit) :
      RelayMove (.postponed now done row error todo) .close u .closing
  | empty {now : Time} (u : Unit) : RelayMove (.batch now [] []) .close u .closing
  | flushed {now : Time} {done : List Mark} {todo : List OutboxMessage} (u : Unit) :
      RelayMove (.batch now done todo) (.updateOutbox (done.map (Mark.result R))) (.ok u)
        (.flushed now done todo)
  | flushFailed {now : Time} {done : List Mark} {todo : List OutboxMessage} (e : DbError) :
      RelayMove (.batch now done todo) (.updateOutbox (done.map (Mark.result R))) (.error e)
        (.unflushed now done todo)
  | unflushedClosed {now : Time} {done : List Mark} {todo : List OutboxMessage} (u : Unit) :
      RelayMove (.unflushed now done todo) .close u .closing
  | commit {now : Time} {done : List Mark} {todo : List OutboxMessage} (r : Except DbError Unit) :
      RelayMove (.flushed now done todo) .commit r .closing
  | closed (u : Unit) : RelayMove .closing .close u .closing

/-- The protocol of the relay. -/
abbrev relayProtocol : Protocol Op Res := ⟨RelayPhase, RelayMove R limit⟩

/-! ## The code follows the protocol -/

variable {R limit}

theorem Mark.id_result (m : Mark) : (m.result R).id = m.row.id := by
  obtain ⟨row, note⟩ := m
  cases note <;> rfl

/-- The session can be closed here. -/
def RelayPhase.Closable (φ : RelayPhase) : Prop := ∀ u : Unit, RelayMove R limit φ .close u .closing

theorem publishOne_follows (now : Time) (done : List Mark) (row : OutboxMessage)
    (todo : List OutboxMessage) :
    (publishOne R row).wp (relayProtocol R limit).interface
      (fun a ψ => ∃ note, a.1 = Mark.result R ⟨row, note⟩ ∧
        ψ = .batch now (done ++ [⟨row, note⟩]) todo)
      (fun _ => @RelayPhase.Closable R limit) (.batch now done (row :: todo)) := by
  simp only [publishOne, Action.wp_bind, Action.wp_attempt, wp_publish]
  refine ⟨fun u => ⟨_, .confirmed u, ?_⟩, fun e => ⟨_, .postponed e, ?_⟩⟩
  · simp only [wp_now, Action.wp_pure]
    exact fun τ => ⟨_, .markPublished τ, .published τ, rfl, rfl⟩
  · simp only [nextRetryAt]
    split
    · rename_i h
      rw [Action.wp_throw]
      exact fun u => .overflow h u
    · rename_i h
      simp only [Action.wp_bind, wp_now, Action.wp_pure]
      exact fun τ => ⟨_, .markPostponed (by omega) τ, .postponed (.foreign e) τ, rfl, rfl⟩

/-- The loop deals with some first part of the rows, and hands over what it changed. -/
theorem publishRows_follows (now : Time) (done : List Mark) (rows : List OutboxMessage) :
    (publishRows R rows).wp (relayProtocol R limit).interface
      (fun a ψ => ∃ marks todo, a.1 = marks.map (Mark.result R) ∧ ψ = .batch now (done ++ marks) todo)
      (fun _ => @RelayPhase.Closable R limit) (.batch now done rows) := by
  induction rows generalizing done with
  | nil => exact ⟨[], [], rfl, by simp⟩
  | cons row rows ih =>
    rw [publishRows, Action.wp_bind]
    refine Action.wp_mono (publishOne_follows now done row rows) ?_ fun _ _ h => h
    rintro ⟨row', alive⟩ ψ ⟨note, rfl, rfl⟩
    cases alive with
    | false => exact ⟨[⟨row, note⟩], rows, rfl, rfl⟩
    | true =>
      simp only [if_true, Action.wp_bind, Action.wp_pure]
      refine Action.wp_mono (ih (done ++ [⟨row, note⟩])) ?_ fun _ _ h => h
      rintro ⟨rows', count⟩ ψ ⟨marks, todo, rfl, rfl⟩
      exact ⟨⟨row, note⟩ :: marks, todo, rfl, by simp⟩

/-- **The relay keeps to its protocol.** -/
theorem publishPendingBatch_follows (cfg : Settings) : (publishPendingBatch R cfg).run.wp
    (relayProtocol R cfg.outboxBatchSize).interface (fun _ φ => φ = .closing) .fresh := by
  have hwp : (publishPendingBatch R cfg).wp (relayProtocol R cfg.outboxBatchSize).interface
      (fun _ φ => φ = .closing) (fun _ φ => φ = .closing) .fresh := by
    simp only [publishPendingBatch, Action.wp_bind, Action.wp_within, wp_now, wp_close,
      wp_selectBatchForUpdate]
    refine fun now => ⟨_, .timed now, fun rows => ⟨_, .batch rows, ?_⟩,
      fun e => ⟨_, .batchFailed e, fun u => ⟨_, .closed u, rfl⟩⟩⟩
    cases rows with
    | nil => exact fun u => ⟨_, .empty u, rfl⟩
    | cons row rows =>
      simp only [Action.wp_bind, wp_updateOutbox, wp_commit, Action.wp_pure]
      refine Action.wp_mono (publishRows_follows now [] (row :: rows)) ?_
        fun _ _ h u => ⟨_, h u, rfl⟩
      rintro ⟨changed, count⟩ ψ ⟨marks, todo, rfl, rfl⟩
      exact ⟨fun u => ⟨_, .flushed u, fun u => ⟨_, .commit _, fun u => ⟨_, .closed u, rfl⟩⟩,
        fun e => ⟨_, .commit _, fun u => ⟨_, .closed u, rfl⟩⟩⟩,
        fun e => ⟨_, .flushFailed e, fun u => ⟨_, .unflushedClosed u, rfl⟩⟩⟩
  refine Prog.wp_mono _ hwp ?_
  rintro (e | a) ψ hψ <;> exact hψ

end Payments
