import PaymentProcessing.System.Invariant

/-!
# What a transaction has done

The phase of a thread determines what its open transaction has done (`Phase.Traced`, `traced`).
The predicates on events at the beginning are those that the properties of the service count.
-/

namespace Payments

open Effects Python Store

/-! ## Events of a row -/

/-- The gateway was called for the payment. -/
def Event.calls (id : UUID) : Event → Bool
  | .called c => c.paymentId = id
  | _ => false

/-- The gateway returned a result for the payment. -/
def Event.charges (id : UUID) : Event → Bool
  | .charged c _ => c.paymentId = id
  | _ => false

/-- A notification about the payment was sent. -/
def Event.posts (id : UUID) : Event → Bool
  | .posted q => q.payload.paymentId = id
  | _ => false

/-- A notification about the payment was answered with a status of success. -/
def Event.notifies (id : UUID) : Event → Bool
  | .answered q status => q.payload.paymentId = id ∧ 200 ≤ status ∧ status < 300
  | _ => false

/-- A copy of the outbox row: a message of the relay with the identifier of the row. -/
def Publication.copies (id : UUID) (p : Publication) : Bool :=
  p.exchange = paymentsExchange ∧ p.message.messageId = some id.str

/-- The broker confirmed a copy of the row. -/
def Event.confirms (id : UUID) : Event → Bool
  | .published p .confirmed => p.copies id
  | _ => false

/-- The broker accepted a copy of the row, but the relay got an exception. -/
def Event.loses (id : UUID) : Event → Bool
  | .published p .lost => p.copies id
  | _ => false

/-- The relay got an exception when it published the row. -/
def Event.fails (id : UUID) : Event → Bool
  | .published p .lost => p.copies id
  | .published p .refused => p.copies id
  | _ => false

/-- The broker accepted a copy of the row. -/
def Event.accepts (id : UUID) (e : Event) : Bool := e.confirms id || e.loses id

/-- The relay handed the row to the broker. -/
def Event.publishes (id : UUID) (e : Event) : Bool := e.confirms id || e.fails id

@[simp] theorem publishes_published (id : UUID) (p : Publication) (o : PublishOutcome) :
    Event.publishes id (.published p o) = p.copies id := by
  cases o <;> simp [Event.publishes, Event.confirms, Event.fails]

variable {R : Runtime} {cfg : Settings}

theorem copies_outboxPublication (id : UUID) (row : OutboxMessage) :
    (outboxPublication R row).copies id = decide (row.id = id) := by
  simp only [Publication.copies, outboxPublication, Option.some.injEq, true_and]
  exact decide_eq_decide.mpr ⟨fun h => UUID.str_injective h, fun h => by rw [h]⟩

theorem copies_failurePublication (id : UUID) (m : Message) (attempt : ℕ) (error : Exn) :
    (failurePublication R cfg m attempt error).copies id = false := by
  have hne : ∀ x ∈ [dlxExchange, retryExchange], x ≠ paymentsExchange := by decide
  unfold failurePublication
  split
  · simp [Publication.copies, dlqPublication, hne]
  · split
    · simp [Publication.copies, dlqPublication, hne]
    · simp [Publication.copies, retryPublication, hne]

theorem copies_dlqPublication (id : UUID) (m : Message) (attempt : ℕ) (error : Exn) :
    (dlqPublication R m attempt error).copies id = false := by
  have hne : dlxExchange ≠ paymentsExchange := by decide
  simp [Publication.copies, dlqPublication, hne]

/-! ## The open transaction -/

/-- Nothing has happened but that the clock was read. -/
def Reading (tr : List Event) : Prop := ∀ e ∈ tr, ∃ now, e = .read now

/-- The open transaction of a request. -/
def ApiPhase.Traced (t : ℕ) : ApiPhase → List Event → Prop
  | .staged _ id _ _ _, tr => ∃ tr', Reading tr' ∧ tr = .inserted t id :: tr'
  | _, tr => Reading tr

variable (R) in
/-- What a call of the relay did with the rows that it took notes about, after it read the clock at
`now`. -/
inductive Noted (now : Time) : List Mark → List Event → Prop
  | nil : Noted now [] [.read now]
  | published {done : List Mark} {tr : List Event} (h : Noted now done tr) (row : OutboxMessage)
      (τ : Time) :
      Noted now (done ++ [⟨row, .published τ⟩])
        (.read τ :: .published (outboxPublication R row) .confirmed :: tr)
  | postponed {done : List Mark} {tr : List Event} (h : Noted now done tr) (row : OutboxMessage)
      (error : Exn) (τ : Time) {o : PublishOutcome} (ho : o ≠ .confirmed) :
      Noted now (done ++ [⟨row, .postponed error τ⟩])
        (.read τ :: .published (outboxPublication R row) o :: tr)

variable (R) in
/-- The relay read the clock or published a row. -/
def Relaying (tr : List Event) : Prop :=
  ∀ e ∈ tr, (∃ now, e = .read now) ∨ ∃ row o, e = .published (outboxPublication R row) o

variable (R) in
/-- The open transaction of a call of the relay. -/
def RelayPhase.Traced : RelayPhase → List Event → Prop
  | .fresh, tr => tr = []
  | .timed now, tr => tr = [.read now]
  | .batch now done _, tr => Noted R now done tr
  | .confirmed now done row _, tr => ∃ tr', Noted R now done tr' ∧
      tr = .published (outboxPublication R row) .confirmed :: tr'
  | .postponed now done row _ _, tr => ∃ tr' o, Noted R now done tr' ∧ o ≠ .confirmed ∧
      tr = .published (outboxPublication R row) o :: tr'
  | .flushed now done _, tr => Noted R now done tr
  | .unflushed now done _, tr => Noted R now done tr
  | .closing, tr => Reading tr

/-- The gateway or a client was asked, and nothing came of it. -/
def Fruitless (tr : List Event) : Prop :=
  ∀ e ∈ tr, (∃ c, e = .called c) ∨ (∃ q, e = .posted q) ∨
    ∃ q status, e = .answered q status ∧ ¬(200 ≤ status ∧ status < 300)

/-- Nothing has happened but that the service published copies of failed messages. -/
def Routing (tr : List Event) : Prop :=
  ∀ e ∈ tr, ∃ p o, e = .published p o ∧ ∀ id, p.copies id = false

/-- The answer to a notification. -/
def answers (q : WebhookRequest) : Except HttpError ℕ → List Event
  | .ok status => [.answered q status]
  | .error _ => []

variable (R cfg) in
/-- The open transaction of a delivery. -/
def ConsumerPhase.Traced : ConsumerPhase → List Event → Prop
  | .charging p, tr => tr = [.called p.charge]
  | .charged p result, tr => tr = [.charged p.charge result, .called p.charge]
  | .chargedAt p result now, tr => tr = [.read now, .charged p.charge result, .called p.charge]
  | .finalFlushed p result now, tr => tr = [.read now, .charged p.charge result, .called p.charge]
  | .chargeLost p result _, tr =>
      ∃ now, tr = [.read now, .charged p.charge result, .called p.charge]
  | .sending p, tr => tr = [.posted (webhookRequest R cfg p)]
  | .delivered p status, tr =>
      tr = [.answered (webhookRequest R cfg p) status, .posted (webhookRequest R cfg p)]
  | .deliveredAt p status now, tr => tr =
      [.read now, .answered (webhookRequest R cfg p) status, .posted (webhookRequest R cfg p)]
  | .deliveredFlushed p status now, tr => tr =
      [.read now, .answered (webhookRequest R cfg p) status, .posted (webhookRequest R cfg p)]
  | .deliveryLost p status _, tr => ∃ now, tr =
      [.read now, .answered (webhookRequest R cfg p) status, .posted (webhookRequest R cfg p)]
  | .undelivered p answer _, tr =>
      tr = answers (webhookRequest R cfg p) answer ++ [.posted (webhookRequest R cfg p)]
  | .undeliveredFlushed p answer _, tr =>
      tr = answers (webhookRequest R cfg p) answer ++ [.posted (webhookRequest R cfg p)]
  | .stopped _, tr => Fruitless tr
  | .routed, tr => Routing tr
  | .requeueing, tr => Routing tr
  | .done, tr => Routing tr
  | _, tr => tr = []

variable (R cfg) in
/-- **The open transaction of a thread.** -/
def Phase.Traced (t : ℕ) : Phase → List Event → Prop
  | .api _ φ, tr => φ.Traced t tr
  | .relay φ, tr => φ.Traced R tr
  | .consumer _ φ, tr => φ.Traced R cfg tr

/-! ## Its steps -/

section Step

variable {w w' : World} {t : ℕ} {o : Op} {r : Res o}

theorem reading_nil : Reading [] := by simp [Reading]

theorem Reading.cons {tr : List Event} (h : Reading tr) (now : Time) : Reading (.read now :: tr) := by
  intro e he
  rcases List.mem_cons.mp he with rfl | he
  · exact ⟨now, rfl⟩
  · exact h e he

theorem fruitless_nil : Fruitless [] := by simp [Fruitless]

theorem routing_nil : Routing [] := by simp [Routing]

theorem Routing.cons {tr : List Event} (h : Routing tr) {p : Publication}
    (hp : ∀ id, p.copies id = false) (o : PublishOutcome) : Routing (.published p o :: tr) := by
  intro e he
  rcases List.mem_cons.mp he with rfl | he
  · exact ⟨p, o, rfl, hp⟩
  · exact h e he

theorem relaying_nil : Relaying R [] := by simp [Relaying]

theorem Relaying.read {tr : List Event} (h : Relaying R tr) (now : Time) :
    Relaying R (.read now :: tr) := by
  intro e he
  rcases List.mem_cons.mp he with rfl | he
  · exact .inl ⟨now, rfl⟩
  · exact h e he

theorem Relaying.published {tr : List Event} (h : Relaying R tr) (row : OutboxMessage)
    (o : PublishOutcome) : Relaying R (.published (outboxPublication R row) o :: tr) := by
  intro e he
  rcases List.mem_cons.mp he with rfl | he
  · exact .inr ⟨row, o, rfl⟩
  · exact h e he

theorem Noted.relaying {now : Time} {done : List Mark} {tr : List Event} (h : Noted R now done tr) :
    Relaying R tr := by
  induction h with
  | nil => exact relaying_nil.read now
  | published _ row τ ih => exact (ih.published row _).read τ
  | postponed _ row error τ _ ih => exact (ih.published row _).read τ

theorem ApiPhase.Traced.step {c : CreatePaymentCommand} {φ φ' : ApiPhase}
    (h : φ.Traced t (w.journal.current t)) (hm : ApiMove R c φ o r φ') (hx : Exec cfg t o r w w') :
    φ'.Traced t (w'.journal.current t) := by
  cases hm with
  | now =>
    cases hx
    simpa [ApiPhase.Traced] using Reading.cons h _
  | uuid4 => cases hx; exact h
  | missed => cases hx; exact h
  | found => cases hx; exact h
  | selectFailed => cases hx; exact h
  | insertFailed => cases hx; exact h
  | inserted =>
    cases hx
    exact ⟨_, h, by simp; rfl⟩
  | committed => cases hx; simp [ApiPhase.Traced, reading_nil]
  | conflicted => cases hx; simp [ApiPhase.Traced, reading_nil]
  | commitFailed => cases hx <;> simp [ApiPhase.Traced, reading_nil]
  | rolledBack hφ =>
    rcases hφ with rfl | rfl | ⟨p, rfl⟩ <;> cases hx <;>
      first | exact h | simp [ApiPhase.Traced, reading_nil]
  | closed hφ =>
    cases hx
    cases φ with
    | staged f id m τ now => exact absurd rfl (hφ f id m τ now)
    | _ => simp [ApiPhase.Traced, reading_nil]

theorem RelayPhase.Traced.step {limit : ℕ} {φ φ' : RelayPhase}
    (h : φ.Traced R (w.journal.current t)) (hm : RelayMove R limit φ o r φ')
    (hx : Exec cfg t o r w w') : φ'.Traced R (w'.journal.current t) := by
  cases hm with
  | timed =>
    cases hx
    have h : w.journal.current t = [] := h
    simp [RelayPhase.Traced, h]
  | batch =>
    cases hx
    have h : w.journal.current t = _ := h
    change Noted R _ [] (w.journal.current t)
    rw [h]
    exact .nil
  | batchFailed =>
    cases hx
    have h : w.journal.current t = _ := h
    change Reading (w.journal.current t)
    rw [h]
    exact reading_nil.cons _
  | confirmed =>
    cases hx
    exact ⟨_, h, by simp⟩
  | postponed =>
    cases hx with
    | confirmationLost => exact ⟨_, .lost, h, by decide, by simp⟩
    | refused => exact ⟨_, .refused, h, by decide, by simp⟩
  | @markPublished now done row todo =>
    cases hx
    obtain ⟨tr', hn, htr⟩ := h
    simpa [RelayPhase.Traced, htr] using hn.published row _
  | @markPostponed now done row error todo =>
    cases hx
    obtain ⟨tr', o, hn, ho, htr⟩ := h
    simpa [RelayPhase.Traced, htr] using hn.postponed row error _ ho
  | overflow => cases hx; simp [RelayPhase.Traced, reading_nil]
  | empty => cases hx; simp [RelayPhase.Traced, reading_nil]
  | flushed => cases hx; exact h
  | flushFailed => cases hx; exact h
  | unflushedClosed => cases hx; simp [RelayPhase.Traced, reading_nil]
  | commit => cases hx <;> simp [RelayPhase.Traced, reading_nil]
  | closed => cases hx; simp [RelayPhase.Traced, reading_nil]

/-- The answer of a client that does not take the notification is no success. -/
theorem fruitless_answers {answer : Except HttpError ℕ} {error : Exn}
    (h : classify answer = .error error) (q : WebhookRequest) :
    Fruitless (answers q answer ++ [.posted q]) := by
  intro e he
  rcases List.mem_append.mp he with he | he
  · cases answer with
    | error _ => simp [answers] at he
    | ok status =>
      obtain rfl := List.mem_singleton.mp he
      refine .inr (.inr ⟨q, status, rfl, fun hs => ?_⟩)
      rw [classify_ok_iff.mpr hs] at h
      simp at h
  · exact .inr (.inl ⟨q, List.mem_singleton.mp he⟩)

theorem ConsumerPhase.Traced.step {m : Message} {φ φ' : ConsumerPhase} (hf : φ.Facts)
    (h : φ.Traced R cfg (w.journal.current t)) (hm : ConsumerMove R cfg m φ o r φ')
    (hx : Exec cfg t o r w w') : φ'.Traced R cfg (w'.journal.current t) := by
  have hrouted : ∀ {tr : List Event}, Routing tr → ∀ attempt error outcome, Routing
      (.published (failurePublication R cfg m attempt error) outcome :: tr) :=
    fun hr attempt error => hr.cons fun id => copies_failurePublication id m attempt error
  have hdead : ∀ {tr : List Event}, Routing tr → ∀ attempt error outcome, Routing
      (.published (dlqPublication R m attempt error) outcome :: tr) :=
    fun hr attempt error => hr.cons fun id => copies_dlqPublication id m attempt error
  cases hm with
  | malformed =>
    cases hx
    have h : w.journal.current t = [] := h
    simpa [ConsumerPhase.Traced, h] using hdead routing_nil _ _ _
  | malformedFailed =>
    have h : w.journal.current t = [] := h
    cases hx <;> simpa [ConsumerPhase.Traced, h] using hdead routing_nil _ _ _
  | opened => cases hx; exact h
  | missing => cases hx; exact h ▸ fruitless_nil
  | openFailed => cases hx; exact h ▸ fruitless_nil
  | alreadyFinal => cases hx; simp [ConsumerPhase.Traced]
  | charging =>
    cases hx
    have h : w.journal.current t = [] := h
    simp [ConsumerPhase.Traced, h]
  | charged =>
    cases hx
    have h : w.journal.current t = _ := h
    simp [ConsumerPhase.Traced, h]
  | chargeFailed =>
    cases hx
    have h : w.journal.current t = _ := h
    change Fruitless (w.journal.current t)
    rw [h]
    exact fun e he => .inl ⟨_, List.mem_singleton.mp he⟩
  | chargedAt =>
    cases hx
    have h : w.journal.current t = _ := h
    simp [ConsumerPhase.Traced, h]
  | finalFlushed => cases hx; exact h
  | chargeLost => cases hx; exact ⟨_, h⟩
  | finalCommitted => cases hx; simp [ConsumerPhase.Traced]
  | finalNotCommitted => cases hx <;> simp [ConsumerPhase.Traced, fruitless_nil]
  | chargeLostClosed => cases hx; simp [ConsumerPhase.Traced]
  | finalClosed => cases hx; simp [ConsumerPhase.Traced]
  | reopened => cases hx; exact h
  | missingAgain => cases hx; exact h ▸ fruitless_nil
  | reopenFailed => cases hx; exact h ▸ fruitless_nil
  | nothingToSend => cases hx; simp [ConsumerPhase.Traced]
  | nothingToSendFailed => cases hx <;> simp [ConsumerPhase.Traced, fruitless_nil]
  | sending =>
    cases hx
    have h : w.journal.current t = [] := h
    simp [ConsumerPhase.Traced, h]
  | delivered =>
    cases hx
    have h : w.journal.current t = _ := h
    simp [ConsumerPhase.Traced, h]
  | undelivered =>
    have h : w.journal.current t = _ := h
    cases hx <;> simp [ConsumerPhase.Traced, h, answers]
  | deliveredAt =>
    cases hx
    have h : w.journal.current t = _ := h
    simp [ConsumerPhase.Traced, h]
  | deliveredFlushed => cases hx; exact h
  | deliveryLost => cases hx; exact ⟨_, h⟩
  | deliveryCommitted => cases hx; simp [ConsumerPhase.Traced]
  | deliveryNotCommitted => cases hx <;> simp [ConsumerPhase.Traced, fruitless_nil]
  | deliveryLostClosed => cases hx; simp [ConsumerPhase.Traced]
  | undeliveredFlushed => cases hx; exact h
  | undeliveredNotFlushed =>
    cases hx
    have h : w.journal.current t = _ := h
    change Fruitless (w.journal.current t)
    rw [h]
    exact fruitless_answers hf.2 _
  | attempted => cases hx; simp [ConsumerPhase.Traced]
  | attemptNotCommitted => cases hx <;> simp [ConsumerPhase.Traced, fruitless_nil]
  | attemptedClosed => cases hx; simp [ConsumerPhase.Traced]
  | deliveryClosed => cases hx; simp [ConsumerPhase.Traced]
  | stoppedClosed => cases hx; simp [ConsumerPhase.Traced]
  | acked => cases hx; exact h ▸ routing_nil
  | ackFailed => cases hx <;> exact h ▸ routing_nil
  | routed =>
    cases hx
    have h : w.journal.current t = [] := h
    simpa [ConsumerPhase.Traced, h] using hrouted routing_nil _ _ _
  | notRouted =>
    have h : w.journal.current t = [] := h
    cases hx <;> simpa [ConsumerPhase.Traced, h] using hrouted routing_nil _ _ _
  | routedAcked => cases hx; exact h
  | routedAckFailed => cases hx <;> exact h
  | requeued => cases hx <;> exact h

variable (R cfg) in
/-- What the open transaction of a delivery may look like, by what it did that cannot be undone. -/
inductive Shape (φ : ConsumerPhase) : List Event → Prop
  | charged {p : Payment} {result : GatewayResult} {l : List Event} (hheld : φ.held = some p)
      (hp : p.status = .pending) (hl : Reading l) :
      Shape φ (l ++ [.charged p.charge result, .called p.charge])
  | notified {p : Payment} {status : ℕ} {l : List Event} (hheld : φ.held = some p)
      (hp : p.Sendable) (hl : Reading l) :
      Shape φ (l ++ [.answered (webhookRequest R cfg p) status, .posted (webhookRequest R cfg p)])
  | fruitless {tr : List Event} (h : Fruitless tr) : Shape φ tr
  | routing {tr : List Event} (h : Routing tr) : Shape φ tr

theorem ConsumerPhase.Traced.shape {φ : ConsumerPhase} {tr : List Event} (hf : φ.Facts)
    (h : φ.Traced R cfg tr) : Shape R cfg φ tr := by
  cases φ with
  | charging p => exact h ▸ .fruitless fun e he => .inl ⟨_, List.mem_singleton.mp he⟩
  | charged p result => exact h ▸ .charged (l := []) rfl hf reading_nil
  | chargedAt p result now => exact h ▸ .charged (l := [_]) rfl hf (reading_nil.cons now)
  | finalFlushed p result now => exact h ▸ .charged (l := [_]) rfl hf (reading_nil.cons now)
  | chargeLost p result error =>
    obtain ⟨now, rfl⟩ := h
    exact .charged (l := [_]) rfl hf (reading_nil.cons now)
  | sending p => exact h ▸ .fruitless fun e he => .inr (.inl ⟨_, List.mem_singleton.mp he⟩)
  | delivered p status => exact h ▸ .notified (l := []) rfl hf.1 reading_nil
  | deliveredAt p status now => exact h ▸ .notified (l := [_]) rfl hf.1 (reading_nil.cons now)
  | deliveredFlushed p status now => exact h ▸ .notified (l := [_]) rfl hf.1 (reading_nil.cons now)
  | deliveryLost p status error =>
    obtain ⟨now, rfl⟩ := h
    exact .notified (l := [_]) rfl hf.1 (reading_nil.cons now)
  | undelivered p answer error => exact h ▸ .fruitless (fruitless_answers hf.2 _)
  | undeliveredFlushed p answer error => exact h ▸ .fruitless (fruitless_answers hf.2 _)
  | stopped error => exact .fruitless h
  | routed => exact .routing h
  | requeueing => exact .routing h
  | done => exact .routing h
  | _ => exact h ▸ .fruitless fruitless_nil

/-- **A step of a thread adds to its transaction what its next phase says.** -/
theorem Phase.Traced.step {φ φ' : Phase} (hk : Knows R w t φ)
    (h : φ.Traced R cfg t (w.journal.current t)) (hm : Move R cfg φ o r φ')
    (hx : Exec cfg t o r w w') : φ'.Traced R cfg t (w'.journal.current t) := by
  cases hm with
  | api hm => exact ApiPhase.Traced.step h hm hx
  | relay hm => exact RelayPhase.Traced.step h hm hx
  | consumer hm => exact ConsumerPhase.Traced.step (ConsumerPhase.Knows.facts hk) h hm hx

end Step

/-! ## The journal -/

section Journal

variable {w w' : World} {t t' : ℕ} {o : Op} {r : Res o}

theorem Exec.current_frame (h : Exec cfg t o r w w') (ht : t' ≠ t) :
    w'.journal.current t' = w.journal.current t' := by
  cases h <;> simp [ht]

/-- A thread that is not running has no open transaction. -/
def Tracing (w : World) (t : ℕ) : Status R cfg → Prop
  | .active φ => φ.Traced R cfg t (w.journal.current t)
  | _ => w.journal.current t = []

theorem tracing {v : View R cfg} (h : (serviceSpec R cfg).Reachable v) (t : ℕ) :
    Tracing v.world t (v.status t) := by
  refine h.threadwise (P := Tracing) ?_ ?_ ?_ ?_ t
  · rintro w t ⟨clock, rfl⟩
    rfl
  · intro v t w y hv ih ha
    cases ha with
    | @start k _ hs hb =>
      have hcur : v.world.journal.current v.born = [] := by
        have := ih v.born
        rwa [hb] at this
      obtain ⟨-, -, -, hj⟩ := Start.same hs
      change (firstPhase k).Traced R cfg v.born (w.journal.current v.born)
      rw [hj, hcur]
      cases k with
      | create command => exact reading_nil
      | relay => rfl
      | deliver e => rfl
    | exec ht hm hx =>
      have htr := ih t
      rw [ht] at htr
      exact Phase.Traced.step (knows hv ht) htr hm hx
    | crash ht hw =>
      obtain rfl : w = World.crash v.world t := hw
      simp [Tracing, World.crash]
  · intro v t t' w y hv ih ha htt
    have hcur : w.journal.current t' = v.world.journal.current t' := by
      cases ha with
      | start hs hb => rw [(Start.same hs).2.2.2]
      | exec ht hm hx => exact Exec.current_frame hx htt
      | crash ht hw =>
        obtain rfl : w = World.crash v.world t := hw
        simp [World.crash, htt]
    have htr := ih t'
    cases hy : v.status t' with
    | _ => simpa [Tracing, hy, hcur] using htr
  · intro w w' t y htr he
    have hj := (Environment.same he).2.2.2
    cases y with
    | _ => simpa [Tracing, hj] using htr

/-- **What the open transaction of an active thread has done.** -/
theorem traced {v : View R cfg} (h : (serviceSpec R cfg).Reachable v) {φ : Phase}
    (ht : v.status t = .active φ) : φ.Traced R cfg t (v.world.journal.current t) := by
  have htr := tracing h t
  rwa [ht] at htr

end Journal

end Payments
