import PaymentProcessing.Api.Routes
import PaymentProcessing.System.Service

/-!
# The API in front of the service

Requests over HTTP as exchanges beside the threads of the service. A request that is admitted to
`create_payment` starts a thread and waits for what that returns; one admitted to `get_payment`
reads the row that is committed at some moment. Everything else goes on between any two steps of an
exchange.
-/

namespace Payments

open Effects Python Relation

/-- What was done for a request. -/
inductive Work
  | nothing
  | thread (t : ℕ)
  | query

/-- What has become of a request. -/
inductive Exchange
  | unborn
  /-- It waits for the thread `t`. -/
  | creating (r : HttpRequest) (c : CreatePaymentCommand) (t : ℕ)
  | getting (r : HttpRequest) (paymentId : UUID)
  | got (r : HttpRequest) (paymentId : UUID) (payment : Option Payment)
  | answered (r : HttpRequest) (w : Work) (a : HttpResponse)
  | lost

/-- The exchange waits for an answer. -/
def Exchange.Open : Exchange → Prop
  | .creating _ _ _ | .getting _ _ | .got _ _ _ => True
  | .unborn | .answered _ _ _ | .lost => False

/-- A request to create a payment has its result; the session is closed after the response. -/
def Returns (p : Prog Op Res (Except Exn CreatePaymentResult))
    (out : Except Exn CreatePaymentResult) : Prop :=
  p = .ret out ∨ ∃ c, p = .op .close c ∧ c () = .ret out

variable (R : Runtime) (cfg : Settings)

/-- The service with the requests that have come in. -/
structure Front where
  base : (service R cfg).State
  exchanges : ℕ → Exchange

namespace Front

variable {R cfg}

/-- Exchange `i` moves on. -/
def set (s : Front R cfg) (i : ℕ) (x : Exchange) : Front R cfg :=
  { s with exchanges := Function.update s.exchanges i x }

@[simp] theorem base_set (s : Front R cfg) (i : ℕ) (x : Exchange) : (s.set i x).base = s.base := rfl

theorem exchanges_set (s : Front R cfg) (i j : ℕ) (x : Exchange) :
    (s.set i x).exchanges j = if j = i then x else s.exchanges j := by
  by_cases hj : j = i
  · subst hj
    rw [if_pos rfl]
    exact Function.update_self _ _ _
  · rw [if_neg hj]
    exact Function.update_of_ne hj _ _

@[simp] theorem exchanges_set_self (s : Front R cfg) (i : ℕ) (x : Exchange) :
    (s.set i x).exchanges i = x :=
  Function.update_self _ _ _

/-- The service has started a thread for `c`. -/
def spawn (s : Front R cfg) (c : CreatePaymentCommand) : (service R cfg).State :=
  ⟨s.base.world, Function.update s.base.threads s.base.born
    (.running (.create c) ((service R cfg).code (.create c))), s.base.born + 1⟩

variable (apiKey : Str) (F : Framework)

/-- **One step** of the API or of the service behind it. -/
inductive Step : Front R cfg → Front R cfg → Prop
  | inner {s : Front R cfg} {b : (service R cfg).State} (h : (service R cfg).Step s.base b) :
      Step s { s with base := b }
  | refused {s : Front R cfg} {i : ℕ} {r : HttpRequest} {a : HttpResponse}
      (hi : s.exchanges i = .unborn) (h : Refusal apiKey F r a) :
      Step s (s.set i (.answered r .nothing a))
  | create {s : Front R cfg} {i : ℕ} {r : HttpRequest} {c : CreatePaymentCommand}
      (hi : s.exchanges i = .unborn) (h : Admitted apiKey F r (.create c)) :
      Step s { s.set i (.creating r c s.base.born) with base := s.spawn c }
  | created {s : Front R cfg} {i : ℕ} {r : HttpRequest} {c : CreatePaymentCommand} {t : ℕ}
      {p : Prog Op Res (Except Exn CreatePaymentResult)} {out : Except Exn CreatePaymentResult}
      (hi : s.exchanges i = .creating r c t) (ht : s.base.threads t = .running (.create c) p)
      (h : Returns p out) : Step s (s.set i (.answered r (.thread t) (createPaymentResponse R out)))
  | get {s : Front R cfg} {i : ℕ} {r : HttpRequest} {paymentId : UUID}
      (hi : s.exchanges i = .unborn) (h : Admitted apiKey F r (.get paymentId)) :
      Step s (s.set i (.getting r paymentId))
  | selected {s : Front R cfg} {i : ℕ} {r : HttpRequest} {paymentId : UUID}
      (hi : s.exchanges i = .getting r paymentId) :
      Step s (s.set i (.got r paymentId (s.base.world.payments.rows paymentId)))
  | selectFailed {s : Front R cfg} {i : ℕ} {r : HttpRequest} {paymentId : UUID}
      (hi : s.exchanges i = .getting r paymentId) : Step s (s.set i (.answered r .query unhandledHandler))
  | read {s : Front R cfg} {i : ℕ} {r : HttpRequest} {paymentId : UUID} {payment : Option Payment}
      (hi : s.exchanges i = .got r paymentId payment) :
      Step s (s.set i (.answered r .query (getPaymentResponse paymentId payment)))
  /-- The caller goes away, or the process is killed. -/
  | lost {s : Front R cfg} {i : ℕ} (hi : (s.exchanges i).Open) : Step s (s.set i .lost)

/-- Any number of steps. -/
def Run : Front R cfg → Front R cfg → Prop := ReflTransGen (Step apiKey F)

/-- No request has come in, and nothing has been started. -/
def Initial (s : Front R cfg) : Prop := (service R cfg).Initial s.base ∧ ∀ i, s.exchanges i = .unborn

/-- The states of all runs from an initial state. -/
def Reachable (s : Front R cfg) : Prop := ∃ s₀, Initial s₀ ∧ Run apiKey F s₀ s

variable {apiKey F}

theorem Reachable.run {s s' : Front R cfg} (h : Reachable apiKey F s) (hr : Run apiKey F s s') :
    Reachable apiKey F s' := by
  obtain ⟨s₀, h₀, h⟩ := h
  exact ⟨s₀, h₀, h.trans hr⟩

/-- The service behind the API takes one step or none. -/
theorem Step.base {s s' : Front R cfg} (h : Step apiKey F s s') :
    s'.base = s.base ∨ (service R cfg).Step s.base s'.base := by
  cases h with
  | inner h => exact .inr h
  | create => exact .inr (.start (.create _ _))
  | _ => exact .inl rfl

/-- **The service behind the API is the service.** -/
theorem Run.base {s s' : Front R cfg} (h : Run apiKey F s s') :
    (service R cfg).Run s.base s'.base := by
  induction h with
  | refl => exact .refl
  | tail _ hs ih =>
    rcases hs.base with heq | hstep
    · rwa [heq]
    · exact ih.tail hstep

theorem Reachable.base {s : Front R cfg} (h : Reachable apiKey F s) :
    (service R cfg).Reachable s.base := by
  obtain ⟨s₀, h₀, hr⟩ := h
  exact ⟨s₀.base, h₀.1, Run.base hr⟩

/-- What the service does by itself. -/
theorem run_inner {s : Front R cfg} {b : (service R cfg).State}
    (h : (service R cfg).Run s.base b) : Run apiKey F s { s with base := b } := by
  induction h with
  | refl => exact .refl
  | tail _ hs ih => exact ih.tail (.inner hs)

/-- A payment can be read at once. -/
theorem exists_read {s : Front R cfg} {i : ℕ} {r : HttpRequest} {paymentId : UUID}
    (hi : s.exchanges i = .unborn) (h : Admitted apiKey F r (.get paymentId)) :
    ∃ s', Run apiKey F s s' ∧ s'.exchanges i = .answered r .query
      (getPaymentResponse paymentId (s.base.world.payments.rows paymentId)) := by
  have hgetting : Run apiKey F s (s.set i (.getting r paymentId)) := .single (.get hi h)
  have hgot := hgetting.tail (.selected (exchanges_set_self _ _ _))
  exact ⟨_, hgot.tail (.read (exchanges_set_self _ _ _)), exchanges_set_self _ _ _⟩

end Front

end Payments
