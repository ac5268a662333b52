import Mathlib.Algebra.Field.GeomSum
import PaymentProcessing.Domain.Instance
import PaymentProcessing.Properties.Completion
import PaymentProcessing.Properties.Schedule
import PaymentProcessing.System.Handling
import PaymentProcessing.System.Timed

/-!
# The retries take their time

How old a message is says how often it has been tried. Whatever is requeued, published twice or lost
on the way, a message that carries the retry counter `a` was first published at least as long ago as
the times to live of the first `a` retry queues take together, so a client that is away for a
shorter time is not given up (`retries_wait`). This holds for any times to live; `le_wait` gives the
time in closed form for those that fall short of the exact delays by no more than a rounding error.
-/

namespace Payments

open Effects Relation

variable {R : Runtime} {cfg : Settings} {ttl : ℕ → ℕ}

/-! ## The delays -/

/-- The times to live of the first `a` retry queues together, in microseconds. -/
def wait (ttl : ℕ → ℕ) (a : ℕ) : Time := ∑ n ∈ Finset.range a, 1000 * ttl (n + 1)

theorem wait_zero : wait ttl 0 = 0 := rfl

theorem wait_succ (a : ℕ) : wait ttl (a + 1) = wait ttl a + 1000 * ttl (a + 1) :=
  Finset.sum_range_succ _ _

/-- The exact delays, cut to whole milliseconds. -/
def Settings.exactTtl (cfg : Settings) (n : ℕ) : ℕ := ⌊cfg.delayMillis n⌋.toNat

example : wait (default : Settings).exactTtl 3 = 31000000 := by
  have h1 : (default : Settings).delayMillis 1 = 1000 := by norm_num [Settings.delayMillis, default]
  have h2 : (default : Settings).delayMillis 2 = 5000 := by norm_num [Settings.delayMillis, default]
  have h3 : (default : Settings).delayMillis 3 = 25000 := by norm_num [Settings.delayMillis, default]
  simp [wait, Settings.exactTtl, Finset.sum_range_succ, h1, h2, h3]

/-- Cutting a delay loses less than a millisecond. -/
theorem delayMillis_sub_one_le (n : ℕ) : cfg.delayMillis n - 1 ≤ cfg.exactTtl n := by
  have hlt := Int.lt_floor_add_one (cfg.delayMillis n)
  have hle : (⌊cfg.delayMillis n⌋ : ℚ) ≤ (⌊cfg.delayMillis n⌋.toNat : ℕ) := by
    exact_mod_cast Int.self_le_toNat _
  unfold Settings.exactTtl
  linarith

/-- **The schedule is exponential**: times to live that fall short of the exact delays by no more than
`ε` milliseconds each take together as long as a geometric series, but for these. -/
theorem le_wait {ε : ℚ} (h : ∀ n, cfg.delayMillis (n + 1) - ε ≤ ttl (n + 1)) (a : ℕ) :
    1000000 * (cfg.retryBaseDelaySeconds * (cfg.retryMultiplier ^ a - 1) / (cfg.retryMultiplier - 1)) -
      1000 * ε * a ≤ (wait ttl a : ℚ) := by
  have hne : cfg.retryMultiplier ≠ 1 := cfg.retryMultiplier_gt.ne'
  have hsum : ∑ n ∈ Finset.range a, 1000 * (cfg.delayMillis (n + 1) - ε) ≤ (wait ttl a : ℚ) := by
    unfold wait
    rw [Nat.cast_sum]
    refine Finset.sum_le_sum fun n _ => ?_
    push_cast
    exact mul_le_mul_of_nonneg_left (h n) (by norm_num)
  refine le_trans (le_of_eq ?_) hsum
  rw [← Finset.mul_sum, Finset.sum_sub_distrib]
  have hgeom : ∑ n ∈ Finset.range a, cfg.delayMillis (n + 1) =
      1000 * cfg.retryBaseDelaySeconds * ((cfg.retryMultiplier ^ a - 1) / (cfg.retryMultiplier - 1)) := by
    rw [← geom_sum_eq hne, Finset.mul_sum]
    rfl
  rw [hgeom, Finset.sum_const, Finset.card_range, nsmul_eq_mul]
  ring

/-- The times to live of the exact delays. -/
theorem le_wait_exactTtl (a : ℕ) :
    1000000 * (cfg.retryBaseDelaySeconds * (cfg.retryMultiplier ^ a - 1) / (cfg.retryMultiplier - 1)) -
      1000 * a ≤ (wait cfg.exactTtl a : ℚ) := by
  simpa using le_wait (ε := 1) (fun n => delayMillis_sub_one_le (n + 1)) a

/-! ## The age of a message -/

/-- A message in the queue `q` is as old as its retry counter says. -/
structure Aged (ttl : ℕ → ℕ) (now : Time) (q : String) (x : Stamped) : Prop where
  main : q = paymentsNewQueueName → ∀ a, currentAttempt x.1.message.headers = .ok a →
    x.2.origin + wait ttl a ≤ now
  retry : ∀ n, q = retryQueueName (n + 1) → x.2.origin + wait ttl n ≤ x.2.since
  dlq : q = dlqName → ∀ a : ℕ, x.1.message.headers retryCountHeader = some (.int a) →
    x.2.origin + wait ttl a ≤ now

/-- The messages of the relay inside the broker are as old as their retry counters say. -/
structure AgedBroker (ttl : ℕ → ℕ) (now : Time) (B : StampedBroker) : Prop where
  ready : ∀ q x, x ∈ B.queues q → x.1.origin.isSome → Aged ttl now q x
  delivered : ∀ t x, B.delivered t = some x → x.1.origin.isSome →
    Aged ttl now paymentsNewQueueName x

section Aged

variable {now now' : Time} {q : String} {x : Stamped} {B : StampedBroker}

theorem Aged.later (h : Aged ttl now q x) (hle : now ≤ now') : Aged ttl now' q x :=
  ⟨fun hq a ha => (h.main hq a ha).trans hle, h.retry, fun hq a ha => (h.dlq hq a ha).trans hle⟩

/-- In `payments.new`, only the counter and the first publication matter. -/
theorem Aged.ready {τ : Stamp} {e : Envelope} (h : ∀ a, currentAttempt e.message.headers = .ok a →
    τ.origin + wait ttl a ≤ now) : Aged ttl now paymentsNewQueueName (e, τ) where
  main _ := h
  retry _ hq := absurd hq.symm (retryQueueName_ne _).1
  dlq hq := absurd hq paymentsNewQueueName_ne_dlqName

namespace AgedBroker

theorem later (h : AgedBroker ttl now B) (hle : now ≤ now') : AgedBroker ttl now' B :=
  ⟨fun q x hx ho => (h.ready q x hx ho).later hle,
    fun t x hx ho => (h.delivered t x hx ho).later hle⟩

theorem accept {names : List String} (h : AgedBroker ttl now B)
    (hx : ∀ q ∈ names, x.1.origin.isSome → Aged ttl now q x) :
    AgedBroker ttl now (B.accept names x) := by
  refine ⟨fun q y hy ho => ?_, h.delivered⟩
  rcases List.mem_append.mp hy with hy | hy
  · exact h.ready q y hy ho
  · obtain ⟨hne, rfl⟩ := List.mem_replicate.mp hy
    exact hx q (List.count_pos_iff.mp (Nat.pos_of_ne_zero hne)) ho

theorem settle (h : AgedBroker ttl now B) (t : ℕ) : AgedBroker ttl now (B.settle t) :=
  ⟨h.ready, h.delivered⟩

theorem requeue (h : AgedBroker ttl now B) (t : ℕ) : AgedBroker ttl now (B.requeue now t) := by
  unfold StampedBroker.requeue
  cases hd : B.delivered t with
  | none => exact h
  | some x =>
    dsimp only
    split
    · refine (h.accept fun q hq ho => ?_).settle t
      obtain rfl := List.mem_singleton.mp hq
      exact .ready ((h.delivered t x hd ho).main rfl)
    · exact h

theorem deliver (h : AgedBroker ttl now B) (t : ℕ) {before after : List Stamped}
    (hq : B.queues paymentsNewQueueName = before ++ x :: after) :
    AgedBroker ttl now (B.deliver t x (before ++ after)) := by
  refine ⟨fun q y hy ho => ?_, fun t' y hy ho => ?_⟩
  · by_cases hqm : q = paymentsNewQueueName
    · subst hqm
      have hy : y ∈ before ++ after := by simpa [StampedBroker.deliver] using hy
      refine h.ready _ y ?_ ho
      rw [hq]
      exact List.perm_middle.mem_iff.mpr (List.mem_cons_of_mem x hy)
    · exact h.ready q y (by simpa [StampedBroker.deliver, hqm] using hy) ho
  · by_cases ht : t' = t
    · subst ht
      obtain rfl : x = y := by simpa [StampedBroker.deliver] using hy
      exact h.ready _ x (by rw [hq]; simp) ho
    · exact h.delivered t' y (by simpa [StampedBroker.deliver, ht] using hy) ho

theorem move (h : AgedBroker ttl now B) {name : String} {names : List String}
    {before after : List Stamped} {y : Stamped} (hq : B.queues name = before ++ x :: after)
    (hy : ∀ q ∈ names, y.1.origin.isSome → Aged ttl now q y) :
    AgedBroker ttl now (B.move name (before ++ after) names y) := by
  refine accept ⟨fun q z hz ho => ?_, h.delivered⟩ hy
  by_cases hqn : q = name
  · subst hqn
    have hz : z ∈ before ++ after := by simpa using hz
    refine h.ready _ z ?_ ho
    rw [hq]
    exact List.perm_middle.mem_iff.mpr (List.mem_cons_of_mem x hz)
  · exact h.ready q z (by simpa [hqn] using hz) ho

end AgedBroker

end Aged

/-! ## What is published -/

/-- **A routed copy is as old as its counter says.** -/
theorem Routed.aged {m : Message} {p : Publication} {origin : Option Message} {start now : Time}
    {q : String} (h : Routed R cfg m p)
    (hm : ∀ a, currentAttempt m.headers = .ok a → start + wait ttl a ≤ now)
    (hq : q ∈ (route cfg p.exchange p.routingKey).map RabbitQueue.name) :
    Aged ttl now q (⟨p.message, origin, p.cause⟩, ⟨start, now⟩) := by
  cases h with
  | @dlq attempt error ha hcause =>
    obtain rfl : q = dlqName := by simpa [dlqPublication, route_dlx, dlqQueue] using hq
    refine ⟨fun h => absurd h.symm paymentsNewQueueName_ne_dlqName,
      fun n hn => absurd hn.symm (retryQueueName_ne _).2, fun _ a hcount => ?_⟩
    have hcount : (routedHeaders R m.headers attempt error) retryCountHeader = some (.int a) := hcount
    rw [routedHeaders_retryCount] at hcount
    obtain rfl : attempt = a := by simpa using hcount
    exact hm attempt ha
  | @retry attempt error ha hmax =>
    obtain rfl : q = retryQueueName (attempt + 1) := by
      simpa [retryPublication, route_retry cfg (Nat.le_add_left 1 attempt) hmax, retryQueue,
        buildRetryQueue] using hq
    refine ⟨fun h => absurd h (retryQueueName_ne _).1, fun n hn => ?_,
      fun h => absurd h (retryQueueName_ne _).2⟩
    obtain rfl : attempt = n := by simpa using retryQueueName_injective hn
    exact hm attempt ha

namespace Timed

variable {s s' : Timed R cfg}

/-- The message that a thread of the stamped service was delivered. -/
theorem delivered_erase (h : Reachable ttl s) {t : ℕ} {e : Envelope}
    (hd : s.base.world.broker.delivered t = some e) :
    ∃ τ, s.broker.delivered t = some (e, τ) := by
  rw [← agrees h] at hd
  obtain ⟨⟨e', τ⟩, hx, rfl⟩ := Option.map_eq_some_iff.mp hd
  exact ⟨τ, hx⟩

/-- A publication leaves the messages as old as their counters say. -/
theorem aged_publish (h : Reachable ttl s) (ih : AgedBroker ttl s.clock s.broker) {t : ℕ} {k : Kind}
    {p : Publication} {c : Res (.publish p) → Prog Op Res (Out k)}
    (ht : s.base.threads t = .running k (.op (.publish p) c)) :
    AgedBroker ttl s.clock (s.broker.publish cfg s.clock t p) := by
  obtain ⟨v, hv, htr⟩ := Machine.Spec.tracked (serviceSpec R cfg) (reachable_base h)
  obtain ⟨φ, hst, hm⟩ := exists_phase htr ht
  obtain ⟨φ', hm⟩ := hm (.ok ())
  have hd := agrees h
  rw [← htr.world] at hd
  rcases hm.publish_cases (knows hv hst) with ⟨ψ, row, rfl, hheld, rfl⟩ | ⟨m, ψ, rfl, hr⟩
  · have hnone := delivered_of_relay hv hst
    rw [← hd] at hnone
    have hnone : s.broker.delivered t = none := Option.map_eq_none_iff.mp hnone
    refine ih.accept fun q hq _ => ?_
    obtain ⟨-, -, -, hkey⟩ := (paired hv).payment row.id row hheld.row
    obtain rfl : q = paymentsNewQueueName := by
      simpa [outboxPublication, hkey, route_payments, paymentsNewQueue] using hq
    refine .ready fun a ha => ?_
    obtain rfl : 0 = a := Except.ok.inj ((currentAttempt_of_none rfl).symm.trans ha)
    simp [hnone, wait_zero]
  · obtain ⟨e, hdel, rfl⟩ := delivered_of_consumer hv hst
    rw [htr.world] at hdel
    obtain ⟨τ, hx⟩ := delivered_erase h hdel
    refine ih.accept fun q hq ho => ?_
    simp only [hx, Option.elim_some] at ho ⊢
    exact hr.aged ((ih.delivered t (e, τ) hx ho).main rfl) hq

/-- A message that comes back from a retry queue is as old as its counter says. -/
theorem aged_expired (h : Reachable ttl s) (ih : AgedBroker ttl s.clock s.broker) {n : ℕ}
    (h1 : 1 ≤ n) {x : Stamped} (hmem : x ∈ s.broker.queues (retryQueueName n))
    (hold : x.2.since + 1000 * ttl n ≤ s.clock) {headers : Headers}
    (hh : ∀ key, key ∉ brokerOwnedHeaders → headers key = x.1.message.headers key)
    (ho : x.1.origin.isSome) :
    Aged ttl s.clock paymentsNewQueueName
      ({ x.1 with message := { x.1.message with headers := headers } }, ⟨x.2.origin, s.clock⟩) := by
  obtain ⟨n, rfl⟩ : ∃ m, n = m + 1 := ⟨n - 1, by omega⟩
  -- its counter is the number of the queue
  obtain ⟨v, hv, htr⟩ := Machine.Spec.tracked (serviceSpec R cfg) (reachable_base h)
  obtain ⟨m₀, hm₀⟩ := Option.isSome_iff_exists.mp ho
  have hready : x.1 ∈ v.world.broker.queues (retryQueueName (n + 1)) := by
    rw [htr.world, queues_eq h]
    exact List.mem_map_of_mem hmem
  obtain ⟨-, -, hcount⟩ := ((copies_sound hv).ready _ _ m₀ hready hm₀).placed.retry _ rfl
  refine .ready fun a ha => ?_
  have hattempt : currentAttempt headers = .ok (n + 1) :=
    currentAttempt_of_int ((hh _ (by decide)).trans hcount)
  obtain rfl : n + 1 = a := Except.ok.inj (hattempt.symm.trans ha)
  have hage := (ih.ready _ x hmem ho).retry n rfl
  calc x.2.origin + wait ttl (n + 1)
      = x.2.origin + wait ttl n + 1000 * ttl (n + 1) := by rw [wait_succ, add_assoc]
    _ ≤ x.2.since + 1000 * ttl (n + 1) := Nat.add_le_add_right hage _
    _ ≤ s.clock := hold

/-- **Every message is as old as its retry counter says.** -/
theorem aged (h : Reachable ttl s) : AgedBroker ttl s.clock s.broker := by
  refine h.invariant (I := fun s => AgedBroker ttl s.clock s.broker) (fun s hs => ?_)
    fun s s' h ih hs => ?_
  · rw [hs.2]
    exact ⟨by simp, by simp⟩
  · cases hs with
    | create _ => exact ih
    | relay => exact ih
    | deliver hq => exact ih.deliver _ hq
    | @exec t k o c r w B ht hx hB =>
      have hclock : w.clock = s.clock := hx.clock
      refine AgedBroker.later ?_ (le_of_eq hclock.symm)
      generalize w.broker = B' at hB
      cases hB with
      | same => exact ih
      | published p => exact aged_publish h ih ht
      | settled => exact ih.settle t
      | requeued => exact ih.requeue t
    | @crash t _ _ _ => exact ih.requeue t
    | tick hc => exact ih.later hc
    | expired h1 hn hqueue hold hh hB =>
      subst hB
      refine ih.move hqueue fun name hname ho => ?_
      obtain rfl := List.mem_singleton.mp hname
      exact aged_expired h ih h1 (by rw [hqueue]; simp) hold hh ho
    | foreign m hB =>
      subst hB
      exact ih.accept fun q _ ho => by cases ho
    | channelLost t => exact ih.requeue t

end Timed

/-- **The retries take their time.** Whatever the times to live of the retry queues are, the service
with them does what `service` does, and holds up nothing but messages in retry queues, each for its
time to live at most. When a consumer has a message of the relay with the retry counter `a`, then the
times to live of the first `a` retry queues have passed since it was published; and a message that
was given up was refused for good, or those of all retry queues have passed. -/
theorem retries_wait {s : Timed R cfg} (h : Timed.Reachable ttl s) :
    (service R cfg).Reachable s.base ∧
    (∀ b, (service R cfg).Step s.base b →
      (∃ s', Timed.Step ttl s s' ∧ s'.base = b) ∨ Expired cfg s.base.world b.world ∧
        ∃ n clock s', 1 ≤ n ∧ n ≤ cfg.maxRetries ∧ clock ≤ s.clock + 1000 * ttl n ∧
          Timed.Run ttl s s' ∧ s'.base = ⟨{ b.world with clock := clock }, b.threads, b.born⟩) ∧
    (∀ t x a, s.broker.delivered t = some x → x.1.origin.isSome →
      currentAttempt x.1.message.headers = .ok a → x.2.origin + wait ttl a ≤ s.clock) ∧
    ∀ x ∈ s.broker.queues dlqName, x.1.origin.isSome →
      (∃ error, x.1.cause = some error ∧ (error.isPermanent ∨ ∃ text, error = .validation text)) ∨
        x.2.origin + wait ttl cfg.maxRetries ≤ s.clock := by
  have haged := Timed.aged h
  refine ⟨Timed.reachable_base h, fun b hs => Timed.exists_step h hs, fun t x a hd ho ha => ?_,
    fun x hx ho => ?_⟩
  · exact (haged.delivered t x hd ho).main rfl a ha
  · obtain ⟨v, hv, htr⟩ := Machine.Spec.tracked (serviceSpec R cfg) (Timed.reachable_base h)
    obtain ⟨m₀, hm₀⟩ := Option.isSome_iff_exists.mp ho
    have hready : x.1 ∈ v.world.broker.queues dlqName := by
      rw [htr.world, Timed.queues_eq h]
      exact List.mem_map_of_mem hx
    refine (((copies_sound hv).ready _ _ m₀ hready hm₀).placed.dlq rfl).imp_right fun hcount => ?_
    exact (haged.ready _ x hx ho).dlq rfl _ hcount

/-- The event of the order for the book is delivered again after the first delay, which is a second.
-/
theorem retries_wait_delivered :
    ∃ (s : Timed .transparent default) (t : ℕ) (x : Stamped),
      Timed.Reachable (default : Settings).exactTtl s ∧ s.broker.delivered t = some x ∧
      currentAttempt x.1.message.headers = .ok 1 ∧ x.2.origin + 1000000 ≤ s.clock := by
  obtain ⟨f, hf⟩ := bookCommand_validated.exists_fingerprint .transparent
  let s₀ : Timed .transparent default := ⟨⟨World.initial 0, fun _ => .unborn, 0⟩,
    ⟨fun _ => [], fun _ => none, fun _ => false⟩⟩
  have h₀ : Timed.Reachable (default : Settings).exactTtl s₀ :=
    ⟨s₀, ⟨⟨⟨0, rfl⟩, fun _ => rfl, rfl⟩, rfl⟩, .refl⟩
  -- it is accepted
  have hcreate := h₀.step (.create bookCommand)
  obtain ⟨s₁, out, h₁, hw₁⟩ := Timed.exists_returned (t := 0) hcreate
    (Function.update_self 0 _ s₀.base.threads)
    (createPayment_possible default hf (admissible_initial bookCommand 0) 0)
  have hw₁ : s₁.base.world = World.accepting bookCommand f 0 0 := by
    cases out with
    | ok result => exact hw₁.2
    | error e => exact hw₁.elim
  -- it is published
  obtain ⟨p, m, -, hbatch⟩ := publishPendingBatch_accepting .transparent default bookCommand
    f 0 0 s₁.base.born
  rw [← hw₁] at hbatch
  have hrelay := h₁.step .relay
  obtain ⟨s₂, out, h₂, hann⟩ := Timed.exists_returned (t := s₁.base.born) hrelay
    (Function.update_self s₁.base.born _ s₁.base.threads) (Prog.wp_possible_mono And.left hbatch)
  -- it is delivered, and its client is not available
  obtain ⟨after, hmain⟩ := hann.main
  rw [Timed.queues_eq h₂, List.map_eq_cons_iff] at hmain
  obtain ⟨x, after, hqueue, hx, rfl⟩ := hmain
  have hqueue' : s₂.broker.queues paymentsNewQueueName = [] ++ x :: after := hqueue
  have hdeliver := h₂.step (.deliver hqueue')
  have hwants : p.wantsWebhook := by
    rw [Payment.wantsWebhook, hann.webhookUrl]
    decide
  have hwp := hann.retried default s₂.base.born (after.map Prod.fst) hwants (by decide)
  obtain ⟨out, ⟨w₃, σ⟩, hx₃⟩ := Prog.exists_executes hwp
  obtain ⟨e, he, ho, ha⟩ := hx₃.of_wp hwp
  rw [← hx] at hx₃
  obtain ⟨s₃, hr₃, hbase₃⟩ := Timed.exists_run_of_executes Prod.fst (t := s₂.base.born)
    (fun hc => by
      cases hc with
      | intro hle hexec _ => exact ⟨_, hle, hexec⟩)
    hdeliver (k := .deliver x.1) (Function.update_self ..) hx₃ (by
      rw [StampedBroker.erase_deliver, Timed.agrees h₂]
      rfl)
  have h₃ := hdeliver.run hr₃
  -- it waits in the first retry queue, and comes back
  rw [show w₃ = s₃.base.world by rw [hbase₃], Timed.queues_eq h₃] at he
  obtain ⟨y, hy, rfl⟩ := List.mem_map.mp he
  obtain ⟨before, after, hqueue⟩ := List.append_of_mem hy
  let clock := max s₃.clock (y.2.since + 1000 * (default : Settings).exactTtl 1)
  let s₃' : Timed .transparent default :=
    ⟨⟨{ s₃.base.world with clock := clock }, s₃.base.threads, s₃.base.born⟩, s₃.broker⟩
  have htick : Timed.Reachable (default : Settings).exactTtl s₃' := h₃.step (.tick (le_max_left _ _))
  have hback := htick.step (.expired (s := s₃') (n := 1) le_rfl (by decide) hqueue (le_max_right _ _)
    (fun _ _ => rfl) rfl)
  obtain ⟨s₄, z, h₄, hz, hz₁⟩ : ∃ s₄ z, Timed.Reachable (default : Settings).exactTtl s₄ ∧
      z ∈ s₄.broker.queues paymentsNewQueueName ∧ z.1 = y.1 :=
    ⟨_, (y.1, ⟨y.2.origin, clock⟩), hback,
      List.mem_append_right _ (List.mem_replicate.mpr ⟨by decide, rfl⟩), rfl⟩
  -- it is delivered again
  obtain ⟨before, after, hqueue⟩ := List.append_of_mem hz
  obtain ⟨s₅, h₅, hd⟩ : ∃ s₅, Timed.Reachable (default : Settings).exactTtl s₅ ∧
      s₅.broker.delivered s₄.base.born = some z :=
    ⟨_, h₄.step (.deliver hqueue), Function.update_self _ _ _⟩
  rw [← hz₁] at ho ha
  have hwait := (retries_wait h₅).2.2.1 _ z 1 hd ho ha
  have hdelay : wait (default : Settings).exactTtl 1 = 1000000 := by
    have h1 : (default : Settings).delayMillis 1 = 1000 := by
      norm_num [Settings.delayMillis, default]
    simp [wait, Settings.exactTtl, h1]
  exact ⟨s₅, s₄.base.born, z, h₅, hd, ha, hdelay ▸ hwait⟩

end Payments
