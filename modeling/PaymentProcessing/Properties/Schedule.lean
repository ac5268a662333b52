import Mathlib.Algebra.Order.Floor.Ring
import PaymentProcessing.Broker.Topology

/-!
# The retry schedule

The times to live of the retry queues are whole milliseconds, and 32 bits long. The settings are
checked for neither: `retry_schedule_iff` says which of them give a schedule in which every retry
waits, and longer than the one before, and which the broker accepts.
-/

namespace Payments

/-- The largest `x-message-ttl` that RabbitMQ accepts. -/
def maxMessageTtl : ℤ := 4294967295

/-- The queues that `declare_topology` builds for the retries. -/
def Settings.retryQueues (cfg : Settings) : List RabbitQueue :=
  buildRetryQueues cfg.maxRetries cfg.retryBaseDelaySeconds cfg.retryMultiplier

/-- The settings give a usable exponential schedule. -/
structure UsableSchedule (cfg : Settings) : Prop where
  length : cfg.retryQueues.length = cfg.maxRetries
  names : (cfg.retryQueues.map RabbitQueue.name).Nodup
  routingKeys : (cfg.retryQueues.map RabbitQueue.routingKey).Nodup
  messageTtl : ∀ n, 1 ≤ n → n ≤ cfg.maxRetries → ∃ q delay, cfg.retryQueues[n - 1]? = some q ∧
    cfg.retryDelaySeconds n = .ok delay ∧ q.messageTtl = some ⌊1000 * delay⌋
  positive : ∀ q ∈ cfg.retryQueues, ∀ ttl ∈ q.messageTtl, 1 ≤ ttl
  increasing : cfg.retryQueues.Pairwise fun q q' =>
    ∀ ttl ∈ q.messageTtl, ∀ ttl' ∈ q'.messageTtl, ttl < ttl'
  accepted : ∀ b ∈ declareTopology cfg, ∀ ttl ∈ b.queue.messageTtl, ttl ≤ maxMessageTtl

variable {cfg : Settings}

/-! ## Milliseconds -/

/-- The delay before attempt `n` in milliseconds, before it is truncated and with no rounding of
floats. -/
def Settings.delayMillis (cfg : Settings) (n : ℕ) : ℚ :=
  1000 * cfg.retryBaseDelaySeconds * cfg.retryMultiplier ^ (n - 1)

theorem Settings.delayMillis_one : cfg.delayMillis 1 = 1000 * cfg.retryBaseDelaySeconds := by
  simp [delayMillis]

theorem Settings.delayMillis_mono : Monotone cfg.delayMillis := by
  intro m n hmn
  have hm : 1 ≤ cfg.retryMultiplier := cfg.retryMultiplier_gt.le
  have hb : 0 ≤ 1000 * cfg.retryBaseDelaySeconds :=
    mul_nonneg (by norm_num) cfg.retryBaseDelaySeconds_gt.le
  unfold delayMillis
  gcongr

theorem retryQueue_messageTtl (n : ℕ) :
    (retryQueue cfg n).messageTtl = some ⌊cfg.delayMillis n⌋ := by
  have hcomm : cfg.retryBaseDelaySeconds * cfg.retryMultiplier ^ (n - 1) * 1000 =
      cfg.delayMillis n := by
    unfold Settings.delayMillis
    ring
  show some _ = some _
  rw [hcomm]

theorem mem_retryQueues {q : RabbitQueue} :
    q ∈ cfg.retryQueues ↔ ∃ n, (1 ≤ n ∧ n ≤ cfg.maxRetries) ∧ retryQueue cfg n = q := by
  show q ∈ (List.range' 1 cfg.maxRetries).map (retryQueue cfg) ↔ _
  simp only [List.mem_map, List.mem_range'_1]
  apply exists_congr
  intro n
  apply and_congr_left
  intro _
  omega

/-- There is a whole number in an interval when the bounds have different floors. -/
theorem exists_int_iff_floor_lt {x y : ℚ} : (∃ k : ℤ, x < k ∧ k ≤ y) ↔ ⌊x⌋ < ⌊y⌋ := by
  constructor
  · rintro ⟨k, hx, hy⟩
    exact (Int.floor_lt.mpr hx).trans_le (Int.le_floor.mpr hy)
  · intro h
    exact ⟨⌊y⌋, Int.floor_lt.mp h, Int.floor_le y⟩

/-! ## The parts of the schedule -/

/-- The times to live grow when each is smaller than the next. -/
theorem retryQueues_increasing_iff :
    (cfg.retryQueues.Pairwise fun q q' => ∀ ttl ∈ q.messageTtl, ∀ ttl' ∈ q'.messageTtl, ttl < ttl') ↔
      ∀ n, 1 ≤ n → n < cfg.maxRetries → ⌊cfg.delayMillis n⌋ < ⌊cfg.delayMillis (n + 1)⌋ := by
  have hmap : (cfg.retryQueues.Pairwise fun q q' =>
      ∀ ttl ∈ q.messageTtl, ∀ ttl' ∈ q'.messageTtl, ttl < ttl') ↔
      (List.range' 1 cfg.maxRetries).Pairwise fun m n =>
        ⌊cfg.delayMillis m⌋ < ⌊cfg.delayMillis n⌋ := by
    show ((List.range' 1 cfg.maxRetries).map (retryQueue cfg)).Pairwise _ ↔ _
    simp [List.pairwise_map, retryQueue_messageTtl]
  rw [hmap]
  constructor
  · intro h n h1 hn
    have hpair := List.pairwise_iff_getElem.mp h (n - 1) n (by simp; omega) (by simpa) (by omega)
    simpa [show 1 + (n - 1) = n by omega, Nat.add_comm 1 n] using hpair
  · intro h
    apply List.Pairwise.imp_of_mem _ List.pairwise_lt_range'
    intro m n hm hn hlt
    have hm := List.mem_range'_1.mp hm
    have hn := List.mem_range'_1.mp hn
    calc ⌊cfg.delayMillis m⌋ < ⌊cfg.delayMillis (m + 1)⌋ := h m (by omega) (by omega)
      _ ≤ ⌊cfg.delayMillis n⌋ := Int.floor_le_floor (Settings.delayMillis_mono (by omega))

/-- No time to live is zero when the first is not. -/
theorem retryQueues_positive_iff :
    (∀ q ∈ cfg.retryQueues, ∀ ttl ∈ q.messageTtl, 1 ≤ ttl) ↔
      1 ≤ 1000 * cfg.retryBaseDelaySeconds := by
  rw [← Settings.delayMillis_one]
  constructor
  · intro h
    have hone := h _ (mem_retryQueues.mpr ⟨1, ⟨le_rfl, cfg.maxRetries_ge⟩, rfl⟩) _
      (retryQueue_messageTtl 1)
    simpa using Int.le_floor.mp hone
  · intro h q hq ttl httl
    obtain ⟨n, ⟨h1, -⟩, rfl⟩ := mem_retryQueues.mp hq
    obtain rfl : ⌊cfg.delayMillis n⌋ = ttl := by
      simpa [retryQueue_messageTtl] using httl
    apply Int.le_floor.mpr
    simpa using h.trans (Settings.delayMillis_mono h1)

/-- The broker accepts every queue when it accepts the last retry queue. -/
theorem declareTopology_accepted_iff :
    (∀ b ∈ declareTopology cfg, ∀ ttl ∈ b.queue.messageTtl, ttl ≤ maxMessageTtl) ↔
      cfg.delayMillis cfg.maxRetries < 2 ^ 32 := by
  have hlast : ⌊cfg.delayMillis cfg.maxRetries⌋ ≤ maxMessageTtl ↔
      cfg.delayMillis cfg.maxRetries < 2 ^ 32 := by
    rw [← Int.lt_add_one_iff, Int.floor_lt]
    norm_num [maxMessageTtl]
  rw [← hlast, declareTopology_eq]
  constructor
  · intro h
    have hmem : cfg.maxRetries ∈ List.range' 1 cfg.maxRetries := by
      have := cfg.maxRetries_ge
      rw [List.mem_range'_1]
      omega
    apply h ⟨retryExchange, retryRoutingKey cfg.maxRetries, retryQueue cfg cfg.maxRetries⟩ ?_ _
      (retryQueue_messageTtl _)
    exact List.mem_append_left _ (List.mem_cons_of_mem _ (List.mem_map_of_mem hmem))
  · intro h b hb ttl httl
    simp only [List.cons_append, List.mem_cons, List.mem_append, List.mem_map, List.mem_range'_1,
      List.not_mem_nil, or_false] at hb
    rcases hb with rfl | ⟨n, hn, rfl⟩ | rfl
    · simp [paymentsNewQueue] at httl
    · obtain rfl : ⌊cfg.delayMillis n⌋ = ttl := by simpa [retryQueue_messageTtl] using httl
      exact (Int.floor_le_floor (Settings.delayMillis_mono (by omega))).trans h
    · simp [dlqQueue] at httl

/-! ## The schedule -/

theorem retryQueues_nodup {α : Type} {f : RabbitQueue → α}
    (hf : Function.Injective fun n => f (retryQueue cfg n)) : (cfg.retryQueues.map f).Nodup := by
  show (((List.range' 1 cfg.maxRetries).map (retryQueue cfg)).map f).Nodup
  rw [List.map_map]
  exact List.Nodup.map hf List.nodup_range'

/-- A schedule is usable when its whole milliseconds start at one, grow, and fit in 32 bits. -/
theorem usableSchedule_iff : UsableSchedule cfg ↔ 1 ≤ 1000 * cfg.retryBaseDelaySeconds ∧
    (∀ n, 1 ≤ n → n < cfg.maxRetries → ⌊cfg.delayMillis n⌋ < ⌊cfg.delayMillis (n + 1)⌋) ∧
    cfg.delayMillis cfg.maxRetries < 2 ^ 32 := by
  constructor
  · intro h
    exact ⟨retryQueues_positive_iff.mp h.positive, retryQueues_increasing_iff.mp h.increasing,
      declareTopology_accepted_iff.mp h.accepted⟩
  · rintro ⟨hpos, hinc, hmax⟩
    refine ⟨?_, ?_, ?_, fun n h1 hn => ?_, retryQueues_positive_iff.mpr hpos,
      retryQueues_increasing_iff.mpr hinc, declareTopology_accepted_iff.mpr hmax⟩
    · simp [Settings.retryQueues, buildRetryQueues]
    · exact retryQueues_nodup retryQueueName_injective
    · exact retryQueues_nodup retryRoutingKey_injective
    · have hget : cfg.retryQueues[n - 1]? = some (retryQueue cfg n) := by
        show ((List.range' 1 cfg.maxRetries).map (retryQueue cfg))[n - 1]? = _
        rw [List.getElem?_map, List.getElem?_range' (by omega)]
        simp [show 1 + (n - 1) = n by omega]
      refine ⟨_, _, hget, if_neg (by omega), ?_⟩
      rw [retryQueue_messageTtl, Settings.delayMillis, mul_assoc]

/-- **Which settings give a usable schedule.** The first delay is a millisecond at least, between
each delay and the next there is a whole millisecond, and the last one is less than `2 ^ 32`
milliseconds. -/
theorem retry_schedule_iff (cfg : Settings) : UsableSchedule cfg ↔
    1 ≤ 1000 * cfg.retryBaseDelaySeconds ∧
    (∀ n, 1 ≤ n → n < cfg.maxRetries → ∃ k : ℤ,
      1000 * cfg.retryBaseDelaySeconds * cfg.retryMultiplier ^ (n - 1) < k ∧
      k ≤ 1000 * cfg.retryBaseDelaySeconds * cfg.retryMultiplier ^ n) ∧
    1000 * cfg.retryBaseDelaySeconds * cfg.retryMultiplier ^ (cfg.maxRetries - 1) < 2 ^ 32 := by
  have hstep : (∀ n, 1 ≤ n → n < cfg.maxRetries → ∃ k : ℤ, cfg.delayMillis n < k ∧
      k ≤ cfg.delayMillis (n + 1)) ↔
      ∀ n, 1 ≤ n → n < cfg.maxRetries → ⌊cfg.delayMillis n⌋ < ⌊cfg.delayMillis (n + 1)⌋ := by
    simp only [exists_int_iff_floor_lt]
  rw [usableSchedule_iff, ← hstep]
  rfl

/-- Delays grow by a millisecond at least when the second one does. -/
theorem Settings.delayMillis_add_one_le {n : ℕ} (h1 : 1 ≤ n)
    (h : 1 ≤ 1000 * cfg.retryBaseDelaySeconds * (cfg.retryMultiplier - 1)) :
    cfg.delayMillis n + 1 ≤ cfg.delayMillis (n + 1) := by
  obtain ⟨m, rfl⟩ : ∃ m, n = m + 1 := ⟨n - 1, by omega⟩
  have hpow : 1 ≤ cfg.retryMultiplier ^ m := one_le_pow₀ cfg.retryMultiplier_gt.le
  have hdiff : cfg.delayMillis (m + 1 + 1) - cfg.delayMillis (m + 1) =
      1000 * cfg.retryBaseDelaySeconds * (cfg.retryMultiplier - 1) * cfg.retryMultiplier ^ m := by
    simp only [delayMillis, Nat.add_sub_cancel, pow_succ]
    ring
  have hone : 1 ≤ cfg.delayMillis (m + 1 + 1) - cfg.delayMillis (m + 1) := by
    rw [hdiff]
    exact one_le_mul_of_one_le_of_one_le h hpow
  linarith

/-- **Settings that are safe**, read off three numbers: the first delay and its growth to the second
one are a millisecond at least, and the last delay is less than `2 ^ 32` milliseconds. -/
theorem usableSchedule_of_growth (hpos : 1 ≤ 1000 * cfg.retryBaseDelaySeconds)
    (hgrow : 1 ≤ 1000 * cfg.retryBaseDelaySeconds * (cfg.retryMultiplier - 1))
    (hmax : 1000 * cfg.retryBaseDelaySeconds * cfg.retryMultiplier ^ (cfg.maxRetries - 1) < 2 ^ 32) :
    UsableSchedule cfg := by
  refine usableSchedule_iff.mpr ⟨hpos, fun n h1 _ => ?_, hmax⟩
  have hle := Int.floor_le_floor (Settings.delayMillis_add_one_le h1 hgrow)
  rw [Int.floor_add_one] at hle
  omega

example : UsableSchedule default := usableSchedule_of_growth (by norm_num [default])
  (by norm_num [default]) (by norm_num [default])

/-- Eleven retries with the default delays are too many for the broker, a delay of a tenth of a
millisecond is none, and delays can be so close that they are the same. -/
theorem retry_schedule_unusable :
    ¬UsableSchedule { (default : Settings) with maxRetries := 11, maxRetries_ge := by decide } ∧
    ¬UsableSchedule { (default : Settings) with
      retryBaseDelaySeconds := 1 / 10000, retryBaseDelaySeconds_gt := by norm_num } ∧
    ¬UsableSchedule { (default : Settings) with
      retryMultiplier := 10001 / 10000, retryMultiplier_gt := by norm_num } := by
  refine ⟨fun h => ?_, fun h => ?_, fun h => ?_⟩
  · have hmax := declareTopology_accepted_iff.mp h.accepted
    norm_num [Settings.delayMillis, default] at hmax
  · have hpos := retryQueues_positive_iff.mp h.positive
    norm_num [Settings.delayMillis, default] at hpos
  · have hinc := retryQueues_increasing_iff.mp h.increasing 1 le_rfl (by decide)
    norm_num [Settings.delayMillis, default] at hinc

end Payments
