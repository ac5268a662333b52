import PaymentProcessing.Domain.Basic
import PaymentProcessing.Foundations.Python.Float

/-!
# The simulated gateway

`SimulatedGateway`, which the consumer runs with: it sleeps for a random time and answers with a
random result. Random numbers come from a generator, of which only the documented ranges are known
(`Rng`). The settings are floats, which may be `nan` or infinite.
-/

namespace Payments

open Python

/-- The settings of the gateway, with the checks of `Settings`: they refuse what lies outside of a
range, which `nan` does not. -/
structure GatewaySettings where
  gatewayMinDelaySeconds : Double
  gatewayMaxDelaySeconds : Double
  gatewaySuccessRate : Double
  /-- `Settings._check_delay_range`. -/
  maxDelay_ge : ¬gatewayMaxDelaySeconds < gatewayMinDelaySeconds
  successRate_ge : ¬gatewaySuccessRate < 0
  successRate_le : ¬1 < gatewaySuccessRate

/-- The settings when the environment sets none. -/
instance : Inhabited GatewaySettings where
  default :=
    { gatewayMinDelaySeconds := .round false 2
      gatewayMaxDelaySeconds := .round false 5
      gatewaySuccessRate := .round false (9 / 10)
      maxDelay_ge := by decide +kernel
      successRate_ge := by decide +kernel
      successRate_le := by decide +kernel }

/-- `_FAILURE_REASONS`. -/
def failureReasons : List Str :=
  ["insufficient_funds", "card_declined", "issuer_unavailable", "fraud_suspected"].map Str.ofString

/-- `GatewayResult`, with the exceptions of `__post_init__`. -/
def gatewayResult (status : PaymentStatus) (failureReason : Option Str) : Except Exn GatewayResult :=
  if hf : status.isFinal then
    if hr : status = .failed ↔ failureReason.isSome then .ok ⟨status, failureReason, hf, hr⟩
    else .error (.value (Str.ofString
      "failure_reason задаётся тогда и только тогда, когда статус failed"))
  else .error (.value (Str.ofString "Шлюз обязан вернуть финальный статус"))

/-- A `random.Random`: what its next calls return. -/
structure Rng where
  uniform : Double → Double → Double
  random : Double
  /-- The index that `choice` takes of so many items. -/
  choice : ℕ → ℕ
  /-- Between two finite bounds that are not negative; elsewhere `b - a` may be infinite or `nan`. -/
  uniform_mem : ∀ a b, a.isFinite → b.isFinite → 0 ≤ a → a ≤ b →
    a ≤ uniform a b ∧ uniform a b ≤ b
  random_mem : 0 ≤ random ∧ random < 1
  choice_lt : ∀ n, 0 < n → choice n < n

/-- `SimulatedGateway`, with the checks of its constructor. -/
structure SimulatedGateway where
  minDelay : Double
  maxDelay : Double
  successRate : Double
  minDelay_ge : ¬minDelay < 0
  maxDelay_ge : ¬maxDelay < minDelay
  successRate_mem : 0 ≤ successRate ∧ successRate ≤ 1

namespace SimulatedGateway

/-- `SimulatedGateway.__init__`. -/
def new (minDelaySeconds maxDelaySeconds successRate : Double) : Except Exn SimulatedGateway :=
  if hd : minDelaySeconds < 0 ∨ maxDelaySeconds < minDelaySeconds then
    .error (.value (Str.ofString "Некорректный диапазон задержки шлюза"))
  else if hr : 0 ≤ successRate ∧ successRate ≤ 1 then
    .ok ⟨minDelaySeconds, maxDelaySeconds, successRate, (not_or.mp hd).1, (not_or.mp hd).2, hr⟩
  else .error (.value (Str.ofString "success_rate должен лежать в [0, 1]"))

/-- `SimulatedGateway.charge`: how long it sleeps, and what it answers after that. -/
def charge (gateway : SimulatedGateway) (rng : Rng) : Double × Except Exn GatewayResult :=
  let delay := rng.uniform gateway.minDelay gateway.maxDelay
  if rng.random < gateway.successRate then (delay, gatewayResult .succeeded none)
  else (delay, gatewayResult .failed (failureReasons[rng.choice failureReasons.length]?))

/-! ## What the checks let through -/

variable {gateway : SimulatedGateway} {a b r : Double}

theorem new_eq_ok_iff : new a b r = .ok gateway ↔
    gateway.minDelay = a ∧ gateway.maxDelay = b ∧ gateway.successRate = r := by
  unfold new
  constructor
  · intro h
    split at h
    · cases h
    · split at h
      · cases h
        exact ⟨rfl, rfl, rfl⟩
      · cases h
  · rintro ⟨rfl, rfl, rfl⟩
    rw [dif_neg (by simp [gateway.minDelay_ge, gateway.maxDelay_ge]), dif_pos gateway.successRate_mem]

/-- **Which arguments the constructor takes.** -/
theorem exists_new_iff : (∃ gateway, new a b r = .ok gateway) ↔
    ¬a < 0 ∧ ¬b < a ∧ 0 ≤ r ∧ r ≤ 1 := by
  constructor
  · rintro ⟨gateway, h⟩
    obtain ⟨rfl, rfl, rfl⟩ := new_eq_ok_iff.mp h
    exact ⟨gateway.minDelay_ge, gateway.maxDelay_ge, gateway.successRate_mem⟩
  · rintro ⟨ha, hb, hr⟩
    exact ⟨⟨a, b, r, ha, hb, hr⟩, new_eq_ok_iff.mpr ⟨rfl, rfl, rfl⟩⟩

end SimulatedGateway

end Payments
