import PaymentProcessing.Domain.Gateway
import PaymentProcessing.Properties.Answers

/-!
# The gateway of the consumer

The settings let a negative delay and a rate that is `nan` through, which the constructor of
`SimulatedGateway` does not take. The gateways it does take keep to the contract of `GatewayResult`
when their delays are finite, whatever the generator of random numbers returns, and their answers
fit the database, so that every one of them is recorded after one charge (`simulated_gateway`).
-/

namespace Payments

open Effects Python Store

/-- The reasons of the simulated gateway fit their column. -/
theorem varchar_of_mem_failureReasons {reason : Str} (h : reason ∈ failureReasons) :
    Varchar 255 reason := by
  obtain ⟨text, htext, rfl⟩ := List.mem_map.mp h
  simp only [List.mem_cons, List.not_mem_nil, or_false] at htext
  rcases htext with rfl | rfl | rfl | rfl
  all_goals exact ⟨text_ofString (by simp), by decide⟩

namespace SimulatedGateway

variable (gateway : SimulatedGateway) (rng : Rng)

/-- How long the gateway sleeps. -/
theorem delay_mem (hmin : gateway.minDelay.isFinite) (hmax : gateway.maxDelay.isFinite) :
    gateway.minDelay ≤ (gateway.charge rng).1 ∧ (gateway.charge rng).1 ≤ gateway.maxDelay := by
  have hpos : 0 ≤ gateway.minDelay := Double.le_of_not_lt hmin rfl gateway.minDelay_ge
  have hle : gateway.minDelay ≤ gateway.maxDelay := Double.le_of_not_lt hmax hmin gateway.maxDelay_ge
  have hmem := rng.uniform_mem _ _ hmin hmax hpos hle
  unfold charge
  dsimp only
  split <;> exact hmem

/-- **The gateway answers**, as `GatewayResult` demands, and the answer fits. -/
theorem exists_result : ∃ result, (gateway.charge rng).2 = .ok result ∧ result.Fits := by
  unfold charge
  dsimp only
  split
  · refine ⟨⟨.succeeded, none, by decide, by decide⟩, rfl, fun reason h => ?_⟩
    cases h
  · have hlt : rng.choice failureReasons.length < failureReasons.length :=
      rng.choice_lt _ (by decide)
    rw [List.getElem?_eq_getElem hlt]
    refine ⟨⟨.failed, some failureReasons[rng.choice failureReasons.length], by decide, by simp⟩,
      rfl, fun reason h => ?_⟩
    obtain rfl : failureReasons[rng.choice failureReasons.length] = reason := Option.some.inj h
    exact varchar_of_mem_failureReasons (List.getElem_mem hlt)

end SimulatedGateway

/-- The checks of the settings leave two things to the constructor. -/
theorem GatewaySettings.successRate_mem_iff (settings : GatewaySettings) :
    (0 ≤ settings.gatewaySuccessRate ∧ settings.gatewaySuccessRate ≤ 1) ↔
      settings.gatewaySuccessRate ≠ .nan := by
  constructor
  · rintro ⟨⟨a, -, b, hb, -⟩, -⟩ hnan
    rw [hnan] at hb
    cases hb
  · intro hnan
    rcases Double.not_lt_iff.mp settings.successRate_ge with h | h | h
    · exact absurd h hnan
    · cases h
    · rcases Double.not_lt_iff.mp settings.successRate_le with h' | h' | h'
      · cases h'
      · exact absurd h' hnan
      · exact ⟨h, h'⟩

/-- A generator that always returns the least. -/
def Rng.least : Rng where
  uniform a _ := a
  random := 0
  choice _ := 0
  uniform_mem a b _ _ _ h := by
    obtain ⟨x, hx, y, hy, hle⟩ := h
    exact ⟨⟨x, hx, x, hx, le_rfl⟩, ⟨x, hx, y, hy, hle⟩⟩
  random_mem := by decide +kernel
  choice_lt _ h := h

end Payments
