import Mathlib.Data.Rat.Defs
import Mathlib.Data.Nat.Notation

/-!
# Configuration

The settings the modelled code reads, with the bounds `Settings` checks. The retry delays are exact
rational numbers, where the source has floats, which may be `nan` or infinite.
-/

namespace Payments

/-- `Settings`. -/
structure Settings where
  webhookSigningSecret : String
  maxRetries : ℕ
  retryBaseDelaySeconds : ℚ
  retryMultiplier : ℚ
  outboxBatchSize : ℕ
  maxRetries_ge : 1 ≤ maxRetries
  retryBaseDelaySeconds_gt : 0 < retryBaseDelaySeconds
  retryMultiplier_gt : 1 < retryMultiplier
  outboxBatchSize_ge : 1 ≤ outboxBatchSize

/-- The settings when the environment sets none. -/
instance : Inhabited Settings where
  default :=
    { webhookSigningSecret := "local-dev-webhook-secret"
      maxRetries := 3
      retryBaseDelaySeconds := 1
      retryMultiplier := 5
      outboxBatchSize := 50
      maxRetries_ge := by decide
      retryBaseDelaySeconds_gt := by decide
      retryMultiplier_gt := by decide
      outboxBatchSize_ge := by decide }

end Payments
