import PaymentProcessing.System.Batch
import PaymentProcessing.System.Progress

/-!
# A failure does not take the batch with it

After a call of the relay the confirmed rows are published, the failed ones postponed, and those
after a failure that looks as if the broker were down are untouched. `batch_isolation_iff` says when
this is so: when every failure the relay meets can be noted. The delay of a row that failed for the
1024th time is a power of two no double holds, and a text with the character zero is refused by the
database. Either exception comes out of the handler that is there to swallow the failure, and takes
back the whole batch.
-/

namespace Payments

open Effects Python Store

/-- The batch `rows` is committed as the outcomes of its publications say. -/
structure Isolated (R : Runtime) (σ : BrokerAnswers) (rows : List OutboxMessage)
    (x : Logged) : Prop where
  publications : publications x.2 = (handed R σ rows).map (outboxPublication R)
  confirmed : ∀ row ∈ handed R σ rows, σ (outboxPublication R row) = .ok () →
    ∃ row', x.1.outbox.rows row.id = some row' ∧ row'.publishedAt.isSome
  failed : ∀ row ∈ handed R σ rows, ∀ error, σ (outboxPublication R row) = .error error →
    ∃ row' w, x.1.outbox.rows row.id = some row' ∧ row'.attempts = row.attempts + 1 ∧
      ⟨.publish (outboxPublication R row), .error error, w⟩ ∈ x.2 ∧ w.clock < row'.nextRetryAt
  untouched : ∀ before row after, rows = before ++ row :: after →
    ∀ error, σ (outboxPublication R row) = .error error → error.connectionLike →
    ∀ r ∈ after, x.1.outbox.rows r.id = some r

/-- The relay gets these rows. -/
def Exactly (rows : List OutboxMessage) : OutboxTable → Time → List OutboxMessage → Prop :=
  fun _ _ rows' => rows' = rows

section Batch

variable {R : Runtime} {cfg : Settings} {σ : BrokerAnswers} {rows : List OutboxMessage} {t : ℕ}
  {w : World}

/-- A batch that is committed is isolated. -/
theorem Batched.isolated {now : Time} {count : ℕ} {x : Logged}
    (h : Batched R cfg σ (· ≤ ·) t w now rows count x) : Isolated R σ rows x := by
  refine ⟨h.publications, fun row hrow hσ => ?_, fun row hrow error hσ => ?_,
    fun before row after hrows error hσ hdown r hr => ?_⟩
  · obtain ⟨note, hnoted, hrow'⟩ := h.row_of_handed hrow
    cases hnoted with
    | published => exact ⟨_, hrow', rfl⟩
    | postponed hσ' => cases hσ.symm.trans hσ'
  · obtain ⟨note, hnoted, hrow'⟩ := h.row_of_handed hrow
    cases hnoted with
    | published hσ' => cases hσ.symm.trans hσ'
    | @postponed _ error' τ w₁ _ hσ' _ hlog hclock =>
      cases hσ.symm.trans hσ'
      refine ⟨_, w₁, hrow', rfl, hlog.subset List.mem_cons_self, ?_⟩
      calc w₁.clock ≤ τ := hclock
        _ < τ + backoff (row.attempts + 1) := lt_add_backoff τ _
  · have halive : brokerAlive R σ row = false := by simp [brokerAlive, hσ, hdown]
    have hsub : handed R σ rows <+: before ++ [row] := hrows ▸ handed_append R σ halive
    have hnodup := h.selected.nodup
    rw [hrows, ← List.singleton_append, ← List.append_assoc, List.map_append,
      List.nodup_append] at hnodup
    have hmem : r ∈ rows := by
      rw [hrows]
      simp [hr]
    rw [h.row_of_not_handed, h.selected.committed r hmem]
    intro row' hrow'
    exact hnodup.2.2 _ (List.mem_map_of_mem (hsub.subset hrow')) _ (List.mem_map_of_mem hr)

/-- The call ends with an isolated batch if every failure can be noted, and raises otherwise. -/
theorem isolated_wp (hsel : Selected w.outbox cfg.outboxBatchSize w.clock rows)
    (hwrote : w.outbox.Wrote t []) (hfits : ∀ row ∈ rows, row.Fits) :
    (publishPendingBatch R cfg).wp (.executing (Calling σ (Exactly rows) (· ≤ ·) cfg t))
      (fun _ x => Isolated R σ rows x ∧ ∀ row ∈ handed R σ rows, Notable R σ row)
      (fun _ _ => ¬∀ row ∈ handed R σ rows, Notable R σ row) (w, []) := by
  have hbatch : ∀ now, w.clock ≤ now → ∃ rows', Exactly rows w.outbox now rows' ∧
      Selected w.outbox cfg.outboxBatchSize now rows' := by
    intro now hnow
    exact ⟨rows, rfl, hsel.nodup, hsel.sorted, hsel.limit, hsel.committed, hsel.unlocked,
      fun r hr => ⟨(hsel.eligible r hr).1, (hsel.eligible r hr).2.trans hnow⟩⟩
  refine Action.wp_mono (publishPendingBatch_wp Nat.le_refl hbatch hwrote) ?_ ?_
  · rintro count x ⟨now, rows', rfl, hcall, hnot⟩
    exact ⟨hcall.isolated, hnot⟩
  · rintro error x ⟨now, rows', rfl, -, hnot⟩
    exact hnot hfits

/-- A failure that cannot be noted takes the batch with it. -/
theorem not_isolated (hsel : Selected w.outbox cfg.outboxBatchSize w.clock rows)
    (hwrote : w.outbox.Wrote t []) (hfits : ∀ row ∈ rows, row.Fits)
    (hnot : ¬∀ row ∈ handed R σ rows, Notable R σ row) :
    ¬(publishPendingBatch R cfg).wp (.executing (Calling σ (Exactly rows) (· ≤ ·) cfg t))
      (fun _ => Isolated R σ rows) (fun _ _ => False) (w, []) := by
  intro h
  obtain ⟨out, x, hwp, hpost⟩ := Prog.exists_executes_both (isolated_wp hsel hwrote hfits) h
  cases out with
  | ok count => exact hnot hwp.2
  | error error => exact hpost

end Batch

/-- **A failure does not take the batch with it**, if and only if every failure up to the first one
that looks as if the broker were down is less than the 1024th of its row and has a text the
database takes. -/
theorem batch_isolation_iff (R : Runtime) (cfg : Settings) (σ : BrokerAnswers) (t : ℕ) (w : World)
    (rows : List OutboxMessage) (hsel : Selected w.outbox cfg.outboxBatchSize w.clock rows)
    (hwrote : w.outbox.Wrote t []) (hfits : ∀ row ∈ rows, row.Fits) :
    (publishPendingBatch R cfg).wp (.executing (Calling σ (Exactly rows) (· ≤ ·) cfg t))
      (fun _ => Isolated R σ rows) (fun _ _ => False) (w, []) ↔
    ∀ row ∈ handed R σ rows, ∀ error, σ (outboxPublication R row) = .error error →
      row.attempts < 1023 ∧ Text (errorText R (.foreign error)) := by
  have hnotable : (∀ row ∈ handed R σ rows, Notable R σ row) ↔
      ∀ row ∈ handed R σ rows, ∀ error, σ (outboxPublication R row) = .error error →
        row.attempts < 1023 ∧ Text (errorText R (.foreign error)) := by
    unfold Notable maxPowerOfTwo
    simp only [Nat.add_lt_iff_lt_sub_right, Nat.reduceSub]
  rw [← hnotable]
  constructor
  · intro h
    by_contra hnot
    exact not_isolated hsel hwrote hfits hnot h
  · intro hnot
    refine Action.wp_mono (isolated_wp hsel hwrote hfits) ?_ ?_
    · rintro _ x ⟨hiso, -⟩
      exact hiso
    · rintro _ x hnot'
      exact hnot' hnot

theorem text_unreachable (R : Runtime) : Text (errorText R (.foreign unreachable)) :=
  (text_ofString (by simp)).take maxErrorLength

/-- What the relay has noted of a broker that cannot be reached fits. -/
theorem fits_of_unreachable {R : Runtime} {m : OutboxMessage} (hlt : m.attempts < maxPowerOfTwo)
    (herror : ∀ text ∈ m.lastError, text = errorText R (.foreign unreachable)) : m.Fits := by
  constructor
  · exact (Nat.le_of_lt hlt).trans (by decide)
  · intro text htext
    rw [herror text htext]
    exact text_unreachable R

/-- The event for the book is refused once more after 1023 refusals, in a run of the service. -/
theorem batch_isolation_overflow :
    ∃ (p : Payment) (m : OutboxMessage) (s : (service .transparent default).State),
      (service .transparent default).Reachable s ∧ Idle s ∧ Accepted bookCommand p m s.world ∧
      Selected s.world.outbox (default : Settings).outboxBatchSize s.world.clock [m] ∧
      m.attempts = 1023 ∧
      ¬(publishPendingBatch .transparent default).wp (.executing
          (Calling (fun _ => .error unreachable) (Exactly [m]) (· ≤ ·) default s.born))
        (fun _ => Isolated .transparent (fun _ => .error unreachable) [m]) (fun _ _ => False)
        (s.world, []) := by
  obtain ⟨f, hf⟩ := bookCommand_validated.exists_fingerprint .transparent
  obtain ⟨p, m, s, h, hi, hacc, hattempts, herror⟩ := exists_postponed default (n := 1023) hf
    (by decide)
  have hfits : m.Fits := fits_of_unreachable (by rw [hattempts]; decide) herror
  refine ⟨p, m, s, h, hi, hacc, hacc.selected default, hattempts,
    not_isolated (hacc.selected default) (hacc.wrote s.born).2 (by simpa using hfits) ?_⟩
  intro hnot
  have hlt := (hnot m (by simp [handed, brokerAlive, unreachable]) unreachable rfl).1
  rw [hattempts] at hlt
  exact absurd hlt (by decide)

/-- The broker cannot be reached while this row is published. -/
def downFor (m : OutboxMessage) : BrokerAnswers := fun p =>
  if p.message.messageId = some m.id.str then .error unreachable else .ok ()

section DownFor

variable {R : Runtime} {m m' row : OutboxMessage}

theorem downFor_self : downFor m (outboxPublication R m) = .error unreachable := if_pos rfl

theorem downFor_of_ne (h : m.id ≠ m'.id) : downFor m (outboxPublication R m') = .ok () := by
  refine if_neg fun heq => h ?_
  exact (UUID.str_injective (Option.some.inj heq)).symm

/-- The first failures of a row can be noted. -/
theorem notable_downFor (hlt : row.attempts + 1 < maxPowerOfTwo) : Notable R (downFor m) row := by
  intro error hσ
  unfold downFor at hσ
  split at hσ
  · cases hσ
    exact ⟨hlt, text_unreachable R⟩
  · cases hσ

end DownFor

/-- Two events wait, and the broker cannot be reached for the first: it is postponed, and the other is
left alone. -/
theorem batch_isolation_pair :
    ∃ (m m' : OutboxMessage) (s : (service .transparent default).State),
      (service .transparent default).Reachable s ∧ TwoEvents m m' s.world ∧
      handed .transparent (downFor m) [m, m'] = [m] ∧
      (publishPendingBatch .transparent default).wp (.executing
          (Calling (downFor m) (Exactly [m, m']) (· ≤ ·) default s.born))
        (fun _ => Isolated .transparent (downFor m) [m, m']) (fun _ _ => False) (s.world, []) := by
  obtain ⟨m, m', s, h, -, htwo⟩ := exists_two_accepted default .transparent
  have hbreak : handed .transparent (downFor m) [m, m'] = [m] := by
    simp [handed, brokerAlive, downFor_self, unreachable]
  have hfits : ∀ row ∈ [m, m'], row.Fits := by
    intro row hrow
    obtain ⟨-, -, hattempts, -, herror⟩ := htwo.untried row hrow
    exact ⟨by simp [hattempts], by simp [herror]⟩
  refine ⟨m, m', s, h, htwo, hbreak, (batch_isolation_iff .transparent default _ s.born s.world
    [m, m'] (htwo.selected (by decide)) (htwo.wrote s.born) hfits).mpr ?_⟩
  rw [hbreak]
  intro row hrow error hσ
  obtain rfl := List.mem_singleton.mp hrow
  obtain ⟨-, -, hattempts, -, -⟩ := htwo.untried row (by simp)
  have hnotable := notable_downFor (by rw [hattempts]; decide) error hσ
  exact ⟨by rw [hattempts]; decide, hnotable.2⟩

end Payments
