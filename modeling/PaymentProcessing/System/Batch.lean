import PaymentProcessing.Foundations.Store.Drain
import PaymentProcessing.System.Live
import PaymentProcessing.System.RelayProtocol

/-!
# One call of the relay

What `publish_pending_batch` does on a live database when the outcome of every publication is given:
`publishPendingBatch_wp` says which rows are handed to the broker, what becomes of every row, and
when the call raises. It raises if it notes a failure it cannot note (`Notable`), and in no other
case.
-/

namespace Payments

open Effects Python Store

/-! ## The batch -/

/-- The rows that wait to be published. -/
def eligible (T : OutboxTable) (now : Time) : Set OutboxMessage :=
  {row | T.rows row.id = some row ∧ row.publishedAt = none ∧ row.nextRetryAt ≤ now}

/-- The relay gets the first eligible rows, up to the size of a batch. -/
def FirstEligible (cfg : Settings) : OutboxTable → Time → List OutboxMessage → Prop :=
  fun T now rows => First OutboxMessage.createdAt (eligible T now) cfg.outboxBatchSize rows

/-- Nobody has locked or written a row. -/
structure Quiet (t : ℕ) (T : OutboxTable) : Prop where
  unlocked : ∀ id, T.lock id = none
  wrote : T.Wrote t []

section Eligible

variable {T : OutboxTable} {now : Time}

theorem finite_eligible (T : OutboxTable) (now : Time) : (eligible T now).Finite := by
  have : Finite UUID := Finite.of_injective BitVec.toFin fun _ _ => BitVec.eq_of_toFin_eq
  apply Set.Finite.of_injOn (f := OutboxMessage.id) (Set.mapsTo_univ _ _) ?_ Set.finite_univ
  rintro row ⟨hrow, -⟩ row' ⟨hrow', -⟩ hid
  rw [hid] at hrow
  exact Option.some.inj (hrow.symm.trans hrow')

/-- What may be selected when nothing is locked. -/
theorem Quiet.selected {t : ℕ} (h : Quiet t T) {cfg : Settings} {rows : List OutboxMessage}
    (hfirst : FirstEligible cfg T now rows) : Selected T cfg.outboxBatchSize now rows := by
  refine ⟨?_, hfirst.sorted, hfirst.length_le, fun r hr => (hfirst.mem r hr).1,
    fun r _ => h.unlocked r.id, fun r hr => (hfirst.mem r hr).2⟩
  apply List.Nodup.map_on _ hfirst.nodup
  intro r hr r' hr' hid
  have hrow := (hfirst.mem r hr).1
  rw [hid] at hrow
  exact Option.some.inj (hrow.symm.trans (hfirst.mem r' hr').1)

end Eligible

/-! ## The outcomes of a batch -/

/-- An outcome for every publication. -/
abbrev BrokerAnswers : Type := Publication → Except ForeignError Unit

section Answers

variable (R : Runtime) (σ : BrokerAnswers)

/-- The broker seems alive after the publication of a row. -/
def brokerAlive (row : OutboxMessage) : Bool :=
  match σ (outboxPublication R row) with
  | .ok _ => true
  | .error error => !error.connectionLike

/-- The publication of a row is confirmed. -/
def confirmed (row : OutboxMessage) : Bool := (σ (outboxPublication R row)).isOk

/-- The rows of a batch that are handed to the broker: those up to the first failure that looks as
if the broker were down. -/
def handed : List OutboxMessage → List OutboxMessage
  | [] => []
  | row :: rows => if brokerAlive R σ row then row :: handed rows else [row]

/-- A failure of the row can be noted: the delay has a value, and the text fits its column. -/
def Notable (row : OutboxMessage) : Prop :=
  ∀ error, σ (outboxPublication R row) = .error error →
    row.attempts + 1 < maxPowerOfTwo ∧ Text (errorText R (.foreign error))

theorem handed_isPrefix (rows : List OutboxMessage) : handed R σ rows <+: rows := by
  induction rows with
  | nil => exact List.nil_prefix
  | cons row rows ih =>
    unfold handed
    split
    · exact (List.prefix_cons_inj row).mpr ih
    · exact ⟨rows, rfl⟩

theorem handed_eq_nil_iff {rows : List OutboxMessage} : handed R σ rows = [] ↔ rows = [] := by
  cases rows with
  | nil => exact Iff.rfl
  | cons row rows =>
    unfold handed
    split <;> simp

/-- What comes after a failure that looks as if the broker were down is not handed over. -/
theorem handed_append {before after : List OutboxMessage} {row : OutboxMessage}
    (h : brokerAlive R σ row = false) :
    handed R σ (before ++ row :: after) <+: before ++ [row] := by
  induction before with
  | nil => simp [handed, h]
  | cons row' before ih =>
    rw [List.cons_append, handed]
    split
    · exact (List.prefix_cons_inj row').mpr ih
    · exact ⟨before ++ [row], rfl⟩

end Answers

/-- A row that failed waits. -/
theorem lt_add_backoff (τ : Time) (n : ℕ) : τ < τ + backoff n := by
  apply Nat.lt_add_of_pos_right
  apply Nat.mul_pos
  · exact Nat.lt_min.mpr ⟨Nat.two_pow_pos n, by decide⟩
  · decide

/-! ## The history of a batch -/

/-- The publications in a history. -/
def publications (log : History Op Res World) : List Publication := log.filterMap fun
  | ⟨.publish p, _⟩ => some p
  | _ => none

theorem publications_append (log log' : History Op Res World) :
    publications (log ++ log') = publications log ++ publications log' :=
  List.filterMap_append

/-- The note of a row says what happened to it, and the clock was read after. -/
inductive Attested (R : Runtime) (σ : BrokerAnswers) (Clock : Time → Time → Prop)
    (log : History Op Res World) : Mark → Prop
  | published {row : OutboxMessage} (h : σ (outboxPublication R row) = .ok ()) (τ : Time) :
      Attested R σ Clock log ⟨row, .published τ⟩
  | postponed {row : OutboxMessage} {error : ForeignError} {τ : Time} {w w' : World}
      (h : σ (outboxPublication R row) = .error error) (hlt : row.attempts + 1 < maxPowerOfTwo)
      (hlog : [⟨.publish (outboxPublication R row), .error error, w⟩, ⟨.now, τ, w'⟩] <:+: log)
      (hclock : Clock w.clock τ) : Attested R σ Clock log ⟨row, .postponed (.foreign error) τ⟩

theorem Attested.mono {R : Runtime} {σ : BrokerAnswers} {Clock : Time → Time → Prop}
    {log log' : History Op Res World} {m : Mark} (h : Attested R σ Clock log m)
    (hsub : log <:+: log') : Attested R σ Clock log' m := by
  cases h with
  | published h τ => exact .published h τ
  | postponed h hlt hlog hclock => exact .postponed h hlt (hlog.trans hsub) hclock

/-! ## The surroundings -/

/-- The database is live, the relay gets the rows in `batch`, and the broker answers as `σ` says. -/
def batchAnswer (σ : BrokerAnswers) (batch : OutboxTable → Time → List OutboxMessage → Prop)
    (w : World) : (o : Op) → Res o → Prop
  | .selectBatchForUpdate _ now, r => ∃ rows, r = .ok rows ∧ batch w.outbox now rows
  | .publish p, r => r = σ p
  | o, r => Live w o r

/-- How the relay is executed. -/
abbrev Calling (σ : BrokerAnswers) (batch : OutboxTable → Time → List OutboxMessage → Prop)
    (Clock : Time → Time → Prop) (cfg : Settings) (t : ℕ) :
    (o : Op) → Res o → Logged → Logged → Prop :=
  WithHistory (Amid (Ticks Clock) (batchAnswer σ batch) cfg t)

section Call

variable {R : Runtime} {cfg : Settings} {σ : BrokerAnswers}
  {batch : OutboxTable → Time → List OutboxMessage → Prop} {Clock : Time → Time → Prop} {t : ℕ}
  {w : World} {log : History Op Res World} {err : Exn → Logged → Prop}

/-- The clock is read. -/
theorem wp_now_calling (hrefl : ∀ τ, Clock τ τ)
    {ok : Time → Logged → Prop}
    (h : ∀ τ w', Clock w.clock τ → w'.clock = τ → w'.outbox = w.outbox →
      ok τ (w', log ++ [⟨.now, τ, w'⟩])) :
    now.wp (.executing (Calling σ batch Clock cfg t)) ok err (w, log) := by
  refine pre_withHistory ⟨_, _, w, ⟨_, hrefl _, rfl⟩, .other rfl _, .now _⟩ ?_
  rintro r w' ⟨_, ⟨τ, hτ, rfl⟩, -, hx⟩
  cases hx with
  | now => exact h τ _ hτ rfl rfl

/-- A publication is answered. -/
theorem wp_publish_calling (hrefl : ∀ τ, Clock τ τ) {p : Publication}
    {ok : Unit → Logged → Prop}
    (hok : ∀ w', σ p = .ok () → w'.outbox = w.outbox → ok () (w', log ++ [⟨.publish p, .ok (), w'⟩]))
    (herr : ∀ e w', σ p = .error e → w'.outbox = w.outbox →
      err (.foreign e) (w', log ++ [⟨.publish p, .error e, w'⟩])) :
    (publish p).wp (.executing (Calling σ batch Clock cfg t)) ok err (w, log) := by
  refine wp_ask.mpr (pre_withHistory ?_ ?_)
  · cases hσ : σ p with
    | ok u => exact ⟨.ok (), _, w, ⟨_, hrefl _, rfl⟩, hσ.symm, .confirmed _ _⟩
    | error e => exact ⟨.error e, _, w, ⟨_, hrefl _, rfl⟩, hσ.symm, .refused _ _ _⟩
  · rintro r w' ⟨_, ⟨τ, hτ, rfl⟩, hr, hx⟩
    cases hx with
    | confirmed => exact hok _ hr.symm rfl
    | confirmationLost _ _ e => exact herr e _ hr.symm rfl
    | refused _ _ e => exact herr e _ hr.symm rfl

/-- A row is published, and its outcome noted. -/
theorem publishOne_wp (hrefl : ∀ τ, Clock τ τ) (row : OutboxMessage) :
    (publishOne R row).wp (.executing (Calling σ batch Clock cfg t))
      (fun a x => x.1.outbox = w.outbox ∧ ∃ new note, x.2 = log ++ new ∧
        publications new = [outboxPublication R row] ∧ Attested R σ Clock new ⟨row, note⟩ ∧
        a = (Mark.result R ⟨row, note⟩, brokerAlive R σ row))
      (fun _ _ => ∃ error, σ (outboxPublication R row) = .error error ∧
        maxPowerOfTwo ≤ row.attempts + 1) (w, log) := by
  rw [publishOne, Action.wp_bind, Action.wp_attempt]
  apply wp_publish_calling hrefl
  · intro w₁ hσ hw₁
    rw [Action.wp_bind]
    apply wp_now_calling hrefl
    intro τ w₂ _ _ hw₂
    refine ⟨hw₂.trans hw₁, _, .published τ, List.append_assoc .., rfl, .published hσ τ, ?_⟩
    simp only [brokerAlive, hσ]
    rfl
  · intro error w₁ hσ hw₁
    dsimp only
    rw [Action.wp_bind, nextRetryAt]
    split
    · rename_i hmax
      exact ⟨error, hσ, hmax⟩
    · rename_i hmax
      rw [Action.wp_bind]
      apply wp_now_calling hrefl
      intro τ w₂ hclock _ hw₂
      refine ⟨hw₂.trans hw₁, _, .postponed (.foreign error) τ, List.append_assoc .., rfl,
        .postponed hσ (by omega) List.infix_rfl hclock, ?_⟩
      simp only [brokerAlive, hσ]
      rfl

theorem isSome_publishedAt {m : Mark} (h : Attested R σ Clock log m)
    (hnone : m.row.publishedAt = none) :
    (m.result R).publishedAt.isSome = confirmed R σ m.row := by
  cases h with
  | published h τ =>
    rw [confirmed, h]
    rfl
  | postponed h _ _ _ =>
    rw [confirmed, h]
    exact congrArg _ hnone

/-- **The loop of the relay**: the rows that are handed over are noted. -/
theorem publishRows_wp (hrefl : ∀ τ, Clock τ τ) {rows : List OutboxMessage}
    (hnone : ∀ row ∈ rows, row.publishedAt = none) :
    (publishRows R rows).wp (.executing (Calling σ batch Clock cfg t))
      (fun a x => x.1.outbox = w.outbox ∧ ∃ (new : History Op Res World) (marks : List Mark),
        x.2 = log ++ new ∧ publications new = (handed R σ rows).map (outboxPublication R) ∧
        marks.map Mark.row = handed R σ rows ∧ (∀ m ∈ marks, Attested R σ Clock new m) ∧
        a = (marks.map (Mark.result R), (handed R σ rows).countP (confirmed R σ)))
      (fun _ _ => ∃ row ∈ handed R σ rows, ¬Notable R σ row) (w, log) := by
  induction rows generalizing w log with
  | nil => exact ⟨rfl, [], [], (List.append_nil _).symm, rfl, rfl, by simp, rfl⟩
  | cons row rows ih =>
    rw [publishRows, Action.wp_bind]
    refine Action.wp_mono (publishOne_wp hrefl row) ?_ ?_
    · rintro _ ⟨w₁, _⟩ ⟨hw₁, new, note, rfl, hpub, hnoted, rfl⟩
      have hsome := isSome_publishedAt hnoted (hnone row List.mem_cons_self)
      dsimp only at hsome ⊢
      rw [hsome, handed]
      split
      · rw [Action.wp_bind]
        refine Action.wp_mono (ih fun r hr => hnone r (List.mem_cons_of_mem _ hr)) ?_ ?_
        · rintro _ ⟨w₂, _⟩ ⟨hw₂, new', marks, rfl, hpub', hmarks, hnoted', rfl⟩
          refine ⟨hw₂.trans hw₁, new ++ new', ⟨row, note⟩ :: marks, List.append_assoc .., ?_, ?_, ?_,
            ?_⟩
          · rw [publications_append, hpub, hpub']
            rfl
          · rw [List.map_cons, hmarks]
          · intro m hm
            rcases List.mem_cons.mp hm with rfl | hm
            · exact hnoted.mono (List.prefix_append _ _).isInfix
            · exact (hnoted' m hm).mono (List.suffix_append _ _).isInfix
          · rw [List.map_cons, List.countP_cons, Nat.add_comm]
        · rintro _ _ ⟨row', hrow', hnot⟩
          exact ⟨row', List.mem_cons_of_mem _ hrow', hnot⟩
      · refine ⟨hw₁, new, [⟨row, note⟩], rfl, hpub, rfl, by simpa using hnoted, ?_⟩
        rw [List.countP_singleton]
        rfl
    · rintro _ _ ⟨error, hσ, hmax⟩
      refine ⟨row, ?_, fun h => absurd (h error hσ).1 (by omega)⟩
      unfold handed
      split <;> exact List.mem_cons_self

/-! ## The call -/

/-- The session is closed. -/
theorem wp_close_calling (hrefl : ∀ τ, Clock τ τ)
    {ok : Unit → Logged → Prop}
    (h : ∀ w', w'.outbox = w.outbox.rollback t → ok () (w', log ++ [⟨.close, (), w'⟩])) :
    close.wp (.executing (Calling σ batch Clock cfg t)) ok err (w, log) := by
  refine pre_withHistory ⟨_, _, w, ⟨_, hrefl _, rfl⟩, .other rfl _, .closed _⟩ ?_
  rintro r w' ⟨_, ⟨τ, -, rfl⟩, -, hx⟩
  cases hx with
  | closed => exact h _ rfl

/-- The batch is selected, and its rows are locked. -/
theorem wp_select_calling (hrefl : ∀ τ, Clock τ τ) {limit : ℕ} {τ : Time}
    {ok : List OutboxMessage → Logged → Prop}
    (hbatch : ∃ rows, batch w.outbox τ rows ∧ Selected w.outbox limit τ rows)
    (h : ∀ rows w', batch w.outbox τ rows → Selected w.outbox limit τ rows →
      w'.outbox.rows = w.outbox.rows → w'.outbox.pending = w.outbox.pending →
      (∀ id, w'.outbox.lock id = if id ∈ rows.map OutboxMessage.id then some t else
        w.outbox.lock id) →
      ok rows (w', log ++ [⟨.selectBatchForUpdate limit τ, .ok rows, w'⟩])) :
    (selectBatchForUpdate limit τ).wp (.executing (Calling σ batch Clock cfg t)) ok err (w, log) := by
  refine wp_ask.mpr (pre_withHistory ?_ ?_)
  · obtain ⟨rows, hb, hsel⟩ := hbatch
    exact ⟨_, _, w, ⟨_, hrefl _, rfl⟩, ⟨rows, rfl, hb⟩, .batch hsel⟩
  · rintro r w' ⟨_, ⟨_, -, rfl⟩, ⟨rows, hr, hb⟩, hx⟩
    cases hx with
    | batch hsel =>
      cases hr
      exact h rows _ hb hsel rfl rfl fun _ => rfl
    | batchFailed => cases hr

/-- The notes are written, if they fit. -/
theorem wp_updateOutbox_calling (hrefl : ∀ τ, Clock τ τ) {rows : List OutboxMessage}
    {ok : Unit → Logged → Prop}
    (hlock : ∀ r ∈ rows, w.outbox.lock r.id = some t)
    (hok : (∀ r ∈ rows, r.Fits) → ∀ w', w'.outbox = w.outbox.update t rows hlock →
      ok () (w', log ++ [⟨.updateOutbox rows, .ok (), w'⟩]))
    (herr : (¬∀ r ∈ rows, r.Fits) → ∀ e x, err e x) :
    (updateOutbox rows).wp (.executing (Calling σ batch Clock cfg t)) ok err (w, log) := by
  refine wp_ask.mpr (pre_withHistory ?_ ?_)
  · by_cases hfits : ∀ r ∈ rows, r.Fits
    · exact ⟨_, _, w, ⟨_, hrefl _, rfl⟩, .updatedOutbox hfits, .updatedOutbox hlock⟩
    · exact ⟨_, _, w, ⟨_, hrefl _, rfl⟩, .updateOutboxRefused hfits ⟨[], [], false, false⟩,
        .updateOutboxFailed _ _ _⟩
  · rintro r w' ⟨_, ⟨_, -, rfl⟩, hlive, hx⟩
    change Live _ _ _ at hlive
    cases hlive with
    | updatedOutbox hfits =>
      cases hx with
      | updatedOutbox => exact hok hfits _ rfl
    | updateOutboxRefused hfits => exact herr hfits _ _
    | other h => cases h

/-- The commit takes effect. -/
theorem wp_commit_calling (hrefl : ∀ τ, Clock τ τ)
    {ok : Unit → Logged → Prop}
    (h : ∀ w', w'.outbox = w.outbox.commit t → ok () (w', log ++ [⟨.commit, .ok (), w'⟩])) :
    commit.wp (.executing (Calling σ batch Clock cfg t)) ok err (w, log) := by
  refine wp_ask.mpr (pre_withHistory ⟨_, _, w, ⟨_, hrefl _, rfl⟩, .committed, .committed _⟩ ?_)
  rintro r w' ⟨_, ⟨_, -, rfl⟩, hlive, hx⟩
  obtain ⟨rfl, rfl⟩ := Live.of_commit hlive hx
  exact h _ rfl

/-- **What a call of the relay leaves**, when it reads the time `now` first and gets `rows`. -/
structure Batched (R : Runtime) (cfg : Settings) (σ : BrokerAnswers) (Clock : Time → Time → Prop)
    (t : ℕ) (w : World) (now : Time) (rows : List OutboxMessage) (count : ℕ) (x : Logged) :
    Prop where
  read : ∃ w₁, x.2.head? = some ⟨.now, now, w₁⟩
  clock : Clock w.clock now
  selected : Selected w.outbox cfg.outboxBatchSize now rows
  publications : publications x.2 = (handed R σ rows).map (outboxPublication R)
  count : count = (handed R σ rows).countP (confirmed R σ)
  marks : ∃ marks : List Mark, marks.map Mark.row = handed R σ rows ∧
    (∀ m ∈ marks, Attested R σ Clock x.2 m) ∧
    ∀ id, x.1.outbox.rows id =
      ((marks.map (Mark.result R)).find? fun r => r.id = id).or (w.outbox.rows id)
  lock : ∀ id, x.1.outbox.lock id = w.outbox.released t id
  wrote : x.1.outbox.Wrote t []

/-- A note fits its row if the failure can be noted. -/
theorem Attested.fits {m : Mark} (h : Attested R σ Clock log m) (hrow : m.row.Fits)
    (hnot : Notable R σ m.row) : (m.result R).Fits := by
  cases h with
  | published h τ => exact ⟨hrow.attempts, nofun⟩
  | @postponed row error τ w w' h hlt _ _ =>
    constructor
    · exact le_trans (Nat.le_of_lt hlt) (by decide)
    · rintro _ ⟨⟩
      exact (hnot error h).2

/-- A note that fits is notable. -/
theorem Attested.notable {m : Mark} (h : Attested R σ Clock log m) (hfits : (m.result R).Fits) :
    Notable R σ m.row := by
  intro error hσ
  cases h with
  | published h τ => cases h.symm.trans hσ
  | postponed h hlt _ _ =>
    cases h.symm.trans hσ
    exact ⟨hlt, hfits.lastError _ rfl⟩

/-- An element is found by a key that no other element has. -/
theorem find?_of_nodup_map {α β : Type} [DecidableEq β] {key : α → β} {l : List α}
    (h : (l.map key).Nodup) {a : α} (ha : a ∈ l) : (l.find? fun b => key b = key a) = some a := by
  cases hf : l.find? fun b => key b = key a with
  | none => exact absurd (List.find?_eq_none.mp hf a ha) (by simp)
  | some b =>
    have hkey : key b = key a := by simpa using List.find?_some hf
    rw [List.inj_on_of_nodup_map h (List.mem_of_find?_eq_some hf) ha hkey]

/-- The locks after a transaction that took free rows. -/
theorem released_of_acquired {T T' : OutboxTable} {ids : List UUID}
    (hlock : ∀ id, T'.lock id = if id ∈ ids then some t else T.lock id)
    (hfree : ∀ id ∈ ids, T.lock id = none) (id : UUID) : T'.released t id = T.released t id := by
  unfold Table.released
  rw [hlock id]
  by_cases hid : id ∈ ids
  · simp [hid, hfree id hid]
  · simp [hid]

/-- **A call of the relay** on a live database. -/
theorem publishPendingBatch_wp (hrefl : ∀ τ, Clock τ τ)
    (hbatch : ∀ now, Clock w.clock now →
      ∃ rows, batch w.outbox now rows ∧ Selected w.outbox cfg.outboxBatchSize now rows)
    (hw : w.outbox.Wrote t []) :
    (publishPendingBatch R cfg).wp (.executing (Calling σ batch Clock cfg t))
      (fun count x => ∃ now rows, batch w.outbox now rows ∧
        Batched R cfg σ Clock t w now rows count x ∧ ∀ row ∈ handed R σ rows, Notable R σ row)
      (fun _ _ => ∃ now rows, batch w.outbox now rows ∧
        Selected w.outbox cfg.outboxBatchSize now rows ∧
        ((∀ row ∈ rows, row.Fits) → ¬∀ row ∈ handed R σ rows, Notable R σ row)) (w, []) := by
  rw [publishPendingBatch, Action.wp_bind]
  apply wp_now_calling hrefl
  intro now w₁ hclock _ hw₁
  rw [Action.wp_within, Action.wp_bind]
  apply wp_select_calling hrefl (by rw [hw₁]; exact hbatch now hclock)
  rw [hw₁]
  intro rows w₂ hb hsel hrows hpending hlock
  have hwrote : w₂.outbox.Wrote t [] := fun id => by rw [hpending, hw id]
  have hfree : ∀ id ∈ rows.map OutboxMessage.id, w.outbox.lock id = none := by
    simpa using hsel.unlocked
  cases rows with
  | nil =>
    apply wp_close_calling hrefl
    intro w₃ hw₃
    refine ⟨now, [], hb, ⟨⟨_, rfl⟩, hclock, hsel, rfl, rfl, ⟨[], rfl, by simp, fun id => ?_⟩,
      fun id => ?_, ?_⟩, by simp [handed]⟩
    · dsimp only
      rw [hw₃, Table.rows_rollback, hrows]
      rfl
    · dsimp only
      rw [hw₃, Table.lock_rollback]
      exact released_of_acquired hlock hfree id
    · dsimp only
      rw [hw₃]
      exact Table.wrote_rollback
  | cons row rows =>
    dsimp only
    rw [Action.wp_bind]
    refine Action.wp_mono (publishRows_wp hrefl fun r hr => (hsel.eligible r hr).1) ?_ ?_
    · rintro _ ⟨w₃, _⟩ ⟨hw₃, new, marks, rfl, hpub, hmarks, hnoted, rfl⟩
      have hmem : ∀ m ∈ marks, m.row ∈ row :: rows := fun m hm =>
        (handed_isPrefix R σ _).subset (hmarks ▸ List.mem_map_of_mem hm)
      have hheld : ∀ r ∈ marks.map (Mark.result R), w₃.outbox.lock r.id = some t := by
        intro r hr
        obtain ⟨m, hm, rfl⟩ := List.mem_map.mp hr
        rw [hw₃, hlock, Mark.id_result, if_pos (List.mem_map_of_mem (hmem m hm))]
      rw [Action.wp_bind]
      apply wp_updateOutbox_calling hrefl hheld
      · intro hfits w₄ hw₄
        rw [Action.wp_bind]
        apply wp_commit_calling hrefl
        intro w₅ hw₅
        apply wp_close_calling hrefl
        intro w₆ hw₆
        have hupdate := Table.Wrote.update (hw₃ ▸ hwrote) hheld
        refine ⟨now, row :: rows, hb, ⟨⟨w₁, rfl⟩, hclock, hsel, ?_, rfl,
          ⟨marks, hmarks, ?_, fun id => ?_⟩, fun id => ?_, ?_⟩, ?_⟩
        · simp only [publications_append, hpub]
          simp [publications]
        · intro m hm
          apply (hnoted m hm).mono
          apply (List.suffix_append _ new).isInfix.trans
          exact (((List.prefix_append _ _).trans (List.prefix_append _ _)).trans
            (List.prefix_append _ _)).isInfix
        · dsimp only
          rw [hw₆, Table.rows_rollback, hw₅, hw₄, hupdate.rows_commit, Table.rows_update, hw₃, hrows]
        · dsimp only
          rw [hw₆, hw₅, hw₄, Table.lock_rollback, Table.released_commit]
          refine (released_of_acquired (fun id => ?_) hfree id)
          rw [Table.lock_update, hw₃, hlock]
        · dsimp only
          rw [hw₆]
          exact Table.wrote_rollback
        · intro r hr
          obtain ⟨m, hm, rfl⟩ := List.mem_map.mp (hmarks ▸ hr)
          exact (hnoted m hm).notable (hfits _ (List.mem_map_of_mem hm))
      · rintro hfits e ⟨w₄, log⟩
        apply wp_close_calling hrefl
        intro w₅ _
        refine ⟨now, row :: rows, hb, hsel, fun hrow hnot => hfits fun r hr => ?_⟩
        obtain ⟨m, hm, rfl⟩ := List.mem_map.mp hr
        exact (hnoted m hm).fits (hrow _ (hmem m hm)) (hnot _ (hmarks ▸ List.mem_map_of_mem hm))
    · rintro error ⟨w₃, log⟩ ⟨r, hr, hnot⟩
      apply wp_close_calling hrefl
      intro w₄ _
      exact ⟨now, row :: rows, hb, hsel, fun _ hall => hnot (hall r hr)⟩

/-! ## The rows after a call -/

namespace Batched

variable {now : Time} {rows : List OutboxMessage} {count : ℕ} {x : Logged}

theorem nodup_handed (h : Batched R cfg σ Clock t w now rows count x) :
    ((handed R σ rows).map OutboxMessage.id).Nodup :=
  h.selected.nodup.sublist ((handed_isPrefix R σ rows).sublist.map _)

/-- A row that was handed over is what its note makes of it. -/
theorem row_of_handed (h : Batched R cfg σ Clock t w now rows count x) {row : OutboxMessage}
    (hrow : row ∈ handed R σ rows) :
    ∃ note, Attested R σ Clock x.2 ⟨row, note⟩ ∧
      x.1.outbox.rows row.id = some (Mark.result R ⟨row, note⟩) := by
  obtain ⟨marks, hmarks, hnoted, hrows⟩ := h.marks
  obtain ⟨⟨_, note⟩, hm, rfl⟩ := List.mem_map.mp (hmarks ▸ hrow)
  have hnodup : ((marks.map (Mark.result R)).map OutboxMessage.id).Nodup := by
    have hids : (marks.map (Mark.result R)).map OutboxMessage.id =
        (handed R σ rows).map OutboxMessage.id := by
      rw [← hmarks, List.map_map, List.map_map]
      exact List.map_congr_left fun m _ => m.id_result
    rw [hids]
    exact h.nodup_handed
  refine ⟨note, hnoted _ hm, ?_⟩
  have hfind := find?_of_nodup_map hnodup (List.mem_map_of_mem hm)
  rw [Mark.id_result] at hfind
  rw [hrows, hfind]
  rfl

/-- The other rows are as they were. -/
theorem row_of_not_handed (h : Batched R cfg σ Clock t w now rows count x) {id : UUID}
    (hid : ∀ row ∈ handed R σ rows, row.id ≠ id) : x.1.outbox.rows id = w.outbox.rows id := by
  obtain ⟨marks, hmarks, -, hrows⟩ := h.marks
  have hnone : (marks.map (Mark.result R)).find? (fun r => r.id = id) = none := by
    apply List.find?_eq_none.mpr
    intro r hr
    obtain ⟨m, hm, rfl⟩ := List.mem_map.mp hr
    rw [Mark.id_result]
    simpa using hid m.row (hmarks ▸ List.mem_map_of_mem hm)
  rw [hrows, hnone]
  rfl

end Batched

end Call

end Payments
