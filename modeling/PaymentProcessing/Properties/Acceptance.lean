import PaymentProcessing.System.Pairs
import PaymentProcessing.System.Progress

/-!
# Acceptance of payments

However many requests race, there is one payment for an idempotency key, every payment has its event
and every event its payment, and every request is told what became of it (`payment_acceptance`).

The uniqueness of keys is an invariant of all rows that are visible to somebody: those committed
and those that some transaction has written (`visible_key`).
-/

namespace Payments

open Effects Python Store

variable {R : Runtime} {cfg : Settings} {v v' : View R cfg}

/-! ## Keys -/

/-- Rows are staged by an insertion, when no visible payment has the key. -/
theorem Move.staged {w w' : World} {t : ℕ} {o : Op} {r : Res o} {φ : Phase}
    {c : CreatePaymentCommand} {fingerprint : Str} {id messageId : UUID} {occurredAt now : Time}
    (hm : Move R cfg φ o r (.api c (.staged fingerprint id messageId occurredAt now)))
    (hx : Exec cfg t o r w w') (hk : Knows R w t φ) :
    ∀ id' q, w.payments.Visible id' q → q.idempotencyKey ≠ c.idempotencyKey := by
  cases hm with
  | api hm =>
    cases hm with
    | rolledBack h => simp at h
    | closed h => exact absurd rfl (h _ _ _ _ _)
    | inserted =>
      cases hx with
      | inserted _ _ _ _ _ hkey hkeyo =>
        rintro id' q (hq | ⟨t', hq⟩)
        · exact hkey id' q hq
        · by_cases ht : t' = t
          · subst ht
            have hnone := hk.payments id'
            simp [Phase.writtenPayments, ApiPhase.writtenPayments, hq] at hnone
          · exact hkeyo t' ht id' q hq

/-- A payment that is visible after an operation has the key of one that was, or it is pending in
the transaction that inserted it under a new key. -/
theorem visible_cases {w w' : World} {t : ℕ} {o : Op} {r : Res o} {φ φ' : Phase}
    (hk : Knows R w t φ) (hm : Move R cfg φ o r φ') (hx : Exec cfg t o r w w') {id : UUID}
    {p : Payment} (hp : w'.payments.Visible id p) :
    (∃ q, w.payments.Visible id q ∧ q.idempotencyKey = p.idempotencyKey) ∨
      (φ'.writtenPayments R = [p] ∧
        ∀ id' q, w.payments.Visible id' q → q.idempotencyKey ≠ p.idempotencyKey) := by
  have hs := Exec.payments_step hx
  rcases hs.visible hp with hq | hpend
  · exact .inl ⟨p, hq, rfl⟩
  · have hk' := Knows.step hk hm hx
    have hid : p.id = id := w'.payments.key_pending hpend
    rw [hk'.payments id] at hpend
    have hmem := List.mem_of_find?_eq_some hpend
    cases hrow : w'.payments.rows p.id with
    | some q =>
      have hkey := (hk'.payment_step hmem hrow).lifeCycle.request.idempotencyKey
      refine .inl ⟨q, ?_, hkey.symm⟩
      rw [← hid]
      rcases hs.rows_cases p.id with heq | ⟨q', hq', heq⟩
      · exact .inl (heq ▸ hrow)
      · exact .inr ⟨t, by rw [hq', ← heq, hrow]⟩
    | none =>
      obtain ⟨c, fingerprint, pid, messageId, occurredAt, now, rfl, rfl⟩ := hk'.payment_new hmem hrow
      exact .inr ⟨rfl, hm.staged hx hk⟩

/-- **Visible payments have different keys.** -/
theorem visible_key (h : (serviceSpec R cfg).Reachable v) {id id' : UUID} {p p' : Payment}
    (hp : v.world.payments.Visible id p) (hp' : v.world.payments.Visible id' p')
    (hkey : p.idempotencyKey = p'.idempotencyKey) : id = id' := by
  refine h.invariant (I := fun v : View R cfg => ∀ id id' p p', v.world.payments.Visible id p →
    v.world.payments.Visible id' p' → p.idempotencyKey = p'.idempotencyKey → id = id') ?_ ?_
    id id' p p' hp hp' hkey
  · rintro v ⟨⟨clock, hw⟩, -⟩ id id' p p' hp
    rw [hw] at hp
    rcases hp with hp | ⟨t, hp⟩ <;> simp [World.initial, Table.empty] at hp
  · intro v v' hv ih hs id id' p p' hp hp' hkey
    cases hs with
    | start hst =>
      rw [(Start.same hst).2.1] at hp hp'
      exact ih id id' p p' hp hp' hkey
    | env he =>
      rw [(Environment.same he).2.1] at hp hp'
      exact ih id id' p p' hp hp' hkey
    | @crash t _ w ht hw =>
      obtain rfl : w = World.crash v.world t := hw
      have hback : ∀ {id p}, (v.world.payments.rollback t).Visible id p →
          v.world.payments.Visible id p := fun hp => by
        rcases (Table.Step.rollback (t := t) v.world.payments).visible hp with hq | hq
        · exact hq
        · simp at hq
      exact ih id id' p p' (hback hp) (hback hp') hkey
    | exec ht hm hx =>
      have hk := knows hv ht
      rcases visible_cases hk hm hx hp with ⟨q, hq, hqk⟩ | ⟨hone, hnew⟩ <;>
        rcases visible_cases hk hm hx hp' with ⟨q', hq', hqk'⟩ | ⟨hone', hnew'⟩
      · exact ih id id' q q' hq hq' (by rw [hqk, hkey, hqk'])
      · exact absurd (hqk.trans hkey) (hnew' id q hq)
      · exact absurd (hqk'.trans hkey.symm) (hnew id' q' hq')
      · have hpp : p = p' := by
          rw [hone] at hone'
          exact List.head_eq_of_cons_eq hone'
        rw [← hp.key_eq, ← hp'.key_eq, hpp]

/-! ## Who inserted a payment -/

theorem Committing.inserted {φ : Phase} {t t' : ℕ} (hc : Committing φ) {tr : List Event}
    (htr : φ.Traced R cfg t tr) {id : UUID} (h : .inserted t' id ∈ tr) :
    t' = t ∧ ∃ c fingerprint messageId occurredAt now,
      φ = .api c (.staged fingerprint id messageId occurredAt now) := by
  cases hc with
  | staged c fingerprint pid messageId occurredAt now =>
    obtain ⟨tr', hr, rfl⟩ := htr
    rcases List.mem_cons.mp h with h | h
    · cases h
      exact ⟨rfl, c, fingerprint, messageId, occurredAt, now, rfl⟩
    · obtain ⟨now, hnow⟩ := hr _ h
      simp at hnow
  | flushed now done todo =>
    rcases Noted.relaying htr _ h with ⟨now, hnow⟩ | ⟨row, o, hrow⟩
    · simp at hnow
    · simp at hrow
  | finalFlushed m q result now =>
    obtain rfl : tr = _ := htr
    simp at h
  | reopened m q =>
    obtain rfl : tr = [] := htr
    simp at h
  | deliveredFlushed m q status now =>
    obtain rfl : tr = _ := htr
    simp at h
  | undeliveredFlushed m q answer error =>
    obtain rfl : tr = _ := htr
    cases answer <;> simp [answers] at h

/-- A committed transaction that inserted a payment did insert it, and no other transaction inserted
the same. -/
theorem inserted_once (h : (serviceSpec R cfg).Reachable v) {t t' : ℕ} {id : UUID}
    {tr tr' : List Event} (htr : tr ∈ v.world.journal.committed) (hins : .inserted t id ∈ tr)
    (htr' : tr' ∈ v.world.journal.committed) (hins' : .inserted t' id ∈ tr') : t = t' := by
  have hboth := committed_invariant (P := fun T _ l =>
    (∀ tr ∈ l, ∀ t id, .inserted t id ∈ tr → (T.rows id).isSome) ∧
    ∀ tr ∈ l, ∀ tr' ∈ l, ∀ t t' id, .inserted t id ∈ tr → .inserted t' id ∈ tr' → t = t') ?_ ?_ ?_ h
  · exact hboth.2 tr htr tr' htr' t t' id hins hins'
  · intro T T' _ _ l hT _ hP
    exact ⟨by rw [hT]; exact hP.1, hP.2⟩
  · simp
  · rintro v t φ new hv ⟨hsome, hone⟩ ht hcom heq
    have hk := knows hv ht
    have hnew : ∀ {t' id}, .inserted t' id ∈ new → t' = t ∧ v.world.payments.rows id = none ∧
        ((v.world.payments.commit t).rows id).isSome := by
      intro t' id hins
      have hcur : .inserted t' id ∈ v.world.journal.current t := by
        rcases heq with rfl | rfl
        · exact hins
        · simpa using hins
      obtain ⟨rfl, c, fingerprint, messageId, occurredAt, now, rfl⟩ :=
        hcom.inserted (traced hv ht) hcur
      have hk : ApiPhase.Knows R c v.world t' (.staged fingerprint id messageId occurredAt now) := hk
      refine ⟨rfl, hk.facts.2.1, ?_⟩
      rw [hk.payments.rows_commit]
      simp [ApiPhase.writtenPayments, NewPayment.row, newPayment]
    refine ⟨fun tr htr t' id hins => ?_, fun tr htr tr' htr' t₁ t₂ id h₁ h₂ => ?_⟩
    · rcases List.mem_cons.mp htr with rfl | htr
      · exact (hnew hins).2.2
      · obtain ⟨p, hp⟩ := Option.isSome_iff_exists.mp (hsome tr htr t' id hins)
        obtain ⟨p', hp', -⟩ := hk.payments.evolves Payment.LifeCycle.refl
          (fun p' hp' q hq => (hk.payment_step hp' hq).lifeCycle) hp
        rw [hp']
        rfl
    · rcases List.mem_cons.mp htr with rfl | hold <;> rcases List.mem_cons.mp htr' with rfl | hold'
      · exact (hnew h₁).1.trans (hnew h₂).1.symm
      · have hrow := hsome tr' hold' t₂ id h₂
        rw [(hnew h₁).2.1] at hrow
        simp at hrow
      · have hrow := hsome tr hold t₁ id h₁
        rw [(hnew h₂).2.1] at hrow
        simp at hrow
      · exact hone tr hold tr' hold' t₁ t₂ id h₁ h₂

/-- Thread `t` has inserted a payment only in a commit whose answer was lost. -/
def Withheld (w : World) (t : ℕ) : Prop :=
  ∀ tr ∈ w.journal.committed, ∀ id, .inserted t id ∈ tr → .commitLost t ∈ tr

/-- What a request has inserted. -/
def ApiPhase.Inserting (w : World) (t : ℕ) : ApiPhase → Prop
  | .created _ id _ => ∃ tr ∈ w.journal.committed, .inserted t id ∈ tr
  | _ => Withheld w t

/-- What a thread has inserted, if it is one of a request. -/
def Inserting (w : World) (t : ℕ) : Status R cfg → Prop
  | .active (.api _ φ) => φ.Inserting w t
  | .unborn => Withheld w t
  | _ => True

theorem ApiPhase.Inserting.congr {w w' : World} {t : ℕ} {φ : ApiPhase} (h : φ.Inserting w t)
    (hc : w'.journal.committed = w.journal.committed) : φ.Inserting w' t := by
  cases φ with
  | created fingerprint id now =>
    unfold ApiPhase.Inserting at *
    rwa [hc]
  | _ =>
    unfold ApiPhase.Inserting Withheld at *
    rwa [hc]

/-- A transaction of another thread says nothing about what `t` inserted. -/
theorem ApiPhase.Inserting.cons {w w' : World} {t : ℕ} {φ : ApiPhase} (h : φ.Inserting w t)
    {tr : List Event} (hc : w'.journal.committed = tr :: w.journal.committed)
    (hno : ∀ id, .inserted t id ∉ tr) : φ.Inserting w' t := by
  have hheld : Withheld w t → Withheld w' t := by
    intro hw tr' htr' id hins
    rw [hc] at htr'
    rcases List.mem_cons.mp htr' with rfl | htr'
    · exact absurd hins (hno id)
    · exact hw tr' htr' id hins
  cases φ with
  | created fingerprint id now =>
    obtain ⟨tr', htr', hins⟩ := h
    exact ⟨tr', hc ▸ List.mem_cons_of_mem _ htr', hins⟩
  | _ => exact hheld h

theorem ApiPhase.Inserting.step {c : CreatePaymentCommand} {w w' : World} {t : ℕ} {o : Op} {r : Res o}
    {φ φ' : ApiPhase} (h : φ.Inserting w t) (htr : φ.Traced t (w.journal.current t))
    (hm : ApiMove R c φ o r φ') (hx : Exec cfg t o r w w') : φ'.Inserting w' t := by
  cases hm with
  | now => cases hx; exact h.congr rfl
  | uuid4 => cases hx; exact h.congr rfl
  | missed => cases hx; exact h.congr rfl
  | found => cases hx; exact h.congr rfl
  | selectFailed => cases hx; exact h.congr rfl
  | insertFailed => cases hx; exact h.congr rfl
  | inserted => cases hx; exact ApiPhase.Inserting.congr (φ := .idle) h rfl
  | committed =>
    cases hx
    obtain ⟨tr', -, heq⟩ := htr
    exact ⟨_, List.mem_cons_self .., by rw [heq]; exact List.mem_cons_self ..⟩
  | conflicted => cases hx; exact ApiPhase.Inserting.congr (φ := .idle) h rfl
  | commitFailed =>
    cases hx with
    | commitFailed => exact ApiPhase.Inserting.congr (φ := .idle) h rfl
    | commitLost =>
      intro tr htr id hins
      rcases List.mem_cons.mp htr with rfl | htr
      · simp
      · exact h tr htr id hins
  | rolledBack hφ => cases hx <;> exact h.congr rfl
  | closed hφ => cases hx; exact h.congr rfl

/-- **What the request of a thread has inserted.** -/
theorem inserting (h : (serviceSpec R cfg).Reachable v) (t : ℕ) :
    Inserting v.world t (v.status t) := by
  refine h.threadwise (P := Inserting) ?_ ?_ ?_ ?_ t
  · rintro w t ⟨clock, rfl⟩ tr htr
    simp [World.initial, Journal.empty] at htr
  · intro v t w y hv ih ha
    cases ha with
    | @start k _ hs hb =>
      have hheld := ih v.born
      rw [hb] at hheld
      cases k with
      | create command =>
        exact ApiPhase.Inserting.congr (φ := .idle) hheld (by rw [(Start.same hs).2.2.2])
      | relay => trivial
      | deliver e => trivial
    | exec ht hm hx =>
      have hins := ih t
      rw [ht] at hins
      have htr := traced hv ht
      cases hm with
      | api hm => exact ApiPhase.Inserting.step hins htr hm hx
      | relay hm => trivial
      | consumer hm => trivial
    | crash ht hw => trivial
  · intro v t t' w y hv ih ha htt
    have hins := ih t'
    have hkeep : ∀ φ : ApiPhase, φ.Inserting v.world t' → φ.Inserting w t' := by
      intro φ hφ
      cases ha with
      | start hs hb => exact hφ.congr (by rw [(Start.same hs).2.2.2])
      | crash ht hw =>
        obtain rfl : w = World.crash v.world t := hw
        exact hφ.congr rfl
      | exec ht hm hx =>
        rcases Exec.committed_cases hx with ⟨-, -, heq⟩ | ⟨rfl, -, -, tr, heq, hcur⟩
        · exact hφ.congr heq
        · refine hφ.cons heq fun id hid => ?_
          have hid : .inserted t' id ∈ v.world.journal.current t := by
            rcases hcur with rfl | rfl
            · exact hid
            · simpa using hid
          exact htt (hm.committing.inserted (traced hv ht) hid).1
    cases hy : v.status t' with
    | unborn =>
      rw [hy] at hins
      exact hkeep .idle hins
    | crashed => trivial
    | active φ =>
      rw [hy] at hins
      cases φ with
      | api c φ => exact hkeep φ hins
      | relay φ => trivial
      | consumer m φ => trivial
  · intro w w' t y hins he
    have hc : w'.journal.committed = w.journal.committed := by rw [(Environment.same he).2.2.2]
    cases y with
    | unborn => exact ApiPhase.Inserting.congr (φ := .idle) hins hc
    | crashed => trivial
    | active φ =>
      cases φ with
      | api c φ => exact ApiPhase.Inserting.congr hins hc
      | relay φ => trivial
      | consumer m φ => trivial

/-! ## What a request is told -/

variable (R) in
/-- What a request that has ended was told, and what has become of it. -/
def Answered (c : CreatePaymentCommand) (w : World) (t : ℕ) :
    Except Exn CreatePaymentResult → Prop
  | .ok result => result.payment.idempotencyKey = c.idempotencyKey ∧
      c.fingerprint R = .ok result.payment.requestFingerprint ∧
      (∃ p, w.payments.rows result.payment.id = some p ∧ result.payment.LifeCycle p) ∧
      if result.replayed then Withheld w t
      else ∃ tr ∈ w.journal.committed, .inserted t result.payment.id ∈ tr
  | .error (.idempotencyConflict key) => key = c.idempotencyKey ∧ Withheld w t ∧
      ∃ p fingerprint, w.payments.rows p.id = some p ∧ p.idempotencyKey = key ∧
        c.fingerprint R = .ok fingerprint ∧ p.requestFingerprint ≠ fingerprint
  | .error _ => Withheld w t

theorem answered (h : (serviceSpec R cfg).Reachable v) {t : ℕ} {c : CreatePaymentCommand}
    {ψ : ApiPhase} (ht : v.status t = .active (.api c ψ)) {out : Except Exn CreatePaymentResult}
    (hpost : ApiPost R c out ψ) : Answered R c v.world t out := by
  have hins := inserting h t
  rw [ht] at hins
  have hfacts : ψ.Facts R c v.world := ApiPhase.Knows.facts (knows h ht)
  cases hpost with
  | created hf id now =>
    obtain ⟨-, p', hp', hl⟩ := hfacts
    exact ⟨rfl, hf, ⟨p', hp', hl⟩, hins⟩
  | @replayed p hf =>
    obtain ⟨hkey, hrow⟩ := hfacts
    exact ⟨hkey, hf, hrow, hins⟩
  | @conflict p fingerprint hf hne =>
    obtain ⟨hkey, p', hp', hl⟩ := hfacts
    have hid := v.world.payments.key_rows hp'
    refine ⟨rfl, hins, p', fingerprint, by rw [hid]; exact hp', ?_, hf, ?_⟩
    · exact hl.request.idempotencyKey.trans hkey
    · rwa [hl.request.requestFingerprint]
  | @error e _ he hφ =>
    have hheld : Withheld v.world t := by
      rcases hφ with rfl | rfl | ⟨p, rfl⟩ <;> exact hins
    cases e with
    | idempotencyConflict key => exact absurd rfl (he key)
    | _ => exact hheld

/-- **Acceptance is idempotent and atomic.** There is one payment for a key, payments and events are
in one-to-one correspondence, every request that ends is told the truth, and of the requests with
one key one at most has created the payment that all of them are told about. -/
theorem payment_acceptance {s : (service R cfg).State} (h : (service R cfg).Reachable s) :
    (∀ id id' p p', s.world.payments.rows id = some p → s.world.payments.rows id' = some p' →
      p.idempotencyKey = p'.idempotencyKey → id = id') ∧
    (∀ id p, s.world.payments.rows id = some p →
      ∃! messageId, ∃ m, s.world.outbox.rows messageId = some m ∧ m.aggregateId = id) ∧
    (∀ messageId m, s.world.outbox.rows messageId = some m → m.eventType = paymentCreated ∧
      m.payload.paymentId = m.aggregateId ∧ ∃ p, s.world.payments.rows m.aggregateId = some p) ∧
    (∀ t c (out : Except Exn CreatePaymentResult),
      s.threads t = .running (.create c) (.ret out) → Answered R c s.world t out) ∧
    ∀ t t' c c' (result result' : CreatePaymentResult),
      s.threads t = .running (.create c) (.ret (.ok result : Except Exn CreatePaymentResult)) →
      s.threads t' = .running (.create c') (.ret (.ok result' : Except Exn CreatePaymentResult)) →
      c.idempotencyKey = c'.idempotencyKey → result.payment.id = result'.payment.id ∧
        (result.replayed = false → result'.replayed = false → t = t') := by
  obtain ⟨v, hv, htr⟩ := Machine.Spec.tracked (serviceSpec R cfg) h
  rw [← htr.world]
  have hanswered : ∀ t c (out : Except Exn CreatePaymentResult),
      s.threads t = .running (.create c) (.ret out) → Answered R c v.world t out := by
    intro t c out ht
    obtain ⟨φ, hst, ψ, rfl, hpost⟩ := htr.ended ht
    exact answered hv hst hpost
  have hpaired := paired hv
  refine ⟨fun id id' p p' hp hp' => visible_key hv (.inl hp) (.inl hp'), fun id p hp => ?_,
    fun messageId m hm => ?_, hanswered, fun t t' c c' result result' ht ht' hkey => ?_⟩
  · obtain ⟨messageId, m, hm, ha⟩ := hpaired.message id (by rw [hp]; rfl)
    refine ⟨messageId, ⟨m, hm, ha⟩, ?_⟩
    rintro messageId' ⟨m', hm', ha'⟩
    exact hpaired.unique messageId' messageId m' m hm' hm (ha'.trans ha.symm)
  · obtain ⟨hp, hpay, htype, -⟩ := hpaired.payment messageId m hm
    exact ⟨htype, hpay, Option.isSome_iff_exists.mp hp⟩
  · obtain ⟨hk, -, ⟨p, hp, hl⟩, hins⟩ := hanswered t c _ ht
    obtain ⟨hk', -, ⟨p', hp', hl'⟩, hins'⟩ := hanswered t' c' _ ht'
    have hid : result.payment.id = result'.payment.id := by
      refine visible_key hv (.inl hp) (.inl hp') ?_
      rw [hl.request.idempotencyKey, hl'.request.idempotencyKey, hk, hk', hkey]
    refine ⟨hid, fun hnew hnew' => ?_⟩
    rw [if_neg (by simp [hnew])] at hins
    rw [if_neg (by simp [hnew']), ← hid] at hins'
    obtain ⟨tr, htr, hmem⟩ := hins
    obtain ⟨tr', htr', hmem'⟩ := hins'
    exact inserted_once hv htr hmem htr' hmem'

/-- The book is asked for twice: the first request creates the payment, and one event; the second is
told about it. -/
theorem payment_acceptance_published :
    ∃ (s : (service .transparent default).State) (p : Payment),
      s.threads 0 = .running (.create bookCommand) (.ret (.ok ⟨p, false⟩)) ∧
      s.threads 1 = .running (.create bookCommand) (.ret (.ok ⟨p, true⟩)) ∧
      Answered .transparent bookCommand s.world 0 (.ok ⟨p, false⟩) ∧
      Answered .transparent bookCommand s.world 1 (.ok ⟨p, true⟩) ∧
      ∃! messageId, ∃ m, s.world.outbox.rows messageId = some m ∧ m.aggregateId = p.id := by
  obtain ⟨f, hf⟩ := bookCommand_validated.exists_fingerprint .transparent
  obtain ⟨p, s, h, hfirst, hsecond⟩ := @exists_replayed .transparent default _ _ hf
  obtain ⟨-, hevent, -, hanswered, -⟩ := payment_acceptance h
  have hcreated := hanswered 0 bookCommand _ hfirst
  obtain ⟨p', hp', -⟩ := hcreated.2.2.1
  exact ⟨s, p, hfirst, hsecond, hcreated, hanswered 1 bookCommand _ hsecond, hevent p.id p' hp'⟩

end Payments
