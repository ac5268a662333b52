import PaymentProcessing.Foundations.Effects.Atomic
import PaymentProcessing.Properties.Acceptance

/-!
# Requests are linearizable

The table `payments`, seen through the idempotency keys, is an atomic object (`ledger`): a call
finds no payment under its key and creates one, or finds one and gets it, or finds one that was made
by another request. `PaymentService.create` takes several transactions, races with other requests,
loses answers of the database and is killed; still each request that answers has been served at one
moment while it ran (`requests_linearizable`).
-/

namespace Payments

open Effects Python Store Relation AtomicObject

variable {R : Runtime} {cfg : Settings} {v v' : View R cfg}

/-! ## The ledger -/

/-- The payments by their keys. -/
abbrev Ledger : Type := Str → Option Payment

/-- What a client is told. -/
inductive Reply
  | result (result : CreatePaymentResult)
  | conflict

/-- The reply of a request that ended; other exceptions say nothing about the ledger. -/
def replyOf : Except Exn CreatePaymentResult → Option Reply
  | .ok result => some (.result result)
  | .error (.idempotencyConflict _) => some .conflict
  | .error _ => none

variable (R) in
/-- **How a request is served.** -/
inductive Serve (L : Ledger) (c : CreatePaymentCommand) : Reply → Ledger → Prop
  | created {fingerprint : Str} (hf : c.fingerprint R = .ok fingerprint)
      (h : L c.idempotencyKey = none) {id : UUID} (hid : ∀ key p, L key = some p → p.id ≠ id)
      (now : Time) : Serve L c (.result ⟨(newPayment c fingerprint id).row now, false⟩)
        (Function.update L c.idempotencyKey (some ((newPayment c fingerprint id).row now)))
  | replayed {p : Payment} (hf : c.fingerprint R = .ok p.requestFingerprint)
      (h : L c.idempotencyKey = some p) : Serve L c (.result ⟨p, true⟩) L
  | conflict {p : Payment} {fingerprint : Str} (hf : c.fingerprint R = .ok fingerprint)
      (h : L c.idempotencyKey = some p) (hne : p.requestFingerprint ≠ fingerprint) :
      Serve L c .conflict L

/-- Between the calls payments move along their life cycle; none comes or goes. -/
def Ledger.Evolves (L L' : Ledger) : Prop :=
  ∀ key, (L key = none → L' key = none) ∧
    ∀ p, L key = some p → ∃ p', L' key = some p' ∧ p.LifeCycle p'

theorem Ledger.Evolves.refl (L : Ledger) : L.Evolves L :=
  fun _ => ⟨fun h => h, fun p h => ⟨p, h, .refl p⟩⟩

variable (R) in
/-- The ledger as an object that serves requests. -/
abbrev ledger : AtomicObject where
  State := Ledger
  Call := CreatePaymentCommand
  Answer := Reply
  empty := fun _ => none
  serve := Serve R
  evolve := Ledger.Evolves

/-- The ledger that a table stands for. -/
def Shows (T : PaymentTable) (L : Ledger) : Prop :=
  ∀ key p, L key = some p ↔ T.rows p.id = some p ∧ p.idempotencyKey = key

/-- A table in which payments have only moved along their life cycle. -/
theorem Shows.evolve {T T' : PaymentTable} {L : Ledger} (h : Shows T L)
    (hto : ∀ id p, T.rows id = some p → ∃ p', T'.rows id = some p' ∧ p.LifeCycle p')
    (hback : ∀ id p', T'.rows id = some p' → ∃ p, T.rows id = some p ∧ p.LifeCycle p') :
    ∃ L', Shows T' L' ∧ L.Evolves L' := by
  refine ⟨fun key => (L key).bind fun p => T'.rows p.id, fun key p' => ?_, fun key => ⟨?_, ?_⟩⟩
  · rw [Option.bind_eq_some_iff]
    constructor
    · rintro ⟨p, hp, hp'⟩
      obtain ⟨hrow, hkey⟩ := (h key p).mp hp
      obtain ⟨q, hq, hl⟩ := hto _ _ hrow
      obtain rfl := Option.some.inj (hp'.symm.trans hq)
      rw [hl.request.id, hl.request.idempotencyKey]
      exact ⟨hp', hkey⟩
    · rintro ⟨hrow, hkey⟩
      obtain ⟨p, hp, hl⟩ := hback _ _ hrow
      have hid : p'.id = p.id := hl.request.id
      refine ⟨p, (h key p).mpr ⟨?_, ?_⟩, hid ▸ hrow⟩
      · rwa [← hid]
      · rwa [← hl.request.idempotencyKey]
  · intro hnone
    simp [hnone]
  · intro p hp
    obtain ⟨p', hp', hl⟩ := hto _ _ ((h key p).mp hp).1
    exact ⟨p', by simpa [hp] using hp', hl⟩

/-- A table with one payment more, under a key of its own. -/
theorem Shows.create {T T' : PaymentTable} {L : Ledger} (h : Shows T L) (q : Payment)
    (hrows : ∀ id, T'.rows id = if id = q.id then some q else T.rows id)
    (hnew : ∀ id p, T.rows id = some p → p.id ≠ q.id ∧ p.idempotencyKey ≠ q.idempotencyKey) :
    L q.idempotencyKey = none ∧
      Shows T' (Function.update L q.idempotencyKey (some q)) := by
  refine ⟨Option.eq_none_iff_forall_ne_some.mpr fun p hp => ?_, fun key p => ?_⟩
  · obtain ⟨hrow, hkey⟩ := (h _ p).mp hp
    exact (hnew _ p hrow).2 hkey
  · rw [hrows]
    by_cases hkey : key = q.idempotencyKey
    · subst hkey
      rw [Function.update_self, Option.some.injEq]
      constructor
      · rintro rfl
        simp
      · rintro ⟨hrow, hkey⟩
        split at hrow
        · exact Option.some.inj hrow
        · exact absurd hkey (hnew _ p hrow).2
    · rw [Function.update_of_ne hkey, h key p]
      constructor
      · rintro ⟨hrow, hk⟩
        rw [if_neg (hnew _ p hrow).1]
        exact ⟨hrow, hk⟩
      · rintro ⟨hrow, hk⟩
        split at hrow
        · obtain rfl := Option.some.inj hrow
          exact absurd hk.symm hkey
        · exact ⟨hrow, hk⟩

/-! ## Threads and their calls -/

variable (R cfg) in
/-- What has become of the call of a thread. A request whose transaction fails may have been served
all the same, and so may one that is killed. -/
inductive Position : Status R cfg → Option ((ledger R).Served ℕ) → Prop
  | unborn : Position .unborn none
  | idle (c : CreatePaymentCommand) : Position (.active (.api c .idle)) none
  | staged (c : CreatePaymentCommand) (fingerprint : Str) (id messageId : UUID)
      (occurredAt now : Time) :
      Position (.active (.api c (.staged fingerprint id messageId occurredAt now))) none
  | replayed {c : CreatePaymentCommand} {p : Payment} (t : ℕ)
      (hf : c.fingerprint R = .ok p.requestFingerprint) :
      Position (.active (.api c (.found p))) (some ⟨t, c, .result ⟨p, true⟩⟩)
  | conflict {c : CreatePaymentCommand} {p : Payment} {fingerprint : Str} (t : ℕ)
      (hf : c.fingerprint R = .ok fingerprint) (hne : p.requestFingerprint ≠ fingerprint) :
      Position (.active (.api c (.found p))) (some ⟨t, c, .conflict⟩)
  | unhashed {c : CreatePaymentCommand} {p : Payment} {error : FingerprintError}
      (hf : c.fingerprint R = .error error) : Position (.active (.api c (.found p))) none
  | created (t : ℕ) (c : CreatePaymentCommand) (fingerprint : Str) (id : UUID) (now : Time) :
      Position (.active (.api c (.created fingerprint id now)))
        (some ⟨t, c, .result ⟨(newPayment c fingerprint id).row now, false⟩⟩)
  | failed (c : CreatePaymentCommand) (x : Option ((ledger R).Served ℕ)) :
      Position (.active (.api c .failed)) x
  | relay (φ : RelayPhase) : Position (.active (.relay φ)) none
  | consumer (m : Message) (φ : ConsumerPhase) : Position (.active (.consumer m φ)) none
  | crashed (x : Option ((ledger R).Served ℕ)) : Position .crashed x

section Exec

variable {w w' : World} {t : ℕ} {o : Op} {r : Res o} {φ φ' : Phase} {L : Ledger}

/-- An operation that creates nothing. -/
theorem Shows.exec (h : Shows w.payments L) (hk : Knows R w t φ) (hx : Exec cfg t o r w w')
    (hφ : (∀ c f id m τ now, φ ≠ .api c (.staged f id m τ now)) ∨
      w'.payments.rows = w.payments.rows) :
    ∃ L', Shows w'.payments L' ∧ L.Evolves L' := by
  refine h.evolve (fun id p hp => Exec.evolves hx hk hp) fun id p' hp' => ?_
  rcases hx.rows with ⟨hrows, -⟩ | ⟨-, hcommit, -⟩
  · exact ⟨p', by rwa [← hrows], .refl p'⟩
  · rcases hφ with hφ | hrows
    · rw [hcommit] at hp'
      rcases hk.commit_payment hp' with hp | ⟨c, f, m, τ, now, heq, -⟩
      · exact hp
      · exact absurd heq (hφ _ _ _ _ _ _)
    · exact ⟨p', by rwa [← hrows], .refl p'⟩

/-- A request finds the payment that has its key. -/
theorem position_found {c : CreatePaymentCommand} {p : Payment} (h : Shows w.payments L)
    (hp : w.payments.rows p.id = some p) (hkey : p.idempotencyKey = c.idempotencyKey) :
    Position R cfg (.active (.api c (.found p))) none ∨
      ∃ e : (ledger R).Served ℕ, e.caller = t ∧ Serve R L e.call e.answer L ∧
        Position R cfg (.active (.api c (.found p))) (some e) := by
  have hL : L c.idempotencyKey = some p := (h _ p).mpr ⟨hp, hkey⟩
  cases hf : c.fingerprint R with
  | error error => exact .inl (.unhashed hf)
  | ok fingerprint =>
    by_cases heq : p.requestFingerprint = fingerprint
    · subst heq
      exact .inr ⟨⟨t, c, .result ⟨p, true⟩⟩, rfl, .replayed hf hL, .replayed t hf⟩
    · exact .inr ⟨⟨t, c, .conflict⟩, rfl, .conflict hf hL heq, .conflict t hf heq⟩

end Exec

/-- **A commit of a new payment serves the request.** -/
theorem serve_commit (h : (serviceSpec R cfg).Reachable v) {t : ℕ} {c : CreatePaymentCommand}
    {fingerprint : Str} {id messageId : UUID} {occurredAt now : Time}
    (ht : v.status t = .active (.api c (.staged fingerprint id messageId occurredAt now)))
    {L : Ledger} (hL : Shows v.world.payments L) :
    ∃ L', Serve R L c (.result ⟨(newPayment c fingerprint id).row now, false⟩) L' ∧
      Shows (v.world.payments.commit t) L' := by
  have hk := knows h ht
  have hwrote : v.world.payments.Wrote t [(newPayment c fingerprint id).row now] := hk.payments
  obtain ⟨hf, hnone, -⟩ := ApiPhase.Knows.facts hk
  have hpending : v.world.payments.Visible id ((newPayment c fingerprint id).row now) :=
    .inr ⟨t, (hwrote id).trans (by simp [newPayment, NewPayment.row])⟩
  have hrows : ∀ id', (v.world.payments.commit t).rows id' =
      if id' = id then some ((newPayment c fingerprint id).row now)
      else v.world.payments.rows id' := by
    intro id'
    rw [hwrote.rows_commit]
    by_cases hid : id' = id
    · simp [hid, newPayment, NewPayment.row]
    · simp [hid, Ne.symm hid, newPayment, NewPayment.row]
  have hnew : ∀ id' p, v.world.payments.rows id' = some p →
      p.id ≠ id ∧ p.idempotencyKey ≠ c.idempotencyKey := by
    intro id' p hp
    have hne : id' ≠ id := by
      rintro rfl
      rw [hnone] at hp
      cases hp
    exact ⟨v.world.payments.key_rows hp ▸ hne, fun hkey => hne (visible_key h (.inl hp) hpending hkey)⟩
  have hcreate := hL.create ((newPayment c fingerprint id).row now) hrows hnew
  have hid : ∀ key p, L key = some p → p.id ≠ id := by
    intro key p hp
    exact (hnew _ p ((hL key p).mp hp).1).1
  exact ⟨_, .created hf hcreate.1 hid now, hcreate.2⟩

/-- **What a thread does to the ledger.** -/
theorem position_exec (h : (serviceSpec R cfg).Reachable v) {t : ℕ} {φ φ' : Phase} {o : Op}
    {r : Res o} {w : World} (ht : v.status t = .active φ) (hm : Move R cfg φ o r φ')
    (hx : Exec cfg t o r v.world w) {L : Ledger} (hL : Shows v.world.payments L)
    {x : Option ((ledger R).Served ℕ)} (hpos : Position R cfg (.active φ) x) :
    (∃ L', Shows w.payments L' ∧ L.Evolves L' ∧ Position R cfg (.active φ') x) ∨
      (x = none ∧ ∃ (e : (ledger R).Served ℕ) (L' : Ledger), e.caller = t ∧ Shows w.payments L' ∧
        Serve R L e.call e.answer L' ∧ Position R cfg (.active φ') (some e)) := by
  have hk := knows h ht
  have hstays (hφ : (∀ c f id m τ now, φ ≠ .api c (.staged f id m τ now)) ∨
      w.payments.rows = v.world.payments.rows)
      (hpos' : Position R cfg (.active φ') x) :
      ∃ L', Shows w.payments L' ∧ L.Evolves L' ∧ Position R cfg (.active φ') x := by
    obtain ⟨L', hL', hev⟩ := hL.exec hk hx hφ
    exact ⟨L', hL', hev, hpos'⟩
  cases hm with
  | relay hm =>
    cases hpos
    exact .inl (hstays (.inl (by simp)) (.relay _))
  | consumer hm =>
    cases hpos
    exact .inl (hstays (.inl (by simp)) (.consumer _ _))
  | api hm =>
    cases hm with
    | now =>
      cases hpos
      exact .inl (hstays (.inl (by simp)) (.idle _))
    | uuid4 =>
      cases hpos
      exact .inl (hstays (.inl (by simp)) (.idle _))
    | missed =>
      cases hpos
      exact .inl (hstays (.inl (by simp)) (.idle _))
    | found p =>
      cases hpos
      cases hx with
      | found hp hkey =>
        rcases position_found hL hp hkey with hpos' | ⟨e, het, hserve, hpos'⟩
        · exact .inl ⟨L, hL, .refl L, hpos'⟩
        · exact .inr ⟨rfl, e, L, het, hL, hserve, hpos'⟩
    | selectFailed => exact .inl (hstays (.inl (by simp)) (.failed _ _))
    | inserted =>
      cases hpos
      exact .inl (hstays (.inl (by simp)) (.staged _ _ _ _ _ _))
    | insertFailed =>
      cases hpos
      exact .inl (hstays (.inl (by simp)) (.idle _))
    | committed =>
      cases hpos
      cases hx
      obtain ⟨L', hserve, hL'⟩ := serve_commit h ht hL
      exact .inr ⟨rfl, ⟨t, _, _⟩, L', rfl, hL', hserve, .created t _ _ _ _⟩
    | conflicted =>
      cases hpos
      cases hx
      exact .inl (hstays (.inr rfl) (.idle _))
    | commitFailed =>
      cases hpos
      cases hx with
      | commitLost =>
        obtain ⟨L', hserve, hL'⟩ := serve_commit h ht hL
        exact .inr ⟨rfl, ⟨t, _, _⟩, L', rfl, hL', hserve, .failed _ _⟩
      | commitFailed => exact .inl (hstays (.inr rfl) (.failed _ _))
    | rolledBack hφ =>
      refine .inl (hstays (.inl fun c f id m τ now heq => ?_) hpos)
      cases heq
      simp at hφ
    | closed hφ =>
      refine .inl (hstays (.inl fun c f id m τ now heq => ?_) hpos)
      cases heq
      exact hφ _ _ _ _ _ rfl

/-- **The linearization of the service.** -/
abbrev ledgerLinearization (R : Runtime) (cfg : Settings) :
    Linearization (serviceSpec R cfg) (ledger R) where
  Holds w L := Shows w.payments L
  Fits := Position R cfg
  init := by
    rintro w ⟨clock, rfl⟩ key p
    simp [World.initial, Table.empty]
  unborn x := by
    constructor
    · intro h
      cases h
      rfl
    · rintro rfl
      exact .unborn
  acts := by
    intro v t w y L x h ha hL hpos
    cases ha with
    | start hst hborn =>
      rw [hborn] at hpos
      cases hpos
      refine .inl ⟨L, ?_, .refl L, ?_⟩
      · rwa [(Start.same hst).2.1]
      · cases hst with
        | create => exact .idle _
        | relay => exact .relay _
        | deliver => exact .consumer _ _
    | exec ht hm hx =>
      rw [ht] at hpos
      exact position_exec h ht hm hx hL hpos
    | crash ht hw =>
      obtain rfl : w = World.crash v.world t := hw
      exact .inl ⟨L, hL, .refl L, .crashed x⟩
  env := by
    intro v w L h he hL
    exact ⟨L, by rwa [(Environment.same he).2.1], .refl L⟩

/-! ## Runs -/

/-- **A history of the requests**: the calls that were served in this order, by threads that have
been started; the ledger is what the table shows, and a request that has replied is in the history
with its reply. -/
structure History (s : (service R cfg).State) (L : Ledger) (l : List ((ledger R).Served ℕ)) :
    Prop where
  shows : Shows s.world.payments L
  nodup : (l.map Served.caller).Nodup
  started : ∀ e ∈ l, s.threads e.caller ≠ .unborn
  replied : ∀ t c (out : Except Exn CreatePaymentResult) reply,
    s.threads t = .running (.create c) (.ret out) → replyOf out = some reply → ⟨t, c, reply⟩ ∈ l

/-- A request that has replied has its reply in the history. -/
theorem Position.replied {c : CreatePaymentCommand} {φ : ApiPhase}
    {x : Option ((ledger R).Served ℕ)} (h : Position R cfg (.active (.api c φ)) x)
    {out : Except Exn CreatePaymentResult} (hpost : ApiPost R c out φ) {reply : Reply}
    (hreply : replyOf out = some reply) : ∃ t, x = some ⟨t, c, reply⟩ := by
  cases hpost with
  | created =>
    obtain rfl := Option.some.inj hreply
    cases h
    exact ⟨_, rfl⟩
  | replayed hf =>
    obtain rfl := Option.some.inj hreply
    cases h with
    | replayed => exact ⟨_, rfl⟩
    | conflict _ hf' hne => exact absurd (Except.ok.inj (hf.symm.trans hf')) hne
    | unhashed hf' => cases hf.symm.trans hf'
  | conflict hf hne =>
    obtain rfl := Option.some.inj hreply
    cases h with
    | replayed _ hf' => exact absurd (Except.ok.inj (hf'.symm.trans hf)) hne
    | conflict => exact ⟨_, rfl⟩
    | unhashed hf' => cases hf.symm.trans hf'
  | error he =>
    rename_i e _
    cases e with
    | idempotencyConflict key => exact absurd rfl (he key)
    | _ => cases hreply

theorem history_of_records {s : (service R cfg).State} {L : Ledger} {l : List ((ledger R).Served ℕ)}
    (htr : (serviceSpec R cfg).Tracks s v) (h : (ledgerLinearization R cfg).Records v L l) :
    History s L l := by
  refine ⟨htr.world ▸ h.holds, h.nodup, fun e he hst => ?_, fun t c out reply ht hreply => ?_⟩
  · have htrack := htr.thread e.caller
    rw [hst] at htrack
    generalize hy : v.status e.caller = y at htrack
    cases htrack
    have hfits := h.fits e.caller
    rw [hy] at hfits
    generalize hx : entry l e.caller = x at hfits
    cases hfits
    exact entry_eq_none_iff.mp hx e he rfl
  · obtain ⟨φ, hst, ψ, rfl, hpost⟩ := htr.ended ht
    have hfits := h.fits t
    rw [hst] at hfits
    obtain ⟨t', hentry⟩ := hfits.replied hpost hreply
    obtain ⟨hmem, rfl⟩ := mem_of_entry hentry
    exact hmem

/-- What a run adds to a history are requests that had not replied before. -/
theorem History.unreplied {s s' : (service R cfg).State} {L L' : Ledger}
    {l l' : List ((ledger R).Served ℕ)} (h : History s L l) (h' : History s' L' (l ++ l'))
    {e : (ledger R).Served ℕ} (he : e ∈ l') {c : CreatePaymentCommand}
    {out : Except Exn CreatePaymentResult}
    (ht : s.threads e.caller = .running (.create c) (.ret out)) : replyOf out = none := by
  cases hreply : replyOf out with
  | none => rfl
  | some reply =>
    have hnodup := h'.nodup
    rw [List.map_append] at hnodup
    have hbefore : e.caller ∈ l.map Served.caller :=
      List.mem_map.mpr ⟨_, h.replied _ c out reply ht hreply, rfl⟩
    have hafter : e.caller ∈ l'.map Served.caller := List.mem_map.mpr ⟨e, he, rfl⟩
    exact absurd rfl ((List.nodup_append.mp hnodup).2.2 _ hbefore _ hafter)

end Payments
