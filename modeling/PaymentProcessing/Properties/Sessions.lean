import PaymentProcessing.Properties.Archive
import PaymentProcessing.Properties.Notation
import PaymentProcessing.System.Front

/-!
# What the API answers

The answers of both routes are linearizable together (`api_linearizable`): each is what the ledger
said at one moment while the request was in progress, or a refusal, or the failure that says
nothing. What a client has been told once binds all later answers to all clients (`api_sessions`).
-/

namespace Payments

open Effects Python Store Relation AtomicObject

variable {R : Runtime} {cfg : Settings} {apiKey : Str} {F : Framework}

/-! ## Chronicles -/

/-- An entry of a chronicle: a call that a thread made, or a payment that an exchange saw. -/
inductive Entry (R : Runtime)
  | made (e : (ledger R).Served ℕ)
  | seen (i : ℕ) (paymentId : UUID) (payment : Option Payment)

/-- Who asks the ledger. -/
inductive Caller
  | thread (t : ℕ)
  | exchange (i : ℕ)

namespace Entry

/-- What was asked, and what was said. -/
def served : Entry R → (archive R).Served Caller
  | made e => ⟨.thread e.caller, .create e.call, .reply e.answer⟩
  | seen i paymentId payment => ⟨.exchange i, .get paymentId, .payment payment⟩

/-- The call of a thread. -/
def made? : Entry R → Option ((ledger R).Served ℕ)
  | made e => some e
  | seen _ _ _ => none

end Entry

/-- What `PaymentService.create` ends with when the ledger replies. -/
def Reply.outcome (c : CreatePaymentCommand) : Reply → Except Exn CreatePaymentResult
  | .result answer => .ok answer
  | .conflict => .error (.idempotencyConflict c.idempotencyKey)

theorem ApiPost.outcome {c : CreatePaymentCommand} {out : Except Exn CreatePaymentResult}
    {φ : ApiPhase} (h : ApiPost R c out φ) {reply : Reply} (hreply : replyOf out = some reply) :
    out = reply.outcome c := by
  cases h with
  | created | replayed | conflict =>
    obtain rfl := Option.some.inj hreply
    rfl
  | @error e _ he =>
    cases e with
    | idempotencyConflict key => exact absurd rfl (he key)
    | _ => cases hreply

/-- The calls of the threads in a chronicle. -/
def calls (l : List (Entry R)) : List ((ledger R).Served ℕ) := l.filterMap Entry.made?

theorem mem_calls {l : List (Entry R)} {e : (ledger R).Served ℕ} :
    e ∈ calls l ↔ Entry.made e ∈ l := by
  unfold calls
  rw [List.mem_filterMap]
  constructor
  · rintro ⟨x, hx, he⟩
    cases x with
    | made e' =>
      obtain rfl := Option.some.inj he
      exact hx
    | seen => cases he
  · intro he
    exact ⟨_, he, rfl⟩

theorem calls_append_made (l : List (Entry R)) (l' : List ((ledger R).Served ℕ)) :
    calls (l ++ l'.map Entry.made) = calls l ++ l' := by
  have hmade : calls (l'.map Entry.made) = l' := by
    unfold calls
    rw [List.filterMap_map]
    exact List.filterMap_some
  rw [calls, List.filterMap_append, ← calls, ← calls, hmade]

theorem calls_append_seen (l : List (Entry R)) (i : ℕ) (paymentId : UUID) (p : Option Payment) :
    calls (l ++ [.seen i paymentId p]) = calls l := by
  simp [calls, Entry.made?]

/-- The callers of a chronicle. -/
def callers (l : List (Entry R)) : List Caller := l.map fun x => x.served.caller

theorem callers_append (l l' : List (Entry R)) : callers (l ++ l') = callers l ++ callers l' :=
  List.map_append

theorem callers_made (l : List ((ledger R).Served ℕ)) :
    callers (l.map Entry.made) = (l.map Served.caller).map Caller.thread := by
  unfold callers
  rw [List.map_map, List.map_map]
  rfl

/-- The calls of the threads are questions to the archive. -/
theorem serves_made {L L' : Ledger} {l : List ((ledger R).Served ℕ)}
    (h : (ledger R).Serves L l L') :
    (archive R).Serves L ((l.map Entry.made).map Entry.served) L' := by
  induction h with
  | nil => exact .nil _
  | call _ he ih =>
    rw [List.map_append, List.map_append]
    exact ih.call (e := Entry.served (.made _)) (.create he)
  | evolve _ he ih => exact ih.evolve he

variable (apiKey F) in
/-- **Why a request is answered so**, by the chronicle `l`. -/
inductive Justified (l : List (Entry R)) (i : ℕ) : HttpRequest → Work → HttpResponse → Prop
  | refused {r : HttpRequest} {a : HttpResponse} (h : Refusal apiKey F r a) :
      Justified l i r .nothing a
  | replied {r : HttpRequest} {c : CreatePaymentCommand} {t : ℕ} {reply : Reply}
      (h : Admitted apiKey F r (.create c)) (hl : .made ⟨t, c, reply⟩ ∈ l) :
      Justified l i r (.thread t) (createPaymentResponse R (reply.outcome c))
  | raised {r : HttpRequest} {c : CreatePaymentCommand} (h : Admitted apiKey F r (.create c))
      (t : ℕ) : Justified l i r (.thread t) unhandledHandler
  | read {r : HttpRequest} {paymentId : UUID} {payment : Option Payment}
      (h : Admitted apiKey F r (.get paymentId)) (hl : .seen i paymentId payment ∈ l) :
      Justified l i r .query (getPaymentResponse paymentId payment)
  | failed {r : HttpRequest} {paymentId : UUID} (h : Admitted apiKey F r (.get paymentId)) :
      Justified l i r .query unhandledHandler

theorem Justified.mono {l l' : List (Entry R)} (hl : l ⊆ l') {i : ℕ} {r : HttpRequest} {w : Work}
    {a : HttpResponse} (h : Justified apiKey F l i r w a) : Justified apiKey F l' i r w a := by
  cases h with
  | refused h => exact .refused h
  | replied h hmem => exact .replied h (hl hmem)
  | raised h t => exact .raised h t
  | read h hmem => exact .read h (hl hmem)
  | failed h => exact .failed h

variable (apiKey F) in
/-- What a chronicle says about an exchange. -/
inductive Fits (l : List (Entry R)) (i : ℕ) : Exchange → Prop
  | unborn (hl : .exchange i ∉ callers l) : Fits l i .unborn
  | creating {r : HttpRequest} {c : CreatePaymentCommand} (h : Admitted apiKey F r (.create c))
      (t : ℕ) : Fits l i (.creating r c t)
  | getting {r : HttpRequest} {paymentId : UUID} (h : Admitted apiKey F r (.get paymentId))
      (hl : .exchange i ∉ callers l) : Fits l i (.getting r paymentId)
  | got {r : HttpRequest} {paymentId : UUID} {payment : Option Payment}
      (h : Admitted apiKey F r (.get paymentId)) (hl : .seen i paymentId payment ∈ l) :
      Fits l i (.got r paymentId payment)
  | answered {r : HttpRequest} {w : Work} {a : HttpResponse} (h : Justified apiKey F l i r w a) :
      Fits l i (.answered r w a)
  | lost : Fits l i .lost

/-- What others do is no matter of an exchange. -/
theorem Fits.append {l l' : List (Entry R)} {i : ℕ} {x : Exchange} (h : Fits apiKey F l i x)
    (hl : .exchange i ∉ callers l') : Fits apiKey F (l ++ l') i x := by
  have happend (hl₀ : .exchange i ∉ callers l) : .exchange i ∉ callers (l ++ l') := by
    rw [callers_append, List.mem_append]
    rintro (h | h)
    · exact hl₀ h
    · exact hl h
  cases h with
  | unborn hl₀ => exact .unborn (happend hl₀)
  | creating h t => exact .creating h t
  | getting h hl₀ => exact .getting h (happend hl₀)
  | got h hmem => exact .got h (List.mem_append_left _ hmem)
  | answered h => exact .answered (h.mono (List.subset_append_left _ _))
  | lost => exact .lost

/-- The front is seen in the view `v` of the service, and the chronicle `l` has led to it. -/
structure Chronicled (apiKey : Str) (F : Framework) (s : Front R cfg) (v : View R cfg) (L : Ledger)
    (l : List (Entry R)) : Prop where
  tracks : (serviceSpec R cfg).Tracks s.base v
  records : (ledgerLinearization R cfg).Records v L (calls l)
  nodup : (callers l).Nodup
  fits : ∀ i, Fits apiKey F l i (s.exchanges i)

section Step

variable {s s' : Front R cfg} {v : View R cfg} {L : Ledger} {l : List (Entry R)}

/-- An exchange moves on while the service stands still. -/
theorem Chronicled.set (h : Chronicled apiKey F s v L l) {i : ℕ} {x : Exchange} (hx : Fits apiKey F l i x) :
    Chronicled apiKey F (s.set i x) v L l := by
  refine ⟨h.tracks, h.records, h.nodup, fun j => ?_⟩
  rw [Front.exchanges_set]
  split
  · rename_i hj
    rwa [hj]
  · exact h.fits j

/-- The service moves on while the exchanges stand still. -/
theorem Chronicled.base (h : Chronicled apiKey F s v L l) (hv : (serviceSpec R cfg).Reachable v)
    {b : (service R cfg).State} (hs : (service R cfg).Step s.base b) :
    ∃ v' L' l', ReflTransGen (serviceSpec R cfg).Step v v' ∧
      (archive R).Serves L (l'.map Entry.served) L' ∧
      Chronicled apiKey F { s with base := b } v' L' (l ++ l') := by
  obtain ⟨v', hstep, htracks⟩ := h.tracks.step hs
  obtain ⟨L', l', hserves, hrec⟩ := h.records.step hv hstep
  refine ⟨v', L', l'.map Entry.made, .single hstep, serves_made hserves, htracks, ?_, ?_, ?_⟩
  · rwa [calls_append_made]
  · have hnodup := hrec.nodup
    rw [List.map_append] at hnodup
    obtain ⟨-, hnew, hdisjoint⟩ := List.nodup_append.mp hnodup
    have hinj : Function.Injective Caller.thread := fun t t' ht => Caller.thread.inj ht
    rw [callers_append, callers_made]
    refine List.nodup_append.mpr ⟨h.nodup, hnew.map hinj, fun x hx y hy hxy => ?_⟩
    obtain ⟨e, he, rfl⟩ := List.mem_map.mp hx
    obtain ⟨t, ht, rfl⟩ := List.mem_map.mp hy
    cases e with
    | seen => cases hxy
    | made e =>
      exact hdisjoint _ (List.mem_map_of_mem (mem_calls.mpr he)) _ ht (Caller.thread.inj hxy)
  · intro i
    refine (h.fits i).append fun hmem => ?_
    rw [callers_made] at hmem
    obtain ⟨t, -, ht⟩ := List.mem_map.mp hmem
    cases ht

/-- An exchange reads the row of a payment. -/
theorem Chronicled.seen (h : Chronicled apiKey F s v L l) {i : ℕ} {r : HttpRequest} {paymentId : UUID}
    (hi : s.exchanges i = .getting r paymentId) :
    (archive R).Serves L ([Entry.seen i paymentId (s.base.world.payments.rows paymentId)].map
        Entry.served) L ∧
      Chronicled apiKey F (s.set i (.got r paymentId (s.base.world.payments.rows paymentId))) v L
        (l ++ [.seen i paymentId (s.base.world.payments.rows paymentId)]) := by
  have hfits := h.fits i
  rw [hi] at hfits
  cases hfits with
  | getting hadm hl =>
    have hshows : Shows s.base.world.payments L := h.tracks.world ▸ h.records.holds
    constructor
    · refine (Serves.nil L).call (e := Entry.served _) ?_
      cases hrow : s.base.world.payments.rows paymentId with
      | none =>
        refine .missing fun key p hp hid => ?_
        have hrow' := ((hshows key p).mp hp).1
        rw [hid, hrow] at hrow'
        cases hrow'
      | some p =>
        obtain rfl := s.base.world.payments.key_rows hrow
        exact .found ((hshows _ p).mpr ⟨hrow, rfl⟩)
    · refine ⟨h.tracks, ?_, ?_, fun j => ?_⟩
      · rw [calls_append_seen]
        exact h.records
      · rw [callers_append]
        refine List.nodup_append.mpr ⟨h.nodup, List.nodup_singleton _, fun x hx y hy hxy => ?_⟩
        obtain rfl := List.mem_singleton.mp hy
        subst hxy
        exact hl hx
      · rw [Front.exchanges_set]
        split
        · rename_i hj
          subst hj
          exact .got hadm (List.mem_append_right _ (List.mem_singleton.mpr rfl))
        · rename_i hj
          refine (h.fits j).append fun hmem => hj ?_
          exact Caller.exchange.inj (List.mem_singleton.mp hmem)

/-- A thread that has a result has its reply in the chronicle. -/
theorem Chronicled.replied (h : Chronicled apiKey F s v L l) {t : ℕ} {c : CreatePaymentCommand}
    {p : Prog Op Res (Except Exn CreatePaymentResult)} {out : Except Exn CreatePaymentResult}
    (ht : s.base.threads t = .running (.create c) p) (hp : Returns p out) {reply : Reply}
    (hreply : replyOf out = some reply) :
    Entry.made ⟨t, c, reply⟩ ∈ l ∧ out = reply.outcome c := by
  have htrack := h.tracks.thread t
  rw [ht] at htrack
  generalize hst : v.status t = y at htrack
  have hfits := h.records.fits t
  rw [hst] at hfits
  have hpost : ∃ ψ, y = .active (.api c ψ) ∧ ApiPost R c out ψ := by
    cases htrack with
    | @running _ _ φ hwp =>
      rcases hp with rfl | ⟨k, rfl, hk⟩
      · obtain ⟨ψ, rfl, hpost⟩ := hwp
        exact ⟨ψ, rfl, hpost⟩
      · obtain ⟨φ', hm, hwp'⟩ := hwp ()
        rw [hk] at hwp'
        obtain ⟨ψ, rfl, hpost⟩ := hwp'
        cases hm with
        | api hm =>
          cases hm with
          | closed => exact ⟨ψ, rfl, hpost⟩
  obtain ⟨ψ, rfl, hpost⟩ := hpost
  obtain ⟨t', hentry⟩ := hfits.replied hpost hreply
  obtain ⟨hmem, rfl⟩ := mem_of_entry hentry
  exact ⟨mem_calls.mp hmem, hpost.outcome hreply⟩

/-- **One step** of the front. -/
theorem Chronicled.step (h : Chronicled apiKey F s v L l) (hv : (serviceSpec R cfg).Reachable v)
    (hs : Front.Step apiKey F s s') : ∃ v' L' l', ReflTransGen (serviceSpec R cfg).Step v v' ∧
      (archive R).Serves L (l'.map Entry.served) L' ∧ Chronicled apiKey F s' v' L' (l ++ l') := by
  have hstill {i : ℕ} {x : Exchange} (hx : Fits apiKey F l i x) : ∃ v' L' l',
      ReflTransGen (serviceSpec R cfg).Step v v' ∧
      (archive R).Serves L (l'.map Entry.served) L' ∧
      Chronicled apiKey F (s.set i x) v' L' (l ++ l') :=
    ⟨v, L, [], .refl, .nil (O := archive R) L, by simpa using h.set hx⟩
  cases hs with
  | inner hs => exact h.base hv hs
  | refused hi hr => exact hstill (.answered (.refused hr))
  | create hi hr => exact (h.set (.creating hr _)).base hv (.start (.create _ _))
  | @created i r c t p out hi ht hp =>
    have hfits := h.fits i
    rw [hi] at hfits
    cases hfits with
    | creating hadm =>
      refine hstill (.answered ?_)
      cases hreply : replyOf out with
      | some reply =>
        obtain ⟨hmem, rfl⟩ := h.replied ht hp hreply
        exact .replied hadm hmem
      | none =>
        have hout : createPaymentResponse R out = unhandledHandler := by
          cases out with
          | ok => cases hreply
          | error e => cases e <;> first | rfl | cases hreply
        rw [hout]
        exact .raised hadm t
  | @get i r paymentId hi hr =>
    have hfits := h.fits i
    rw [hi] at hfits
    cases hfits with
    | unborn hl => exact hstill (.getting hr hl)
  | selected hi => exact ⟨v, L, _, .refl, h.seen hi⟩
  | @selectFailed i r paymentId hi =>
    have hfits := h.fits i
    rw [hi] at hfits
    cases hfits with
    | getting hadm => exact hstill (.answered (.failed hadm))
  | @read i r paymentId payment hi =>
    have hfits := h.fits i
    rw [hi] at hfits
    cases hfits with
    | got hadm hl => exact hstill (.answered (.read hadm hl))
  | lost => exact hstill .lost

/-- **A run** of the front. -/
theorem Chronicled.run (h : Chronicled apiKey F s v L l) (hv : (serviceSpec R cfg).Reachable v)
    (hr : Front.Run apiKey F s s') : ∃ v' L' l', (serviceSpec R cfg).Reachable v' ∧
      (archive R).Serves L (l'.map Entry.served) L' ∧ Chronicled apiKey F s' v' L' (l ++ l') := by
  induction hr with
  | refl => exact ⟨v, L, [], hv, .nil (O := archive R) L, by simpa using h⟩
  | tail _ hs ih =>
    obtain ⟨v₁, L₁, l₁, hv₁, hserves₁, h₁⟩ := ih
    obtain ⟨v₂, L₂, l₂, hrun, hserves₂, h₂⟩ := h₁.step hv₁ hs
    refine ⟨v₂, L₂, l₁ ++ l₂, hv₁.run hrun, ?_, by rwa [← List.append_assoc]⟩
    rw [List.map_append]
    exact hserves₁.append hserves₂

theorem exists_chronicled (h : Front.Reachable apiKey F s) : ∃ v L l,
    (serviceSpec R cfg).Reachable v ∧ (archive R).Serves (archive R).empty (l.map Entry.served) L ∧
      Chronicled apiKey F s v L l := by
  obtain ⟨s₀, ⟨hinit, hexchanges⟩, hr⟩ := h
  have hv₀ : (serviceSpec R cfg).Initial ⟨s₀.base.world, fun _ => .unborn, 0⟩ :=
    ⟨hinit.1, fun _ => rfl, rfl⟩
  have htracks : (serviceSpec R cfg).Tracks s₀.base ⟨s₀.base.world, fun _ => .unborn, 0⟩ := by
    refine ⟨rfl, fun t => ?_, hinit.2.2.symm⟩
    rw [hinit.2.1 t]
    exact .unborn
  have h₀ : Chronicled apiKey F s₀ ⟨s₀.base.world, fun _ => .unborn, 0⟩ (ledger R).empty [] := by
    refine ⟨htracks, .init hv₀, List.nodup_nil, fun i => ?_⟩
    rw [hexchanges i]
    exact .unborn List.not_mem_nil
  obtain ⟨v, L, l, hv, hserves, hrec⟩ := h₀.run ⟨_, hv₀, .refl⟩ hr
  exact ⟨v, L, l, hv, hserves, hrec⟩

end Step

/-! ## Who came first -/

/-- The thread that works for a request. -/
def Exchange.thread? : Exchange → Option ℕ
  | .creating _ _ t | .answered _ (.thread t) _ => some t
  | _ => none

section Order

variable {s s' : Front R cfg} {v : View R cfg} {L : Ledger} {l : List (Entry R)}

theorem born_le_of_step (h : (service R cfg).Step s.base s'.base) : s.base.born ≤ s'.base.born := by
  generalize s.base = b at h
  generalize s'.base = b' at h
  cases h with
  | start => exact Nat.le_succ _
  | exec | crash | env => exact Nat.le_refl _

theorem born_le_of_run (h : Front.Run apiKey F s s') : s.base.born ≤ s'.base.born := by
  induction h with
  | refl => exact Nat.le_refl _
  | tail _ hs ih =>
    rcases hs.base with heq | hstep
    · rwa [heq]
    · exact ih.trans (born_le_of_step hstep)

/-- A thread that works for a request is new when the request comes in. -/
theorem Front.Step.thread? (hs : Front.Step apiKey F s s') {i t : ℕ}
    (ht : (s'.exchanges i).thread? = some t) :
    (s.exchanges i).thread? = some t ∨ t = s.base.born := by
  have hset {j : ℕ} {x : Exchange} (ht : ((s.set j x).exchanges i).thread? = some t) :
      (s.exchanges i).thread? = some t ∨ (i = j ∧ x.thread? = some t) := by
    rw [Front.exchanges_set] at ht
    split at ht
    · rename_i hij
      exact .inr ⟨hij, ht⟩
    · exact .inl ht
  cases hs with
  | inner => exact .inl ht
  | create =>
    rcases hset ht with ht | ⟨-, ht⟩
    · exact .inl ht
    · exact .inr (Option.some.inj ht).symm
  | created hi =>
    rcases hset ht with ht' | ⟨rfl, ht'⟩
    · exact .inl ht'
    · rw [hi]
      exact .inl ht'
  | refused | get | selected | selectFailed | read | lost =>
    rcases hset ht with ht | ⟨-, ht⟩
    · exact .inl ht
    · cases ht

theorem Front.Run.thread? (hr : Front.Run apiKey F s s') {i : ℕ} (hi : s.exchanges i = .unborn)
    {t : ℕ} (ht : (s'.exchanges i).thread? = some t) : s.base.born ≤ t := by
  induction hr generalizing t with
  | refl =>
    rw [hi] at ht
    cases ht
  | tail hr hs ih =>
    rcases hs.thread? ht with ht | rfl
    · exact ih ht
    · exact born_le_of_run hr

/-- The threads in a chronicle have been started. -/
theorem Chronicled.lt_born (h : Chronicled apiKey F s v L l) (hv : (serviceSpec R cfg).Reachable v)
    {e : (ledger R).Served ℕ} (he : .made e ∈ l) : e.caller < s.base.born := by
  by_contra hlt
  have hborn : v.born ≤ e.caller := by
    rw [h.tracks.born]
    omega
  have hfits := h.records.fits e.caller
  rw [hv.unborn.mpr hborn] at hfits
  generalize hx : entry (calls l) e.caller = x at hfits
  cases hfits
  exact entry_eq_none_iff.mp hx e (mem_calls.mpr he) rfl

/-- A request that comes in later is answered by what comes later. -/
theorem Chronicled.later (h : Chronicled apiKey F s v L l) (hv : (serviceSpec R cfg).Reachable v)
    (hr : Front.Run apiKey F s s') {l' : List (Entry R)} {i : ℕ} (hi : s.exchanges i = .unborn)
    {r : HttpRequest} {w : Work} {a : HttpResponse} (hi' : s'.exchanges i = .answered r w a)
    (hj : Justified apiKey F (l ++ l') i r w a) : Justified apiKey F l' i r w a := by
  cases hj with
  | refused h => exact .refused h
  | @replied c t reply hadm hmem =>
    refine .replied hadm ((List.mem_append.mp hmem).resolve_left fun hold => ?_)
    have hlt := h.lt_born hv hold
    have hle := hr.thread? hi (t := t) (by rw [hi']; rfl)
    have hlt : t < s.base.born := hlt
    omega
  | raised hadm t => exact .raised hadm t
  | read hadm hmem =>
    refine .read hadm ((List.mem_append.mp hmem).resolve_left fun hold => ?_)
    have hfits := h.fits i
    rw [hi] at hfits
    cases hfits with
    | unborn hl => exact hl (List.mem_map.mpr ⟨_, hold, rfl⟩)
  | failed hadm => exact .failed hadm

end Order

/-! ## What clients can rely on -/

/-- **A chronicle of the answers**: the ledger is what the table shows, nobody asks twice, and every
answer that was given is justified. -/
structure Chronicle (apiKey : Str) (F : Framework) (s : Front R cfg) (L : Ledger)
    (l : List (Entry R)) : Prop where
  shows : Shows s.base.world.payments L
  nodup : (callers l).Nodup
  answered : ∀ i r w a, s.exchanges i = .answered r w a → Justified apiKey F l i r w a

section Main

variable {s s' : Front R cfg}

theorem Chronicled.chronicle {v : View R cfg} {L : Ledger} {l : List (Entry R)}
    (h : Chronicled apiKey F s v L l) : Chronicle apiKey F s L l := by
  refine ⟨h.tracks.world ▸ h.records.holds, h.nodup, fun i r w a hi => ?_⟩
  have hfits := h.fits i
  rw [hi] at hfits
  cases hfits with
  | answered hj => exact hj

variable (R) in
/-- A response tells of a payment. -/
inductive Reports (p : Payment) : HttpResponse → Prop
  | accepted (replayed : Bool) : Reports p (createPaymentResponse R (.ok ⟨p, replayed⟩))
  | found : Reports p (getPaymentResponse p.id (some p))

/-- A response that is no error tells of a payment that is in the ledger from then on. -/
theorem Justified.reports {L : Ledger} {l : List (Entry R)} {i : ℕ} {r : HttpRequest} {w : Work}
    {a : HttpResponse} (h : Justified apiKey F l i r w a)
    (hserves : (archive R).Serves (archive R).empty (l.map Entry.served) L)
    (hok : a.statusCode < 400) :
    ∃ p, Reports R p a ∧ ∃ p', L p.idempotencyKey = some p' ∧ p.LifeCycle p' := by
  cases h with
  | refused h => exact absurd h.statusCode (by omega)
  | @replied c t reply hadm hmem =>
    cases reply with
    | result result =>
      exact ⟨result.payment, .accepted result.replayed, present_of_serves hserves
        Ledger.proper_empty (List.mem_map_of_mem hmem) (.result result.replayed)⟩
    | conflict =>
      have hlt : 409 < 400 := hok
      omega
  | raised =>
    have hlt : 500 < 400 := hok
    omega
  | @read paymentId payment hadm hmem =>
    cases payment with
    | none =>
      have hlt : 404 < 400 := hok
      omega
    | some p =>
      have hmem' := List.mem_map_of_mem (f := Entry.served) hmem
      obtain ⟨_, _, L₁, L₂, -, -, hserve, -⟩ := hserves.moment hmem'
      obtain rfl := Consult.id hserve
      exact ⟨p, .found, present_of_serves hserves Ledger.proper_empty hmem' .payment⟩
  | failed =>
    have hlt : 500 < 400 := hok
    omega

variable (R) in
/-- **What a later answer has to do with the payment `p`**: who asks for it gets it, later in its
life cycle, and its key gives it back for the same body and a conflict for any other. -/
structure Agrees (apiKey : Str) (F : Framework) (p : Payment) (r : HttpRequest) (b : HttpResponse) :
    Prop where
  found : Admitted apiKey F r (.get p.id) →
    ∃ p', p.LifeCycle p' ∧ b = getPaymentResponse p.id (some p')
  replayed : ∀ c, Admitted apiKey F r (.create c) → c.idempotencyKey = p.idempotencyKey →
    c.fingerprint R = .ok p.requestFingerprint →
    ∃ p', p.LifeCycle p' ∧ b = createPaymentResponse R (.ok ⟨p', true⟩)
  conflict : ∀ c, Admitted apiKey F r (.create c) → c.idempotencyKey = p.idempotencyKey →
    c.fingerprint R ≠ .ok p.requestFingerprint →
    b = createPaymentResponse R (.error (.idempotencyConflict c.idempotencyKey))

theorem Justified.agrees {L L' : Ledger} {l : List (Entry R)} {i : ℕ} {r : HttpRequest} {w : Work}
    {b : HttpResponse} (h : Justified apiKey F l i r w b)
    (hserves : (archive R).Serves L (l.map Entry.served) L') (hL : L.Proper) {p p' : Payment}
    (hp : L p.idempotencyKey = some p') (hl : p.LifeCycle p') (hb : b ≠ unhandledHandler) :
    Agrees R apiKey F p r b := by
  cases h with
  | refused href =>
    exact ⟨fun hadm => absurd href hadm.not_refused, fun c hadm => absurd href hadm.not_refused,
      fun c hadm => absurd href hadm.not_refused⟩
  | raised => exact absurd rfl hb
  | failed => exact absurd rfl hb
  | @read paymentId payment hadm hmem =>
    obtain ⟨L₁, L₂, q, hL₁, hq, hlq, hserve⟩ :=
      asked_of_serves hserves hL (List.mem_map_of_mem (f := Entry.served) hmem) hp
    refine ⟨fun hadm' => ?_, fun c hadm' => ?_, fun c hadm' => ?_⟩
    · obtain rfl := Endpoint.get.inj (hadm.unique hadm')
      have hlife := hl.trans hlq
      have hid : q.id = p.id := hlife.request.id
      have hkey : q.idempotencyKey = p.idempotencyKey := hlife.request.idempotencyKey
      have hsaid := Consult.get (p := q) (hid ▸ hserve) hL₁ (hkey ▸ hq)
      obtain rfl := Said.payment.inj hsaid
      exact ⟨q, hlife, rfl⟩
    · cases hadm.unique hadm'
    · cases hadm.unique hadm'
  | @replied c t reply hadm hmem =>
    obtain ⟨L₁, L₂, q, hL₁, hq, hlq, hserve⟩ :=
      asked_of_serves hserves hL (List.mem_map_of_mem (f := Entry.served) hmem) hp
    have hlife := hl.trans hlq
    have hfingerprint : q.requestFingerprint = p.requestFingerprint :=
      hlife.request.requestFingerprint
    refine ⟨fun hadm' => ?_, fun c' hadm' hkey hf => ?_, fun c' hadm' hkey hf => ?_⟩
    · cases hadm.unique hadm'
    · obtain rfl := Endpoint.create.inj (hadm.unique hadm')
      rcases Consult.again hserve (hkey ▸ hq) with ⟨-, hsaid⟩ | ⟨hne, -⟩
      · obtain rfl := Said.reply.inj hsaid
        exact ⟨q, hlife, rfl⟩
      · exact absurd (hfingerprint ▸ hf) hne
    · obtain rfl := Endpoint.create.inj (hadm.unique hadm')
      rcases Consult.again hserve (hkey ▸ hq) with ⟨heq, -⟩ | ⟨-, hsaid⟩
      · exact absurd (hfingerprint ▸ heq) hf
      · obtain rfl := Said.reply.inj hsaid
        rfl

/-- **What a client has been told holds for everybody.** A response that is no error tells of a
payment, and every answer to a request that comes in after it agrees with that, unless it is the
failure that says nothing: nobody is told that the payment is not there, or earlier in its life
cycle, and nobody gets another one for its key. -/
theorem api_sessions (h : Front.Reachable apiKey F s) {i : ℕ} {r : HttpRequest} {w : Work}
    {a : HttpResponse} (hi : s.exchanges i = .answered r w a) (hok : a.statusCode < 400) :
    ∃ p, Reports R p a ∧ ∀ s', Front.Run apiKey F s s' →
      ∀ j r' w' b, s.exchanges j = .unborn → s'.exchanges j = .answered r' w' b →
        b ≠ unhandledHandler → Agrees R apiKey F p r' b := by
  obtain ⟨v, L, l, hv, hserves, hrec⟩ := exists_chronicled h
  obtain ⟨p, hreports, p', hp, hl⟩ :=
    (hrec.chronicle.answered i r w a hi).reports hserves hok
  refine ⟨p, hreports, fun s' hr j r' w' b hj hj' hb => ?_⟩
  obtain ⟨v', L', l', hv', hserves', hrec'⟩ := hrec.run hv hr
  have hjust := hrec.later hv hr hj hj' (hrec'.chronicle.answered j r' w' b hj')
  exact hjust.agrees hserves' (proper_of_serves hserves Ledger.proper_empty) hp hl hb

end Main

/-! ### A session -/

section Session

/-- The key that callers have. -/
def sessionKey : Str := Str.ofString "local-dev-api-key"

/-- A framework that converts no strings. -/
def plainFramework : Framework := ⟨noParsers, fun _ => []⟩

/-- The header with the key. -/
def keyHeader : HeaderValue := ⟨sessionKey, headerValue_ofString (by simp)⟩

/-- The request to pay for a book. -/
def postBook : HttpRequest :=
  ⟨some keyHeader, .createPayment (some orderHeader) (some ⟨bookText one, wellFormed_bookText one⟩)⟩

theorem verifyApiKey_keyHeader : verifyApiKey sessionKey (some keyHeader.1) = .ok () :=
  verifyApiKey_eq_ok_iff.mpr ⟨rfl, Str.valid_ofString _⟩

theorem admitted_postBook : Admitted sessionKey plainFramework postBook
    (.create ((bookRequest one).command (Str.ofString "order-1"))) :=
  .create verifyApiKey_keyHeader getIdempotencyKey_orderHeader (readRequest_bookText _ _)
    (validate_bookRequest one)

/-- The request is answered, and no other has come in. -/
theorem exists_answered : ∃ (s : Front .transparent default) (w : Work)
    (result : CreatePaymentResult) (f : Str), Front.Reachable sessionKey plainFramework s ∧
      s.exchanges 0 = .answered postBook w (createPaymentResponse .transparent (.ok result)) ∧
      s.exchanges 1 = .unborn ∧ Idle s.base ∧
      s.base.world = World.accepting ((bookRequest one).command (Str.ofString "order-1")) f 0 0 := by
  obtain ⟨f, hf⟩ := (exists_fingerprint_iff (R := .transparent) (validate_bookRequest one)
    (Str.ofString "order-1")).mpr (encodable_bookRequest one)
  let c := (bookRequest one).command (Str.ofString "order-1")
  let s₀ : Front .transparent default := ⟨⟨World.initial 0, fun _ => .unborn, 0⟩, fun _ => .unborn⟩
  have h₀ : Front.Initial s₀ := ⟨⟨⟨0, rfl⟩, fun _ => rfl, rfl⟩, fun _ => rfl⟩
  have hcreate := Front.Step.create (s := s₀) (i := 0) rfl admitted_postBook
  have hwp : (createPayment .transparent c).run.wp (.possible (Exec default 0))
      (fun out w => (∃ result, out = .ok result) ∧ w = World.accepting c f 0 0)
      (World.initial 0) := by
    refine Prog.wp_mono _ (createPayment_possible _ hf (admissible_initial c 0) 0)
      fun out w hpost => ?_
    cases out with
    | ok result => exact ⟨⟨result, rfl⟩, hpost.2⟩
    | error e => exact hpost.elim
  obtain ⟨out, w, ⟨⟨result, rfl⟩, hw⟩, hrun⟩ := Machine.run_of_wp (M := service .transparent default)
    (s := s₀.spawn c) (k := .create c) (Function.update_self ..) hwp
  let b : (service .transparent default).State :=
    ⟨w, Function.update (s₀.spawn c).threads 0 (.running (.create c) (.ret (.ok result))), 1⟩
  let s₁ : Front .transparent default :=
    ⟨b, Function.update s₀.exchanges 0 (.creating postBook c 0)⟩
  have hb : b.threads 0 = .running (.create c) (.ret (.ok result)) := rfl
  have hcreating : s₁.exchanges 0 = .creating postBook c 0 := rfl
  have hreturned : Front.Step sessionKey plainFramework s₁ (s₁.set 0 (.answered postBook (.thread 0)
      (createPaymentResponse .transparent (.ok result)))) := .created hcreating hb (.inl rfl)
  refine ⟨_, .thread 0, result, f, ⟨s₀, h₀, .tail (.trans (.single hcreate) (Front.run_inner hrun))
    hreturned⟩, Front.exchanges_set_self _ _ _, rfl, fun t k o k' ht => ?_, hw⟩
  by_cases h0 : t = 0
  · subst h0
    cases hb.symm.trans ht
  · exact nomatch (Function.update_of_ne h0 _ _).symm.trans
      ((Function.update_of_ne h0 _ _).symm.trans ht)

/-- Who asks for the book after its request was accepted gets it. -/
theorem api_sessions_found : ∃ (s s' : Front .transparent default) (w w' : Work)
    (a b : HttpResponse) (p p' : Payment), Front.Run sessionKey plainFramework s s' ∧
      s.exchanges 0 = .answered postBook w a ∧ Reports .transparent p a ∧
      s'.exchanges 1 = .answered ⟨some keyHeader, .getPayment (some p.id)⟩ w' b ∧
      p.LifeCycle p' ∧ b = getPaymentResponse p.id (some p') := by
  obtain ⟨s, w, result, -, h, hi, hunborn, -⟩ := exists_answered
  have hok : (createPaymentResponse .transparent (.ok result)).statusCode < 400 := by
    show 202 < 400
    omega
  obtain ⟨p, hreports, hagrees⟩ := api_sessions h hi hok
  have hadmitted : Admitted sessionKey plainFramework ⟨some keyHeader, .getPayment (some p.id)⟩
      (.get p.id) := .get verifyApiKey_keyHeader p.id
  obtain ⟨s', hrun, hi'⟩ := Front.exists_read hunborn hadmitted
  have hne := getPaymentResponse_ne p.id (s.base.world.payments.rows p.id)
  obtain ⟨p', hl, hb⟩ := (hagrees s' hrun 1 _ _ _ hunborn hi' hne).found hadmitted
  exact ⟨s, s', w, .query, _, _, p, p', hrun, hi, hreports, hi', hl, hb⟩

end Session

end Payments
