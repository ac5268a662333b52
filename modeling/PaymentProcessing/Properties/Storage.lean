import PaymentProcessing.Properties.Amounts
import PaymentProcessing.System.Invariant
import PaymentProcessing.System.Live

/-!
# What is accepted can be stored

The validation of a request, the encoder of the fingerprint and the columns of the database are
written in three places. `create_ends_iff` says for which requests they agree:
`PaymentService.create` ends with a payment or with a conflict, on a live database and whatever
other transactions do, if and only if the metadata have no lone surrogate, and either a payment with
the key exists already or the description and the metadata have no NUL, no `NaN` and no `Infinity`.
Validation checks none of these.
-/

namespace Payments

open Effects Python Store

/-! ## What fits -/

section Fits

variable {request : CreatePaymentRequest} {key f : Str} {R : Runtime}

/-- The description and the metadata of a request can be stored. -/
def CreatePaymentRequest.Storable (request : CreatePaymentRequest) : Prop :=
  0 ∉ request.description ∧ Jsonb FiniteToken (.obj request.metadata.1)

/-- A fingerprint is a hash. -/
theorem exists_sha256_of_fingerprint {c : CreatePaymentCommand} (h : c.fingerprint R = .ok f) :
    ∃ bytes, f = R.sha256 bytes := by
  unfold CreatePaymentCommand.fingerprint requestFingerprint at h
  split at h
  · simp at h
  · split at h
    · rename_i bytes _
      exact ⟨bytes, (Except.ok.inj h).symm⟩
    · simp at h

theorem exists_cents (h : request.validate = .ok request) : ∃ k, Cents request.amount k := by
  obtain ⟨⟨amount, hamount⟩, -⟩ := CreatePaymentRequest.validate_eq_ok_iff.mp h
  exact (validateAmount_eq_ok_iff.mp hamount).2

theorem Cents.value_eq {v : Decimal} {k : ℕ} (h : Cents v k) :
    0 < k ∧ k < 10 ^ 18 ∧ v.value = k * 10 ^ (-2 : ℤ) := by
  obtain ⟨hpos, hle, hv⟩ := h
  refine ⟨hpos, by omega, ?_⟩
  rw [hv]
  norm_num [div_eq_mul_inv]

/-- A valid request without lone surrogates in its metadata is what the encoder takes. -/
theorem validated_command (h : request.validate = .ok request)
    (hmetadata : (Json.obj request.metadata.1).Encodable) (key : Str) :
    (request.command key).Validated := by
  obtain ⟨k, hk⟩ := exists_cents h
  obtain ⟨-, hdescription, -⟩ := CreatePaymentRequest.validate_eq_ok_iff.mp h
  refine ⟨⟨k, hk.value_eq⟩, hdescription, ⟨request.metadata.2, hmetadata⟩, fun url hurl => ?_⟩
  obtain ⟨u, -, rfl⟩ := Option.mem_map.mp hurl
  exact (HttpUrl.text u).1

/-- **Which valid requests have a fingerprint.** -/
theorem exists_fingerprint_iff (h : request.validate = .ok request) (key : Str) :
    (∃ f, (request.command key).fingerprint R = .ok f) ↔
      (Json.obj request.metadata.1).Encodable := by
  obtain ⟨k, hk⟩ := exists_cents h
  obtain ⟨h0, hlt, hv⟩ := hk.value_eq
  constructor
  · rintro ⟨f, hf⟩
    exact CreatePaymentCommand.encodable_of_fingerprint (c := request.command key) h0 hlt hv hf
  · intro hmetadata
    exact (validated_command h hmetadata key).exists_fingerprint R

/-- The event of a payment fits its columns. -/
theorem newOutboxMessage_fits (id paymentId : UUID) (createdAt : Time) :
    (newOutboxMessage id paymentId createdAt).Fits := by
  have haggregate : Varchar 64 aggregateType := ⟨text_ofString (by simp), by decide⟩
  have hevent : Varchar 64 paymentCreated := ⟨text_ofString (by simp), by decide⟩
  have hrouting : Varchar 255 (Str.ofString paymentsNewRoutingKey) :=
    ⟨text_ofString (by simp [paymentsNewRoutingKey]), by decide⟩
  exact ⟨haggregate, hevent, hrouting, hevent.1⟩

/-- **Which payments fit their columns**, if the request is valid. -/
theorem newPayment_fits_iff (h : request.validate = .ok request) (hkey : Varchar 255 key)
    (hf : Varchar 64 f) (id : UUID) :
    (newPayment (request.command key) f id).Fits ↔ request.Storable := by
  constructor
  · intro hfits
    exact ⟨hfits.description.1.2, hfits.paymentMetadata⟩
  · rintro ⟨hzero, hmetadata⟩
    obtain ⟨k, hk⟩ := exists_cents h
    obtain ⟨-, hvalid, -, hlen, -⟩ := CreatePaymentRequest.validate_eq_ok_iff.mp h
    refine ⟨hkey, hf, ⟨_, numeric_of_units hk.value_eq.2.1 ?_, hk.pos⟩, ⟨⟨hvalid, hzero⟩, hlen⟩,
      hmetadata, fun url hurl => ?_⟩
    · exact hk.2.2.trans (by norm_num)
    · obtain ⟨u, -, rfl⟩ := Option.mem_map.mp hurl
      exact HttpUrl.text u

end Fits

/-! ## Other transactions -/

/-- For transaction `t` there is nothing with the id. -/
structure Unused (t : ℕ) (id : UUID) (w : World) : Prop where
  payment : w.payments.rows id = none
  message : w.outbox.rows id = none
  payments : ∀ t' ≠ t, w.payments.pending t' id = none
  messages : ∀ t' ≠ t, w.outbox.pending t' id = none

/-- What other transactions may do: they leave alone what `t` has written, no payment loses its key,
and the ids in `mine` stay unused. -/
structure Interferes (mine : Set UUID) (t : ℕ) (w w' : World) : Prop where
  written : w'.payments.pending t = w.payments.pending t
  hasKey : ∀ key, w.HasKey key → w'.HasKey key
  unused : ∀ id ∈ mine, Unused t id w → Unused t id w'

/-- The database is live, and the random ids are taken from `mine`. -/
def creationAnswer (mine : Set UUID) (w : World) : (o : Op) → Res o → Prop
  | .uuid4, id => id ∈ mine
  | o, r => Live w o r

/-- How a request is executed. -/
abbrev Creating (mine : Set UUID) (cfg : Settings) (t : ℕ) :
    (o : Op) → Res o → World → World → Prop :=
  Amid (Interferes mine t) (creationAnswer mine) cfg t

/-- The other transactions have ended without a trace. -/
def World.alone (w : World) (t : ℕ) : World :=
  { w with payments := w.payments.alone t, outbox := w.outbox.alone t }

section Interference

variable {mine : Set UUID} {t : ℕ} {w w' w'' : World} {key : Str}

theorem Interferes.refl (mine : Set UUID) (t : ℕ) (w : World) : Interferes mine t w w :=
  ⟨rfl, fun _ => id, fun _ _ => id⟩

theorem Interferes.trans (h : Interferes mine t w w') (h' : Interferes mine t w' w'') :
    Interferes mine t w w'' :=
  ⟨h'.written.trans h.written, fun key hkey => h'.hasKey key (h.hasKey key hkey),
    fun id hid hun => h'.unused id hid (h.unused id hid hun)⟩

theorem Interferes.alone (mine : Set UUID) (t : ℕ) (w : World) : Interferes mine t w (w.alone t) where
  written := Table.pending_alone_self
  hasKey _ := id
  unused _ _ h := ⟨h.payment, h.message, fun _ ht => Table.pending_alone ht,
    fun _ ht => Table.pending_alone ht⟩

/-- Another thread of the service interferes with `t` no more than that, as long as it does not take
the ids. -/
theorem Interferes.of_acts {R : Runtime} {cfg : Settings} {v : View R cfg}
    (h : (serviceSpec R cfg).Reachable v) {t' : ℕ} {y : Status R cfg}
    (ha : (serviceSpec R cfg).Acts v t' w y) (ht : t ≠ t')
    (hmine : ∀ id ∈ mine, Unused t id v.world → Unused t id w) : Interferes mine t v.world w := by
  have hseen := seen_of_acts ha (knowing h t')
  refine ⟨hseen.payments.pending_frame ht, ?_, hmine⟩
  rintro key ⟨id, p, hrow, hkey⟩
  obtain ⟨p', hrow', hl⟩ := hseen.evolves hrow
  exact ⟨id, p', hrow', hl.request.idempotencyKey.trans hkey⟩

/-- The environment does not interfere. -/
theorem Interferes.of_environment {cfg : Settings} (h : Environment cfg w w') :
    Interferes mine t w w' := by
  obtain ⟨-, hp, ho, -⟩ := Environment.same h
  refine ⟨by rw [hp], fun key hkey => ?_, fun id _ hun => ?_⟩
  · unfold World.HasKey at *
    rwa [hp]
  · obtain ⟨h1, h2, h3, h4⟩ := hun
    constructor <;> simp_all

end Interference

/-! ## Creating a payment -/

section Creating

variable {mine : Set UUID} {cfg : Settings} {t : ℕ} {w : World} {key : Str}
  {err : Exn → World → Prop}

/-- A payment with the key is looked for. -/
theorem wp_select_creating (htext : Text key) {ok : Option Payment → World → Prop}
    (hsome : ∀ p w', w'.HasKey key → ok (some p) w')
    (hnone : ∀ w', Interferes mine t w w' → ¬w'.HasKey key → ok none w') :
    (selectByIdempotencyKey key).wp (.executing (Creating mine cfg t)) ok err w := by
  obtain ⟨r, hlive, hx⟩ := exists_select htext w
  refine wp_ask.mpr ⟨⟨r, w, w, .refl _ _ _, hlive, hx⟩, ?_⟩
  rintro r w' ⟨w₁, hw₁, hlive, hx⟩
  obtain ⟨rfl, ⟨p, rfl, hrow, hkey⟩ | ⟨rfl, hnokey⟩⟩ := Live.of_select htext hlive hx
  · exact hsome p _ ⟨_, p, hrow, hkey⟩
  · exact hnone _ hw₁ hnokey

/-- A payment with the key is found, if there is one. -/
theorem wp_select_of_hasKey (htext : Text key) (h : w.HasKey key)
    {ok : Option Payment → World → Prop} (hok : ∀ p w', w'.HasKey key → ok (some p) w') :
    (selectByIdempotencyKey key).wp (.executing (Creating mine cfg t)) ok err w := by
  apply wp_select_creating htext
  · intro p w₁ hw₁
    exact hok p w₁ hw₁
  · intro w₁ hw₁ hnone
    exact absurd (hw₁.hasKey key h) hnone

/-- An id is chosen. -/
theorem wp_uuid4_creating (hmine : mine.Nonempty) {ok : UUID → World → Prop}
    (hok : ∀ id ∈ mine, ∀ w', Interferes mine t w w' → ok id w') :
    uuid4.wp (.executing (Creating mine cfg t)) ok err w := by
  obtain ⟨id, hid⟩ := hmine
  refine ⟨⟨_, _, w, .refl _ _ _, hid, .uuid4 _ _⟩, ?_⟩
  rintro id w' ⟨w₁, hw₁, hid, hx⟩
  cases hx with
  | uuid4 => exact hok _ hid _ hw₁

/-- The clock is read. -/
theorem wp_now_creating {ok : Time → World → Prop}
    (hok : ∀ τ w', Interferes mine t w w' → ok τ w') :
    now.wp (.executing (Creating mine cfg t)) ok err w := by
  refine ⟨⟨_, _, w, .refl _ _ _, .other rfl _, .now _⟩, ?_⟩
  rintro τ w' ⟨w₁, hw₁, -, hx⟩
  cases hx with
  | now => exact hok _ _ ⟨hw₁.written, hw₁.hasKey, fun id hid hun => by
      obtain ⟨h1, h2, h3, h4⟩ := hw₁.unused id hid hun
      exact ⟨h1, h2, h3, h4⟩⟩

/-- What the database says if the key is taken. -/
def keyTaken : IntegrityError where
  sqlstate := some uniqueViolation
  pgcode := none
  constraintName := some (Str.ofString "uq_payments_idempotency_key")
  text := []

theorem isIdempotencyKeyViolation_keyTaken : isIdempotencyKeyViolation keyTaken := by
  have hinfix : Str.ofString "idempotency_key" <:+: Str.ofString "uq_payments_idempotency_key" :=
    ⟨Str.ofString "uq_payments_", [], rfl⟩
  unfold isIdempotencyKeyViolation
  change contains (Str.ofString "uq_payments_idempotency_key") (Str.ofString "idempotency_key") = true
  exact decide_eq_true hinfix

/-- The rows are inserted, or there is a payment with the key. -/
theorem wp_insert_creating {p : NewPayment} {m : NewOutboxMessage} (hfits : p.Fits ∧ m.Fits)
    (hp : p.id ∈ mine) (hm : m.id ∈ mine) (hun : ∀ id ∈ mine, Unused t id w)
    {ok : Time → World → Prop}
    (hok : ∀ τ w', w'.payments.pending t p.id = some (p.row τ) → ok τ w')
    (herr : ∀ e w', isIdempotencyKeyViolation e → w'.HasKey p.idempotencyKey →
      err (.integrity e) w') :
    (insert p m).wp (.executing (Creating mine cfg t)) ok err w := by
  refine wp_ask.mpr ⟨?_, ?_⟩
  · by_cases h : w.HasKey p.idempotencyKey
    · exact ⟨_, _, w, .refl _ _ _, .duplicate hfits h isIdempotencyKeyViolation_keyTaken,
        .insertFailed _ _ _ _⟩
    · have halone := Interferes.alone mine t w
      obtain ⟨hprow, -, hppend, -⟩ := halone.unused _ hp (hun _ hp)
      obtain ⟨-, hmrow, -, hmpend⟩ := halone.unused _ hm (hun _ hm)
      refine ⟨.ok w.clock, _, w.alone t, halone, .inserted hfits _,
        .inserted le_rfl hprow hppend hmrow hmpend (fun id p' hrow hkey => h ⟨id, p', hrow, hkey⟩) fun t' ht id p' hpend => ?_⟩
      exact nomatch (Table.pending_alone ht).symm.trans hpend
  · rintro r w' ⟨w₁, hw₁, hlive, hx⟩
    change Live _ _ _ at hlive
    cases hlive with
    | inserted =>
      cases hx with
      | inserted => exact hok _ _ (by simp [NewPayment.row])
    | duplicate _ hkey he =>
      cases hx with
      | insertFailed => exact herr _ _ he hkey
    | insertRefused hno => exact absurd hfits hno
    | other h => cases h

/-- What has been written is committed. -/
theorem wp_commit_creating {id : UUID} {p : Payment} (h : w.payments.pending t id = some p)
    {ok : Unit → World → Prop} (hok : ∀ w', w'.payments.rows id = some p → ok () w') :
    commit.wp (.executing (Creating mine cfg t)) ok err w := by
  refine wp_ask.mpr ⟨⟨_, _, w, .refl _ _ _, .committed, .committed _⟩, ?_⟩
  rintro r w' ⟨w₁, hw₁, hlive, hx⟩
  obtain ⟨rfl, rfl⟩ := Live.of_commit hlive hx
  apply hok
  rw [World.payments_commit, Table.rows_commit, hw₁.written, h]
  rfl

/-- The transaction is undone. -/
theorem wp_rollback_creating {ok : Unit → World → Prop}
    (hok : ∀ w', (∀ key, w.HasKey key → w'.HasKey key) → ok () w') :
    rollback.wp (.executing (Creating mine cfg t)) ok err w := by
  refine wp_ask.mpr ⟨⟨_, _, w, .refl _ _ _, .rolledBack, .rolledBack _⟩, ?_⟩
  rintro r w' ⟨w₁, hw₁, hlive, hx⟩
  obtain ⟨rfl, rfl⟩ := Live.of_rollback hlive hx
  exact hok _ hw₁.hasKey

/-- The session is closed. -/
theorem wp_close_creating {ok : Unit → World → Prop}
    (hok : ∀ w', (∀ key, w.HasKey key → w'.HasKey key) → ok () w') :
    close.wp (.executing (Creating mine cfg t)) ok err w := by
  refine ⟨⟨_, _, w, .refl _ _ _, .other rfl _, .closed _⟩, ?_⟩
  rintro r w' ⟨w₁, hw₁, -, hx⟩
  cases hx with
  | closed => exact hok _ hw₁.hasKey

/-- What exists already is returned, or there is a conflict. -/
theorem wp_replay {p : Payment} {f : Str} {ok : CreatePaymentResult → World → Prop}
    (hok : ∀ result, ok result w) (herr : err (.idempotencyConflict key) w) :
    (Action.ofExcept (replay p f key)).wp (.executing (Creating mine cfg t)) ok err w := by
  unfold replay
  split
  · exact herr
  · exact hok _

variable {R : Runtime} {request : CreatePaymentRequest}

/-- A payment with the key exists: the request ends with it, or with a conflict. -/
theorem create_wp_of_hasKey {c : CreatePaymentCommand} {f : Str} (hf : c.fingerprint R = .ok f)
    (htext : Text c.idempotencyKey) (h : w.HasKey c.idempotencyKey) :
    (create R c).wp (.executing (Creating mine cfg t)) (fun _ w' => w'.HasKey c.idempotencyKey)
      (fun e w' => e = .idempotencyConflict c.idempotencyKey ∧ w'.HasKey c.idempotencyKey) w := by
  rw [create, hf]
  simp only [Except.mapError, Action.wp_bind, Action.wp_ofExcept_ok]
  apply wp_select_of_hasKey htext h
  intro p w₁ hw₁
  exact wp_replay (fun _ => hw₁) ⟨rfl, hw₁⟩

/-- A payment that fits is created, unless the key is taken by then. -/
theorem create_wp_of_storable (hv : request.validate = .ok request) {key : Str}
    (hkey : Varchar 255 key) {f : Str} (hf : (request.command key).fingerprint R = .ok f)
    (hlen : Varchar 64 f) (hst : request.Storable) (hmine : mine.Nonempty)
    (hun : ∀ id ∈ mine, Unused t id w) :
    (create R (request.command key)).wp (.executing (Creating mine cfg t)) (fun _ w' => w'.HasKey key)
      (fun e w' => e = .idempotencyConflict key ∧ w'.HasKey key) w := by
  rw [create, hf]
  simp only [Except.mapError, Action.wp_bind, Action.wp_ofExcept_ok]
  apply wp_select_creating hkey.1
  · intro p w₁ hw₁
    exact wp_replay (fun _ => hw₁) ⟨rfl, hw₁⟩
  intro w₁ hw₁ _
  simp only [Action.wp_bind, Action.wp_tryCatch]
  apply wp_uuid4_creating hmine
  intro id hid w₂ hw₂
  apply wp_now_creating
  intro createdAt w₃ hw₃
  apply wp_uuid4_creating hmine
  intro messageId hmessage w₄ hw₄
  have hw := ((hw₁.trans hw₂).trans hw₃).trans hw₄
  apply wp_insert_creating ⟨(newPayment_fits_iff hv hkey hlen id).mpr hst,
    newOutboxMessage_fits messageId id createdAt⟩ hid hmessage
    fun id hid => hw.unused id hid (hun id hid)
  · intro τ w₅ hw₅
    apply wp_commit_creating hw₅
    intro w₆ hw₆
    exact ⟨id, _, hw₆, rfl⟩
  · intro e w₅ he hw₅
    unfold recover
    simp only [Action.wp_bind, he, ↓reduceIte]
    apply wp_rollback_creating
    intro w₆ hw₆
    apply wp_select_of_hasKey hkey.1 (hw₆ _ hw₅)
    intro p w₇ hw₇
    exact wp_replay (fun _ => hw₇) ⟨rfl, hw₇⟩

/-- The session of a request is ended, and payments stay. -/
theorem withDbSession_wp {α : Type} {x : Act α} {key : Str}
    (h : x.wp (.executing (Creating mine cfg t)) (fun _ w' => w'.HasKey key)
      (fun e w' => e = .idempotencyConflict key ∧ w'.HasKey key) w) :
    (withDbSession x).wp (.executing (Creating mine cfg t)) (fun _ w' => w'.HasKey key)
      (fun e w' => e = .idempotencyConflict key ∧ w'.HasKey key) w := by
  unfold withDbSession
  rw [Action.wp_within, Action.wp_tryCatch]
  refine Action.wp_mono h ?_ ?_
  · intro _ w₁ hw₁
    apply wp_close_creating
    intro w₂ hw₂
    exact hw₂ _ hw₁
  · rintro e w₁ ⟨rfl, hw₁⟩
    rw [Action.wp_bind]
    apply wp_rollback_creating
    intro w₂ hw₂
    apply wp_close_creating
    intro w₃ hw₃
    exact ⟨rfl, hw₃ _ (hw₂ _ hw₁)⟩

/-! ### Requests that cannot be stored -/

/-- The request ends with an exception that is not a conflict, and nothing is stored. -/
def Refused (key : Str) (w : World) (e : Exn) (w' : World) : Prop :=
  e ≠ .idempotencyConflict key ∧ w'.payments.rows = w.payments.rows

/-- An exception of a request is raised by its session, too. -/
theorem withDbSession_refused {α : Type} {x : Act α} {key : Str}
    (h : x.wp (.possible (Creating mine cfg t)) (fun _ _ => False) (Refused key w) w) :
    (withDbSession x).wp (.possible (Creating mine cfg t)) (fun _ _ => False) (Refused key w) w := by
  unfold withDbSession
  rw [Action.wp_within, Action.wp_tryCatch]
  refine Action.wp_mono h ?_ ?_
  · intro _ _ hfalse
    exact hfalse.elim
  · rintro e w₁ ⟨he, hrows⟩
    rw [Action.wp_bind]
    refine wp_ask_ok ⟨_, _, ⟨w₁, .refl _ _ _, .rolledBack, .rolledBack _⟩, _, rfl, ?_⟩
    refine ⟨_, _, ⟨_, .refl _ _ _, .other rfl _, .closed _⟩, ?_⟩
    exact ⟨he, hrows⟩

/-- A request without a fingerprint is refused. -/
theorem create_refused_of_fingerprint {c : CreatePaymentCommand} {e : FingerprintError}
    (hf : c.fingerprint R = .error e) (key : Str) :
    (create R c).wp (.possible (Creating mine cfg t)) (fun _ _ => False) (Refused key w) w := by
  rw [create, hf]
  refine ⟨?_, rfl⟩
  cases e <;> simp [FingerprintError.toExn]

/-- A request that does not fit is refused, if it is new. -/
theorem create_refused_of_not_fits {c : CreatePaymentCommand} {f : Str}
    (hf : c.fingerprint R = .ok f) (htext : Text c.idempotencyKey)
    (hnew : ¬w.HasKey c.idempotencyKey) (hfits : ∀ id, ¬(newPayment c f id).Fits)
    (hmine : mine.Nonempty) :
    (create R c).wp (.possible (Creating mine cfg t)) (fun _ _ => False) (Refused c.idempotencyKey w)
      w := by
  obtain ⟨id, hid⟩ := hmine
  rw [create, hf]
  simp only [Except.mapError, Action.wp_bind, Action.wp_ofExcept_ok]
  refine wp_ask_ok ⟨_, _, ⟨w, .refl _ _ _, .selected htext _, .notFound fun id p hrow hkey =>
    hnew ⟨id, p, hrow, hkey⟩⟩, _, rfl, ?_⟩
  simp only [Action.wp_bind, Action.wp_tryCatch]
  refine ⟨_, _, ⟨w, .refl _ _ _, hid, .uuid4 _ _⟩, ?_⟩
  refine (Action.wp_lift Op.now).mpr ⟨_, _, ⟨w, .refl _ _ _, .other rfl _, .now _⟩, ?_⟩
  refine ⟨_, _, ⟨_, .refl _ _ _, hid, .uuid4 _ _⟩, ?_⟩
  refine wp_ask_error ⟨_, _, ⟨_, .refl _ _ _, .insertRefused (fun h => hfits _ h.1)
    ⟨[], [], false, false⟩, .insertFailed _ _ _ _⟩, _, rfl, ?_⟩
  exact ⟨fun h => (by cases h), rfl⟩

end Creating

/-! ## Validation and storage -/

section Main

variable {mine : Set UUID} {cfg : Settings} {t : ℕ} {w : World} {R : Runtime}

/-- A request ends with a payment or with a conflict, in every execution. -/
def CreationEnds (R : Runtime) (mine : Set UUID) (cfg : Settings) (t : ℕ)
    (c : CreatePaymentCommand) (w : World) : Prop :=
  (createPayment R c).wp (.executing (Creating mine cfg t)) (fun _ w' => w'.HasKey c.idempotencyKey)
    (fun e w' => e = .idempotencyConflict c.idempotencyKey ∧ w'.HasKey c.idempotencyKey) w

/-- A request that can be refused does not always end so. -/
theorem not_creationEnds {c : CreatePaymentCommand}
    (h : (createPayment R c).wp (.possible (Creating mine cfg t)) (fun _ _ => False)
      (Refused c.idempotencyKey w) w) : ¬CreationEnds R mine cfg t c w := by
  intro hends
  obtain ⟨out, w', hex, hpost⟩ := Prog.exists_executes_of_possible h
  have hends := hex.of_wp hends
  cases out with
  | ok result => exact hpost
  | error e => exact hpost.1 hends.1

/-- **What is accepted can be stored**, if and only if nothing in it is left out by UTF-8, and,
unless the key exists already, by the columns: a valid request with a valid key ends with a payment
or with a conflict, whatever other transactions do. -/
theorem create_ends_iff (R : Runtime) (hsha : ∀ bytes, Varchar 64 (R.sha256 bytes)) (cfg : Settings)
    (request : CreatePaymentRequest) (hv : request.validate = .ok request) (header : HeaderValue)
    (key : Str) (hkey : getIdempotencyKey (some header.1) = .ok key) (mine : Set UUID)
    (hmine : mine.Nonempty) (t : ℕ) (w : World) (hun : ∀ id ∈ mine, Unused t id w) :
    CreationEnds R mine cfg t (request.command key) w ↔
      (Json.obj request.metadata.1).Encodable ∧
        (w.HasKey key ∨ 0 ∉ request.description ∧ Jsonb FiniteToken (.obj request.metadata.1)) := by
  have hfits := varchar_of_getIdempotencyKey hkey
  constructor
  · intro hends
    rcases hf : (request.command key).fingerprint R with e | f
    · exact absurd hends
        (not_creationEnds (withDbSession_refused (create_refused_of_fingerprint hf key)))
    · refine ⟨(exists_fingerprint_iff hv key).mp ⟨f, hf⟩, ?_⟩
      obtain ⟨bytes, rfl⟩ := exists_sha256_of_fingerprint hf
      by_contra hnot
      obtain ⟨hnew, hst⟩ := not_or.mp hnot
      have hno : ∀ id, ¬(newPayment (request.command key) (R.sha256 bytes) id).Fits := fun id h =>
        hst ((newPayment_fits_iff hv hfits (hsha bytes) id).mp h)
      exact not_creationEnds (withDbSession_refused
        (create_refused_of_not_fits hf hfits.1 hnew hno hmine)) hends
  · rintro ⟨hmetadata, hcases⟩
    obtain ⟨f, hf⟩ := (exists_fingerprint_iff (R := R) hv key).mpr hmetadata
    apply withDbSession_wp
    rcases hcases with hold | hst
    · exact create_wp_of_hasKey hf hfits.1 hold
    · obtain ⟨bytes, rfl⟩ := exists_sha256_of_fingerprint hf
      exact create_wp_of_storable hv hfits hf (hsha bytes) hst hmine hun

end Main

/-! ### One request that is stored, and one that is not -/

/-- A runtime that hashes one text. -/
def hashing (digest : String) : Runtime :=
  { Runtime.transparent with sha256 := fun _ => Str.ofString digest }

/-- One and a half roubles. -/
def plainRequest (description : Str) : CreatePaymentRequest where
  amount := ⟨false, 15, -1⟩
  currency := .rub
  description := description
  metadata := ⟨[], Json.wellFormed_empty⟩
  webhookUrl := none

theorem validate_plainRequest {s : Str} (hvalid : s.Valid) (hshort : 1 ≤ s.length)
    (hlong : s.length ≤ 1024) : (plainRequest s).validate = .ok (plainRequest s) := by
  have hamount : Cents (plainRequest s).amount 150 := by
    refine ⟨by norm_num, by norm_num, ?_⟩
    norm_num [plainRequest, Decimal.value]
  exact CreatePaymentRequest.validate_eq_ok_iff.mpr
    ⟨⟨_, validateAmount_eq_ok_iff.mpr ⟨rfl, 150, hamount⟩⟩, hvalid, hshort, hlong, Nat.zero_le _⟩

theorem headerValue_ofString {s : String} (h : ∀ c ∈ s.toList, 0 < c.val.toNat ∧ c.val.toNat ≤ 0xFF) :
    ∀ p ∈ Str.ofString s, 0 < p ∧ p ≤ 0xFF := by
  intro p hp
  obtain ⟨c, hc, rfl⟩ := List.mem_map.mp hp
  exact h c hc

/-- The header of the request. -/
def orderHeader : HeaderValue := ⟨Str.ofString "order-1", headerValue_ofString (by simp)⟩

theorem getIdempotencyKey_orderHeader :
    getIdempotencyKey (some orderHeader.1) = .ok (Str.ofString "order-1") :=
  getIdempotencyKey_eq_ok_iff.mpr ⟨rfl, by decide, by decide⟩

theorem unused_initial (id : UUID) : Unused 0 id (World.initial 0) :=
  ⟨rfl, rfl, fun _ _ => rfl, fun _ _ => rfl⟩

/-- The hash of the body with the description `book`. -/
def bookDigest : String := "cb618e68f9e60483048bcb3d59a0534d144e6777699964518c402d48d99eedf3"

/-- The hash of the body with the description NUL. -/
def nulDigest : String := "2577eda38cb3024071693ff883c9b5393b83061e08a5e5589d8fb9b3204282fd"

/-- A request for a book is stored. -/
theorem create_ends_book : CreationEnds (hashing bookDigest) Set.univ default 0
    ((plainRequest (Str.ofString "book")).command (Str.ofString "order-1")) (World.initial 0) := by
  have hdigest : Varchar 64 (Str.ofString bookDigest) :=
    ⟨text_ofString (by simp [bookDigest]), by decide⟩
  apply (create_ends_iff (hashing bookDigest) (fun _ => hdigest) default
    (plainRequest (Str.ofString "book"))
    (validate_plainRequest (Str.valid_ofString _) (by decide) (by decide)) orderHeader _
    getIdempotencyKey_orderHeader Set.univ ⟨0, trivial⟩ 0 (World.initial 0)
    fun id _ => unused_initial id).mpr
  refine ⟨trivial, .inr ⟨?_, trivial⟩⟩
  exact (text_ofString (s := "book") (by simp)).2

/-- A request with the description NUL is valid, and it is refused whenever it is made. -/
theorem create_refused_nul :
    (plainRequest [0]).validate = .ok (plainRequest [0]) ∧
    getIdempotencyKey (some orderHeader.1) = .ok (Str.ofString "order-1") ∧
    (createPayment (hashing nulDigest) ((plainRequest [0]).command (Str.ofString "order-1"))).wp
      (.possible (Creating Set.univ default 0)) (fun _ _ => False)
      (Refused (Str.ofString "order-1") (World.initial 0)) (World.initial 0) ∧
    ¬CreationEnds (hashing nulDigest) Set.univ default 0
      ((plainRequest [0]).command (Str.ofString "order-1")) (World.initial 0) := by
  have hv : (plainRequest [0]).validate = .ok (plainRequest [0]) := by
    refine validate_plainRequest (fun p hp => ?_) (by decide) (by decide)
    obtain rfl := List.mem_singleton.mp hp
    rfl
  have hkey := varchar_of_getIdempotencyKey getIdempotencyKey_orderHeader
  obtain ⟨f, hf⟩ :=
    (exists_fingerprint_iff (R := hashing nulDigest) hv (Str.ofString "order-1")).mpr trivial
  have hrefused : (createPayment (hashing nulDigest)
      ((plainRequest [0]).command (Str.ofString "order-1"))).wp
      (.possible (Creating Set.univ default 0)) (fun _ _ => False)
      (Refused (Str.ofString "order-1") (World.initial 0)) (World.initial 0) := by
    apply withDbSession_refused
    apply create_refused_of_not_fits hf hkey.1
    · rintro ⟨id, p, hrow, -⟩
      exact nomatch hrow
    · intro id hfits
      exact hfits.description.1.2 (.head _)
    · exact ⟨0, trivial⟩
  exact ⟨hv, getIdempotencyKey_orderHeader, hrefused, not_creationEnds hrefused⟩

end Payments
