import PaymentProcessing.Api.Body
import PaymentProcessing.Properties.Acceptance
import PaymentProcessing.Properties.Storage
import PaymentProcessing.System.Progress

/-!
# The notation of numbers

The fingerprint is meant to be independent of the order of keys and of how numbers are written. It
is independent of the order of keys, but `json.loads` reads `1` as an `int` and `1.0` as a `float`,
which `json.dumps` writes in two ways. `fingerprint_notation_iff` says when two texts of a body have
one fingerprint all the same, so that the second replays the first: when every number of the
metadata has one type in both texts, and the amount has one type or loses nothing on its way through
a `float`.
-/

namespace Payments

open Effects Python Store

/-! ## Amounts -/

/-- The amount is read as the number that is written. -/
def ExactAmount (n : Numeral) : Prop := ∃ d, numeralAmount n = some d ∧ d.value = n.value

theorem numeralAmount_of_isInteger {n : Numeral} (h : n.isInteger = true) :
    numeralAmount n = some (.ofInt n.toInt) := if_pos h

/-- An integer is read as it is written. -/
theorem value_of_numeralAmount {n : Numeral} (hint : n.isInteger = true) {d : Decimal}
    (h : numeralAmount n = some d) : d.value = n.value := by
  rw [numeralAmount_of_isInteger hint] at h
  rw [← Option.some.inj h, Decimal.value_ofInt, Numeral.value_of_isInteger hint]

theorem numeralAmount_of_not_isInteger {n : Numeral} (h : n.isInteger = false) :
    numeralAmount n = n.toFloat.decimal := if_neg (by simp [h])

/-- A positive amount has no sign. -/
theorem negative_of_numeralAmount {n : Numeral} (hint : n.isInteger = false) {d : Decimal}
    (h : numeralAmount n = some d) (h0 : 0 < d.value) : n.negative = false := by
  rw [numeralAmount_of_not_isInteger hint] at h
  have hsign := Double.sign_of_decimal h
  rw [Decimal.sign_of_value_pos h0] at hsign
  simpa [Numeral.toFloat] using hsign.symm

section Amounts

variable {n n' : Numeral} {d d' : Decimal}

/-- Two notations of one type are read as one number. -/
theorem amount_eq_of_isInteger_eq (hv : n.value = n'.value) (h : numeralAmount n = some d)
    (h' : numeralAmount n' = some d') (h0 : 0 < d.value) (h0' : 0 < d'.value)
    (htype : n.isInteger = n'.isInteger) : d.value = d'.value := by
  cases hint : n.isInteger with
  | true =>
    rw [value_of_numeralAmount hint h, value_of_numeralAmount (htype ▸ hint) h', hv]
  | false =>
    have hint' : n'.isInteger = false := htype ▸ hint
    have hsign : n.negative = n'.negative := by
      rw [negative_of_numeralAmount hint h h0, negative_of_numeralAmount hint' h' h0']
    rw [numeralAmount_of_not_isInteger hint, Numeral.toFloat_eq hv hsign,
      ← numeralAmount_of_not_isInteger hint', h'] at h
    rw [Option.some.inj h]

/-- **When two notations of an amount are read as one number.** -/
theorem amount_eq_iff (hv : n.value = n'.value) (h : numeralAmount n = some d)
    (h' : numeralAmount n' = some d') (h0 : 0 < d.value) (h0' : 0 < d'.value) :
    d.value = d'.value ↔ n.isInteger = n'.isInteger ∨ (ExactAmount n ∧ ExactAmount n') := by
  constructor
  · intro heq
    cases hint : n.isInteger with
    | true =>
      have hd := value_of_numeralAmount hint h
      exact .inr ⟨⟨d, h, hd⟩, d', h', by rw [← heq, hd, hv]⟩
    | false =>
      cases hint' : n'.isInteger with
      | true =>
        have hd' := value_of_numeralAmount hint' h'
        exact .inr ⟨⟨d, h, by rw [heq, hd', hv]⟩, d', h', hd'⟩
      | false => exact .inl rfl
  · rintro (htype | ⟨⟨e, he, hev⟩, e', he', hev'⟩)
    · exact amount_eq_of_isInteger_eq hv h h' h0 h0' htype
    · obtain rfl := Option.some.inj (h.symm.trans he)
      obtain rfl := Option.some.inj (h'.symm.trans he')
      rw [hev, hev', hv]

end Amounts

/-! ## Bodies -/

section Bodies

variable {P : FieldParsers} {body body' : Json Literal} {request request' : CreatePaymentRequest}
  {R : Literal → Literal → Prop}

/-- A member is found in both texts. -/
theorem member_sameUpTo (hw : body.WellFormed) (h : body.SameUpTo R body') {name : String}
    {x : Json Literal} (hx : member body name = some x) :
    ∃ y, member body' name = some y ∧ x.SameUpTo R y := by
  cases body with
  | obj kvs =>
    have hall := h
    obtain ⟨kvs', rfl, -⟩ := h
    exact hall.lookup hw.1 hx
  | _ => exact nomatch hx

/-- A member is missing in both texts. -/
theorem member_sameUpTo_none (h : body.SameUpTo R body') (hobj : ∃ kvs, body = .obj kvs)
    {name : String} (hx : member body name = none) : member body' name = none := by
  obtain ⟨kvs, rfl⟩ := hobj
  have hall := h
  obtain ⟨kvs', rfl, -⟩ := h
  exact hall.lookup_none hx

/-- A member that is read in both texts, in the same way if it is a string. -/
theorem eq_of_reads_str {α : Type} (read : Json Literal → Option α)
    (hread : ∀ x a, read x = some a → ∃ s, x = .str s) (hw : body.WellFormed)
    (h : body.SameUpTo R body') {name : String} {a a' : α}
    (ha : (member body name).bind read = some a) (ha' : (member body' name).bind read = some a') :
    a = a' := by
  obtain ⟨x, hx, ha⟩ := Option.bind_eq_some_iff.mp ha
  obtain ⟨x', hx', ha'⟩ := Option.bind_eq_some_iff.mp ha'
  obtain ⟨y, hy, hxy⟩ := member_sameUpTo hw h hx
  obtain rfl := Option.some.inj (hx'.symm.trans hy)
  obtain ⟨s, rfl⟩ := hread x a ha
  obtain rfl := hxy
  exact Option.some.inj (ha.symm.trans ha')

/-- The URL is read in both texts in the same way. -/
theorem eq_of_reads_url (hobj : ∃ kvs, body = .obj kvs) (hw : body.WellFormed)
    (h : body.SameUpTo R body') {name : String} {u u' : Option HttpUrl}
    (hu : readWebhookUrl P (member body name) = some u)
    (hu' : readWebhookUrl P (member body' name) = some u') : u = u' := by
  cases hx : member body name with
  | none =>
    rw [hx] at hu
    rw [member_sameUpTo_none h hobj hx] at hu'
    exact Option.some.inj (hu.symm.trans hu')
  | some x =>
    obtain ⟨y, hy, hxy⟩ := member_sameUpTo hw h hx
    rw [hx] at hu
    rw [hy] at hu'
    cases x with
    | null =>
      obtain rfl := hxy
      exact Option.some.inj (hu.symm.trans hu')
    | str s =>
      obtain rfl := hxy
      exact Option.some.inj (hu.symm.trans hu')
    | _ => exact nomatch hu

/-- The amount has one type in both texts, or it is read exactly in both. -/
def AmountAlike (body body' : Json Literal) : Prop :=
  ∀ n n', member body "amount" = some (.atom (.numeral n)) →
    member body' "amount" = some (.atom (.numeral n')) →
    n.isInteger = n'.isInteger ∨ (ExactAmount n ∧ ExactAmount n')

/-- Every number of the metadata has one type in both texts. -/
def MetadataAlike (body body' : Json Literal) : Prop :=
  ∀ x x', member body "metadata" = some x → member body' "metadata" = some x' →
    x.SameUpTo Literal.SameType x'

/-- **When the amounts of two texts are read as one number.** -/
theorem amount_eq_iff_alike (hw : body.WellFormed) (h : body.SameUpTo Literal.SameNumber body')
    (hr : Reads P body request) (hr' : Reads P body' request') (h0 : 0 < request.amount.value)
    (h0' : 0 < request'.amount.value) :
    request.amount.value = request'.amount.value ↔ AmountAlike body body' := by
  obtain ⟨x, hx, ha⟩ := Option.bind_eq_some_iff.mp hr.amount
  obtain ⟨x', hx', ha'⟩ := Option.bind_eq_some_iff.mp hr'.amount
  obtain ⟨y, hy, hxy⟩ := member_sameUpTo hw h hx
  obtain rfl := Option.some.inj (hx'.symm.trans hy)
  have hsame : x = x' → (∀ n, x ≠ .atom (.numeral n)) →
      (request.amount.value = request'.amount.value ↔ AmountAlike body body') := by
    rintro rfl hno
    refine ⟨fun _ n _ hn => absurd (Option.some.inj (hx.symm.trans hn)) (hno n), fun _ => ?_⟩
    rw [Option.some.inj (ha.symm.trans ha')]
  cases x with
  | int n => exact hsame hxy (by simp)
  | str s => exact hsame hxy (by simp)
  | atom l =>
    obtain ⟨l', rfl, hnumber⟩ := hxy
    cases l with
    | numeral n =>
      cases l' with
      | numeral n' =>
        have hiff := amount_eq_iff hnumber ha ha' h0 h0'
        constructor
        · intro heq m m' hm hm'
          obtain rfl := Literal.numeral.inj (Json.atom.inj (Option.some.inj (hx.symm.trans hm)))
          obtain rfl := Literal.numeral.inj (Json.atom.inj (Option.some.inj (hx'.symm.trans hm')))
          exact hiff.mp heq
        · intro halike
          exact hiff.mpr (halike n n' hx hx')
      | constant d hd => exact nomatch hnumber
    | constant d hd => exact nomatch ha
  | _ => exact nomatch ha

/-- **When the metadata of two texts are read as the same value.** -/
theorem metadata_same_iff_alike (hobj : ∃ kvs, body = .obj kvs) (hw : body.WellFormed)
    (hw' : body'.WellFormed) (h : body.SameUpTo Literal.SameNumber body') (hr : Reads P body request)
    (hr' : Reads P body' request') :
    (Json.obj request.metadata.1).Same (.obj request'.metadata.1) ↔ MetadataAlike body body' := by
  rcases hr.metadata with ⟨hnone, hempty⟩ | ⟨kvs, hx, hkvs⟩
  · have hnone' := member_sameUpTo_none h hobj hnone
    have hempty' : request'.metadata.1 = [] := by
      rcases hr'.metadata with ⟨-, hempty'⟩ | ⟨kvs, hsome, -⟩
      · exact hempty'
      · exact nomatch hnone'.symm.trans hsome
    rw [hempty, hempty']
    exact ⟨fun _ x x' hx => (nomatch hnone.symm.trans hx), fun _ => ⟨[], rfl, .nil, trivial⟩⟩
  · obtain ⟨y, hy, hxy⟩ := member_sameUpTo hw h hx
    rcases hr'.metadata with ⟨hnone', -⟩ | ⟨kvs', hx', hkvs'⟩
    · exact nomatch hnone'.symm.trans hy
    · obtain rfl := Option.some.inj (hx'.symm.trans hy)
      rw [hkvs, hkvs', Json.same_loads_iff hxy (wellFormed_member hw' _ hx')]
      constructor
      · intro hsame x x' hm hm'
        obtain rfl := Option.some.inj (hx.symm.trans hm)
        obtain rfl := Option.some.inj (hx'.symm.trans hm')
        exact hsame
      · intro halike
        exact halike _ _ hx hx'

end Bodies

/-! ## Replays -/

/-- A payment with the key is committed, and there is none with another fingerprint. -/
structure World.AcceptedUnder (w : World) (key f : Str) : Prop where
  hasKey : w.HasKey key
  only : ∀ id p, w.payments.rows id = some p → p.idempotencyKey = key → p.requestFingerprint = f

/-- What other transactions may do: an accepted request stays accepted under its key. -/
def Keeps (w w' : World) : Prop := ∀ key f, w.AcceptedUnder key f → w'.AcceptedUnder key f

/-- **The service does no more than that**, in every step. -/
theorem Keeps.of_step {R : Runtime} {cfg : Settings} {v v' : View R cfg}
    (h : (serviceSpec R cfg).Reachable v) (hs : (serviceSpec R cfg).Step v v') :
    Keeps v.world v'.world := by
  rintro key f ⟨⟨id, p, hrow, hkey⟩, honly⟩
  obtain ⟨p', hrow', hl⟩ := step_payments h hs hrow
  have hkey' : p'.idempotencyKey = key := hl.request.idempotencyKey.trans hkey
  refine ⟨⟨id, p', hrow', hkey'⟩, fun id' q hq hqkey => ?_⟩
  -- Keys are unique, so `q` is the payment that was there before.
  obtain rfl := visible_key (h.step hs) (.inl hrow') (.inl hq) (hkey'.trans hqkey.symm)
  obtain rfl := Option.some.inj (hrow'.symm.trans hq)
  rw [hl.request.requestFingerprint]
  exact honly id p hrow hkey

/-- How a repeated request is executed. -/
abbrev Repeating (cfg : Settings) (t : ℕ) : (o : Op) → Res o → World → World → Prop :=
  Amid Keeps Live cfg t

section Replay

variable {R : Runtime} {cfg : Settings} {t : ℕ} {w : World} {c : CreatePaymentCommand} {f f' : Str}

/-- The accepted payment is found. -/
theorem wp_select_repeating {key : Str} (htext : Text key) (hw : w.AcceptedUnder key f)
    {ok : Option Payment → World → Prop} {err : Exn → World → Prop}
    (hok : ∀ p w', p.requestFingerprint = f → ok (some p) w') :
    (selectByIdempotencyKey key).wp (.executing (Repeating cfg t)) ok err w := by
  obtain ⟨r, hlive, hx⟩ := exists_select htext w
  refine wp_ask.mpr ⟨⟨r, w, w, fun _ _ => id, hlive, hx⟩, ?_⟩
  rintro r w' ⟨w₁, hw₁, hlive, hx⟩
  obtain ⟨hhas, honly⟩ := hw₁ _ _ hw
  obtain ⟨rfl, ⟨p, rfl, hrow, hkey⟩ | ⟨rfl, hnokey⟩⟩ := Live.of_select htext hlive hx
  · exact hok p _ (honly _ p hrow hkey)
  · exact absurd hhas hnokey

/-- The transaction is undone. -/
theorem wp_rollback_repeating {ok : Unit → World → Prop} {err : Exn → World → Prop}
    (hok : ∀ w', ok () w') : rollback.wp (.executing (Repeating cfg t)) ok err w := by
  refine wp_ask.mpr ⟨⟨_, _, w, fun _ _ => id, .rolledBack, .rolledBack _⟩, ?_⟩
  rintro r w' ⟨w₁, -, hlive, hx⟩
  obtain ⟨rfl, -⟩ := Live.of_rollback hlive hx
  exact hok w'

/-- The session is closed. -/
theorem wp_close_repeating {ok : Unit → World → Prop} {err : Exn → World → Prop}
    (hok : ∀ w', ok () w') : close.wp (.executing (Repeating cfg t)) ok err w := by
  refine ⟨⟨_, _, w, fun _ _ => id, .other rfl _, .closed _⟩, ?_⟩
  rintro _ w' -
  exact hok w'

/-- **A repeated request** replays the accepted one or is in conflict with it, as the fingerprints
say. -/
theorem createPayment_repeating (htext : Text c.idempotencyKey)
    (hw : w.AcceptedUnder c.idempotencyKey f) (hf : c.fingerprint R = .ok f') :
    (createPayment R c).wp (.executing (Repeating cfg t))
      (fun result _ => result.replayed = true ∧ f = f')
      (fun e _ => e = .idempotencyConflict c.idempotencyKey ∧ f ≠ f') w := by
  rw [createPayment, withDbSession, Action.wp_within, Action.wp_tryCatch, create, hf]
  simp only [Except.mapError, Action.wp_bind, Action.wp_ofExcept_ok]
  apply wp_select_repeating htext hw
  rintro p w₁ rfl
  dsimp only
  unfold replay
  split
  · rename_i hne
    apply wp_rollback_repeating
    intro w₂
    apply wp_close_repeating
    intro w₃
    exact ⟨rfl, hne⟩
  · rename_i heq
    apply wp_close_repeating
    intro w₂
    exact ⟨rfl, not_not.mp heq⟩

end Replay

/-! ## Notation and fingerprints -/

section Main

variable {R : Runtime} {P : FieldParsers} {body body' : Json Literal}
  {request request' : CreatePaymentRequest}

/-- Two valid requests have one fingerprint if they are the same and can be encoded. -/
theorem fingerprints_eq_iff (hsha : Function.Injective R.sha256) (hv : request.validate = .ok request)
    (hv' : request'.validate = .ok request') (key : Str) :
    (∃ f, (request.command key).fingerprint R = .ok f ∧
      (request'.command key).fingerprint R = .ok f) ↔
      (Json.obj request.metadata.1).Encodable ∧
        (request.command key).SameBody (request'.command key) := by
  constructor
  · rintro ⟨f, hf, hf'⟩
    have henc := (exists_fingerprint_iff hv key).mp ⟨f, hf⟩
    have henc' := (exists_fingerprint_iff hv' key).mp ⟨f, hf'⟩
    obtain ⟨s, s', hs, hs', hiff⟩ :=
      (validated_command hv henc key).exists_fingerprints hsha (validated_command hv' henc' key)
    obtain rfl := Except.ok.inj (hs.symm.trans hf)
    obtain rfl := Except.ok.inj (hs'.symm.trans hf')
    exact ⟨henc, hiff.mp rfl⟩
  · rintro ⟨henc, hsame⟩
    have henc' := hsame.metadata.encodable request.metadata.2 request'.metadata.2 henc
    obtain ⟨s, s', hs, hs', hiff⟩ :=
      (validated_command hv henc key).exists_fingerprints hsha (validated_command hv' henc' key)
    obtain rfl := hiff.mpr hsame
    exact ⟨s, hs, hs'⟩

theorem amount_pos (hv : request.validate = .ok request) : 0 < request.amount.value := by
  obtain ⟨k, hk⟩ := exists_cents hv
  exact hk.pos

/-- **When two texts that differ in notation are the same request.** -/
theorem sameBody_iff_alike (hw : body.WellFormed) (hw' : body'.WellFormed)
    (h : body.SameUpTo Literal.SameNumber body') (hread : readRequest P body hw = some request)
    (hread' : readRequest P body' hw' = some request') (hv : request.validate = .ok request)
    (hv' : request'.validate = .ok request') (key : Str) :
    (request.command key).SameBody (request'.command key) ↔
      AmountAlike body body' ∧ MetadataAlike body body' := by
  obtain ⟨hobj, hr⟩ := reads_of_readRequest hread
  obtain ⟨-, hr'⟩ := reads_of_readRequest hread'
  have hamount := amount_eq_iff_alike hw h hr hr' (amount_pos hv) (amount_pos hv')
  have hmetadata := metadata_same_iff_alike hobj hw hw' h hr hr'
  have hcurrency : request.currency = request'.currency := by
    refine eq_of_reads_str readCurrency ?_ hw h hr.currency hr'.currency
    intro x c hx
    cases x with
    | str s => exact ⟨s, rfl⟩
    | _ => exact nomatch hx
  have hdescription : request.description = request'.description := by
    refine eq_of_reads_str readDescription ?_ hw h hr.description hr'.description
    intro x s hx
    cases x with
    | str s => exact ⟨s, rfl⟩
    | _ => exact nomatch hx
  have hurl := eq_of_reads_url hobj hw h hr.webhookUrl hr'.webhookUrl
  constructor
  · intro hsame
    exact ⟨hamount.mp hsame.amount, hmetadata.mp hsame.metadata⟩
  · rintro ⟨ha, hm⟩
    exact ⟨hamount.mpr ha, hcurrency, hdescription, hmetadata.mpr hm,
      congrArg (Option.map Subtype.val) hurl⟩

/-- **The notation of numbers and the fingerprint.** Of two accepted texts of a body that differ in
the order of keys and in the notation of numbers, the fingerprints are the same, and the second
replays the first wherever that has been accepted, if and only if they exist and the numbers are
read alike. -/
theorem fingerprint_notation_iff (R : Runtime) (hsha : Function.Injective R.sha256) (cfg : Settings)
    (P : FieldParsers) (body body' : Json Literal) (hw : body.WellFormed) (hw' : body'.WellFormed)
    (h : body.SameUpTo Literal.SameNumber body') (request request' : CreatePaymentRequest)
    (hread : readRequest P body hw = some request) (hread' : readRequest P body' hw' = some request')
    (hv : request.validate = .ok request) (hv' : request'.validate = .ok request')
    (header : HeaderValue) (key : Str) (hkey : getIdempotencyKey (some header.1) = .ok key) :
    (∃ f, (request.command key).fingerprint R = .ok f ∧
        (request'.command key).fingerprint R = .ok f ∧
        ∀ (t : ℕ) (w : World), w.AcceptedUnder key f →
          (createPayment R (request'.command key)).wp (.executing (Amid Keeps Live cfg t))
            (fun result _ => result.replayed = true) (fun _ _ => False) w) ↔
      (Json.obj request.metadata.1).Encodable ∧ AmountAlike body body' ∧
        MetadataAlike body body' := by
  have htext := (varchar_of_getIdempotencyKey hkey).1
  rw [← sameBody_iff_alike hw hw' h hread hread' hv hv' key, ← fingerprints_eq_iff hsha hv hv' key]
  constructor
  · rintro ⟨f, hf, hf', -⟩
    exact ⟨f, hf, hf'⟩
  · rintro ⟨f, hf, hf'⟩
    refine ⟨f, hf, hf', fun t w hacc => ?_⟩
    refine Action.wp_mono (createPayment_repeating htext hacc hf') ?_ ?_
    · rintro result _ ⟨hreplayed, -⟩
      exact hreplayed
    · rintro e _ ⟨-, hne⟩
      exact hne rfl

end Main

/-! ### Two notations that agree, and two that do not -/

/-- `2`. -/
def two : Numeral := ⟨false, 2, none, none, fun _ _ => by decide⟩

/-- The text of a body: two roubles for a book, with a number in the metadata. -/
def bookText (n : Numeral) : Json Literal :=
  .obj [(Str.ofString "amount", .atom (.numeral two)),
    (Str.ofString "currency", .str (Str.ofString "RUB")),
    (Str.ofString "description", .str (Str.ofString "book")),
    (Str.ofString "metadata", .obj [(Str.ofString "a", .atom (.numeral n))])]

/-- The request that is read. -/
def bookRequest (n : Numeral) : CreatePaymentRequest where
  amount := .ofInt 2
  currency := .rub
  description := Str.ofString "book"
  metadata := ⟨[(Str.ofString "a", n.load)], by simp, n.wellFormed_load, trivial⟩
  webhookUrl := none

theorem wellFormed_bookText (n : Numeral) : (bookText n).WellFormed := by
  have hnodup : (["amount", "currency", "description", "metadata"].map Str.ofString).Nodup :=
    List.Nodup.map Str.ofString_injective (by decide)
  exact ⟨hnodup, trivial, trivial, trivial, ⟨by simp, trivial, trivial⟩, trivial⟩

theorem readRequest_bookText (P : FieldParsers) (n : Numeral) :
    readRequest P (bookText n) (wellFormed_bookText n) = some (bookRequest n) := rfl

theorem validate_bookRequest (n : Numeral) : (bookRequest n).validate = .ok (bookRequest n) := by
  have hamount : Cents (bookRequest n).amount 200 := by
    refine ⟨by norm_num, by norm_num, ?_⟩
    norm_num [bookRequest, Decimal.value_ofInt]
  have hshort : 1 ≤ (Str.ofString "book").length := by decide
  have hlong : (Str.ofString "book").length ≤ 1024 := by decide
  exact CreatePaymentRequest.validate_eq_ok_iff.mpr
    ⟨⟨_, validateAmount_eq_ok_iff.mpr ⟨rfl, 200, hamount⟩⟩,
    Str.valid_ofString _, hshort, hlong, by simp [bookRequest]⟩

theorem sameUpTo_bookText {n n' : Numeral} (h : n.value = n'.value) :
    (bookText n).SameUpTo Literal.SameNumber (bookText n') := by
  refine ⟨_, rfl, .refl _, ⟨_, .head _, ⟨_, rfl, ?_⟩⟩, ⟨_, .tail _ (.head _), rfl⟩,
    ⟨_, .tail _ (.tail _ (.head _)), rfl⟩, ⟨_, .tail _ (.tail _ (.tail _ (.head _))), ?_⟩, trivial⟩
  · exact rfl
  · exact ⟨_, rfl, .refl _, ⟨_, .head _, ⟨_, rfl, h⟩⟩, trivial⟩

/-- `1.5`. -/
def oneAndAHalf : Numeral := ⟨false, 1, some [5], none, nofun⟩

/-- `15e-1`. -/
def fifteenTenths : Numeral := ⟨false, 15, none, some (-1), nofun⟩

/-- `1`. -/
def one : Numeral := ⟨false, 1, none, none, fun _ _ => by decide⟩

/-- `1.0`. -/
def onePointZero : Numeral := ⟨false, 1, some [0], none, nofun⟩

/-- No string is converted. -/
def noParsers : FieldParsers := ⟨fun _ => none, fun _ => none⟩

theorem encodable_bookRequest (n : Numeral) : (Json.obj (bookRequest n).metadata.1).Encodable := by
  refine ⟨Str.valid_ofString _, ?_, trivial⟩
  unfold Numeral.load
  split <;> trivial

theorem amountAlike_bookText (n n' : Numeral) : AmountAlike (bookText n) (bookText n') := by
  intro m m' hm hm'
  obtain rfl : two = m := Literal.numeral.inj (Json.atom.inj (Option.some.inj hm))
  obtain rfl : two = m' := Literal.numeral.inj (Json.atom.inj (Option.some.inj hm'))
  exact .inl rfl

theorem metadataAlike_bookText_iff {n n' : Numeral} : MetadataAlike (bookText n) (bookText n') ↔
    (Literal.numeral n).SameType (.numeral n') := by
  constructor
  · intro h
    obtain ⟨_, ⟨⟩, -, ⟨y, hy, _, rfl, hl⟩, -⟩ := h _ _ rfl rfl
    simp at hy
    subst hy
    exact hl
  · intro h x x' hx hx'
    obtain rfl := Option.some.inj hx
    obtain rfl := Option.some.inj hx'
    exact ⟨_, rfl, .refl _, ⟨_, .head _, ⟨_, rfl, h⟩⟩, trivial⟩

/-- The fingerprint does not tell `15e-1` from `1.5`. -/
theorem fingerprint_of_fifteenTenths :
    ∃ f, ((bookRequest oneAndAHalf).command (Str.ofString "order-1")).fingerprint .transparent =
        .ok f ∧
      ((bookRequest fifteenTenths).command (Str.ofString "order-1")).fingerprint .transparent =
        .ok f ∧
      ∀ (t : ℕ) (w : World), w.AcceptedUnder (Str.ofString "order-1") f →
        (createPayment .transparent ((bookRequest fifteenTenths).command (Str.ofString "order-1"))).wp
          (.executing (Amid Keeps Live default t)) (fun result _ => result.replayed = true)
          (fun _ _ => False) w := by
  have hvalue : oneAndAHalf.value = fifteenTenths.value := by
    norm_num [oneAndAHalf, fifteenTenths, Numeral.value, Numeral.magnitude, Numeral.coefficient,
      Numeral.decimals]
  apply (fingerprint_notation_iff .transparent hexText_injective default noParsers
    (bookText oneAndAHalf) (bookText fifteenTenths) (wellFormed_bookText _) (wellFormed_bookText _)
    (sameUpTo_bookText hvalue) _ _ (readRequest_bookText _ _) (readRequest_bookText _ _)
    (validate_bookRequest _) (validate_bookRequest _) orderHeader _ getIdempotencyKey_orderHeader).mpr
  exact ⟨encodable_bookRequest _, amountAlike_bookText _ _,
    metadataAlike_bookText_iff.mpr ⟨rfl, fun _ => rfl⟩⟩

theorem acceptedUnder_accepting {c : CreatePaymentCommand} {f : Str} {clock : Time} {t : ℕ} :
    (World.accepting c f clock t).AcceptedUnder c.idempotencyKey f := by
  refine ⟨⟨0, _, World.rows_accepting.mpr ⟨rfl, rfl⟩, rfl⟩, fun id p hrow _ => ?_⟩
  obtain ⟨-, rfl⟩ := World.rows_accepting.mp hrow
  rfl

/-- The body with `1` is accepted, and the same body with `1.0` is then in conflict with it. -/
theorem fingerprint_tells_notations_apart :
    (bookText one).SameUpTo Literal.SameNumber (bookText onePointZero) ∧
    readRequest noParsers (bookText one) (wellFormed_bookText one) = some (bookRequest one) ∧
    readRequest noParsers (bookText onePointZero) (wellFormed_bookText onePointZero) =
      some (bookRequest onePointZero) ∧
    (bookRequest one).validate = .ok (bookRequest one) ∧
    (bookRequest onePointZero).validate = .ok (bookRequest onePointZero) ∧
    ∃ (f f' : Str) (s : (service .transparent default).State),
      ((bookRequest one).command (Str.ofString "order-1")).fingerprint .transparent = .ok f ∧
      ((bookRequest onePointZero).command (Str.ofString "order-1")).fingerprint .transparent =
        .ok f' ∧
      f ≠ f' ∧ (service .transparent default).Reachable s ∧
      s.world.AcceptedUnder (Str.ofString "order-1") f ∧
      ∀ t, (createPayment .transparent
          ((bookRequest onePointZero).command (Str.ofString "order-1"))).wp
        (.executing (Repeating default t)) (fun _ _ => False)
        (fun e _ => e = .idempotencyConflict (Str.ofString "order-1")) s.world := by
  have hvalue : one.value = onePointZero.value := by
    norm_num [one, onePointZero, Numeral.value, Numeral.magnitude, Numeral.coefficient,
      Numeral.decimals]
  have hsame := sameUpTo_bookText hvalue
  have hkey := getIdempotencyKey_orderHeader
  obtain ⟨f, hf⟩ := (exists_fingerprint_iff (R := .transparent) (validate_bookRequest one)
    (Str.ofString "order-1")).mpr (encodable_bookRequest one)
  obtain ⟨f', hf'⟩ := (exists_fingerprint_iff (R := .transparent) (validate_bookRequest onePointZero)
    (Str.ofString "order-1")).mpr (encodable_bookRequest onePointZero)
  have hne : f ≠ f' := by
    rintro rfl
    have hbody := ((fingerprints_eq_iff hexText_injective (validate_bookRequest one)
      (validate_bookRequest onePointZero) (Str.ofString "order-1")).mp ⟨f, hf, hf'⟩).2
    have halike := ((sameBody_iff_alike (wellFormed_bookText one)
      (wellFormed_bookText onePointZero) hsame (readRequest_bookText noParsers one)
      (readRequest_bookText noParsers onePointZero)
      (validate_bookRequest one) (validate_bookRequest onePointZero) _).mp hbody).2
    cases (metadataAlike_bookText_iff.mp halike).1
  obtain ⟨s, hs, -, hw, -⟩ := exists_accepting default hf
  have hacc : s.world.AcceptedUnder (Str.ofString "order-1") f := hw ▸ acceptedUnder_accepting
  refine ⟨hsame, rfl, rfl, validate_bookRequest one, validate_bookRequest onePointZero, f, f', s,
    hf, hf', hne, hs, hacc, fun t => ?_⟩
  refine Action.wp_mono (createPayment_repeating (varchar_of_getIdempotencyKey hkey).1 hacc hf') ?_ ?_
  · rintro result _ ⟨-, heq⟩
    exact hne heq
  · rintro e _ ⟨he, -⟩
    exact he

end Payments
