import PaymentProcessing.Api.Body
import PaymentProcessing.Services.PaymentService

/-!
# Routes

What the API answers: the key of the caller, the two routes under `/api/v1/payments`, and the
handlers that turn exceptions into responses. In which order a request passes its checks is left to
the framework (`Refusal`): it may be refused by any check it does not pass, and it comes to the
route if it passes all of them (`Admitted`).
-/

namespace Payments

open Python

/-! ## Requests -/

/-- A JSON text that has been read. -/
abbrev JsonBody : Type := { body : Json Literal // body.WellFormed }

/-- A request to one of the routes; what is not JSON and what is not a UUID is `none`. -/
inductive Route
  | createPayment (idempotencyKey : Option HeaderValue) (body : Option JsonBody)
  | getPayment (paymentId : Option UUID)

/-- A request, as far as the service looks at it. -/
structure HttpRequest where
  xApiKey : Option HeaderValue
  route : Route

/-! ## Responses -/

/-- `CreatePaymentResponse`. -/
structure CreatePaymentResponse where
  paymentId : UUID
  status : PaymentStatus
  createdAt : Time

/-- `PaymentResponse`. -/
structure PaymentResponse where
  id : UUID
  amount : Decimal
  currency : Currency
  description : Str
  metadata : Json Json.FloatToken
  status : PaymentStatus
  failureReason : Option Str
  webhookUrl : Option Str
  webhookAttempts : ℕ
  webhookDeliveredAt : Option Time
  webhookLastError : Option Str
  idempotencyKey : Str
  createdAt : Time
  processedAt : Option Time

/-- `PaymentResponse.from_model`. -/
def PaymentResponse.fromModel (payment : Payment) : PaymentResponse where
  id := payment.id
  amount := payment.amount
  currency := payment.currency
  description := payment.description
  metadata := payment.paymentMetadata
  status := payment.status
  failureReason := payment.failureReason
  webhookUrl := payment.webhookUrl
  webhookAttempts := payment.webhookAttempts
  webhookDeliveredAt := payment.webhookDeliveredAt
  webhookLastError := payment.webhookLastError
  idempotencyKey := payment.idempotencyKey
  createdAt := payment.createdAt
  processedAt := payment.processedAt

/-- One of `exc.errors()`. -/
structure ErrorDetails where
  loc : List Str
  msg : Str
  type : Str

/-- An entry of `errors`. -/
structure SerializedError where
  field : Str
  message : Str
  type : Str

/-- The body of a response. -/
inductive Content
  | accepted (response : CreatePaymentResponse)
  | payment (response : PaymentResponse)
  | error (detail code : Str)
  | invalid (detail code : Str) (errors : List SerializedError)

/-- A response. -/
structure HttpResponse where
  statusCode : ℕ
  headers : List (Str × Str)
  content : Content

/-! ## Exception handlers -/

/-- `_ERROR_CODES`, with its default. -/
def errorCode (statusCode : ℕ) : Str :=
  if statusCode = 400 then Str.ofString "bad_request"
  else if statusCode = 401 then Str.ofString "unauthorized"
  else if statusCode = 404 then Str.ofString "not_found"
  else if statusCode = 409 then Str.ofString "idempotency_conflict"
  else Str.ofString "http_error"

/-- `http_exception_handler`. -/
def httpExceptionHandler (exc : HttpException) (headers : List (Str × Str)) : HttpResponse :=
  ⟨exc.statusCode, headers, .error exc.detail (errorCode exc.statusCode)⟩

/-- `_serialize_validation_errors`. -/
def serializeValidationErrors (errors : List ErrorDetails) : List SerializedError :=
  errors.map fun error => ⟨[0x2E].intercalate error.loc, error.msg, error.type⟩

/-- `unhandled_handler`. -/
def unhandledHandler : HttpResponse :=
  ⟨500, [], .error (Str.ofString "Внутренняя ошибка сервиса") (Str.ofString "internal_error")⟩

/-- `validation_handler`. The texts may come from the body, and a response is written in UTF-8. -/
def validationHandler (errors : List ErrorDetails) : HttpResponse :=
  if ∀ error ∈ serializeValidationErrors errors,
      error.field.Valid ∧ error.message.Valid ∧ error.type.Valid then
    ⟨422, [], .invalid (Str.ofString "Тело запроса не прошло валидацию")
      (Str.ofString "validation_error") (serializeValidationErrors errors)⟩
  else unhandledHandler

/-! ## The key of the caller -/

/-- `API_KEY_HEADER`. -/
def apiKeyHeader : Str := Str.ofString "X-API-Key"

/-- The response to a caller without the key. -/
def unauthorized : HttpResponse :=
  httpExceptionHandler ⟨401, Str.ofString "Неверный или отсутствующий API-ключ"⟩
    [(Str.ofString "WWW-Authenticate", apiKeyHeader)]

/-- `verify_api_key`, with the response its exception leads to. -/
def verifyApiKey (apiKey : Str) : Option Str → Except HttpResponse Unit
  | none => .error unauthorized
  | some key =>
    match key.encodeUtf8 with
    | none => .error unhandledHandler
    | some given =>
      match apiKey.encodeUtf8 with
      | none => .error unhandledHandler
      | some expected => if given = expected then .ok () else .error unauthorized

/-- **Only the key opens.** -/
theorem verifyApiKey_eq_ok_iff {apiKey : Str} {xApiKey : Option Str} :
    verifyApiKey apiKey xApiKey = .ok () ↔ xApiKey = some apiKey ∧ apiKey.Valid := by
  constructor
  · intro h
    unfold verifyApiKey at h
    split at h
    · cases h
    · split at h
      · cases h
      · rename_i hgiven
        split at h
        · cases h
        · rename_i hexpected
          split at h
          · rename_i heq
            subst heq
            exact ⟨congrArg some (Str.encodeUtf8_inj hgiven hexpected),
              Str.valid_of_encodeUtf8 hexpected⟩
          · cases h
  · rintro ⟨rfl, hvalid⟩
    obtain ⟨b, hb⟩ := Str.exists_encodeUtf8 hvalid
    simp [verifyApiKey, hb]

/-! ## The routes -/

/-- `REPLAY_HEADER`. -/
def replayHeader : Str := Str.ofString "Idempotent-Replay"

/-- `create_payment`, after `PaymentService.create`. -/
def createPaymentResponse (R : Runtime) : Except Exn CreatePaymentResult → HttpResponse
  | .ok result =>
    ⟨202, [(replayHeader, Str.ofString (if result.replayed then "true" else "false"))],
      .accepted ⟨result.payment.id, result.payment.status, result.payment.createdAt⟩⟩
  | .error (.idempotencyConflict key) =>
    httpExceptionHandler ⟨409, (Exn.idempotencyConflict key).str R⟩ []
  | .error _ => unhandledHandler

/-- `get_payment`, after `PaymentService.get`. -/
def getPaymentResponse (paymentId : UUID) : Option Payment → HttpResponse
  | some payment => ⟨200, [], .payment (.fromModel payment)⟩
  | none =>
    httpExceptionHandler
      ⟨404, Str.ofString "Платёж " ++ paymentId.str ++ Str.ofString " не найден"⟩ []

/-- What is read is no failure. -/
theorem getPaymentResponse_ne (paymentId : UUID) (payment : Option Payment) :
    getPaymentResponse paymentId payment ≠ unhandledHandler := by
  intro h
  have hstatus := congrArg HttpResponse.statusCode h
  cases payment with
  | none =>
    have hstatus : 404 = 500 := hstatus
    omega
  | some payment =>
    have hstatus : 200 = 500 := hstatus
    omega

/-- What the framework adds: the conversions, and what it says about a request it did not accept. -/
structure Framework where
  parsers : FieldParsers
  errors : Route → List ErrorDetails

/-- What a route does. -/
inductive Endpoint
  | create (command : CreatePaymentCommand)
  | get (paymentId : UUID)

section Checks

variable (apiKey : Str) (F : Framework)

/-- **How a request is refused** before it comes to its route. -/
inductive Refusal : HttpRequest → HttpResponse → Prop
  | unauthorized {r : HttpRequest} {a : HttpResponse}
      (h : verifyApiKey apiKey (r.xApiKey.map Subtype.val) = .error a) : Refusal r a
  | unkeyed {x k : Option HeaderValue} {body : Option JsonBody} {exc : HttpException}
      (h : getIdempotencyKey (k.map Subtype.val) = .error exc) :
      Refusal ⟨x, .createPayment k body⟩ (httpExceptionHandler exc [])
  | unreadable (x k : Option HeaderValue) :
      Refusal ⟨x, .createPayment k none⟩ (validationHandler (F.errors (.createPayment k none)))
  /-- The body is no UTF-8. -/
  | undecoded (x k : Option HeaderValue) :
      Refusal ⟨x, .createPayment k none⟩
        (httpExceptionHandler ⟨400, Str.ofString "There was an error parsing the body"⟩ [])
  | unread {x k : Option HeaderValue} {body : JsonBody}
      (h : readRequest F.parsers body.1 body.2 = none) :
      Refusal ⟨x, .createPayment k (some body)⟩
        (validationHandler (F.errors (.createPayment k (some body))))
  | invalid {x k : Option HeaderValue} {body : JsonBody} {request : CreatePaymentRequest}
      {error : SchemaError} (h : readRequest F.parsers body.1 body.2 = some request)
      (hv : request.validate = .error (.invalid error)) :
      Refusal ⟨x, .createPayment k (some body)⟩
        (validationHandler (F.errors (.createPayment k (some body))))
  | raised {x k : Option HeaderValue} {body : JsonBody} {request : CreatePaymentRequest} {error : Exn}
      (h : readRequest F.parsers body.1 body.2 = some request)
      (hv : request.validate = .error (.raised error)) :
      Refusal ⟨x, .createPayment k (some body)⟩ unhandledHandler
  | noUuid (x : Option HeaderValue) :
      Refusal ⟨x, .getPayment none⟩ (validationHandler (F.errors (.getPayment none)))

/-- **How a request comes to its route.** -/
inductive Admitted : HttpRequest → Endpoint → Prop
  | create {x k : Option HeaderValue} {body : JsonBody} {request request' : CreatePaymentRequest}
      {key : Str} (hx : verifyApiKey apiKey (x.map Subtype.val) = .ok ())
      (hk : getIdempotencyKey (k.map Subtype.val) = .ok key)
      (h : readRequest F.parsers body.1 body.2 = some request)
      (hv : request.validate = .ok request') :
      Admitted ⟨x, .createPayment k (some body)⟩ (.create (request'.command key))
  | get {x : Option HeaderValue} (hx : verifyApiKey apiKey (x.map Subtype.val) = .ok ())
      (paymentId : UUID) : Admitted ⟨x, .getPayment (some paymentId)⟩ (.get paymentId)

variable {apiKey F} {r : HttpRequest} {a : HttpResponse} {e e' : Endpoint}

/-- Only callers with the key come to a route. -/
theorem Admitted.key (h : Admitted apiKey F r e) : r.xApiKey.map Subtype.val = some apiKey := by
  cases h with
  | create hx => exact (verifyApiKey_eq_ok_iff.mp hx).1
  | get hx => exact (verifyApiKey_eq_ok_iff.mp hx).1

/-- A request is for one route. -/
theorem Admitted.unique (h : Admitted apiKey F r e) (h' : Admitted apiKey F r e') : e = e' := by
  cases h with
  | create _ hk hread hv =>
    cases h' with
    | create _ hk' hread' hv' =>
      obtain rfl := Except.ok.inj (hk.symm.trans hk')
      obtain rfl := Option.some.inj (hread.symm.trans hread')
      obtain rfl := Except.ok.inj (hv.symm.trans hv')
      rfl
  | get =>
    cases h'
    rfl

/-- A request that is admitted is not refused. -/
theorem Admitted.not_refused (h : Admitted apiKey F r e) : ¬Refusal apiKey F r a := by
  intro h'
  cases h with
  | create hx hk hread hv =>
    cases h' with
    | unauthorized hx' => cases hx.symm.trans hx'
    | unkeyed hk' => cases hk.symm.trans hk'
    | unread hread' => cases hread.symm.trans hread'
    | invalid hread' hv' =>
      obtain rfl := Option.some.inj (hread.symm.trans hread')
      cases hv.symm.trans hv'
    | raised hread' hv' =>
      obtain rfl := Option.some.inj (hread.symm.trans hread')
      cases hv.symm.trans hv'
  | get hx =>
    cases h' with
    | unauthorized hx' => cases hx.symm.trans hx'

/-- A request that is not admitted is refused. -/
theorem refused_of_not_admitted (h : ∀ e, ¬Admitted apiKey F r e) : ∃ a, Refusal apiKey F r a := by
  cases hx : verifyApiKey apiKey (r.xApiKey.map Subtype.val) with
  | error a => exact ⟨a, .unauthorized hx⟩
  | ok u =>
    obtain ⟨x, route⟩ := r
    cases route with
    | getPayment paymentId =>
      cases paymentId with
      | none => exact ⟨_, .noUuid x⟩
      | some paymentId => exact absurd (.get hx paymentId) (h _)
    | createPayment k body =>
      cases hk : getIdempotencyKey (k.map Subtype.val) with
      | error exc => exact ⟨_, .unkeyed hk⟩
      | ok key =>
        cases body with
        | none => exact ⟨_, .unreadable x k⟩
        | some body =>
          cases hread : readRequest F.parsers body.1 body.2 with
          | none => exact ⟨_, .unread hread⟩
          | some request =>
            cases hv : request.validate with
            | ok request' => exact absurd (.create hx hk hread hv) (h _)
            | error rejection =>
              cases rejection with
              | invalid error => exact ⟨_, .invalid hread hv⟩
              | raised error => exact ⟨_, .raised hread hv⟩

theorem statusCode_of_verifyApiKey {xApiKey : Option Str}
    (h : verifyApiKey apiKey xApiKey = .error a) : 400 ≤ a.statusCode := by
  unfold verifyApiKey at h
  have hunauthorized : 400 ≤ unauthorized.statusCode := by decide
  have hunhandled : 400 ≤ unhandledHandler.statusCode := by decide
  split at h
  · obtain rfl := Except.error.inj h
    exact hunauthorized
  · split at h
    · obtain rfl := Except.error.inj h
      exact hunhandled
    · split at h
      · obtain rfl := Except.error.inj h
        exact hunhandled
      · split at h
        · cases h
        · obtain rfl := Except.error.inj h
          exact hunauthorized

theorem statusCode_of_getIdempotencyKey {header : Option Str} {exc : HttpException}
    (h : getIdempotencyKey header = .error exc) : exc.statusCode = 400 := by
  unfold getIdempotencyKey at h
  simp only at h
  split at h
  · obtain rfl := Except.error.inj h
    rfl
  · split at h
    · obtain rfl := Except.error.inj h
      rfl
    · cases h

theorem statusCode_validationHandler (errors : List ErrorDetails) :
    400 ≤ (validationHandler errors).statusCode := by
  unfold validationHandler
  split
  · show 400 ≤ 422
    omega
  · show 400 ≤ 500
    omega

/-- A refusal is an error. -/
theorem Refusal.statusCode (h : Refusal apiKey F r a) : 400 ≤ a.statusCode := by
  cases h with
  | unauthorized h => exact statusCode_of_verifyApiKey h
  | unkeyed h => exact (statusCode_of_getIdempotencyKey h).ge
  | undecoded => exact le_rfl
  | raised => exact le_of_lt (by decide)
  | _ => exact statusCode_validationHandler _

end Checks

end Payments
