import Mathlib.Data.Nat.Digits.Defs
import PaymentProcessing.Domain.Basic

/-!
# A runtime

An instance of `Runtime`, in which the hash functions keep the whole of their input and events are
encoded number by number: what is assumed of the runtime can be met.
-/

namespace Payments

open Python

/-- Numbers as bytes, each ended by a zero. -/
def encodeNats (ns : List ℕ) : Bytes :=
  ns.flatMap fun n => (Nat.digits 255 n).map (fun d => UInt8.ofNat (d + 1)) ++ [0]

/-- `encodeNats` read back; `ds` are the digits of the current number, the latest first. -/
def decodeNats (ds : List ℕ) : Bytes → List ℕ
  | [] => []
  | b :: bs =>
    if b = 0 then Nat.ofDigits 255 ds.reverse :: decodeNats [] bs
    else decodeNats ((b.toNat - 1) :: ds) bs

theorem decodeNats_digits {l : List ℕ} (hl : ∀ d ∈ l, d < 255) (ds : List ℕ) (bs : Bytes) :
    decodeNats ds (l.map (fun d => UInt8.ofNat (d + 1)) ++ 0 :: bs) =
      Nat.ofDigits 255 (ds.reverse ++ l) :: decodeNats [] bs := by
  induction l generalizing ds with
  | nil => simp [decodeNats]
  | cons d l ih =>
    have hd : d < 255 := hl d (by simp)
    have hval : (UInt8.ofNat (d + 1)).toNat = d + 1 := by
      rw [UInt8.toNat_ofNat', Nat.mod_eq_of_lt (by omega)]
    have hne : UInt8.ofNat (d + 1) ≠ 0 := by
      intro h
      rw [h] at hval
      simp at hval
    rw [List.map_cons, List.cons_append, decodeNats, if_neg hne,
      ih fun d' hd' => hl d' (by simp [hd']), hval]
    simp

theorem decodeNats_encodeNats (ns : List ℕ) : decodeNats [] (encodeNats ns) = ns := by
  induction ns with
  | nil => rfl
  | cons n ns ih =>
    have h := decodeNats_digits (fun d hd => Nat.digits_lt_base (by decide) hd) []
      (encodeNats ns) (l := Nat.digits 255 n)
    rw [encodeNats, List.flatMap_cons, List.append_assoc]
    refine h.trans ?_
    rw [ih, List.reverse_nil, List.nil_append, Nat.ofDigits_digits]

/-- The text of bytes in hexadecimal. -/
def hexText (bytes : Bytes) : Str :=
  bytes.flatMap fun b => [hexDigit (b.toNat / 16), hexDigit (b.toNat % 16)]

theorem hexText_injective : Function.Injective hexText := by
  intro b c h
  induction b generalizing c with
  | nil => cases c <;> simp_all [hexText]
  | cons x b ih =>
    cases c with
    | nil => simp [hexText] at h
    | cons y c =>
      simp only [hexText, List.flatMap_cons, List.cons_append, List.nil_append, List.cons.injEq] at h
      obtain ⟨hhigh, hlow, ht⟩ := h
      have hx := x.toNat_lt
      have hy := y.toNat_lt
      have h1 := UUID.hexDigit_inj (by omega) (by omega) hhigh
      have h2 := UUID.hexDigit_inj (by omega) (by omega) hlow
      have hxy : x.toNat = y.toNat := by omega
      rw [UInt8.toNat_inj.mp hxy, ih ht]

/-- The text of an optional string. -/
def optionalText (s : Option Str) : Json Json.FloatToken := s.elim .null .str

/-- A webhook payload as JSON. -/
def payloadJson (p : WebhookPayload) : Json Json.FloatToken :=
  .obj [(Str.ofString "event", .str p.event),
    (Str.ofString "event_id", .str p.eventId.str),
    (Str.ofString "payment_id", .str p.paymentId.str),
    (Str.ofString "status", .str p.status.value),
    (Str.ofString "amount", .str p.amount.str),
    (Str.ofString "currency", .str p.currency.value),
    (Str.ofString "description", .str p.description),
    (Str.ofString "metadata", p.metadata),
    (Str.ofString "failure_reason", optionalText p.failureReason),
    (Str.ofString "created_at", .int p.createdAt),
    (Str.ofString "processed_at", p.processedAt.elim .null fun t => .int t)]

/-- A runtime whose hashes are texts of their input. -/
def Runtime.transparent : Runtime where
  sha256 := hexText
  hmacSha256 key body := hexText (key ++ body)
  uuid5 namespaceId name := namespaceId + BitVec.ofNat 128 name.length
  encodeEvent e := encodeNats (e.occurredAt :: e.paymentId.toNat :: e.eventType.map Fin.val)
  validateEvent body :=
    match decodeNats [] body with
    | occurredAt :: paymentId :: eventType =>
      .ok ⟨eventType.map (Fin.ofNat _), BitVec.ofNat 128 paymentId, occurredAt⟩
    | _ => .error (Str.ofString "Field required")
  validateEvent_encodeEvent e := by
    rw [decodeNats_encodeNats]
    simp [Function.comp_def]
  dumpWebhook p := ((payloadJson p).render Json.floatFormat).encodeUtf8.getD []
  repr s := 0x27 :: (s ++ [0x27])
  encodeErrorText _ := Str.ofString "surrogates not allowed"

end Payments
