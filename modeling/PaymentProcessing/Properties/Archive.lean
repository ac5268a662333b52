import PaymentProcessing.Api.Routes
import PaymentProcessing.Properties.Linearization

/-!
# The ledger and its questions

Seen over HTTP, the ledger answers two questions: what becomes of a request to create a payment, and
what the payment with an `id` is (`archive`). Whatever it is asked, payments only move along their
life cycle (`keeps_of_serves`); so what it has told of stays (`present_of_serves`), and what it says
later follows from that (`Consult.get`, `Consult.again`).
-/

namespace Payments

open Effects Python AtomicObject

variable {R : Runtime}

/-! ## Questions to the ledger -/

/-- What the ledger says. -/
inductive Said
  | reply (reply : Reply)
  | payment (payment : Option Payment)

variable (R) in
/-- **How a question is answered.** -/
inductive Consult (L : Ledger) : Endpoint → Said → Ledger → Prop
  | create {c : CreatePaymentCommand} {reply : Reply} {L' : Ledger} (h : Serve R L c reply L') :
      Consult L (.create c) (.reply reply) L'
  | found {key : Str} {p : Payment} (h : L key = some p) :
      Consult L (.get p.id) (.payment (some p)) L
  | missing {paymentId : UUID} (h : ∀ key p, L key = some p → p.id ≠ paymentId) :
      Consult L (.get paymentId) (.payment none) L

variable (R) in
/-- The ledger as an object that answers both routes. -/
abbrev archive : AtomicObject where
  State := Ledger
  Call := Endpoint
  Answer := Said
  empty := fun _ => none
  serve := Consult R
  evolve := Ledger.Evolves

namespace Ledger

/-- No payment comes to harm. -/
def Keeps (L L' : Ledger) : Prop :=
  ∀ key p, L key = some p → ∃ p', L' key = some p' ∧ p.LifeCycle p'

theorem Keeps.refl (L : Ledger) : L.Keeps L := fun _ p h => ⟨p, h, .refl p⟩

theorem Keeps.trans {L L' L'' : Ledger} (h : L.Keeps L') (h' : L'.Keeps L'') : L.Keeps L'' := by
  intro key p hp
  obtain ⟨p', hp', hl⟩ := h key p hp
  obtain ⟨p'', hp'', hl'⟩ := h' key p' hp'
  exact ⟨p'', hp'', hl.trans hl'⟩

/-- Payments stand under their keys, and have `id`s of their own. -/
structure Proper (L : Ledger) : Prop where
  keyed : ∀ key p, L key = some p → p.idempotencyKey = key
  distinct : ∀ key key' p p', L key = some p → L key' = some p' → p.id = p'.id → key = key'

theorem proper_empty : Proper fun _ => none := ⟨by simp, by simp⟩

theorem Evolves.keeps {L L' : Ledger} (h : L.Evolves L') : L.Keeps L' := fun key => (h key).2

theorem Evolves.proper {L L' : Ledger} (h : L.Evolves L') (hL : L.Proper) : L'.Proper := by
  have hback : ∀ key p', L' key = some p' → ∃ p, L key = some p ∧ p.LifeCycle p' := by
    intro key p' hp'
    cases hp : L key with
    | none => cases ((h key).1 hp).symm.trans hp'
    | some p =>
      obtain ⟨q, hq, hl⟩ := (h key).2 p hp
      obtain rfl := Option.some.inj (hq.symm.trans hp')
      exact ⟨p, rfl, hl⟩
  refine ⟨fun key p' hp' => ?_, fun key key' p q hp hq hid => ?_⟩
  · obtain ⟨p, hp, hl⟩ := hback key p' hp'
    rw [hl.request.idempotencyKey, hL.keyed key p hp]
  · obtain ⟨p₀, hp₀, hl⟩ := hback key p hp
    obtain ⟨q₀, hq₀, hl'⟩ := hback key' q hq
    exact hL.distinct key key' p₀ q₀ hp₀ hq₀ (by rw [← hl.request.id, hid, hl'.request.id])

end Ledger

section Consult

variable {L L' : Ledger} {q : Endpoint} {a : Said}

theorem Serve.keeps {c : CreatePaymentCommand} {reply : Reply} (h : Serve R L c reply L') :
    L.Keeps L' := by
  cases h with
  | created hf hnone hid now =>
    intro key p hp
    refine ⟨p, ?_, .refl p⟩
    rwa [Function.update_of_ne]
    rintro rfl
    cases hnone.symm.trans hp
  | replayed => exact .refl L
  | conflict => exact .refl L

theorem Serve.proper {c : CreatePaymentCommand} {reply : Reply} (h : Serve R L c reply L')
    (hL : L.Proper) : L'.Proper := by
  cases h with
  | @created fingerprint hf hnone id hid now =>
    refine ⟨fun key p hp => ?_, fun key key' p q hp hq hpq => ?_⟩
    · by_cases hkey : key = c.idempotencyKey
      · subst hkey
        rw [Function.update_self] at hp
        obtain rfl := Option.some.inj hp
        rfl
      · rw [Function.update_of_ne hkey] at hp
        exact hL.keyed key p hp
    · by_cases hkey : key = c.idempotencyKey
      · by_cases hkey' : key' = c.idempotencyKey
        · rw [hkey, hkey']
        · subst hkey
          rw [Function.update_self] at hp
          rw [Function.update_of_ne hkey'] at hq
          obtain rfl := Option.some.inj hp
          exact absurd hpq.symm (hid key' q hq)
      · rw [Function.update_of_ne hkey] at hp
        by_cases hkey' : key' = c.idempotencyKey
        · subst hkey'
          rw [Function.update_self] at hq
          obtain rfl := Option.some.inj hq
          exact absurd hpq (hid key p hp)
        · rw [Function.update_of_ne hkey'] at hq
          exact hL.distinct key key' p q hp hq hpq
  | replayed => exact hL
  | conflict => exact hL

theorem Consult.keeps (h : Consult R L q a L') : L.Keeps L' := by
  cases h with
  | create h => exact h.keeps
  | found => exact .refl L
  | missing => exact .refl L

theorem Consult.proper (h : Consult R L q a L') (hL : L.Proper) : L'.Proper := by
  cases h with
  | create h => exact h.proper hL
  | found => exact hL
  | missing => exact hL

/-- The ledger tells of a payment. -/
inductive Tells (p : Payment) : Said → Prop
  | result (replayed : Bool) : Tells p (.reply (.result ⟨p, replayed⟩))
  | payment : Tells p (.payment (some p))

/-- What the ledger tells of is there. -/
theorem Consult.present (h : Consult R L q a L') (hL : L.Proper) {p : Payment} (ha : Tells p a) :
    L' p.idempotencyKey = some p := by
  cases h with
  | create h =>
    cases ha
    cases h with
    | created => exact Function.update_self _ _ _
    | replayed hf hp =>
      rw [hL.keyed _ _ hp]
      exact hp
  | found hp =>
    cases ha
    rw [hL.keyed _ _ hp]
    exact hp
  | missing => cases ha

/-- The payment that is found is the one that was asked for. -/
theorem Consult.id {paymentId : UUID} {p : Payment}
    (h : Consult R L (.get paymentId) (.payment (some p)) L') : p.id = paymentId := by
  cases h with
  | found => rfl

/-- A payment that is there is found. -/
theorem Consult.get {p : Payment} (h : Consult R L (.get p.id) a L') (hL : L.Proper)
    (hp : L p.idempotencyKey = some p) : a = .payment (some p) := by
  generalize hq : Endpoint.get p.id = q at h
  cases h with
  | create => cases hq
  | @found key p' hp' =>
    have hid : p.id = p'.id := Endpoint.get.inj hq
    obtain rfl := hL.distinct _ _ _ _ hp hp' hid
    rw [Option.some.inj (hp'.symm.trans hp)]
  | missing hnone => exact absurd (Endpoint.get.inj hq) (hnone _ _ hp)

/-- A key that is taken is not taken again. -/
theorem Consult.again {c : CreatePaymentCommand} (h : Consult R L (.create c) a L') {p : Payment}
    (hp : L c.idempotencyKey = some p) :
    (c.fingerprint R = .ok p.requestFingerprint ∧ a = .reply (.result ⟨p, true⟩)) ∨
      (c.fingerprint R ≠ .ok p.requestFingerprint ∧ a = .reply .conflict) := by
  cases h with
  | create h =>
    cases h with
    | created _ hnone => cases hnone.symm.trans hp
    | replayed hf hp' =>
      obtain rfl := Option.some.inj (hp'.symm.trans hp)
      exact .inl ⟨hf, rfl⟩
    | conflict hf hp' hne =>
      obtain rfl := Option.some.inj (hp'.symm.trans hp)
      refine .inr ⟨fun heq => hne ?_, rfl⟩
      exact Except.ok.inj (heq.symm.trans hf)

end Consult

section Served

variable {ι : Type} {L L' : Ledger} {l : List ((archive R).Served ι)}

/-- Whatever is asked, no payment comes to harm. -/
theorem keeps_of_serves (h : (archive R).Serves L l L') : L.Keeps L' :=
  h.along (Q := Ledger.Keeps) Ledger.Keeps.refl (fun _ _ _ => Ledger.Keeps.trans)
    (fun _ _ _ _ => Consult.keeps) fun _ _ => Ledger.Evolves.keeps

theorem proper_of_serves (h : (archive R).Serves L l L') (hL : L.Proper) : L'.Proper :=
  h.along (Q := fun L L' : Ledger => L.Proper → L'.Proper) (fun _ hL => hL)
    (fun _ _ _ h h' hL => h' (h hL)) (fun _ _ _ _ => Consult.proper)
    (fun _ _ => Ledger.Evolves.proper) hL

/-- What the ledger told of is there at the end. -/
theorem present_of_serves (h : (archive R).Serves L l L') (hL : L.Proper)
    {e : (archive R).Served ι} (he : e ∈ l) {p : Payment} (hp : Tells p e.answer) :
    ∃ p', L' p.idempotencyKey = some p' ∧ p.LifeCycle p' := by
  obtain ⟨l₁, l₂, L₁, L₂, -, h₁, hserve, h₂⟩ := h.moment he
  have hpresent := Consult.present hserve (proper_of_serves h₁ hL) hp
  exact keeps_of_serves h₂ _ p hpresent

/-- A payment that is there at the beginning is there when a question is answered. -/
theorem asked_of_serves (h : (archive R).Serves L l L') (hL : L.Proper)
    {e : (archive R).Served ι} (he : e ∈ l) {key : Str} {p : Payment} (hp : L key = some p) :
    ∃ (L₁ L₂ : Ledger) (p' : Payment), L₁.Proper ∧ L₁ key = some p' ∧ p.LifeCycle p' ∧
      Consult R L₁ e.call e.answer L₂ := by
  obtain ⟨l₁, l₂, L₁, L₂, -, h₁, hserve, -⟩ := h.moment he
  obtain ⟨p', hp', hl⟩ := keeps_of_serves h₁ key p hp
  exact ⟨L₁, L₂, p', proper_of_serves h₁ hL, hp', hl, hserve⟩

end Served

end Payments
