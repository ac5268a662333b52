import PaymentProcessing.Foundations.Effects.Machine

/-!
# Atomic objects

An atomic object serves calls, one at a time, and its state may also change between them. The
threads of a machine are linearizable with respect to it if every call that a thread makes can be
taken to be served at one moment between its beginning and its end (`Linearization`): the calls
served so far then form a history, which the run of the machine only appends to
(`Linearization.run`).
-/

namespace Effects

open Relation

/-- An object that serves calls. -/
structure AtomicObject where
  State : Type
  Call : Type
  Answer : Type
  /-- The state nobody has called yet. -/
  empty : State
  serve : State → Call → Answer → State → Prop
  /-- What happens to the state without a call. -/
  evolve : State → State → Prop

namespace AtomicObject

variable (O : AtomicObject)

/-- A call that was served, and who made it. -/
structure Served (ι : Type) where
  caller : ι
  call : O.Call
  answer : O.Answer

/-- The calls `l` are served one after the other. -/
inductive Serves {ι : Type} : O.State → List (O.Served ι) → O.State → Prop
  | nil (s : O.State) : Serves s [] s
  | call {s s₁ s₂ : O.State} {l : List (O.Served ι)} {e : O.Served ι} (h : Serves s l s₁)
      (he : O.serve s₁ e.call e.answer s₂) : Serves s (l ++ [e]) s₂
  | evolve {s s₁ s₂ : O.State} {l : List (O.Served ι)} (h : Serves s l s₁) (he : O.evolve s₁ s₂) :
      Serves s l s₂

variable {O} {ι : Type}

theorem Serves.append {s s₁ s₂ : O.State} {l l' : List (O.Served ι)} (h : O.Serves s l s₁)
    (h' : O.Serves s₁ l' s₂) : O.Serves s (l ++ l') s₂ := by
  induction h' with
  | nil => simpa using h
  | call _ he ih =>
    rw [← List.append_assoc]
    exact ih.call he
  | evolve _ he ih => exact ih.evolve he

/-- A relation that the calls and the changes between them keep. -/
theorem Serves.along {Q : O.State → O.State → Prop} (hrefl : ∀ s, Q s s)
    (htrans : ∀ s₁ s₂ s₃, Q s₁ s₂ → Q s₂ s₃ → Q s₁ s₃)
    (hserve : ∀ s c a s', O.serve s c a s' → Q s s') (hevolve : ∀ s s', O.evolve s s' → Q s s')
    {s s' : O.State} {l : List (O.Served ι)} (h : O.Serves s l s') : Q s s' := by
  induction h with
  | nil => exact hrefl _
  | call _ he ih => exact htrans _ _ _ ih (hserve _ _ _ _ he)
  | evolve _ he ih => exact htrans _ _ _ ih (hevolve _ _ he)

/-- The moment at which a call is served. -/
theorem Serves.moment {s s' : O.State} {l : List (O.Served ι)} (h : O.Serves s l s')
    {e : O.Served ι} (he : e ∈ l) : ∃ l₁ l₂ s₁ s₂, l = l₁ ++ e :: l₂ ∧ O.Serves s l₁ s₁ ∧
      O.serve s₁ e.call e.answer s₂ ∧ O.Serves s₂ l₂ s' := by
  induction h with
  | nil => cases he
  | @call s₃ s₄ l e' h hs ih =>
    rcases List.mem_append.mp he with he | he
    · obtain ⟨l₁, l₂, s₁, s₂, rfl, h₁, hserve, h₂⟩ := ih he
      exact ⟨l₁, l₂ ++ [e'], s₁, s₂, by simp, h₁, hserve, h₂.call hs⟩
    · obtain rfl := List.mem_singleton.mp he
      exact ⟨l, [], s₃, s₄, rfl, h, hs, .nil s₄⟩
  | evolve h hev ih =>
    obtain ⟨l₁, l₂, s₁, s₂, hl, h₁, hserve, h₂⟩ := ih he
    exact ⟨l₁, l₂, s₁, s₂, hl, h₁, hserve, h₂.evolve hev⟩

section Entry

variable [DecidableEq ι]

/-- What a history says about a caller. -/
def entry (l : List (O.Served ι)) (i : ι) : Option (O.Served ι) := l.find? fun e => e.caller = i

theorem mem_of_entry {l : List (O.Served ι)} {i : ι} {e : O.Served ι} (h : entry l i = some e) :
    e ∈ l ∧ e.caller = i :=
  ⟨List.mem_of_find?_eq_some h, by simpa using List.find?_some h⟩

theorem entry_eq_none_iff {l : List (O.Served ι)} {i : ι} :
    entry l i = none ↔ ∀ e ∈ l, e.caller ≠ i := by
  simp [entry]

theorem entry_append {l : List (O.Served ι)} {e : O.Served ι} (h : entry l e.caller = none)
    (i : ι) : entry (l ++ [e]) i = if i = e.caller then some e else entry l i := by
  unfold entry at h ⊢
  by_cases hi : i = e.caller
  · subst hi
    simp [List.find?_append, h]
  · simp [List.find?_append, hi, Ne.symm hi]

end Entry

end AtomicObject

/-! ## Linearization -/

variable {M : Machine}

/-- **How the threads of a machine are linearized**: what its worlds say about the state of the
object, and which entry of the history goes with which status of a thread. A thread that acts has
its call served by that, or it does not touch the object. -/
structure Linearization (S : M.Spec) (O : AtomicObject) where
  Holds : M.World → O.State → Prop
  Fits : S.Status → Option (O.Served ℕ) → Prop
  init : ∀ w, M.init w → Holds w O.empty
  unborn : ∀ x, Fits .unborn x ↔ x = none
  acts : ∀ {v : S.View} {t : ℕ} {w : M.World} {y : S.Status} {s : O.State} {x : Option (O.Served ℕ)},
    S.Reachable v → S.Acts v t w y → Holds v.world s → Fits (v.status t) x →
    (∃ s', Holds w s' ∧ O.evolve s s' ∧ Fits y x) ∨
      (x = none ∧ ∃ (e : O.Served ℕ) (s' : O.State), e.caller = t ∧ Holds w s' ∧ O.serve s e.call e.answer s' ∧ Fits y (some e))
  env : ∀ {v : S.View} {w : M.World} {s : O.State}, S.Reachable v → M.env v.world w →
    Holds v.world s → ∃ s', Holds w s' ∧ O.evolve s s'

namespace Linearization

open AtomicObject

variable {S : M.Spec} {O : AtomicObject} (L : Linearization S O)

/-- The history `l` has led to the view `v`, and the object is in the state `s`. -/
structure Records (v : S.View) (s : O.State) (l : List (O.Served ℕ)) : Prop where
  holds : L.Holds v.world s
  nodup : (l.map Served.caller).Nodup
  fits : ∀ t, L.Fits (v.status t) (entry l t)

variable {L}

theorem Records.init {v : S.View} (h : S.Initial v) : L.Records v O.empty [] := by
  obtain ⟨hw, ht, -⟩ := h
  refine ⟨L.init _ hw, List.nodup_nil, fun t => ?_⟩
  rw [ht t, L.unborn]
  rfl

/-- **One step** serves one call at most. -/
theorem Records.step {v v' : S.View} {s : O.State} {l : List (O.Served ℕ)} (h : L.Records v s l)
    (hv : S.Reachable v) (hs : S.Step v v') :
    ∃ s' l', O.Serves s l' s' ∧ L.Records v' s' (l ++ l') := by
  rcases hs.acts hv with ⟨t, y, ha, hst⟩ | ⟨he, hst⟩
  · rcases L.acts hv ha h.holds (h.fits t) with
      ⟨s', hholds, hev, hfits⟩ | ⟨hnone, e, s', rfl, hholds, hserve, hfits⟩
    · refine ⟨s', [], (Serves.nil s).evolve hev, hholds, by simpa using h.nodup, fun t' => ?_⟩
      rw [List.append_nil, hst]
      by_cases ht : t' = t
      · subst ht
        rwa [Function.update_self]
      · rw [Function.update_of_ne ht]
        exact h.fits t'
    · refine ⟨s', [e], (Serves.nil s).call hserve, hholds, ?_, fun t' => ?_⟩
      · rw [List.map_append]
        refine List.nodup_append.mpr ⟨h.nodup, by simp, fun t ht t' ht' heq => ?_⟩
        obtain ⟨e', he', rfl⟩ := List.mem_map.mp ht
        obtain rfl := List.mem_singleton.mp ht'
        exact entry_eq_none_iff.mp hnone e' he' heq
      · rw [entry_append hnone, hst]
        by_cases ht : t' = e.caller
        · subst ht
          rwa [Function.update_self, if_pos rfl]
        · rw [Function.update_of_ne ht, if_neg ht]
          exact h.fits t'
  · obtain ⟨s', hholds, hev⟩ := L.env hv he h.holds
    refine ⟨s', [], (Serves.nil s).evolve hev, hholds, by simpa using h.nodup, fun t => ?_⟩
    rw [List.append_nil, hst]
    exact h.fits t

/-- **A run** appends the calls it serves to the history. -/
theorem Records.run {v v' : S.View} {s : O.State} {l : List (O.Served ℕ)} (h : L.Records v s l)
    (hv : S.Reachable v) (hr : ReflTransGen S.Step v v') :
    ∃ s' l', O.Serves s l' s' ∧ L.Records v' s' (l ++ l') := by
  induction hr with
  | refl => exact ⟨s, [], .nil s, by simpa using h⟩
  | tail hr hs ih =>
    obtain ⟨s₁, l₁, hserves, h₁⟩ := ih
    obtain ⟨s₂, l₂, hserves', h₂⟩ := h₁.step (hv.run hr) hs
    exact ⟨s₂, l₁ ++ l₂, hserves.append hserves', by rwa [← List.append_assoc]⟩

/-- Every reachable view has a history. -/
theorem exists_records {v : S.View} (hv : S.Reachable v) :
    ∃ s l, O.Serves O.empty l s ∧ L.Records v s l := by
  obtain ⟨v₀, h₀, hr⟩ := hv
  obtain ⟨s, l, hserves, h⟩ := (Records.init (L := L) h₀).run ⟨v₀, h₀, .refl⟩ hr
  exact ⟨s, l, hserves, h⟩

/-- **One order for all moments of a run**: the history of a moment begins with those of the moments
before. -/
theorem exists_orders {v : ℕ → S.View} (hv : S.Reachable (v 0))
    (hr : ∀ i, ReflTransGen S.Step (v i) (v (i + 1))) :
    ∃ (s : ℕ → O.State) (l : ℕ → List (O.Served ℕ)),
      (∀ i, O.Serves O.empty (l i) (s i) ∧ L.Records (v i) (s i) (l i)) ∧
      ∀ i j, i ≤ j → ∃ l', l j = l i ++ l' ∧ O.Serves (s i) l' (s j) := by
  have hreach : ∀ i, S.Reachable (v i) := by
    intro i
    induction i with
    | zero => exact hv
    | succ i ih => exact ih.run (hr i)
  obtain ⟨s, l, hserves, hrec⟩ := exists_records (L := L) hv
  obtain ⟨f, hf⟩ := Machine.Spec.exists_sequence
    (P := fun i x => O.Serves O.empty x.2 x.1 ∧ L.Records (v i) x.1 x.2)
    (r := fun x y => ∃ l', y.2 = x.2 ++ l' ∧ O.Serves x.1 l' y.1) ⟨(s, l), hserves, hrec⟩
    (by
      rintro i ⟨s, l⟩ ⟨hserves, hrec⟩
      obtain ⟨s', l', hserves', hrec'⟩ := hrec.run (hreach i) (hr i)
      exact ⟨(s', l ++ l'), ⟨hserves.append hserves', hrec'⟩, l', rfl, hserves'⟩)
  refine ⟨fun i => (f i).1, fun i => (f i).2, fun i => (hf i).1, fun i j hij => ?_⟩
  obtain ⟨d, rfl⟩ := Nat.exists_eq_add_of_le hij
  clear hij
  induction d with
  | zero => exact ⟨[], (List.append_nil _).symm, .nil _⟩
  | succ d ih =>
    obtain ⟨l', hl, hserves⟩ := ih
    obtain ⟨l'', hl', hserves'⟩ := (hf (i + d)).2
    refine ⟨l' ++ l'', ?_, hserves.append hserves'⟩
    rw [← List.append_assoc, ← hl]
    exact hl'

end Linearization

end Effects
