import Mathlib.Data.Nat.Notation
import Mathlib.Logic.Function.Basic

/-!
# Tables with row locks

A table of a transactional store, seen by concurrent transactions numbered by naturals: the
committed rows, the exclusive row locks (`SELECT … FOR UPDATE`), and the rows each transaction has
written but not committed. The structure carries what the store guarantees: rows stand under their
own keys, only existing rows are locked, and a pending row belongs to the transaction that locked
the row it replaces or inserts it under a key nobody else has.

`Step t` collects everything a transaction can do to a table. Whatever it is, a row locked by
another transaction stays as it was (`Step.frame`), and the committed rows only change to what
`t` had pending (`Step.rows_cases`).
-/

namespace Store

/-- A table with keys `K`, rows `R` and the key `key r` of each row. -/
structure Table (K R : Type) (key : R → K) where
  /-- The committed rows. -/
  rows : K → Option R
  /-- The transaction that holds the lock of a row. -/
  lock : K → Option ℕ
  /-- The rows a transaction has written and not committed. -/
  pending : ℕ → K → Option R
  key_rows : ∀ {k r}, rows k = some r → key r = k
  key_pending : ∀ {t k r}, pending t k = some r → key r = k
  locked : ∀ {k t}, lock k = some t → (rows k).isSome
  owned : ∀ {t k r}, pending t k = some r →
    lock k = some t ∨ (rows k = none ∧ ∀ t', t' ≠ t → pending t' k = none)

namespace Table

variable {K R : Type} {key : R → K}

/-- The table without rows. -/
def empty : Table K R key where
  rows _ := none
  lock _ := none
  pending _ _ := none
  key_rows h := by simp at h
  key_pending h := by simp at h
  locked h := by simp at h
  owned h := by simp at h

variable (T : Table K R key)

/-- Transaction `t` may lock row `k` now. -/
def Free (t : ℕ) (k : K) : Prop := T.lock k = none ∨ T.lock k = some t

/-- The locks after transaction `t` has ended. -/
def released (t : ℕ) (k : K) : Option ℕ := if T.lock k = some t then none else T.lock k

/-- End a transaction and make its pending rows the committed ones. -/
def commit (t : ℕ) : Table K R key where
  rows k := (T.pending t k).or (T.rows k)
  lock := T.released t
  pending := Function.update T.pending t fun _ => none
  key_rows {k r} h := by
    rcases Option.or_eq_some_iff.mp h with h | ⟨-, h⟩
    · exact T.key_pending h
    · exact T.key_rows h
  key_pending {t' k r} h := by
    by_cases ht : t' = t
    · subst ht
      simp at h
    · exact T.key_pending (by simpa [ht] using h)
  locked {k t'} h := by
    have hl : T.lock k = some t' := by
      unfold released at h
      split at h <;> simp_all
    rw [Option.isSome_or, T.locked hl, Bool.or_true]
  owned {t' k r} h := by
    have ht : t' ≠ t := by
      rintro rfl
      simp at h
    rw [Function.update_of_ne ht] at h
    rcases T.owned h with hl | ⟨hr, ho⟩
    · refine .inl ?_
      unfold released
      rw [if_neg (by rw [hl]; simpa using ht), hl]
    · refine .inr ⟨by rw [ho t ht.symm, hr]; rfl, fun t'' ht' => ?_⟩
      by_cases htt : t'' = t
      · simp [htt]
      · simpa [htt] using ho t'' ht'

/-- End a transaction and drop its pending rows. -/
def rollback (t : ℕ) : Table K R key where
  rows := T.rows
  lock := T.released t
  pending := Function.update T.pending t fun _ => none
  key_rows := T.key_rows
  key_pending {t' k r} h := by
    by_cases ht : t' = t
    · subst ht
      simp at h
    · exact T.key_pending (by simpa [ht] using h)
  locked {k t'} h := by
    refine T.locked (t := t') ?_
    unfold released at h
    split at h <;> simp_all
  owned {t' k r} h := by
    have ht : t' ≠ t := by
      rintro rfl
      simp at h
    rw [Function.update_of_ne ht] at h
    rcases T.owned h with hl | ⟨hr, ho⟩
    · refine .inl ?_
      unfold released
      rw [if_neg (by rw [hl]; simpa using ht), hl]
    · refine .inr ⟨hr, fun t'' ht' => ?_⟩
      by_cases htt : t'' = t
      · simp [htt]
      · simpa [htt] using ho t'' ht'

/-- End the transactions other than `t`, and drop their pending rows. -/
def alone (t : ℕ) : Table K R key where
  rows := T.rows
  lock k := if T.lock k = some t then some t else none
  pending t' := if t' = t then T.pending t else fun _ => none
  key_rows := T.key_rows
  key_pending {t' k r} h := by
    split at h
    · exact T.key_pending h
    · simp at h
  locked {k t'} h := by
    split at h
    · rename_i hl
      exact T.locked hl
    · simp at h
  owned {t' k r} h := by
    split at h
    · rename_i ht
      subst ht
      rcases T.owned h with hl | ⟨hr, -⟩
      · exact .inl (if_pos hl)
      · exact .inr ⟨hr, fun t'' ht => by rw [if_neg ht]⟩
    · simp at h

section Ending

variable {T} {t : ℕ} {k : K}

@[simp] theorem rows_alone : (T.alone t).rows = T.rows := rfl

@[simp] theorem pending_alone_self : (T.alone t).pending t = T.pending t := if_pos rfl

theorem pending_alone {t' : ℕ} (ht : t' ≠ t) : (T.alone t).pending t' k = none :=
  congrFun (if_neg ht) k

@[simp] theorem rows_commit : (T.commit t).rows k = (T.pending t k).or (T.rows k) := rfl

@[simp] theorem pending_commit : (T.commit t).pending t k = none := by simp [Table.commit]

@[simp] theorem lock_commit : (T.commit t).lock = T.released t := rfl

theorem released_commit : (T.commit t).released t = T.released t := by
  funext k
  unfold released
  rw [lock_commit]
  unfold released
  split <;> simp_all

@[simp] theorem rows_rollback : (T.rollback t).rows = T.rows := rfl

@[simp] theorem pending_rollback : (T.rollback t).pending t k = none := by simp [Table.rollback]

@[simp] theorem lock_rollback : (T.rollback t).lock = T.released t := rfl

end Ending

variable [DecidableEq K]

/-- Lock rows. -/
def acquire (t : ℕ) (ks : List K) (hfree : ∀ k ∈ ks, T.Free t k)
    (hrow : ∀ k ∈ ks, (T.rows k).isSome) : Table K R key where
  rows := T.rows
  lock k := if k ∈ ks then some t else T.lock k
  pending := T.pending
  key_rows := T.key_rows
  key_pending := T.key_pending
  locked {k t'} h := by
    by_cases hk : k ∈ ks
    · exact hrow k hk
    · exact T.locked (by simpa [hk] using h)
  owned {t' k r} h := by
    rcases T.owned h with hl | hn
    · by_cases hk : k ∈ ks
      · rcases hfree k hk with hf | hf <;> simp_all
      · exact .inl (by simpa [hk] using hl)
    · exact .inr hn

/-- Write rows the transaction has locked. -/
def update (t : ℕ) (rs : List R) (h : ∀ r ∈ rs, T.lock (key r) = some t) : Table K R key where
  rows := T.rows
  lock := T.lock
  pending := Function.update T.pending t fun k =>
    (rs.find? fun r => key r = k).or (T.pending t k)
  key_rows := T.key_rows
  key_pending {t' k r} hp := by
    by_cases ht : t' = t
    · subst ht
      rw [Function.update_self, Option.or_eq_some_iff] at hp
      rcases hp with hp | ⟨-, hp⟩
      · simpa using List.find?_some hp
      · exact T.key_pending hp
    · exact T.key_pending (by simpa [ht] using hp)
  locked := T.locked
  owned {t' k r} hp := by
    have hother : ∀ t'', t'' ≠ t → Function.update T.pending t (fun k =>
        (rs.find? fun r => key r = k).or (T.pending t k)) t'' k = T.pending t'' k := by
      intro t'' ht
      simp [ht]
    by_cases ht : t' = t
    · subst ht
      rw [Function.update_self, Option.or_eq_some_iff] at hp
      rcases hp with hp | ⟨-, hp⟩
      · have hk : key r = k := by simpa using List.find?_some hp
        exact .inl (hk ▸ h r (List.mem_of_find?_eq_some hp))
      · rcases T.owned hp with hl | ⟨hr, ho⟩
        · exact .inl hl
        · exact .inr ⟨hr, fun t'' ht' => (hother t'' ht').trans (ho t'' ht')⟩
    · rw [hother t' ht] at hp
      rcases T.owned hp with hl | ⟨hr, ho⟩
      · exact .inl hl
      · refine .inr ⟨hr, fun t'' ht' => ?_⟩
        by_cases htt : t'' = t
        · subst htt
          rw [Function.update_self, ho t'' ht', Option.or_none, List.find?_eq_none]
          intro r' hr' he
          have := T.locked (h r' hr')
          simp_all
        · rw [hother t'' htt, ho t'' ht']

/-- Insert a row under a key that no committed row and no other transaction has. -/
def insert (t : ℕ) (r : R) (hrow : T.rows (key r) = none)
    (hother : ∀ t', t' ≠ t → T.pending t' (key r) = none) : Table K R key where
  rows := T.rows
  lock := T.lock
  pending := Function.update T.pending t (Function.update (T.pending t) (key r) (some r))
  key_rows := T.key_rows
  key_pending {t' k r'} hp := by
    by_cases ht : t' = t
    · subst ht
      by_cases hk : k = key r
      · subst hk
        simp only [Function.update_self, Option.some.injEq] at hp
        rw [hp]
      · exact T.key_pending (by simpa [hk] using hp)
    · exact T.key_pending (by simpa [ht] using hp)
  locked := T.locked
  owned {t' k r'} hp := by
    by_cases ht : t' = t
    · subst ht
      by_cases hk : k = key r
      · subst hk
        exact .inr ⟨hrow, fun t'' ht' => by simpa [ht'] using hother t'' ht'⟩
      · rw [Function.update_self, Function.update_of_ne hk] at hp
        rcases T.owned hp with hl | ⟨hr, ho⟩
        · exact .inl hl
        · exact .inr ⟨hr, fun t'' ht' => by simpa [ht'] using ho t'' ht'⟩
    · rw [Function.update_of_ne ht] at hp
      rcases T.owned hp with hl | ⟨hr, ho⟩
      · exact .inl hl
      · refine .inr ⟨hr, fun t'' ht' => ?_⟩
        by_cases htt : t'' = t
        · subst htt
          have hk : k ≠ key r := by
            rintro rfl
            rw [hother t' ht] at hp
            simp at hp
          simpa [hk] using ho t'' ht'
        · simpa [htt] using ho t'' ht'

/-! ## What a transaction can do -/

/-- Everything transaction `t` can do to a table in one operation. -/
inductive Step (t : ℕ) : Table K R key → Table K R key → Prop
  | keep (T : Table K R key) : Step t T T
  | acquire (T : Table K R key) {ks : List K} (hfree : ∀ k ∈ ks, T.Free t k)
      (hrow : ∀ k ∈ ks, (T.rows k).isSome) : Step t T (T.acquire t ks hfree hrow)
  | update (T : Table K R key) {rs : List R} (h : ∀ r ∈ rs, T.lock (key r) = some t) :
      Step t T (T.update t rs h)
  | insert (T : Table K R key) {r : R} (hrow : T.rows (key r) = none)
      (hother : ∀ t', t' ≠ t → T.pending t' (key r) = none) : Step t T (T.insert t r hrow hother)
  | commit (T : Table K R key) : Step t T (T.commit t)
  | rollback (T : Table K R key) : Step t T (T.rollback t)

variable {T} {T' : Table K R key} {t t' : ℕ} {k : K} {r : R}

/-- The committed rows only change to what the transaction had pending. -/
theorem Step.rows_cases (h : Step t T T') (k : K) :
    T'.rows k = T.rows k ∨ ∃ r, T.pending t k = some r ∧ T'.rows k = some r := by
  cases h with
  | commit =>
    cases hp : T.pending t k with
    | none => exact .inl (by simp [Table.commit, hp])
    | some r => exact .inr ⟨r, rfl, by simp [Table.commit, hp]⟩
  | _ => exact .inl rfl

/-- What another transaction has pending stays. -/
theorem Step.pending_frame (h : Step t T T') (ht : t' ≠ t) : T'.pending t' = T.pending t' := by
  cases h <;> simp [Table.acquire, Table.update, Table.insert, Table.commit, Table.rollback, ht]

/-- The lock of another transaction stays. -/
theorem Step.lock_frame (h : Step t T T') (ht : t' ≠ t) (hl : T.lock k = some t') :
    T'.lock k = some t' := by
  cases h with
  | @acquire ks hfree hrow =>
    have hk : k ∉ ks := fun hk => by rcases hfree k hk with hf | hf <;> simp_all
    simpa [Table.acquire, hk] using hl
  | commit => simp [Table.commit, released, hl, ht]
  | rollback => simp [Table.rollback, released, hl, ht]
  | _ => exact hl

/-- A transaction locks rows for itself only. -/
theorem Step.lock_back (h : Step t T T') (ht : t' ≠ t) (hl : T'.lock k = some t') :
    T.lock k = some t' := by
  cases h with
  | @acquire ks hfree hrow =>
    have hk : k ∉ ks := fun hk => by simp [Table.acquire, hk, Ne.symm ht] at hl
    simpa [Table.acquire, hk] using hl
  | commit =>
    by_cases hk : T.lock k = some t
    · simp [Table.commit, released, hk] at hl
    · simpa [Table.commit, released, hk] using hl
  | rollback =>
    by_cases hk : T.lock k = some t
    · simp [Table.rollback, released, hk] at hl
    · simpa [Table.rollback, released, hk] using hl
  | _ => exact hl

/-- A row locked by another transaction stays as it is. -/
theorem Step.rows_frame (h : Step t T T') (ht : t' ≠ t) (hl : T.lock k = some t') :
    T'.rows k = T.rows k := by
  rcases h.rows_cases k with hk | ⟨r, hp, -⟩
  · exact hk
  · rcases T.owned hp with ho | ⟨hn, -⟩
    · rw [hl] at ho
      simp_all
    · have := T.locked hl
      simp_all

/-- A row that another transaction inserts stays absent until that transaction ends. -/
theorem Step.absent_frame (h : Step t T T') (ht : t' ≠ t) (hp : T.pending t' k = some r)
    (hr : T.rows k = none) : T'.rows k = none := by
  rcases h.rows_cases k with hk | ⟨r', hp', -⟩
  · exact hk.trans hr
  · rcases T.owned hp' with ho | ⟨-, ho⟩
    · have := T.locked ho
      simp [hr] at this
    · rw [ho t' ht] at hp
      simp at hp

/-- A row that is committed, or that a transaction has written. -/
def Visible (T : Table K R key) (k : K) (r : R) : Prop :=
  T.rows k = some r ∨ ∃ t, T.pending t k = some r

omit [DecidableEq K] in
theorem Visible.key_eq (h : T.Visible k r) : key r = k := by
  rcases h with hr | ⟨t, hp⟩
  · exact T.key_rows hr
  · exact T.key_pending hp

/-- A transaction makes visible what it has pending. -/
theorem Step.visible (h : Step t T T') (hv : T'.Visible k r) :
    T.Visible k r ∨ T'.pending t k = some r := by
  rcases hv with hr | ⟨t', hp⟩
  · rcases h.rows_cases k with hk | ⟨r', hp, hr'⟩
    · exact .inl (.inl (hk ▸ hr))
    · exact .inl (.inr ⟨t, by rw [hp, ← hr', hr]⟩)
  · by_cases ht : t' = t
    · exact .inr (ht ▸ hp)
    · exact .inl (.inr ⟨t', by rwa [← h.pending_frame ht]⟩)

/-! ## Reading the operations back -/

section Acquiring

variable {ks : List K} (hfree : ∀ k ∈ ks, T.Free t k) (hrow : ∀ k ∈ ks, (T.rows k).isSome)

@[simp] theorem rows_acquire : (T.acquire t ks hfree hrow).rows = T.rows := rfl

@[simp] theorem pending_acquire : (T.acquire t ks hfree hrow).pending = T.pending := rfl

@[simp] theorem lock_acquire :
    (T.acquire t ks hfree hrow).lock k = if k ∈ ks then some t else T.lock k := rfl

end Acquiring

@[simp] theorem rows_update {rs : List R} (h : ∀ r ∈ rs, T.lock (key r) = some t) :
    (T.update t rs h).rows = T.rows := rfl

@[simp] theorem lock_update {rs : List R} (h : ∀ r ∈ rs, T.lock (key r) = some t) :
    (T.update t rs h).lock = T.lock := rfl

@[simp] theorem pending_update {rs : List R} (h : ∀ r ∈ rs, T.lock (key r) = some t) :
    (T.update t rs h).pending t k = (rs.find? fun r => key r = k).or (T.pending t k) := by
  simp [Table.update]

@[simp] theorem rows_insert (hr : T.rows (key r) = none)
    (ho : ∀ t', t' ≠ t → T.pending t' (key r) = none) : (T.insert t r hr ho).rows = T.rows := rfl

@[simp] theorem lock_insert (hr : T.rows (key r) = none)
    (ho : ∀ t', t' ≠ t → T.pending t' (key r) = none) : (T.insert t r hr ho).lock = T.lock := rfl

@[simp] theorem pending_insert (hr : T.rows (key r) = none)
    (ho : ∀ t', t' ≠ t → T.pending t' (key r) = none) :
    (T.insert t r hr ho).pending t = Function.update (T.pending t) (key r) (some r) := by
  simp [Table.insert]

/-! ## What a transaction knows -/

/-- Transaction `t` has the rows `rs` pending and no others. -/
def Wrote (T : Table K R key) (t : ℕ) (rs : List R) : Prop :=
  ∀ k, T.pending t k = rs.find? fun r => key r = k

/-- Transaction `t` has locked the row `r`, as it is committed. -/
structure Holds (T : Table K R key) (t : ℕ) (r : R) : Prop where
  lock : T.lock (key r) = some t
  row : T.rows (key r) = some r

section Knowledge

variable {rs : List R}

theorem wrote_empty : (empty : Table K R key).Wrote t [] := fun _ => rfl

theorem wrote_commit : (T.commit t).Wrote t [] := fun _ => pending_commit

theorem wrote_rollback : (T.rollback t).Wrote t [] := fun _ => pending_rollback

theorem Wrote.acquire (h : T.Wrote t rs) {ks : List K} (hfree : ∀ k ∈ ks, T.Free t k)
    (hrow : ∀ k ∈ ks, (T.rows k).isSome) : (T.acquire t ks hfree hrow).Wrote t rs := h

theorem Wrote.update (h : T.Wrote t []) (hl : ∀ r ∈ rs, T.lock (key r) = some t) :
    (T.update t rs hl).Wrote t rs := fun k => by
  rw [pending_update, h k]
  simp

theorem Wrote.insert (h : T.Wrote t []) (hr : T.rows (key r) = none)
    (ho : ∀ t', t' ≠ t → T.pending t' (key r) = none) : (T.insert t r hr ho).Wrote t [r] := by
  intro k
  by_cases hk : key r = k
  · subst hk
    simp
  · rw [pending_insert, Function.update_of_ne (Ne.symm hk), h k]
    simp [hk]

/-- What a transaction wrote is not touched by the others. -/
theorem Wrote.frame (h : T.Wrote t rs) (hs : Step t' T T') (ht : t ≠ t') : T'.Wrote t rs := by
  intro k
  rw [hs.pending_frame ht, h k]

/-- What a transaction holds is not touched by the others. -/
theorem Holds.frame (h : T.Holds t r) (hs : Step t' T T') (ht : t ≠ t') : T'.Holds t r :=
  ⟨hs.lock_frame ht h.lock, (hs.rows_frame ht h.lock).trans h.row⟩

omit [DecidableEq K] in
/-- Two transactions do not hold one row. -/
theorem Holds.unique {r' : R} (h : T.Holds t r) (h' : T.Holds t' r') (hk : key r = key r') :
    t = t' := by
  have := h.lock
  rw [hk, h'.lock] at this
  exact (Option.some.inj this).symm

/-- The rows a commit leaves. -/
theorem Wrote.rows_commit (h : T.Wrote t rs) (k : K) :
    (T.commit t).rows k = (rs.find? fun r => key r = k).or (T.rows k) := by
  rw [Table.rows_commit, h k]

/-- A commit that replaces rows by related ones changes every row to a related one. -/
theorem Wrote.evolves {Rel : R → R → Prop} (hrefl : ∀ r, Rel r r) (h : T.Wrote t rs)
    (hrs : ∀ r' ∈ rs, ∀ r, T.rows (key r') = some r → Rel r r') (hr : T.rows k = some r) :
    ∃ r', (T.commit t).rows k = some r' ∧ Rel r r' := by
  rw [h.rows_commit]
  cases hf : rs.find? fun r => key r = k with
  | none => exact ⟨r, by simpa using hr, hrefl r⟩
  | some r' =>
    have hk : key r' = k := by simpa using List.find?_some hf
    exact ⟨r', rfl, hrs r' (List.mem_of_find?_eq_some hf) r (hk ▸ hr)⟩

/-- A row after a commit was there before, or is one of those the transaction wrote. -/
theorem Wrote.rows_commit_cases (h : T.Wrote t rs) (hr : (T.commit t).rows k = some r) :
    T.rows k = some r ∨ (r ∈ rs ∧ key r = k) := by
  rw [h.rows_commit] at hr
  rcases Option.or_eq_some_iff.mp hr with hr | ⟨-, hr⟩
  · exact .inr ⟨List.mem_of_find?_eq_some hr, by simpa using List.find?_some hr⟩
  · exact .inl hr

end Knowledge

end Table

end Store
