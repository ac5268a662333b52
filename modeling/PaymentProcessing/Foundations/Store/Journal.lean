import Mathlib.Algebra.Order.Ring.Nat
import Mathlib.Algebra.BigOperators.Group.Finset.Piecewise

/-!
# Journals of transactions

A history variable for concurrent transactions: every event ever, and the same events grouped by
transaction, the current ones and those that ended by taking effect (`committed`) or by being
undone (`aborted`). Lists run from the latest event back.

The books balance (`Balanced`): an event is in the history as often as it is in the committed,
aborted and current transactions together. A bound on how often an event can occur in one
transaction turns the sums into numbers of transactions (`Balanced.count_eq`).
-/

namespace Store

/-- The history of events `ε`. -/
structure Journal (ε : Type) where
  log : List ε
  /-- The events of a transaction since it began. -/
  current : ℕ → List ε
  committed : List (List ε)
  aborted : List (List ε)

namespace Journal

variable {ε : Type}

/-- Nothing has happened. -/
def empty : Journal ε := ⟨[], fun _ => [], [], []⟩

/-- Transaction `t` does `e`. -/
def record (J : Journal ε) (t : ℕ) (e : ε) : Journal ε where
  log := e :: J.log
  current := Function.update J.current t (e :: J.current t)
  committed := J.committed
  aborted := J.aborted

/-- The transaction of `t` takes effect, and its next one begins. -/
def commit (J : Journal ε) (t : ℕ) : Journal ε where
  log := J.log
  current := Function.update J.current t []
  committed := J.current t :: J.committed
  aborted := J.aborted

/-- The transaction of `t` is undone, and its next one begins. -/
def abort (J : Journal ε) (t : ℕ) : Journal ε where
  log := J.log
  current := Function.update J.current t []
  committed := J.committed
  aborted := J.current t :: J.aborted

variable {J : Journal ε} {t : ℕ} {e : ε}

@[simp] theorem log_record : (J.record t e).log = e :: J.log := rfl
@[simp] theorem committed_record : (J.record t e).committed = J.committed := rfl
@[simp] theorem aborted_record : (J.record t e).aborted = J.aborted := rfl
@[simp] theorem log_commit : (J.commit t).log = J.log := rfl
@[simp] theorem committed_commit : (J.commit t).committed = J.current t :: J.committed := rfl
@[simp] theorem aborted_commit : (J.commit t).aborted = J.aborted := rfl
@[simp] theorem log_abort : (J.abort t).log = J.log := rfl
@[simp] theorem committed_abort : (J.abort t).committed = J.committed := rfl
@[simp] theorem aborted_abort : (J.abort t).aborted = J.current t :: J.aborted := rfl

@[simp] theorem current_record (t' : ℕ) :
    (J.record t e).current t' = if t' = t then e :: J.current t else J.current t' := by
  simp [record, Function.update_apply]

@[simp] theorem current_commit (t' : ℕ) :
    (J.commit t).current t' = if t' = t then [] else J.current t' := by
  simp [commit, Function.update_apply]

@[simp] theorem current_abort (t' : ℕ) :
    (J.abort t).current t' = if t' = t then [] else J.current t' := by
  simp [abort, Function.update_apply]

/-- How often events of a kind occur in a list of transactions. -/
def total (p : ε → Bool) (l : List (List ε)) : ℕ := (l.map (List.countP p)).sum

@[simp] theorem total_nil (p : ε → Bool) : total p [] = 0 := rfl

@[simp] theorem total_cons (p : ε → Bool) (tr : List ε) (l : List (List ε)) :
    total p (tr :: l) = tr.countP p + total p l := rfl

/-- When no transaction has two such events, their number is a number of transactions. -/
theorem total_eq_countP {p : ε → Bool} {l : List (List ε)} (h : ∀ tr ∈ l, tr.countP p ≤ 1) :
    total p l = l.countP fun tr => tr.any p := by
  induction l with
  | nil => rfl
  | cons tr l ih =>
    have htr := h tr (by simp)
    have hl := ih fun tr' h' => h tr' (by simp [h'])
    rw [total_cons, hl, List.countP_cons]
    cases hany : tr.any p with
    | false =>
      have h0 : tr.countP p = 0 := by
        rw [List.countP_eq_zero]
        simpa using hany
      simp [h0]
    | true =>
      have hpos : 0 < tr.countP p := by
        rw [List.countP_pos_iff]
        simpa using hany
      simp only [if_true]
      omega

/-- The events are those of the transactions of the threads below `n`. -/
structure Balanced (J : Journal ε) (n : ℕ) : Prop where
  idle : ∀ t, n ≤ t → J.current t = []
  count : ∀ p : ε → Bool, J.log.countP p =
    total p J.committed + total p J.aborted + ∑ t ∈ Finset.range n, (J.current t).countP p

namespace Balanced

variable {n : ℕ}

theorem empty : (Journal.empty : Journal ε).Balanced 0 :=
  ⟨fun _ _ => rfl, fun _ => rfl⟩

/-- Starting another thread. -/
theorem succ (h : J.Balanced n) : J.Balanced (n + 1) := by
  refine ⟨fun t ht => h.idle t (by omega), fun p => ?_⟩
  rw [h.count p, Finset.sum_range_succ, h.idle n le_rfl, List.countP_nil, Nat.add_zero]

/-- The sum over the current transactions when one of them changes. -/
private theorem sum_update {f g : ℕ → ℕ} (ht : t < n) (hfg : ∀ i, i ≠ t → f i = g i) :
    ∑ i ∈ Finset.range n, f i + g t = ∑ i ∈ Finset.range n, g i + f t := by
  have hmem := Finset.mem_range.mpr ht
  have hf := Finset.add_sum_erase _ f hmem
  have hg := Finset.add_sum_erase _ g hmem
  have he : ∑ i ∈ (Finset.range n).erase t, f i = ∑ i ∈ (Finset.range n).erase t, g i :=
    Finset.sum_congr rfl fun i hi => hfg i (Finset.ne_of_mem_erase hi)
  omega

theorem record (h : J.Balanced n) (ht : t < n) : (J.record t e).Balanced n := by
  refine ⟨fun t' ht' => ?_, fun p => ?_⟩
  · rw [current_record, if_neg (by omega), h.idle t' ht']
  · have hs := sum_update (f := fun i => ((J.record t e).current i).countP p)
      (g := fun i => (J.current i).countP p) ht fun i hi => by simp [hi]
    have hc := h.count p
    simp only [current_record, if_true, List.countP_cons] at hs
    simp only [log_record, committed_record, aborted_record, current_record, List.countP_cons]
    omega

theorem commit (h : J.Balanced n) (ht : t < n) : (J.commit t).Balanced n := by
  refine ⟨fun t' ht' => ?_, fun p => ?_⟩
  · rw [current_commit, if_neg (by omega), h.idle t' ht']
  · have hs := sum_update (f := fun i => ((J.commit t).current i).countP p)
      (g := fun i => (J.current i).countP p) ht fun i hi => by simp [hi]
    have hc := h.count p
    simp only [current_commit, if_true, List.countP_nil] at hs
    simp only [log_commit, committed_commit, aborted_commit, current_commit, total_cons]
    omega

theorem abort (h : J.Balanced n) (ht : t < n) : (J.abort t).Balanced n := by
  refine ⟨fun t' ht' => ?_, fun p => ?_⟩
  · rw [current_abort, if_neg (by omega), h.idle t' ht']
  · have hs := sum_update (f := fun i => ((J.abort t).current i).countP p)
      (g := fun i => (J.current i).countP p) ht fun i hi => by simp [hi]
    have hc := h.count p
    simp only [current_abort, if_true, List.countP_nil] at hs
    simp only [log_abort, committed_abort, aborted_abort, current_abort, total_cons]
    omega

/-- An event in the history belongs to a transaction. -/
theorem mem (h : J.Balanced n) (he : e ∈ J.log) :
    (∃ tr ∈ J.committed, e ∈ tr) ∨ (∃ tr ∈ J.aborted, e ∈ tr) ∨ ∃ t, e ∈ J.current t := by
  classical
  have hpos : 0 < J.log.countP fun e' => decide (e' = e) := List.countP_pos_iff.mpr ⟨e, he, by simp⟩
  have htotal : ∀ {l : List (List ε)}, 0 < total (fun e' => decide (e' = e)) l →
      ∃ tr ∈ l, e ∈ tr := by
    intro l hl
    obtain ⟨x, hx, hne⟩ := List.exists_mem_ne_zero_of_sum_ne_zero hl.ne'
    obtain ⟨tr, htr, rfl⟩ := List.mem_map.mp hx
    obtain ⟨e', he', heq⟩ := List.countP_pos_iff.mp (Nat.pos_of_ne_zero hne)
    exact ⟨tr, htr, of_decide_eq_true heq ▸ he'⟩
  rw [h.count] at hpos
  by_cases hc : 0 < total (fun e' => decide (e' = e)) J.committed
  · exact .inl (htotal hc)
  · by_cases ha : 0 < total (fun e' => decide (e' = e)) J.aborted
    · exact .inr (.inl (htotal ha))
    · obtain ⟨t, -, ht⟩ := Finset.exists_ne_zero_of_sum_ne_zero (s := Finset.range n)
        (f := fun t => (J.current t).countP fun e' => decide (e' = e)) (by omega)
      obtain ⟨e', he', heq⟩ := List.countP_pos_iff.mp (Nat.pos_of_ne_zero ht)
      exact .inr (.inr ⟨t, of_decide_eq_true heq ▸ he'⟩)

/-- When no transaction has two events of a kind, the events in the history are as many as the
committed, the aborted and the current transactions with one. -/
theorem count_eq (h : J.Balanced n) {p : ε → Bool} (hc : ∀ tr ∈ J.committed, tr.countP p ≤ 1)
    (ha : ∀ tr ∈ J.aborted, tr.countP p ≤ 1) (hcur : ∀ t, (J.current t).countP p ≤ 1) :
    J.log.countP p = J.committed.countP (fun tr => tr.any p) +
      J.aborted.countP (fun tr => tr.any p) +
      ((Finset.range n).filter fun t => (J.current t).any p).card := by
  rw [h.count p, total_eq_countP hc, total_eq_countP ha, Finset.card_filter]
  refine congrArg _ (Finset.sum_congr rfl fun t _ => ?_)
  have h1 := total_eq_countP (l := [J.current t]) (by simpa using hcur t)
  simpa [List.countP_cons] using h1

end Balanced

end Journal

end Store
