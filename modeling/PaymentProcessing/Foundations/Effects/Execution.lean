import Mathlib.Data.List.Basic
import PaymentProcessing.Foundations.Effects.Prog

/-!
# Executions of programs

What a program does from its beginning to its end, in two ways. `Prog.Runs` is about the program
alone: it performs the operations of a trace and gets any results. `Prog.Executes` is about a state
on which the operations are executed. Both are decided by `Prog.wp`: for traces see
`wp_tracing_iff`, and for states `Executes.of_wp`.
-/

namespace Effects

variable {Op : Type} {Res : Op → Type} {α β : Type}

/-! ## Traces -/

/-- Operations with the results they had. -/
abbrev Trace (Op : Type) (Res : Op → Type) : Type := List ((o : Op) × Res o)

/-- The program performs the operations of a trace, gets the results, and returns a value. -/
inductive Prog.Runs : Prog Op Res α → Trace Op Res → α → Prop
  | ret (a : α) : Runs (.ret a) [] a
  | op {o : Op} {k : Res o → Prog Op Res α} {r : Res o} {tr : Trace Op Res} {a : α}
      (h : Runs (k r) tr a) : Runs (.op o k) (⟨o, r⟩ :: tr) a

/-- Every operation may have every result, and the trace is kept. -/
abbrev Interface.tracing : Interface Op Res where
  Phase := Trace Op Res
  pre o K tr := ∀ r, K r (tr ++ [⟨o, r⟩])
  mono h hK r := hK _ _ (h r)

/-- Only some operations are performed. -/
abbrev Interface.only (S : Op → Prop) : Interface Op Res where
  Phase := Unit
  pre o K u := S o ∧ ∀ r, K r u
  mono h hK := ⟨h.1, fun r => hK _ _ (h.2 r)⟩

namespace Prog

variable {p : Prog Op Res α} {tr : Trace Op Res}

/-- **What holds of every trace.** -/
theorem wp_tracing_iff {post : α → Trace Op Res → Prop} :
    p.wp .tracing post tr ↔ ∀ tr' a, p.Runs tr' a → post a (tr ++ tr') := by
  induction p generalizing tr with
  | ret a =>
    constructor
    · intro h tr' a' hr
      cases hr
      rwa [List.append_nil]
    · intro h
      simpa using h [] a (.ret a)
  | op o k ih =>
    constructor
    · intro h tr' a hr
      cases hr with
      | @op _ _ r tr' _ hr =>
        have hpost := (ih r).mp (h r) tr' a hr
        rwa [List.append_assoc, List.singleton_append] at hpost
    · intro h r
      apply (ih r).mpr
      intro tr' a hr
      rw [List.append_assoc, List.singleton_append]
      exact h _ a (.op hr)

/-- A trace has no other operations than those that are performed. -/
theorem Runs.only {S : Op → Prop} {post : α → Unit → Prop} {a : α} (hr : p.Runs tr a)
    (h : p.wp (.only S) post ()) : ∀ s ∈ tr, S s.1 := by
  induction hr with
  | ret a => simp
  | op hr ih =>
    intro s hs
    rcases List.mem_cons.mp hs with rfl | hs
    · exact h.1
    · exact ih (h.2 _) s hs

end Prog

/-- What holds of every trace of code that raises. -/
theorem Action.wp_tracing_iff {ε : Type} {x : Action Op Res ε α} {tr : Trace Op Res}
    {ok : α → Trace Op Res → Prop} {err : ε → Trace Op Res → Prop} :
    x.wp .tracing ok err tr ↔ (∀ tr' a, x.run.Runs tr' (.ok a) → ok a (tr ++ tr')) ∧
      ∀ tr' e, x.run.Runs tr' (.error e) → err e (tr ++ tr') := by
  unfold Action.wp
  rw [Prog.wp_tracing_iff]
  constructor
  · intro h
    exact ⟨fun tr' a hr => h tr' _ hr, fun tr' e hr => h tr' _ hr⟩
  · rintro ⟨hok, herr⟩ tr' (e | a) hr
    · exact herr tr' e hr
    · exact hok tr' a hr

/-- Code that raises performs operations of `S` only. -/
def Action.Only (S : Op → Prop) {ε : Type} (x : Action Op Res ε α) : Prop :=
  x.wp (.only S) (fun _ _ => True) (fun _ _ => True) ()

namespace Action.Only

variable {ε : Type} {S : Op → Prop} {x : Action Op Res ε α}

theorem wp (h : x.Only S) {ok : α → Unit → Prop} {err : ε → Unit → Prop} (hok : ∀ a, ok a ())
    (herr : ∀ e, err e ()) : x.wp (.only S) ok err () :=
  wp_mono h (fun a _ _ => hok a) fun e _ _ => herr e

theorem bind {f : α → Action Op Res ε β} (h : x.Only S) (hf : ∀ a, (f a).Only S) :
    (x >>= f).Only S := by
  unfold Only
  rw [wp_bind]
  exact h.wp hf fun _ => trivial

theorem attempt (h : x.Only S) : (Action.attempt x).Only S := by
  unfold Only
  rw [wp_attempt]
  exact h

theorem within {cleanup : Action Op Res ε Unit} (h : x.Only S) (hc : cleanup.Only S) :
    (Action.within x cleanup).Only S := by
  unfold Only
  rw [wp_within]
  exact h.wp (fun _ => hc) fun _ => hc

theorem tryCatch {f : ε → Action Op Res ε α} (h : x.Only S) (hf : ∀ e, (f e).Only S) :
    (tryCatch x f).Only S := by
  unfold Only
  rw [wp_tryCatch]
  exact h.wp (fun _ => trivial) hf

theorem lift {o : Op} (h : S o) : (Action.lift o : Action Op Res ε (Res o)).Only S :=
  ⟨h, fun _ => trivial⟩

/-- A trace has no other operations than those that are performed. -/
theorem runs (h : x.Only S) {tr : Trace Op Res} {out : Except ε α} (hr : x.run.Runs tr out) :
    ∀ s ∈ tr, S s.1 :=
  hr.only h

end Action.Only

/-! ## States -/

section States

variable {S : Type} {exec : (o : Op) → Res o → S → S → Prop} {s s' : S}

/-- The program is executed from one state to another and returns a value. -/
inductive Prog.Executes (exec : (o : Op) → Res o → S → S → Prop) :
    Prog Op Res α → S → α → S → Prop
  | ret (a : α) (s : S) : Executes exec (.ret a) s a s
  | op {o : Op} {k : Res o → Prog Op Res α} {r : Res o} {s s' s'' : S} {a : α}
      (hx : exec o r s s') (h : Executes exec (k r) s' a s'') : Executes exec (.op o k) s a s''

namespace Prog

variable {p : Prog Op Res α} {post post' : α → S → Prop} {a : α}

/-- More outcomes allow more executions. -/
theorem Executes.mono {exec' : (o : Op) → Res o → S → S → Prop} (h : p.Executes exec s a s')
    (hexec : ∀ o r s s', exec o r s s' → exec' o r s s') : p.Executes exec' s a s' := by
  induction h with
  | ret a s => exact .ret a s
  | op hx _ ih => exact .op (hexec _ _ _ _ hx) ih

/-- What every operation keeps. -/
theorem Executes.invariant {I : S → Prop} (he : p.Executes exec s a s')
    (hkeep : ∀ o r s s', exec o r s s' → I s → I s') (hs : I s) : I s' := by
  induction he with
  | ret a s => exact hs
  | op hx _ ih => exact ih (hkeep _ _ _ _ hx hs)

/-- A program that is totally correct ends as its postcondition says. -/
theorem Executes.of_wp (he : p.Executes exec s a s') (h : p.wp (.executing exec) post s) :
    post a s' := by
  induction he with
  | ret a s => exact h
  | op hx _ ih => exact ih (h.2 _ _ hx)

/-- An execution is possible. -/
theorem Executes.possible (he : p.Executes exec s a s') :
    p.wp (.possible exec) (fun a' s'' => a' = a ∧ s'' = s') s := by
  induction he with
  | ret a s => exact ⟨rfl, rfl⟩
  | op hx _ ih => exact ⟨_, _, hx, ih⟩

/-- A program that is totally correct can be executed. -/
theorem exists_executes (h : p.wp (.executing exec) post s) :
    ∃ a s', p.Executes exec s a s' := by
  induction p generalizing s with
  | ret a => exact ⟨a, s, .ret a s⟩
  | op o k ih =>
    obtain ⟨⟨r, s₁, hx⟩, hall⟩ := h
    obtain ⟨a, s', he⟩ := ih r (hall r s₁ hx)
    exact ⟨a, s', .op hx he⟩

/-- An outcome that is possible is the one of an execution. -/
theorem exists_executes_of_possible (h : p.wp (.possible exec) post s) :
    ∃ a s', p.Executes exec s a s' ∧ post a s' := by
  induction p generalizing s with
  | ret a => exact ⟨a, s, .ret a s, h⟩
  | op o k ih =>
    obtain ⟨r, s₁, hx, hk⟩ := h
    obtain ⟨a, s', he, hpost⟩ := ih r hk
    exact ⟨a, s', .op hx he, hpost⟩

/-- Two postconditions of a program that is totally correct hold of one execution. -/
theorem exists_executes_both (h : p.wp (.executing exec) post s)
    (h' : p.wp (.executing exec) post' s) : ∃ a s', post a s' ∧ post' a s' := by
  obtain ⟨a, s', he⟩ := exists_executes h
  exact ⟨a, s', he.of_wp h, he.of_wp h'⟩

end Prog

/-! ## Histories -/

/-- The operations a program has performed, with their results and the states they led to. -/
abbrev History (Op : Type) (Res : Op → Type) (S : Type) : Type := List ((o : Op) × Res o × S)

/-- Operations are executed on a state, and a history is kept. -/
def WithHistory (exec : (o : Op) → Res o → S → S → Prop) (o : Op) (r : Res o)
    (x x' : S × History Op Res S) : Prop :=
  exec o r x.1 x'.1 ∧ x'.2 = x.2 ++ [⟨o, r, x'.1⟩]

/-- An operation needs an outcome, and whatever comes of it is recorded. -/
theorem pre_withHistory {o : Op} {K : Res o → S × History Op Res S → Prop} {log : History Op Res S}
    (hsome : ∃ r s', exec o r s s')
    (hall : ∀ r s', exec o r s s' → K r (s', log ++ [⟨o, r, s'⟩])) :
    (Interface.executing (WithHistory exec)).pre o K (s, log) := by
  constructor
  · obtain ⟨r, s', hx⟩ := hsome
    exact ⟨r, (s', log ++ [⟨o, r, s'⟩]), hx, rfl⟩
  · rintro r ⟨s', log'⟩ ⟨hx, hlog⟩
    change log' = log ++ [⟨o, r, s'⟩] at hlog
    subst hlog
    exact hall r s' hx

/-- What a history records has been executed. -/
theorem Prog.Executes.of_mem {p : Prog Op Res α} {x x' : S × History Op Res S} {a : α}
    (h : p.Executes (WithHistory exec) x a x') {o : Op} {r : Res o} {s' : S}
    (hmem : ⟨o, r, s'⟩ ∈ x'.2) : ⟨o, r, s'⟩ ∈ x.2 ∨ ∃ s, exec o r s s' := by
  induction h with
  | ret a x => exact .inl hmem
  | op hx _ ih =>
    rcases ih hmem with hmem | hs
    · rw [hx.2, List.mem_append, List.mem_singleton] at hmem
      rcases hmem with hmem | heq
      · exact .inl hmem
      · cases heq
        exact .inr ⟨_, hx.1⟩
    · exact .inr hs

end States

end Effects
