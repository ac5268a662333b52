import Mathlib.Logic.Basic

/-!
# Effectful programs and protocols

A program over a signature of operations `Op` with results `Res` is a tree: it returns a value,
or performs an operation and continues with the result it gets. Code that may raise is a program
that returns an `Except` (`Action`). A program says nothing about what an operation does; that is
the business of whoever runs it.

An `Interface` says what an operation needs for something to hold after it, and `Prog.wp` what a
whole program needs. Two kinds of interface are used. A `Protocol` is an automaton over operations
and their results; a program that follows it only performs operations the protocol has a move for,
whatever results come back. Such a text is walked once, and from then on only the phases matter. For
a relation that executes operations, `wp` is total correctness (`Interface.executing`), or says that
there is an execution (`Interface.possible`).
-/

namespace Effects

/-- Programs over the operations `Op` with results `Res`, returning an `α`. -/
inductive Prog (Op : Type) (Res : Op → Type) (α : Type) : Type
  | ret (a : α)
  | op (o : Op) (k : Res o → Prog Op Res α)

namespace Prog

variable {Op : Type} {Res : Op → Type} {α β γ : Type}

/-- Run a program and continue with its value. -/
def bind : Prog Op Res α → (α → Prog Op Res β) → Prog Op Res β
  | .ret a, f => f a
  | .op o k, f => .op o fun r => (k r).bind f

instance : Monad (Prog Op Res) where
  pure := .ret
  bind := bind

/-- The program that performs one operation and returns its result. -/
def perform (o : Op) : Prog Op Res (Res o) := .op o .ret

@[simp] theorem bind_ret (a : α) (f : α → Prog Op Res β) : (ret a).bind f = f a := rfl

@[simp] theorem bind_op (o : Op) (k : Res o → Prog Op Res α) (f : α → Prog Op Res β) :
    (op o k).bind f = op o fun r => (k r).bind f := rfl

@[simp] theorem pure_eq (a : α) : (pure a : Prog Op Res α) = ret a := rfl

@[simp] theorem bind_eq (p : Prog Op Res α) (f : α → Prog Op Res β) : p >>= f = p.bind f := rfl

end Prog

/-- What an operation needs: `pre o K φ` says of a phase `φ` in which the operation `o` is performed
that its results and the phases they lead to satisfy `K`. -/
structure Interface (Op : Type) (Res : Op → Type) where
  Phase : Type
  pre : (o : Op) → (Res o → Phase → Prop) → Phase → Prop
  mono : ∀ {o K K' φ}, pre o K φ → (∀ r ψ, K r ψ → K' r ψ) → pre o K' φ

/-- An automaton over the operations of a signature: `move φ o r φ'` allows, in phase `φ`, the
operation `o`, and its result `r` leads to the phase `φ'`. -/
structure Protocol (Op : Type) (Res : Op → Type) where
  Phase : Type
  move : Phase → (o : Op) → Res o → Phase → Prop

section Interfaces

variable {Op : Type} {Res : Op → Type}

/-- A protocol must have a move for every result. -/
abbrev Protocol.interface (P : Protocol Op Res) : Interface Op Res where
  Phase := P.Phase
  pre o K φ := ∀ r, ∃ φ', P.move φ o r φ' ∧ K r φ'
  mono h hK r := (h r).imp fun _ h => ⟨h.1, hK _ _ h.2⟩

instance : Coe (Protocol Op Res) (Interface Op Res) := ⟨Protocol.interface⟩

/-- Operations are executed on a state: one must have an outcome, and every outcome counts. -/
abbrev Interface.executing {S : Type} (exec : (o : Op) → Res o → S → S → Prop) :
    Interface Op Res where
  Phase := S
  pre o K s := (∃ r s', exec o r s s') ∧ ∀ r s', exec o r s s' → K r s'
  mono h hK := ⟨h.1, fun r s' he => hK r s' (h.2 r s' he)⟩

/-- Operations are executed on a state: one outcome is enough. -/
abbrev Interface.possible {S : Type} (exec : (o : Op) → Res o → S → S → Prop) :
    Interface Op Res where
  Phase := S
  pre o K s := ∃ r s', exec o r s s' ∧ K r s'
  mono h hK := by
    obtain ⟨r, s', he, h⟩ := h
    exact ⟨r, s', he, hK r s' h⟩

end Interfaces

namespace Prog

variable {Op : Type} {Res : Op → Type} {α β : Type} (I : Interface Op Res)

/-- What has to hold of a phase for a program started in it to end with a value and a phase that
satisfy `post`. -/
def wp : Prog Op Res α → (α → I.Phase → Prop) → I.Phase → Prop
  | .ret a, post, φ => post a φ
  | .op o k, post, φ => I.pre o (fun r φ' => (k r).wp post φ') φ

@[simp] theorem wp_ret (a : α) (post : α → I.Phase → Prop) (φ : I.Phase) :
    (ret a : Prog Op Res α).wp I post φ ↔ post a φ := Iff.rfl

theorem wp_op (o : Op) (k : Res o → Prog Op Res α) (post : α → I.Phase → Prop) (φ : I.Phase) :
    (op o k).wp I post φ ↔ I.pre o (fun r φ' => (k r).wp I post φ') φ := Iff.rfl

theorem wp_mono {p : Prog Op Res α} {post post' : α → I.Phase → Prop} {φ : I.Phase}
    (h : p.wp I post φ) (hp : ∀ a ψ, post a ψ → post' a ψ) : p.wp I post' φ := by
  induction p generalizing φ with
  | ret a => exact hp a φ h
  | op o k ih => exact I.mono h fun r ψ hk => ih r hk

theorem wp_bind (p : Prog Op Res α) (f : α → Prog Op Res β) (post : β → I.Phase → Prop)
    (φ : I.Phase) :
    (p.bind f).wp I post φ ↔ p.wp I (fun a ψ => (f a).wp I post ψ) φ := by
  induction p generalizing φ with
  | ret a => rfl
  | op o k ih => simp only [bind_op, wp_op, ih]

end Prog

/-! ## Programs that raise -/

/-- A program that returns an `α` or raises an `ε`. -/
abbrev Action (Op : Type) (Res : Op → Type) (ε α : Type) : Type := ExceptT ε (Prog Op Res) α

namespace Prog

variable {Op : Type} {Res : Op → Type} {α : Type} {P Q : Protocol Op Res}

/-- A protocol that contains another one is followed by the code that follows the other one. -/
theorem wp_map {f : P.Phase → Q.Phase} (hf : ∀ φ o r φ', P.move φ o r φ' → Q.move (f φ) o r (f φ'))
    {p : Prog Op Res α} {post : α → P.Phase → Prop} {post' : α → Q.Phase → Prop} {φ : P.Phase}
    (h : p.wp P post φ) (hpost : ∀ a ψ, post a ψ → post' a (f ψ)) : p.wp Q post' (f φ) := by
  induction p generalizing φ with
  | ret a => exact hpost a φ h
  | op o k ih =>
    intro r
    obtain ⟨φ', hm, hk⟩ := h r
    exact ⟨f φ', hf _ _ _ _ hm, ih r hk⟩

/-- What holds of the phases a program can end in held of the phase it starts in, if no move makes it
true. -/
theorem of_wp [∀ o, Nonempty (Res o)] (inv : P.Phase → Prop)
    (hback : ∀ {φ o r φ'}, P.move φ o r φ' → inv φ' → inv φ) {p : Prog Op Res α}
    {post : α → P.Phase → Prop} (hpost : ∀ a ψ, post a ψ → inv ψ) {φ : P.Phase}
    (h : p.wp P post φ) : inv φ := by
  induction p generalizing φ with
  | ret a => exact hpost a φ h
  | op o k ih =>
    obtain ⟨r⟩ : Nonempty (Res o) := inferInstance
    obtain ⟨φ', hm, hk⟩ := h r
    exact hback hm (ih r hk)

end Prog

namespace Action

variable {Op : Type} {Res : Op → Type} {ε α β : Type}

/-- An operation that cannot raise. -/
def lift (o : Op) : Action Op Res ε (Res o) := ExceptT.lift (Prog.perform o)

/-- A computation without effects that may raise. -/
def ofExcept (x : Except ε α) : Action Op Res ε α := ExceptT.mk (.ret x)

/-- Run an action and hand over what it did, value or exception. -/
def attempt (x : Action Op Res ε α) : Action Op Res ε (Except ε α) :=
  ExceptT.mk (x.run.bind fun r => .ret (.ok r))

/-- Run `x`, then `cleanup` on every way out, as an `async with` block does. -/
def within (x : Action Op Res ε α) (cleanup : Action Op Res ε Unit) : Action Op Res ε α := do
  let r ← attempt x
  cleanup
  ofExcept r

variable (I : Interface Op Res)

/-- `Prog.wp` for code that raises, with one postcondition for each way out. -/
def wp (x : Action Op Res ε α) (ok : α → I.Phase → Prop) (err : ε → I.Phase → Prop)
    (φ : I.Phase) : Prop :=
  x.run.wp I (fun r ψ => match r with | .ok a => ok a ψ | .error e => err e ψ) φ

variable {I} {ok : α → I.Phase → Prop} {err : ε → I.Phase → Prop} {φ : I.Phase}

theorem wp_mono {x : Action Op Res ε α} {ok' : α → I.Phase → Prop} {err' : ε → I.Phase → Prop}
    (h : x.wp I ok err φ) (hok : ∀ a ψ, ok a ψ → ok' a ψ) (herr : ∀ e ψ, err e ψ → err' e ψ) :
    x.wp I ok' err' φ := by
  refine Prog.wp_mono I h ?_
  rintro (e | a) ψ hψ
  · exact herr e ψ hψ
  · exact hok a ψ hψ

@[simp] theorem wp_pure (a : α) : (pure a : Action Op Res ε α).wp I ok err φ ↔ ok a φ := Iff.rfl

@[simp] theorem wp_throw (e : ε) :
    (throw e : Action Op Res ε α).wp I ok err φ ↔ err e φ := Iff.rfl

@[simp] theorem wp_ofExcept_ok (a : α) :
    (ofExcept (.ok a) : Action Op Res ε α).wp I ok err φ ↔ ok a φ := Iff.rfl

@[simp] theorem wp_ofExcept_error (e : ε) :
    (ofExcept (.error e) : Action Op Res ε α).wp I ok err φ ↔ err e φ := Iff.rfl

@[simp] theorem wp_bind (x : Action Op Res ε α) (f : α → Action Op Res ε β)
    {ok : β → I.Phase → Prop} :
    (x >>= f).wp I ok err φ ↔ x.wp I (fun a ψ => (f a).wp I ok err ψ) err φ := by
  unfold wp
  rw [ExceptT.run_bind, Prog.bind_eq, Prog.wp_bind]
  constructor <;> refine fun h => Prog.wp_mono I h ?_ <;> rintro (e | a) ψ hψ <;> exact hψ

@[simp] theorem wp_tryCatch (x : Action Op Res ε α) (f : ε → Action Op Res ε α) :
    (tryCatch x f).wp I ok err φ ↔ x.wp I ok (fun e ψ => (f e).wp I ok err ψ) φ := by
  unfold wp
  change (Prog.bind x.run _).wp I _ φ ↔ _
  rw [Prog.wp_bind]
  constructor <;> refine fun h => Prog.wp_mono I h ?_ <;> rintro (e | a) ψ hψ <;> exact hψ

@[simp] theorem wp_attempt (x : Action Op Res ε α) {ok : Except ε α → I.Phase → Prop} :
    (attempt x).wp I ok err φ ↔ x.wp I (fun a => ok (.ok a)) (fun e => ok (.error e)) φ := by
  unfold wp attempt
  change (Prog.bind x.run _).wp I _ φ ↔ _
  rw [Prog.wp_bind]
  constructor <;> refine fun h => Prog.wp_mono I h ?_ <;> rintro (e | a) ψ hψ <;> exact hψ

@[simp] theorem wp_within (x : Action Op Res ε α) (cleanup : Action Op Res ε Unit) :
    (within x cleanup).wp I ok err φ ↔
      x.wp I (fun a => cleanup.wp I (fun _ => ok a) err) (fun e => cleanup.wp I (fun _ => err e) err)
        φ := by
  simp only [within, wp_bind, wp_attempt, wp_ofExcept_ok, wp_ofExcept_error]

theorem wp_lift (o : Op) {ok : Res o → I.Phase → Prop} :
    (lift o : Action Op Res ε (Res o)).wp I ok err φ ↔
      I.pre o ok φ := Iff.rfl

end Action

end Effects
