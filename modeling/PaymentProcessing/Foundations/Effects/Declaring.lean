import PaymentProcessing.Foundations.Effects.Execution
import PaymentProcessing.Foundations.Effects.Machine

/-!
# Scripts that declare things

A script is a list of operations that are performed one after the other until one of them fails. A
`Registry` is a world in which things are declared: an operation is accepted or refused, what was
accepted is declared from then on, and declaring something twice is not refused because of the first
time.

Scripts of several threads may run at the same time and be cut off anywhere. When each operation is
accepted as soon as those before it in the script are declared (`Registry.Harmony`), no operation of
any thread is ever refused, and a thread that returns without an error has declared its whole script
(`Harmony.reachable`). What a script does that runs alone is `Registry.script_executes_iff`.
-/

namespace Effects

/-- Why an operation failed: it was refused, or the connection was lost. -/
inductive Fault (ε : Type)
  | refused
  | lost (error : ε)

instance {Op : Type} {Res : Op → Type} : LawfulMonad (Prog Op Res) := by
  refine LawfulMonad.mk' _ (fun p => ?_) (fun _ _ => rfl) (fun p f g => ?_)
  · induction p with
    | ret a => rfl
    | op o k ih => exact congrArg (Prog.op o) (funext ih)
  · induction p with
    | ret a => rfl
    | op o k ih => exact congrArg (Prog.op o) (funext ih)

section Script

variable {Op ε : Type}

/-- Operations that return nothing and may fail. -/
abbrev Faulty (Op ε : Type) : Op → Type := fun _ => Except (Fault ε) Unit

namespace Action

/-- Perform an operation, and raise what it fails with. -/
def perform (o : Op) : Action Op (Faulty Op ε) (Fault ε) Unit := ExceptT.mk (Prog.perform o)

/-- Perform operations one after the other. -/
def script : List Op → Action Op (Faulty Op ε) (Fault ε) Unit
  | [] => pure ()
  | o :: ops => do
    perform o
    script ops

end Action

/-- One script after another. -/
theorem Action.script_append (ops ops' : List Op) :
    (Action.script (ops ++ ops') : Action Op (Faulty Op ε) (Fault ε) Unit) =
      Action.script ops >>= fun _ => Action.script ops' := by
  induction ops with
  | nil => simp [Action.script]
  | cons o ops ih => simp only [List.cons_append, Action.script, ih, bind_assoc]

/-- What is left of a script after an operation; nothing is left when it has failed. -/
inductive ScriptMove : Option (List Op) → (o : Op) → Faulty Op ε o → Option (List Op) → Prop
  | done (o : Op) (rest : List Op) : ScriptMove (some (o :: rest)) o (.ok ()) (some rest)
  | failed (o : Op) (rest : List Op) (e : Fault ε) : ScriptMove (some (o :: rest)) o (.error e) none

/-- The protocol of a script. -/
abbrev scriptProtocol (Op ε : Type) : Protocol Op (Faulty Op ε) := ⟨Option (List Op), ScriptMove⟩

/-- A script keeps to its protocol, and what comes after it begins where it ends. -/
theorem Action.script_follows (ops rest : List Op) :
    (Action.script ops : Action Op (Faulty Op ε) (Fault ε) Unit).wp (scriptProtocol Op ε)
      (fun _ φ => φ = some rest) (fun _ φ => φ = none) (some (ops ++ rest)) := by
  induction ops with
  | nil => rfl
  | cons o ops ih =>
    rw [Action.script, Action.wp_bind]
    intro r
    cases r with
    | ok u => exact ⟨_, .done o _, ih⟩
    | error e => exact ⟨_, .failed o _ e, rfl⟩

end Script

/-- A world in which things are declared. -/
structure Registry where
  Op : Type
  World : Type
  Error : Type
  /-- The operation is not refused. -/
  accepts : World → Op → Prop
  /-- What becomes of the world when it is accepted. -/
  declare : World → Op → World
  /-- It has been declared. -/
  declared : World → Op → Prop
  declared_declare : ∀ {w o}, accepts w o → declared (declare w o) o
  declared_mono : ∀ {w o o'}, accepts w o' → declared w o → declared (declare w o') o
  /-- Declaring again changes nothing. -/
  declare_again : ∀ {w o}, declared w o → accepts w o ∧ declare w o = w

namespace Registry

variable (G : Registry)

/-- **What may come of an operation**: it takes effect, it takes effect and the answer is lost, it
is lost, or it is refused. -/
inductive Exec : (o : G.Op) → Faulty G.Op G.Error o → G.World → G.World → Prop
  | done {w : G.World} {o : G.Op} (h : G.accepts w o) : Exec o (.ok ()) w (G.declare w o)
  | answerLost {w : G.World} {o : G.Op} (h : G.accepts w o) (e : G.Error) :
      Exec o (.error (.lost e)) w (G.declare w o)
  | lost (w : G.World) (o : G.Op) (e : G.Error) : Exec o (.error (.lost e)) w w
  | refused {w : G.World} {o : G.Op} (h : ¬G.accepts w o) : Exec o (.error .refused) w w

/-- Any number of threads that run code of some kinds; a thread that is killed leaves everything as
it is. -/
abbrev machine {Kind : Type} (code : Kind → Action G.Op (Faulty G.Op G.Error) (Fault G.Error) Unit)
    (InUse : Kind → Prop) (init : G.World → Prop) : Machine where
  Op := G.Op
  Res := Faulty G.Op G.Error
  World := G.World
  Kind := Kind
  Out _ := Except (Fault G.Error) Unit
  code k := (code k).run
  init := init
  start _ k w w' := InUse k ∧ w' = w
  exec _ := G.Exec
  crash _ w w' := w' = w
  env _ _ := False

variable {G}

/-- An operation changes nothing, or is accepted and takes effect. -/
theorem Exec.effect {o : G.Op} {r : Faulty G.Op G.Error o} {w w' : G.World} (h : G.Exec o r w w') :
    (w' = w ∧ r ≠ .ok ()) ∨ (G.accepts w o ∧ w' = G.declare w o ∧ r ≠ .error .refused) := by
  cases h with
  | done h => exact .inr ⟨h, rfl, by simp⟩
  | answerLost h e => exact .inr ⟨h, rfl, by simp⟩
  | lost => exact .inl ⟨rfl, by simp⟩
  | refused => exact .inl ⟨rfl, by simp⟩

/-- What has been declared stays declared. -/
theorem Exec.declared {o o' : G.Op} {r : Faulty G.Op G.Error o} {w w' : G.World}
    (h : G.Exec o r w w') (hd : G.declared w o') : G.declared w' o' := by
  rcases h.effect with ⟨rfl, -⟩ | ⟨ha, rfl, -⟩
  · exact hd
  · exact G.declared_mono ha hd

/-! ## Scripts that get along -/

section Harmony

variable {Kind : Type} {InUse : Kind → Prop} {script : Kind → List G.Op} {Inv : G.World → Prop}

/-- Every operation of the scripts in use that is accepted after those before it keeps the
invariant. -/
structure Keeps (InUse : Kind → Prop) (script : Kind → List G.Op) (Inv : G.World → Prop) : Prop where
  next : ∀ {k done o rest w}, InUse k → script k = done ++ o :: rest → Inv w →
    (∀ d ∈ done, G.declared w d) → G.accepts w o → Inv (G.declare w o)

/-- And every one is accepted. -/
structure Harmony (InUse : Kind → Prop) (script : Kind → List G.Op) (Inv : G.World → Prop) : Prop
    extends Keeps InUse script Inv where
  accepted : ∀ {k done o rest w}, InUse k → script k = done ++ o :: rest → Inv w →
    (∀ d ∈ done, G.declared w d) → G.accepts w o

variable {code : Kind → Action G.Op (Faulty G.Op G.Error) (Fault G.Error) Unit}
  {init : G.World → Prop}

/-- The protocol of threads that run scripts: the kind stays, and the script moves on. -/
abbrev scriptsProtocol (G : Registry) (Kind : Type) : Protocol G.Op (Faulty G.Op G.Error) :=
  ⟨Kind × Option (List G.Op), fun φ o r φ' => φ'.1 = φ.1 ∧ ScriptMove φ.2 o r φ'.2⟩

/-- The specification of scripts: of a thread its kind and what is left of its script are known. -/
abbrev scriptSpec (hcode : ∀ k, code k = Action.script (script k)) :
    (G.machine code InUse init).Spec where
  protocol := scriptsProtocol G Kind
  first k := (k, some (script k))
  post k out φ := φ.1 = k ∧ (out = .ok () → φ.2 = some [])
  follows k := by
    have h := Action.script_follows (ε := G.Error) (script k) []
    rw [List.append_nil, ← hcode k] at h
    refine Prog.wp_map (P := scriptProtocol G.Op G.Error) (Q := scriptsProtocol G Kind)
      (f := fun ψ => (k, ψ)) (fun _ _ _ _ hm => ⟨rfl, hm⟩) h ?_
    rintro (e | u) ψ hψ
    · exact ⟨rfl, by simp⟩
    · exact ⟨rfl, fun _ => hψ⟩

/-- The phase of a thread has the kind of the thread. -/
theorem kind_of_wp {α : Type} {p : Prog G.Op (Faulty G.Op G.Error) α} {k : Kind}
    {post : α → Kind × Option (List G.Op) → Prop} {φ : Kind × Option (List G.Op)}
    (h : p.wp (scriptsProtocol G Kind)
      (fun a (ψ : Kind × Option (List G.Op)) => ψ.1 = k ∧ post a ψ) φ) : φ.1 = k := by
  induction p generalizing φ with
  | ret a => exact h.1
  | op o c ih =>
    obtain ⟨φ', hm, hc⟩ := h (.ok ())
    exact hm.1.symm.trans (ih _ hc)

/-- A thread has declared what its script has performed so far. -/
def Declares (InUse : Kind → Prop) (script : Kind → List G.Op) (w : G.World)
    (φ : Kind × Option (List G.Op)) : Prop :=
  InUse φ.1 ∧ ∀ rest ∈ φ.2, ∃ done, script φ.1 = done ++ rest ∧ ∀ d ∈ done, G.declared w d

theorem Declares.exec {w w' : G.World} {φ : Kind × Option (List G.Op)} {o : G.Op}
    {r : Faulty G.Op G.Error o} (h : Declares InUse script w φ) (hx : G.Exec o r w w') :
    Declares InUse script w' φ := by
  refine ⟨h.1, fun rest hrest => ?_⟩
  obtain ⟨done, heq, hdone⟩ := h.2 rest hrest
  exact ⟨done, heq, fun d hd => hx.declared (hdone d hd)⟩

/-- A move of a script: the operation is the next one. -/
theorem Declares.next {w : G.World} {φ φ' : Kind × Option (List G.Op)} {o : G.Op}
    {r : Faulty G.Op G.Error o} (h : Declares InUse script w φ) (hm : ScriptMove φ.2 o r φ'.2) :
    ∃ done rest, φ.2 = some (o :: rest) ∧ script φ.1 = done ++ o :: rest ∧
      ∀ d ∈ done, G.declared w d := by
  obtain ⟨k, ψ⟩ := φ
  obtain ⟨k', ψ'⟩ := φ'
  cases hm with
  | done _ rest =>
    obtain ⟨done, heq, hdone⟩ := h.2 _ rfl
    exact ⟨done, rest, rfl, heq, hdone⟩
  | failed _ rest _ =>
    obtain ⟨done, heq, hdone⟩ := h.2 _ rfl
    exact ⟨done, rest, rfl, heq, hdone⟩

/-- A thread that performs its next operation. -/
theorem Declares.move {w w' : G.World} {φ φ' : Kind × Option (List G.Op)} {o : G.Op}
    {r : Faulty G.Op G.Error o} (h : Declares InUse script w φ) (hk : φ'.1 = φ.1)
    (hm : ScriptMove φ.2 o r φ'.2) (hx : G.Exec o r w w') : Declares InUse script w' φ' := by
  obtain ⟨done, rest, hφ, heq, hdone⟩ := h.next hm
  obtain ⟨k, ψ⟩ := φ
  obtain ⟨k', ψ'⟩ := φ'
  obtain rfl : k' = k := hk
  obtain rfl : ψ = some (o :: rest) := hφ
  refine ⟨h.1, ?_⟩
  cases hm with
  | failed => simp
  | done _ rest =>
    intro rest' hrest'
    obtain rfl : rest = rest' := by simpa using hrest'
    refine ⟨done ++ [o], by simpa using heq, fun d hd => ?_⟩
    rcases List.mem_append.mp hd with hd | hd
    · exact hx.declared (hdone d hd)
    · obtain rfl := List.mem_singleton.mp hd
      rcases hx.effect with ⟨-, hne⟩ | ⟨ha, rfl, -⟩
      · exact absurd rfl hne
      · exact G.declared_declare ha

/-- The operation of a thread keeps the invariant. -/
theorem Declares.kept {w w' : G.World} {φ φ' : Kind × Option (List G.Op)} {o : G.Op}
    {r : Faulty G.Op G.Error o} (hd : Declares InUse script w φ) (h : Keeps InUse script Inv)
    (hm : ScriptMove φ.2 o r φ'.2) (hx : G.Exec o r w w') (hinv : Inv w) : Inv w' := by
  obtain ⟨done, rest, -, heq, hdone⟩ := hd.next hm
  rcases hx.effect with ⟨rfl, -⟩ | ⟨ha, rfl, -⟩
  · exact hinv
  · exact h.next hd.1 heq hinv hdone ha

/-- What is known of a thread: what it has declared, beside the invariant. -/
def Settled (hcode : ∀ k, code k = Action.script (script k)) (Inv : G.World → Prop) (w : G.World)
    (y : (scriptSpec hcode : (G.machine code InUse init).Spec).Status) : Prop :=
  Inv w ∧ ∀ φ, y = .active φ → Declares InUse script w φ

/-- **The rule for scripts.** In every reachable state the invariant holds, a thread has declared
what comes before its next operation, and one that has returned without an error has declared its
whole script. -/
theorem Keeps.reachable (hcode : ∀ k, code k = Action.script (script k))
    (h : Keeps InUse script Inv) (hinit : ∀ w, init w → Inv w)
    {s : (G.machine code InUse init).State} (hs : (G.machine code InUse init).Reachable s) :
    Inv s.world ∧
    (∀ t k o c, s.threads t = .running k (.op o c) → InUse k ∧ ∃ done rest,
      script k = done ++ o :: rest ∧ ∀ d ∈ done, G.declared s.world d) ∧
    ∀ t k, s.threads t = .running k (.ret (.ok ())) → ∀ o ∈ script k, G.declared s.world o := by
  obtain ⟨v, hv, htr⟩ := Machine.Spec.tracked (scriptSpec hcode) hs
  have hall : ∀ t, Settled hcode Inv v.world (v.status t) := by
    intro t
    refine hv.threadwise (P := fun w _ y => Settled hcode Inv w y) ?_ ?_ ?_ ?_ t
    · exact fun w _ hw => ⟨hinit w hw, by simp⟩
    · rintro v t w y - hP ha
      cases ha with
      | @start k w hw hb =>
        obtain ⟨hk, rfl⟩ := hw
        refine ⟨(hP t).1, fun φ hφ => ?_⟩
        obtain rfl : (k, some (script k)) = φ := by simpa using hφ
        exact ⟨hk, fun rest hrest => ⟨[], by simpa [eq_comm] using hrest, by simp⟩⟩
      | @exec t φ φ' o r w ht hm hx =>
        obtain ⟨hinv, hd⟩ := hP t
        have hd := hd φ ht
        refine ⟨hd.kept h hm.2 hx hinv, fun ψ hψ => ?_⟩
        obtain rfl : φ' = ψ := by simpa using hψ
        exact hd.move hm.1 hm.2 hx
      | @crash t φ w ht hw =>
        obtain rfl : w = v.world := hw
        exact ⟨(hP t).1, by simp⟩
    · rintro v t t' w y - hP ha -
      cases ha with
      | start hw hb =>
        obtain ⟨-, rfl⟩ := hw
        exact hP t'
      | exec ht hm hx =>
        obtain ⟨hinv, hd⟩ := hP t
        exact ⟨(hd _ ht).kept h hm.2 hx hinv, fun ψ hψ => ((hP t').2 ψ hψ).exec hx⟩
      | crash ht hw =>
        obtain rfl := hw
        exact hP t'
    · exact fun _ he => he.elim
  rw [htr.world] at hall
  refine ⟨(hall 0).1, fun t k o c ht => ?_, fun t k ht o ho => ?_⟩
  · have htrack := htr.thread t
    rw [ht] at htrack
    generalize hst : v.status t = y at htrack
    cases htrack with
    | @running _ _ φ hp =>
      have hd := (hall t).2 φ hst
      obtain rfl : φ.1 = k := kind_of_wp hp
      obtain ⟨φ', hm, -⟩ := hp (.ok ())
      obtain ⟨done, rest, -, heq, hdone⟩ := hd.next hm.2
      exact ⟨hd.1, done, rest, heq, hdone⟩
  · obtain ⟨φ, hst, rfl, hpost⟩ := htr.ended ht
    obtain ⟨done, heq, hdone⟩ := ((hall t).2 φ hst).2 [] (hpost rfl)
    rw [heq, List.append_nil] at ho
    exact hdone o ho

/-- **Scripts that get along**: the next operation of a thread is accepted. -/
theorem Harmony.reachable (hcode : ∀ k, code k = Action.script (script k))
    (h : Harmony InUse script Inv) (hinit : ∀ w, init w → Inv w)
    {s : (G.machine code InUse init).State} (hs : (G.machine code InUse init).Reachable s)
    {t : ℕ} {k : Kind} {o : G.Op} {c : Faulty G.Op G.Error o → _}
    (ht : s.threads t = .running k (.op o c)) : G.accepts s.world o := by
  obtain ⟨hinv, hnext, -⟩ := h.toKeeps.reachable hcode hinit hs
  obtain ⟨hk, done, rest, heq, hdone⟩ := hnext t k o c ht
  exact h.accepted hk heq hinv hdone

end Harmony

/-! ## The order of a script -/

/-- Each operation is prepared by those before it. -/
def InOrder {Op : Type} (Prepared : List Op → Op → Prop) (done : List Op) : List Op → Prop
  | [] => True
  | o :: ops => Prepared done o ∧ InOrder Prepared (done ++ [o]) ops

section InOrder

variable {Op : Type} {Prepared : List Op → Op → Prop} {done ops ops' : List Op}

theorem InOrder.append (h : InOrder Prepared done ops)
    (h' : InOrder Prepared (done ++ ops) ops') : InOrder Prepared done (ops ++ ops') := by
  induction ops generalizing done with
  | nil => simpa using h'
  | cons o ops ih => exact ⟨h.1, ih h.2 (by simpa using h')⟩

/-- Operations for each element of a list, which do not need those for the others. -/
theorem InOrder.flatMap {α : Type} {f : α → List Op} {l : List α}
    (h : ∀ a ∈ l, ∀ more, InOrder Prepared (done ++ more) (f a)) :
    InOrder Prepared done (l.flatMap f) := by
  suffices ∀ more, InOrder Prepared (done ++ more) (l.flatMap f) by simpa using this []
  induction l with
  | nil => exact fun _ => trivial
  | cons a l ih =>
    intro more
    rw [List.flatMap_cons]
    refine (h a (by simp) more).append ?_
    rw [List.append_assoc]
    exact ih (fun b hb => h b (by simp [hb])) _

theorem InOrder.prepared {pre : List Op} {o : Op} (h : InOrder Prepared pre ops)
    {rest : List Op} (heq : ops = done ++ o :: rest) : Prepared (pre ++ done) o := by
  induction done generalizing pre ops with
  | nil =>
    obtain rfl : ops = o :: rest := heq
    simpa using h.1
  | cons d done ih =>
    obtain rfl : ops = d :: (done ++ o :: rest) := heq
    simpa using ih h.2 rfl

end InOrder

/-! ## Scripts that run alone -/

section Alone

/-- What may come of an operation when the connection holds. -/
inductive Answers : (o : G.Op) → Faulty G.Op G.Error o → G.World → G.World → Prop
  | done {w : G.World} {o : G.Op} (h : G.accepts w o) : Answers o (.ok ()) w (G.declare w o)
  | refused {w : G.World} {o : G.Op} (h : ¬G.accepts w o) : Answers o (.error .refused) w w

/-- The operations are accepted one after the other. -/
def AcceptsAll (w : G.World) : List G.Op → Prop
  | [] => True
  | o :: ops => G.accepts w o ∧ AcceptsAll (G.declare w o) ops

/-- The world once they are. -/
def declareAll (w : G.World) (ops : List G.Op) : G.World := ops.foldl G.declare w

variable {w w' : G.World} {ops : List G.Op}

/-- What has been declared stays declared. -/
theorem AcceptsAll.declared (h : AcceptsAll w ops) {o : G.Op} (ho : G.declared w o) :
    G.declared (declareAll w ops) o := by
  induction ops generalizing w with
  | nil => exact ho
  | cons o' ops ih => exact ih h.2 (G.declared_mono h.1 ho)

/-- Each of them is accepted in a world in which no less is declared. -/
theorem AcceptsAll.accepts (h : AcceptsAll w ops) {o : G.Op} (ho : o ∈ ops) :
    ∃ w', (∀ d, G.declared w d → G.declared w' d) ∧ G.accepts w' o := by
  induction ops generalizing w with
  | nil => simp at ho
  | cons o' ops ih =>
    rcases List.mem_cons.mp ho with rfl | ho
    · exact ⟨w, fun _ hd => hd, h.1⟩
    · obtain ⟨w', hw', ha⟩ := ih h.2 ho
      exact ⟨w', fun d hd => hw' d (G.declared_mono h.1 hd), ha⟩

/-- A script that gets along with what there is is accepted. -/
theorem Harmony.acceptsAll {Kind : Type} {InUse : Kind → Prop} {script : Kind → List G.Op}
    {Inv : G.World → Prop} (h : Harmony InUse script Inv) {k : Kind} (hk : InUse k)
    {done : List G.Op} (hinv : Inv w) (heq : script k = done ++ ops)
    (hdone : ∀ d ∈ done, G.declared w d) : AcceptsAll w ops := by
  induction ops generalizing w done with
  | nil => trivial
  | cons o ops ih =>
    have ha := h.accepted hk heq hinv hdone
    have hinv' := h.next hk heq hinv hdone ha
    refine ⟨ha, ih hinv' (show script k = (done ++ [o]) ++ ops by simpa using heq) fun d hd => ?_⟩
    rcases List.mem_append.mp hd with hd | hd
    · exact G.declared_mono ha (hdone d hd)
    · obtain rfl := List.mem_singleton.mp hd
      exact G.declared_declare ha

theorem Harmony.acceptsScript {Kind : Type} {InUse : Kind → Prop} {script : Kind → List G.Op}
    {Inv : G.World → Prop} (h : Harmony InUse script Inv) {k : Kind} (hk : InUse k)
    (hinv : Inv w) : AcceptsAll w (script k) :=
  h.acceptsAll hk hinv (List.nil_append (script k)).symm (by simp)

/-- **A script alone**: it ends without an error exactly when all its operations are accepted, and
otherwise it has declared those before the one that is refused. -/
theorem script_executes_iff {out : Except (Fault G.Error) Unit} :
    (Action.script ops).run.Executes Answers w out w' ↔
      (out = .ok () ∧ AcceptsAll w ops ∧ w' = declareAll w ops) ∨
      out = .error .refused ∧ ∃ done o rest, ops = done ++ o :: rest ∧ AcceptsAll w done ∧
        w' = declareAll w done ∧ ¬G.accepts w' o := by
  induction ops generalizing w with
  | nil =>
    constructor
    · intro h
      cases h with
      | ret => exact .inl ⟨rfl, trivial, rfl⟩
    · rintro (⟨rfl, -, rfl⟩ | ⟨-, done, o, rest, heq, -⟩)
      · exact .ret _ _
      · simp at heq
  | cons o ops ih =>
    constructor
    · intro h
      cases h with
      | op hx h =>
        cases hx with
        | done ha =>
          rcases ih.mp h with ⟨rfl, hall, rfl⟩ | ⟨rfl, done, o', rest, rfl, hall, rfl, hno⟩
          · exact .inl ⟨rfl, ⟨ha, hall⟩, rfl⟩
          · exact .inr ⟨rfl, o :: done, o', rest, rfl, ⟨ha, hall⟩, rfl, hno⟩
        | refused hno =>
          cases h
          exact .inr ⟨rfl, [], o, ops, rfl, trivial, rfl, hno⟩
    · rintro (⟨rfl, ⟨ha, hall⟩, rfl⟩ | ⟨rfl, done, o', rest, heq, hall, rfl, hno⟩)
      · exact .op (.done ha) (ih.mpr (.inl ⟨rfl, hall, rfl⟩))
      · cases done with
        | nil =>
          obtain ⟨rfl, rfl⟩ : o = o' ∧ ops = rest := by simpa using heq
          exact .op (.refused hno) (.ret _ _)
        | cons d done =>
          obtain ⟨rfl, rfl⟩ : o = d ∧ ops = done ++ o' :: rest := by simpa using heq
          exact .op (.done hall.1) (ih.mpr (.inr ⟨rfl, done, o', rest, rfl, hall.2, rfl, hno⟩))

/-- A script that ends without an error is a run of its thread. -/
theorem run_of_acceptsAll {Kind : Type}
    {code : Kind → Action G.Op (Faulty G.Op G.Error) (Fault G.Error) Unit} {InUse : Kind → Prop}
    {init : G.World → Prop} {s : (G.machine code InUse init).State} {t : ℕ} {k : Kind}
    (ht : s.threads t = .running k (Action.script ops).run) (h : AcceptsAll s.world ops) :
    (G.machine code InUse init).Run s ⟨declareAll s.world ops,
      Function.update s.threads t (.running k (.ret (.ok ()))), s.born⟩ := by
  induction ops generalizing s with
  | nil =>
    have hsame : Function.update s.threads t (.running k (.ret (.ok ()))) = s.threads := by
      rw [show (.running k (.ret (.ok ())) : (G.machine code InUse init).Thread) = s.threads t from
        ht.symm, Function.update_eq_self]
    rw [hsame]
    exact .refl
  | cons o ops ih =>
    have hrun := ih (s := ⟨G.declare s.world o,
      Function.update s.threads t (.running k (Action.script ops).run), s.born⟩)
      (Function.update_self ..) h.2
    rw [Function.update_idem] at hrun
    exact .head (.exec ht (.done h.1)) hrun

end Alone

/-- What has been declared stays declared. -/
theorem run_declared {Kind : Type}
    {code : Kind → Action G.Op (Faulty G.Op G.Error) (Fault G.Error) Unit} {InUse : Kind → Prop}
    {init : G.World → Prop} {s s' : (G.machine code InUse init).State}
    (hr : (G.machine code InUse init).Run s s') {o : G.Op} (h : G.declared s.world o) :
    G.declared s'.world o := by
  induction hr with
  | refl => exact h
  | tail _ hs ih =>
    cases hs with
    | start hw =>
      obtain ⟨-, rfl⟩ := hw
      exact ih
    | exec _ hx => exact hx.declared ih
    | crash _ hw =>
      obtain rfl := hw
      exact ih
    | env he => exact he.elim

end Registry

end Effects
