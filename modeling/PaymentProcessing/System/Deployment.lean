import PaymentProcessing.Foundations.Effects.Completion
import PaymentProcessing.Properties.Startup
import PaymentProcessing.System.Copies

/-!
# Processes

The service as it is deployed. An API serves requests. A relay and a consumer declare the topology
first; then the relay publishes one batch after the other (`OutboxRelay.run_forever`), and the
consumer takes what the broker delivers. Each of them works until it is told to stop. The broker has
nothing but what the processes have declared in it, and routes by that (`ExecVia`,
`EnvironmentVia`).

The threads of `service` are the tasks of these processes. A process that is killed takes all of
them with it, and its channel; one that stops waits for them, a consumer for `gracefulTimeout`.
-/

namespace Payments

open Effects Relation

/-! ## The broker as it is declared -/

namespace World

/-- A publication of thread `t` reaches the queues that are bound. -/
def acceptVia (w : World) (D : Setup.Declared) (t : ℕ) (p : Publication) : World :=
  let origin := (w.broker.delivered t).elim (some p.message) Envelope.origin
  { w with broker := w.broker.accept (D.bindings p.exchange p.routingKey) ⟨p.message, origin, p.cause⟩ }

end World

section Via

variable (cfg : Settings) (D : Setup.Declared)

/-- **What may come of an operation** of thread `t` with what is declared. -/
inductive ExecVia (t : ℕ) : (o : Op) → Res o → World → World → Prop
  | other {o : Op} {r : Res o} {w w' : World} (ho : ∀ p, o ≠ .publish p) (h : Exec cfg t o r w w') :
      ExecVia t o r w w'
  | confirmed (w : World) {p : Publication} (hx : (D.exchanges p.exchange).isSome) :
      ExecVia t (.publish p) (.ok ()) w ((w.acceptVia D t p).record t (.published p .confirmed))
  | confirmationLost (w : World) {p : Publication} (hx : (D.exchanges p.exchange).isSome)
      (e : ForeignError) :
      ExecVia t (.publish p) (.error e) w ((w.acceptVia D t p).record t (.published p .lost))
  | refused (w : World) (p : Publication) (e : ForeignError) :
      ExecVia t (.publish p) (.error e) w (w.record t (.published p .refused))

/-- What happens of itself with what is declared. -/
inductive EnvironmentVia : World → World → Prop
  | tick {w : World} {clock : Time} (h : w.clock ≤ clock) :
      EnvironmentVia w { w with clock := clock }
  | expired {w : World} {name exchange routingKey : String} {args : Setup.QueueArguments}
      (hargs : D.queues name = some args) (hx : args.deadLetterExchange = some exchange)
      (hk : args.deadLetterRoutingKey = some routingKey) {before after : List Envelope}
      {e : Envelope} (h : w.broker.queues name = before ++ e :: after) {headers : Headers}
      (hh : ∀ key, key ∉ brokerOwnedHeaders → headers key = e.message.headers key) :
      EnvironmentVia w
        { w with
          broker := w.broker.move name (before ++ after) (D.bindings exchange routingKey)
            { e with message := { e.message with headers := headers } } }
  | foreign (w : World) (m : Message) (h : (D.queues paymentsNewQueueName).isSome) :
      EnvironmentVia w { w with broker := w.broker.accept [paymentsNewQueueName] ⟨m, none, none⟩ }

end Via

/-! ## The loop of the relay -/

/-- Where `OutboxRelay.run_forever` stands. -/
inductive RelayLoop
  /-- It comes to the condition of the loop. -/
  | checking
  /-- It awaits the batch that thread `t` publishes. -/
  | publishing (t : ℕ)
  /-- It is in `_wait`. -/
  | waiting

/-- The rest of the body of the loop, once the batch has returned; an exception counts as nothing
published. -/
def afterBatch (result : Except Exn ℕ) : RelayLoop :=
  let published := match result with
    | .ok published => published
    | .error _ => 0
  if published = 0 then .waiting else .checking

/-! ## Threads that end together -/

/-- The channel of the threads in `l` is closed. -/
def World.closeChannel (w : World) (l : List ℕ) : World :=
  { w with broker := l.foldl Broker.requeue w.broker }

section Kill

variable {R : Runtime} {cfg : Settings}

/-- Thread `t` is killed, if it runs. -/
def kill (b : (service R cfg).State) (t : ℕ) : (service R cfg).State :=
  match b.threads t with
  | .running k _ => ⟨b.world.crash t, Function.update b.threads t (.crashed k), b.born⟩
  | _ => b

/-- The threads in `l` are killed. -/
def killAll (b : (service R cfg).State) (l : List ℕ) : (service R cfg).State := l.foldl kill b

/-- The channel of the threads in `l` is closed, and they go on. -/
def disconnect (b : (service R cfg).State) (l : List ℕ) : (service R cfg).State :=
  ⟨b.world.closeChannel l, b.threads, b.born⟩

variable {b : (service R cfg).State} {l : List ℕ} {t : ℕ}

theorem kill_cases (b : (service R cfg).State) (t : ℕ) :
    ((∀ k p, b.threads t ≠ .running k p) ∧ kill b t = b) ∨ ∃ k p, b.threads t = .running k p ∧
      kill b t = ⟨b.world.crash t, Function.update b.threads t (.crashed k), b.born⟩ := by
  unfold kill
  cases ht : b.threads t with
  | running k p => exact .inr ⟨k, p, rfl, rfl⟩
  | _ => exact .inl ⟨by simp, rfl⟩

theorem kill_of_running {k : Kind} {p : Prog Op Res (Out k)} (ht : b.threads t = .running k p) :
    kill b t = ⟨b.world.crash t, Function.update b.threads t (.crashed k), b.born⟩ := by
  unfold kill
  rw [ht]

/-- **The service can kill them too.** -/
theorem run_killAll (b : (service R cfg).State) (l : List ℕ) :
    (service R cfg).Run b (killAll b l) := by
  induction l generalizing b with
  | nil => exact .refl
  | cons t l ih =>
    rcases kill_cases b t with ⟨-, heq⟩ | ⟨k, p, ht, heq⟩
    · change (service R cfg).Run b (killAll (kill b t) l)
      rw [heq]
      exact ih b
    · have hs : (service R cfg).Step b (kill b t) := by
        rw [heq]
        exact .crash ht rfl
      exact .head hs (ih _)

@[simp] theorem born_killAll (b : (service R cfg).State) (l : List ℕ) :
    (killAll b l).born = b.born := by
  induction l generalizing b with
  | nil => rfl
  | cons t l ih =>
    refine (ih (kill b t)).trans ?_
    rcases kill_cases b t with ⟨-, heq⟩ | ⟨k, p, -, heq⟩ <;> rw [heq]

/-- The other threads go on. -/
theorem threads_killAll (ht : t ∉ l) : (killAll b l).threads t = b.threads t := by
  induction l generalizing b with
  | nil => rfl
  | cons t' l ih =>
    rw [List.mem_cons, not_or] at ht
    refine (ih ht.2).trans ?_
    rcases kill_cases b t' with ⟨-, heq⟩ | ⟨k, p, -, heq⟩ <;> rw [heq]
    exact Function.update_of_ne ht.1 ..

/-- Nothing runs in addition. -/
theorem running_of_killAll {k : Kind} {p : Prog Op Res (Out k)}
    (h : (killAll b l).threads t = .running k p) : t ∉ l ∧ b.threads t = .running k p := by
  induction l generalizing b with
  | nil => exact ⟨List.not_mem_nil, h⟩
  | cons t' l ih =>
    obtain ⟨hl, ht⟩ := ih h
    rcases kill_cases b t' with ⟨hnot, heq⟩ | ⟨k', p', -, heq⟩
    · rw [heq] at ht
      refine ⟨?_, ht⟩
      rintro (_ | ⟨_, hmem⟩)
      · exact hnot k p ht
      · exact hl hmem
    · rw [heq] at ht
      have hne : t ≠ t' := by
        rintro rfl
        cases (Function.update_self t (.crashed k') b.threads).symm.trans ht
      refine ⟨?_, (Function.update_of_ne hne ..).symm.trans ht⟩
      rintro (_ | ⟨_, hmem⟩)
      · exact hne rfl
      · exact hl hmem

theorem unacked_of_killAll (h : (killAll b l).world.broker.unacked t = true) :
    b.world.broker.unacked t = true := by
  induction l generalizing b with
  | nil => exact h
  | cons t' l ih =>
    have ht := ih h
    rcases kill_cases b t' with ⟨-, heq⟩ | ⟨k, p, -, heq⟩ <;> rw [heq] at ht
    · exact ht
    · exact Broker.unacked_of_requeue ht

/-- The service can lose a channel too, delivery by delivery. -/
theorem run_disconnect (b : (service R cfg).State) (l : List ℕ) :
    (service R cfg).Run b (disconnect b l) := by
  induction l generalizing b with
  | nil => exact .refl
  | cons t l ih =>
    have hs : (service R cfg).Step b ⟨{ b.world with broker := b.world.broker.requeue t }, b.threads,
      b.born⟩ := .env (.channelLost _ t)
    exact .head hs (ih _)

theorem unacked_of_disconnect (h : (disconnect b l).world.broker.unacked t = true) :
    b.world.broker.unacked t = true := by
  induction l generalizing b with
  | nil => exact h
  | cons t' l ih =>
    have ht := ih (b := ⟨{ b.world with broker := b.world.broker.requeue t' }, b.threads, b.born⟩) h
    exact Broker.unacked_of_requeue ht

/-- Nothing that was delivered there is left unsettled. -/
theorem unacked_disconnect {e : Envelope} (hd : b.world.broker.delivered t = some e) (ht : t ∈ l) :
    (disconnect b l).world.broker.unacked t = false := by
  induction l generalizing b with
  | nil => cases ht
  | cons t' l ih =>
    let b' : (service R cfg).State :=
      ⟨{ b.world with broker := b.world.broker.requeue t' }, b.threads, b.born⟩
    have hd' : b'.world.broker.delivered t = some e :=
      (congrFun Broker.delivered_requeue t).trans hd
    by_cases htl : t ∈ l
    · exact ih (b := b') hd' htl
    · obtain rfl : t = t' := (List.mem_cons.mp ht).resolve_right htl
      refine Bool.eq_false_iff.mpr fun hu => ?_
      have hu' := unacked_of_disconnect (b := b') (l := l) hu
      rw [show b'.world.broker = b.world.broker.requeue t from rfl,
        Broker.unacked_requeue_self hd] at hu'
      cases hu'

end Kill

/-! ## Processes -/

/-- What a process with a broker is for. -/
inductive Role
  | relay
  | consumer

/-- How a process ended. -/
inductive Exit
  /-- It was told to stop, its threads returned, and it closed what it had open. -/
  | finished
  /-- It was told to stop, and did not wait any longer for its deliveries. -/
  | cutOff
  /-- An exception came out of `declare_topology`. -/
  | failed
  | killed

/-- What has become of a process. -/
inductive Process
  | unborn
  /-- It declares the topology, in thread `u` of the registry. -/
  | starting (role : Role) (u : ℕ)
  | api
  | relay (φ : RelayLoop)
  | consumer
  /-- It takes on nothing more, and waits for its threads, at most until `limit`. -/
  | leaving (limit : Option Time)
  | ended (exit : Exit)

/-- The `graceful_timeout` of the broker, in microseconds. -/
def gracefulTimeout : Time := 30 * 1000000

/-- What a process does once the topology is declared. -/
def Role.begin : Role → Process
  | .relay => .relay .checking
  | .consumer => .consumer

namespace Process

/-- The process uses the broker, and has not been asked to stop. -/
def working : Process → Bool
  | .relay _ | .consumer => true
  | _ => false

/-- The process has installed its signal handlers, and has not ended. -/
def begun : Process → Bool
  | .unborn | .starting _ _ | .ended _ => false
  | _ => true

/-- The process runs. -/
def alive : Process → Bool
  | .unborn | .ended _ => false
  | _ => true

theorem alive_of_begun {x : Process} (h : x.begun) : x.alive := by
  cases x <;> trivial

theorem ne_unborn_of_begun {x : Process} (h : x.begun) : x ≠ .unborn := by
  rintro rfl
  cases h

theorem ne_starting_of_begun {x : Process} (h : x.begun) (role : Role) (u : ℕ) :
    x ≠ .starting role u := by
  rintro rfl
  cases h

end Process

variable (R : Runtime) (cfg : Settings)

/-- **What a process does by itself**, besides starting threads and ending. -/
inductive Advance (b : (service R cfg).State) (stopping : Bool) : Process → Process → Prop
  | published {t : ℕ} {result : Except Exn ℕ} (h : b.threads t = .running .relay (.ret result)) :
      Advance b stopping (.relay (.publishing t)) (.relay (afterBatch result))
  /-- The interval is over, or the process was told to stop. -/
  | woken : Advance b stopping (.relay .waiting) (.relay .checking)
  | stopRelaying (h : stopping = true) : Advance b stopping (.relay .checking) (.leaving none)
  | stopConsuming (h : stopping = true) :
      Advance b stopping .consumer (.leaving (some (b.world.clock + gracefulTimeout)))
  | stopServing (h : stopping = true) : Advance b stopping .api (.leaving none)

section Advance

variable {R cfg} {b : (service R cfg).State} {stopping : Bool} {x y : Process}

/-- Only a process that has begun goes on so, and it does not end by it. -/
theorem Advance.begun (h : Advance R cfg b stopping x y) : x.begun ∧ y.begun := by
  cases h <;> exact ⟨rfl, rfl⟩

/-- A process does not begin to work by itself. -/
theorem Advance.working (h : Advance R cfg b stopping x y) (hy : y.working) : x.working := by
  cases h with
  | published | woken => rfl
  | _ => cases hy

/-- Nor does it begin a batch. -/
theorem Advance.idle (h : Advance R cfg b stopping x y) (t : ℕ) : y ≠ .relay (.publishing t) := by
  cases h with
  | @published _ result _ =>
    unfold afterBatch
    dsimp only
    cases result with
    | error _ => simp
    | ok n =>
      dsimp only
      split <;> simp
  | _ => simp

end Advance

/-- The service with its processes. -/
structure Deployment where
  /-- What is declared, and the threads that declare. -/
  registry : (Setup.setup (· = cfg)).State
  base : (service R cfg).State
  processes : ℕ → Process
  /-- The process was told to stop. -/
  stopping : ℕ → Bool
  /-- The process of a thread. -/
  owner : ℕ → ℕ

namespace Deployment

variable {R cfg}

/-- What is declared. -/
abbrev declared (s : Deployment R cfg) : Setup.Declared := s.registry.world

/-- Process `i` moves on. -/
def set (s : Deployment R cfg) (i : ℕ) (x : Process) : Deployment R cfg :=
  { s with processes := Function.update s.processes i x }

/-- Process `i` starts a thread for `k`. -/
def spawn (s : Deployment R cfg) (i : ℕ) (k : Kind) (w : World) : Deployment R cfg :=
  { s with
    base := ⟨w, Function.update s.base.threads s.base.born (.running k (code R cfg k)),
      s.base.born + 1⟩
    owner := Function.update s.owner s.base.born i }

/-- Something happens to the threads. -/
def rebase (s : Deployment R cfg) (b : (service R cfg).State) : Deployment R cfg :=
  { s with base := b }

/-- A thread that declares the topology is started. -/
def join (s : Deployment R cfg) : (Setup.setup (· = cfg)).State :=
  ⟨s.registry.world, Function.update s.registry.threads s.registry.born
    (.running cfg (Setup.declareTopology cfg).run), s.registry.born + 1⟩

/-- The threads in `l` are those of process `i`, at least those that have something left to do or a
message they have not settled. -/
structure Lists (s : Deployment R cfg) (i : ℕ) (l : List ℕ) : Prop where
  owned : ∀ t ∈ l, s.owner t = i
  busy : ∀ t, s.owner t = i → (service R cfg).Busy s.base t → t ∈ l
  held : ∀ t, s.owner t = i → s.base.world.broker.unacked t = true → t ∈ l

@[simp] theorem base_set (s : Deployment R cfg) (i : ℕ) (x : Process) :
    (s.set i x).base = s.base := rfl

@[simp] theorem base_rebase (s : Deployment R cfg) (b : (service R cfg).State) :
    (s.rebase b).base = b := rfl

@[simp] theorem processes_set_self (s : Deployment R cfg) (i : ℕ) (x : Process) :
    (s.set i x).processes i = x := Function.update_self _ _ _

theorem processes_set_of_ne (s : Deployment R cfg) {i j : ℕ} (h : j ≠ i) (x : Process) :
    (s.set i x).processes j = s.processes j := Function.update_of_ne h _ _

@[simp] theorem owner_spawn_self (s : Deployment R cfg) (i : ℕ) (k : Kind) (w : World) :
    (s.spawn i k w).owner s.base.born = i := Function.update_self _ _ _

theorem owner_spawn_of_ne (s : Deployment R cfg) {t : ℕ} (h : t ≠ s.base.born) (i : ℕ) (k : Kind)
    (w : World) : (s.spawn i k w).owner t = s.owner t := Function.update_of_ne h _ _

theorem threads_spawn_of_ne (s : Deployment R cfg) {t : ℕ} (h : t ≠ s.base.born) (i : ℕ) (k : Kind)
    (w : World) : (s.spawn i k w).base.threads t = s.base.threads t := Function.update_of_ne h _ _

/-- **One step** of the processes, of their threads, or of what surrounds them. -/
inductive Step : Deployment R cfg → Deployment R cfg → Prop
  /-- An API is started; it has no broker. -/
  | serve {s : Deployment R cfg} {i : ℕ} (hi : s.processes i = .unborn) : Step s (s.set i .api)
  | start {s : Deployment R cfg} {i : ℕ} (hi : s.processes i = .unborn) (role : Role) :
      Step s { s.set i (.starting role s.registry.born) with registry := s.join }
  | declaring {s : Deployment R cfg} {i u : ℕ} {role : Role} (hi : s.processes i = .starting role u)
      {o : Setup.SetupOp} {c : Faulty Setup.SetupOp ForeignError o →
        Prog Setup.SetupOp (Faulty Setup.SetupOp ForeignError) (Except (Fault ForeignError) Unit)}
      {r : Faulty Setup.SetupOp ForeignError o} {D : Setup.Declared}
      (hu : s.registry.threads u = .running cfg (.op o c)) (h : Setup.registry.Exec o r s.declared D) :
      Step s { s with
        registry := ⟨D, Function.update s.registry.threads u (.running cfg (c r)),
          s.registry.born⟩ }
  | ready {s : Deployment R cfg} {i u : ℕ} {role : Role} (hi : s.processes i = .starting role u)
      (hu : s.registry.threads u = .running cfg (.ret (.ok ()))) : Step s (s.set i role.begin)
  | failed {s : Deployment R cfg} {i u : ℕ} {role : Role} (hi : s.processes i = .starting role u)
      {e : Fault ForeignError} (hu : s.registry.threads u = .running cfg (.ret (.error e))) :
      Step s (s.set i (.ended .failed))
  /-- A request comes in. -/
  | request {s : Deployment R cfg} {i : ℕ} (hi : s.processes i = .api)
      (command : CreatePaymentCommand) : Step s (s.spawn i (.create command) s.base.world)
  | publish {s : Deployment R cfg} {i : ℕ} (hi : s.processes i = .relay .checking)
      (hs : s.stopping i = false) :
      Step s ((s.spawn i .relay s.base.world).set i (.relay (.publishing s.base.born)))
  /-- The broker delivers a message to a consumer. -/
  | deliver {s : Deployment R cfg} {i : ℕ} (hi : s.processes i = .consumer) {e : Envelope}
      {before after : List Envelope}
      (h : s.base.world.broker.queues paymentsNewQueueName = before ++ e :: after) :
      Step s (s.spawn i (.deliver e) { s.base.world with
        broker := s.base.world.broker.deliver s.base.born e (before ++ after) })
  | exec {s : Deployment R cfg} {t : ℕ} {k : Kind} {o : Op} {c : Res o → Prog Op Res (Out k)}
      {r : Res o} {w : World} (ht : s.base.threads t = .running k (.op o c))
      (h : ExecVia cfg s.declared t o r s.base.world w) :
      Step s (s.rebase ⟨w, Function.update s.base.threads t (.running k (c r)), s.base.born⟩)
  /-- A signal asks the process to stop. -/
  | signal {s : Deployment R cfg} {i : ℕ} (hi : (s.processes i).begun) :
      Step s { s with stopping := Function.update s.stopping i true }
  | advance {s : Deployment R cfg} {i : ℕ} {x : Process}
      (h : Advance R cfg s.base (s.stopping i) (s.processes i) x) : Step s (s.set i x)
  /-- All threads of the process have returned. -/
  | left {s : Deployment R cfg} {i : ℕ} {limit : Option Time} {l : List ℕ}
      (hi : s.processes i = .leaving limit)
      (hidle : ∀ t, s.owner t = i → ¬(service R cfg).Busy s.base t) (hl : s.Lists i l) :
      Step s ((s.rebase (disconnect s.base l)).set i (.ended .finished))
  /-- They have not, in time. -/
  | cutOff {s : Deployment R cfg} {i t : ℕ} {limit : Time} {l : List ℕ}
      (hi : s.processes i = .leaving (some limit)) (hlate : limit ≤ s.base.world.clock)
      (ht : s.owner t = i) (hbusy : (service R cfg).Busy s.base t) (hl : s.Lists i l) :
      Step s ((s.rebase (killAll s.base l)).set i (.ended .cutOff))
  | killed {s : Deployment R cfg} {i : ℕ} {l : List ℕ} (hi : (s.processes i).begun)
      (hl : s.Lists i l) : Step s ((s.rebase (killAll s.base l)).set i (.ended .killed))
  | killedStarting {s : Deployment R cfg} {i u : ℕ} {role : Role}
      (hi : s.processes i = .starting role u)
      {p : Prog Setup.SetupOp (Faulty Setup.SetupOp ForeignError) (Except (Fault ForeignError) Unit)}
      (hu : s.registry.threads u = .running cfg p) :
      Step s { s.set i (.ended .killed) with
        registry := ⟨s.declared, Function.update s.registry.threads u (.crashed cfg),
          s.registry.born⟩ }
  /-- The process loses its connection to the broker. -/
  | channelLost {s : Deployment R cfg} {i : ℕ} {l : List ℕ} (hi : (s.processes i).begun)
      (hl : s.Lists i l) : Step s (s.rebase (disconnect s.base l))
  | env {s : Deployment R cfg} {w : World} (h : EnvironmentVia s.declared s.base.world w) :
      Step s (s.rebase ⟨w, s.base.threads, s.base.born⟩)

/-- Any number of steps. -/
def Run : Deployment R cfg → Deployment R cfg → Prop := ReflTransGen Step

/-- Nothing is declared, and nothing has been started. -/
def Initial (s : Deployment R cfg) : Prop :=
  (Setup.setup (· = cfg)).Initial s.registry ∧ (service R cfg).Initial s.base ∧
    (∀ i, s.processes i = .unborn) ∧ ∀ i, s.stopping i = false

/-- The states of all runs from an initial state. -/
def Reachable (s : Deployment R cfg) : Prop := ∃ s₀, Initial s₀ ∧ Run s₀ s

theorem Reachable.run {s s' : Deployment R cfg} (h : Reachable s) (hr : Run s s') :
    Reachable s' := by
  obtain ⟨s₀, h₀, h⟩ := h
  exact ⟨s₀, h₀, h.trans hr⟩

/-- **The invariant rule.** -/
theorem Reachable.invariant {I : Deployment R cfg → Prop} (hinit : ∀ s, Initial s → I s)
    (hstep : ∀ s s', Reachable s → I s → Step s s' → I s') {s : Deployment R cfg}
    (h : Reachable s) : I s := by
  obtain ⟨s₀, h₀, hr⟩ := h
  induction hr with
  | refl => exact hinit _ h₀
  | tail hr hs ih => exact hstep _ _ ⟨s₀, h₀, hr⟩ ih hs

end Deployment

end Payments
