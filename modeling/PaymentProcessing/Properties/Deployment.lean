import PaymentProcessing.Domain.Instance
import PaymentProcessing.Foundations.Effects.Execution
import PaymentProcessing.Properties.Completion
import PaymentProcessing.Properties.Settlement
import PaymentProcessing.System.Deployment
import PaymentProcessing.System.Handling

/-!
# Processes and the service

The processes, over a broker that has only what they have declared in it, do what `service` does,
where the topology is there from the beginning, and nothing else (`deployment_refines`). The API
takes no part in declaring it, as it has no broker (`createPayment_offBroker`). A process that ends
takes its threads with it (`tidy`); threads end one by one where each has a process of its own
(`Deployment.Solo`).
-/

namespace Payments

open Effects Relation

variable {R : Runtime} {cfg : Settings}

/-! ## The broker routes as the topology says -/

/-- The whole topology is declared. -/
def Complete (cfg : Settings) (D : Setup.Declared) : Prop :=
  ∀ o ∈ Setup.operations cfg, Setup.declared D o

section Via

variable {D : Setup.Declared}

theorem legal_iff {o : Setup.SetupOp} :
    Setup.Legal (· = cfg) o ↔ o ∈ Setup.operations cfg := by
  constructor
  · rintro ⟨_, rfl, ho⟩
    exact ho
  · intro ho
    exact ⟨cfg, rfl, ho⟩

/-- **What is bound is what `route` says.** -/
theorem bindings_eq_route (hconf : Setup.Conforms (· = cfg) D) (hc : Complete cfg D)
    (exchange routingKey : String) :
    D.bindings exchange routingKey = (route cfg exchange routingKey).map RabbitQueue.name := by
  cases hbound : D.bindings exchange routingKey with
  | nil =>
    cases hroute : route cfg exchange routingKey with
    | nil => rfl
    | cons q qs =>
      have hq : q ∈ route cfg exchange routingKey := by simp [hroute]
      cases hbound.symm.trans (hconf.route_eq hc hq).1
  | cons name names =>
    have hmem : name ∈ D.bindings exchange routingKey := by simp [hbound]
    have ho := legal_iff.mp (hconf.bindings exchange routingKey name hmem)
    rw [← hbound, hconf.bindings_eq hmem]
    rcases Setup.mem_operations_bind.mp ho with
      ⟨rfl, rfl, rfl⟩ | ⟨n, ⟨h1, hn⟩, rfl, rfl, rfl⟩ | ⟨rfl, rfl, rfl⟩
    · rw [route_payments]
      rfl
    · rw [route_retry cfg h1 hn]
      rfl
    · rw [route_dlx]
      rfl

/-- With the whole topology, an operation does what it does in the service. -/
theorem ExecVia.exec {t : ℕ} {o : Op} {r : Res o} {w w' : World} (h : ExecVia cfg D t o r w w')
    (hconf : Setup.Conforms (· = cfg) D) (hc : (∃ p, o = .publish p) → Complete cfg D) :
    Exec cfg t o r w w' := by
  have haccept (p : Publication) (hp : o = .publish p) : w.acceptVia D t p = w.accept t cfg p := by
    unfold World.acceptVia World.accept
    rw [bindings_eq_route hconf (hc ⟨p, hp⟩)]
  cases h with
  | other _ h => exact h
  | confirmed =>
    rw [haccept _ rfl]
    exact .confirmed _ _
  | confirmationLost _ _ e =>
    rw [haccept _ rfl]
    exact .confirmationLost _ _ e
  | refused _ p e => exact .refused _ p e

/-- What happens of itself happens in the service. -/
theorem EnvironmentVia.environment {w w' : World} (h : EnvironmentVia D w w')
    (hsound : Setup.Sound (· = cfg) D) : Environment cfg w w' := by
  cases h with
  | tick h => exact .tick h
  | foreign m => exact .foreign w m
  | @expired name exchange routingKey args hargs hx hk before after e h headers hh =>
    obtain ⟨q, rfl, rfl, hlegal⟩ := hsound.conforms.queues name args hargs
    rcases Setup.mem_operations_queue.mp (legal_iff.mp hlegal) with rfl | ⟨n, ⟨h1, hn⟩, rfl⟩ | rfl
    · cases hx
    · have hback := hsound.wayBack _ _ hargs rfl
      have hbound : D.bindings paymentsExchange paymentsNewRoutingKey = [paymentsNewQueueName] :=
        hsound.conforms.bindings_eq (hback _ (by simp [Setup.mainOperations]) : Setup.declared D
          (.bind paymentsNewQueueName paymentsExchange paymentsNewRoutingKey)).2.2
      obtain rfl := Option.some.inj hx
      obtain rfl := Option.some.inj hk
      have hq : retryQueue cfg n ∈ queues cfg :=
        mem_queues_of_mem_route cfg (by rw [route_retry cfg h1 hn]; exact List.mem_singleton.mpr rfl)
      rw [hbound]
      have hexpired := Expired.intro hq rfl rfl h hh
      rw [route_payments] at hexpired
      exact .expired hexpired
    · cases hx

end Via

/-! ## The API has no broker -/

/-- The operation does not concern the broker. -/
def OffBroker : Op → Prop
  | .publish _ | .ack | .nack => False
  | _ => True

theorem recover_offBroker (c : CreatePaymentCommand) (fingerprint : Python.Str) (error : Exn) :
    (recover c fingerprint error).Only OffBroker := by
  unfold recover
  split
  · refine .bind (ask_only (perform_only trivial)) fun _ => ?_
    split
    · refine .bind (ask_only (perform_only trivial)) fun winner => ?_
      cases winner with
      | none => trivial
      | some winner =>
        dsimp only
        unfold replay
        split <;> trivial
    · trivial
  · trivial

theorem create_offBroker (c : CreatePaymentCommand) : (create R c).Only OffBroker := by
  unfold create
  cases c.fingerprint R with
  | error e => trivial
  | ok fingerprint =>
    refine .bind trivial fun fingerprint => ?_
    refine .bind (ask_only (perform_only trivial)) fun existing => ?_
    cases existing with
    | some existing =>
      dsimp only
      unfold replay
      split <;> trivial
    | none =>
      refine .bind (.lift trivial) fun id => .bind (.lift trivial) fun createdAt => ?_
      refine .bind (.lift trivial) fun messageId => .tryCatch ?_ (recover_offBroker c fingerprint)
      refine .bind (ask_only (perform_only trivial)) fun insertedAt => ?_
      exact .bind (ask_only (perform_only trivial)) fun _ => trivial

/-- **A request does not use the broker.** -/
theorem createPayment_offBroker (c : CreatePaymentCommand) :
    (createPayment R c).Only OffBroker := by
  refine .within (.tryCatch (create_offBroker c) fun e => ?_) (.lift trivial)
  exact .bind (ask_only (perform_only trivial)) fun _ => trivial

/-! ## The invariant -/

/-- **What holds of the processes and of the service behind them.** -/
structure Deployed (s : Deployment R cfg) : Prop where
  registry : (Setup.setup (· = cfg)).Reachable s.registry
  base : (service R cfg).Reachable s.base
  processes : ∀ i, (s.processes i).working → Complete cfg s.declared
  /-- A thread of a relay or a consumer runs with the whole topology. -/
  threads : ∀ t k p, s.base.threads t = .running k p →
    (∃ c, k = .create c) ∨ Complete cfg s.declared
  requests : ∀ t c (p : Prog Op Res (Except Exn CreatePaymentResult)),
    s.base.threads t = .running (.create c) p → p.wp (.only OffBroker) (fun _ _ => True) ()

theorem sound_of_reachable {d : (Setup.setup (· = cfg)).State}
    (h : (Setup.setup (· = cfg)).Reachable d) : Setup.Sound (· = cfg) d.world :=
  ((Setup.Sound.keeps (· = cfg)).reachable Setup.declareTopology_eq Setup.Sound.empty h).1

/-- A thread that has declared the topology. -/
theorem complete_of_returned {d : (Setup.setup (· = cfg)).State}
    (h : (Setup.setup (· = cfg)).Reachable d) {u : ℕ}
    (hu : d.threads u = .running cfg (.ret (.ok ()))) : Complete cfg d.world :=
  ((Setup.Sound.keeps (· = cfg)).reachable Setup.declareTopology_eq Setup.Sound.empty h).2.2 u cfg hu

/-- What is declared stays declared. -/
theorem Complete.step {d d' : (Setup.setup (· = cfg)).State} (h : Complete cfg d.world)
    (hs : (Setup.setup (· = cfg)).Step d d') : Complete cfg d'.world :=
  fun o ho => Registry.run_declared (.single hs) (h o ho)

section Step

variable {s s' : Deployment R cfg}

/-- A process moves on. -/
theorem Deployed.set (h : Deployed s) (i : ℕ) {x : Process}
    (hx : x.working → Complete cfg s.declared) :
    Deployed (s.set i x) := by
  refine ⟨h.registry, h.base, fun j hj => ?_, h.threads, h.requests⟩
  by_cases hij : j = i
  · subst hij
    rw [Deployment.processes_set_self] at hj
    exact hx hj
  · rw [Deployment.processes_set_of_ne s hij] at hj
    exact h.processes j hj

/-- A thread that declares goes on. -/
theorem Deployed.register (h : Deployed s) {d : (Setup.setup (· = cfg)).State}
    (hs : (Setup.setup (· = cfg)).Step s.registry d) : Deployed { s with registry := d } :=
  ⟨h.registry.step hs, h.base, fun i hi => (h.processes i hi).step hs,
    fun t k p ht => (h.threads t k p ht).imp_right fun hc => hc.step hs, h.requests⟩

/-- Threads are killed, or something happens around them. -/
theorem Deployed.rebase (h : Deployed s) {b : (service R cfg).State}
    (hr : (service R cfg).Run s.base b)
    (hb : ∀ t k p, b.threads t = .running k p → s.base.threads t = .running k p) :
    Deployed (s.rebase b) :=
  ⟨h.registry, h.base.run hr, h.processes, fun t k p ht => h.threads t k p (hb t k p ht),
    fun t c p ht => h.requests t c p (hb t (.create c) p ht)⟩

theorem Deployed.killAll (h : Deployed s) (l : List ℕ) : Deployed (s.rebase (killAll s.base l)) :=
  h.rebase (run_killAll _ l) fun _ _ _ ht => (running_of_killAll ht).2

theorem Deployed.disconnect (h : Deployed s) (l : List ℕ) :
    Deployed (s.rebase (disconnect s.base l)) :=
  h.rebase (run_disconnect _ l) fun _ _ _ ht => ht

/-- A thread is started. -/
theorem Deployed.spawn (h : Deployed s) (i : ℕ) {k : Kind} {w : World}
    (hstart : Start s.base.born k s.base.world w)
    (hk : (∃ c, k = .create c) ∨ Complete cfg s.declared) : Deployed (s.spawn i k w) := by
  have hbase : (service R cfg).Step s.base (s.spawn i k w).base := .start hstart
  refine ⟨h.registry, h.base.step hbase, h.processes, fun t k' p ht => ?_, fun t c p ht => ?_⟩
  · by_cases htb : t = s.base.born
    · subst htb
      cases (Function.update_self s.base.born _ s.base.threads).symm.trans ht
      exact hk
    · exact h.threads t k' p ((Function.update_of_ne htb _ s.base.threads).symm.trans ht)
  · by_cases htb : t = s.base.born
    · subst htb
      cases (Function.update_self s.base.born _ s.base.threads).symm.trans ht
      exact Prog.wp_mono _ (createPayment_offBroker c) fun _ _ _ => trivial
    · exact h.requests t c p ((Function.update_of_ne htb _ s.base.threads).symm.trans ht)

/-- A thread performs an operation. -/
theorem Deployed.exec (h : Deployed s) {t : ℕ} {k : Kind} {o : Op} {c : Res o → Prog Op Res (Out k)}
    {r : Res o} {w : World} (ht : s.base.threads t = .running k (.op o c))
    (hx : Exec cfg t o r s.base.world w) :
    Deployed (s.rebase
      ⟨w, Function.update s.base.threads t (.running k (c r)), s.base.born⟩) := by
  refine ⟨h.registry, h.base.step (.exec ht hx), h.processes, fun t' k' p ht' => ?_,
    fun t' c' p ht' => ?_⟩
  · by_cases htt : t' = t
    · subst htt
      cases (Function.update_self t' _ s.base.threads).symm.trans ht'
      exact h.threads t' _ _ ht
    · exact h.threads t' k' p ((Function.update_of_ne htt _ s.base.threads).symm.trans ht')
  · by_cases htt : t' = t
    · subst htt
      cases (Function.update_self t' _ s.base.threads).symm.trans ht'
      exact (h.requests t' c' _ ht).2 r
    · exact h.requests t' c' p ((Function.update_of_ne htt _ s.base.threads).symm.trans ht')

/-- A thread that publishes has the whole topology. -/
theorem Deployed.publishing (h : Deployed s) {t : ℕ} {k : Kind} {p : Publication}
    {c : Res (.publish p) → Prog Op Res (Out k)}
    (ht : s.base.threads t = .running k (.op (.publish p) c)) : Complete cfg s.declared := by
  rcases h.threads t k _ ht with ⟨c', rfl⟩ | hc
  · exact (h.requests t c' _ ht).1.elim
  · exact hc

/-- What comes of an operation with what is declared, comes of it in the service. -/
theorem Deployed.exec_of_via (h : Deployed s) {t : ℕ} {k : Kind} {o : Op}
    {c : Res o → Prog Op Res (Out k)} {r : Res o} {w : World}
    (ht : s.base.threads t = .running k (.op o c))
    (hvia : ExecVia cfg s.declared t o r s.base.world w) : Exec cfg t o r s.base.world w := by
  refine hvia.exec (sound_of_reachable h.registry).conforms fun ⟨p, hp⟩ => ?_
  subst hp
  exact h.publishing ht

/-- **One step** of the processes is a run of the service. -/
theorem Deployed.step (h : Deployed s) (hs : Deployment.Step s s') :
    Deployed s' ∧ (service R cfg).Run s.base s'.base := by
  have hsound := sound_of_reachable h.registry
  cases hs with
  | serve hi => exact ⟨h.set _ (by simp [Process.working]), .refl⟩
  | start hi role =>
    have hstep : (Setup.setup (· = cfg)).Step s.registry s.join := .start ⟨rfl, rfl⟩
    exact ⟨(h.set _ (by simp [Process.working])).register hstep, .refl⟩
  | declaring _ hu hx => exact ⟨h.register (.exec hu hx), .refl⟩
  | ready _ hu => exact ⟨h.set _ fun _ => complete_of_returned h.registry hu, .refl⟩
  | failed _ _ => exact ⟨h.set _ (by simp [Process.working]), .refl⟩
  | @request i _ command =>
    exact ⟨h.spawn i (.create command _) (.inl ⟨command, rfl⟩), .single (.start (.create command _))⟩
  | @publish i hi _ =>
    have hc := h.processes i (by rw [hi]; rfl)
    exact ⟨(h.spawn i (.relay _) (.inr hc)).set i fun _ => hc, .single (.start (.relay _))⟩
  | @deliver i hi _ _ _ hqueue =>
    have hc := h.processes i (by rw [hi]; rfl)
    exact ⟨h.spawn i (.deliver hqueue) (.inr hc), .single (.start (.deliver hqueue))⟩
  | exec ht hvia =>
    have hx := h.exec_of_via ht hvia
    exact ⟨h.exec ht hx, .single (.exec ht hx)⟩
  | signal _ => exact ⟨⟨h.registry, h.base, h.processes, h.threads, h.requests⟩, .refl⟩
  | advance hadv => exact ⟨h.set _ fun hx => h.processes _ (hadv.working hx), .refl⟩
  | @left i _ l _ _ _ =>
    exact ⟨(h.disconnect l).set i (by simp [Process.working]), run_disconnect _ l⟩
  | @cutOff i _ _ l _ _ _ _ _ =>
    exact ⟨(h.killAll l).set i (by simp [Process.working]), run_killAll _ l⟩
  | @killed i l _ _ => exact ⟨(h.killAll l).set i (by simp [Process.working]), run_killAll _ l⟩
  | @killedStarting i u _ _ p hu =>
    have hstep : (Setup.setup (· = cfg)).Step s.registry
      ⟨s.declared, Function.update s.registry.threads u (.crashed cfg), s.registry.born⟩ :=
      .crash hu rfl
    exact ⟨(h.set i (by simp [Process.working])).register hstep, .refl⟩
  | @channelLost i l _ _ => exact ⟨h.disconnect l, run_disconnect _ l⟩
  | env he =>
    have hstep : (service R cfg).Step s.base _ := .env (he.environment hsound)
    exact ⟨h.rebase (.single hstep) fun _ _ _ ht => ht, .single hstep⟩

end Step

theorem deployed {s : Deployment R cfg} (h : Deployment.Reachable s) : Deployed s := by
  refine h.invariant (fun s hs => ?_) fun s s' _ ih hs => (ih.step hs).1
  obtain ⟨hreg, hbase, hproc, -⟩ := hs
  refine ⟨⟨_, hreg, .refl⟩, ⟨_, hbase, .refl⟩, fun i hi => ?_, fun t k p ht => ?_,
    fun t c p ht => ?_⟩
  · rw [hproc i] at hi
    cases hi
  · cases (hbase.2.1 t).symm.trans ht
  · cases (hbase.2.1 t).symm.trans ht

/-! ## Whose the threads are -/

/-- **Whose the threads and the deliveries are**, and who is told to stop. -/
structure Tidy (s : Deployment R cfg) : Prop where
  /-- The batch that a relay awaits is its own, and has not been killed. -/
  awaited : ∀ i t, s.processes i = .relay (.publishing t) →
    s.owner t = i ∧ ∃ p, s.base.threads t = .running .relay p
  /-- Threads that have something left to do belong to processes that run. -/
  busy : ∀ t, (service R cfg).Busy s.base t → (s.processes (s.owner t)).begun
  held : ∀ t, s.base.world.broker.unacked t = true → (s.processes (s.owner t)).begun
  started : ∀ t < s.base.born, s.processes (s.owner t) ≠ .unborn
  told : ∀ i, s.stopping i = true →
    s.processes i ≠ .unborn ∧ ∀ role u, s.processes i ≠ .starting role u
  few : ∃ N, ∀ i, N ≤ i → s.processes i = .unborn

section Tidy

variable {s s' : Deployment R cfg}

/-- A process that ends, or goes on, is not unborn. -/
theorem unborn_set {i : ℕ} {x : Process} (hx : x ≠ .unborn) {j : ℕ} (hj : s.processes j ≠ .unborn) :
    (s.set i x).processes j ≠ .unborn := by
  by_cases hij : j = i
  · subst hij
    rwa [Deployment.processes_set_self]
  · rwa [Deployment.processes_set_of_ne s hij]

theorem few_set (h : ∃ N, ∀ i, N ≤ i → s.processes i = .unborn) (i : ℕ) (x : Process) :
    ∃ N, ∀ j, N ≤ j → (s.set i x).processes j = .unborn := by
  obtain ⟨N, hN⟩ := h
  refine ⟨max N (i + 1), fun j hj => ?_⟩
  have hne : j ≠ i := by omega
  rw [Deployment.processes_set_of_ne s hne]
  exact hN j (by omega)

/-- A process moves on. -/
theorem Tidy.set (h : Tidy s) {i : ℕ} {x : Process}
    (hawaited : ∀ t, x = .relay (.publishing t) →
      s.owner t = i ∧ ∃ p, s.base.threads t = .running .relay p)
    (hbegun : (s.processes i).begun → x.begun) (hunborn : x ≠ .unborn)
    (htold : s.stopping i = true → ∀ role u, x ≠ .starting role u) : Tidy (s.set i x) := by
  have hkept : ∀ j, (s.processes j).begun → ((s.set i x).processes j).begun := by
    intro j hj
    by_cases hij : j = i
    · subst hij
      rw [Deployment.processes_set_self]
      exact hbegun hj
    · rwa [Deployment.processes_set_of_ne s hij]
  refine ⟨fun j t hj => ?_, fun t ht => hkept _ (h.busy t ht), fun t ht => hkept _ (h.held t ht),
    fun t ht => unborn_set hunborn (h.started t ht), fun j hj => ?_, few_set h.few i x⟩
  · by_cases hij : j = i
    · subst hij
      rw [Deployment.processes_set_self] at hj
      exact hawaited t hj
    · rw [Deployment.processes_set_of_ne s hij] at hj
      exact h.awaited j t hj
  · by_cases hij : j = i
    · subst hij
      rw [Deployment.processes_set_self]
      exact ⟨hunborn, htold hj⟩
    · rw [Deployment.processes_set_of_ne s hij]
      exact h.told j hj

theorem Tidy.register (h : Tidy s) (d : (Setup.setup (· = cfg)).State) :
    Tidy { s with registry := d } :=
  ⟨h.awaited, h.busy, h.held, h.started, h.told, h.few⟩

/-- The threads go on. -/
theorem Tidy.rebase (h : Tidy s) {b : (service R cfg).State} (hborn : b.born = s.base.born)
    (hrun : ∀ t k p, s.base.threads t = .running k p → ∃ p', b.threads t = .running k p')
    (hbusy : ∀ t, (service R cfg).Busy b t → (service R cfg).Busy s.base t)
    (hheld : ∀ t, b.world.broker.unacked t = true → s.base.world.broker.unacked t = true) :
    Tidy (s.rebase b) := by
  refine ⟨fun i t hi => ?_, fun t ht => h.busy t (hbusy t ht), fun t ht => h.held t (hheld t ht),
    fun t ht => h.started t (hborn ▸ ht), h.told, h.few⟩
  obtain ⟨howner, p, hp⟩ := h.awaited i t hi
  exact ⟨howner, hrun t _ p hp⟩

/-- A process starts a thread. -/
theorem Tidy.spawn (h : Tidy s) (hbase : (service R cfg).Reachable s.base) {i : ℕ}
    (hi : (s.processes i).begun) (k : Kind) {w : World}
    (hw : ∀ t ≠ s.base.born, w.broker.unacked t = s.base.world.broker.unacked t) :
    Tidy (s.spawn i k w) := by
  refine ⟨fun j t hj => ?_, fun t ht => ?_, fun t ht => ?_, fun t ht => ?_, h.told, h.few⟩
  · obtain ⟨howner, p, hp⟩ := h.awaited j t hj
    have hne : t ≠ s.base.born := fun heq => by
      cases hp.symm.trans (hbase.unborn (le_of_eq heq.symm))
    exact ⟨(Deployment.owner_spawn_of_ne s hne i k w).trans howner, p,
      (Deployment.threads_spawn_of_ne s hne i k w).trans hp⟩
  · by_cases hne : t = s.base.born
    · subst hne
      rw [Deployment.owner_spawn_self]
      exact hi
    · obtain ⟨k', o, c, ht⟩ := ht
      rw [Deployment.threads_spawn_of_ne s hne] at ht
      rw [Deployment.owner_spawn_of_ne s hne]
      exact h.busy t ⟨k', o, c, ht⟩
  · by_cases hne : t = s.base.born
    · subst hne
      rw [Deployment.owner_spawn_self]
      exact hi
    · rw [Deployment.owner_spawn_of_ne s hne]
      exact h.held t ((hw t hne).symm.trans ht)
  · by_cases hne : t = s.base.born
    · subst hne
      rw [Deployment.owner_spawn_self]
      exact Process.ne_unborn_of_begun hi
    · rw [Deployment.owner_spawn_of_ne s hne]
      have hlt : t < s.base.born + 1 := ht
      exact h.started t (by omega)

/-- A process ends, and its threads with it. -/
theorem Tidy.end (h : Tidy s) {b : (service R cfg).State} {i : ℕ} (e : Exit)
    (hborn : b.born = s.base.born)
    (hthreads : ∀ t, s.owner t ≠ i → b.threads t = s.base.threads t)
    (hbusy : ∀ t, (service R cfg).Busy b t → s.owner t ≠ i)
    (hheld : ∀ t, b.world.broker.unacked t = true →
      s.base.world.broker.unacked t = true ∧ s.owner t ≠ i) :
    Tidy ((s.rebase b).set i (.ended e)) := by
  have hkept : ∀ j ≠ i, ((s.rebase b).set i (.ended e)).processes j = s.processes j :=
    fun j hj => Deployment.processes_set_of_ne (s.rebase b) hj _
  refine ⟨fun j t hj => ?_, fun t ht => ?_, fun t ht => ?_, fun t ht => ?_, fun j hj => ?_,
    few_set (s := s.rebase b) h.few i _⟩
  · have hij : j ≠ i := by
      rintro rfl
      rw [Deployment.processes_set_self] at hj
      cases hj
    obtain ⟨howner, p, hp⟩ := h.awaited j t ((hkept j hij).symm.trans hj)
    exact ⟨howner, p, (hthreads t (howner.trans_ne hij)).trans hp⟩
  · have hne := hbusy t ht
    obtain ⟨k, o, c, ht⟩ := ht
    exact (congrArg Process.begun (hkept _ hne)).trans
      (h.busy t ⟨k, o, c, (hthreads t hne).symm.trans ht⟩)
  · obtain ⟨hu, hne⟩ := hheld t ht
    exact (congrArg Process.begun (hkept _ hne)).trans (h.held t hu)
  · exact unborn_set (s := s.rebase b) (by simp) (h.started t (hborn ▸ ht))
  · by_cases hij : j = i
    · subst hij
      rw [Deployment.processes_set_self]
      simp
    · exact (hkept j hij).symm ▸ h.told j hj

theorem Tidy.killAll (h : Tidy s) (hd : Deployed s) {i : ℕ} {l : List ℕ} (hl : s.Lists i l)
    (e : Exit) : Tidy ((s.rebase (Payments.killAll s.base l)).set i (.ended e)) := by
  refine h.end e (born_killAll _ l) (fun t ht => ?_) (fun t ht heq => ?_) fun t hu => ?_
  · exact threads_killAll fun hmem => ht (hl.owned t hmem)
  · obtain ⟨k, o, c, ht⟩ := ht
    obtain ⟨hnot, ht⟩ := running_of_killAll ht
    exact hnot (hl.busy t heq ⟨k, o, c, ht⟩)
  · have hu' := unacked_of_killAll hu
    refine ⟨hu', fun heq => ?_⟩
    obtain ⟨-, k, p, ht⟩ := running_of_unacked (hd.base.run (run_killAll _ l)) hu
    exact (running_of_killAll ht).1 (hl.held t heq hu')

theorem Tidy.step (h : Tidy s) (hd : Deployed s) (hs : Deployment.Step s s') : Tidy s' := by
  cases hs with
  | serve hi => exact h.set (by simp) (by simp [hi, Process.begun]) (by simp) (by simp)
  | @start i hi role =>
    have hset := h.set (i := i) (x := .starting role s.registry.born) (by simp)
      (by simp [hi, Process.begun]) (by simp) fun hstop => absurd hi (h.told i hstop).1
    exact hset.register s.join
  | declaring _ _ _ => exact h.register _
  | @ready i u role hi _ =>
    refine h.set (fun t => ?_) (by simp [hi, Process.begun]) ?_ fun hstop =>
      absurd hi ((h.told i hstop).2 role u)
    · cases role <;> simp [Role.begin]
    · cases role <;> simp [Role.begin]
  | failed hi _ => exact h.set (by simp) (by simp [hi, Process.begun]) (by simp) (by simp)
  | request hi command => exact h.spawn hd.base (by rw [hi]; rfl) _ fun _ _ => rfl
  | @publish i hi _ =>
    refine (h.spawn hd.base (by rw [hi]; rfl) .relay fun _ _ => rfl).set (fun t ht => ?_)
      (fun _ => rfl) (by simp) (by simp)
    cases ht
    exact ⟨Function.update_self .., _, Function.update_self ..⟩
  | deliver hi _ =>
    exact h.spawn hd.base (by rw [hi]; rfl) _ fun t ht => Function.update_of_ne ht ..
  | @exec t k o c r w ht hvia =>
    have hx := hd.exec_of_via ht hvia
    refine h.rebase rfl (fun t' k' p ht' => ?_) (fun t' ht' => ?_) fun t' hu => hx.unacked_of hu
    · by_cases htt : t' = t
      · subst htt
        cases ht.symm.trans ht'
        exact ⟨_, Function.update_self ..⟩
      · exact ⟨p, (Function.update_of_ne htt ..).trans ht'⟩
    · by_cases htt : t' = t
      · subst htt
        exact ⟨k, o, c, ht⟩
      · obtain ⟨k', o', c', ht'⟩ := ht'
        exact ⟨k', o', c', (Function.update_of_ne htt ..).symm.trans ht'⟩
  | @signal i hi =>
    refine ⟨h.awaited, h.busy, h.held, h.started, fun j hj => ?_, h.few⟩
    by_cases hij : j = i
    · subst hij
      exact ⟨Process.ne_unborn_of_begun hi, Process.ne_starting_of_begun hi⟩
    · exact h.told j ((Function.update_of_ne hij ..).symm.trans hj)
  | advance hadv =>
    have hy := hadv.begun.2
    exact h.set (fun t ht => absurd ht (hadv.idle t)) (fun _ => hy) (Process.ne_unborn_of_begun hy)
      fun _ => Process.ne_starting_of_begun hy
  | @left i _ l hi hidle hl =>
    refine h.end .finished rfl (fun _ _ => rfl) (fun t ht heq => hidle t heq ht) fun t hu => ?_
    have hu' := unacked_of_disconnect hu
    refine ⟨hu', fun heq => ?_⟩
    obtain ⟨⟨e, he⟩, -⟩ := running_of_unacked hd.base hu'
    rw [unacked_disconnect he (hl.held t heq hu')] at hu
    cases hu
  | cutOff _ _ _ _ hl => exact h.killAll hd hl .cutOff
  | killed _ hl => exact h.killAll hd hl .killed
  | @killedStarting i _ _ hi _ _ =>
    have hset := h.set (i := i) (x := .ended .killed) (by simp) (by simp [hi, Process.begun]) (by simp)
      (by simp)
    exact hset.register _
  | channelLost _ _ =>
    exact h.rebase rfl (fun _ _ p ht => ⟨p, ht⟩) (fun _ ht => ht) fun _ => unacked_of_disconnect
  | env he =>
    have henv := he.environment (sound_of_reachable hd.registry)
    exact h.rebase rfl (fun _ _ p ht => ⟨p, ht⟩) (fun _ ht => ht) fun _ => henv.unacked_of

end Tidy

theorem tidy {s : Deployment R cfg} (h : Deployment.Reachable s) : Tidy s := by
  refine h.invariant (fun s hs => ?_) fun s s' h ih hs => ih.step (deployed h) hs
  obtain ⟨-, ⟨⟨clock, hw⟩, hbase, hborn⟩, hproc, hstop⟩ := hs
  refine ⟨fun i t hi => ?_, fun t ht => ?_, fun t hu => ?_, fun t ht => ?_, fun i hi => ?_, 0,
    fun i _ => hproc i⟩
  · cases (hproc i).symm.trans hi
  · obtain ⟨k, o, c, ht⟩ := ht
    cases (hbase t).symm.trans ht
  · rw [hw] at hu
    cases hu
  · omega
  · cases (hstop i).symm.trans hi

/-! ## The processes can do what the service does -/

section Via

variable {D : Setup.Declared}

/-- What the service publishes goes to an exchange of the topology. -/
theorem exchange_of_publishing {s : (service R cfg).State} (h : (service R cfg).Reachable s)
    (hc : Complete cfg D) {t : ℕ} {k : Kind} {p : Publication}
    {c : Res (.publish p) → Prog Op Res (Out k)}
    (ht : s.threads t = .running k (.op (.publish p) c)) : (D.exchanges p.exchange).isSome := by
  have hknown : ∀ e ∈ [Setup.paymentsExchange, Setup.retryExchange, Setup.dlxExchange],
      (D.exchanges e.name).isSome := by
    intro e he
    have hdeclared : D.exchanges e.name = some e := hc _ (Setup.mem_operations_exchange.mpr he)
    rw [hdeclared]
    rfl
  obtain ⟨v, -, htr⟩ := Machine.Spec.tracked (serviceSpec R cfg) h
  obtain ⟨φ, -, hm⟩ := exists_phase htr ht
  obtain ⟨φ', hm⟩ := hm (.ok ())
  cases hm with
  | api hm => cases hm
  | relay hm =>
    cases hm
    exact hknown Setup.paymentsExchange (by simp)
  | consumer hm =>
    cases hm with
    | malformed => exact hknown Setup.dlxExchange (by simp)
    | routed =>
      unfold failurePublication
      split
      · exact hknown Setup.dlxExchange (by simp)
      · split
        · exact hknown Setup.dlxExchange (by simp)
        · exact hknown Setup.retryExchange (by simp)

/-- With the whole topology, what may happen in the service may happen. -/
theorem ExecVia.of_exec {t : ℕ} {o : Op} {r : Res o} {w w' : World} (h : Exec cfg t o r w w')
    (hconf : Setup.Conforms (· = cfg) D)
    (hpub : ∀ p, o = .publish p → Complete cfg D ∧ (D.exchanges p.exchange).isSome) :
    ExecVia cfg D t o r w w' := by
  by_cases hp : ∃ p, o = .publish p
  · obtain ⟨p, rfl⟩ := hp
    obtain ⟨hc, hx⟩ := hpub p rfl
    have haccept : w.accept t cfg p = w.acceptVia D t p := by
      unfold World.acceptVia World.accept
      rw [bindings_eq_route hconf hc]
    cases h with
    | confirmed =>
      rw [haccept]
      exact .confirmed _ hx
    | confirmationLost _ _ e =>
      rw [haccept]
      exact .confirmationLost _ hx e
    | refused _ _ e => exact .refused _ p e
  · exact .other (fun p heq => hp ⟨p, heq⟩) h

/-- And what may happen of itself, but that a channel is lost. -/
theorem EnvironmentVia.of_environment {w w' : World} (h : Environment cfg w w')
    (hconf : Setup.Conforms (· = cfg) D) (hc : Complete cfg D) :
    EnvironmentVia D w w' ∨ ∃ t, w' = { w with broker := w.broker.requeue t } := by
  have hqueue : ∀ q ∈ queues cfg, D.queues q.name = some q.arguments := by
    intro q hq
    obtain ⟨b, hb, rfl⟩ := List.mem_map.mp hq
    exact (hc _ (Setup.mem_operations_of_binding hb).1).1
  cases h with
  | tick h => exact .inl (.tick h)
  | foreign m =>
    have hmain : D.queues paymentsNewQueueName = some paymentsNewQueue.arguments :=
      (hc _ (Setup.mem_operations_queue.mpr (.inl rfl))).1
    exact .inl (.foreign _ m (by rw [hmain]; rfl))
  | channelLost t => exact .inr ⟨t, rfl⟩
  | expired h =>
    cases h with
    | @intro q hq exchange routingKey hx hk before after e h headers hh =>
      rw [← bindings_eq_route hconf hc]
      exact .inl (.expired (hqueue q hq) hx hk h hh)

end Via

/-- A thread may get from an operation what it may get in the service. -/
theorem Deployed.via_of_exec {s : Deployment R cfg} (h : Deployed s) {t : ℕ} {k : Kind} {o : Op}
    {c : Res o → Prog Op Res (Out k)} {r : Res o} {w : World}
    (ht : s.base.threads t = .running k (.op o c)) (hx : Exec cfg t o r s.base.world w) :
    ExecVia cfg s.declared t o r s.base.world w := by
  refine .of_exec hx (sound_of_reachable h.registry).conforms fun p hp => ?_
  subst hp
  have hc := h.publishing ht
  exact ⟨hc, exchange_of_publishing h.base hc ht⟩

namespace Deployment

variable {s : Deployment R cfg}

/-- A process that starts can declare what the broker accepts. -/
theorem run_declaring {i u : ℕ} {role : Role} (hi : s.processes i = .starting role u)
    {ops : List Setup.SetupOp} (hu : s.registry.threads u = .running cfg (Action.script ops).run)
    (h : Registry.AcceptsAll (G := Setup.registry) s.declared ops) :
    Run s { s with
      registry := ⟨Registry.declareAll (G := Setup.registry) s.declared ops,
        Function.update s.registry.threads u (.running cfg (.ret (.ok ()))), s.registry.born⟩ } := by
  let C (p : Prog Setup.SetupOp (Faulty Setup.SetupOp ForeignError)
      (Except (Fault ForeignError) Unit)) (D : Setup.Declared) : Deployment R cfg :=
    { s with
      registry := ⟨D, Function.update s.registry.threads u (.running cfg p), s.registry.born⟩ }
  have hexec : ∀ {o k r D D'}, Registry.Answers (G := Setup.registry) o r D D' →
      Step (C (.op o k) D) (C (k r) D') := fun {o k r D D'} hx => by
    have hx' : Setup.registry.Exec o r D D' := by
      cases hx with
      | done h => exact .done h
      | refused h => exact .refused h
    have hstep := Step.declaring (s := C (.op o k) D) hi (Function.update_self ..) hx'
    rwa [show (C (.op o k) D).registry.threads = Function.update s.registry.threads u
      (.running cfg (.op o k)) from rfl, Function.update_idem] at hstep
  obtain ⟨out, D, ⟨rfl, rfl⟩, hr⟩ :=
    exists_run_of_wp hexec (Registry.script_executes_iff.mpr (.inl ⟨rfl, h, rfl⟩)).possible
  have hsame : C (Action.script ops).run s.declared = s := by
    simp only [C]
    rw [← hu, Function.update_eq_self]
  rwa [hsame] at hr

/-- A process can be started. -/
theorem exists_unborn (h : Reachable s) :
    ∃ i, s.processes i = .unborn ∧ s.stopping i = false ∧ ∀ t < s.base.born, s.owner t ≠ i := by
  obtain ⟨N, hN⟩ := (tidy h).few
  have hunborn : s.processes N = .unborn := hN N le_rfl
  refine ⟨N, hunborn, ?_, fun t ht heq => (tidy h).started t ht (heq ▸ hunborn)⟩
  by_contra hstop
  exact ((tidy h).told N (by simpa using hstop)).1 hunborn

/-- **A process can be started**, and gets to its work. -/
theorem exists_working (hcfg : Setup.Agreeing (· = cfg)) (h : Reachable s) (role : Role) :
    ∃ s' i, Run s s' ∧ s'.base = s.base ∧ s'.owner = s.owner ∧ s'.processes i = role.begin ∧
      s'.stopping = s.stopping ∧ s.stopping i = false ∧ (∀ t < s.base.born, s.owner t ≠ i) ∧
      s.processes i = .unborn ∧ ∀ j ≠ i, s'.processes j = s.processes j := by
  obtain ⟨i, hi, hstop, hfresh⟩ := exists_unborn h
  let s₁ : Deployment R cfg :=
    { s.set i (.starting role s.registry.born) with registry := s.join }
  have hcode : s₁.registry.threads s.registry.born =
      .running cfg (Action.script (Setup.operations cfg)).run := by
    rw [← Setup.declareTopology_eq]
    exact Function.update_self s.registry.born _ s.registry.threads
  have hsound := sound_of_reachable (deployed h).registry
  have hall : Registry.AcceptsAll (G := Setup.registry) s₁.registry.world (Setup.operations cfg) :=
    hcfg.harmony.acceptsScript rfl hsound
  have hrun := run_declaring (s := s₁) (processes_set_self s i _) hcode hall
  refine ⟨_, i, (ReflTransGen.head (.start hi role) hrun).tail
    (.ready (i := i) (processes_set_self s i _) (Function.update_self s.registry.born _ _)), rfl,
    rfl, ?_, rfl, hstop, hfresh, hi, fun j hj => ?_⟩
  · exact Function.update_self i _ _
  · exact (Function.update_of_ne hj _ _).trans (Function.update_of_ne hj _ _)

/-- Every thread has a process of its own, which has not ended if the thread was not killed. -/
structure Solo (s : Deployment R cfg) : Prop where
  alone : ∀ t t', t < s.base.born → t' < s.base.born → s.owner t = s.owner t' → t = t'
  running : ∀ t k p, s.base.threads t = .running k p → (s.processes (s.owner t)).begun

section Solo

variable {s' : Deployment R cfg}

/-- A process is started. -/
theorem Solo.grow (h : Solo s) {i : ℕ} (hbase : s'.base = s.base) (howner : s'.owner = s.owner)
    (hi : s.processes i = .unborn) (hproc : ∀ j ≠ i, s'.processes j = s.processes j) : Solo s' := by
  refine ⟨fun t t' ht ht' heq => h.alone t t' (hbase ▸ ht) (hbase ▸ ht') (howner ▸ heq),
    fun t k p ht => ?_⟩
  have hbegun := h.running t k p (hbase ▸ ht)
  have hne : s.owner t ≠ i := by
    rintro rfl
    rw [hi] at hbegun
    cases hbegun
  rw [howner, hproc _ hne]
  exact hbegun

theorem Solo.set (h : Solo s) {i : ℕ} {x : Process} (hx : x.begun) : Solo (s.set i x) := by
  refine ⟨h.alone, fun t k p ht => ?_⟩
  by_cases hi : s.owner t = i
  · change ((s.set i x).processes (s.owner t)).begun
    rw [hi, processes_set_self]
    exact hx
  · change ((s.set i x).processes (s.owner t)).begun
    rw [processes_set_of_ne s hi]
    exact h.running t k p ht

/-- A process starts its first thread. -/
theorem Solo.spawn (h : Solo s) {i : ℕ} (hi : (s.processes i).begun)
    (hfresh : ∀ t < s.base.born, s.owner t ≠ i) (k : Kind) (w : World) : Solo (s.spawn i k w) := by
  refine ⟨fun t t' ht ht' heq => ?_, fun t k' p ht => ?_⟩
  · have hlt : t < s.base.born + 1 := ht
    have hlt' : t' < s.base.born + 1 := ht'
    by_cases htb : t = s.base.born
    · by_cases htb' : t' = s.base.born
      · exact htb.trans htb'.symm
      · rw [htb, owner_spawn_self, owner_spawn_of_ne s htb'] at heq
        exact absurd heq.symm (hfresh t' (by omega))
    · by_cases htb' : t' = s.base.born
      · rw [htb', owner_spawn_self, owner_spawn_of_ne s htb] at heq
        exact absurd heq (hfresh t (by omega))
      · rw [owner_spawn_of_ne s htb, owner_spawn_of_ne s htb'] at heq
        exact h.alone t t' (by omega) (by omega) heq
  · by_cases htb : t = s.base.born
    · subst htb
      rw [owner_spawn_self]
      exact hi
    · rw [threads_spawn_of_ne s htb] at ht
      rw [owner_spawn_of_ne s htb]
      exact h.running t k' p ht

theorem lt_born_of_running (h : Reachable s) {t : ℕ} {k : Kind} {p : Prog Op Res (Out k)}
    (ht : s.base.threads t = .running k p) : t < s.base.born := by
  by_contra hge
  cases ht.symm.trans ((deployed h).base.unborn (not_lt.mp hge))

/-- Its thread is the only one of a process. -/
theorem Solo.lists (h : Solo s) (hs : Reachable s) {t : ℕ} {k : Kind} {p : Prog Op Res (Out k)}
    (ht : s.base.threads t = .running k p) : s.Lists (s.owner t) [t] := by
  have hlt := lt_born_of_running hs ht
  refine ⟨fun t' ht' => ?_, fun t' heq hbusy => ?_, fun t' heq hu => ?_⟩
  · rw [List.mem_singleton.mp ht']
  · obtain ⟨k', o, c, ht'⟩ := hbusy
    exact List.mem_singleton.mpr (h.alone t' t (lt_born_of_running hs ht') hlt heq)
  · obtain ⟨-, k', p', ht'⟩ := running_of_unacked (deployed hs).base hu
    exact List.mem_singleton.mpr (h.alone t' t (lt_born_of_running hs ht') hlt heq)

/-- A new process starts the thread. -/
theorem Solo.exists_start (hcfg : Setup.Agreeing (· = cfg)) (h : Solo s) (hs : Reachable s) {k : Kind}
    {w : World} (hstart : Start s.base.born k s.base.world w) :
    ∃ s', Run s s' ∧ Solo s' ∧ s'.base =
      ⟨w, Function.update s.base.threads s.base.born (.running k (code R cfg k)), s.base.born + 1⟩ := by
  cases hstart with
  | create command =>
    obtain ⟨i, hi, -, hfresh⟩ := exists_unborn hs
    have hserve : Step s (s.set i .api) := .serve hi
    have hsolo := (h.set (i := i) (x := .api) rfl).spawn (by simp [Process.begun]) hfresh
      (.create command) s.base.world
    exact ⟨_, (ReflTransGen.single hserve).tail (.request (processes_set_self s i _) command),
      hsolo, rfl⟩
  | relay =>
    obtain ⟨s₁, i, hr, hbase, howner, hi, hstop, hnot, hfresh, hunborn, hproc⟩ :=
      exists_working hcfg hs .relay
    have hsolo := (h.grow hbase howner hunborn hproc).spawn (by rw [hi]; rfl)
      (by rwa [hbase, howner]) .relay s₁.base.world
    refine ⟨_, hr.tail (.publish hi (by rw [hstop]; exact hnot)), hsolo.set rfl, ?_⟩
    rw [← hbase]
    rfl
  | @deliver _ e before after hqueue =>
    obtain ⟨s₁, i, hr, hbase, howner, hi, -, -, hfresh, hunborn, hproc⟩ :=
      exists_working hcfg hs .consumer
    rw [← hbase] at hqueue
    have hsolo := (h.grow hbase howner hunborn hproc).spawn (by rw [hi]; rfl)
      (by rwa [hbase, howner]) (.deliver e) { s₁.base.world with
        broker := s₁.base.world.broker.deliver s₁.base.born e (before ++ after) }
    refine ⟨_, hr.tail (.deliver hi hqueue), hsolo, ?_⟩
    rw [← hbase]
    rfl

/-- The process of the thread is killed, and has no other. -/
theorem Solo.exists_killed (h : Solo s) (hs : Reachable s) {t : ℕ} {k : Kind}
    {p : Prog Op Res (Out k)} (ht : s.base.threads t = .running k p) :
    ∃ s', Run s s' ∧ Solo s' ∧ s'.base =
      ⟨s.base.world.crash t, Function.update s.base.threads t (.crashed k), s.base.born⟩ := by
  have hkilled := Step.killed (h.running t k p ht) (h.lists hs ht)
  refine ⟨_, .single hkilled, ⟨fun t₁ t₂ ht₁ ht₂ => ?_, fun t' k' p' ht' => ?_⟩,
    kill_of_running ht⟩
  · rw [base_set, base_rebase, born_killAll] at ht₁ ht₂
    exact h.alone t₁ t₂ ht₁ ht₂
  · obtain ⟨hnot, ht'⟩ := running_of_killAll ht'
    have hne : s.owner t' ≠ s.owner t := fun heq => hnot (List.mem_singleton.mpr
      (h.alone t' t (lt_born_of_running hs ht') (lt_born_of_running hs ht) heq))
    exact (congrArg Process.begun (processes_set_of_ne (s.rebase (killAll s.base [t])) hne _)).trans
      (h.running t' k' p' ht')

/-- With a consumer, everything is declared that messages pass through. -/
theorem Solo.exists_environment (hcfg : Setup.Agreeing (· = cfg)) (h : Solo s) (hs : Reachable s)
    {w : World} (he : Environment cfg s.base.world w) :
    ∃ s', Run s s' ∧ Solo s' ∧ s'.base = ⟨w, s.base.threads, s.base.born⟩ := by
  obtain ⟨s₁, i, hr, hbase, howner, hi, -, -, -, hunborn, hproc⟩ :=
    exists_working hcfg hs .consumer
  have h₁ := deployed (hs.run hr)
  have hsolo := h.grow hbase howner hunborn hproc
  have hc := h₁.processes i (by rw [hi]; rfl)
  rcases EnvironmentVia.of_environment he (sound_of_reachable h₁.registry).conforms hc with
    hvia | ⟨t, rfl⟩
  · rw [← hbase] at hvia
    refine ⟨_, hr.tail (.env hvia), ⟨hsolo.alone, hsolo.running⟩, ?_⟩
    rw [← hbase]
    rfl
  · cases hu : s.base.world.broker.unacked t with
    | true =>
      obtain ⟨-, k, p, ht⟩ := running_of_unacked (deployed hs).base hu
      exact ⟨_, .single (.channelLost (h.running t k p ht) (h.lists hs ht)),
        ⟨h.alone, h.running⟩, rfl⟩
    | false =>
      have hsame : s.base.world.broker.requeue t = s.base.world.broker :=
        (Broker.requeue_cases _ t).resolve_right fun ⟨e, _, hu', _⟩ => by
          rw [hu] at hu'
          cases hu'
      refine ⟨s, .refl, h, ?_⟩
      rw [hsame]

/-- **What the service can do, the processes can do**, each with one thread. -/
theorem Solo.exists_step (hcfg : Setup.Agreeing (· = cfg)) (h : Solo s) (hs : Reachable s)
    {b : (service R cfg).State} (hb : (service R cfg).Step s.base b) :
    ∃ s', Run s s' ∧ Solo s' ∧ s'.base = b := by
  cases hb with
  | start hstart => exact h.exists_start hcfg hs hstart
  | @exec t k o c r w ht hx =>
    have hvia := (deployed hs).via_of_exec ht hx
    refine ⟨_, .single (.exec ht hvia), ⟨h.alone, fun t' k' p ht' => ?_⟩, rfl⟩
    by_cases htt : t' = t
    · subst htt
      exact h.running t' k _ ht
    · exact h.running t' k' p ((Function.update_of_ne htt ..).symm.trans ht')
  | @crash t k p w ht hw =>
    obtain rfl : w = s.base.world.crash t := hw
    exact h.exists_killed hs ht
  | env he => exact h.exists_environment hcfg hs he

end Solo

/-- Nothing has been started but what runs in `b`. -/
def initial (b : (service R cfg).State) : Deployment R cfg :=
  ⟨⟨.empty, fun _ => .unborn, 0⟩, b, fun _ => .unborn, fun _ => false, fun _ => 0⟩

/-- **Every state of the service is one of a deployment.** -/
theorem exists_reachable (hcfg : Setup.Agreeing (· = cfg)) {b : (service R cfg).State}
    (h : (service R cfg).Reachable b) : ∃ s, Reachable s ∧ Solo s ∧ s.base = b := by
  refine h.induction (I := fun b => ∃ s : Deployment R cfg, Reachable s ∧ Solo s ∧ s.base = b)
    (fun b hb => ?_) fun b b' _ ih hb => ?_
  · refine ⟨initial b, ⟨_, ⟨⟨rfl, fun _ => rfl, rfl⟩, hb, fun _ => rfl, fun _ => rfl⟩, .refl⟩,
      ⟨fun t t' ht => ?_, fun t k p ht => ?_⟩, rfl⟩
    · have hborn : b.born = 0 := hb.2.2
      have hlt : t < b.born := ht
      omega
    · cases (hb.2.1 t).symm.trans ht
  · obtain ⟨s, hs, hsolo, rfl⟩ := ih
    obtain ⟨s', hr, hsolo', hbase⟩ := hsolo.exists_step hcfg hs hb
    exact ⟨s', hs.run hr, hsolo', hbase⟩

/-- What the processes do, the service does. -/
theorem Run.service {s' : Deployment R cfg} (h : Reachable s) (hr : Run s s') :
    (service R cfg).Run s.base s'.base := by
  induction hr with
  | refl => exact .refl
  | tail hr hs ih => exact ih.trans ((deployed (h.run hr)).step hs).2

end Deployment

/-- **The deployment is the service.** The processes over a broker that has only what they have
declared in it, where a process ends with all its threads, bring the database, the broker and the
threads to exactly the states of `service`, which has the topology from the beginning. In each of
them, what they do is a run of the service, a thread that has something left to do belongs to a
process that has not ended, and whenever a thread publishes and as long as a process works the
broker routes as `route` says. -/
theorem deployment_refines (hcfg : Setup.Agreeing (· = cfg)) :
    (∀ b, (∃ s : Deployment R cfg, Deployment.Reachable s ∧ s.base = b) ↔
      (service R cfg).Reachable b) ∧
    ∀ s : Deployment R cfg, Deployment.Reachable s →
      (∀ s', Deployment.Run s s' → (service R cfg).Run s.base s'.base) ∧
      (∀ t, (service R cfg).Busy s.base t → (s.processes (s.owner t)).begun) ∧
      ((∃ i, (s.processes i).working) ∨
        (∃ t k p c, s.base.threads t = .running k (.op (.publish p) c)) →
          ∀ x k, s.declared.bindings x k = (route cfg x k).map RabbitQueue.name) := by
  refine ⟨fun b => ⟨?_, fun hb => ?_⟩, fun s h => ⟨fun s' hr => hr.service h, (tidy h).busy,
    fun hwork => ?_⟩⟩
  · rintro ⟨s, h, rfl⟩
    exact (deployed h).base
  · obtain ⟨s, h, -, hbase⟩ := Deployment.exists_reachable hcfg hb
    exact ⟨s, h, hbase⟩
  · have hc : Complete cfg s.declared := by
      rcases hwork with ⟨i, hi⟩ | ⟨t, k, p, c, ht⟩
      · exact (deployed h).processes i hi
      · exact (deployed h).publishing ht
    exact bindings_eq_route (sound_of_reachable (deployed h).registry).conforms hc

/-- A payment was made and its client notified, and a relay works. -/
theorem deployment_refines_default :
    ∃ (s : Deployment .transparent default) (i : ℕ) (id : Python.UUID) (p : Payment),
      s.processes i = .relay .checking ∧ s.base.world.payments.rows id = some p ∧ p.Settled ∧
      p.webhookDeliveredAt.isSome ∧
      ∀ x k, s.declared.bindings x k = (route default x k).map RabbitQueue.name := by
  obtain ⟨s, s', p, p', h, hr, -, -, hp', hset, hdelivered, -⟩ := exists_book_done
  have hrefines := deployment_refines (R := .transparent) Setup.agreeing_default
  obtain ⟨d, hd, rfl⟩ := (hrefines.1 s').mpr (h.run hr)
  obtain ⟨d', i, hr', hbase, -, hi, -⟩ :=
    Deployment.exists_working Setup.agreeing_default hd .relay
  refine ⟨d', i, p.id, p', hi, hbase ▸ hp', hset, hdelivered, ?_⟩
  exact (hrefines.2 d' (hd.run hr')).2.2 (.inl ⟨i, by rw [hi]; rfl⟩)

end Payments
