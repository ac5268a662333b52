import PaymentProcessing.Broker.Setup

/-!
# Starting up

Relays and consumers declare the topology when they start, at the same time, and may be killed while
they do. If their settings agree on the delays, nothing is ever refused, a retry queue never exists
without its way back to `payments.new`, and a process that has declared the topology finds the
broker to route as `route` says for good (`topology_setup`). `topology_restart` is about a change of
the settings.
-/

namespace Payments

namespace Setup

open Effects Registry

/-! ## The script -/

/-- The operations for the `n`-th retry queue. -/
def retryOperations (cfg : Settings) (n : ℕ) : List SetupOp :=
  [.declareQueue (retryQueue cfg n), .bind (retryQueueName n) Payments.retryExchange (retryRoutingKey n)]

/-- What `payments.new` needs, and with it every message that comes back. -/
def mainOperations : List SetupOp :=
  [.declareExchange paymentsExchange, .declareExchange retryExchange, .declareExchange dlxExchange,
    .declareQueue paymentsNewQueue,
    .bind paymentsNewQueueName Payments.paymentsExchange paymentsNewRoutingKey]

/-- The operations for the dead-letter queue. -/
def dlqOperations : List SetupOp :=
  [.declareQueue dlqQueue, .bind dlqName Payments.dlxExchange dlqRoutingKey]

/-- The operations of `declare_topology`. -/
def operations (cfg : Settings) : List SetupOp :=
  mainOperations ++ ((List.range' 1 cfg.maxRetries).flatMap (retryOperations cfg) ++ dlqOperations)

theorem declareRetryQueues_eq (cfg : Settings) (ns : List ℕ) :
    declareRetryQueues (ns.map fun n => (retryQueue cfg n, n)) =
      Action.script (ns.flatMap (retryOperations cfg)) := by
  induction ns with
  | nil => rfl
  | cons n ns ih =>
    rw [List.map_cons, declareRetryQueues, ih, List.flatMap_cons, Action.script_append]
    simp only [retryOperations, Action.script, bind_assoc, pure_bind]
    rfl

/-- **`declare_topology` is a script.** -/
theorem declareTopology_eq (cfg : Settings) :
    declareTopology cfg = Action.script (operations cfg) := by
  rw [operations, Action.script_append, Action.script_append, ← declareRetryQueues_eq]
  simp only [declareTopology, zipIdx_buildRetryQueues, mainOperations, dlqOperations, Action.script,
    bind_assoc, bind_pure_unit]
  rfl

/-! ## What may be declared -/

/-- Some settings in use declare it. -/
def Legal (InUse : Settings → Prop) (o : SetupOp) : Prop := ∃ cfg, InUse cfg ∧ o ∈ operations cfg

section Legal

variable {InUse : Settings → Prop} {cfg : Settings} {o : SetupOp}

theorem mem_operations : o ∈ operations cfg ↔ o ∈ mainOperations ∨
    (∃ n, (1 ≤ n ∧ n ≤ cfg.maxRetries) ∧ o ∈ retryOperations cfg n) ∨ o ∈ dlqOperations := by
  have hrange : ∀ n, n ∈ List.range' 1 cfg.maxRetries ↔ 1 ≤ n ∧ n ≤ cfg.maxRetries := by
    intro n
    rw [List.mem_range'_1]
    omega
  simp only [operations, List.mem_append, List.mem_flatMap, hrange]

theorem mem_operations_exchange {e : RabbitExchange} :
    .declareExchange e ∈ operations cfg ↔ e ∈ [paymentsExchange, retryExchange, dlxExchange] := by
  simp [mem_operations, mainOperations, retryOperations, dlqOperations]

theorem mem_operations_queue {q : RabbitQueue} :
    .declareQueue q ∈ operations cfg ↔ q = paymentsNewQueue ∨
      (∃ n, (1 ≤ n ∧ n ≤ cfg.maxRetries) ∧ q = retryQueue cfg n) ∨ q = dlqQueue := by
  simp [mem_operations, mainOperations, retryOperations, dlqOperations]

theorem mem_operations_bind {q x k : String} :
    .bind q x k ∈ operations cfg ↔
      (q = paymentsNewQueueName ∧ x = Payments.paymentsExchange ∧ k = paymentsNewRoutingKey) ∨
      (∃ n, (1 ≤ n ∧ n ≤ cfg.maxRetries) ∧
        q = retryQueueName n ∧ x = Payments.retryExchange ∧ k = retryRoutingKey n) ∨
      (q = dlqName ∧ x = Payments.dlxExchange ∧ k = dlqRoutingKey) := by
  simp [mem_operations, mainOperations, retryOperations, dlqOperations]

/-- Exchanges of one name are the same. -/
theorem Legal.exchange_unique {e e' : RabbitExchange} (h : Legal InUse (.declareExchange e))
    (h' : Legal InUse (.declareExchange e')) (hname : e.name = e'.name) : e = e' := by
  obtain ⟨cfg, -, h⟩ := h
  obtain ⟨cfg', -, h'⟩ := h'
  rw [mem_operations_exchange] at h h'
  have hall : ∀ e ∈ [paymentsExchange, retryExchange, dlxExchange],
      ∀ e' ∈ [paymentsExchange, retryExchange, dlxExchange], e.name = e'.name → e = e' := by
    decide
  exact hall e h e' h' hname

/-- An exchange and a key have one queue. -/
theorem Legal.bind_unique {q q' x k : String} (h : Legal InUse (.bind q x k))
    (h' : Legal InUse (.bind q' x k)) : q = q' := by
  have hpr : Payments.paymentsExchange ≠ Payments.retryExchange := by decide
  have hpd : Payments.paymentsExchange ≠ Payments.dlxExchange := by decide
  have hrd : Payments.retryExchange ≠ Payments.dlxExchange := by decide
  obtain ⟨cfg, -, h⟩ := h
  obtain ⟨cfg', -, h'⟩ := h'
  rw [mem_operations_bind] at h h'
  rcases h with ⟨rfl, rfl, rfl⟩ | ⟨n, -, rfl, rfl, rfl⟩ | ⟨rfl, rfl, rfl⟩
  · rcases h' with ⟨rfl, -, -⟩ | ⟨m, -, -, hx, -⟩ | ⟨-, hx, -⟩
    · rfl
    · exact absurd hx hpr
    · exact absurd hx hpd
  · rcases h' with ⟨-, hx, -⟩ | ⟨m, -, rfl, -, hk⟩ | ⟨-, hx, -⟩
    · exact absurd hx.symm hpr
    · rw [retryRoutingKey_injective hk]
    · exact absurd hx hrd
  · rcases h' with ⟨-, hx, -⟩ | ⟨m, -, -, hx, -⟩ | ⟨rfl, -, -⟩
    · exact absurd hx.symm hpd
    · exact absurd hx.symm hrd
    · rfl

/-- What is bound is declared. -/
theorem mem_operations_of_binding {b : Binding} (h : b ∈ Payments.declareTopology cfg) :
    .declareQueue b.queue ∈ operations cfg ∧
      .bind b.queue.name b.exchange b.routingKey ∈ operations cfg := by
  rw [mem_operations_queue, mem_operations_bind]
  rw [Payments.declareTopology_eq] at h
  simp only [List.cons_append, List.mem_cons, List.mem_append, List.mem_map, List.mem_range'_1,
    List.not_mem_nil, or_false] at h
  rcases h with rfl | ⟨n, hn, rfl⟩ | rfl
  · exact ⟨.inl rfl, .inl ⟨rfl, rfl, rfl⟩⟩
  · exact ⟨.inr (.inl ⟨n, by omega, rfl⟩), .inr (.inl ⟨n, by omega, rfl, rfl, rfl⟩)⟩
  · exact ⟨.inr (.inr rfl), .inr (.inr ⟨rfl, rfl, rfl⟩)⟩

/-- What `route` knows is declared and bound. -/
theorem mem_operations_of_route {q : RabbitQueue} {x k : String} (h : q ∈ route cfg x k) :
    .declareQueue q ∈ operations cfg ∧ .bind q.name x k ∈ operations cfg := by
  obtain ⟨b, hb, rfl⟩ := List.mem_map.mp h
  obtain ⟨hmem, haddr⟩ := List.mem_filter.mp hb
  simp only [decide_eq_true_eq] at haddr
  obtain ⟨rfl, rfl⟩ := haddr
  exact mem_operations_of_binding hmem

end Legal

/-! ## What is declared -/

/-- Everything in the broker was declared by settings in use. -/
structure Conforms (InUse : Settings → Prop) (D : Declared) : Prop where
  exchanges : ∀ name e, D.exchanges name = some e → e.name = name ∧ Legal InUse (.declareExchange e)
  queues : ∀ name args, D.queues name = some args →
    ∃ q, q.name = name ∧ q.arguments = args ∧ Legal InUse (.declareQueue q)
  bindings : ∀ x k q, q ∈ D.bindings x k → Legal InUse (.bind q x k)
  nodup : ∀ x k, (D.bindings x k).Nodup

section Conforms

variable {InUse InUse' : Settings → Prop} {cfg : Settings} {D : Declared} {o : SetupOp}

theorem Conforms.empty : Conforms InUse .empty :=
  ⟨by simp [Declared.empty], by simp [Declared.empty], by simp [Declared.empty],
    by simp [Declared.empty]⟩

theorem Conforms.mono (h : Conforms InUse D) (hsub : ∀ cfg, InUse cfg → InUse' cfg) :
    Conforms InUse' D := by
  have hlegal : ∀ {o}, Legal InUse o → Legal InUse' o := by
    rintro o ⟨cfg, hcfg, ho⟩
    exact ⟨cfg, hsub cfg hcfg, ho⟩
  refine ⟨fun name e he => ?_, fun name args ha => ?_, fun x k q hq => hlegal (h.bindings x k q hq),
    h.nodup⟩
  · exact ⟨(h.exchanges name e he).1, hlegal (h.exchanges name e he).2⟩
  · obtain ⟨q, hname, hargs, hq⟩ := h.queues name args ha
    exact ⟨q, hname, hargs, hlegal hq⟩

/-- **What settings in use declare conforms.** -/
theorem Conforms.declare (h : Conforms InUse D) (ho : Legal InUse o) :
    Conforms InUse (Setup.declare D o) := by
  cases o with
  | declareExchange e =>
    refine ⟨fun name e' he => ?_, h.queues, h.bindings, h.nodup⟩
    by_cases hname : name = e.name
    · subst hname
      obtain rfl : e = e' := by simpa [Setup.declare] using he
      exact ⟨rfl, ho⟩
    · exact h.exchanges name e' (by simpa [Setup.declare, hname] using he)
  | declareQueue q =>
    refine ⟨h.exchanges, fun name args ha => ?_, h.bindings, h.nodup⟩
    by_cases hname : name = q.name
    · subst hname
      obtain rfl : q.arguments = args := by simpa [Setup.declare] using ha
      exact ⟨q, rfl, rfl, ho⟩
    · exact h.queues name args (by simpa [Setup.declare, hname] using ha)
  | bind queue exchange routingKey =>
    refine ⟨h.exchanges, h.queues, fun x k q hq => ?_, fun x k => ?_⟩
    · rcases mem_bindings_declare.mp hq with hq | ⟨rfl, rfl, rfl⟩
      · exact h.bindings x k q hq
      · exact ho
    · unfold Setup.declare
      dsimp only
      split
      · rename_i hnew
        exact (List.nodup_append_comm.mp (List.nodup_cons.mpr ⟨hnew.2.2, h.nodup x k⟩))
      · exact h.nodup x k

theorem Conforms.declareAll {ops : List SetupOp} (h : Conforms InUse D)
    (hops : ∀ o ∈ ops, Legal InUse o) : Conforms InUse (registry.declareAll D ops) := by
  induction ops generalizing D with
  | nil => exact h
  | cons o ops ih => exact ih (h.declare (hops o (by simp))) fun o' ho' => hops o' (by simp [ho'])

/-- An exchange and a key that are bound have one queue. -/
theorem Conforms.bindings_eq (h : Conforms InUse D) {q x k : String} (hq : q ∈ D.bindings x k) :
    D.bindings x k = [q] := by
  have hall : ∀ q' ∈ D.bindings x k, q' = q := fun q' hq' =>
    (h.bindings x k q' hq').bind_unique (h.bindings x k q hq)
  have hnodup := h.nodup x k
  generalize D.bindings x k = l at *
  obtain ⟨a, l, rfl⟩ := List.exists_cons_of_ne_nil (List.ne_nil_of_mem hq)
  obtain rfl := hall a (by simp)
  cases l with
  | nil => rfl
  | cons b l =>
    obtain rfl := hall b (by simp)
    simp at hnodup

/-- **Once the topology is declared, the broker routes as `route` says.** -/
theorem Conforms.route_eq (h : Conforms InUse D) (hd : ∀ o ∈ operations cfg, declared D o)
    {q : RabbitQueue} {x k : String} (hq : q ∈ route cfg x k) :
    D.bindings x k = [q.name] ∧ D.queues q.name = some q.arguments := by
  obtain ⟨hqueue, hbind⟩ := mem_operations_of_route hq
  exact ⟨h.bindings_eq (hd _ hbind).2.2, (hd _ hqueue).1⟩

end Conforms

/-! ## Settings that agree -/

/-- The settings in use have delays the broker can keep, and those that have a retry queue of some
number give it the same delay. -/
structure Agreeing (InUse : Settings → Prop) : Prop where
  fits : ∀ cfg, InUse cfg →
    1000 * cfg.retryBaseDelaySeconds * cfg.retryMultiplier ^ (cfg.maxRetries - 1) < 2 ^ 32
  same : ∀ cfg cfg', InUse cfg → InUse cfg' → ∀ n, 1 ≤ n → n ≤ cfg.maxRetries →
    n ≤ cfg'.maxRetries → ⌊cfg.delayMillis n⌋ = ⌊cfg'.delayMillis n⌋

section Agreeing

variable {InUse : Settings → Prop} {cfg : Settings} {D : Declared} {o : SetupOp}

theorem retryQueue_arguments (n : ℕ) : (retryQueue cfg n).arguments =
    ⟨some ⌊cfg.delayMillis n⌋, some Payments.paymentsExchange, some paymentsNewRoutingKey⟩ := by
  rw [RabbitQueue.arguments, retryQueue_messageTtl]
  rfl

/-- Queues of one name have the same arguments. -/
theorem Agreeing.queue_unique (h : Agreeing InUse) {q q' : RabbitQueue}
    (hq : Legal InUse (.declareQueue q)) (hq' : Legal InUse (.declareQueue q'))
    (hname : q.name = q'.name) : q.arguments = q'.arguments := by
  obtain ⟨cfg, hcfg, hq⟩ := hq
  obtain ⟨cfg', hcfg', hq'⟩ := hq'
  rw [mem_operations_queue] at hq hq'
  rcases hq with rfl | ⟨n, hn, rfl⟩ | rfl
  · rcases hq' with rfl | ⟨m, -, rfl⟩ | rfl
    · rfl
    · exact absurd hname.symm (retryQueueName_ne m).1
    · rfl
  · rcases hq' with rfl | ⟨m, hm, rfl⟩ | rfl
    · exact absurd hname (retryQueueName_ne n).1
    · obtain rfl := retryQueueName_injective hname
      rw [retryQueue_arguments, retryQueue_arguments, h.same cfg cfg' hcfg hcfg' n hn.1 hn.2 hm.2]
    · exact absurd hname (retryQueueName_ne n).2
  · rcases hq' with rfl | ⟨m, -, rfl⟩ | rfl
    · rfl
    · exact absurd hname.symm (retryQueueName_ne m).2
    · rfl

/-- The broker can keep every time to live. -/
theorem Agreeing.messageTtl (h : Agreeing InUse) {q : RabbitQueue}
    (hq : Legal InUse (.declareQueue q)) : ∀ ttl ∈ q.messageTtl, 0 ≤ ttl ∧ ttl ≤ maxMessageTtl := by
  obtain ⟨cfg, hcfg, hq⟩ := hq
  rw [mem_operations_queue] at hq
  rcases hq with rfl | ⟨n, hn, rfl⟩ | rfl
  · simp [paymentsNewQueue]
  · intro ttl httl
    obtain rfl : ⌊cfg.delayMillis n⌋ = ttl := by simpa [retryQueue_messageTtl] using httl
    have hlast : ⌊cfg.delayMillis cfg.maxRetries⌋ ≤ maxMessageTtl := by
      refine declareTopology_accepted_iff.mpr (h.fits cfg hcfg)
        ⟨Payments.retryExchange, retryRoutingKey cfg.maxRetries, retryQueue cfg cfg.maxRetries⟩ ?_ _
        (retryQueue_messageTtl _)
      rw [Payments.declareTopology_eq]
      refine List.mem_append_left _ (List.mem_cons_of_mem _ (List.mem_map_of_mem ?_))
      rw [List.mem_range'_1]
      omega
    refine ⟨Int.floor_nonneg.mpr ?_, (Int.floor_le_floor (Settings.delayMillis_mono hn.2)).trans hlast⟩
    have hb := cfg.retryBaseDelaySeconds_gt
    have hm := cfg.retryMultiplier_gt
    unfold Settings.delayMillis
    positivity
  · simp [dlqQueue]

/-- What an operation needs to have been declared before it. -/
def Prepared (done : List SetupOp) : SetupOp → Prop
  | .declareExchange _ => True
  | .declareQueue q => q.deadLetterExchange.isSome → ∀ o ∈ mainOperations, o ∈ done
  | .bind q x _ => (∃ q', q'.name = q ∧ .declareQueue q' ∈ done) ∧
      ∃ e, e.name = x ∧ .declareExchange e ∈ done

/-- **`declare_topology` declares things in the right order.** -/
theorem operations_inOrder (cfg : Settings) : InOrder Prepared [] (operations cfg) := by
  have hmain : InOrder Prepared [] mainOperations :=
    ⟨trivial, trivial, trivial, by simp [Prepared, paymentsNewQueue],
      ⟨⟨paymentsNewQueue, rfl, by simp⟩, paymentsExchange, rfl, by simp⟩, trivial⟩
  refine hmain.append (InOrder.append (.flatMap fun n _ more => ?_) ?_)
  · refine ⟨fun _ o ho => ?_, ⟨⟨retryQueue cfg n, rfl, ?_⟩, retryExchange, rfl, ?_⟩, trivial⟩
    · simp [ho]
    · simp
    · simp [mainOperations]
  · refine ⟨by simp [Prepared, dlqQueue], ⟨⟨dlqQueue, rfl, ?_⟩, dlxExchange, rfl, ?_⟩, trivial⟩
    · simp
    · simp [mainOperations]

/-- A queue that gives messages back has where to give them. -/
def WayBack (D : Declared) : Prop :=
  ∀ name args, D.queues name = some args → args.deadLetterExchange.isSome →
    ∀ o ∈ mainOperations, declared D o

theorem WayBack.declare (h : WayBack D) (ha : accepts D o) {done : List SetupOp}
    (hp : Prepared done o) (hdone : ∀ d ∈ done, declared D d) : WayBack (Setup.declare D o) := by
  intro name args hargs hdlx o' ho'
  refine declared_mono ha ?_
  cases o with
  | declareExchange e => exact h name args hargs hdlx o' ho'
  | declareQueue q =>
    by_cases hname : name = q.name
    · subst hname
      obtain rfl : q.arguments = args := by simpa [Setup.declare] using hargs
      exact hdone o' (hp hdlx o' ho')
    · exact h name args (by simpa [Setup.declare, hname] using hargs) hdlx o' ho'
  | bind queue exchange routingKey => exact h name args hargs hdlx o' ho'

/-- What holds of the broker while processes with the settings in use start. -/
structure Sound (InUse : Settings → Prop) (D : Declared) : Prop where
  conforms : Conforms InUse D
  wayBack : WayBack D

/-- What the settings in use declare keeps the broker sound. -/
theorem Sound.keeps (InUse : Settings → Prop) :
    Keeps (G := registry) InUse operations (Sound InUse) where
  next {cfg done o rest D} hcfg heq hsound hdone ha := by
    have hlegal : Legal InUse o := ⟨cfg, hcfg, by rw [heq]; simp⟩
    have hp : Prepared done o := by simpa using (operations_inOrder cfg).prepared heq
    exact ⟨hsound.conforms.declare hlegal, hsound.wayBack.declare ha hp hdone⟩

/-- **Settings that agree get along.** -/
theorem Agreeing.harmony (h : Agreeing InUse) :
    Harmony (G := registry) InUse operations (Sound InUse) where
  toKeeps := Sound.keeps InUse
  accepted {cfg done o rest D} hcfg heq hsound hdone := by
    have hlegal : Legal InUse o := ⟨cfg, hcfg, by rw [heq]; simp⟩
    have hp : Prepared done o := by simpa using (operations_inOrder cfg).prepared heq
    cases o with
    | declareExchange e =>
      intro e' he'
      obtain ⟨hname, hlegal'⟩ := hsound.conforms.exchanges e.name e' he'
      exact hlegal'.exchange_unique hlegal hname
    | declareQueue q =>
      refine ⟨fun args hargs => ?_, h.messageTtl hlegal⟩
      obtain ⟨q', hname, rfl, hlegal'⟩ := hsound.conforms.queues q.name args hargs
      exact h.queue_unique hlegal' hlegal hname
    | bind queue exchange routingKey =>
      obtain ⟨⟨q, rfl, hq⟩, e, rfl, he⟩ := hp
      have hq' : D.queues q.name = some q.arguments := (hdone _ hq).1
      have he' : D.exchanges e.name = some e := hdone _ he
      exact ⟨by simp [hq'], by simp [he']⟩

theorem Sound.empty : ∀ D, D = Declared.empty → Sound InUse D := by
  rintro _ rfl
  exact ⟨.empty, by simp [WayBack, Declared.empty]⟩

end Agreeing

/-! ## Processes that start together -/

/-- **Processes may start at any time.** If the settings in use agree, then whatever processes
start, are killed or lose their connection, the broker refuses nothing. A queue that gives messages
back gives them to an exchange that is declared, with a key by which it puts them into
`payments.new`. And once a process has declared the topology, the broker routes as `route` says of
its settings, now and later, into queues that have the arguments they should have. -/
theorem topology_setup {InUse : Settings → Prop} (h : Agreeing InUse) {s : (setup InUse).State}
    (hs : (setup InUse).Reachable s) :
    (∀ t cfg o c, s.threads t = .running cfg (.op o c) → accepts s.world o) ∧
    (∀ name args x, s.world.queues name = some args → args.deadLetterExchange = some x →
      (s.world.exchanges x).isSome ∧ (s.world.queues paymentsNewQueueName).isSome ∧
        ∃ k, args.deadLetterRoutingKey = some k ∧ s.world.bindings x k = [paymentsNewQueueName]) ∧
    ∀ t cfg s', s.threads t = .running cfg (.ret (.ok ())) → (setup InUse).Run s s' →
      ∀ x k, ∀ q ∈ route cfg x k,
        s'.world.bindings x k = [q.name] ∧ s'.world.queues q.name = some q.arguments := by
  obtain ⟨hsound, -, hdone⟩ := h.harmony.toKeeps.reachable declareTopology_eq Sound.empty hs
  refine ⟨fun t cfg o c => h.harmony.reachable declareTopology_eq Sound.empty hs, fun name args x hargs hx => ?_, fun t cfg s' ht hr x k q hq => ?_⟩
  · obtain ⟨q, rfl, rfl, cfg, -, hq⟩ := hsound.conforms.queues name args hargs
    have hback := hsound.wayBack _ _ hargs (by simp [hx])
    rw [mem_operations_queue] at hq
    rcases hq with rfl | ⟨n, -, rfl⟩ | rfl
    · simp [RabbitQueue.arguments, paymentsNewQueue] at hx
    · rw [retryQueue_arguments] at hx ⊢
      obtain rfl : Payments.paymentsExchange = x := by simpa using hx
      obtain ⟨hmain, hex, hbound⟩ := hback _
        (show .bind paymentsNewQueueName Payments.paymentsExchange paymentsNewRoutingKey ∈ _ by
          simp [mainOperations])
      exact ⟨hex, hmain, _, rfl, hsound.conforms.bindings_eq hbound⟩
    · simp [RabbitQueue.arguments, dlqQueue] at hx
  · obtain ⟨hsound', -, -⟩ :=
      h.harmony.toKeeps.reachable declareTopology_eq Sound.empty (hs.run hr)
    refine hsound'.conforms.route_eq (fun o ho => ?_) hq
    exact run_declared hr (hdone t cfg ht o ho)

/-! ## A change of the settings -/

/-- The delays of settings the broker has accepted can be kept. -/
theorem fits_of_accepted {cfg : Settings} (h : ∀ q, .declareQueue q ∈ operations cfg →
    ∀ ttl ∈ q.messageTtl, ttl ≤ maxMessageTtl) :
    1000 * cfg.retryBaseDelaySeconds * cfg.retryMultiplier ^ (cfg.maxRetries - 1) < 2 ^ 32 :=
  declareTopology_accepted_iff.mp fun _ hb => h _ (mem_operations_of_binding hb).1

/-- **A process with other settings may join** a broker in which a topology is declared, exactly
when its own delays can be kept and the retry queues that both settings have get the delays they
have. Whether it succeeds or not, what was routed before is routed the same way after. -/
theorem topology_restart {cfg cfg' : Settings} {s : (setup (· = cfg)).State}
    (hs : (setup (· = cfg)).Reachable s) {t : ℕ}
    (ht : s.threads t = .running cfg (.ret (.ok ()))) :
    ((∃ D, (declareTopology cfg').run.Executes (Answers (G := registry)) s.world (.ok ()) D) ↔
      1000 * cfg'.retryBaseDelaySeconds * cfg'.retryMultiplier ^ (cfg'.maxRetries - 1) < 2 ^ 32 ∧
        ∀ n, 1 ≤ n → n ≤ cfg.maxRetries → n ≤ cfg'.maxRetries →
          ⌊cfg.delayMillis n⌋ = ⌊cfg'.delayMillis n⌋) ∧
    ∀ out D, (declareTopology cfg').run.Executes (Answers (G := registry)) s.world out D →
      ∀ x k, ∀ q ∈ route cfg x k,
        D.bindings x k = [q.name] ∧ D.queues q.name = some q.arguments := by
  obtain ⟨hsound, -, hdone⟩ :=
    (Sound.keeps (· = cfg)).reachable declareTopology_eq Sound.empty hs
  have hdone := hdone t cfg ht
  rw [declareTopology_eq]
  refine ⟨⟨fun h => ?_, fun h => ?_⟩, fun out D h x k q hq => ?_⟩
  · obtain ⟨D, h⟩ := h
    have hall : AcceptsAll (G := registry) s.world (operations cfg') := by
      rcases script_executes_iff.mp h with ⟨-, hall, -⟩ | ⟨hout, -⟩
      · exact hall
      · simp at hout
    refine ⟨fits_of_accepted fun q hq ttl httl => ?_, fun n h1 hn hn' => ?_⟩
    · obtain ⟨D', -, ha⟩ := hall.accepts hq
      exact (ha.2 ttl httl).2
    · obtain ⟨D', hle, ha⟩ := hall.accepts
        (mem_operations_queue.mpr (.inr (.inl ⟨n, ⟨h1, hn'⟩, rfl⟩)))
      have hold := (hle _ (hdone _ (mem_operations_queue.mpr (.inr (.inl ⟨n, ⟨h1, hn⟩, rfl⟩))))).1
      have hargs : (retryQueue cfg n).arguments = (retryQueue cfg' n).arguments := ha.1 _ hold
      rw [retryQueue_arguments, retryQueue_arguments] at hargs
      simpa using hargs
  · obtain ⟨hfits, hsame⟩ := h
    have hagree : Agreeing fun c => c = cfg ∨ c = cfg' := by
      refine ⟨?_, ?_⟩
      · rintro c (rfl | rfl)
        · exact fits_of_accepted fun q hq ttl httl => ((hdone _ hq).2 ttl httl).2
        · exact hfits
      · rintro c c' (rfl | rfl) (rfl | rfl) n h1 hn hn'
        · rfl
        · exact hsame n h1 hn hn'
        · exact (hsame n h1 hn' hn).symm
        · rfl
    have hsound' : Sound (fun c => c = cfg ∨ c = cfg') s.world :=
      ⟨hsound.conforms.mono fun _ hc => .inl hc, hsound.wayBack⟩
    exact ⟨_, script_executes_iff.mpr (.inl ⟨rfl,
      hagree.harmony.acceptsScript (.inr rfl) hsound', rfl⟩)⟩
  · have hends : ∃ ops, (∀ o ∈ ops, o ∈ operations cfg') ∧
        AcceptsAll (G := registry) s.world ops ∧ D = registry.declareAll s.world ops := by
      rcases script_executes_iff.mp h with ⟨-, hall, rfl⟩ | ⟨-, done, o, rest, heq, hall, rfl, -⟩
      · exact ⟨_, fun o ho => ho, hall, rfl⟩
      · exact ⟨done, fun o ho => by rw [heq]; simp [ho], hall, rfl⟩
    obtain ⟨ops, hops, hall, rfl⟩ := hends
    have hconf : Conforms (fun c => c = cfg ∨ c = cfg') (registry.declareAll s.world ops) :=
      (hsound.conforms.mono fun _ hc => .inl hc).declareAll fun o ho => ⟨cfg', .inr rfl, hops o ho⟩
    exact hconf.route_eq (fun o ho => hall.declared (hdone o ho)) hq

/-! ## A process that starts -/

/-- Settings whose delays can be kept agree with themselves. -/
theorem Agreeing.self {cfg : Settings}
    (h : 1000 * cfg.retryBaseDelaySeconds * cfg.retryMultiplier ^ (cfg.maxRetries - 1) < 2 ^ 32) :
    Agreeing (· = cfg) := by
  refine ⟨?_, ?_⟩
  · rintro _ rfl
    exact h
  · rintro _ _ rfl rfl n - - -
    rfl

/-- The default settings. -/
theorem agreeing_default : Agreeing (· = (default : Settings)) := by
  refine .self ?_
  norm_num [default]

/-- A process can start. -/
theorem exists_started {cfg : Settings} (h : Agreeing (· = cfg)) :
    ∃ s, (setup (· = cfg)).Reachable s ∧ s.threads 0 = .running cfg (.ret (.ok ())) := by
  let s₀ : (setup (· = cfg)).State := ⟨.empty, fun _ => .unborn, 0⟩
  let s₁ : (setup (· = cfg)).State :=
    ⟨.empty, Function.update s₀.threads 0 (.running cfg (declareTopology cfg).run), 1⟩
  have hstart : (setup (· = cfg)).Step s₀ s₁ :=
    Machine.Step.start (M := setup (· = cfg)) (k := cfg) (w := Declared.empty) ⟨rfl, rfl⟩
  have hcode : s₁.threads 0 = .running cfg (Action.script (operations cfg)).run := by
    rw [← declareTopology_eq]
    exact Function.update_self 0 _ s₀.threads
  have hall : AcceptsAll (G := registry) s₁.world (operations cfg) :=
    h.harmony.acceptsScript rfl (Sound.empty _ rfl)
  refine ⟨_, ⟨s₀, ⟨rfl, fun _ => rfl, rfl⟩, .head hstart (run_of_acceptsAll hcode hall)⟩, ?_⟩
  exact Function.update_self 0 _ s₁.threads

/-- Processes with the default settings. -/
theorem topology_setup_default : ∃ s : (setup (· = default)).State,
    s.threads 0 = .running default (.ret (.ok ())) ∧
      ∀ x k, ∀ q ∈ route default x k, s.world.bindings x k = [q.name] := by
  obtain ⟨s, hs, ht⟩ := exists_started agreeing_default
  refine ⟨s, ht, fun x k q hq => ?_⟩
  exact ((topology_setup agreeing_default hs).2.2 0 default s ht .refl x k q hq).1

/-- More retries may be allowed while the service runs. -/
theorem topology_restart_more : ∃ s : (setup (· = default)).State,
    s.threads 0 = .running default (.ret (.ok ())) ∧
      ∃ D, (declareTopology { (default : Settings) with
        maxRetries := 5, maxRetries_ge := by decide }).run.Executes (Answers (G := registry))
          s.world (.ok ()) D := by
  obtain ⟨s, hs, ht⟩ := exists_started agreeing_default
  refine ⟨s, ht, (topology_restart hs ht).1.mpr ⟨?_, fun n _ _ _ => rfl⟩⟩
  norm_num [default]

end Setup

end Payments
