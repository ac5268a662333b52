import PaymentProcessing.Properties.Deployment

/-!
# Stopping

Processes that have been told to stop. An API takes no more requests, a relay goes on until its
batch has returned, and a consumer takes no more messages; then each waits until its threads have
returned, a consumer for `gracefulTimeout` at most. The threads go on meanwhile, and wait for each
other as they did before. If nothing fails, all of this comes to an end in whatever order it happens
(`shutdown_completes`).
-/

namespace Payments

open Effects Relation

variable {R : Runtime} {cfg : Settings}

/-! ## The steps that are left -/

namespace Process

/-- A bound on what a process that was told to stop does by itself. -/
def rest : Process → ℕ
  | .relay (.publishing _) => 4
  | .relay .waiting => 3
  | .relay .checking | .consumer | .api => 2
  | .leaving _ => 1
  | _ => 0

/-- The process takes messages, or has. -/
def consumes : Process → Bool
  | .consumer | .leaving (some _) => true
  | _ => false

end Process

/-- After a batch there is less to do. -/
theorem rest_afterBatch (result : Except Exn ℕ) : (Process.relay (afterBatch result)).rest < 4 := by
  unfold afterBatch
  cases result with
  | error _ => simp [Process.rest]
  | ok n =>
    dsimp only
    split <;> simp [Process.rest]

section Advance

variable {b : (service R cfg).State} {stopping : Bool} {x y : Process}

theorem Advance.rest_lt (h : Advance R cfg b stopping x y) : y.rest < x.rest := by
  cases h with
  | published _ => exact rest_afterBatch _
  | _ => simp [Process.rest]

theorem Advance.consumes (h : Advance R cfg b stopping x y) (hy : y.consumes) : x.consumes := by
  cases h with
  | stopConsuming => rfl
  | _ => cases hy

end Advance

namespace Deployment

/-- **A step while the processes stop**: a process or a thread goes on, a process ends, and nothing
fails. No request and no delivery comes in. -/
inductive Closing : Deployment R cfg → Deployment R cfg → Prop
  | advance {s : Deployment R cfg} {i : ℕ} {x : Process}
      (h : Advance R cfg s.base (s.stopping i) (s.processes i) x) : Closing s (s.set i x)
  | publish {s : Deployment R cfg} {i : ℕ} (hi : s.processes i = .relay .checking)
      (hs : s.stopping i = false) :
      Closing s ((s.spawn i .relay s.base.world).set i (.relay (.publishing s.base.born)))
  | exec {s : Deployment R cfg} {t : ℕ} {k : Kind} {o : Op} {c : Res o → Prog Op Res (Out k)}
      {r : Res o} {w : World} (ht : s.base.threads t = .running k (.op o c))
      (h : ExecVia cfg s.declared t o r s.base.world w) (hsmooth : Smooth s.base.world t o r) :
      Closing s (s.rebase ⟨w, Function.update s.base.threads t (.running k (c r)), s.base.born⟩)
  | left {s : Deployment R cfg} {i : ℕ} {limit : Option Time} {l : List ℕ}
      (hi : s.processes i = .leaving limit)
      (hidle : ∀ t, s.owner t = i → ¬(service R cfg).Busy s.base t) (hl : s.Lists i l) :
      Closing s ((s.rebase (disconnect s.base l)).set i (.ended .finished))
  /-- The time is over before the deliveries have returned. -/
  | cutOff {s : Deployment R cfg} {i t : ℕ} {limit clock : Time} {l : List ℕ}
      (hi : s.processes i = .leaving (some limit)) (hclock : s.base.world.clock ≤ clock)
      (hlate : limit ≤ clock) (ht : s.owner t = i) (hbusy : (service R cfg).Busy s.base t)
      (hl : s.Lists i l) :
      Closing s ((s.rebase (killAll ⟨{ s.base.world with clock := clock }, s.base.threads,
        s.base.born⟩ l)).set i (.ended .cutOff))

/-- **Everything has ended**, since `s`. -/
structure ShutDown (s s' : Deployment R cfg) : Prop where
  /-- No batch was started, nor anything else. -/
  born : s'.base.born = s.base.born
  /-- Only a consumer does not wait until its threads have returned. -/
  processes : ∀ i, (s.processes i).alive → s'.processes i = .ended .finished ∨
    (s.processes i).consumes ∧ s'.processes i = .ended .cutOff
  threads : ∀ t k p, s.base.threads t = .running k p →
    (∃ out, s'.base.threads t = .running k (.ret out)) ∨
      s'.processes (s.owner t) = .ended .cutOff
  /-- What was not settled is ready again. -/
  settled : ∀ t, s'.base.world.broker.unacked t = false

variable {s s' : Deployment R cfg}

theorem Reachable.step (h : Reachable s) (hs : Step s s') : Reachable s' := h.run (.single hs)

theorem Closing.run (h : Closing s s') : Run s s' := by
  cases h with
  | advance h => exact .single (.advance h)
  | publish hi hs => exact .single (.publish hi hs)
  | exec ht h _ => exact .single (.exec ht h)
  | left hi hidle hl => exact .single (.left hi hidle hl)
  | @cutOff i t limit clock l hi hclock hlate ht hbusy hl =>
    have htick : Step s (s.rebase ⟨{ s.base.world with clock := clock }, s.base.threads,
      s.base.born⟩) := .env (.tick hclock)
    exact (ReflTransGen.single htick).tail
      (.cutOff hi hlate ht hbusy ⟨hl.owned, hl.busy, hl.held⟩)

/-- The threads of a process can be listed. -/
theorem exists_lists (h : Reachable s) (i : ℕ) : ∃ l, s.Lists i l := by
  have hd := deployed h
  have hmem : ∀ t < s.base.born, s.owner t = i →
      t ∈ (List.range s.base.born).filter fun t => s.owner t = i := fun t ht heq => by
    simpa using ⟨ht, heq⟩
  refine ⟨_, fun t ht => ?_, fun t heq ht => hmem t (hd.base.busy_lt ht) heq, fun t heq hu => ?_⟩
  · simpa using (List.mem_filter.mp ht).2
  · obtain ⟨-, k, p, ht⟩ := running_of_unacked hd.base hu
    exact hmem t (lt_born_of_running h ht) heq

/-! ## The descent -/

/-- All processes were told to stop; what ran in `s₀` runs, or has ended as it should. -/
structure Ending (s₀ : Deployment R cfg) (N : ℕ) (s : Deployment R cfg) : Prop where
  reachable : Reachable s
  told : ∀ i, (s.processes i).alive → s.stopping i = true
  few : ∀ i, N ≤ i → s.processes i = .unborn
  kept : ∀ i, (s₀.processes i).alive → (s.processes i).alive ∨
    s.processes i = .ended .finished ∨ (s₀.processes i).consumes ∧ s.processes i = .ended .cutOff
  consumes : ∀ i, (s.processes i).consumes → (s₀.processes i).consumes
  born : s.base.born = s₀.base.born
  owner : s.owner = s₀.owner
  threads : ∀ t k p, s₀.base.threads t = .running k p →
    (∃ p', s.base.threads t = .running k p') ∨ s.processes (s₀.owner t) = .ended .cutOff

/-- What is left to do by the first `N` processes, and by the threads. -/
def remaining (N : ℕ) (s : Deployment R cfg) : ℕ × Multiset (service R cfg).Thread :=
  (∑ i ∈ Finset.range N, (s.processes i).rest, Machine.heads s.base)

variable (R cfg) in
/-- What is left to do becomes less. -/
abbrev Descends : ℕ × Multiset (service R cfg).Thread → ℕ × Multiset (service R cfg).Thread → Prop :=
  Prod.Lex (· < ·) (CutExpand Machine.Thread.Later)

variable {s₀ : Deployment R cfg} {N : ℕ}

/-- A process moves on or ends. -/
theorem Ending.move (h : Ending s₀ N s) {b : (service R cfg).State} {i : ℕ} {x : Process}
    (hr : Run s ((s.rebase b).set i x)) (hi : (s.processes i).alive)
    (hx : x.alive ∨ x = .ended .finished ∨ (s.processes i).consumes ∧ x = .ended .cutOff)
    (hconsumes : x.consumes → (s.processes i).consumes) (hborn : b.born = s.base.born)
    (hthreads : ∀ t k p, s.base.threads t = .running k p →
      b.threads t = .running k p ∨ s.owner t = i ∧ x = .ended .cutOff)
    (hrest : x.rest < (s.processes i).rest) :
    Ending s₀ N ((s.rebase b).set i x) ∧
      Descends R cfg (remaining N ((s.rebase b).set i x)) (remaining N s) := by
  have hiN : i < N := by
    by_contra hge
    rw [h.few i (not_lt.mp hge)] at hi
    cases hi
  have hself : ((s.rebase b).set i x).processes i = x := processes_set_self ..
  have hother : ∀ j ≠ i, ((s.rebase b).set i x).processes j = s.processes j := fun j hj =>
    processes_set_of_ne (s.rebase b) hj x
  refine ⟨⟨h.reachable.run hr, fun j hj => ?_, fun j hj => ?_, fun j hj => ?_, fun j hj => ?_,
    hborn.trans h.born, h.owner, fun t k p ht => ?_⟩, ?_⟩
  · by_cases hij : j = i
    · subst hij
      exact h.told j hi
    · rw [hother j hij] at hj
      exact h.told j hj
  · have hij : j ≠ i := by omega
    rw [hother j hij]
    exact h.few j hj
  · by_cases hij : j = i
    · subst hij
      rw [hself]
      exact hx.imp_right fun hx => hx.imp_right fun hx => ⟨h.consumes j hx.1, hx.2⟩
    · rw [hother j hij]
      exact h.kept j hj
  · by_cases hij : j = i
    · subst hij
      rw [hself] at hj
      exact h.consumes j (hconsumes hj)
    · rw [hother j hij] at hj
      exact h.consumes j hj
  · rcases h.threads t k p ht with ⟨p', hp'⟩ | hcut
    · rcases hthreads t k p' hp' with hp' | ⟨howner, rfl⟩
      · exact .inl ⟨p', hp'⟩
      · rw [← h.owner, howner]
        exact .inr hself
    · have hne : s₀.owner t ≠ i := by
        rintro rfl
        rw [hcut] at hi
        cases hi
      exact .inr ((hother _ hne).trans hcut)
  · refine .left _ _ (Finset.sum_lt_sum (fun j _ => ?_) ⟨i, Finset.mem_range.mpr hiN, ?_⟩)
    · by_cases hij : j = i
      · subst hij
        rw [hself]
        exact hrest.le
      · rw [hother j hij]
    · rw [hself]
      exact hrest

/-- **While the processes stop, what is left to do becomes less.** -/
theorem Ending.closing (h : Ending s₀ N s) (hs : Closing s s') :
    Ending s₀ N s' ∧ Descends R cfg (remaining N s') (remaining N s) := by
  have hr := hs.run
  cases hs with
  | advance hadv =>
    exact h.move hr (Process.alive_of_begun hadv.begun.1)
      (.inl (Process.alive_of_begun hadv.begun.2)) hadv.consumes rfl (fun _ _ _ ht => .inl ht)
      hadv.rest_lt
  | @publish i hi hstop =>
    -- a relay that was told to stop starts no batch
    have halive : (s.processes i).alive := by rw [hi]; rfl
    cases hstop.symm.trans (h.told i halive)
  | @exec t k o c r w ht hvia hsmooth =>
    have hthreads : ∀ t' k' p', s.base.threads t' = .running k' p' →
        ∃ p, Function.update s.base.threads t (.running k (c r)) t' = .running k' p := by
      intro t' k' p' hp'
      by_cases htt : t' = t
      · subst htt
        cases ht.symm.trans hp'
        exact ⟨_, Function.update_self ..⟩
      · exact ⟨p', (Function.update_of_ne htt ..).trans hp'⟩
    refine ⟨⟨h.reachable.run hr, h.told, h.few, h.kept, h.consumes, h.born, h.owner, ?_⟩,
      .right _ ?_⟩
    · intro t' k' p ht'
      exact (h.threads t' k' p ht').imp_left fun ⟨p', hp'⟩ => hthreads t' k' p' hp'
    · have hd := deployed h.reachable
      have hx := hd.exec_of_via ht hvia
      have honward : (service R cfg).Onward (Smoothly cfg) s.base
          ⟨w, Function.update s.base.threads t (.running k (c r)), s.base.born⟩ :=
        .exec ht ⟨hx, hsmooth⟩
      exact honward.heads fun t ht => hd.base.busy_lt ht
  | @left i _ l hi _ _ =>
    exact h.move hr (by rw [hi]; rfl) (.inr (.inl rfl)) (by simp [Process.consumes]) rfl
      (fun _ _ _ ht => .inl ht) (by simp [hi, Process.rest])
  | @cutOff i _ _ _ l hi _ _ _ _ hl =>
    refine h.move hr (by rw [hi]; rfl) (.inr (.inr ⟨by rw [hi]; rfl, rfl⟩))
      (by simp [Process.consumes]) (born_killAll _ l) (fun t k p ht => ?_) (by simp [hi, Process.rest])
    by_cases hmem : t ∈ l
    · exact .inr ⟨hl.owned t hmem, rfl⟩
    · exact .inl ((threads_killAll hmem).trans ht)

/-! ## The end -/

/-- A thread that has something left to do: some thread can go on. -/
theorem exists_closing (h : Reachable s) {t : ℕ} (ht : (service R cfg).Busy s.base t) :
    ∃ s', Closing s s' := by
  have hd := deployed h
  have hgo : ∃ t', CanGoOn s.base t' := by
    obtain ⟨k, o, c, ht⟩ := ht
    rcases canGoOn_or_waitsFor hd.base ht with hgo | ⟨t', -, -, hgo⟩
    · exact ⟨t, hgo⟩
    · exact ⟨t', hgo⟩
  obtain ⟨t', k, o, c, r, w, ht', hx, hsmooth⟩ := hgo
  exact ⟨_, .exec ht' (hd.via_of_exec ht' hx) hsmooth⟩

/-- A process that was told to stop can go on, when its threads have returned. -/
theorem Ending.exists_advance (h : Ending s₀ N s) {i : ℕ} (hi : (s.processes i).alive)
    (hidle : ∀ t, ¬(service R cfg).Busy s.base t) : ∃ s', Closing s s' := by
  have htold := h.told i hi
  have hgo : ∀ {x y}, s.processes i = x → Advance R cfg s.base true x y → ∃ s', Closing s s' :=
    fun {x y} hx hadv => ⟨s.set i y, .advance (by rwa [htold, hx])⟩
  cases hx : s.processes i with
  | unborn =>
    rw [hx] at hi
    cases hi
  | starting role u => exact absurd hx (((tidy h.reachable).told i htold).2 role u)
  | api => exact hgo hx (.stopServing rfl)
  | relay φ =>
    cases φ with
    | checking => exact hgo hx (.stopRelaying rfl)
    | waiting => exact hgo hx .woken
    | publishing t =>
      obtain ⟨-, p, hp⟩ := (tidy h.reachable).awaited i t hx
      cases p with
      | ret result => exact hgo hx (.published hp)
      | op o c => exact absurd ⟨_, o, c, hp⟩ (hidle t)
  | consumer => exact hgo hx (.stopConsuming rfl)
  | leaving limit =>
    obtain ⟨l, hl⟩ := exists_lists h.reachable i
    exact ⟨_, .left hx (fun t _ => hidle t) hl⟩
  | ended e =>
    rw [hx] at hi
    cases hi

/-- **Where nothing can go on, everything has ended.** -/
theorem Ending.shutDown (h : Ending s₀ N s) (hstop : ∀ s', ¬Closing s s') : ShutDown s₀ s := by
  have hidle : ∀ t, ¬(service R cfg).Busy s.base t := fun t ht => by
    obtain ⟨s', hs⟩ := exists_closing h.reachable ht
    exact hstop s' hs
  have hdead : ∀ i, ¬(s.processes i).alive := fun i hi => by
    obtain ⟨s', hs⟩ := h.exists_advance hi hidle
    exact hstop s' hs
  refine ⟨h.born, fun i hi => (h.kept i hi).resolve_left (hdead i), fun t k p ht => ?_, fun t => ?_⟩
  · refine (h.threads t k p ht).imp_left fun ⟨p', hp'⟩ => ?_
    cases p' with
    | ret out => exact ⟨out, hp'⟩
    | op o c => exact absurd ⟨k, o, c, hp'⟩ (hidle t)
  · refine Bool.eq_false_iff.mpr fun hu => ?_
    exact hdead _ (Process.alive_of_begun ((tidy h.reachable).held t hu))

end Deployment

/-- **Processes that are told to stop do.** From every state in which all of them have been told,
whatever their batches, requests and deliveries are at, every run in which nothing fails ends. No
batch is started any more. The threads return and their processes end, but that a consumer may cut
off deliveries that take longer than `gracefulTimeout`; their messages are ready again. -/
theorem shutdown_completes {s : Deployment R cfg} (h : Deployment.Reachable s)
    (htold : ∀ i, (s.processes i).alive → s.stopping i = true) :
    Terminates Deployment.Closing (Deployment.ShutDown s) s := by
  obtain ⟨N, hN⟩ := (tidy h).few
  have hwf : WellFounded (Deployment.Descends R cfg) :=
    wellFounded_lt.prod_lex Machine.Thread.later_wellFounded.cutExpand
  exact .of_descent hwf (I := Deployment.Ending s N) (Deployment.remaining N)
    (fun hs hc => hs.closing hc) (fun hs hstop => hs.shutDown hstop)
    ⟨h, htold, hN, fun _ hi => .inl hi, fun _ hi => hi, rfl, rfl, fun _ _ p ht => .inl ⟨p, ht⟩⟩

/-- A relay and a consumer that are told to stop during a batch and a delivery. -/
theorem shutdown_completes_working : ∃ (s : Deployment .transparent default) (i j t t' : ℕ),
    s.processes i = .relay (.publishing t) ∧ (service .transparent default).Busy s.base t ∧
    s.processes j = .consumer ∧ s.owner t' = j ∧ (service .transparent default).Busy s.base t' ∧
    Terminates Deployment.Closing (Deployment.ShutDown s) s := by
  let b : (service .transparent default).State := ⟨World.initial 0, fun _ => .unborn, 0⟩
  have h₀ : Deployment.Reachable (Deployment.initial b) :=
    ⟨_, ⟨⟨rfl, fun _ => rfl, rfl⟩, ⟨⟨0, rfl⟩, fun _ => rfl, rfl⟩, fun _ => rfl, fun _ => rfl⟩, .refl⟩
  -- the relay works, and begins a batch
  obtain ⟨s₁, i, hr₁, hbase₁, -, hi₁, hstop₁, -, -, -, hproc₁⟩ :=
    Deployment.exists_working Setup.agreeing_default h₀ .relay
  let s₂ := (s₁.spawn i .relay s₁.base.world).set i (.relay (.publishing s₁.base.born))
  have h₂ : Deployment.Reachable s₂ := (h₀.run hr₁).step (.publish hi₁ (by rw [hstop₁]; rfl))
  have hi₂ : s₂.processes i = .relay (.publishing s₁.base.born) := Function.update_self ..
  -- the consumer works, and a message comes in
  obtain ⟨s₃, j, hr₃, hbase₃, -, hj₃, -, -, -, hunborn, hproc₃⟩ :=
    Deployment.exists_working Setup.agreeing_default h₂ .consumer
  have h₃ := h₂.run hr₃
  have hij : i ≠ j := by
    rintro rfl
    cases hi₂.symm.trans hunborn
  have hqueue : s₃.declared.queues paymentsNewQueueName = some paymentsNewQueue.arguments :=
    ((deployed h₃).processes j (by rw [hj₃]; rfl) _ (Setup.mem_operations_queue.mpr (.inl rfl))).1
  let m : Message := ⟨[], fun _ => none, none, none⟩
  let s₄ := s₃.rebase ⟨{ s₃.base.world with
    broker := s₃.base.world.broker.accept [paymentsNewQueueName] ⟨m, none, none⟩ },
    s₃.base.threads, s₃.base.born⟩
  have h₄ : Deployment.Reachable s₄ := h₃.step (.env (.foreign _ m (by rw [hqueue]; rfl)))
  obtain ⟨before, after, hready⟩ :=
    List.append_of_mem (Broker.mem_accept_self (List.mem_singleton_self paymentsNewQueueName) :
      (⟨m, none, none⟩ : Envelope) ∈ s₄.base.world.broker.queues paymentsNewQueueName)
  let s₅ := s₄.spawn j (.deliver ⟨m, none, none⟩) { s₄.base.world with
    broker := s₄.base.world.broker.deliver s₃.base.born ⟨m, none, none⟩ (before ++ after) }
  have h₅ : Deployment.Reachable s₅ := h₄.step (.deliver (s := s₄) hj₃ hready)
  have hi₃ : s₃.processes i = .relay (.publishing s₁.base.born) := (hproc₃ i hij).trans hi₂
  have hbegun : (s₃.processes i).begun := by rw [hi₃]; rfl
  have hbegun' : (s₃.processes j).begun := by rw [hj₃]; rfl
  -- both are told to stop
  let s₆ : Deployment .transparent default :=
    { s₅ with stopping := Function.update (Function.update s₅.stopping i true) j true }
  have h₆ : Deployment.Reachable s₆ :=
    (h₅.step (.signal (i := i) hbegun)).step (.signal (i := j) hbegun')
  have hborn : s₁.base.born ≠ s₃.base.born := by
    rw [hbase₃]
    exact (Nat.lt_succ_self _).ne
  have hbatch : s₃.base.threads s₁.base.born =
      .running .relay (code .transparent default .relay) := by
    rw [hbase₃]
    exact Function.update_self ..
  have hrelay : (service .transparent default).Busy s₆.base s₁.base.born :=
    ⟨.relay, .now, _, (Function.update_of_ne hborn ..).trans hbatch⟩
  have hconsumer : (service .transparent default).Busy s₆.base s₃.base.born :=
    ⟨_, _, _, Function.update_self ..⟩
  refine ⟨s₆, i, j, s₁.base.born, s₃.base.born, hi₃, hrelay, hj₃, Function.update_self ..,
    hconsumer, shutdown_completes h₆ fun k hk => ?_⟩
  by_cases hkj : k = j
  · subst hkj
    exact Function.update_self ..
  · by_cases hki : k = i
    · subst hki
      exact (Function.update_of_ne hkj ..).trans (Function.update_self ..)
    · have hsame : s₃.processes k = .unborn :=
        (hproc₃ k hkj).trans ((Function.update_of_ne hki ..).trans (hproc₁ k hki))
      have halive : (s₃.processes k).alive := hk
      rw [hsame] at halive
      cases halive

end Payments
