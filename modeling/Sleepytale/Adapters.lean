import Sleepytale.Boots

/-!
# Stopping what was started

`Backend::stop` is the one path that signals a backend's whole process group, so
an adapter whose `start` returned must be stopped before it is dropped, unless
its process is known to have exited. The adapter's life shows the one place
where it is not: a startup task that fails after `start`.
-/

namespace Sleepytale

open Sleepytale.Net
open Sleepytale.Lib.Maps
open Sleepytale.Lib.Machine
open Std (ExtTreeMap)

/-- The adapter was passed to `stop`, or `has_exited` said that it had exited. -/
def Disposed (boot : BootId) (log : List Effect) : Prop :=
  (∃ ok : Bool, .stopped boot ok ∈ log) ∨ ∃ slot : SocketAddr, .checked boot slot .exited ∈ log

theorem Disposed.mono {boot : BootId} {log log' : List Effect} (h : Disposed boot log)
    (hsub : ∀ effect ∈ log, effect ∈ log') : Disposed boot log' := by
  rcases h with ⟨ok, hm⟩ | ⟨slot, hm⟩
  · exact Or.inl ⟨ok, hsub _ hm⟩
  · exact Or.inr ⟨slot, hsub _ hm⟩

theorem disposed_trace {boot : BootId} {log : List Effect} :
    Disposed boot (trace boot log) ↔ Disposed boot log := by
  simp only [Disposed, mem_trace, Effect.boot?, and_true]

/-- No adapter is dropped after its `start` returned and before it is disposed of. -/
def StoppedFirst (log : List Effect) : Prop :=
  ∀ (before : List Effect) (boot : BootId) (after : List Effect),
    log = before ++ .dropped boot :: after → .started boot ∈ before → Disposed boot before

theorem StoppedFirst.snoc {log : List Effect} (h : StoppedFirst log) {effect : Effect}
    (hdrop : ∀ boot, effect = .dropped boot → .started boot ∈ log → Disposed boot log) :
    StoppedFirst (log ++ [effect]) := by
  intro before boot after he hs
  rcases List.eq_nil_or_concat after with rfl | ⟨rest, last, rfl⟩
  · obtain ⟨rfl, hlast⟩ := List.append_inj' he rfl
    exact hdrop boot (List.singleton_inj.mp hlast) hs
  · rw [List.concat_eq_append, ← List.cons_append, ← List.append_assoc] at he
    obtain ⟨hlog, _⟩ := List.append_inj' he rfl
    exact h before boot rest hlog hs

theorem StoppedFirst.append {log : List Effect} (h : StoppedFirst log) (effects : List Effect)
    (hno : ∀ boot : BootId, .dropped boot ∉ effects) : StoppedFirst (log ++ effects) := by
  induction effects generalizing log with
  | nil =>
    rw [List.append_nil]
    exact h
  | cons effect effects ih =>
    have hfirst : StoppedFirst (log ++ [effect]) :=
      h.snoc fun boot he => (hno boot (by rw [he]; exact List.mem_cons_self)).elim
    have hrest := ih hfirst fun boot hm => hno boot (List.mem_cons_of_mem _ hm)
    rw [List.append_assoc] at hrest
    exact hrest

namespace Life

variable {boot : BootId} {slot : SocketAddr} {t : List Effect}

theorem starting_eq (h : Life boot slot .starting t) :
    ∃ (config : BackendConfig) (console : Bool) (client : SocketAddr) (datagram : Datagram),
      t = [.spawned boot config console client datagram] := by
  cases h with
  | spawned console client datagram hconfig => exact ⟨_, console, client, datagram, rfl⟩

theorem waiting_eq (h : Life boot slot .waiting t) :
    ∃ (config : BackendConfig) (console : Bool) (client : SocketAddr) (datagram : Datagram),
      t = [.spawned boot config console client datagram, .started boot] := by
  cases h with
  | started h =>
    obtain ⟨config, console, client, datagram, rfl⟩ := h.starting_eq
    exact ⟨config, console, client, datagram, rfl⟩

/-- An adapter that was started and is gone was disposed of or abandoned, or it
was dropped after its `start`. -/
theorem gone_cases (h : Life boot slot .gone t) (hs : .started boot ∈ t) :
    Disposed boot t ∨ .abandoned boot ∈ t ∨
      ∃ t₁ t₂ : List Effect, t = t₁ ++ .dropped boot :: t₂ ∧ .started boot ∈ t₁ := by
  have hfailed : ∀ {t : List Effect} {result : StartupResult}, Life boot slot (.failed result) t →
      .started boot ∈ t → ∃ t₁ : List Effect, t = t₁ ++ [.dropped boot] ∧ .started boot ∈ t₁ := by
    intro t result hl hm
    cases hl with
    | failedEarly _ _ => exact ⟨_, rfl, by simpa using hm⟩
    | failedLate _ _ => exact ⟨_, rfl, by simpa using hm⟩
  cases h with
  | bootFailed h =>
    obtain ⟨t₁, rfl, hm⟩ := hfailed h (by simpa using hs)
    exact Or.inr (Or.inr ⟨t₁, _, List.append_assoc _ _ _, hm⟩)
  | exited h => exact Or.inl (Or.inr ⟨slot, by simp⟩)
  | idleStopped h time ok => exact Or.inl (Or.inl ⟨ok, by simp⟩)
  | drained h hstage ok => exact Or.inl (Or.inl ⟨ok, by simp⟩)
  | drainedFailed h =>
    obtain ⟨t₁, rfl, hm⟩ := hfailed h hs
    exact Or.inr (Or.inr ⟨t₁, [], rfl, hm⟩)
  | gaveUp h hstage => exact Or.inr (Or.inl (by simp))

end Life

/-- The slot has been dealt with in the shutdown loop. -/
def Phase.Done (phase : Phase) (slot : SocketAddr) : Prop :=
  match phase with
  | draining rest => slot ∉ rest
  | finished => True
  | _ => False

theorem Phase.done_drain (rest : List SocketAddr) (slot : SocketAddr) :
    (Phase.drain rest).Done slot ↔ slot ∉ rest := by
  cases rest <;> simp [Phase.drain, Phase.Done]

theorem Phase.not_done_of_inLoop {phase : Phase} (h : phase.InLoop) (slot : SocketAddr) :
    ¬ phase.Done slot := by
  cases phase with
  | serving => exact id
  | ticking rest => exact id
  | checking slot rest => exact id
  | draining rest => exact h.elim
  | finished => exact h.elim

/-- A slot the shutdown loop has dealt with sleeps, and stays asleep. -/
def State.Drained (s : State) : Prop :=
  ∀ (slot : SocketAddr) (managed : ManagedBackend), s.backends[slot]? = some managed →
    s.phase.Done slot → managed.lifecycle = .sleeping

theorem drained_trans {p : Proxy} {s s' : State} {e : Event} (hd : s.Drained)
    (h : Trans p s e s') : s'.Drained := by
  have hloop : s'.phase.InLoop → s'.Drained := fun hp slot managed _ hdone =>
    (Phase.not_done_of_inLoop hp slot hdone).elim
  have hserving : s.phase = .serving → s'.phase = s.phase → s'.Drained := by
    intro hs hp
    refine hloop ?_
    rw [hp, hs]
    trivial
  have hnext : ∀ {changed : SocketAddr} {rest : List SocketAddr},
      s.phase = .draining (changed :: rest) → s'.phase = .drain rest →
      (∀ slot : SocketAddr, slot ≠ changed → s'.backends[slot]? = s.backends[slot]?) →
      (∀ managed : ManagedBackend, s'.backends[changed]? = some managed →
        managed.lifecycle = .sleeping) → s'.Drained := by
    intro changed rest hphase hphase' hother hchanged slot managed hm hdone
    rw [hphase', Phase.done_drain] at hdone
    by_cases he : slot = changed
    · subst he
      exact hchanged managed hm
    · rw [hother slot he] at hm
      refine hd slot managed hm ?_
      rw [hphase]
      simp [Phase.Done, he, hdone]
  have hinsert : ∀ {changed : SocketAddr} {rest : List SocketAddr} {managed' : ManagedBackend},
      s.phase = .draining (changed :: rest) → s'.phase = .drain rest →
      s'.backends = s.backends.insert changed managed' → managed'.lifecycle = .sleeping →
      s'.Drained := by
    intro changed rest managed' hphase hphase' hb hl
    refine hnext hphase hphase' (fun slot he => ?_) fun managed hm => ?_
    · rw [hb, getElem?_insert_eq, if_neg (fun h => he h.symm)]
    · rw [hb, getElem?_insert_eq, if_pos rfl] at hm
      rw [← Option.some.inj hm]
      exact hl
  have hwaking : ∀ {changed : SocketAddr} {managed managed' : ManagedBackend} {boot : BootId}
      {task : Startup}, s.backends[changed]? = some managed →
      managed.lifecycle = .waking boot task → s'.phase = s.phase →
      s'.backends = s.backends.insert changed managed' → s'.Drained := by
    intro changed managed managed' boot task hslot hl hphase hb slot m hm hdone
    rw [hphase] at hdone
    rw [hb] at hm
    rcases getElem?_insert_cases hm with ⟨rfl, _⟩ | ⟨_, hm⟩
    · have hsleeps := hd slot managed hslot hdone
      rw [hl] at hsleeps
      cases hsleeps
    · exact hd slot m hm hdone
  cases h with
  | stay => exact hd
  | rejected hphase => exact hserving hphase rfl
  | relayed hphase => exact hserving hphase rfl
  | woke hphase => exact hserving hphase rfl
  | heldBack hphase => exact hserving hphase rfl
  | ignored hphase => exact hserving hphase rfl
  | tickStarted => exact hloop (Phase.tick_inLoop _)
  | nothingFinished => exact hloop trivial
  | ready => exact hloop trivial
  | bootFailed => exact hloop trivial
  | notRunning => exact hloop (Phase.tick_inLoop _)
  | exited => exact hloop (Phase.tick_inLoop _)
  | checkFailed => exact hloop (Phase.tick_inLoop _)
  | busy => exact hloop (Phase.tick_inLoop _)
  | idling => exact hloop (Phase.tick_inLoop _)
  | idleStopped => exact hloop (Phase.tick_inLoop _)
  | shutDown hphase =>
    intro slot managed hm hdone
    rw [Phase.done_drain, ExtTreeMap.mem_keys] at hdone
    rw [← ExtTreeMap.isSome_getElem?_iff_mem] at hdone
    exact (hdone (by rw [hm]; rfl)).elim
  | nothingToDrain hphase hlife => exact hnext hphase rfl (fun _ _ => rfl) hlife
  | drained hphase hslot => exact hinsert hphase rfl rfl rfl
  | drainedFailed hphase hslot => exact hinsert hphase rfl rfl rfl
  | gaveUp hphase hslot => exact hinsert hphase rfl rfl rfl
  | started hslot hlife => exact hwaking hslot hlife rfl rfl
  | becameReady hslot hlife => exact hwaking hslot hlife rfl rfl
  | startupFailed hslot hlife => exact hwaking hslot hlife rfl rfl
  | advanced => exact hd
  | path => exact hd

theorem drained (p : Proxy) (now : Instant) (events : List Event) :
    (p.run now events).Drained :=
  run_induction State.Drained (fun _ _ _ hdone => hdone.elim)
    (fun _ _ _ hd h => drained_trans hd h) events

/-- A split of what the log says of a boot is a split of the log. -/
theorem log_split_of_trace {boot : BootId} {log t₁ t₂ : List Effect} {effect : Effect}
    (h : trace boot log = t₁ ++ effect :: t₂) :
    ∃ before after : List Effect, log = before ++ effect :: after ∧ trace boot before = t₁ := by
  obtain ⟨l₁, l₂, rfl, h₁, h₂⟩ := List.filter_eq_append_iff.mp h
  obtain ⟨l₃, l₄, rfl, h₃, _, _⟩ := List.filter_eq_cons_iff.mp h₂
  have hnil : trace boot l₃ = [] := trace_of_other fun e hm he => h₃ e hm (by simpa using he)
  refine ⟨l₁ ++ l₃, l₄, by simp, ?_⟩
  rw [trace_append, hnil, List.append_nil]
  exact h₁

/-- Nothing started is left behind: each adapter is disposed of before it is
dropped, and once the shutdown loop is through, each one that was started has
been disposed of or was abandoned when the grace period ran out. -/
structure State.NoneLeft (s : State) : Prop where
  stopped_first : StoppedFirst s.log
  all_stopped : s.phase = .finished → ∀ boot : BootId, .started boot ∈ s.log →
    Disposed boot s.log ∨ .abandoned boot ∈ s.log

theorem noneLeft_of_stoppedFirst (p : Proxy) (now : Instant) (events : List Event)
    (h : StoppedFirst (p.run now events).log) : (p.run now events).NoneLeft := by
  refine ⟨h, fun hphase boot hs => ?_⟩
  have hb := boots p now events
  have hd := drained p now events
  have hst : .started boot ∈ trace boot (p.run now events).log := mem_trace.mpr ⟨hs, rfl⟩
  have hlt : boot < (p.run now events).boots := by
    by_contra hge
    rw [hb.unborn boot (Nat.le_of_not_lt hge)] at hst
    cases hst
  obtain ⟨slot, hlife⟩ := hb.gone boot hlt fun slot managed stage hm hstage => by
    rw [hd slot managed hm (by rw [hphase]; trivial)] at hstage
    cases hstage
  rcases hlife.gone_cases hst with hdone | hab | ⟨t₁, t₂, ht, hs₁⟩
  · exact Or.inl (disposed_trace.mp hdone)
  · exact Or.inr (mem_trace.mp hab).1
  · obtain ⟨before, after, hlog, hbefore⟩ := log_split_of_trace ht
    rw [← hbefore] at hs₁
    refine Or.inl ((h before boot after hlog (mem_trace.mp hs₁).1).mono fun effect hm => ?_)
    rw [hlog]
    exact List.mem_append_left _ hm

/-- A startup task whose `start` has returned ends with a ready backend. -/
def StartedGetsReady (s : State) : Event → Prop
  | .startupDone slot result => ∀ (managed : ManagedBackend) (boot : BootId),
      s.backends[slot]? = some managed → managed.lifecycle = .waking boot .waiting →
      result = .ready
  | _ => True

theorem stoppedFirst_trans {p : Proxy} {s s' : State} {e : Event} (hb : s.Boots)
    (hf : StoppedFirst s.log) (hc : StartedGetsReady s e) (h : Trans p s e s') :
    StoppedFirst s'.log := by
  have hpair : ∀ (effects : List Effect) (boot : BootId), (∀ b : BootId, .dropped b ∉ effects) →
      Disposed boot effects → StoppedFirst (s.log ++ (effects ++ [.dropped boot])) := by
    intro effects boot hno hdone
    rw [← List.append_assoc]
    refine (hf.append effects hno).snoc fun b he _ => ?_
    obtain rfl := Effect.dropped.inj he
    exact hdone.mono fun effect hm => List.mem_append_right _ hm
  cases h with
  | relayed =>
    rw [State.forward_log]
    exact (hf.append _ (by simp)).snoc fun boot he => by cases he
  | @ready env slot rest managed boot hphase hslot hlife =>
    obtain ⟨calls, hlog, _, _⟩ := State.deliverHeld_log
      (s.takeOver slot managed boot env.readyLap) managed.config.backend boot
      (env.order.list managed.held) env.forward
    change StoppedFirst ((s.takeOver slot managed boot env.readyLap).deliverHeld
      managed.config.backend boot (env.order.list managed.held) env.forward).log
    rw [hlog]
    exact (hf.append [.consumed boot managed.config.backend .ready] (by simp)).append _ (by simp)
  | @exited env slot rest managed boot =>
    exact hpair [.checked boot managed.config.backend .exited] boot (by simp)
      (Or.inr ⟨managed.config.backend, by simp⟩)
  | @idleStopped env slot rest managed boot =>
    exact hpair [.checked boot managed.config.backend .alive,
      .idleStop boot managed.config.backend (s.now + env.emptyLap + env.elapsedLap),
      .stopped boot env.stopOk] boot (by simp) (Or.inl ⟨env.stopOk, by simp⟩)
  | @drained stopOk slot rest managed boot =>
    exact hpair [.stopped boot stopOk] boot (by simp) (Or.inl ⟨stopOk, by simp⟩)
  | @startupFailed slot managed boot task result hslot hlife htask hresult =>
    refine hf.snoc fun b he hs => ?_
    obtain rfl := Effect.dropped.inj he
    rcases htask with rfl | rfl
    · -- `start` had not returned, so there is nothing to stop.
      obtain ⟨config, console, client, datagram, ht⟩ :=
        (hb.life slot managed boot .starting hslot (by rw [hlife]; rfl)).starting_eq
      have hst : .started boot ∈ trace boot s.log := mem_trace.mpr ⟨hs, rfl⟩
      rw [ht] at hst
      simp at hst
    · exact (hresult (hc managed boot hslot hlife)).elim
  | stay => exact hf
  | tickStarted => exact hf
  | nothingFinished => exact hf
  | notRunning => exact hf
  | shutDown => exact hf
  | nothingToDrain => exact hf
  | drainedFailed => exact hf
  | becameReady => exact hf
  | advanced => exact hf
  | path => exact hf
  | _ => exact hf.append _ (by simp)

/-- A startup that fails after `start` drops its adapter as it is. -/
theorem not_stoppedFirst_of_late_failure {p : Proxy} {s : State} {e : Event} (hb : s.Boots)
    (hc : ¬ StartedGetsReady s e) : ¬ StoppedFirst (p.step s e).log := by
  cases e with
  | startupDone slot result =>
    simp only [StartedGetsReady, not_forall] at hc
    obtain ⟨managed, boot, hslot, hlife, hresult⟩ := hc
    obtain ⟨config, console, client, datagram, ht⟩ :=
      (hb.life slot managed boot .waiting hslot (by rw [hlife]; rfl)).waiting_eq
    have hlog : (p.step s (.startupDone slot result)).log = s.log ++ [.dropped boot] := by
      simp only [Proxy.step, State.startupDone, hslot, hlife]
      cases result with
      | ready => exact (hresult rfl).elim
      | failed => rfl
      | panicked => rfl
    have hs : .started boot ∈ trace boot s.log := by
      rw [ht]
      simp
    intro hf
    have hdone := disposed_trace.mpr (hf s.log boot [] hlog (mem_trace.mp hs).1)
    rw [ht] at hdone
    simp [Disposed] at hdone
  | _ => exact (hc trivial).elim

/-- In every state of a run nothing started is left behind, exactly if each
startup task of the run whose `start` has returned ends with a ready backend. -/
theorem none_left_iff (p : Proxy) (now : Instant) (events : List Event) :
    (∀ before : List Event, before <+: events → (p.run now before).NoneLeft) ↔
      AllSteps p.step StartedGetsReady (p.init now) events := by
  have hstart : StoppedFirst (p.init now).log := by
    intro before boot after he
    simp [Proxy.init] at he
  rw [← forall_prefix_iff_allSteps (fun s : State => StoppedFirst s.log) hstart
    (fun before e hf hc => stoppedFirst_trans (boots p now before) hf hc (step_trans p _ e))
    (fun before e hc => not_stoppedFirst_of_late_failure (boots p now before) hc) events]
  constructor
  · exact fun h before hb => (h before hb).stopped_first
  · exact fun h before hb => noneLeft_of_stoppedFirst p now before (h before hb)

/-- The server process starts and never reports that it is up. -/
def bootTimeoutRun : List Event :=
  [.datagram (.localhost 40000) testInitial ⟨0, true, true⟩, .started Config.default.backend,
    .advance Config.default.bootTimeout, .startupDone Config.default.backend .failed]

theorem boot_timeout_leaves_server :
    ¬ (∀ before : List Event, before <+: bootTimeoutRun →
      ((⟨.default, Sni.Rfc9001.crypto⟩ : Proxy).run 0 before).NoneLeft) := by
  intro h
  have hlog : ((⟨.default, Sni.Rfc9001.crypto⟩ : Proxy).run 0 bootTimeoutRun).log =
      [.received (.localhost 40000) testInitial Config.default.backend,
        .spawned 0 Config.default.defaultBackend true (.localhost 40000) testInitial,
        .started 0] ++ .dropped 0 :: [] := by decide +kernel
  have hdone := (h bootTimeoutRun (List.prefix_refl _)).stopped_first _ _ _ hlog (by simp)
  simp [Disposed] at hdone

end Sleepytale
