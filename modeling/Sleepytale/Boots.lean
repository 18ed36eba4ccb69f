import Sleepytale.Lifecycle

/-!
# The life of an adapter

A boot is one startup task and the adapter it builds. `Life` says in which order
an adapter passes its stages and what the proxy does with it on the way, with
no reference to slots, sessions or other boots. `boot_life` says that in every
run each boot lives such a life, in the slot that spawned it.
-/

namespace Sleepytale

open Sleepytale.Net
open Sleepytale.Lib.Maps
open Sleepytale.Lib.Machine
open Std (ExtTreeMap)

/-- The boot an effect concerns, if it concerns one. -/
def Effect.boot? : Effect → Option BootId
  | received _ _ _ => none
  | rejected _ _ => none
  | spawned boot _ _ _ _ => some boot
  | forwarded call =>
      match call.origin with
      | .direct => none
      | .held _ boot => some boot
  | started boot => some boot
  | consumed boot _ _ => some boot
  | checked boot _ _ => some boot
  | idleStop boot _ _ => some boot
  | stopped boot _ => some boot
  | abandoned boot => some boot
  | dropped boot => some boot

/-- What the log says of one boot. -/
def trace (boot : BootId) (log : List Effect) : List Effect :=
  log.filter fun effect => effect.boot? = some boot

theorem trace_append (boot : BootId) (log log' : List Effect) :
    trace boot (log ++ log') = trace boot log ++ trace boot log' := by
  rw [trace, List.filter_append]
  rfl

theorem mem_trace {boot : BootId} {log : List Effect} {effect : Effect} :
    effect ∈ trace boot log ↔ effect ∈ log ∧ effect.boot? = some boot := by
  simp [trace]

theorem trace_of_other {boot : BootId} {log : List Effect}
    (h : ∀ effect ∈ log, effect.boot? ≠ some boot) : trace boot log = [] := by
  simpa [trace] using h

theorem trace_of_own {boot : BootId} {log : List Effect}
    (h : ∀ effect ∈ log, effect.boot? = some boot) : trace boot log = log := by
  rw [trace, List.filter_eq_self]
  simpa using h

inductive Stage where
  | starting
  | waiting
  | ready
  | failed (result : StartupResult)
  | running
  | gone
  deriving DecidableEq

/-- The boot a slot has in hand, and its stage. -/
def Lifecycle.stage : Lifecycle → Option (BootId × Stage)
  | sleeping => none
  | waking boot .starting => some (boot, .starting)
  | waking boot .waiting => some (boot, .waiting)
  | waking boot (.finished .ready) => some (boot, .ready)
  | waking boot (.finished result) => some (boot, .failed result)
  | running boot => some (boot, .running)

theorem Lifecycle.exists_stage_waking (boot : BootId) (task : Startup) :
    ∃ stage, (Lifecycle.waking boot task).stage = some (boot, stage) := by
  cases task with
  | starting => exact ⟨_, rfl⟩
  | waiting => exact ⟨_, rfl⟩
  | finished result => cases result <;> exact ⟨_, rfl⟩

theorem Lifecycle.stage_finished {boot : BootId} {result : StartupResult}
    (h : result ≠ .ready) :
    (Lifecycle.waking boot (.finished result)).stage = some (boot, .failed result) := by
  cases result with
  | ready => exact (h rfl).elim
  | failed => rfl
  | panicked => rfl

/-- The stages of the boot `boot` of `slot`, each with all that was done with it. -/
inductive Life (boot : BootId) (slot : SocketAddr) : Stage → List Effect → Prop where
  | spawned {config : BackendConfig} (console : Bool) (client : SocketAddr)
      (datagram : Datagram) (hconfig : config.backend = slot) :
      Life boot slot .starting [.spawned boot config console client datagram]
  | started {t : List Effect} (h : Life boot slot .starting t) :
      Life boot slot .waiting (t ++ [.started boot])
  | becameReady {t : List Effect} (h : Life boot slot .waiting t) : Life boot slot .ready t
  | failedEarly {t : List Effect} {result : StartupResult} (h : Life boot slot .starting t)
      (hresult : result ≠ .ready) : Life boot slot (.failed result) (t ++ [.dropped boot])
  | failedLate {t : List Effect} {result : StartupResult} (h : Life boot slot .waiting t)
      (hresult : result ≠ .ready) : Life boot slot (.failed result) (t ++ [.dropped boot])
  | tookOver {t : List Effect} {calls : List Forward} (h : Life boot slot .ready t)
      (hcalls : ∀ call ∈ calls, call.origin = .held slot boot ∧ call.backend = slot) :
      Life boot slot .running (t ++ .consumed boot slot .ready :: calls.map .forwarded)
  | bootFailed {t : List Effect} {result : StartupResult} (h : Life boot slot (.failed result) t) :
      Life boot slot .gone (t ++ [.consumed boot slot result])
  | checked {t : List Effect} {answer : ExitCheck} (h : Life boot slot .running t)
      (halive : answer ≠ .exited) : Life boot slot .running (t ++ [.checked boot slot answer])
  | exited {t : List Effect} (h : Life boot slot .running t) :
      Life boot slot .gone (t ++ [.checked boot slot .exited, .dropped boot])
  | idleStopped {t : List Effect} (h : Life boot slot .running t) (time : Instant) (ok : Bool) :
      Life boot slot .gone (t ++ [.checked boot slot .alive, .idleStop boot slot time,
        .stopped boot ok, .dropped boot])
  | drained {t : List Effect} {stage : Stage} (h : Life boot slot stage t)
      (hstage : stage = .running ∨ stage = .ready) (ok : Bool) :
      Life boot slot .gone (t ++ [.stopped boot ok, .dropped boot])
  | drainedFailed {t : List Effect} {result : StartupResult}
      (h : Life boot slot (.failed result) t) : Life boot slot .gone t
  | gaveUp {t : List Effect} {stage : Stage} (h : Life boot slot stage t)
      (hstage : stage = .starting ∨ stage = .waiting) :
      Life boot slot .gone (t ++ [.abandoned boot])

/-- The boots of a state: numbered below `boots`, each in one slot at most and
at the stage its trace has reached, and gone if it is in none. -/
structure State.Boots (s : State) : Prop where
  unborn : ∀ boot : BootId, s.boots ≤ boot → trace boot s.log = []
  bound : ∀ (slot : SocketAddr) (managed : ManagedBackend) (boot : BootId) (stage : Stage),
    s.backends[slot]? = some managed → managed.lifecycle.stage = some (boot, stage) →
    boot < s.boots
  distinct : ∀ (slot slot' : SocketAddr) (managed managed' : ManagedBackend) (boot : BootId)
    (stage stage' : Stage), s.backends[slot]? = some managed →
    s.backends[slot']? = some managed' → managed.lifecycle.stage = some (boot, stage) →
    managed'.lifecycle.stage = some (boot, stage') → slot = slot'
  life : ∀ (slot : SocketAddr) (managed : ManagedBackend) (boot : BootId) (stage : Stage),
    s.backends[slot]? = some managed → managed.lifecycle.stage = some (boot, stage) →
    Life boot slot stage (trace boot s.log)
  gone : ∀ boot : BootId, boot < s.boots →
    (∀ (slot : SocketAddr) (managed : ManagedBackend) (stage : Stage),
      s.backends[slot]? = some managed → managed.lifecycle.stage ≠ some (boot, stage)) →
    ∃ slot : SocketAddr, Life boot slot .gone (trace boot s.log)

namespace State.Boots

/-- Effects that concern no boot, and slots whose boots stay at their stages. -/
theorem quiet {s s' : State} (h : s.Boots) (hboots : s'.boots = s.boots)
    (effects : List Effect) (hlog : s'.log = s.log ++ effects)
    (hquiet : ∀ effect ∈ effects, effect.boot? = none)
    (hslots : ∀ slot : SocketAddr, s'.backends[slot]?.map (·.lifecycle) =
      s.backends[slot]?.map (·.lifecycle)) : s'.Boots := by
  have htrace : ∀ boot, trace boot s'.log = trace boot s.log := by
    intro boot
    have hnil : trace boot effects = [] := by
      refine trace_of_other fun effect hm he => ?_
      rw [hquiet effect hm] at he
      cases he
    rw [hlog, trace_append, hnil, List.append_nil]
  have hback : ∀ (slot : SocketAddr) (managed : ManagedBackend), s'.backends[slot]? = some managed →
      ∃ managed' : ManagedBackend, s.backends[slot]? = some managed' ∧
        managed'.lifecycle = managed.lifecycle := by
    intro slot managed hm
    have := hslots slot
    rw [hm, Option.map_some] at this
    exact Option.map_eq_some_iff.mp this.symm
  refine ⟨?_, ?_, ?_, ?_, ?_⟩
  · intro boot hb
    rw [htrace]
    exact h.unborn boot (by omega)
  · intro slot managed boot stage hm hs
    obtain ⟨managed', hm', he⟩ := hback slot managed hm
    rw [hboots]
    exact h.bound slot managed' boot stage hm' (by rw [he]; exact hs)
  · intro slot slot' managed₁ managed₂ boot stage stage' h₁ h₂ hs₁ hs₂
    obtain ⟨m₁, hm₁, he₁⟩ := hback slot managed₁ h₁
    obtain ⟨m₂, hm₂, he₂⟩ := hback slot' managed₂ h₂
    exact h.distinct slot slot' m₁ m₂ boot stage stage' hm₁ hm₂ (by rw [he₁]; exact hs₁)
      (by rw [he₂]; exact hs₂)
  · intro slot managed boot stage hm hs
    obtain ⟨managed', hm', he⟩ := hback slot managed hm
    rw [htrace]
    exact h.life slot managed' boot stage hm' (by rw [he]; exact hs)
  · intro boot hb hno
    rw [htrace]
    refine h.gone boot (hboots ▸ hb) fun slot managed stage hm hs => ?_
    have := hslots slot
    rw [hm, Option.map_some] at this
    obtain ⟨managed', hm', he⟩ := Option.map_eq_some_iff.mp this
    exact hno slot managed' stage hm' (by rw [he]; exact hs)

/-- One slot moves its boot to another stage, or lets go of it for good. -/
theorem move {s s' : State} (h : s.Boots) {slot : SocketAddr} {managed managed' : ManagedBackend}
    {boot : BootId} {stage : Stage} (hslot : s.backends[slot]? = some managed)
    (hstage : managed.lifecycle.stage = some (boot, stage)) (hboots : s'.boots = s.boots)
    (hback : s'.backends = s.backends.insert slot managed')
    {effects : List Effect} (hlog : s'.log = s.log ++ effects)
    (hown : ∀ effect ∈ effects, effect.boot? = some boot)
    (hlife : Life boot slot stage (trace boot s.log) →
      ∃ stage' : Stage, Life boot slot stage' (trace boot s.log ++ effects) ∧
        (managed'.lifecycle.stage = some (boot, stage') ∨
          stage' = .gone ∧ managed'.lifecycle.stage = none)) : s'.Boots := by
  have hlt := h.bound slot managed boot stage hslot hstage
  have hself : trace boot s'.log = trace boot s.log ++ effects := by
    rw [hlog, trace_append, trace_of_own hown]
  have hother : ∀ boot', boot' ≠ boot → trace boot' s'.log = trace boot' s.log := by
    intro boot' hne
    have hnil : trace boot' effects = [] := by
      refine trace_of_other fun effect hm he => hne ?_
      rw [hown effect hm] at he
      exact (Option.some.inj he).symm
    rw [hlog, trace_append, hnil, List.append_nil]
  obtain ⟨stage', hnew, hmanaged'⟩ := hlife (h.life slot managed boot stage hslot hstage)
  have hget : ∀ (slot₂ : SocketAddr) (m : ManagedBackend), s'.backends[slot₂]? = some m →
      slot₂ = slot ∧ m = managed' ∨ slot₂ ≠ slot ∧ s.backends[slot₂]? = some m := by
    intro slot₂ m hm
    rw [hback] at hm
    exact getElem?_insert_cases hm
  have hboot' : ∀ (boot' : BootId) (stage₂ : Stage),
      managed'.lifecycle.stage = some (boot', stage₂) → boot' = boot ∧ stage₂ = stage' := by
    intro boot' stage₂ he
    rcases hmanaged' with hs | ⟨_, hs⟩
    · rw [hs, Option.some.injEq, Prod.mk.injEq] at he
      exact ⟨he.1.symm, he.2.symm⟩
    · rw [hs] at he
      cases he
  refine ⟨?_, ?_, ?_, ?_, ?_⟩
  · intro boot' hb
    rw [hboots] at hb
    have hne : boot' ≠ boot := by
      rintro rfl
      exact Nat.lt_irrefl _ (Nat.lt_of_lt_of_le hlt hb)
    rw [hother boot' hne]
    exact h.unborn boot' hb
  · intro slot₂ m boot' stage₂ hm hs
    rw [hboots]
    rcases hget slot₂ m hm with ⟨rfl, rfl⟩ | ⟨_, hm⟩
    · rw [(hboot' boot' stage₂ hs).1]
      exact hlt
    · exact h.bound slot₂ m boot' stage₂ hm hs
  · intro slot₁ slot₂ m₁ m₂ boot' stage₁ stage₂ hm₁ hm₂ hs₁ hs₂
    rcases hget slot₁ m₁ hm₁ with ⟨rfl, rfl⟩ | ⟨hne₁, hm₁⟩ <;>
      rcases hget slot₂ m₂ hm₂ with ⟨rfl, rfl⟩ | ⟨hne₂, hm₂⟩
    · rfl
    · obtain rfl := (hboot' boot' stage₁ hs₁).1
      exact h.distinct slot₁ slot₂ managed m₂ boot' stage stage₂ hslot hm₂ hstage hs₂
    · obtain rfl := (hboot' boot' stage₂ hs₂).1
      exact h.distinct slot₁ slot₂ m₁ managed boot' stage₁ stage hm₁ hslot hs₁ hstage
    · exact h.distinct slot₁ slot₂ m₁ m₂ boot' stage₁ stage₂ hm₁ hm₂ hs₁ hs₂
  · intro slot₂ m boot' stage₂ hm hs
    rcases hget slot₂ m hm with ⟨rfl, rfl⟩ | ⟨hne, hm⟩
    · obtain ⟨rfl, rfl⟩ := hboot' boot' stage₂ hs
      rw [hself]
      exact hnew
    · have hb : boot' ≠ boot := by
        rintro rfl
        exact hne (h.distinct slot₂ slot m managed boot' stage₂ stage hm hslot hs hstage)
      rw [hother boot' hb]
      exact h.life slot₂ m boot' stage₂ hm hs
  · intro boot' hb hno
    by_cases he : boot' = boot
    · subst he
      have hin : s'.backends[slot]? = some managed' := by
        rw [hback, getElem?_insert_eq, if_pos rfl]
      rcases hmanaged' with hs | ⟨rfl, _⟩
      · exact (hno slot managed' stage' hin hs).elim
      · exact ⟨slot, by rw [hself]; exact hnew⟩
    · rw [hother boot' he]
      refine h.gone boot' (hboots ▸ hb) fun slot₂ m stage₂ hm hs => ?_
      by_cases hslots : slot₂ = slot
      · subst hslots
        rw [hslot, Option.some.injEq] at hm
        rw [← hm, hstage, Option.some.injEq, Prod.mk.injEq] at hs
        exact he hs.1.symm
      · refine hno slot₂ m stage₂ ?_ hs
        rw [hback, getElem?_insert_eq, if_neg (fun he => hslots he.symm)]
        exact hm

/-- A sleeping slot spawns the next boot. -/
theorem spawn {s s' : State} (h : s.Boots) {slot : SocketAddr}
    {managed managed' : ManagedBackend} (hslot : s.backends[slot]? = some managed)
    (hstage : managed.lifecycle.stage = none) (hboots : s'.boots = s.boots + 1)
    (hback : s'.backends = s.backends.insert slot managed')
    (hstage' : managed'.lifecycle.stage = some (s.boots, .starting))
    {effects : List Effect} (hlog : s'.log = s.log ++ effects)
    (hother : ∀ boot, boot ≠ s.boots → trace boot effects = [])
    (hlife : Life s.boots slot .starting (trace s.boots effects)) : s'.Boots := by
  have htrace : ∀ boot, boot ≠ s.boots → trace boot s'.log = trace boot s.log := by
    intro boot hne
    rw [hlog, trace_append, hother boot hne, List.append_nil]
  have hself : trace s.boots s'.log = trace s.boots effects := by
    rw [hlog, trace_append, h.unborn s.boots (Nat.le_refl _), List.nil_append]
  have hget : ∀ (slot₂ : SocketAddr) (m : ManagedBackend), s'.backends[slot₂]? = some m →
      slot₂ = slot ∧ m = managed' ∨ slot₂ ≠ slot ∧ s.backends[slot₂]? = some m := by
    intro slot₂ m hm
    rw [hback] at hm
    exact getElem?_insert_cases hm
  have hnew : ∀ (boot : BootId) (stage : Stage), managed'.lifecycle.stage = some (boot, stage) →
      boot = s.boots ∧ stage = .starting := by
    intro boot stage he
    rw [hstage', Option.some.injEq, Prod.mk.injEq] at he
    exact ⟨he.1.symm, he.2.symm⟩
  have hold : ∀ (slot₂ : SocketAddr) (m : ManagedBackend) (boot : BootId) (stage : Stage),
      s.backends[slot₂]? = some m → m.lifecycle.stage = some (boot, stage) → boot ≠ s.boots := by
    intro slot₂ m boot stage hm hs
    exact Nat.ne_of_lt (h.bound slot₂ m boot stage hm hs)
  refine ⟨?_, ?_, ?_, ?_, ?_⟩
  · intro boot hb
    rw [hboots] at hb
    rw [htrace boot (Nat.ne_of_gt hb)]
    exact h.unborn boot (Nat.le_of_succ_le hb)
  · intro slot₂ m boot stage hm hs
    rw [hboots]
    rcases hget slot₂ m hm with ⟨rfl, rfl⟩ | ⟨_, hm⟩
    · rw [(hnew boot stage hs).1]
      exact Nat.lt_succ_self _
    · exact Nat.lt_succ_of_lt (h.bound slot₂ m boot stage hm hs)
  · intro slot₁ slot₂ m₁ m₂ boot stage₁ stage₂ hm₁ hm₂ hs₁ hs₂
    rcases hget slot₁ m₁ hm₁ with ⟨rfl, rfl⟩ | ⟨hne₁, hm₁⟩ <;>
      rcases hget slot₂ m₂ hm₂ with ⟨rfl, rfl⟩ | ⟨hne₂, hm₂⟩
    · rfl
    · exact (hold slot₂ m₂ boot stage₂ hm₂ hs₂ (hnew boot stage₁ hs₁).1).elim
    · exact (hold slot₁ m₁ boot stage₁ hm₁ hs₁ (hnew boot stage₂ hs₂).1).elim
    · exact h.distinct slot₁ slot₂ m₁ m₂ boot stage₁ stage₂ hm₁ hm₂ hs₁ hs₂
  · intro slot₂ m boot stage hm hs
    rcases hget slot₂ m hm with ⟨rfl, rfl⟩ | ⟨_, hm⟩
    · obtain ⟨rfl, rfl⟩ := hnew boot stage hs
      rw [hself]
      exact hlife
    · rw [htrace boot (hold slot₂ m boot stage hm hs)]
      exact h.life slot₂ m boot stage hm hs
  · intro boot hb hno
    have hin : s'.backends[slot]? = some managed' := by
      rw [hback, getElem?_insert_eq, if_pos rfl]
    have hne : boot ≠ s.boots := by
      rintro rfl
      exact hno slot managed' .starting hin hstage'
    rw [htrace boot hne]
    rw [hboots] at hb
    refine h.gone boot (Nat.lt_of_le_of_ne (Nat.le_of_lt_succ hb) hne) ?_
    intro slot₂ m stage hm hs
    by_cases he : slot₂ = slot
    · subst he
      rw [hslot, Option.some.injEq] at hm
      rw [← hm, hstage] at hs
      cases hs
    · refine hno slot₂ m stage ?_ hs
      rw [hback, getElem?_insert_eq, if_neg (fun h => he h.symm)]
      exact hm

/-- A running backend that has not exited is left running. -/
theorem checked {s s' : State} (h : s.Boots) (hk : s.Keyed) {slot : SocketAddr}
    {managed managed' : ManagedBackend} {boot : BootId} {answer : ExitCheck}
    (hslot : s.backends[slot]? = some managed) (hlife : managed.lifecycle = .running boot)
    (hback : s'.backends = s.backends.insert slot managed')
    (hsame : managed'.lifecycle = managed.lifecycle) (hboots : s'.boots = s.boots)
    (hlog : s'.log = s.log ++ [.checked boot managed.config.backend answer])
    (halive : answer ≠ .exited) : s'.Boots := by
  have hstage : managed.lifecycle.stage = some (boot, .running) := by rw [hlife]; rfl
  refine h.move hslot hstage hboots hback hlog (by simp [Effect.boot?]) fun hl => ?_
  rw [hk slot managed hslot, hsame]
  exact ⟨.running, hl.checked halive, Or.inl hstage⟩

end State.Boots

/-- Every transition keeps the boots in order and each of them on its way. -/
theorem boots_trans {p : Proxy} {s s' : State} {e : Event} (hk : s.Keyed) (hb : s.Boots)
    (h : Trans p s e s') : s'.Boots := by
  have hsilent : s'.boots = s.boots → s'.log = s.log → s'.backends = s.backends → s'.Boots := by
    intro hboots hlog hback
    refine hb.quiet hboots [] (by rw [hlog, List.append_nil]) (by simp) fun slot => ?_
    rw [hback]
  cases h with
  | stay => exact hb
  | rejected => exact hb.quiet rfl _ rfl (by simp [Effect.boot?]) fun _ => rfl
  | @relayed client datagram env managed boot hphase hslot hlife =>
    refine hb.quiet rfl _ (List.append_assoc _ _ _) ?_ fun _ => rfl
    intro effect hm
    simp only [List.singleton_append, List.mem_cons, List.not_mem_nil, or_false] at hm
    rcases hm with rfl | rfl <;> rfl
  | @woke client datagram env managed hphase hslot hlife hinitial =>
    have haddr := hk _ managed hslot
    refine hb.spawn hslot (by rw [hlife]; rfl) rfl rfl (by simp [Lifecycle.stage]) rfl ?_ ?_
    · intro boot hne
      refine trace_of_other fun effect hm he => ?_
      simp only [List.mem_cons, List.not_mem_nil, or_false] at hm
      rcases hm with rfl | rfl
      · cases he
      · exact hne (Option.some.inj he).symm
    · simpa [trace, Effect.boot?] using Life.spawned _ client datagram haddr
  | @heldBack client datagram env managed boot task hphase hslot hlife hinitial =>
    refine hb.quiet rfl _ rfl (by simp [Effect.boot?]) fun slot => ?_
    rw [getElem?_insert_eq]
    split
    · next he =>
      subst he
      simp [hslot]
    · rfl
  | ignored => exact hb.quiet rfl _ rfl (by simp [Effect.boot?]) fun _ => rfl
  | tickStarted => exact hsilent rfl rfl rfl
  | nothingFinished => exact hsilent rfl rfl rfl
  | @ready env slot rest managed boot hphase hslot hlife =>
    have haddr := hk slot managed hslot
    obtain ⟨calls, hlog, _, hcalls⟩ := State.deliverHeld_log
      (s.takeOver slot managed boot env.readyLap) managed.config.backend boot
      (env.order.list managed.held) env.forward
    rw [haddr] at hcalls
    refine hb.move hslot (by rw [hlife]; rfl) (State.deliverHeld_boots ..)
      (State.deliverHeld_backends ..) (hlog.trans (List.append_assoc _ _ _)) ?_ fun hl => ?_
    · intro effect hm
      rcases List.mem_append.mp hm with hm | hm
      · rw [List.mem_singleton.mp hm]
        rfl
      · obtain ⟨call, hc, rfl⟩ := List.mem_map.mp hm
        simp [Effect.boot?, (hcalls call hc).1]
    · rw [haddr]
      exact ⟨.running, hl.tookOver hcalls, Or.inl rfl⟩
  | @bootFailed env slot rest managed boot result hphase hslot hlife hresult =>
    refine hb.move hslot (by rw [hlife]; exact Lifecycle.stage_finished hresult) rfl rfl rfl
      (by simp [Effect.boot?]) fun hl => ?_
    rw [hk slot managed hslot]
    exact ⟨.gone, hl.bootFailed, Or.inr ⟨rfl, rfl⟩⟩
  | notRunning => exact hsilent rfl rfl rfl
  | @exited env slot rest managed boot hphase hslot hlife hexit =>
    refine hb.move hslot (by rw [hlife]; rfl) rfl rfl rfl (by simp [Effect.boot?]) fun hl => ?_
    rw [hk slot managed hslot]
    exact ⟨.gone, hl.exited, Or.inr ⟨rfl, rfl⟩⟩
  | checkFailed hphase hslot hlife =>
    exact hb.checked hk hslot hlife (insert_same _ hslot).symm rfl rfl rfl (by simp)
  | busy hphase hslot hlife => exact hb.checked hk hslot hlife rfl rfl rfl rfl (by simp)
  | idling hphase hslot hlife => exact hb.checked hk hslot hlife rfl rfl rfl rfl (by simp)
  | @idleStopped env slot rest managed boot hphase hslot hlife hexit hcount hidle =>
    refine hb.move hslot (by rw [hlife]; rfl) rfl rfl rfl (by simp [Effect.boot?]) fun hl => ?_
    rw [hk slot managed hslot]
    exact ⟨.gone, hl.idleStopped _ _, Or.inr ⟨rfl, rfl⟩⟩
  | shutDown => exact hsilent rfl rfl rfl
  | nothingToDrain => exact hsilent rfl rfl rfl
  | @drained stopOk slot rest managed boot hphase hslot hlife =>
    rcases hlife with hlife | hlife
    · refine hb.move hslot (by rw [hlife]; rfl) rfl rfl rfl (by simp [Effect.boot?]) fun hl => ?_
      exact ⟨.gone, hl.drained (Or.inl rfl) stopOk, Or.inr ⟨rfl, rfl⟩⟩
    · refine hb.move hslot (by rw [hlife]; rfl) rfl rfl rfl (by simp [Effect.boot?]) fun hl => ?_
      exact ⟨.gone, hl.drained (Or.inr rfl) stopOk, Or.inr ⟨rfl, rfl⟩⟩
  | @drainedFailed stopOk slot rest managed boot result hphase hslot hlife hresult =>
    refine hb.move hslot (by rw [hlife]; exact Lifecycle.stage_finished hresult) rfl rfl
      (List.append_nil _).symm (by simp) fun hl => ?_
    rw [List.append_nil]
    exact ⟨.gone, hl.drainedFailed, Or.inr ⟨rfl, rfl⟩⟩
  | @gaveUp slot rest managed boot task hphase hslot hlife htask =>
    rcases htask with rfl | rfl
    · refine hb.move hslot (by rw [hlife]; rfl) rfl rfl rfl (by simp [Effect.boot?]) fun hl => ?_
      exact ⟨.gone, hl.gaveUp (Or.inl rfl), Or.inr ⟨rfl, rfl⟩⟩
    · refine hb.move hslot (by rw [hlife]; rfl) rfl rfl rfl (by simp [Effect.boot?]) fun hl => ?_
      exact ⟨.gone, hl.gaveUp (Or.inr rfl), Or.inr ⟨rfl, rfl⟩⟩
  | @started slot managed boot hslot hlife =>
    refine hb.move hslot (by rw [hlife]; rfl) rfl rfl rfl (by simp [Effect.boot?]) fun hl => ?_
    exact ⟨.waiting, hl.started, Or.inl rfl⟩
  | @becameReady slot managed boot hslot hlife =>
    refine hb.move hslot (by rw [hlife]; rfl) rfl rfl (List.append_nil _).symm (by simp)
      fun hl => ?_
    rw [List.append_nil]
    exact ⟨.ready, hl.becameReady, Or.inl rfl⟩
  | @startupFailed slot managed boot task result hslot hlife htask hresult =>
    rcases htask with rfl | rfl
    · refine hb.move hslot (by rw [hlife]; rfl) rfl rfl rfl (by simp [Effect.boot?]) fun hl => ?_
      exact ⟨.failed result, hl.failedEarly hresult, Or.inl (Lifecycle.stage_finished hresult)⟩
    · refine hb.move hslot (by rw [hlife]; rfl) rfl rfl rfl (by simp [Effect.boot?]) fun hl => ?_
      exact ⟨.failed result, hl.failedLate hresult, Or.inl (Lifecycle.stage_finished hresult)⟩
  | advanced => exact hsilent rfl rfl rfl
  | path => exact hsilent rfl rfl rfl

theorem boots (p : Proxy) (now : Instant) (events : List Event) : (p.run now events).Boots := by
  refine run_induction State.Boots ?_ ?_ events
  · have hsleep : ∀ (slot : SocketAddr) (managed : ManagedBackend),
        (p.init now).backends[slot]? = some managed → managed.lifecycle = .sleeping := by
      intro slot managed hm
      obtain ⟨route, _, _, rfl⟩ := slots_keyed hm
      rfl
    refine ⟨fun _ _ => rfl, ?_, ?_, ?_, fun boot hb => absurd hb (Nat.not_lt_zero _)⟩
    · intro slot managed boot stage hm hs
      rw [hsleep slot managed hm] at hs
      cases hs
    · intro slot slot' managed managed' boot stage stage' hm _ hs
      rw [hsleep slot managed hm] at hs
      cases hs
    · intro slot managed boot stage hm hs
      rw [hsleep slot managed hm] at hs
      cases hs
  · intro before e s' hb h
    exact boots_trans (keyed p now before) hb h

end Sleepytale
