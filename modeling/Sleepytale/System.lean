import Sleepytale.Boots
import Sleepytale.Infra.Launch
import Sleepytale.Sni.Rfc9001

/-!
# The proxy and its servers as one system

The proxy's model leaves to its environment how a startup goes, whether a server
has exited and when. Here the adapters answer: every `spawned` boot has a startup
task and a server of its own, the proxy's background events are what those tasks
report, and `has_exited` asks the adapter that the slot holds. A run of the system
is a run of the proxy, so what holds of every run of the proxy holds here, and
more: a server that gets traffic was launched for that address and has booted.
-/

namespace Sleepytale

open Sleepytale.Net
open Sleepytale.Lib.Maps
open Sleepytale.Lib.Machine
open Sleepytale.Infra (bootMarker)
open Sleepytale.Infra.Launch
open Std (ExtTreeMap)

/-- The proxy's state and its boots, each at the place of its number. -/
structure System where
  proxy : State
  boots : List Boot

/-- What the second half of a tick's work on a slot leaves to the outside: whether
`try_wait` fails, how `stop` ends, and the time that passes. -/
structure CheckAnswers where
  tryWaitFails : Bool
  stopOk : Bool
  emptyLap : Duration
  elapsedLap : Duration

inductive SystemEvent where
  | datagram (client : SocketAddr) (datagram : Datagram) (env : Relay.ForwardEnv)
  | tickStart
  | finishSlot (env : FinishEnv)
  | checkSlot (answers : CheckAnswers)
  | shutdown
  | drainSlot (stopOk : Bool)
  | giveUp
  | advance (lap : Duration)
  | path (act : PathAct)
  | boot (boot : BootId) (act : BootAct)

/-- The proxy with what the platform adds: how addresses are shown, and the last
instant of the clock. -/
structure Platform where
  proxy : Proxy
  display : SocketAddr → String
  clockMax : Instant

namespace Platform

variable (m : Platform)

/-- What an effect of the proxy does to its boots: a new one begins, or `stop` takes
the child of one. -/
def absorb (boots : List Boot) : Effect → List Boot
  | .spawned _ config console _ _ => boots ++ [Boot.new m.display m.proxy.config config console]
  | .stopped boot _ => boots.modify boot fun b => { b with adapter := b.adapter.stop }
  | _ => boots

/-- The proxy handles an event, and its new effects reach the boots. -/
def handle (sys : System) (e : Event) : System :=
  let proxy := m.proxy.step sys.proxy e
  ⟨proxy, (proxy.log.drop sys.proxy.log.length).foldl m.absorb sys.boots⟩

/-- What `has_exited` answers for the backend of a running slot. -/
def exitCheck (sys : System) (slot : SocketAddr) (fails : Bool) : ExitCheck :=
  match sys.proxy.backends[slot]?.map (·.lifecycle) with
  | some (Lifecycle.running boot) =>
      (sys.boots[boot]?.map (·.adapter.exitCheck fails)).getD .error
  | _ => .alive

/-- The slot that waits for a boot, if the proxy has not given it up. -/
def waitsFor (sys : System) (slot : SocketAddr) (boot : BootId) : Bool :=
  match sys.proxy.backends[slot]?.map (·.lifecycle) with
  | some (Lifecycle.waking boot' _) => boot' = boot
  | _ => false

def eventOf (slot : SocketAddr) : Report → Event
  | .started => .started slot
  | .done result => .startupDone slot result

def stepBoot (sys : System) (boot : BootId) (act : BootAct) : System :=
  match sys.boots[boot]? with
  | none => sys
  | some b =>
      let (b', report) := b.step sys.proxy.now m.clockMax act
      let slot := b.backend.backend
      let sys := { sys with boots := sys.boots.set boot b' }
      match report with
      | none => sys
      | some report => if waitsFor sys slot boot then m.handle sys (eventOf slot report) else sys

def step (sys : System) : SystemEvent → System
  | .datagram client datagram env => m.handle sys (.datagram client datagram env)
  | .tickStart => m.handle sys .tickStart
  | .finishSlot env => m.handle sys (.finishSlot env)
  | .checkSlot answers =>
      match sys.proxy.phase with
      | .checking slot _ =>
          m.handle sys (.checkSlot ⟨exitCheck sys slot answers.tryWaitFails, answers.stopOk,
            answers.emptyLap, answers.elapsedLap⟩)
      | _ => sys
  | .shutdown => m.handle sys .shutdown
  | .drainSlot stopOk => m.handle sys (.drainSlot stopOk)
  | .giveUp => m.handle sys .giveUp
  | .advance lap => m.handle sys (.advance lap)
  | .path act => m.handle sys (.path act)
  | .boot boot act => m.stepBoot sys boot act

def init (now : Instant) : System := ⟨m.proxy.init now, []⟩

def run (now : Instant) (events : List SystemEvent) : System :=
  Lib.Machine.run m.step (m.init now) events

end Platform

/-- A startup task that ends without a ready adapter has dropped it. -/
theorem step_startupDone_failed {p : Proxy} {s : State} {slot : SocketAddr}
    {managed : ManagedBackend} {boot : BootId} {task : Startup} {result : StartupResult}
    (hslot : s.backends[slot]? = some managed) (hlife : managed.lifecycle = .waking boot task)
    (htask : task = .starting ∨ task = .waiting) (hr : result ≠ .ready) :
    p.step s (.startupDone slot result) = (s.setSlot slot
      { managed with lifecycle := .waking boot (.finished result) }).emit (.dropped boot) := by
  rcases htask with rfl | rfl <;> cases result with
  | ready => exact (hr rfl).elim
  | failed => simp [Proxy.step, State.startupDone, hslot, hlife]
  | panicked => simp [Proxy.step, State.startupDone, hslot, hlife]

/-- The boot of a slot is the one its lifecycle names: made for the slot's backend,
at the stage the proxy believes it to be, and launched unless it still starts or
has failed. -/
def ManagedBackend.Follows (managed : ManagedBackend) (boots : List Boot) : Prop :=
  match managed.lifecycle with
  | .sleeping => True
  | .waking boot task => ∃ b : Boot, boots[boot]? = some b ∧ b.backend = managed.config ∧
      b.task = task ∧ (task = .waiting ∨ task = .finished .ready → b.Launched)
  | .running boot => ∃ b : Boot, boots[boot]? = some b ∧ b.backend = managed.config ∧
      b.task = .finished .ready ∧ b.Launched

namespace ManagedBackend

variable {managed managed' : ManagedBackend} {boots boots' : List Boot}

theorem follows_of_sleeping (h : managed.lifecycle = .sleeping) : managed.Follows boots := by
  rw [Follows, h]
  trivial

theorem follows_waking {boot : BootId} {task : Startup}
    (h : managed.lifecycle = .waking boot task) :
    managed.Follows boots ↔ ∃ b : Boot, boots[boot]? = some b ∧ b.backend = managed.config ∧
      b.task = task ∧ (task = .waiting ∨ task = .finished .ready → b.Launched) := by
  rw [Follows, h]

theorem follows_running {boot : BootId} (h : managed.lifecycle = .running boot) :
    managed.Follows boots ↔ ∃ b : Boot, boots[boot]? = some b ∧ b.backend = managed.config ∧
      b.task = .finished .ready ∧ b.Launched := by
  rw [Follows, h]

theorem Follows.congr (h : managed.Follows boots) (hl : managed'.lifecycle = managed.lifecycle)
    (hc : managed'.config = managed.config) : managed'.Follows boots := by
  rw [Follows, hl, hc]
  exact h

/-- What matters is the entry of the slot's own boot. -/
theorem Follows.of_boots (h : managed.Follows boots)
    (hsame : ∀ (boot : BootId) (stage : Stage), managed.lifecycle.stage = some (boot, stage) →
      ∀ b : Boot, boots[boot]? = some b → b.backend = managed.config →
        ∃ b' : Boot, boots'[boot]? = some b' ∧ b'.backend = b.backend ∧ b'.task = b.task ∧
          (b.Launched → b'.Launched)) : managed.Follows boots' := by
  cases hl : managed.lifecycle with
  | sleeping => exact follows_of_sleeping hl
  | waking boot task =>
    obtain ⟨stage, hstage⟩ := Lifecycle.exists_stage_waking boot task
    obtain ⟨b, hb, hconfig, htask, hlaunched⟩ := (follows_waking hl).mp h
    obtain ⟨b', hb', hbackend, htask', hkept⟩ := hsame boot stage (by rw [hl]; exact hstage) b hb hconfig
    refine (follows_waking hl).mpr ⟨b', hb', hbackend.trans hconfig, htask'.trans htask, ?_⟩
    exact fun hw => hkept (hlaunched hw)
  | running boot =>
    obtain ⟨b, hb, hconfig, htask, hlaunched⟩ := (follows_running hl).mp h
    obtain ⟨b', hb', hbackend, htask', hkept⟩ := hsame boot .running (by rw [hl]; rfl) b hb hconfig
    exact (follows_running hl).mpr
      ⟨b', hb', hbackend.trans hconfig, htask'.trans htask, hkept hlaunched⟩

end ManagedBackend

/-- An effect that neither begins nor stops a boot. -/
def Effect.LeavesBoots : Effect → Prop
  | spawned _ _ _ _ _ => False
  | stopped _ _ => False
  | _ => True

namespace Platform

variable {m : Platform} {sys : System} {s' : State} {effects : List Effect}

theorem absorb_leaves (h : ∀ effect ∈ effects, effect.LeavesBoots) (boots : List Boot) :
    effects.foldl m.absorb boots = boots := by
  induction effects with
  | nil => rfl
  | cons effect effects ih =>
    have hhead : m.absorb boots effect = boots := by
      have hl := h effect List.mem_cons_self
      cases effect with
      | spawned => exact hl.elim
      | stopped => exact hl.elim
      | _ => rfl
    rw [List.foldl_cons, hhead]
    exact ih fun e hm => h e (List.mem_cons_of_mem _ hm)

theorem handle_proxy (m : Platform) (sys : System) (e : Event) :
    (m.handle sys e).proxy = m.proxy.step sys.proxy e := rfl

theorem handle_eq {e : Event} (hs : m.proxy.step sys.proxy e = s')
    (hlog : s'.log = sys.proxy.log ++ effects) :
    m.handle sys e = ⟨s', effects.foldl m.absorb sys.boots⟩ := by
  rw [handle, hs, hlog, List.drop_left]

/-- How the boots and the slots of a system fit together. -/
structure Tied (m : Platform) (sys : System) : Prop where
  count : sys.boots.length = sys.proxy.boots
  ok : ∀ (boot : BootId) (b : Boot), sys.boots[boot]? = some b →
    b.Ok m.display m.proxy.config m.clockMax sys.proxy.now
  slots : ∀ (slot : SocketAddr) (managed : ManagedBackend),
    sys.proxy.backends[slot]? = some managed → managed.Follows sys.boots

/-- Transitions that concern no boot but for the time they take. -/
theorem Tied.leaves (h : m.Tied sys) (hnow : sys.proxy.now ≤ s'.now)
    (hboots : s'.boots = sys.proxy.boots)
    (hslots : ∀ (slot : SocketAddr) (managed : ManagedBackend), s'.backends[slot]? = some managed →
      managed.Follows sys.boots) : m.Tied ⟨s', sys.boots⟩ where
  count := by rw [h.count, hboots]
  ok := fun boot b hb => (h.ok boot b hb).later hnow
  slots := hslots

theorem Tied.same (h : m.Tied sys) (hnow : sys.proxy.now ≤ s'.now)
    (hboots : s'.boots = sys.proxy.boots) (hb : s'.backends = sys.proxy.backends) :
    m.Tied ⟨s', sys.boots⟩ := by
  refine h.leaves hnow hboots fun slot managed hslot => ?_
  rw [hb] at hslot
  exact h.slots slot managed hslot

theorem Tied.insert (h : m.Tied sys) {changed : SocketAddr} {old new : ManagedBackend}
    (hnow : sys.proxy.now ≤ s'.now) (hboots : s'.boots = sys.proxy.boots)
    (hold : sys.proxy.backends[changed]? = some old)
    (hb : s'.backends = sys.proxy.backends.insert changed new)
    (hnew : old.Follows sys.boots → new.Follows sys.boots) : m.Tied ⟨s', sys.boots⟩ := by
  refine h.leaves hnow hboots fun slot managed hslot => ?_
  rw [hb] at hslot
  rcases getElem?_insert_cases hslot with ⟨_, rfl⟩ | ⟨_, hslot⟩
  · exact hnew (h.slots changed old hold)
  · exact h.slots slot managed hslot

theorem Tied.spawn (h : m.Tied sys) {changed : SocketAddr} {new : ManagedBackend}
    {config : BackendConfig} {console : Bool} (hnow : sys.proxy.now ≤ s'.now)
    (hboots : s'.boots = sys.proxy.boots + 1)
    (hb : s'.backends = sys.proxy.backends.insert changed new) (hconfig : new.config = config)
    (hlife : new.lifecycle = .waking sys.proxy.boots .starting) :
    m.Tied ⟨s', sys.boots ++ [Boot.new m.display m.proxy.config config console]⟩ where
  count := by
    rw [List.length_append, h.count, hboots]
    rfl
  ok := by
    intro boot b hget
    rcases Lib.Lists.getElem?_concat_some hget with hget | ⟨_, rfl⟩
    · exact (h.ok boot b hget).later hnow
    · exact Boot.ok_new config console
  slots := by
    intro slot managed hslot
    rw [hb] at hslot
    rcases getElem?_insert_cases hslot with ⟨_, rfl⟩ | ⟨_, hslot⟩
    · rw [ManagedBackend.follows_waking hlife]
      refine ⟨Boot.new m.display m.proxy.config config console, ?_, hconfig.symm, rfl, ?_⟩
      · rw [← h.count]
        exact List.getElem?_concat_length
      · rintro (hw | hw) <;> cases hw
    · refine (h.slots slot managed hslot).of_boots fun boot stage _ b hget _ => ?_
      exact ⟨b, Lib.Lists.getElem?_append_of_some hget _, rfl, rfl, id⟩

theorem Tied.stop (h : m.Tied sys) (hd : sys.proxy.Boots) {changed : SocketAddr}
    {old new : ManagedBackend} {boot : BootId} {stage : Stage} (hnow : sys.proxy.now ≤ s'.now)
    (hboots : s'.boots = sys.proxy.boots) (hold : sys.proxy.backends[changed]? = some old)
    (hstage : old.lifecycle.stage = some (boot, stage))
    (hready : ∀ b : Boot, sys.boots[boot]? = some b → b.task = .finished .ready)
    (hb : s'.backends = sys.proxy.backends.insert changed new)
    (hnew : new.lifecycle = .sleeping) :
    m.Tied ⟨s', sys.boots.modify boot fun b => { b with adapter := b.adapter.stop }⟩ where
  count := by rw [List.length_modify, h.count, hboots]
  ok := by
    intro id b hget
    rw [List.getElem?_modify] at hget
    obtain ⟨b₀, hb₀, rfl⟩ := Option.map_eq_some_iff.mp hget
    have hok := (h.ok id b₀ hb₀).later hnow
    split
    · next he =>
      subst he
      exact hok.stop (hready b₀ hb₀)
    · exact hok
  slots := by
    intro slot managed hslot
    rw [hb] at hslot
    rcases getElem?_insert_cases hslot with ⟨_, rfl⟩ | ⟨hne, hslot⟩
    · exact ManagedBackend.follows_of_sleeping hnew
    · refine (h.slots slot managed hslot).of_boots fun other stage' hstage' b hget _ => ?_
      have hother : boot ≠ other := by
        rintro rfl
        exact hne (hd.distinct slot changed managed old boot stage' stage hslot hold hstage' hstage)
      refine ⟨b, ?_, rfl, rfl, id⟩
      rw [List.getElem?_modify, hget]
      simp [hother]

/-- The events of the proxy that come from a startup task. -/
def FromTask : Event → Prop
  | .started _ => True
  | .startupDone _ _ => True
  | _ => False

/-- Every other event of the proxy keeps boots and slots tied. -/
theorem Tied.handle (h : m.Tied sys) (hd : sys.proxy.Boots) {e : Event} (he : ¬ FromTask e) :
    m.Tied (m.handle sys e) := by
  have hleaves : ∀ {s' : State} {effects : List Effect}, m.proxy.step sys.proxy e = s' →
      s'.log = sys.proxy.log ++ effects → (∀ effect ∈ effects, effect.LeavesBoots) →
      m.Tied ⟨s', sys.boots⟩ → m.Tied (m.handle sys e) := by
    intro s' effects hs hlog hl ht
    rw [handle_eq hs hlog, absorb_leaves hl]
    exact ht
  have hnow := (step_trans m.proxy sys.proxy e).now_le
  have htrans := step_trans m.proxy sys.proxy e
  generalize hs : m.proxy.step sys.proxy e = s' at htrans hnow
  cases htrans with
  | stay => exact hleaves hs (List.append_nil _).symm (List.forall_mem_nil _) h
  | rejected => exact hleaves hs rfl (by simp [Effect.LeavesBoots]) (h.same hnow rfl rfl)
  | relayed =>
    exact hleaves hs (List.append_assoc _ _ _) (by simp [Effect.LeavesBoots]) (h.same hnow rfl rfl)
  | @woke client datagram env managed hphase hslot hlife hinitial =>
    rw [handle_eq hs rfl]
    exact h.spawn hnow rfl rfl (ManagedBackend.hold_config _ _ _)
      (ManagedBackend.hold_lifecycle _ _ _)
  | heldBack hphase hslot =>
    refine hleaves hs rfl (by simp [Effect.LeavesBoots]) (h.insert hnow rfl hslot rfl ?_)
    exact fun hf => hf.congr (ManagedBackend.hold_lifecycle _ _ _) (ManagedBackend.hold_config _ _ _)
  | ignored => exact hleaves hs rfl (by simp [Effect.LeavesBoots]) (h.same hnow rfl rfl)
  | tickStarted =>
    exact hleaves hs (List.append_nil _).symm (List.forall_mem_nil _) (h.same hnow rfl rfl)
  | nothingFinished =>
    exact hleaves hs (List.append_nil _).symm (List.forall_mem_nil _) (h.same hnow rfl rfl)
  | @ready env slot rest managed boot hphase hslot hlife =>
    obtain ⟨calls, hlog, _, _⟩ := State.deliverHeld_log
      (sys.proxy.takeOver slot managed boot env.readyLap) managed.config.backend boot
      (env.order.list managed.held) env.forward
    refine hleaves hs (hlog.trans (List.append_assoc _ _ _)) (by simp [Effect.LeavesBoots]) ?_
    refine h.insert hnow (State.deliverHeld_boots ..) hslot (State.deliverHeld_backends ..) ?_
    intro hf
    obtain ⟨b, hget, hconfig, htask, hlaunched⟩ := (ManagedBackend.follows_waking hlife).mp hf
    exact ⟨b, hget, hconfig, htask, hlaunched (Or.inr rfl)⟩
  | bootFailed hphase hslot =>
    exact hleaves hs rfl (by simp [Effect.LeavesBoots]) (h.insert hnow rfl hslot rfl fun _ =>
      ManagedBackend.follows_of_sleeping rfl)
  | notRunning =>
    exact hleaves hs (List.append_nil _).symm (List.forall_mem_nil _) (h.same hnow rfl rfl)
  | exited hphase hslot =>
    exact hleaves hs rfl (by simp [Effect.LeavesBoots]) (h.insert hnow rfl hslot rfl fun _ =>
      ManagedBackend.follows_of_sleeping rfl)
  | checkFailed => exact hleaves hs rfl (by simp [Effect.LeavesBoots]) (h.same hnow rfl rfl)
  | busy hphase hslot =>
    exact hleaves hs rfl (by simp [Effect.LeavesBoots]) (h.insert hnow rfl hslot rfl fun hf =>
      hf.congr rfl rfl)
  | idling hphase hslot =>
    exact hleaves hs rfl (by simp [Effect.LeavesBoots]) (h.insert hnow rfl hslot rfl fun hf =>
      hf.congr rfl rfl)
  | @idleStopped env slot rest managed boot hphase hslot hlife =>
    rw [handle_eq hs rfl]
    refine h.stop hd hnow rfl hslot (by rw [hlife]; rfl) ?_ rfl rfl
    intro b hget
    obtain ⟨b', hget', _, htask, _⟩ := (ManagedBackend.follows_running hlife).mp (h.slots slot managed hslot)
    rw [hget, Option.some.injEq] at hget'
    rw [hget', htask]
  | shutDown =>
    exact hleaves hs (List.append_nil _).symm (List.forall_mem_nil _) (h.same hnow rfl rfl)
  | nothingToDrain =>
    exact hleaves hs (List.append_nil _).symm (List.forall_mem_nil _) (h.same hnow rfl rfl)
  | @drained stopOk slot rest managed boot hphase hslot hlife =>
    rw [handle_eq hs rfl]
    have hfollows := h.slots slot managed hslot
    rcases hlife with hlife | hlife
    · refine h.stop hd hnow rfl hslot (by rw [hlife]; rfl) ?_ rfl rfl
      intro b hget
      obtain ⟨b', hget', _, htask, _⟩ := (ManagedBackend.follows_running hlife).mp hfollows
      rw [hget, Option.some.injEq] at hget'
      rw [hget', htask]
    · refine h.stop hd hnow rfl hslot (by rw [hlife]; rfl) ?_ rfl rfl
      intro b hget
      obtain ⟨b', hget', _, htask, _⟩ := (ManagedBackend.follows_waking hlife).mp hfollows
      rw [hget, Option.some.injEq] at hget'
      rw [hget', htask]
  | drainedFailed hphase hslot =>
    exact hleaves hs (List.append_nil _).symm (List.forall_mem_nil _)
      (h.insert hnow rfl hslot rfl fun _ => ManagedBackend.follows_of_sleeping rfl)
  | gaveUp hphase hslot =>
    exact hleaves hs rfl (by simp [Effect.LeavesBoots]) (h.insert hnow rfl hslot rfl fun _ =>
      ManagedBackend.follows_of_sleeping rfl)
  | started => exact (he trivial).elim
  | becameReady => exact (he trivial).elim
  | startupFailed => exact (he trivial).elim
  | advanced =>
    exact hleaves hs (List.append_nil _).symm (List.forall_mem_nil _) (h.same hnow rfl rfl)
  | path =>
    exact hleaves hs (List.append_nil _).symm (List.forall_mem_nil _) (h.same hnow rfl rfl)

theorem Tied.moved (h : m.Tied sys) {boot : BootId} {b' : Boot} (hnow : s'.now = sys.proxy.now)
    (hboots : s'.boots = sys.proxy.boots)
    (hok : b'.Ok m.display m.proxy.config m.clockMax sys.proxy.now)
    (hslots : ∀ (slot : SocketAddr) (managed : ManagedBackend), s'.backends[slot]? = some managed →
      managed.Follows (sys.boots.set boot b')) : m.Tied ⟨s', sys.boots.set boot b'⟩ where
  count := by rw [List.length_set, h.count, hboots]
  ok := by
    intro id b hget
    rw [hnow]
    rw [List.getElem?_set] at hget
    split at hget
    · split at hget
      · obtain rfl := Option.some.inj hget
        exact hok
      · cases hget
    · exact h.ok id b hget
  slots := hslots

theorem follows_set_other {managed : ManagedBackend} {boots : List Boot} {boot : BootId} {b' : Boot}
    (h : managed.Follows boots)
    (hother : ∀ stage, managed.lifecycle.stage ≠ some (boot, stage)) :
    managed.Follows (boots.set boot b') := by
  refine h.of_boots fun other stage hstage b hget _ => ⟨b, ?_, rfl, rfl, id⟩
  have hne : boot ≠ other := by
    rintro rfl
    exact hother stage hstage
  rw [List.getElem?_set_ne hne, hget]

theorem Tied.waits (h : m.Tied sys) {slot : SocketAddr} {boot : BootId} {b : Boot}
    (hget : sys.boots[boot]? = some b) (hw : waitsFor sys slot boot = true) :
    ∃ managed : ManagedBackend, sys.proxy.backends[slot]? = some managed ∧
      managed.lifecycle = .waking boot b.task ∧ managed.config = b.backend := by
  unfold waitsFor at hw
  cases hslot : sys.proxy.backends[slot]? with
  | none => simp [hslot] at hw
  | some managed =>
    cases hlife : managed.lifecycle with
    | sleeping => simp [hslot, hlife] at hw
    | running boot' => simp [hslot, hlife] at hw
    | waking boot' task =>
      have hboot : boot' = boot := by simpa [hslot, hlife] using hw
      subst hboot
      obtain ⟨b', hget', hconfig, htask, _⟩ :=
        (ManagedBackend.follows_waking hlife).mp (h.slots slot managed hslot)
      rw [hget, Option.some.injEq] at hget'
      subst hget'
      exact ⟨managed, rfl, by rw [hlife, htask], hconfig.symm⟩

/-- While a boot's task is unfinished, the only slot that can be at the boot is the
one that waits for it. -/
theorem Tied.not_waited (h : m.Tied sys) (hk : sys.proxy.Keyed) {boot : BootId} {b : Boot}
    (hget : sys.boots[boot]? = some b) (htask : b.task = .starting ∨ b.task = .waiting)
    (hw : waitsFor sys b.backend.backend boot = false) {slot : SocketAddr}
    {managed : ManagedBackend} (hslot : sys.proxy.backends[slot]? = some managed) (stage : Stage) :
    managed.lifecycle.stage ≠ some (boot, stage) := by
  intro hstage
  have hfollows := h.slots slot managed hslot
  cases hlife : managed.lifecycle with
  | sleeping =>
    rw [hlife] at hstage
    cases hstage
  | running boot' =>
    rw [hlife, Lifecycle.stage, Option.some.injEq, Prod.mk.injEq] at hstage
    obtain ⟨rfl, _⟩ := hstage
    obtain ⟨b', hget', _, htask', _⟩ := (ManagedBackend.follows_running hlife).mp hfollows
    rw [hget, Option.some.injEq] at hget'
    subst hget'
    rw [htask'] at htask
    rcases htask with ht | ht <;> cases ht
  | waking boot' task =>
    obtain ⟨stage', hstage'⟩ := Lifecycle.exists_stage_waking boot' task
    rw [hlife, hstage', Option.some.injEq, Prod.mk.injEq] at hstage
    obtain ⟨rfl, _⟩ := hstage
    obtain ⟨b', hget', hconfig, _, _⟩ := (ManagedBackend.follows_waking hlife).mp hfollows
    rw [hget, Option.some.injEq] at hget'
    subst hget'
    have hself : b.backend.backend = slot := by rw [hconfig, hk slot managed hslot]
    rw [hself] at hw
    simp [waitsFor, hslot, hlife] at hw

/-- A report moves the waiting slot to the stage its boot has reached. -/
theorem Tied.report (h : m.Tied sys) (hd : sys.proxy.Boots) {boot : BootId} {b b' : Boot}
    (hget : sys.boots[boot]? = some b) {slot : SocketAddr} {managed : ManagedBackend}
    (hslot : sys.proxy.backends[slot]? = some managed)
    (hlife : managed.lifecycle = .waking boot b.task) (hconfig : managed.config = b.backend)
    (hok : b'.Ok m.display m.proxy.config m.clockMax sys.proxy.now)
    (hbackend : b'.backend = b.backend)
    (hlaunched : b'.task = .waiting ∨ b'.task = .finished .ready → b'.Launched) {e : Event}
    (effects : List Effect) (hl : ∀ effect ∈ effects, effect.LeavesBoots)
    (hstep : m.proxy.step sys.proxy e = { sys.proxy with
      backends := sys.proxy.backends.insert slot
        { managed with lifecycle := .waking boot b'.task }
      log := sys.proxy.log ++ effects }) :
    m.Tied (m.handle { sys with boots := sys.boots.set boot b' } e) := by
  have hstage : ∃ stage, managed.lifecycle.stage = some (boot, stage) := by
    rw [hlife]
    exact Lifecycle.exists_stage_waking boot b.task
  obtain ⟨stage, hstage⟩ := hstage
  have hlt : boot < sys.boots.length := (List.getElem?_eq_some_iff.mp hget).1
  have hhandle : m.handle ⟨sys.proxy, sys.boots.set boot b'⟩ e = _ := handle_eq hstep rfl
  rw [absorb_leaves hl] at hhandle
  rw [hhandle]
  refine h.moved rfl rfl hok fun other managed' hother => ?_
  rcases getElem?_insert_cases hother with ⟨_, rfl⟩ | ⟨hne, hother⟩
  · rw [ManagedBackend.follows_waking rfl]
    refine ⟨b', ?_, ?_, rfl, hlaunched⟩
    · rw [List.getElem?_set_self hlt]
    · rw [hbackend, ← hconfig]
  · refine follows_set_other (h.slots other managed' hother) fun stage' hstage' => ?_
    exact hne (hd.distinct other slot managed' managed boot stage' stage hother hslot hstage' hstage)

theorem Tied.stepBoot (h : m.Tied sys) (hk : sys.proxy.Keyed) (hd : sys.proxy.Boots)
    (boot : BootId) (act : BootAct) : m.Tied (m.stepBoot sys boot act) := by
  unfold Platform.stepBoot
  cases hget : sys.boots[boot]? with
  | none => exact h
  | some b =>
    simp only
    have hsteps := Boot.steps (h.ok boot b hget) act
    generalize b.step sys.proxy.now m.clockMax act = after at hsteps
    obtain ⟨b', report⟩ := after
    obtain ⟨hok, hbackend, hmoves⟩ := hsteps
    simp only at hok hbackend hmoves ⊢
    have hlt : boot < sys.boots.length := (List.getElem?_eq_some_iff.mp hget).1
    cases hmoves with
    | quiet htask hkept =>
      refine h.moved rfl rfl hok fun slot managed hslot => ?_
      refine (h.slots slot managed hslot).of_boots fun other stage hstage b₀ hget₀ _ => ?_
      by_cases he : boot = other
      · subst he
        rw [hget, Option.some.injEq] at hget₀
        subst hget₀
        exact ⟨b', List.getElem?_set_self hlt, hbackend, htask, hkept⟩
      · exact ⟨b₀, by rw [List.getElem?_set_ne he, hget₀], rfl, rfl, id⟩
    | started hbefore hafter hl =>
      simp only
      split
      · next hw =>
        obtain ⟨managed, hslot, hlife, hconfig⟩ := h.waits hget hw
        refine h.report hd hget hslot hlife hconfig hok hbackend (fun _ => hl) [.started boot]
          (by simp [Effect.LeavesBoots]) ?_
        rw [hbefore] at hlife
        simp [eventOf, Proxy.step, State.startReturned, State.setSlot, State.emit, hslot, hlife, hafter]
      · next hw =>
        refine h.moved rfl rfl hok fun slot managed hslot => ?_
        refine follows_set_other (h.slots slot managed hslot) ?_
        exact h.not_waited hk hget (Or.inl hbefore) (Bool.eq_false_iff.mpr hw) hslot
    | @done result hbefore hafter hready =>
      simp only
      split
      · next hw =>
        obtain ⟨managed, hslot, hlife, hconfig⟩ := h.waits hget hw
        have hlaunched : b'.task = .waiting ∨ b'.task = .finished .ready → b'.Launched := by
          rw [hafter]
          rintro (hne | he)
          · cases hne
          · exact (hready (Startup.finished.inj he)).2
        by_cases hr : result = .ready
        · obtain ⟨hwaiting, _⟩ := hready hr
          refine h.report hd hget hslot hlife hconfig hok hbackend hlaunched [] (List.forall_mem_nil _) ?_
          rw [hwaiting] at hlife
          simp [eventOf, Proxy.step, State.startupDone, State.setSlot, hslot, hlife, hafter, hr]
        · refine h.report hd hget hslot hlife hconfig hok hbackend hlaunched [.dropped boot]
            (by simp [Effect.LeavesBoots]) ?_
          rw [eventOf, step_startupDone_failed hslot hlife hbefore hr, hafter]
          rfl
      · next hw =>
        refine h.moved rfl rfl hok fun slot managed hslot => ?_
        refine follows_set_other (h.slots slot managed hslot) ?_
        exact h.not_waited hk hget hbefore (Bool.eq_false_iff.mpr hw) hslot

theorem step_proxy (sys : System) (e : SystemEvent) :
    (m.step sys e).proxy = sys.proxy ∨ ∃ e', (m.step sys e).proxy = m.proxy.step sys.proxy e' := by
  cases e with
  | checkSlot answers =>
    simp only [step]
    split
    · exact Or.inr ⟨_, handle_proxy m sys _⟩
    · exact Or.inl rfl
  | boot boot act =>
    simp only [step, stepBoot]
    split
    · exact Or.inl rfl
    · split
      · exact Or.inl rfl
      · split
        · exact Or.inr ⟨_, handle_proxy m _ _⟩
        · exact Or.inl rfl
  | _ => exact Or.inr ⟨_, handle_proxy m sys _⟩

/-- A run of the system is a run of the proxy. -/
theorem run_proxy (m : Platform) (now : Instant) (events : List SystemEvent) :
    ∃ es : List Event, (m.run now events).proxy = m.proxy.run now es := by
  refine run_invariant (fun sys : System => ∃ es : List Event, sys.proxy = m.proxy.run now es)
    ?_ ⟨[], rfl⟩ events
  rintro sys e ⟨es, hs⟩
  rcases step_proxy sys e with hsame | ⟨e', hstep⟩
  · exact ⟨es, hsame.trans hs⟩
  · refine ⟨es ++ [e'], ?_⟩
    rw [hstep, hs]
    exact (run_snoc _ _ es e').symm

theorem tied (m : Platform) (now : Instant) (events : List SystemEvent) :
    m.Tied (m.run now events) := by
  refine run_induction_on (Tied m) ?_ ?_ events
  · refine ⟨rfl, by simp [init], fun slot managed hslot => ?_⟩
    obtain ⟨route, _, _, rfl⟩ := slots_keyed hslot
    exact ManagedBackend.follows_of_sleeping rfl
  · intro before e h
    obtain ⟨es, hproxy⟩ := run_proxy m now before
    have hd : (m.run now before).proxy.Boots := hproxy ▸ Sleepytale.boots m.proxy now es
    have hk : (m.run now before).proxy.Keyed := hproxy ▸ keyed m.proxy now es
    cases e with
    | checkSlot answers =>
      simp only [step]
      split
      · exact h.handle hd id
      · exact h
    | boot boot act => exact h.stepBoot hk hd boot act
    | _ => exact h.handle hd id

/-- The command line with which a backend's server is to be launched. -/
def launchOf (m : Platform) (backend : BackendConfig) (console : Bool) : Command where
  program := backend.server.command
  args := backend.server.args ++ ["-b", m.display backend.backend]
  currentDir := backend.server.workingDir
  stdin := if console then .piped else .null
  stdout := .piped
  stderr := .piped
  killOnDrop := true
  processGroup := some 0

/-- The slot of `address` is backed by a server that was launched for this very
address and has printed its banner. -/
def BootedAt (m : Platform) (sys : System) (address : SocketAddr) : Prop :=
  ∃ (managed : ManagedBackend) (boot : BootId) (b : Boot) (child : Child) (console : Bool),
    sys.proxy.backends[address]? = some managed ∧ managed.lifecycle = .running boot ∧
    managed.config.backend = address ∧ sys.boots[boot]? = some b ∧
    b.adapter.child = some child ∧ child.command = m.launchOf managed.config console ∧
    bootMarker <:+: b.adapter.readiness.read

theorem bootedAt_of_running {now : Instant} {events : List SystemEvent} {address : SocketAddr}
    (h : (m.run now events).proxy.Running address) : m.BootedAt (m.run now events) address := by
  obtain ⟨managed, hslot, boot, hlife⟩ := h
  have ht := tied m now events
  obtain ⟨es, hproxy⟩ := run_proxy m now events
  have hk : (m.run now events).proxy.Keyed := hproxy ▸ keyed m.proxy now es
  obtain ⟨b, hget, hconfig, htask, child, hchild, hcommand⟩ :=
    (ManagedBackend.follows_running hlife).mp (ht.slots address managed hslot)
  have hok := ht.ok boot b hget
  refine ⟨managed, boot, b, child, b.adapter.console, hslot, hlife, hk address managed hslot, hget,
    hchild, ?_, hok.sound.booted (hok.ready htask)⟩
  rw [hcommand, ProcessBackend.launch, launchOf, hok.built.command, hok.built.args,
    hok.built.workingDir, hconfig]
  rfl

/-- No datagram is sent to a server that has not booted: in every run of the proxy
together with its servers, whatever address a step hands a datagram to, the server
behind it was launched with that address as its bind address and has printed the
boot banner. -/
theorem traffic_meets_booted_server (m : Platform) (now : Instant) (events : List SystemEvent)
    (e : SystemEvent) (call : Forward)
    (hcall : .forwarded call ∈
      (m.run now (events ++ [e])).proxy.log.drop (m.run now events).proxy.log.length)
    (address : SocketAddr) (hdest : call.dest = some address) :
    m.BootedAt (m.run now (events ++ [e])) address := by
  apply bootedAt_of_running
  obtain ⟨es, hproxy⟩ := run_proxy m now events
  have hrun : m.run now (events ++ [e]) = m.step (m.run now events) e := run_snoc _ _ events e
  rw [hrun] at hcall ⊢
  rcases step_proxy (m.run now events) e with hsame | ⟨e', hstep⟩
  · rw [hsame, List.drop_length] at hcall
    cases hcall
  · rw [hstep, hproxy] at hcall ⊢
    exact (step_trans m.proxy _ e').forwards_running (keyed m.proxy now es)
      (sessionsRun m.proxy now es) call hcall address hdest

/-- A server of the default configuration prints its banner and gets the knock. -/
def bannerRun : List SystemEvent :=
  [.datagram (.localhost 40000) testInitial ⟨0, true, true⟩,
    .boot 0 (.start true), .boot 0 (.ready (.firstCheck true)), .boot 0 (.ready .register),
    .boot 0 (.ready (.read ⟨bootMarker, by decide, by decide⟩)), .boot 0 (.ready .scan),
    .boot 0 (.ready .secondCheck), .boot 0 (.ready .swap), .boot 0 (.ready .notifyWaiters),
    .boot 0 (.ready .wake), .tickStart]

def testPlatform : Platform := ⟨⟨.default, Sni.Rfc9001.crypto⟩, fun _ => "127.0.0.1:5521", 1000000⟩

theorem traffic_meets_booted_server_bannerRun :
    testPlatform.BootedAt (testPlatform.run 0
      (bannerRun ++ [.finishSlot ⟨.byKey, fun _ => ⟨0, true, true⟩, 0⟩])) Config.default.backend :=
  traffic_meets_booted_server testPlatform 0 bannerRun
    (.finishSlot ⟨.byKey, fun _ => ⟨0, true, true⟩, 0⟩)
    ⟨.held Config.default.backend 0, .localhost 40000, Config.default.backend, testInitial, 0,
      some 0, some Config.default.backend, true⟩ (by decide +kernel) Config.default.backend rfl

/-- `stop` is called for the backend of a slot that runs, or whose startup is ready. -/
theorem stopped_trans {p : Proxy} {s : State} {e : Event} {boot : BootId} {ok : Bool}
    (h : Trans p s e s') (hm : .stopped boot ok ∈ s'.log.drop s.log.length) :
    ∃ (slot : SocketAddr) (managed : ManagedBackend), s.backends[slot]? = some managed ∧
      (managed.lifecycle = .running boot ∨
        managed.lifecycle = .waking boot (.finished .ready)) := by
  have hnew : ∀ effects : List Effect, s'.log = s.log ++ effects →
      .stopped boot ok ∈ effects := by
    intro effects hlog
    rw [hlog, List.drop_left] at hm
    exact hm
  cases h with
  | @idleStopped env slot rest managed b hphase hslot hlife =>
    have hb := hnew _ rfl
    simp only [List.mem_cons, reduceCtorEq, false_or, List.not_mem_nil, or_false,
      Effect.stopped.injEq] at hb
    rw [hb.1]
    exact ⟨slot, managed, hslot, Or.inl hlife⟩
  | @drained stopOk slot rest managed b hphase hslot hlife =>
    have hb := hnew _ rfl
    simp only [List.mem_cons, reduceCtorEq, List.not_mem_nil, or_false,
      Effect.stopped.injEq] at hb
    rw [hb.1]
    exact ⟨slot, managed, hslot, hlife⟩
  | relayed => simpa using hnew _ (List.append_assoc _ _ _)
  | @ready env slot rest managed b =>
    obtain ⟨calls, hlog, _, _⟩ := State.deliverHeld_log (s.takeOver slot managed b env.readyLap)
      managed.config.backend b (env.order.list managed.held) env.forward
    simpa using hnew _ (hlog.trans (List.append_assoc _ _ _))
  | stay | tickStarted | nothingFinished | notRunning | shutDown | nothingToDrain | drainedFailed
    | becameReady | advanced | path => simpa using hnew _ (List.append_nil _).symm
  | _ => simpa using hnew _ rfl

/-- What the proxy calls `stop` on is a backend as `start` made it: its child has not
been taken and leads a process group of its own, and the grace period is the one of
the configuration. -/
theorem stop_meets_started_backend (m : Platform) (now : Instant) (events : List SystemEvent)
    (e : SystemEvent) (boot : BootId) (ok : Bool)
    (hstop : .stopped boot ok ∈
      (m.run now (events ++ [e])).proxy.log.drop (m.run now events).proxy.log.length) :
    ∃ (b : Boot) (child : Child), (m.run now events).boots[boot]? = some b ∧
      b.adapter.child = some child ∧ child.command.processGroup = some 0 ∧
      ∀ pid group, b.adapter.stopping pid group =
        Infra.ProcessBackend.start m.proxy.config.shutdownGrace pid group := by
  have hrun : m.run now (events ++ [e]) = m.step (m.run now events) e := run_snoc _ _ events e
  rw [hrun] at hstop
  rcases step_proxy (m.run now events) e with hsame | ⟨e', hstep⟩
  · rw [hsame, List.drop_length] at hstop
    cases hstop
  · rw [hstep] at hstop
    obtain ⟨slot, managed, hslot, hlife⟩ := stopped_trans (step_trans m.proxy _ e') hstop
    have ht := tied m now events
    have hlaunched : ∃ b : Boot, (m.run now events).boots[boot]? = some b ∧ b.Launched := by
      rcases hlife with hlife | hlife
      · obtain ⟨b, hget, _, _, hl⟩ :=
          (ManagedBackend.follows_running hlife).mp (ht.slots slot managed hslot)
        exact ⟨b, hget, hl⟩
      · obtain ⟨b, hget, _, _, hl⟩ :=
          (ManagedBackend.follows_waking hlife).mp (ht.slots slot managed hslot)
        exact ⟨b, hget, hl (Or.inr rfl)⟩
    obtain ⟨b, hget, child, hchild, hcommand⟩ := hlaunched
    refine ⟨b, child, hget, hchild, by rw [hcommand]; rfl, fun pid group => ?_⟩
    rw [ProcessBackend.stopping_of_child hchild, (ht.ok boot b hget).built.shutdownGrace]

/-- In every run of the system, a startup task that failed did so because its
command could not be spawned, its server exited, waiting on it failed, or the whole
`boot_timeout` had passed since the spawn; one that panicked had a deadline past the
end of the clock. The adapter's other errors never occur, neither there nor in the
exit checks of running servers. -/
theorem startup_failures_explained (m : Platform) (now : Instant) (events : List SystemEvent) :
    (∀ (boot : BootId) (b : Boot), (m.run now events).boots[boot]? = some b →
      (b.task = .finished .failed → ∃ error, b.error = some error ∧
        b.Blames m.proxy.config (m.run now events).proxy.now error) ∧
      (b.task = .finished .panicked → ∃ t, b.adapter.startedAt = some t ∧
        m.clockMax < t + m.proxy.config.bootTimeout)) ∧
    ∀ (slot : SocketAddr) (managed : ManagedBackend) (boot : BootId),
      (m.run now events).proxy.backends[slot]? = some managed →
      managed.lifecycle = .running boot →
      ∃ b : Boot, (m.run now events).boots[boot]? = some b ∧
        ∀ fails, b.adapter.hasExited fails ≠ .error .notStarted := by
  have ht := tied m now events
  refine ⟨fun boot b hget => ⟨(ht.ok boot b hget).failed, (ht.ok boot b hget).panicked⟩, ?_⟩
  intro slot managed boot hslot hlife
  obtain ⟨b, hget, _, _, child, hchild, _⟩ :=
    (ManagedBackend.follows_running hlife).mp (ht.slots slot managed hslot)
  refine ⟨b, hget, fun fails => ?_⟩
  rw [ProcessBackend.hasExited, hchild]
  cases fails <;> simp

/-- A server that never prints its banner, at the moment its boot is given up. -/
def silentRun : List SystemEvent :=
  [.datagram (.localhost 40000) testInitial ⟨0, true, true⟩, .advance 7,
    .boot 0 (.start true), .boot 0 (.ready (.firstCheck true)), .boot 0 (.ready .register),
    .boot 0 (.ready .secondCheck), .advance 299, .boot 0 (.ready .deadline), .advance 1,
    .boot 0 (.ready .deadline)]

theorem startup_failures_explained_silentRun :
    ∃ b : Boot, (testPlatform.run 0 silentRun).boots[0]? = some b ∧
      b.error = some (.noBanner 300) ∧
      b.Blames testPlatform.proxy.config (testPlatform.run 0 silentRun).proxy.now (.noBanner 300) := by
  have hfound : ((testPlatform.run 0 silentRun).boots[0]?.map fun b => (b.task, b.error)) =
      some (.finished .failed, some (.noBanner 300)) := by decide +kernel
  obtain ⟨b, hget, heq⟩ := Option.map_eq_some_iff.mp hfound
  obtain ⟨htask, herror⟩ := Prod.mk.inj heq
  obtain ⟨error, he, hblames⟩ :=
    ((startup_failures_explained testPlatform 0 silentRun).1 0 b hget).1 htask
  rw [herror, Option.some.injEq] at he
  exact ⟨b, hget, herror, he ▸ hblames⟩

/-- What the proxy does with a boot leaves its task alone. -/
structure Kept (b b' : Boot) : Prop where
  task : b'.task = b.task
  deadline : b'.deadline = b.deadline
  readiness : b'.adapter.readiness = b.adapter.readiness

theorem absorb_kept (effects : List Effect) {boots : List Boot} {boot : BootId} {b : Boot}
    (hget : boots[boot]? = some b) :
    ∃ b', (effects.foldl m.absorb boots)[boot]? = some b' ∧ Kept b b' := by
  induction effects generalizing boots b with
  | nil => exact ⟨b, hget, rfl, rfl, rfl⟩
  | cons effect effects ih =>
    have hone : ∃ b', (m.absorb boots effect)[boot]? = some b' ∧ Kept b b' := by
      cases effect with
      | spawned => exact ⟨b, Lib.Lists.getElem?_append_of_some hget _, rfl, rfl, rfl⟩
      | stopped stopped ok =>
        refine ⟨if stopped = boot then { b with adapter := b.adapter.stop } else b, ?_, ?_⟩
        · rw [absorb, List.getElem?_modify, hget]
          rfl
        · split <;> exact ⟨rfl, rfl, rfl⟩
      | _ => exact ⟨b, hget, rfl, rfl, rfl⟩
    obtain ⟨b₁, hget₁, hk₁⟩ := hone
    obtain ⟨b₂, hget₂, hk₂⟩ := ih hget₁
    exact ⟨b₂, hget₂, hk₂.task.trans hk₁.task, hk₂.deadline.trans hk₁.deadline,
      hk₂.readiness.trans hk₁.readiness⟩

/-- The boot `boot` has finished, or is overdue and at the place of rank `i`. -/
def OverdueAt (boot : BootId) (i : Nat) (sys : System) : Prop :=
  ∃ b : Boot, sys.boots[boot]? = some b ∧ b.Overdue sys.proxy.now i

theorem overdueAt_handle {boot : BootId} {i : Nat} (h : OverdueAt boot i sys) (e : Event) :
    OverdueAt boot i (m.handle sys e) := by
  obtain ⟨b, hget, ho⟩ := h
  obtain ⟨b', hget', hk⟩ := absorb_kept (m := m)
    ((m.proxy.step sys.proxy e).log.drop sys.proxy.log.length) hget
  have hnow := (step_trans m.proxy sys.proxy e).now_le
  refine ⟨b', hget', ?_⟩
  rcases ho with ⟨result, ht⟩ | ⟨ht, hd, hi⟩
  · exact Or.inl ⟨result, hk.task.trans ht⟩
  · refine Or.inr ⟨hk.task.trans ht, ?_, by rw [hk.readiness]; exact hi⟩
    rw [hk.deadline]
    exact Nat.le_trans hd hnow

theorem overdueAt_other {boot : BootId} {i : Nat} (h : OverdueAt boot i sys) {other : BootId}
    (hne : other ≠ boot) (act : BootAct) : OverdueAt boot i (m.stepBoot sys other act) := by
  obtain ⟨b, hget, ho⟩ := h
  unfold stepBoot
  split
  · exact ⟨b, hget, ho⟩
  · next b₀ hget₀ =>
    have hset : OverdueAt boot i ⟨sys.proxy,
        sys.boots.set other (b₀.step sys.proxy.now m.clockMax act).1⟩ := by
      refine ⟨b, ?_, ho⟩
      rw [List.getElem?_set_ne hne, hget]
    simp only
    split
    · exact hset
    · split
      · exact overdueAt_handle hset _
      · exact hset

theorem overdueAt_self {boot : BootId} {i : Nat} {act : BootAct}
    (h : ∃ b : Boot, sys.boots[boot]? = some b ∧
      (b.step sys.proxy.now m.clockMax act).1.Overdue sys.proxy.now i) :
    OverdueAt boot i (m.stepBoot sys boot act) := by
  obtain ⟨b, hget, ho⟩ := h
  have hlt : boot < sys.boots.length := (List.getElem?_eq_some_iff.mp hget).1
  have hset : OverdueAt boot i ⟨sys.proxy,
      sys.boots.set boot (b.step sys.proxy.now m.clockMax act).1⟩ :=
    ⟨_, List.getElem?_set_self hlt, ho⟩
  simp only [stepBoot, hget]
  split
  · exact hset
  · split
    · exact overdueAt_handle hset _
    · exact hset

/-- No startup outlasts its deadline: in every run of the system, once the deadline
of a waiting startup task has passed, the task has finished after its own next four
steps, whatever else happens in between. -/
theorem overdue_startup_finishes (m : Platform) (now : Instant) (before after : List SystemEvent)
    (boot : BootId) (b : Boot) (hget : (m.run now before).boots[boot]? = some b)
    (hwaiting : b.task = .waiting) (hlate : b.deadline ≤ (m.run now before).proxy.now)
    (hsteps : (Boot.waiterActs.map (SystemEvent.boot boot)).Sublist after) :
    ∃ (b' : Boot) (result : StartupResult), (m.run now (before ++ after)).boots[boot]? = some b' ∧
      b'.task = .finished result := by
  have hreach : OverdueAt boot 4 (Lib.Machine.run m.step (m.run now before) after) := by
    have hruns : ∀ sys e, Passes m.step (m.run now before) after sys e →
        ∃ es, sys = m.run now es := by
      intro sys e hpass
      obtain ⟨es, later, _, hsys⟩ := hpass
      exact ⟨before ++ es, hsys.trans (run_append _ _ before es).symm⟩
    refine run_stages (OverdueAt boot) ?_ ?_
      ⟨b, hget, Or.inr ⟨hwaiting, hlate, Nat.zero_le _⟩⟩ hsteps
    · intro i sys e hpass ho
      obtain ⟨es, rfl⟩ := hruns sys e hpass
      have ht := tied m now es
      cases e with
      | checkSlot answers =>
        simp only [step]
        split
        · exact overdueAt_handle ho _
        · exact ho
      | boot other act =>
        by_cases he : other = boot
        · subst he
          obtain ⟨b₀, hget₀, ho₀⟩ := ho
          exact overdueAt_self ⟨b₀, hget₀, ho₀.step (ht.ok other b₀ hget₀) act⟩
        · exact overdueAt_other ho he act
      | _ => exact overdueAt_handle ho _
    · intro i sys e hpass hkey ho
      obtain ⟨es, rfl⟩ := hruns sys e hpass
      have ht := tied m now es
      rw [List.getElem?_map, Option.map_eq_some_iff] at hkey
      obtain ⟨act, hact, rfl⟩ := hkey
      obtain ⟨b₀, hget₀, ho₀⟩ := ho
      exact overdueAt_self ⟨b₀, hget₀, ho₀.next (ht.ok boot b₀ hget₀) hact⟩
  obtain ⟨b', hget', ho⟩ := hreach
  have hrun : m.run now (before ++ after) = Lib.Machine.run m.step (m.run now before) after :=
    run_append _ _ before after
  rw [← hrun] at hget' ho
  rcases ho with ⟨result, hdone⟩ | ⟨hw, _, hrank⟩
  · exact ⟨b', result, hget', hdone⟩
  · -- A call that waits has not returned, so its rank is at most 3.
    obtain ⟨_, ⟨_, hreturned⟩, _⟩ := ((tied m now (before ++ after)).ok boot b' hget').waiting hw
    cases hat : b'.adapter.readiness.waiterAt with
    | returned result => exact (hreturned result hat).elim
    | _ =>
      rw [hat] at hrank
      exact absurd hrank (by decide)

/-- The silent server again, its deadline past and its task still at its first check. -/
theorem overdue_startup_finishes_silent :
    ∃ (b' : Boot) (result : StartupResult), (testPlatform.run 0
      ([.datagram (.localhost 40000) testInitial ⟨0, true, true⟩, .boot 0 (.start true),
        .advance 300] ++ (.boot 0 .exits :: Boot.waiterActs.map (SystemEvent.boot 0)))).boots[0]? =
          some b' ∧ b'.task = .finished result := by
  have hfound : ((testPlatform.run 0 [.datagram (.localhost 40000) testInitial ⟨0, true, true⟩,
      .boot 0 (.start true), .advance 300]).boots[0]?.map fun b => (b.task, b.deadline)) =
        some (.waiting, 300) := by decide +kernel
  obtain ⟨b, hget, heq⟩ := Option.map_eq_some_iff.mp hfound
  obtain ⟨htask, hdeadline⟩ := Prod.mk.inj heq
  refine overdue_startup_finishes testPlatform 0 _ _ 0 b hget htask ?_
    (List.sublist_cons_self _ _)
  rw [hdeadline]
  decide +kernel

end Platform

end Sleepytale
