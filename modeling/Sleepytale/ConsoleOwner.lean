import Sleepytale.Apart
import Sleepytale.Boots
import Sleepytale.Lib.Refinement
import Sleepytale.Validation

/-!
# One server at a time reads the console

All adapters share one `ConsoleInput`: `start` attaches the child's stdin to it
and `stop` detaches whatever is attached. `ConsoleWatch` follows the log of the
proxy and says when that is sound: the console is handed to a boot only when no
other boot has it, and a boot that stops is the one whose pipe is attached. With
an accepted configuration every run stays within it.
-/

namespace Sleepytale

open Sleepytale.Net
open Sleepytale.Lib.Maps
open Sleepytale.Lib.Refinement
open Std (ExtTreeMap)

/-- The boots that were ever given the console, and the one that has it, with
whether its pipe is attached. -/
structure ConsoleWatch where
  readers : List BootId
  holder : Option (BootId × Bool)
  deriving DecidableEq

namespace ConsoleWatch

def start : ConsoleWatch := ⟨[], none⟩

def next (m : ConsoleWatch) : Effect → Option ConsoleWatch
  | .spawned boot _ console _ _ =>
      if console then
        if m.holder = none then some ⟨boot :: m.readers, some (boot, false)⟩ else none
      else some m
  | .started boot =>
      some { m with holder := m.holder.map fun h => if h.1 = boot then (boot, true) else h }
  -- `stop` detaches the console first; that must be its own pipe.
  | .stopped boot _ =>
      if boot ∈ m.readers ∧ m.holder ≠ some (boot, true) then none else some m
  | .dropped boot => some { m with holder := m.holder.filter fun h => h.1 ≠ boot }
  | .received _ _ _ | .rejected _ _ | .forwarded _ | .consumed _ _ _ | .checked _ _ _
  | .idleStop _ _ _ | .abandoned _ => some m

theorem next_of_not_reader {m : ConsoleWatch} (hknown : ∀ h, m.holder = some h → h.1 ∈ m.readers)
    {boot : BootId} (hboot : boot ∉ m.readers) {effect : Effect}
    (heffect : effect = .started boot ∨ (∃ ok, effect = .stopped boot ok) ∨
      effect = .dropped boot) : m.next effect = some m := by
  have hne : ∀ h, m.holder = some h → h.1 ≠ boot := by
    intro h hh he
    exact hboot (he ▸ hknown h hh)
  obtain ⟨readers, holder⟩ := m
  rcases heffect with rfl | ⟨ok, rfl⟩ | rfl
  · cases holder with
    | none => rfl
    | some h => simp [next, hne h rfl]
  · rw [next, if_neg fun hin => hboot hin.1]
  · cases holder with
    | none => rfl
    | some h => simp [next, hne h rfl]

/-- Effects that say nothing of the console. -/
def Quiet : Effect → Prop
  | .spawned _ _ _ _ _ | .started _ | .stopped _ _ | .dropped _ => False
  | _ => True

theorem next_of_quiet {effect : Effect} (hq : Quiet effect) (m : ConsoleWatch) :
    m.next effect = some m := by
  cases effect with
  | spawned => cases hq
  | started => cases hq
  | stopped => cases hq
  | dropped => cases hq
  | _ => rfl

theorem watch_quiet {effects : List Effect} (h : ∀ effect ∈ effects, Quiet effect)
    (m : ConsoleWatch) : watch next m effects = some m := by
  induction effects with
  | nil => rfl
  | cons effect effects ih =>
    rw [watch, next_of_quiet (h effect List.mem_cons_self)]
    exact ih fun effect hm => h effect (List.mem_cons_of_mem _ hm)

/-- Effects that say nothing of the console, or something of this boot. -/
def Concerns (boot : BootId) (effect : Effect) : Prop :=
  Quiet effect ∨ effect = .started boot ∨ (∃ ok, effect = .stopped boot ok) ∨
    effect = .dropped boot

theorem watch_of_not_reader {m : ConsoleWatch}
    (hknown : ∀ h, m.holder = some h → h.1 ∈ m.readers) {boot : BootId}
    (hboot : boot ∉ m.readers) {effects : List Effect}
    (h : ∀ effect ∈ effects, Concerns boot effect) : watch next m effects = some m := by
  induction effects with
  | nil => rfl
  | cons effect effects ih =>
    have hfirst : m.next effect = some m := by
      rcases h effect List.mem_cons_self with hq | he
      · exact next_of_quiet hq m
      · exact next_of_not_reader hknown hboot he
    rw [watch, hfirst]
    exact ih fun effect hm => h effect (List.mem_cons_of_mem _ hm)

end ConsoleWatch

/-- What a slot's lifecycle says of the console if its server reads it: the boot
that has it, and whether `start` has attached its pipe. A failed startup has
dropped its adapter. -/
def Lifecycle.console : Lifecycle → Option (BootId × Bool)
  | sleeping => none
  | waking boot .starting => some (boot, false)
  | waking boot .waiting => some (boot, true)
  | waking boot (.finished .ready) => some (boot, true)
  | waking _ (.finished _) => none
  | running boot => some (boot, true)

theorem Lifecycle.console_boot {lifecycle : Lifecycle} {h : BootId × Bool}
    (hc : lifecycle.console = some h) : lifecycle.boot? = some h.1 := by
  cases lifecycle with
  | sleeping => cases hc
  | running boot => cases hc; rfl
  | waking boot task =>
    cases task with
    | starting => cases hc; rfl
    | waiting => cases hc; rfl
    | finished result => cases result <;> cases hc; rfl

theorem Lifecycle.console_finished {boot : BootId} {result : StartupResult}
    (h : result ≠ .ready) : (Lifecycle.waking boot (.finished result)).console = none := by
  cases result with
  | ready => exact (h rfl).elim
  | failed => rfl
  | panicked => rfl

/-- At most one slot's server reads the console. -/
def State.OneReader (s : State) : Prop :=
  ∀ (slot slot' : SocketAddr) (managed managed' : ManagedBackend),
    s.backends[slot]? = some managed → s.backends[slot']? = some managed' →
    managed.config.server.forwardStdin = true → managed'.config.server.forwardStdin = true →
    slot = slot'

def State.BootsBelow (s : State) : Prop :=
  ∀ (slot : SocketAddr) (managed : ManagedBackend) (boot : BootId),
    s.backends[slot]? = some managed → managed.lifecycle.boot? = some boot → boot < s.boots

theorem State.Boots.below {s : State} (h : s.Boots) : s.BootsBelow := by
  intro slot managed boot hm hb
  cases hlife : managed.lifecycle with
  | sleeping =>
    rw [hlife] at hb
    cases hb
  | running boot' =>
    rw [hlife] at hb
    obtain rfl := Option.some.inj hb
    exact h.bound slot managed boot' .running hm (by rw [hlife]; rfl)
  | waking boot' task =>
    rw [hlife] at hb
    obtain rfl := Option.some.inj hb
    obtain ⟨stage, hstage⟩ := Lifecycle.exists_stage_waking boot' task
    exact h.bound slot managed boot' stage hm (by rw [hlife, hstage])

/-- The monitor and the slots agree on who has the console. After the loop an
abandoned startup may keep it. -/
structure State.ConsoleHeld (s : State) (m : ConsoleWatch) : Prop where
  held : ∀ (slot : SocketAddr) (managed : ManagedBackend) (h : BootId × Bool),
    s.backends[slot]? = some managed → managed.config.server.forwardStdin = true →
    managed.lifecycle.console = some h → m.holder = some h
  holder : s.phase.InLoop → ∀ h : BootId × Bool, m.holder = some h →
    ∃ (slot : SocketAddr) (managed : ManagedBackend), s.backends[slot]? = some managed ∧
      managed.config.server.forwardStdin = true ∧ managed.lifecycle.console = some h
  reader_lt : ∀ boot ∈ m.readers, boot < s.boots
  reader : ∀ boot ∈ m.readers, ∀ (slot : SocketAddr) (managed : ManagedBackend),
    s.backends[slot]? = some managed → managed.lifecycle.boot? = some boot →
    managed.config.server.forwardStdin = true
  known : ∀ h : BootId × Bool, m.holder = some h → h.1 ∈ m.readers

/-- The monitor accepts what the step adds to the log, and stays right. -/
def State.ConsoleStep (s s' : State) (m : ConsoleWatch) : Prop :=
  ∃ (effects : List Effect) (m' : ConsoleWatch), s'.log = s.log ++ effects ∧
    watch ConsoleWatch.next m effects = some m' ∧ s'.ConsoleHeld m'

namespace State.ConsoleHeld

variable {s s' : State} {m : ConsoleWatch}

theorem quiet (h : s.ConsoleHeld m) (effects : List Effect) (hlog : s'.log = s.log ++ effects)
    (hquiet : ∀ effect ∈ effects, ConsoleWatch.Quiet effect) (hboots : s'.boots = s.boots)
    (hloop : s'.phase.InLoop → s.phase.InLoop)
    (hslots : ∀ slot : SocketAddr, s'.backends[slot]?.map (fun managed =>
      (managed.config, managed.lifecycle)) = s.backends[slot]?.map (fun managed =>
      (managed.config, managed.lifecycle))) : s.ConsoleStep s' m := by
  have hback : ∀ (slot : SocketAddr) (managed : ManagedBackend), s'.backends[slot]? = some managed →
      ∃ managed' : ManagedBackend, s.backends[slot]? = some managed' ∧
        managed'.config = managed.config ∧ managed'.lifecycle = managed.lifecycle := by
    intro slot managed hm
    have hs := hslots slot
    rw [hm, Option.map_some] at hs
    obtain ⟨managed', hm', he⟩ := Option.map_eq_some_iff.mp hs.symm
    exact ⟨managed', hm', (Prod.mk.inj he).1, (Prod.mk.inj he).2⟩
  refine ⟨effects, m, hlog, ConsoleWatch.watch_quiet hquiet m, ?_, ?_, ?_, ?_, h.known⟩
  · intro slot managed x hm hf hx
    obtain ⟨managed', hm', hc, hl⟩ := hback slot managed hm
    exact h.held slot managed' x hm' (by rw [hc]; exact hf) (by rw [hl]; exact hx)
  · intro hp x hx
    obtain ⟨slot, managed, hm, hf, hc⟩ := h.holder (hloop hp) x hx
    have hs := hslots slot
    rw [hm, Option.map_some] at hs
    obtain ⟨managed', hm', he⟩ := Option.map_eq_some_iff.mp hs
    obtain ⟨hconfig, hlife⟩ := Prod.mk.inj he
    exact ⟨slot, managed', hm', by rw [hconfig]; exact hf, by rw [hlife]; exact hc⟩
  · intro boot hboot
    rw [hboots]
    exact h.reader_lt boot hboot
  · intro boot hboot slot managed hm hb
    obtain ⟨managed', hm', hc, hl⟩ := hback slot managed hm
    rw [← hc]
    exact h.reader boot hboot slot managed' hm' (by rw [hl]; exact hb)

/-- One slot moves on with its boot, or lets go of it. The monitor, if the slot's
server reads the console, has to move with it. -/
theorem move (h : s.ConsoleHeld m) (hone : s.OneReader) {slot : SocketAddr}
    {managed managed' : ManagedBackend} {boot : BootId} {effects : List Effect}
    (hslot : s.backends[slot]? = some managed) (hboot : managed.lifecycle.boot? = some boot)
    (hlog : s'.log = s.log ++ effects)
    (hb : s'.backends = s.backends.insert slot managed') (hconfig : managed'.config = managed.config)
    (hboots : s'.boots = s.boots) (hloop : s'.phase.InLoop → s.phase.InLoop)
    (hsame : managed'.lifecycle.boot? = some boot ∨ managed'.lifecycle.boot? = none)
    (hown : ∀ effect ∈ effects, ConsoleWatch.Concerns boot effect)
    (hwatch : managed.config.server.forwardStdin = true →
      ∃ holder, watch ConsoleWatch.next m effects = some { m with holder := holder } ∧
        (∀ x, managed'.lifecycle.console = some x → holder = some x) ∧
        (∀ x, holder = some x → (s'.phase.InLoop → managed'.lifecycle.console = some x) ∧
          ∃ y, m.holder = some y ∧ y.1 = x.1)) : s.ConsoleStep s' m := by
  have hget : ∀ (slot₂ : SocketAddr) (m₂ : ManagedBackend), s'.backends[slot₂]? = some m₂ →
      slot₂ = slot ∧ m₂ = managed' ∨ slot₂ ≠ slot ∧ s.backends[slot₂]? = some m₂ := by
    intro slot₂ m₂ hm
    rw [hb] at hm
    exact getElem?_insert_cases hm
  have hreader : ∀ b ∈ m.readers, ∀ (slot₂ : SocketAddr) (m₂ : ManagedBackend),
      s'.backends[slot₂]? = some m₂ → m₂.lifecycle.boot? = some b →
      m₂.config.server.forwardStdin = true := by
    intro b hbm slot₂ m₂ hm hb₂
    rcases hget slot₂ m₂ hm with ⟨rfl, rfl⟩ | ⟨_, hm⟩
    · rw [hconfig]
      refine h.reader b hbm slot₂ managed hslot ?_
      rcases hsame with he | he
      · rw [hboot, ← he, hb₂]
      · rw [he] at hb₂
        cases hb₂
    · exact h.reader b hbm slot₂ m₂ hm hb₂
  have hlt : ∀ b ∈ m.readers, b < s'.boots := by
    rw [hboots]
    exact h.reader_lt
  cases hf : managed.config.server.forwardStdin with
  | false =>
    have hnot : boot ∉ m.readers := by
      intro hm
      rw [h.reader boot hm slot managed hslot hboot] at hf
      cases hf
    refine ⟨effects, m, hlog, ConsoleWatch.watch_of_not_reader h.known hnot hown, ?_, ?_, hlt,
      hreader, h.known⟩
    · intro slot₂ m₂ x hm hf₂ hx
      rcases hget slot₂ m₂ hm with ⟨rfl, rfl⟩ | ⟨_, hm⟩
      · rw [hconfig, hf] at hf₂
        cases hf₂
      · exact h.held slot₂ m₂ x hm hf₂ hx
    · intro hp x hx
      obtain ⟨slot₂, m₂, hm, hf₂, hc⟩ := h.holder (hloop hp) x hx
      have hne : slot ≠ slot₂ := by
        rintro rfl
        rw [hslot, Option.some.injEq] at hm
        rw [← hm, hf] at hf₂
        cases hf₂
      exact ⟨slot₂, m₂, by rw [hb, getElem?_insert_eq, if_neg hne]; exact hm, hf₂, hc⟩
  | true =>
    obtain ⟨holder, hw, hheld, hback⟩ := hwatch hf
    refine ⟨effects, _, hlog, hw, ?_, ?_, hlt, hreader, ?_⟩
    · intro slot₂ m₂ x hm hf₂ hx
      rcases hget slot₂ m₂ hm with ⟨rfl, rfl⟩ | ⟨hne, hm⟩
      · exact hheld x hx
      · exact (hne (hone slot₂ slot m₂ managed hm hslot hf₂ hf)).elim
    · intro hp x hx
      refine ⟨slot, managed', by rw [hb, getElem?_insert_eq, if_pos rfl], ?_, (hback x hx).1 hp⟩
      rw [hconfig]
      exact hf
    · intro x hx
      obtain ⟨y, hy, he⟩ := (hback x hx).2
      rw [← he]
      exact h.known y hy

/-- A sleeping slot spawns the next boot, with the console if its server reads it. -/
theorem spawn (h : s.ConsoleHeld m) (hone : s.OneReader) (hfresh : s.BootsBelow)
    (hp : s.phase.InLoop)
    {slot client : SocketAddr} {datagram : Datagram} {managed managed' : ManagedBackend}
    (hslot : s.backends[slot]? = some managed) (hlife : managed.lifecycle = .sleeping)
    (hb : s'.backends = s.backends.insert slot managed') (hconfig : managed'.config = managed.config)
    (hlife' : managed'.lifecycle = .waking s.boots .starting) (hboots : s'.boots = s.boots + 1)
    {console : Bool} (hconsole : console = managed.config.server.forwardStdin)
    (hlog : s'.log = s.log ++ [.received client datagram slot,
      .spawned s.boots managed.config console client datagram]) : s.ConsoleStep s' m := by
  have hget : ∀ (slot₂ : SocketAddr) (m₂ : ManagedBackend), s'.backends[slot₂]? = some m₂ →
      slot₂ = slot ∧ m₂ = managed' ∨ slot₂ ≠ slot ∧ s.backends[slot₂]? = some m₂ := by
    intro slot₂ m₂ hm
    rw [hb] at hm
    exact getElem?_insert_cases hm
  have hin : s'.backends[slot]? = some managed' := by rw [hb, getElem?_insert_eq, if_pos rfl]
  have hnew : managed'.lifecycle.console = some (s.boots, false) := by rw [hlife']; rfl
  cases hf : managed.config.server.forwardStdin with
  | false =>
    refine ⟨_, m, hlog, by rw [hconsole, hf]; rfl, ?_, ?_, ?_, ?_, h.known⟩
    · intro slot₂ m₂ x hm hf₂ hx
      rcases hget slot₂ m₂ hm with ⟨rfl, rfl⟩ | ⟨_, hm⟩
      · rw [hconfig, hf] at hf₂
        cases hf₂
      · exact h.held slot₂ m₂ x hm hf₂ hx
    · intro _ x hx
      obtain ⟨slot₂, m₂, hm, hf₂, hc⟩ := h.holder hp x hx
      have hne : slot ≠ slot₂ := by
        rintro rfl
        rw [hslot, Option.some.injEq] at hm
        rw [← hm, hf] at hf₂
        cases hf₂
      exact ⟨slot₂, m₂, by rw [hb, getElem?_insert_eq, if_neg hne]; exact hm, hf₂, hc⟩
    · intro boot hboot
      rw [hboots]
      exact Nat.lt_succ_of_lt (h.reader_lt boot hboot)
    · intro boot hboot slot₂ m₂ hm hb₂
      rcases hget slot₂ m₂ hm with ⟨rfl, rfl⟩ | ⟨_, hm⟩
      · rw [hlife'] at hb₂
        obtain rfl := Option.some.inj hb₂
        exact absurd (h.reader_lt _ hboot) (Nat.lt_irrefl _)
      · exact h.reader boot hboot slot₂ m₂ hm hb₂
  | true =>
    have hfree : m.holder = none := by
      cases hx : m.holder with
      | none => rfl
      | some x =>
        obtain ⟨slot₂, m₂, hm, hf₂, hc⟩ := h.holder hp x hx
        obtain rfl := hone slot slot₂ managed m₂ hslot hm hf hf₂
        rw [hslot, Option.some.injEq] at hm
        rw [← hm, hlife] at hc
        cases hc
    refine ⟨_, ⟨s.boots :: m.readers, some (s.boots, false)⟩, hlog, ?_, ?_, ?_, ?_, ?_, ?_⟩
    · simp [watch, ConsoleWatch.next, hconsole, hf, hfree]
    · intro slot₂ m₂ x hm hf₂ hx
      rcases hget slot₂ m₂ hm with ⟨rfl, rfl⟩ | ⟨hne, hm⟩
      · rw [← hx, hnew]
      · exact (hne (hone slot₂ slot m₂ managed hm hslot hf₂ hf)).elim
    · intro _ x hx
      refine ⟨slot, managed', hin, by rw [hconfig]; exact hf, ?_⟩
      rw [hnew]
      exact hx
    · intro boot hboot
      rw [hboots]
      rcases List.mem_cons.mp hboot with rfl | hboot
      · exact Nat.lt_succ_self _
      · exact Nat.lt_succ_of_lt (h.reader_lt boot hboot)
    · intro boot hboot slot₂ m₂ hm hb₂
      rcases hget slot₂ m₂ hm with ⟨rfl, rfl⟩ | ⟨hne, hm⟩
      · rw [hconfig]
        exact hf
      · rcases List.mem_cons.mp hboot with rfl | hboot
        · exact absurd (hfresh slot₂ m₂ _ hm hb₂) (Nat.lt_irrefl _)
        · exact h.reader boot hboot slot₂ m₂ hm hb₂
    · intro x hx
      obtain rfl := Option.some.inj hx
      exact List.mem_cons_self

/-- The slot whose startup failed, or whose loop was left, lets go of a console it
has no hold on. -/
theorem let_go (h : s.ConsoleHeld m) (hone : s.OneReader) {slot : SocketAddr}
    {managed managed' : ManagedBackend} {boot : BootId} (effects : List Effect)
    (hslot : s.backends[slot]? = some managed) (hboot : managed.lifecycle.boot? = some boot)
    (hlog : s'.log = s.log ++ effects)
    (hnone : s'.phase.InLoop → managed.lifecycle.console = none)
    (hb : s'.backends = s.backends.insert slot managed') (hconfig : managed'.config = managed.config)
    (hlife' : managed'.lifecycle = .sleeping) (hboots : s'.boots = s.boots)
    (hloop : s'.phase.InLoop → s.phase.InLoop)
    (hquiet : ∀ effect ∈ effects, ConsoleWatch.Quiet effect) : s.ConsoleStep s' m := by
  refine h.move hone hslot hboot hlog hb hconfig hboots hloop (Or.inr (by rw [hlife']; rfl))
    (fun effect hm => Or.inl (hquiet effect hm)) fun hf => ?_
  refine ⟨m.holder, ConsoleWatch.watch_quiet hquiet m, by simp [hlife', Lifecycle.console],
    fun x hx => ⟨fun hp => ?_, x, hx, rfl⟩⟩
  obtain ⟨slot₂, m₂, hm, hf₂, hc⟩ := h.holder (hloop hp) x hx
  obtain rfl := hone slot slot₂ managed m₂ hslot hm hf hf₂
  rw [hslot, Option.some.injEq] at hm
  rw [← hm, hnone hp] at hc
  cases hc

/-- A slot gives its adapter up: whatever it does before, the console is free
when the adapter has been dropped. -/
theorem drop (h : s.ConsoleHeld m) (hone : s.OneReader) {slot : SocketAddr}
    {managed managed' : ManagedBackend} {x : BootId × Bool} {effects : List Effect}
    (hslot : s.backends[slot]? = some managed) (hx : managed.lifecycle.console = some x)
    (hlog : s'.log = s.log ++ effects) (hb : s'.backends = s.backends.insert slot managed') (hconfig : managed'.config = managed.config)
    (hsame : managed'.lifecycle.boot? = some x.1 ∨ managed'.lifecycle.boot? = none)
    (hnone : managed'.lifecycle.console = none) (hboots : s'.boots = s.boots)
    (hloop : s'.phase.InLoop → s.phase.InLoop)
    (hown : ∀ effect ∈ effects, ConsoleWatch.Concerns x.1 effect)
    (hwatch : m.holder = some x →
      watch ConsoleWatch.next m effects = some { m with holder := none }) :
    s.ConsoleStep s' m := by
  refine h.move hone hslot (Lifecycle.console_boot hx) hlog hb hconfig hboots hloop hsame hown
    fun hf => ⟨none, hwatch (h.held slot managed x hslot hf hx), ?_, by simp⟩
  intro y hy
  rw [hnone] at hy
  cases hy

theorem keep (h : s.ConsoleHeld m) (hone : s.OneReader) {slot : SocketAddr}
    {managed managed' : ManagedBackend} (x y : BootId × Bool) (effects : List Effect)
    (hslot : s.backends[slot]? = some managed) (hx : managed.lifecycle.console = some x)
    (hlog : s'.log = s.log ++ effects) (hb : s'.backends = s.backends.insert slot managed') (hconfig : managed'.config = managed.config)
    (hy : managed'.lifecycle.console = some y) (hboot : y.1 = x.1)
    (hboots : s'.boots = s.boots) (hloop : s'.phase.InLoop → s.phase.InLoop)
    (hown : ∀ effect ∈ effects, ConsoleWatch.Concerns x.1 effect)
    (hwatch : m.holder = some x →
      watch ConsoleWatch.next m effects = some { m with holder := some y }) :
    s.ConsoleStep s' m := by
  refine h.move hone hslot (Lifecycle.console_boot hx) hlog hb hconfig hboots hloop
    (Or.inl (by rw [Lifecycle.console_boot hy, hboot])) hown fun hf => ?_
  have hheld := h.held slot managed x hslot hf hx
  refine ⟨some y, hwatch hheld, fun z hz => ?_, fun z hz => ⟨fun _ => ?_, x, hheld, ?_⟩⟩
  · rw [← hy, hz]
  · rw [hy, hz]
  · obtain rfl := Option.some.inj hz
    exact hboot.symm

end State.ConsoleHeld

theorem Trans.consoleStep {p : Proxy} {s s' : State} {e : Event} {m : ConsoleWatch}
    (hone : s.OneReader) (hfresh : s.BootsBelow)
    (hflag : ∀ (slot : SocketAddr) (managed : ManagedBackend), s.backends[slot]? = some managed →
      (managed.config.server.forwardStdin && p.console) = managed.config.server.forwardStdin)
    (h : s.ConsoleHeld m) (ht : Trans p s e s') : s.ConsoleStep s' m := by
  have hinsert : ∀ {slot : SocketAddr} {managed managed' : ManagedBackend},
      s.backends[slot]? = some managed → managed'.config = managed.config →
      managed'.lifecycle = managed.lifecycle → ∀ slot₂ : SocketAddr,
      (s.backends.insert slot managed')[slot₂]?.map (fun managed =>
        (managed.config, managed.lifecycle)) = s.backends[slot₂]?.map (fun managed =>
        (managed.config, managed.lifecycle)) := by
    intro slot managed managed' hslot hconfig hlife slot₂
    rw [getElem?_insert_eq]
    by_cases he : slot = slot₂
    · subst he
      simp [hslot, hconfig, hlife]
    · rw [if_neg he]
  have hsilent : s'.log = s.log → s'.boots = s.boots → (s'.phase.InLoop → s.phase.InLoop) →
      s'.backends = s.backends → s.ConsoleStep s' m := by
    intro hlog hboots hloop hb
    exact h.quiet [] (by simp [hlog]) (by simp) hboots hloop fun _ => by rw [hb]
  cases ht with
  | stay => exact hsilent rfl rfl id rfl
  | rejected => exact h.quiet _ rfl (by simp [ConsoleWatch.Quiet]) rfl id fun _ => rfl
  | relayed =>
    exact h.quiet _ (List.append_assoc _ _ _) (by simp [ConsoleWatch.Quiet]) rfl id fun _ => rfl
  | woke hphase hslot hlife hinitial =>
    exact h.spawn hone hfresh (by simp [hphase, Phase.InLoop]) hslot hlife rfl (by simp) (by simp)
      rfl (hflag _ _ hslot) rfl
  | heldBack hphase hslot hlife =>
    exact h.quiet _ rfl (by simp [ConsoleWatch.Quiet]) rfl id (hinsert hslot (by simp) (by simp))
  | ignored => exact h.quiet _ rfl (by simp [ConsoleWatch.Quiet]) rfl id fun _ => rfl
  | tickStarted hphase => exact hsilent rfl rfl (fun _ => by simp [hphase, Phase.InLoop]) rfl
  | nothingFinished hphase => exact hsilent rfl rfl (fun _ => by simp [hphase, Phase.InLoop]) rfl
  | @ready env slot rest managed boot hphase hslot hlife =>
    obtain ⟨calls, hlog, _, _⟩ := State.deliverHeld_log
      (s.takeOver slot managed boot env.readyLap) managed.config.backend boot
      (env.order.list managed.held) env.forward
    have hq : ∀ effect ∈ [Effect.consumed boot managed.config.backend .ready] ++
        calls.map .forwarded, ConsoleWatch.Quiet effect := by
      intro effect hm
      rcases List.mem_append.mp hm with hm | hm
      · rw [List.mem_singleton.mp hm]
        trivial
      · obtain ⟨call, _, rfl⟩ := List.mem_map.mp hm
        trivial
    exact h.keep hone (boot, true) (boot, true) _ hslot (by rw [hlife]; rfl)
      (hlog.trans (List.append_assoc _ _ _)) (State.deliverHeld_backends ..) rfl rfl rfl
      (State.deliverHeld_boots ..) (fun _ => by simp [hphase, Phase.InLoop])
      (fun effect hm => Or.inl (hq effect hm))
      (fun hheld => by rw [ConsoleWatch.watch_quiet hq m, ← hheld])
  | bootFailed hphase hslot hlife hresult =>
    exact h.let_go hone _ hslot (by rw [hlife]; rfl) rfl
      (fun _ => by rw [hlife]; exact Lifecycle.console_finished hresult) rfl rfl rfl rfl
      (fun _ => by simp [hphase, Phase.InLoop]) (by simp [ConsoleWatch.Quiet])
  | notRunning hphase => exact hsilent rfl rfl (fun _ => by simp [hphase, Phase.InLoop]) rfl
  | @exited env slot rest managed boot hphase hslot hlife hexit =>
    exact h.drop (x := (boot, true)) hone hslot (by rw [hlife]; rfl) rfl rfl rfl (Or.inr rfl) rfl rfl
      (fun _ => by simp [hphase, Phase.InLoop])
      (by simp [ConsoleWatch.Concerns, ConsoleWatch.Quiet])
      (fun hheld => by simp [watch, ConsoleWatch.next, hheld])
  | checkFailed hphase =>
    exact h.quiet _ rfl (by simp [ConsoleWatch.Quiet]) rfl
      (fun _ => by simp [hphase, Phase.InLoop]) fun _ => rfl
  | busy hphase hslot hlife =>
    exact h.quiet _ rfl (by simp [ConsoleWatch.Quiet]) rfl
      (fun _ => by simp [hphase, Phase.InLoop]) (hinsert hslot rfl rfl)
  | idling hphase hslot hlife =>
    exact h.quiet _ rfl (by simp [ConsoleWatch.Quiet]) rfl
      (fun _ => by simp [hphase, Phase.InLoop]) (hinsert hslot rfl rfl)
  | @idleStopped env slot rest managed boot hphase hslot hlife hexit hcount hidle =>
    exact h.drop (x := (boot, true)) hone hslot (by rw [hlife]; rfl) rfl rfl rfl (Or.inr rfl) rfl rfl
      (fun _ => by simp [hphase, Phase.InLoop])
      (by simp [ConsoleWatch.Concerns, ConsoleWatch.Quiet])
      (fun hheld => by simp [watch, ConsoleWatch.next, hheld])
  | shutDown => exact hsilent rfl rfl (fun hp => (Phase.drain_not_inLoop _ hp).elim) rfl
  | nothingToDrain => exact hsilent rfl rfl (fun hp => (Phase.drain_not_inLoop _ hp).elim) rfl
  | @drained stopOk slot rest managed boot hphase hslot hlife =>
    have hconsole : managed.lifecycle.console = some (boot, true) := by
      rcases hlife with hl | hl <;> rw [hl] <;> rfl
    exact h.drop (x := (boot, true)) hone hslot hconsole rfl rfl rfl (Or.inr rfl) rfl rfl
      (fun hp => (Phase.drain_not_inLoop _ hp).elim)
      (by simp [ConsoleWatch.Concerns, ConsoleWatch.Quiet])
      (fun hheld => by simp [watch, ConsoleWatch.next, hheld])
  | drainedFailed hphase hslot hlife hresult =>
    exact h.let_go hone [] hslot (by rw [hlife]; rfl) (List.append_nil _).symm
      (fun hp => (Phase.drain_not_inLoop _ hp).elim) rfl rfl rfl rfl
      (fun hp => (Phase.drain_not_inLoop _ hp).elim) (by simp)
  | gaveUp hphase hslot hlife htask =>
    exact h.let_go hone _ hslot (by rw [hlife]; rfl) rfl
      (fun hp => (Phase.drain_not_inLoop _ hp).elim) rfl rfl rfl rfl
      (fun hp => (Phase.drain_not_inLoop _ hp).elim) (by simp [ConsoleWatch.Quiet])
  | @started slot managed boot hslot hlife =>
    exact h.keep hone (boot, false) (boot, true) _ hslot (by rw [hlife]; rfl) rfl rfl
      rfl rfl rfl rfl id (by simp [ConsoleWatch.Concerns])
      (fun hheld => by simp [watch, ConsoleWatch.next, hheld])
  | @becameReady slot managed boot hslot hlife =>
    exact h.keep hone (boot, true) (boot, true) [] hslot
      (by rw [hlife]; rfl) (List.append_nil _).symm rfl rfl rfl rfl rfl id (by simp)
      (fun hheld => by rw [watch_nil, ← hheld])
  | @startupFailed slot managed boot task result hslot hlife htask hresult =>
    obtain ⟨attached, hconsole⟩ : ∃ attached,
        managed.lifecycle.console = some (boot, attached) := by
      rcases htask with rfl | rfl <;> exact ⟨_, by rw [hlife]; rfl⟩
    exact h.drop (x := (boot, attached)) hone hslot hconsole rfl rfl rfl (Or.inl rfl)
      (Lifecycle.console_finished hresult) rfl id (by simp [ConsoleWatch.Concerns])
      (fun hheld => by simp [watch, ConsoleWatch.next, hheld])
  | advanced => exact hsilent rfl rfl id rfl
  | path => exact hsilent rfl rfl id rfl

theorem slot_owner {p : Proxy} (hd : p.config.Distinct) (now : Instant) (events : List Event)
    {slot : SocketAddr} {managed : ManagedBackend}
    (h : (p.run now events).backends[slot]? = some managed) :
    managed.config.backend = slot ∧ ∃ owner, p.config.backendOf owner = some managed.config := by
  refine ⟨keyed p now events slot managed h, ?_⟩
  have hc := slot_configs p now events slot
  rw [h, Option.map_some] at hc
  obtain ⟨first, hfirst, hconfig⟩ := Option.map_eq_some_iff.mp hc.symm
  obtain ⟨route, hroute, _, rfl⟩ := slots_keyed hfirst
  rw [← hconfig]
  rcases (p.config.mem_all hd route).mp hroute with rfl | ⟨name, hname⟩
  · exact ⟨.defaultBackend, rfl⟩
  · exact ⟨.route name, hname⟩

theorem oneReader {p : Proxy} (hw : p.config.WellFormed) (hd : p.config.Distinct) (now : Instant)
    (events : List Event) : (p.run now events).OneReader := by
  intro slot slot' managed managed' hm hm' hf hf'
  obtain ⟨rfl, owner, ho⟩ := slot_owner hd now events hm
  obtain ⟨rfl, owner', ho'⟩ := slot_owner hd now events hm'
  obtain rfl := hw.console owner owner' _ _ ho ho' hf hf'
  rw [ho, Option.some.injEq] at ho'
  rw [ho']

theorem console_flag {p : Proxy} {owner : Owner} {route : BackendConfig}
    (h : p.config.backendOf owner = some route) :
    (route.server.forwardStdin && p.console) = route.server.forwardStdin := by
  cases hf : route.server.forwardStdin with
  | false => rfl
  | true =>
    have hin : route.server ∈ p.config.server :: p.config.routes.toList.map (·.2.server) := by
      cases owner with
      | defaultBackend =>
        obtain rfl := Option.some.inj h
        exact List.mem_cons_self
      | route name =>
        refine List.mem_cons_of_mem _ (List.mem_map.mpr ⟨(name, route), ?_, rfl⟩)
        exact ExtTreeMap.mem_toList_iff_getElem?_eq_some.mpr h
    rw [Bool.true_and, Proxy.console]
    exact List.any_eq_true.mpr ⟨route.server, hin, hf⟩

/-- With an accepted configuration the console has one reader at a time in every
run: it is handed to a boot only after the adapter that had it was dropped, a boot
that is stopped detaches its own pipe, and while the loop runs the holder is the
boot of the slot whose server reads the console. -/
theorem console_one_reader_at_a_time (p : Proxy) (hvalid : p.config.validate = .ok ())
    (now : Instant) (events : List Event) :
    ∃ m, watch ConsoleWatch.next ConsoleWatch.start (p.run now events).log = some m ∧
      (p.run now events).ConsoleHeld m := by
  have hd := Config.distinct_of_validate hvalid
  have hw := Config.wellFormed_of_validate hvalid
  refine run_induction (fun s => ∃ m, watch ConsoleWatch.next ConsoleWatch.start s.log = some m ∧
    s.ConsoleHeld m) ?_ ?_ events
  · refine ⟨.start, rfl, ?_, by simp [ConsoleWatch.start], by simp [ConsoleWatch.start],
      by simp [ConsoleWatch.start], by simp [ConsoleWatch.start]⟩
    intro slot managed x hm _ hx
    obtain ⟨route, _, _, rfl⟩ := slots_keyed hm
    cases hx
  · rintro before e s' ⟨m, hm, hheld⟩ h
    obtain ⟨effects, m', hlog, hwatch, hheld'⟩ := h.consoleStep (oneReader hw hd now before)
      (boots p now before).below (fun slot managed hslot => by
        obtain ⟨_, owner, ho⟩ := slot_owner hd now before hslot
        exact console_flag ho) hheld
    refine ⟨m', ?_, hheld'⟩
    rw [hlog, watch_append, hm]
    exact hwatch

/-- The default backend reads the console. It is woken, runs, and is stopped in
the shutdown loop. -/
theorem console_one_reader_shutdown :
    ∃ m, watch ConsoleWatch.next ConsoleWatch.start ((⟨.default, Sni.Rfc9001.crypto⟩ : Proxy).run 0
        (wakeRun 1 (.localhost 40000) testInitial Config.default.backend ++
          [.shutdown, .drainSlot true])).log = some m ∧
      ((⟨.default, Sni.Rfc9001.crypto⟩ : Proxy).run 0
        (wakeRun 1 (.localhost 40000) testInitial Config.default.backend ++
          [.shutdown, .drainSlot true])).ConsoleHeld m :=
  console_one_reader_at_a_time ⟨.default, Sni.Rfc9001.crypto⟩ (by decide +kernel) 0 _

end Sleepytale
