import Sleepytale.Boots
import Sleepytale.Turns

/-!
# No finished startup is forgotten

A startup task that has finished is noticed by the next tick, in the turn of its
slot. Until then nothing but more Initials come to the slot. So one tick, whatever
happens in between, consumes the result, and if the backend is ready it calls
`forward_to_backend` for every client whose Initial was held. Where the call sends
the datagram is up to the relay: a client with a session keeps its backend.
-/

namespace Sleepytale

open Sleepytale.Net
open Sleepytale.Lib.Maps
open Sleepytale.Lib.Machine
open Std (ExtTreeMap)

/-- Each call of `deliver_held` finds the sessions of its client as they were before
the first one: every client is there once. -/
theorem State.deliverHeld_destFor (s : State) (backend : SocketAddr) (boot : BootId)
    (held : List (SocketAddr × Datagram)) (env : SocketAddr → Relay.ForwardEnv)
    (hnodup : (held.map (·.1)).Nodup) :
    ∃ calls : List Forward,
      (s.deliverHeld backend boot held env).log = s.log ++ calls.map .forwarded ∧
      calls.map (fun call => (call.client, call.datagram)) = held ∧
      ∀ call ∈ calls, call.origin = .held backend boot ∧ call.backend = backend ∧
        call.dest = s.relay.destFor (env call.client) call.client backend := by
  induction held generalizing s with
  | nil => exact ⟨[], by simp [deliverHeld], rfl, by simp⟩
  | cons entry held ih =>
    rw [List.map_cons, List.nodup_cons] at hnodup
    obtain ⟨hfresh, hnodup⟩ := hnodup
    obtain ⟨calls, hlog, hmap, hcalls⟩ :=
      ih (s.forward (.held backend boot) entry.1 backend entry.2 (env entry.1)) hnodup
    have hclients : calls.map (·.client) = held.map (·.1) := by
      rw [← hmap, List.map_map]
      rfl
    refine ⟨s.forwardCall (.held backend boot) entry.1 backend entry.2 (env entry.1) :: calls,
      ?_, ?_, ?_⟩
    · rw [deliverHeld_cons, hlog, forward_log, List.append_assoc]
      rfl
    · rw [List.map_cons, hmap]
      rfl
    · intro call hm
      rcases List.mem_cons.mp hm with rfl | hm
      · exact ⟨rfl, rfl, Relay.forward_destFor ..⟩
      · obtain ⟨horigin, hbackend, hdest⟩ := hcalls call hm
        have hother : call.client ≠ entry.1 := by
          intro heq
          rw [← hclients, ← heq] at hfresh
          exact hfresh (List.mem_map_of_mem hm)
        refine ⟨horigin, hbackend, ?_⟩
        rw [hdest, Relay.destFor, Relay.destFor, Relay.sessionBackend, Relay.sessionBackend,
          forward_relay, Relay.sessions_forward_other _ _ _ _ _ _ hother]

theorem ManagedBackend.getElem?_hold {managed : ManagedBackend} {c client : SocketAddr}
    {d datagram : Datagram} (h : managed.held[c]? = some d) :
    (managed.hold client datagram).1.held[c]? = some (if client = c then datagram else d) := by
  have hm : c ∈ managed.held := by
    rw [← ExtTreeMap.isSome_getElem?_iff_mem, h]
    rfl
  unfold hold
  by_cases he : client = c
  · subst he
    rw [if_neg fun hfull => hfull.1 hm, if_pos rfl]
    exact ExtTreeMap.getElem?_insert_self
  · rw [if_neg he]
    split
    · exact h
    · rw [← h]
      exact getElem?_insert_ne _ _ he

/-- As long as the boot is waking in its slot, a datagram that fits is held for the
client. -/
structure State.Keeps (s : State) (slot : SocketAddr) (boot : BootId) (client : SocketAddr)
    (Fits : SocketAddr → Datagram → Prop) : Prop where
  born : boot < s.boots
  kept : ∀ (managed : ManagedBackend) (task : Startup), s.backends[slot]? = some managed →
    managed.lifecycle = .waking boot task →
    ∃ datagram, managed.held[client]? = some datagram ∧ Fits client datagram

theorem keeps_trans {p : Proxy} {s s' : State} {e : Event} {slot : SocketAddr} {boot : BootId}
    {client : SocketAddr} {Fits : SocketAddr → Datagram → Prop}
    (hk : s.Keeps slot boot client Fits)
    (hfits : ∀ client datagram env, e = .datagram client datagram env → Fits client datagram)
    (h : Trans p s e s') : s'.Keeps slot boot client Fits := by
  refine ⟨Nat.lt_of_lt_of_le hk.born h.boots_le, ?_⟩
  have hmoved : ∀ {changed : SocketAddr} {managed managed' : ManagedBackend},
      s.backends[changed]? = some managed → s'.backends = s.backends.insert changed managed' →
      (∀ task, managed'.lifecycle = .waking boot task →
        (∃ task', managed.lifecycle = .waking boot task') ∧ managed'.held = managed.held) →
      ∀ (m : ManagedBackend) (task : Startup), s'.backends[slot]? = some m →
        m.lifecycle = .waking boot task →
        ∃ datagram, m.held[client]? = some datagram ∧ Fits client datagram := by
    intro changed managed managed' hm hb hsame m task hslot hlife
    rw [hb] at hslot
    rcases getElem?_insert_cases hslot with ⟨rfl, rfl⟩ | ⟨_, hslot⟩
    · obtain ⟨⟨task', hlife'⟩, hheld⟩ := hsame task hlife
      rw [hheld]
      exact hk.kept managed task' hm hlife'
    · exact hk.kept m task hslot hlife
  cases h with
  | woke hphase hm hl =>
    intro m task hslot hlife
    rcases getElem?_insert_cases hslot with ⟨rfl, rfl⟩ | ⟨_, hslot⟩
    · rw [ManagedBackend.hold_lifecycle, Lifecycle.waking.injEq] at hlife
      exact absurd hlife.1 (Nat.ne_of_gt hk.born)
    · exact hk.kept m task hslot hlife
  | @heldBack sender datagram env managed b t hphase hm hl =>
    intro m task hslot hlife
    rcases getElem?_insert_cases hslot with ⟨rfl, rfl⟩ | ⟨_, hslot⟩
    · rw [ManagedBackend.hold_lifecycle] at hlife
      obtain ⟨d, hd, hfit⟩ := hk.kept managed task hm hlife
      refine ⟨_, ManagedBackend.getElem?_hold hd, ?_⟩
      split
      · next heq => exact heq ▸ hfits sender datagram env rfl
      · exact hfit
    · exact hk.kept m task hslot hlife
  | ready hphase hm =>
    intro m task hslot hlife
    rw [State.deliverHeld_backends, State.takeOver] at hslot
    rcases getElem?_insert_cases hslot with ⟨rfl, rfl⟩ | ⟨_, hslot⟩
    · cases hlife
    · exact hk.kept m task hslot hlife
  | bootFailed hphase hm => exact hmoved hm rfl fun task hlife => by cases hlife
  | exited hphase hm => exact hmoved hm rfl fun task hlife => by cases hlife
  | busy hphase hm hl => exact hmoved hm rfl fun task hlife => ⟨⟨task, hlife⟩, rfl⟩
  | idling hphase hm hl => exact hmoved hm rfl fun task hlife => ⟨⟨task, hlife⟩, rfl⟩
  | idleStopped hphase hm => exact hmoved hm rfl fun task hlife => by cases hlife
  | drained hphase hm => exact hmoved hm rfl fun task hlife => by cases hlife
  | drainedFailed hphase hm => exact hmoved hm rfl fun task hlife => by cases hlife
  | gaveUp hphase hm => exact hmoved hm rfl fun task hlife => by cases hlife
  | started hm hl =>
    refine hmoved hm rfl fun task hlife => ?_
    obtain ⟨rfl, _⟩ := Lifecycle.waking.inj hlife
    exact ⟨⟨_, hl⟩, rfl⟩
  | becameReady hm hl =>
    refine hmoved hm rfl fun task hlife => ?_
    obtain ⟨rfl, _⟩ := Lifecycle.waking.inj hlife
    exact ⟨⟨_, hl⟩, rfl⟩
  | startupFailed hm hl =>
    refine hmoved hm rfl fun task hlife => ?_
    obtain ⟨rfl, _⟩ := Lifecycle.waking.inj hlife
    exact ⟨⟨_, hl⟩, rfl⟩
  | _ => exact hk.kept

def OrSent (Fits : SocketAddr → Datagram → Prop) (events : List Event) (client : SocketAddr)
    (datagram : Datagram) : Prop :=
  Fits client datagram ∨ ∃ env, .datagram client datagram env ∈ events

theorem keeps_run {p : Proxy} {s : State} {slot : SocketAddr} {boot : BootId} {client : SocketAddr}
    {Fits : SocketAddr → Datagram → Prop} (hk : s.Keeps slot boot client Fits)
    (events : List Event) :
    (run p.step s events).Keeps slot boot client (OrSent Fits events) := by
  refine run_invariant_passes (fun t : State => t.Keeps slot boot client (OrSent Fits events)) ?_ ?_
  · intro t e hpass ht
    refine keeps_trans ht ?_ (step_trans p t e)
    intro client datagram env he
    exact Or.inr ⟨env, he ▸ hpass.mem⟩
  · refine ⟨hk.born, fun managed task hslot hlife => ?_⟩
    obtain ⟨datagram, hd, hfit⟩ := hk.kept managed task hslot hlife
    exact ⟨datagram, hd, Or.inl hfit⟩

/-- Before the slot's turn no event takes anything from a finished startup. -/
theorem finished_trans {p : Proxy} {s s' : State} {e : Event} {slot : SocketAddr}
    {managed : ManagedBackend} {boot : BootId} {result : StartupResult}
    (hslot : s.backends[slot]? = some managed)
    (hlife : managed.lifecycle = .waking boot (.finished result)) (hturn : ¬ s.Turn slot e)
    (h : Trans p s e s') :
    ¬ s'.phase.InLoop ∨ ∃ managed' : ManagedBackend, s'.backends[slot]? = some managed' ∧
      managed'.lifecycle = .waking boot (.finished result) := by
  have hstays : s'.backends[slot]? = some managed → ¬ s'.phase.InLoop ∨
      ∃ managed' : ManagedBackend, s'.backends[slot]? = some managed' ∧
        managed'.lifecycle = .waking boot (.finished result) :=
    fun hb => Or.inr ⟨managed, hb, hlife⟩
  have hother : ∀ {changed : SocketAddr} {m' : ManagedBackend}, changed ≠ slot →
      s'.backends = s.backends.insert changed m' → s'.backends[slot]? = some managed := by
    intro changed m' hne hb
    rw [hb, getElem?_insert_eq, if_neg hne]
    exact hslot
  have hlives : ∀ {changed : SocketAddr} {m : ManagedBackend}, s.backends[changed]? = some m →
      m.lifecycle ≠ managed.lifecycle → changed ≠ slot := by
    intro changed m hm hne heq
    rw [heq, hslot, Option.some.injEq] at hm
    exact hne (by rw [hm])
  cases h with
  | woke hphase hm hl => exact hstays (hother (hlives hm (by rw [hl, hlife]; simp)) rfl)
  | @heldBack client datagram env m b task hphase hm hl =>
    by_cases he : p.target s client datagram = slot
    · rw [he, hslot, Option.some.injEq] at hm
      subst hm
      refine Or.inr ⟨(managed.hold client datagram).1, ?_, ?_⟩
      · rw [he, getElem?_insert_eq, if_pos rfl]
      · rw [ManagedBackend.hold_lifecycle, hlife]
    · exact hstays (hother he rfl)
  | @ready env first rest m b hphase =>
    have hne : first ≠ slot := by
      intro heq
      rw [heq] at hphase
      exact hturn ⟨rest, env, hphase, rfl⟩
    refine hstays ?_
    rw [State.deliverHeld_backends, State.takeOver, getElem?_insert_eq, if_neg hne]
    exact hslot
  | @bootFailed env first rest m b r hphase =>
    refine hstays (hother ?_ rfl)
    intro heq
    rw [heq] at hphase
    exact hturn ⟨rest, env, hphase, rfl⟩
  | exited hphase hm hl => exact hstays (hother (hlives hm (by rw [hl, hlife]; simp)) rfl)
  | busy hphase hm hl => exact hstays (hother (hlives hm (by rw [hl, hlife]; simp)) rfl)
  | idling hphase hm hl => exact hstays (hother (hlives hm (by rw [hl, hlife]; simp)) rfl)
  | idleStopped hphase hm hl => exact hstays (hother (hlives hm (by rw [hl, hlife]; simp)) rfl)
  | drained => exact Or.inl (Phase.drain_not_inLoop _)
  | drainedFailed => exact Or.inl (Phase.drain_not_inLoop _)
  | gaveUp => exact Or.inl (Phase.drain_not_inLoop _)
  | started hm hl => exact hstays (hother (hlives hm (by rw [hl, hlife]; simp)) rfl)
  | becameReady hm hl => exact hstays (hother (hlives hm (by rw [hl, hlife]; simp)) rfl)
  | startupFailed hm hl htask =>
    refine hstays (hother (hlives hm ?_) rfl)
    rcases htask with rfl | rfl <;> rw [hl, hlife] <;> simp
  | _ => exact hstays hslot

section Turn

variable (s : State) (slot : SocketAddr) (boot : BootId) (result : StartupResult)
  (clients : List SocketAddr) (Fits : SocketAddr → Datagram → Prop)

/-- What the turn of its slot, from `s` to `s'`, makes of a finished startup. No client
has more than one call of `forward_to_backend`, and if the backend is ready each of the
given ones has its call, with a datagram that fits. -/
structure State.TakesOver (env : FinishEnv) (s' : State) (calls : List Forward) : Prop where
  log : s'.log = s.log ++ .consumed boot slot result :: calls.map .forwarded
  lifecycle : s'.backends[slot]?.map (·.lifecycle) =
    some (if result = .ready then .running boot else .sleeping)
  once : (calls.map (·.client)).Nodup
  none_failed : result ≠ .ready → calls = []
  called : result = .ready → ∀ client ∈ clients, ∃ call ∈ calls, call.client = client ∧
    Fits client call.datagram
  sent : ∀ call ∈ calls, call.origin = .held slot boot ∧ call.backend = slot ∧
    call.dest = s.relay.destFor (env.forward call.client) call.client slot

variable {s slot boot result clients Fits} {s' : State} {managed : ManagedBackend}

theorem takesOver_ready (env : FinishEnv)
    (hkey : managed.config.backend = slot)
    (hheld : ∀ client ∈ clients, ∃ datagram, managed.held[client]? = some datagram ∧
      Fits client datagram) (hlog : s'.log = ((s.takeOver slot managed boot env.readyLap).deliverHeld
        managed.config.backend boot (env.order.list managed.held) env.forward).log)
    (hbackends : s'.backends = (s.takeOver slot managed boot env.readyLap).backends) :
    ∃ calls, s.TakesOver slot boot .ready clients Fits env s' calls := by
  have hkeys : ((env.order.list managed.held).map (·.1)).Nodup := by
    rw [((env.order.perm managed.held).map _).nodup_iff, ExtTreeMap.map_fst_toList_eq_keys]
    exact ExtTreeMap.nodup_keys
  obtain ⟨calls, hcalls, hmap, hsent⟩ := State.deliverHeld_destFor
    (s.takeOver slot managed boot env.readyLap) managed.config.backend boot
    (env.order.list managed.held) env.forward hkeys
  rw [hkey] at hcalls hlog hsent
  have hclients : calls.map (·.client) = (env.order.list managed.held).map (·.1) := by
    rw [← hmap, List.map_map]
    rfl
  refine ⟨calls, ?_, ?_, ?_, fun hnot => (hnot rfl).elim, ?_, hsent⟩
  · rw [hlog, hcalls, State.takeOver, hkey, List.append_assoc]
    rfl
  · rw [hbackends, State.takeOver, ExtTreeMap.getElem?_insert_self]
    rfl
  · rw [hclients]
    exact hkeys
  · intro _ client hc
    obtain ⟨datagram, hd, hfits⟩ := hheld client hc
    have hm : (client, datagram) ∈ calls.map fun call => (call.client, call.datagram) := by
      rw [hmap, (env.order.perm managed.held).mem_iff]
      exact ExtTreeMap.mem_toList_iff_getElem?_eq_some.mpr hd
    obtain ⟨call, hcall, he⟩ := List.mem_map.mp hm
    obtain ⟨hclient, hdatagram⟩ := Prod.mk.inj he
    exact ⟨call, hcall, hclient, hdatagram ▸ hfits⟩

theorem takesOver_finish {p : Proxy} {rest : List SocketAddr} (hkey : managed.config.backend = slot)
    (hslot : s.backends[slot]? = some managed)
    (hlife : managed.lifecycle = .waking boot (.finished result))
    (hheld : ∀ client ∈ clients, ∃ datagram, managed.held[client]? = some datagram ∧
      Fits client datagram)
    (hphase : s.phase = .ticking (slot :: rest)) (env : FinishEnv) :
    ∃ calls, s.TakesOver slot boot result clients Fits env (p.step s (.finishSlot env)) calls := by
  have hphase' : (p.step s (.finishSlot env)).phase = .checking slot rest := by
    simp [Proxy.step, hphase]
  have hfirst : ∀ {first : SocketAddr} {rest' : List SocketAddr},
      s.phase = .ticking (first :: rest') → first = slot := by
    intro first rest' hf
    rw [hphase, Phase.ticking.injEq] at hf
    exact (List.cons.inj hf).1.symm
  have htrans := step_trans p s (.finishSlot env)
  generalize p.step s (.finishSlot env) = s' at htrans hphase' ⊢
  cases htrans with
  | stay =>
    rw [hphase] at hphase'
    cases hphase'
  | nothingFinished hf hnone =>
    obtain rfl := hfirst hf
    exact (hnone managed boot result hslot hlife).elim
  | ready hf hm hl =>
    obtain rfl := hfirst hf
    rw [hslot, Option.some.injEq] at hm
    subst hm
    rw [hlife, Lifecycle.waking.injEq, Startup.finished.injEq] at hl
    obtain ⟨rfl, rfl⟩ := hl
    exact takesOver_ready env hkey hheld rfl (State.deliverHeld_backends ..)
  | bootFailed hf hm hl hresult =>
    obtain rfl := hfirst hf
    rw [hslot, Option.some.injEq] at hm
    subst hm
    rw [hlife, Lifecycle.waking.injEq, Startup.finished.injEq] at hl
    obtain ⟨rfl, rfl⟩ := hl
    refine ⟨[], ?_, ?_, List.nodup_nil, fun _ => rfl, fun hready => (hresult hready).elim, ?_⟩
    · simp [hkey]
    · rw [ExtTreeMap.getElem?_insert_self, if_neg hresult]
      rfl
    · intro call hcall
      cases hcall

end Turn

theorem takesOver_run {p : Proxy} {now : Instant} {events after : List Event}
    {turns : List (FinishEnv × CheckEnv)} {slot : SocketAddr} {managed : ManagedBackend}
    {boot : BootId} {result : StartupResult} {clients : List SocketAddr}
    {Fits : SocketAddr → Datagram → Prop} (hserving : (p.run now events).phase = .serving)
    (hslot : (p.run now events).backends[slot]? = some managed)
    (hlife : managed.lifecycle = .waking boot (.finished result))
    (hkeeps : ∀ client ∈ clients, (p.run now events).Keeps slot boot client Fits)
    (hsize : (p.run now events).backends.size ≤ turns.length)
    (htick : (tickTurns turns).Sublist after)
    (hloop : (p.run now (events ++ after)).phase.InLoop) :
    ∃ (before later : List Event) (env : FinishEnv) (calls : List Forward),
      after = before ++ .finishSlot env :: later ∧
      (p.run now (events ++ before)).TakesOver slot boot result clients (OrSent Fits before) env
        (p.run now (events ++ before ++ [.finishSlot env])) calls := by
  have hmem : slot ∈ (p.run now events).backends.keys := by
    rw [ExtTreeMap.mem_keys, ← ExtTreeMap.isSome_getElem?_iff_mem, hslot]
    rfl
  rw [Proxy.run, run_append] at hloop
  obtain ⟨before, e, later, heq, ⟨rest, env, hphase, rfl⟩, hnone⟩ :=
    exists_first_turn hserving hmem hsize htick hloop
  have hsplit : p.run now (events ++ before) = run p.step (p.run now events) before :=
    run_append _ _ events before
  have hfinished : ¬ (run p.step (p.run now events) before).phase.InLoop ∨
      ∃ managed' : ManagedBackend,
        (run p.step (p.run now events) before).backends[slot]? = some managed' ∧
        managed'.lifecycle = .waking boot (.finished result) := by
    refine run_invariant_passes (fun t : State => ¬ t.phase.InLoop ∨
      ∃ managed' : ManagedBackend, t.backends[slot]? = some managed' ∧
        managed'.lifecycle = .waking boot (.finished result)) ?_ (Or.inr ⟨managed, hslot, hlife⟩)
    intro t e hpass hat
    rcases hat with hleft | ⟨m, hm, hl⟩
    · exact Or.inl fun hl => hleft ((step_trans p t e).inLoop hl)
    · exact finished_trans hm hl (hnone t e hpass) (step_trans p t e)
  rcases hfinished with hleft | ⟨managed', hslot', hlife'⟩
  · rw [hphase] at hleft
    exact absurd trivial hleft
  · have hheld : ∀ client ∈ clients, ∃ datagram, managed'.held[client]? = some datagram ∧
        OrSent Fits before client datagram :=
      fun client hc => (keeps_run (hkeeps client hc) before).kept managed' _ hslot' hlife'
    have hkey := keyed p now (events ++ before) slot managed' (by rw [hsplit]; exact hslot')
    obtain ⟨calls, hcalls⟩ := takesOver_finish (p := p) hkey hslot' hlife' hheld hphase env
    refine ⟨before, later, env, calls, heq, ?_⟩
    rw [Proxy.run, Proxy.run, run_snoc, run_append]
    exact hcalls

theorem keeps_of_held {p : Proxy} {now : Instant} {events : List Event} {slot : SocketAddr}
    {managed : ManagedBackend} {boot : BootId} {task : Startup} {client : SocketAddr}
    {datagram : Datagram} {Fits : SocketAddr → Datagram → Prop}
    (hslot : (p.run now events).backends[slot]? = some managed)
    (hlife : managed.lifecycle = .waking boot task)
    (hheld : managed.held[client]? = some datagram) (hfit : Fits client datagram) :
    (p.run now events).Keeps slot boot client Fits := by
  obtain ⟨stage, hstage⟩ := Lifecycle.exists_stage_waking boot task
  constructor
  · exact (boots p now events).bound slot managed boot stage hslot (by rw [hlife]; exact hstage)
  · intro m t hm hl
    rw [hslot, Option.some.injEq] at hm
    exact ⟨datagram, hm ▸ hheld, hfit⟩

/-- A startup task that has finished is taken over by the next tick, with a turn for
every slot and anything else in between, unless the loop is left before. Its result
is consumed then. If the backend is ready it runs, and `forward_to_backend` is called
once for every client whose Initial was held, with that Initial or one that the client
sent since; the call sends it to the backend of the session that the client has by
then, or else to this one if a socket can be bound. -/
theorem finished_startup_is_taken_over (p : Proxy) (now : Instant) (events after : List Event)
    (turns : List (FinishEnv × CheckEnv)) (slot : SocketAddr) (managed : ManagedBackend)
    (boot : BootId) (result : StartupResult) (hserving : (p.run now events).phase = .serving)
    (hslot : (p.run now events).backends[slot]? = some managed)
    (hlife : managed.lifecycle = .waking boot (.finished result))
    (hturns : (p.run now events).backends.size ≤ turns.length)
    (htick : (tickTurns turns).Sublist after)
    (hloop : (p.run now (events ++ after)).phase.InLoop) :
    ∃ (before later : List Event) (env : FinishEnv) (calls : List Forward),
      after = before ++ .finishSlot env :: later ∧
      (p.run now (events ++ before)).TakesOver slot boot result managed.held.keys
        (OrSent (fun client datagram => managed.held[client]? = some datagram) before) env
        (p.run now (events ++ before ++ [.finishSlot env])) calls := by
  refine takesOver_run hserving hslot hlife (fun client hc => ?_) hturns htick hloop
  obtain ⟨datagram, hd⟩ := Option.isSome_iff_exists.mp
    (ExtTreeMap.isSome_getElem?_iff_mem.mpr (ExtTreeMap.mem_keys.mp hc))
  exact keeps_of_held hslot hlife hd hd

/-- Another client knocks before the tick comes. -/
theorem finished_startup_taken_over_ready :
    ∃ (before later : List Event) (env : FinishEnv) (call : Forward),
      [.datagram (.localhost 40001) testInitial ⟨0, true, true⟩, .tickStart, .advance 3,
        .finishSlot ⟨.byKey, fun _ => ⟨0, true, true⟩, 0⟩, .checkSlot ⟨.alive, true, 0, 0⟩] =
          before ++ .finishSlot env :: later ∧
      .forwarded call ∈ ((⟨.default, Sni.Rfc9001.crypto⟩ : Proxy).run 0
        ([.datagram (.localhost 40000) testInitial ⟨0, true, true⟩, .started Config.default.backend,
          .startupDone Config.default.backend .ready] ++ before ++ [.finishSlot env])).log ∧
      call.client = .localhost 40000 ∧ call.backend = Config.default.backend := by
  have hfinished : ((⟨.default, Sni.Rfc9001.crypto⟩ : Proxy).run 0
      [.datagram (.localhost 40000) testInitial ⟨0, true, true⟩, .started Config.default.backend,
        .startupDone Config.default.backend .ready]).backends[Config.default.backend]?.map
          (fun managed => (managed.lifecycle, managed.held.keys)) =
      some (.waking 0 (.finished .ready), [.localhost 40000]) := by
    decide +kernel
  obtain ⟨managed, hslot, hm⟩ := Option.map_eq_some_iff.mp hfinished
  obtain ⟨hlife, hheld⟩ := Prod.mk.inj hm
  obtain ⟨before, later, env, calls, heq, htakes⟩ := finished_startup_is_taken_over _ _ _
    [.datagram (.localhost 40001) testInitial ⟨0, true, true⟩, .tickStart, .advance 3,
      .finishSlot ⟨.byKey, fun _ => ⟨0, true, true⟩, 0⟩, .checkSlot ⟨.alive, true, 0, 0⟩]
    [(⟨.byKey, fun _ => ⟨0, true, true⟩, 0⟩, ⟨.alive, true, 0, 0⟩)] _ managed _ _
    (by decide +kernel) hslot hlife (by decide +kernel)
    (.cons _ (.cons_cons _ (.cons _ (.cons_cons _ (.cons_cons _ .slnil))))) (by decide +kernel)
  rw [hheld] at htakes
  obtain ⟨call, hcall, hclient, _⟩ :=
    htakes.called rfl (.localhost 40000) (List.mem_singleton.mpr rfl)
  refine ⟨before, later, env, call, heq, ?_, hclient, (htakes.sent call hcall).2.1⟩
  rw [htakes.log]
  exact List.mem_append_right _ (List.mem_cons_of_mem _ (List.mem_map_of_mem hcall))

end Sleepytale
