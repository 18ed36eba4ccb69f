import Sleepytale.Adapters

/-!
# Leaving the loop of `Proxy::run`

After the shutdown signal the proxy deals with its slots one by one. A slot whose
startup task is unfinished holds the loop up, until the task finishes or
`shutdown_grace` runs out. `turnsLeft` counts what can still be waited for; no
event adds to it, so a grace period and a turn for each slot are enough.
-/

namespace Sleepytale

open Sleepytale.Net
open Sleepytale.Lib.Maps
open Sleepytale.Lib.Lists
open Sleepytale.Lib.Machine
open Std (ExtTreeMap)

def Lifecycle.isUnfinished : Lifecycle → Bool
  | waking _ .starting => true
  | waking _ .waiting => true
  | _ => false

namespace State

def holdsUp (s : State) (slot : SocketAddr) : Bool :=
  s.backends[slot]?.any (·.lifecycle.isUnfinished)

/-- How many turns the shutdown loop needs at most: two for a slot that holds it
up, one for any other slot whose turn it is, two for each slot after it. -/
def turnsLeft (s : State) : Nat :=
  match s.phase with
  | .draining (slot :: rest) => 2 * rest.length + if s.holdsUp slot then 2 else 1
  | _ => 0

/-- The loop has been left, and ends when the last slot was dealt with. -/
def Leaving (s : State) : Prop :=
  s.phase = .finished ∨ ∃ slot rest, s.phase = .draining (slot :: rest)

theorem leaving_drain {s : State} {rest : List SocketAddr} (h : s.phase = .drain rest) :
    s.Leaving := by
  cases rest with
  | nil => exact Or.inl h
  | cons slot rest => exact Or.inr ⟨slot, rest, h⟩

theorem turnsLeft_drain {s : State} {rest : List SocketAddr} (h : s.phase = .drain rest) :
    s.turnsLeft ≤ 2 * rest.length := by
  cases rest with
  | nil =>
    rw [turnsLeft, h]
    exact Nat.zero_le _
  | cons slot rest =>
    rw [turnsLeft, h]
    show 2 * rest.length + (if s.holdsUp slot then 2 else 1) ≤ 2 * (rest.length + 1)
    split <;> omega

theorem holdsUp_insert {s s' : State} {changed : SocketAddr} {managed : ManagedBackend}
    (h : s'.backends = s.backends.insert changed managed) (slot : SocketAddr) :
    s'.holdsUp slot =
      if changed = slot then managed.lifecycle.isUnfinished else s.holdsUp slot := by
  rw [holdsUp, h, getElem?_insert_eq]
  split <;> rfl

theorem holdsUp_of_slot {s : State} {slot : SocketAddr} {managed : ManagedBackend}
    (h : s.backends[slot]? = some managed) :
    s.holdsUp slot = managed.lifecycle.isUnfinished := by
  rw [holdsUp, h]
  rfl

/-- A startup task that goes on or finishes never holds up the loop anew. -/
theorem turnsLeft_moved {s s' : State} {changed : SocketAddr} {managed managed' : ManagedBackend}
    (hphase : s'.phase = s.phase) (hslot : s.backends[changed]? = some managed)
    (hb : s'.backends = s.backends.insert changed managed')
    (hwaiting : managed.lifecycle.isUnfinished = true) : s'.turnsLeft ≤ s.turnsLeft := by
  have hless : ∀ slot, (if s'.holdsUp slot then 2 else 1) ≤ if s.holdsUp slot then 2 else 1 := by
    intro slot
    rw [holdsUp_insert hb]
    by_cases he : changed = slot
    · subst he
      rw [if_pos rfl, holdsUp_of_slot hslot, hwaiting, if_pos rfl]
      split <;> omega
    · rw [if_neg he]
  simp only [turnsLeft, hphase]
  split
  · next slot rest _ =>
    have := hless slot
    omega
  · exact Nat.le_refl _

theorem giveUp_phase {s : State} {slot : SocketAddr} {rest : List SocketAddr}
    (h : s.holdsUp slot = true) : (s.giveUp slot rest).phase = .drain rest := by
  obtain ⟨managed, hslot, hl⟩ := (Option.any_eq_true _ _).mp h
  unfold giveUp
  rw [hslot]
  cases hlife : managed.lifecycle with
  | sleeping =>
    rw [hlife] at hl
    cases hl
  | running boot =>
    rw [hlife] at hl
    cases hl
  | waking boot task =>
    cases task with
    | starting => simp [hlife]
    | waiting => simp [hlife]
    | finished result =>
      rw [hlife] at hl
      cases hl

theorem drainSlot_phase {s : State} {slot : SocketAddr} {rest : List SocketAddr}
    (h : s.holdsUp slot = false) (stopOk : Bool) :
    (s.drainSlot slot rest stopOk).phase = .drain rest := by
  unfold drainSlot
  cases hslot : s.backends[slot]? with
  | none => rfl
  | some managed =>
    rw [holdsUp_of_slot hslot] at h
    cases hlife : managed.lifecycle with
    | sleeping => simp [hlife]
    | running boot => simp [hlife]
    | waking boot task =>
      cases task with
      | starting =>
        rw [hlife] at h
        cases h
      | waiting =>
        rw [hlife] at h
        cases h
      | finished result => cases result <;> simp [hlife]

end State

/-- Once the loop has been left no event goes back, or adds to what is waited for. -/
theorem turnsLeft_trans {p : Proxy} {s s' : State} {e : Event} (hl : s.Leaving)
    (h : Trans p s e s') : s'.Leaving ∧ s'.turnsLeft ≤ s.turnsLeft := by
  have hserving : s.phase ≠ .serving := by
    rcases hl with hf | ⟨slot, rest, hd⟩ <;> simp [*]
  have hticking : ∀ rest, s.phase ≠ .ticking rest := by
    rcases hl with hf | ⟨slot, rest, hd⟩ <;> simp [*]
  have hchecking : ∀ slot rest, s.phase ≠ .checking slot rest := by
    rcases hl with hf | ⟨slot, rest, hd⟩ <;> simp [*]
  have hnext : ∀ {slot rest}, s.phase = .draining (slot :: rest) → s'.phase = .drain rest →
      s'.Leaving ∧ s'.turnsLeft ≤ s.turnsLeft := by
    intro slot rest hphase hphase'
    refine ⟨State.leaving_drain hphase', Nat.le_trans (State.turnsLeft_drain hphase') ?_⟩
    rw [State.turnsLeft, hphase]
    exact Nat.le_add_right _ _
  have hmoved : ∀ {changed managed managed'}, s'.phase = s.phase →
      s.backends[changed]? = some managed → s'.backends = s.backends.insert changed managed' →
      managed.lifecycle.isUnfinished = true → s'.Leaving ∧ s'.turnsLeft ≤ s.turnsLeft := by
    intro changed managed managed' hphase hslot hb hwaiting
    refine ⟨?_, State.turnsLeft_moved hphase hslot hb hwaiting⟩
    rw [State.Leaving, hphase]
    exact hl
  cases h with
  | stay => exact ⟨hl, Nat.le_refl _⟩
  | rejected hphase => exact (hserving hphase).elim
  | relayed hphase => exact (hserving hphase).elim
  | woke hphase => exact (hserving hphase).elim
  | heldBack hphase => exact (hserving hphase).elim
  | ignored hphase => exact (hserving hphase).elim
  | tickStarted hphase => exact (hserving hphase).elim
  | nothingFinished hphase => exact (hticking _ hphase).elim
  | ready hphase => exact (hticking _ hphase).elim
  | bootFailed hphase => exact (hticking _ hphase).elim
  | notRunning hphase => exact (hchecking _ _ hphase).elim
  | exited hphase => exact (hchecking _ _ hphase).elim
  | checkFailed hphase => exact (hchecking _ _ hphase).elim
  | busy hphase => exact (hchecking _ _ hphase).elim
  | idling hphase => exact (hchecking _ _ hphase).elim
  | idleStopped hphase => exact (hchecking _ _ hphase).elim
  | shutDown hphase => exact (hserving hphase).elim
  | nothingToDrain hphase => exact hnext hphase rfl
  | drained hphase => exact hnext hphase rfl
  | drainedFailed hphase => exact hnext hphase rfl
  | gaveUp hphase => exact hnext hphase rfl
  | started hslot hlife => exact hmoved rfl hslot rfl (by rw [hlife]; rfl)
  | becameReady hslot hlife => exact hmoved rfl hslot rfl (by rw [hlife]; rfl)
  | startupFailed hslot hlife htask =>
    refine hmoved rfl hslot rfl ?_
    rcases htask with rfl | rfl <;> rw [hlife] <;> rfl
  | advanced => exact ⟨hl, Nat.le_refl _⟩
  | path => exact ⟨hl, Nat.le_refl _⟩

def shutdownTurns (oks : List Bool) : List Event :=
  oks.flatMap fun ok => [.giveUp, .drainSlot ok]

theorem shutdownTurns_length (oks : List Bool) : (shutdownTurns oks).length = 2 * oks.length :=
  length_flatMap_pair (fun _ => Event.giveUp) Event.drainSlot oks

/-- Grace periods stand at the even places, turns at the odd ones. -/
theorem shutdownTurns_getElem? {oks : List Bool} {i : Nat} {e : Event}
    (h : (shutdownTurns oks)[i]? = some e) :
    i % 2 = 0 ∧ e = .giveUp ∨ i % 2 = 1 ∧ ∃ ok, e = .drainSlot ok := by
  rcases getElem?_flatMap_pair h with ⟨heven, _, he⟩ | hturn
  · exact Or.inl ⟨heven, he⟩
  · exact Or.inr hturn

theorem turnsLeft_next {p : Proxy} {s : State} (hl : s.Leaving) {n i : Nat} {e : Event}
    (he : i % 2 = 0 ∧ e = .giveUp ∨ i % 2 = 1 ∧ ∃ ok, e = .drainSlot ok)
    (hleft : s.turnsLeft + i ≤ 2 * n) (hi : i < 2 * n) :
    (p.step s e).turnsLeft + (i + 1) ≤ 2 * n := by
  have hmono := (turnsLeft_trans hl (step_trans p s e)).2
  rcases hl with hphase | ⟨slot, rest, hphase⟩
  · have hzero : s.turnsLeft = 0 := by rw [State.turnsLeft, hphase]
    omega
  · have hnow : s.turnsLeft = 2 * rest.length + if s.holdsUp slot then 2 else 1 := by
      rw [State.turnsLeft, hphase]
    rcases he with ⟨heven, rfl⟩ | ⟨hodd, ok, rfl⟩
    · cases hup : s.holdsUp slot with
      | true =>
        have hstep : (p.step s .giveUp).phase = .drain rest := by
          simp only [Proxy.step, hphase]
          exact State.giveUp_phase hup
        have := State.turnsLeft_drain hstep
        rw [hup, if_pos rfl] at hnow
        omega
      | false =>
        rw [hup, if_neg Bool.false_ne_true] at hnow
        omega
    · cases hup : s.holdsUp slot with
      | true =>
        rw [hup, if_pos rfl] at hnow
        omega
      | false =>
        have hstep : (p.step s (.drainSlot ok)).phase = .drain rest := by
          simp only [Proxy.step, hphase]
          exact State.drainSlot_phase hup ok
        have := State.turnsLeft_drain hstep
        rw [hup, if_neg Bool.false_ne_true] at hnow
        omega

/-- What is left when `Proxy::run` has returned. -/
structure State.Returned (s : State) : Prop where
  phase : s.phase = .finished
  sessions : ∀ client : SocketAddr, s.relay.sessions[client]? = none
  slots : ∀ (slot : SocketAddr) (managed : ManagedBackend), s.backends[slot]? = some managed →
    managed.lifecycle = .sleeping
  paths : ∀ (id : TaskId) (task : ReturnPath), s.relay.tasks[id]? = some task →
    ¬ task.status.Alive

theorem returned_of_finished {p : Proxy} {now : Instant} {events : List Event}
    (h : (p.run now events).phase = .finished) : (p.run now events).Returned := by
  have hnone : ∀ client : SocketAddr, (p.run now events).relay.sessions[client]? = none := by
    intro client
    cases hs : (p.run now events).relay.sessions[client]? with
    | none => rfl
    | some session =>
      have hloop := (sessionsRun p now events client session hs).1
      rw [h] at hloop
      exact hloop.elim
  refine ⟨h, hnone, fun slot managed hslot => ?_, fun id task ht halive => ?_⟩
  · exact drained p now events slot managed hslot (by rw [h]; trivial)
  · obtain ⟨session, hs, _⟩ := (relay_wf p now events).alive_session id task ht halive
    rw [hnone] at hs
    cases hs

/-- Shutdown ends: after the signal, a grace period and a turn for every slot, in
order and with anything else in between, bring `run` to its end, however the calls
of `stop` go. No session, return path or backend is then left, and nothing that
happens later changes that. -/
theorem shutdown_completes (p : Proxy) (now : Instant) (before during later : List Event)
    (oks : List Bool) (hserving : (p.run now before).phase = .serving)
    (hslots : (p.run now before).backends.size ≤ oks.length)
    (hturns : (shutdownTurns oks).Sublist during) :
    (p.run now (before ++ .shutdown :: (during ++ later))).Returned := by
  apply returned_of_finished
  have hstart : (p.run now (before ++ [.shutdown])).phase =
      .drain (p.run now before).backends.keys := by
    rw [Proxy.run, run_snoc]
    show (p.step (p.run now before) .shutdown).phase = _
    simp [Proxy.step, hserving]
  have hleaving : ∀ (s : State) (e : Event), s.Leaving → (p.step s e).Leaving :=
    fun s e hl => (turnsLeft_trans hl (step_trans p s e)).1
  have hdone : (run p.step (p.run now (before ++ [.shutdown])) during).Leaving ∧
      (run p.step (p.run now (before ++ [.shutdown])) during).turnsLeft +
        (shutdownTurns oks).length ≤ 2 * oks.length := by
    refine run_stages (fun i (s : State) => s.Leaving ∧ s.turnsLeft + i ≤ 2 * oks.length) ?_ ?_
      ⟨State.leaving_drain hstart, ?_⟩ hturns
    · intro i s e _ hat
      obtain ⟨hl, hless⟩ := turnsLeft_trans hat.1 (step_trans p s e)
      exact ⟨hl, by omega⟩
    · intro i s e _ hkey hat
      have hi : i < (shutdownTurns oks).length := (List.getElem?_eq_some_iff.mp hkey).1
      rw [shutdownTurns_length] at hi
      exact ⟨hleaving s e hat.1,
        turnsLeft_next hat.1 (shutdownTurns_getElem? hkey) hat.2 hi⟩
    · have hfirst := State.turnsLeft_drain hstart
      rw [ExtTreeMap.length_keys] at hfirst
      show State.turnsLeft _ + 0 ≤ 2 * oks.length
      omega
  rw [shutdownTurns_length] at hdone
  have hsplit : p.run now (before ++ .shutdown :: (during ++ later)) =
      run p.step (run p.step (p.run now (before ++ [.shutdown])) during) later := by
    rw [Proxy.run, Proxy.run, ← run_append, ← run_append]
    simp
  have hend : (run p.step (run p.step (p.run now (before ++ [.shutdown])) during) later).Leaving ∧
      (run p.step (run p.step (p.run now (before ++ [.shutdown])) during) later).turnsLeft = 0 := by
    refine run_invariant (fun s : State => s.Leaving ∧ s.turnsLeft = 0) ?_ ⟨hdone.1, by omega⟩ later
    intro s e hs
    obtain ⟨hl, hless⟩ := turnsLeft_trans hs.1 (step_trans p s e)
    exact ⟨hl, by omega⟩
  rw [hsplit]
  rcases hend.1 with hphase | ⟨slot, rest, hphase⟩
  · exact hphase
  · have hpos := hend.2
    rw [State.turnsLeft, hphase] at hpos
    simp only at hpos
    split at hpos <;> omega

/-- A waking backend whose task never finishes, and a tick and a datagram that come
too late. -/
theorem shutdown_completes_waking :
    ((⟨.default, Sni.Rfc9001.crypto⟩ : Proxy).run 0
      ([.datagram (.localhost 40000) testInitial ⟨0, true, true⟩] ++ .shutdown ::
        ([.started Config.default.backend, .giveUp, .advance 10, .drainSlot false] ++
          [.tickStart, .datagram (.localhost 40000) testInitial ⟨0, true, true⟩]))).Returned :=
  shutdown_completes ⟨.default, Sni.Rfc9001.crypto⟩ 0 _ _ _ [false] (by decide +kernel)
    (by decide +kernel) (.cons _ (.cons_cons _ (.cons _ (.cons_cons _ .slnil))))

end Sleepytale
