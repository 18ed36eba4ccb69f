import Sleepytale.Lifecycle

/-!
# Idle shutdown

The idle clock of a running slot is looked at once a tick, after the reaper. A
session that is opened and reaped between two looks leaves no mark on the clock,
so the clock may say that a backend has been empty longer than it has. The
invariant accounts for every datagram that was sent to a running backend: its
clock was started later, the datagram is older than `idle_timeout`, or a session
that is at least as young still stands.
-/

namespace Sleepytale

open Sleepytale.Net
open Sleepytale.Lib.Maps
open Sleepytale.Lib.Machine

/-- An idle stop that comes less than `idle` after a datagram was sent to the
backend it stops. -/
def Effect.Disturbs (idle : Duration) : Effect → Effect → Prop
  | forwarded call, idleStop _ backend t =>
      call.ok = true ∧ call.dest = some backend ∧ t < call.time + idle ∧ call.time ≤ t
  | _, _ => False

instance (idle : Duration) : DecidableRel (Effect.Disturbs idle) := fun earlier later => by
  cases earlier <;> cases later <;>
    first
    | exact inferInstanceAs (Decidable (_ ∧ _))
    | exact inferInstanceAs (Decidable False)

/-- No idle stop in the log follows a datagram sent to its backend within the
last `idle`. -/
def QuietStops (idle : Duration) (log : List Effect) : Prop :=
  log.Pairwise fun earlier later => ¬ earlier.Disturbs idle later

instance (idle : Duration) (log : List Effect) : Decidable (QuietStops idle log) :=
  inferInstanceAs (Decidable (log.Pairwise fun earlier later => ¬ earlier.Disturbs idle later))

theorem Effect.Disturbs.cases {idle : Duration} {earlier later : Effect}
    (h : earlier.Disturbs idle later) :
    ∃ (call : Forward) (boot : BootId) (backend : SocketAddr) (t : Instant),
      earlier = .forwarded call ∧ later = .idleStop boot backend t ∧ call.ok = true ∧
      call.dest = some backend ∧ t < call.time + idle ∧ call.time ≤ t := by
  cases earlier with
  | forwarded call =>
    cases later with
    | idleStop boot backend t => exact ⟨call, boot, backend, t, rfl, rfl, h⟩
    | _ => exact h.elim
  | _ => exact h.elim

theorem QuietStops.append {idle : Duration} {log effects : List Effect}
    (h : QuietStops idle log) (hno : ∀ boot backend t, .idleStop boot backend t ∉ effects) :
    QuietStops idle (log ++ effects) := by
  have hlater : ∀ earlier : Effect, ∀ later ∈ effects, ¬ earlier.Disturbs idle later := by
    intro earlier later hm hd
    obtain ⟨_, boot, backend, t, _, rfl, _⟩ := hd.cases
    exact hno boot backend t hm
  refine List.pairwise_append.mpr ⟨h, ?_, fun earlier _ later hm => hlater earlier later hm⟩
  exact List.pairwise_of_forall_mem_list fun earlier _ later hm => hlater earlier later hm

theorem add_le_of_le_sub {now seen time idle : Nat} (hnow : time ≤ now) (hseen : time ≤ seen)
    (hidle : idle ≤ now - seen) : time + idle ≤ now := by
  omega

/-- What is further away from `now` lies earlier. -/
theorem le_of_sub_lt {now a b limit : Nat} (ha : limit ≤ now - a) (hb : now - b < limit) :
    a ≤ b := by
  omega

/-- A clock that started at `since` or later and shows `idle` at `now`. -/
theorem not_lt_of_clock {now since time idle : Nat} (htime : time ≤ since)
    (hidle : idle ≤ now - since) : ¬ (now < time + idle ∧ time ≤ now) := by
  omega

theorem not_lt_of_old {now later time idle : Nat} (hold : time + idle ≤ now)
    (hlater : now ≤ later) : ¬ (later < time + idle ∧ time ≤ later) := by
  omega

namespace State

/-- A session pinned to `backend` that was seen at `time` or later. -/
def SeenSince (s : State) (backend : SocketAddr) (time : Instant) : Prop :=
  ∃ (client : SocketAddr) (session : Session), s.relay.sessions[client]? = some session ∧
    session.backend = backend ∧ time ≤ session.lastSeen

structure Clocked (idle : Duration) (s : State) : Prop where
  past : ∀ call : Forward, .forwarded call ∈ s.log → call.time ≤ s.now
  accounted : s.phase.InLoop → ∀ (slot : SocketAddr) (managed : ManagedBackend) (since : Instant),
    s.backends[slot]? = some managed → managed.emptySince = some since →
    ∀ call : Forward, .forwarded call ∈ s.log → call.ok = true → call.dest = some slot →
      call.time ≤ since ∨ call.time + idle ≤ s.now ∨ s.SeenSince slot call.time
  quiet : QuietStops idle s.log

/-- The idle clocks that run in `t` have been started since `s`, or ran in it. -/
def ClocksFrom (s t : State) : Prop :=
  ∀ (slot : SocketAddr) (managed : ManagedBackend) (since : Instant),
    t.backends[slot]? = some managed → managed.emptySince = some since → s.now ≤ since ∨
      ∃ old : ManagedBackend, s.backends[slot]? = some old ∧ old.emptySince = some since

theorem clocksFrom_of_eq {s t : State} (h : t.backends = s.backends) : s.ClocksFrom t := by
  intro slot managed since hslot hsince
  rw [h] at hslot
  exact Or.inr ⟨managed, hslot, hsince⟩

theorem clocksFrom_of_insert {s t : State} {changed : SocketAddr} {old new : ManagedBackend}
    (hold : s.backends[changed]? = some old) (h : t.backends = s.backends.insert changed new)
    (hnew : ∀ since, new.emptySince = some since → s.now ≤ since ∨ old.emptySince = some since) :
    s.ClocksFrom t := by
  intro slot managed since hslot hsince
  rw [h] at hslot
  rcases getElem?_insert_cases hslot with ⟨rfl, rfl⟩ | ⟨_, hslot⟩
  · rcases hnew since hsince with hlate | hsame
    · exact Or.inl hlate
    · exact Or.inr ⟨old, hold, hsame⟩
  · exact Or.inr ⟨managed, hslot, hsince⟩

/-- Time passes and clocks are started or stopped; the sessions a clock rests on
stay. -/
theorem Clocked.carry {idle : Duration} {s s' : State} (h : s.Clocked idle)
    (hnow : s.now ≤ s'.now) (hphase : s'.phase.InLoop → s.phase.InLoop)
    {effects : List Effect} (hlog : s'.log = s.log ++ effects)
    (hcalls : ∀ call, .forwarded call ∉ effects) (hquiet : QuietStops idle s'.log)
    (hclock : s.ClocksFrom s')
    (hsessions : ∀ (slot : SocketAddr) (managed : ManagedBackend) (since time : Instant),
      time ≤ s.now → s'.backends[slot]? = some managed → managed.emptySince = some since →
      s.SeenSince slot time →
      time ≤ since ∨ time + idle ≤ s'.now ∨ s'.SeenSince slot time) :
    s'.Clocked idle := by
  have hold : ∀ call, .forwarded call ∈ s'.log → .forwarded call ∈ s.log := by
    intro call hm
    rw [hlog] at hm
    rcases List.mem_append.mp hm with hm | hm
    · exact hm
    · exact (hcalls call hm).elim
  refine ⟨fun call hm => Nat.le_trans (h.past call (hold call hm)) hnow, ?_, hquiet⟩
  intro hp slot managed since hslot hsince call hm hok hdest
  have hcall := hold call hm
  rcases hclock slot managed since hslot hsince with hlate | ⟨old, hold, hsince'⟩
  · exact Or.inl (Nat.le_trans (h.past call hcall) hlate)
  · rcases h.accounted (hphase hp) slot old since hold hsince' call hcall hok hdest with
      hc | hc | hc
    · exact Or.inl hc
    · exact Or.inr (Or.inl (Nat.le_trans hc hnow))
    · exact hsessions slot managed since call.time (h.past call hcall) hslot hsince hc

/-- A step that keeps the sessions and stops nothing. -/
theorem Clocked.keep {idle : Duration} {s t : State} (h : s.Clocked idle) (hnow : s.now ≤ t.now)
    (hphase : t.phase.InLoop → s.phase.InLoop) {effects : List Effect}
    (hlog : t.log = s.log ++ effects) (hcalls : ∀ call, .forwarded call ∉ effects)
    (hstops : ∀ boot backend time, .idleStop boot backend time ∉ effects)
    (hsessions : t.relay.sessions = s.relay.sessions) (hclock : s.ClocksFrom t) :
    t.Clocked idle := by
  refine h.carry hnow hphase hlog hcalls (by rw [hlog]; exact h.quiet.append hstops) hclock ?_
  intro slot managed since time _ _ _ hseen
  obtain ⟨client, session, hs, hb, hseen⟩ := hseen
  exact Or.inr (Or.inr ⟨client, session, by rw [hsessions]; exact hs, hb, hseen⟩)

/-- A forward that succeeds leaves a session seen at its time. -/
theorem seenSince_forward {s : State} {slot : SocketAddr} {time : Instant} (htime : time ≤ s.now)
    (h : s.SeenSince slot time) (origin : Origin) (client backend : SocketAddr)
    (datagram : Datagram) (env : Relay.ForwardEnv) :
    (s.forward origin client backend datagram env).SeenSince slot time := by
  obtain ⟨c, session, hs, hb, hseen⟩ := h
  have hlap : time ≤ s.now + env.lap := Nat.le_trans htime (Nat.le_add_right _ _)
  rw [SeenSince, forward_relay]
  rcases Relay.forward_cases s.relay (s.now + env.lap) env client backend datagram with
    ⟨old, _, hold, _, he⟩ | ⟨_, hnone, _, _, he⟩ | ⟨_, _, _, _, he⟩
  · refine ⟨c, _, by rw [he, Relay.sessions_touch hold, hs]; rfl, ?_⟩
    split
    · exact ⟨hb, hlap⟩
    · exact ⟨hb, hseen⟩
  · have hne : client ≠ c := by
      rintro rfl
      rw [hnone] at hs
      cases hs
    refine ⟨c, session, ?_, hb, hseen⟩
    rw [he, Relay.sessions_openSession, if_neg hne]
    exact hs
  · rw [he]
    exact ⟨c, session, hs, hb, hseen⟩

theorem seenSince_forwardCall (s : State) (origin : Origin) (client backend : SocketAddr)
    (datagram : Datagram) (env : Relay.ForwardEnv) {slot : SocketAddr}
    (hdest : (s.forwardCall origin client backend datagram env).dest = some slot) :
    (s.forward origin client backend datagram env).SeenSince slot (s.now + env.lap) := by
  rw [SeenSince, forward_relay]
  simp only [forwardCall] at hdest
  rcases Relay.forward_cases s.relay (s.now + env.lap) env client backend datagram with
    ⟨old, _, hold, _, he⟩ | ⟨_, hnone, _, _, he⟩ | ⟨_, _, _, _, he⟩
  all_goals rw [he] at hdest ⊢
  · refine ⟨client, _, by rw [Relay.sessions_touch hold, hold]; rfl, ?_⟩
    simp only [if_true]
    exact ⟨Option.some.inj hdest, Nat.le_refl _⟩
  · refine ⟨client, _, by rw [Relay.sessions_openSession, if_pos rfl], ?_⟩
    exact ⟨Option.some.inj hdest, Nat.le_refl _⟩
  · cases hdest

theorem Clocked.forward {idle : Duration} {s : State} (h : s.Clocked idle) (origin : Origin)
    (client backend : SocketAddr) (datagram : Datagram) (env : Relay.ForwardEnv) :
    (s.forward origin client backend datagram env).Clocked idle := by
  have hcases : ∀ call, .forwarded call ∈ (s.forward origin client backend datagram env).log →
      .forwarded call ∈ s.log ∨ call = s.forwardCall origin client backend datagram env := by
    intro call hm
    rw [forward_log, List.mem_append, List.mem_singleton, Effect.forwarded.injEq] at hm
    exact hm
  refine ⟨fun call hm => ?_, fun hp slot managed since hslot hsince call hm hok hdest => ?_, ?_⟩
  · rw [forward_now]
    rcases hcases call hm with hm | rfl
    · exact Nat.le_trans (h.past call hm) (Nat.le_add_right _ _)
    · exact Nat.le_refl _
  · rcases hcases call hm with hm | rfl
    · rcases h.accounted hp slot managed since hslot hsince call hm hok hdest with hc | hc | hc
      · exact Or.inl hc
      · exact Or.inr (Or.inl (Nat.le_trans hc (Nat.le_add_right _ _)))
      · exact Or.inr (Or.inr (seenSince_forward (h.past call hm) hc ..))
    · exact Or.inr (Or.inr (seenSince_forwardCall s origin client backend datagram env hdest))
  · rw [forward_log]
    exact h.quiet.append (by simp)

end State

/-- Before the reaper of a tick takes the last sessions of a backend whose idle
clock runs, the clock was started after they were last seen, or they have been
quiet for `idle_timeout` themselves. -/
def CountedBeforeReaped (p : Proxy) (s : State) : Event → Prop
  | .tickStart => ∀ (slot : SocketAddr) (managed : ManagedBackend) (since : Instant),
      s.backends[slot]? = some managed → managed.emptySince = some since →
      (∀ (client : SocketAddr) (session : Session), s.relay.sessions[client]? = some session →
        session.backend = slot → s.relay.sessionTimeout ≤ s.now - session.lastSeen) →
      ∀ (client : SocketAddr) (session : Session), s.relay.sessions[client]? = some session →
        session.backend = slot →
        session.lastSeen ≤ since ∨ p.config.idleTimeout ≤ s.now - session.lastSeen
  | _ => True

namespace State.Clocked

variable {p : Proxy} {s : State}

/-- The reaper of a tick. -/
theorem reap (h : s.Clocked p.config.idleTimeout) (hphase : s.phase = .serving)
    (hcounted : CountedBeforeReaped p s .tickStart) :
    State.Clocked p.config.idleTimeout
      { s with relay := (s.relay.reapIdle s.now).1, phase := .tick s.backends.keys } := by
  refine h.carry (Nat.le_refl _) (fun _ => by simp [hphase, Phase.InLoop])
    (List.append_nil _).symm (by simp) h.quiet (State.clocksFrom_of_eq rfl) ?_
  intro slot managed since time htime hslot hsince hseen
  obtain ⟨client, session, hs, hb, hseen⟩ := hseen
  by_cases hlast : ∀ (client : SocketAddr) (session : Session),
      s.relay.sessions[client]? = some session → session.backend = slot →
      s.relay.sessionTimeout ≤ s.now - session.lastSeen
  · rcases hcounted slot managed since hslot hsince hlast client session hs hb with hq | hq
    · exact Or.inl (Nat.le_trans hseen hq)
    · exact Or.inr (Or.inl (add_le_of_le_sub htime hseen hq))
  · -- A session that survives the reaper is younger than any that does not.
    push Not at hlast
    obtain ⟨client', session', hs', hb', hyoung⟩ := hlast
    by_cases hexpired : s.relay.sessionTimeout ≤ s.now - session.lastSeen
    · refine Or.inr (Or.inr ⟨client', session', ?_, hb', ?_⟩)
      · exact Relay.sessions_retain_some.mpr ⟨hs', by simpa using hyoung⟩
      · exact Nat.le_trans hseen (le_of_sub_lt hexpired hyoung)
    · refine Or.inr (Or.inr ⟨client, session, ?_, hb, hseen⟩)
      exact Relay.sessions_retain_some.mpr ⟨hs, by simpa using hexpired⟩

/-- The sessions of a backend that has exited are dropped together with its clock. -/
theorem exit (h : s.Clocked p.config.idleTimeout) (hk : s.Keyed) {slot : SocketAddr}
    {rest : List SocketAddr} {managed : ManagedBackend} (hphase : s.phase = .checking slot rest)
    (hslot : s.backends[slot]? = some managed) (boot : BootId) :
    State.Clocked p.config.idleTimeout
      { s with
        relay := s.relay.dropSessionsFor managed.config.backend
        backends := s.backends.insert slot
          { managed with lifecycle := .sleeping, emptySince := none }
        phase := .tick rest
        log := s.log ++ [.checked boot managed.config.backend .exited, .dropped boot] } := by
  refine h.carry (Nat.le_refl _) (fun _ => by simp [hphase, Phase.InLoop]) rfl (by simp)
    (h.quiet.append (by simp))
    (State.clocksFrom_of_insert hslot rfl fun since hs => by cases hs) ?_
  intro slot' managed' since time _ hslot' hsince hseen
  obtain ⟨client, session, hs, hb, hseen⟩ := hseen
  have hne : slot' ≠ slot := by
    rcases getElem?_insert_cases hslot' with ⟨_, rfl⟩ | ⟨hne, _⟩
    · cases hsince
    · exact hne
  refine Or.inr (Or.inr ⟨client, session, Relay.sessions_retain_some.mpr ⟨hs, ?_⟩, hb, hseen⟩)
  rw [hk slot managed hslot, hb]
  simpa using hne

/-- A backend without a session whose clock shows `idle_timeout` has been sent
nothing for that long. -/
theorem quiet_of_idle (h : s.Clocked p.config.idleTimeout) (hin : s.phase.InLoop)
    {slot : SocketAddr} {managed : ManagedBackend} (hslot : s.backends[slot]? = some managed)
    (hcount : s.relay.sessionCountFor slot = 0) {emptyLap elapsedLap : Duration}
    (hidle : p.config.idleTimeout ≤ s.now + emptyLap + elapsedLap -
      managed.emptySince.getD (s.now + emptyLap)) {call : Forward}
    (hm : .forwarded call ∈ s.log) (hok : call.ok = true) (hdest : call.dest = some slot) :
    ¬ (s.now + emptyLap + elapsedLap < call.time + p.config.idleTimeout ∧
      call.time ≤ s.now + emptyLap + elapsedLap) := by
  have hpast := h.past call hm
  cases hsince : managed.emptySince with
  | none =>
    rw [hsince] at hidle
    exact not_lt_of_clock (Nat.le_trans hpast (Nat.le_add_right _ _)) hidle
  | some since =>
    rw [hsince] at hidle
    rcases h.accounted hin slot managed since hslot hsince call hm hok hdest with
      hq | hq | ⟨client, session, hs, hb, _⟩
    · exact not_lt_of_clock hq hidle
    · exact not_lt_of_old hq (Nat.le_trans (Nat.le_add_right _ _) (Nat.le_add_right _ _))
    · exact (Relay.sessionCountFor_eq_zero hcount hs hb).elim

end State.Clocked

theorem clocked_trans {p : Proxy} {s s' : State} {e : Event} (hk : s.Keyed)
    (hc : s.Clocked p.config.idleTimeout) (hcounted : CountedBeforeReaped p s e)
    (h : Trans p s e s') : s'.Clocked p.config.idleTimeout := by
  have hin : s.phase.InLoop → s.phase.InLoop := id
  have hnone : s.log = s.log ++ [] := (List.append_nil _).symm
  -- The transition writes no slot, or one whose clock it does not start.
  have hsame : ∀ {t : State}, t.backends = s.backends → s.ClocksFrom t := State.clocksFrom_of_eq
  have hwrite : ∀ {t : State} {changed : SocketAddr} {old new : ManagedBackend},
      s.backends[changed]? = some old → t.backends = s.backends.insert changed new →
      (∀ since, new.emptySince = some since → old.emptySince = some since) → s.ClocksFrom t :=
    fun hslot ht hnew => State.clocksFrom_of_insert hslot ht fun since hs => Or.inr (hnew since hs)
  cases h with
  | stay => exact hc
  | rejected hphase =>
    exact hc.keep (Nat.le_refl _) hin rfl (by simp) (by simp) rfl (hsame rfl)
  | relayed hphase hslot hlife =>
    refine State.Clocked.forward ?_ ..
    exact hc.keep (Nat.le_refl _) hin rfl (by simp) (by simp) rfl (hsame rfl)
  | woke hphase hslot hlife hinitial =>
    exact hc.keep (Nat.le_refl _) hin rfl (by simp) (by simp) rfl
      (hwrite hslot rfl fun since hs => by simpa using hs)
  | heldBack hphase hslot hlife hinitial =>
    exact hc.keep (Nat.le_refl _) hin rfl (by simp) (by simp) rfl
      (hwrite hslot rfl fun since hs => by simpa using hs)
  | ignored => exact hc.keep (Nat.le_refl _) hin rfl (by simp) (by simp) rfl (hsame rfl)
  | tickStarted hphase => exact hc.reap hphase hcounted
  | nothingFinished hphase =>
    exact hc.keep (Nat.le_refl _) (fun _ => by simp [hphase, Phase.InLoop]) hnone (by simp)
      (by simp) rfl (hsame rfl)
  | @ready env slot rest managed boot hphase hslot hlife =>
    have hstart : (s.takeOver slot managed boot env.readyLap).Clocked p.config.idleTimeout := by
      refine hc.keep (Nat.le_add_right _ _) hin rfl (by simp) (by simp) rfl
        (State.clocksFrom_of_insert hslot rfl fun since hs => ?_)
      obtain rfl := Option.some.inj hs
      exact Or.inl (Nat.le_add_right _ _)
    have hall := State.deliverHeld_invariant
      (fun t => t.Clocked p.config.idleTimeout ∧ t.phase.InLoop)
      managed.config.backend boot (env.order.list managed.held) env.forward
      (fun t client datagram _ ht => ⟨ht.1.forward .., ht.2⟩)
      ⟨hstart, by simp [State.takeOver, hphase, Phase.InLoop]⟩
    exact ⟨hall.1.past, fun _ => hall.1.accounted hall.2, hall.1.quiet⟩
  | bootFailed hphase hslot hlife hresult =>
    exact hc.keep (Nat.le_refl _) (fun _ => by simp [hphase, Phase.InLoop]) rfl (by simp)
      (by simp) rfl (hwrite hslot rfl fun _ => id)
  | notRunning hphase =>
    exact hc.keep (Nat.le_refl _) (fun _ => by simp [hphase, Phase.InLoop]) hnone (by simp)
      (by simp) rfl (hsame rfl)
  | @exited env slot rest managed boot hphase hslot hlife hexit => exact hc.exit hk hphase hslot boot
  | checkFailed hphase =>
    exact hc.keep (Nat.le_refl _) (fun _ => by simp [hphase, Phase.InLoop]) rfl (by simp)
      (by simp) rfl (hsame rfl)
  | busy hphase hslot =>
    exact hc.keep (Nat.le_refl _) (fun _ => by simp [hphase, Phase.InLoop]) rfl (by simp)
      (by simp) rfl (hwrite hslot rfl fun since hs => by cases hs)
  | @idling env slot rest managed boot hphase hslot hlife hexit hcount hidle =>
    refine hc.keep (Nat.le_trans (Nat.le_add_right _ _) (Nat.le_add_right _ _))
      (fun _ => by simp [hphase, Phase.InLoop]) rfl (by simp) (by simp) rfl
      (State.clocksFrom_of_insert hslot rfl fun since hs => ?_)
    obtain rfl := Option.some.inj hs
    cases hempty : managed.emptySince with
    | none => exact Or.inl (Nat.le_add_right _ _)
    | some since => exact Or.inr rfl
  | @idleStopped env slot rest managed boot hphase hslot hlife hexit hcount hidle =>
    refine hc.carry (Nat.le_trans (Nat.le_add_right _ _) (Nat.le_add_right _ _))
      (fun _ => by simp [hphase, Phase.InLoop]) rfl (by simp) ?_
      (hwrite hslot rfl fun since hs => by cases hs) ?_
    · refine List.pairwise_append.mpr ⟨hc.quiet, by simp [Effect.Disturbs], ?_⟩
      intro earlier hm later hlater hd
      obtain ⟨call, boot', backend, t, rfl, rfl, hok, hdest, hwindow⟩ := hd.cases
      have he : boot' = boot ∧ backend = managed.config.backend ∧
          t = s.now + env.emptyLap + env.elapsedLap := by simpa using hlater
      obtain ⟨_, rfl, rfl⟩ := he
      rw [hk slot managed hslot] at hdest hcount
      have hloop : s.phase.InLoop := by simp [hphase, Phase.InLoop]
      exact hc.quiet_of_idle hloop hslot hcount hidle hm hok hdest hwindow
    · intro slot' managed' since time _ _ _ hseen
      exact Or.inr (Or.inr hseen)
  | shutDown =>
    exact ⟨hc.past, fun hp => (Phase.drain_not_inLoop _ hp).elim, hc.quiet⟩
  | nothingToDrain =>
    exact ⟨hc.past, fun hp => (Phase.drain_not_inLoop _ hp).elim, hc.quiet⟩
  | drained hphase hslot =>
    exact hc.keep (Nat.le_refl _) (fun hp => (Phase.drain_not_inLoop _ hp).elim) rfl (by simp)
      (by simp) rfl (hwrite hslot rfl fun _ => id)
  | drainedFailed =>
    exact ⟨hc.past, fun hp => (Phase.drain_not_inLoop _ hp).elim, hc.quiet⟩
  | gaveUp hphase hslot =>
    exact hc.keep (Nat.le_refl _) (fun hp => (Phase.drain_not_inLoop _ hp).elim) rfl (by simp)
      (by simp) rfl (hwrite hslot rfl fun _ => id)
  | started hslot =>
    exact hc.keep (Nat.le_refl _) hin rfl (by simp) (by simp) rfl (hwrite hslot rfl fun _ => id)
  | becameReady hslot =>
    exact hc.keep (Nat.le_refl _) hin hnone (by simp) (by simp) rfl
      (hwrite hslot rfl fun _ => id)
  | startupFailed hslot =>
    exact hc.keep (Nat.le_refl _) hin rfl (by simp) (by simp) rfl (hwrite hslot rfl fun _ => id)
  | advanced lap =>
    exact hc.keep (Nat.le_add_right _ _) hin hnone (by simp) (by simp) rfl (hsame rfl)
  | path act =>
    exact hc.keep (Nat.le_refl _) hin hnone (by simp) (by simp)
      (Relay.pathFrame_path s.relay act).sessions (hsame rfl)

/-- In every run in which no tick reaps the sessions of a backend before its idle
clock has seen them, an idle stop comes at least `idle_timeout` after the last
datagram that was sent to the backend. -/
theorem idle_stops_quiet (p : Proxy) (now : Instant) (events : List Event)
    (h : AllSteps p.step (CountedBeforeReaped p) (p.init now) events) :
    QuietStops p.config.idleTimeout (p.run now events).log := by
  have hinit : (p.init now).Clocked p.config.idleTimeout :=
    ⟨by simp [Proxy.init], by simp [Proxy.init], List.Pairwise.nil⟩
  have hstep : ∀ before e, (p.run now before).Clocked p.config.idleTimeout →
      CountedBeforeReaped p (p.run now before) e →
      (p.step (p.run now before) e).Clocked p.config.idleTimeout := by
    intro before e hc hcounted
    exact clocked_trans (keyed p now before) hc hcounted (step_trans p _ e)
  exact (run_induction_of (State.Clocked p.config.idleTimeout) hinit hstep h).quiet

theorem Relay.sessionTimeout_step (relay : Relay) (act : RelayAct) :
    (relay.step act).sessionTimeout = relay.sessionTimeout := by
  cases act with
  | forward now env client backend datagram =>
    simp only [step]
    rcases forward_cases relay now env client backend datagram with
      ⟨_, _, _, _, he⟩ | ⟨_, _, _, _, he⟩ | ⟨_, _, _, _, he⟩
    all_goals rw [he]
    · rfl
    · rfl
  | reap now => rfl
  | drop backend => rfl
  | clear => rfl
  | path act =>
    cases act with
    | arrive socket source datagram =>
      simp only [step, path, arrive]
      split <;> rfl
    | receive id ok =>
      simp only [step, path, receive]
      repeat' split
      all_goals rfl
    | reply id ok =>
      simp only [step, path, reply]
      split <;> rfl

theorem sessionTimeout_run (p : Proxy) (now : Instant) (events : List Event) :
    (p.run now events).relay.sessionTimeout = p.config.sessionTimeout := by
  obtain ⟨acts, h⟩ := relay_run p now events
  rw [h]
  exact run_invariant (fun relay : Relay => relay.sessionTimeout = p.config.sessionTimeout)
    (fun relay act hr => (Relay.sessionTimeout_step relay act).trans hr) rfl acts

/-- Where sessions live as long as an empty backend, every session is counted in
time. -/
theorem countedBeforeReaped_of_le {p : Proxy} (h : p.config.idleTimeout ≤ p.config.sessionTimeout)
    (now : Instant) (events : List Event) :
    AllSteps p.step (CountedBeforeReaped p) (p.init now) events := by
  refine allSteps_of_forall (fun before e => ?_) events
  cases e with
  | tickStart =>
    intro slot managed since _ _ hexpired client session hs hb
    have hlong := hexpired client session hs hb
    have htimeout := sessionTimeout_run p now before
    change (p.run now before).relay.sessionTimeout ≤ (p.run now before).now - _ at hlong
    rw [htimeout] at hlong
    exact Or.inr (Nat.le_trans h hlong)
  | _ => trivial

/-- Sessions live three seconds and an empty backend thirty. -/
def shortSessions : Config := { Config.default with idleTimeout := 30, sessionTimeout := 3 }

/-- A tick every five seconds. -/
def calmTicks (slots count : Nat) : List Event :=
  (List.replicate count (.advance 5 :: calmTick slots)).flatten

/-- The session that a client opens between two ticks is reaped by the second
before it is counted, and the backend is stopped four seconds after it was sent a
datagram. -/
theorem idle_stop_of_active_backend :
    shortSessions.validate = .ok () ∧
    ¬ QuietStops shortSessions.idleTimeout ((⟨shortSessions, Sni.Rfc9001.crypto⟩ : Proxy).run 0
      (wakeRun 1 (.localhost 40000) testInitial shortSessions.backend ++ calmTicks 1 6 ++
        [.advance 1, .datagram (.localhost 40000) testInitial ⟨0, true, true⟩, .advance 4] ++
        calmTick 1)).log := by
  refine ⟨by decide +kernel, ?_⟩
  decide +kernel

/-- Sessions that outlive an empty backend: the backend is stopped once it has been
without a session for thirty seconds. -/
def longSessions : Config := { Config.default with idleTimeout := 30, sessionTimeout := 40 }

theorem idle_stops_quiet_longSessions :
    .idleStop 0 longSessions.backend 70 ∈
      ((⟨longSessions, Sni.Rfc9001.crypto⟩ : Proxy).run 0
        (wakeRun 1 (.localhost 40000) testInitial longSessions.backend ++ calmTicks 1 14)).log ∧
    QuietStops longSessions.idleTimeout ((⟨longSessions, Sni.Rfc9001.crypto⟩ : Proxy).run 0
      (wakeRun 1 (.localhost 40000) testInitial longSessions.backend ++ calmTicks 1 14)).log :=
  ⟨by decide +kernel, idle_stops_quiet ⟨longSessions, Sni.Rfc9001.crypto⟩ 0 _
    (countedBeforeReaped_of_le (by decide) 0 _)⟩

end Sleepytale
