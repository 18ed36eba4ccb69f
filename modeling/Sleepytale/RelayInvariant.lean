import Sleepytale.Relay
import Sleepytale.Lib.Lists

/-!
# Sessions and their return paths

`forward_cases` says everything one `forward_to_backend` can do, and
`Relay.WF` relates the session map to the sockets and tasks it has opened: a
session's task is the one spawned for it and was not aborted, and a task that
was neither aborted nor ended belongs to a session in the map.
-/

namespace Sleepytale

open Sleepytale.Net
open Sleepytale.Lib.Maps
open Sleepytale.Lib.Lists
open Std (ExtTreeMap)

/-- The task still runs: neither returned nor aborted. -/
def PathStatus.Alive : PathStatus → Prop
  | receiving => True
  | sending _ => True
  | ended => False
  | aborted => False

namespace Relay

/-- The three outcomes of `forward_to_backend`: the client has a session, a
session is opened, or no socket can be bound for one. -/
theorem forward_cases (relay : Relay) (now : Instant) (env : ForwardEnv)
    (client backend : SocketAddr) (datagram : Datagram) :
    (∃ session result, relay.sessions[client]? = some session ∧ result.isOk = env.sendOk ∧
      relay.forwardToBackend now env client backend datagram =
        ⟨relay.touch client session now, none, some session.backend, result⟩) ∨
    (∃ result, relay.sessions[client]? = none ∧ env.bindOk = true ∧ result.isOk = env.sendOk ∧
      relay.forwardToBackend now env client backend datagram =
        ⟨relay.openSession client backend now, some relay.sockets.length, some backend, result⟩) ∨
    (∃ result, relay.sessions[client]? = none ∧ env.bindOk = false ∧ result.isOk = false ∧
      relay.forwardToBackend now env client backend datagram = ⟨relay, none, none, result⟩) := by
  cases hs : relay.sessions[client]? with
  | some session =>
    refine Or.inl ⟨session, _, rfl, ?_, by simp only [forwardToBackend, sessionFor, hs]; rfl⟩
    cases env.sendOk <;> rfl
  | none =>
    cases hb : env.bindOk with
    | true =>
      refine Or.inr (Or.inl ⟨_, rfl, rfl, ?_, by simp [forwardToBackend, sessionFor, hs, hb]; rfl⟩)
      cases env.sendOk <;> rfl
    | false =>
      exact Or.inr (Or.inr ⟨.error "binding an upstream socket for a new session", rfl, rfl, rfl,
        by simp [forwardToBackend, sessionFor, hs, hb]⟩)

theorem sessions_forward_other (relay : Relay) (now : Instant) (env : ForwardEnv)
    (client backend : SocketAddr) (datagram : Datagram) {other : SocketAddr} (h : other ≠ client) :
    (relay.forwardToBackend now env client backend datagram).relay.sessions[other]? =
      relay.sessions[other]? := by
  rcases forward_cases relay now env client backend datagram with
    ⟨session, _, _, _, he⟩ | ⟨_, _, _, _, he⟩ | ⟨_, _, _, _, he⟩
  · rw [he]
    exact getElem?_insert_ne _ _ (Ne.symm h)
  · rw [he]
    exact getElem?_insert_ne _ _ (Ne.symm h)
  · rw [he]

/-- Where `forward_to_backend` sends a datagram for `backend`: to the backend of the
client's session, or else to `backend` if a socket can be bound. -/
def destFor (relay : Relay) (env : ForwardEnv) (client backend : SocketAddr) :
    Option SocketAddr :=
  (relay.sessionBackend client).or (if env.bindOk then some backend else none)

theorem forward_destFor (relay : Relay) (now : Instant) (env : ForwardEnv)
    (client backend : SocketAddr) (datagram : Datagram) :
    (relay.forwardToBackend now env client backend datagram).dest =
      relay.destFor env client backend := by
  rw [destFor, sessionBackend]
  rcases forward_cases relay now env client backend datagram with
    ⟨session, _, hs, _, he⟩ | ⟨_, hs, hbind, _, he⟩ | ⟨_, hs, hbind, _, he⟩
  · rw [he, hs]
    rfl
  · rw [he, hs, hbind]
    rfl
  · rw [he, hs, hbind]
    rfl

/-- How the session map, the sockets and the tasks fit together. -/
structure WF (relay : Relay) : Prop where
  lengths : relay.tasks.length = relay.sockets.length
  reads_own : ∀ (i : Nat) (task : ReturnPath), relay.tasks[i]? = some task → task.upstream = i
  bound_for : ∀ (i : Nat) (task : ReturnPath) (socket : Upstream),
    relay.tasks[i]? = some task → relay.sockets[i]? = some socket → socket.client = task.client
  session_path : ∀ (client : SocketAddr) (session : Session),
    relay.sessions[client]? = some session →
    session.returnPath = session.upstream ∧
    ∃ task : ReturnPath, relay.tasks[session.returnPath]? = some task ∧ task.client = client ∧
      task.status ≠ .aborted
  session_socket : ∀ (client : SocketAddr) (session : Session),
    relay.sessions[client]? = some session →
    ∃ socket : Upstream, relay.sockets[session.upstream]? = some socket ∧
      socket.client = client ∧ socket.backend = session.backend
  alive_session : ∀ (i : Nat) (task : ReturnPath), relay.tasks[i]? = some task →
    task.status.Alive →
    ∃ session : Session, relay.sessions[task.client]? = some session ∧ session.returnPath = i

theorem wf_new (timeout : Duration) : (Relay.new timeout).WF := by
  constructor <;> simp [Relay.new]

/-- Sessions after `touch`: the same ones, up to when they were last seen. -/
theorem sessions_touch {relay : Relay} {client : SocketAddr} {session : Session}
    (h : relay.sessions[client]? = some session) (now : Instant) (c : SocketAddr) :
    (relay.touch client session now).sessions[c]? =
      relay.sessions[c]?.map fun s => if client = c then { s with lastSeen := now } else s := by
  simp only [touch, getElem?_insert_eq]
  by_cases hc : client = c
  · subst hc
    simp [h]
  · simp [hc]

theorem wf_touch {relay : Relay} (hw : relay.WF) {client : SocketAddr} {session : Session}
    (h : relay.sessions[client]? = some session) (now : Instant) :
    (relay.touch client session now).WF := by
  have hget : ∀ (c : SocketAddr) (s : Session),
      (relay.touch client session now).sessions[c]? = some s →
      ∃ s' : Session, relay.sessions[c]? = some s' ∧ s'.upstream = s.upstream ∧
        s'.returnPath = s.returnPath ∧ s'.backend = s.backend := by
    intro c s hc
    rw [sessions_touch h, Option.map_eq_some_iff] at hc
    obtain ⟨s', hs', rfl⟩ := hc
    refine ⟨s', hs', ?_⟩
    split <;> exact ⟨rfl, rfl, rfl⟩
  refine ⟨hw.lengths, hw.reads_own, hw.bound_for, ?_, ?_, ?_⟩
  · intro c s hc
    obtain ⟨s', hs', hu, hr, _⟩ := hget c s hc
    rw [← hu, ← hr]
    exact hw.session_path c s' hs'
  · intro c s hc
    obtain ⟨s', hs', hu, _, hb⟩ := hget c s hc
    rw [← hu, ← hb]
    exact hw.session_socket c s' hs'
  · intro i task ht ha
    obtain ⟨s, hs, hr⟩ := hw.alive_session i task ht ha
    rw [sessions_touch h, hs]
    refine ⟨_, rfl, ?_⟩
    split <;> exact hr

theorem sessions_openSession (relay : Relay) (client backend : SocketAddr) (now : Instant)
    (c : SocketAddr) :
    (relay.openSession client backend now).sessions[c]? =
      if client = c then some ⟨relay.sockets.length, backend, relay.tasks.length, now⟩
      else relay.sessions[c]? := by
  simp only [openSession, getElem?_insert_eq]

theorem wf_openSession {relay : Relay} (hw : relay.WF) {client : SocketAddr}
    (h : relay.sessions[client]? = none) (backend : SocketAddr) (now : Instant) :
    (relay.openSession client backend now).WF := by
  have hl := hw.lengths
  refine ⟨?_, ?_, ?_, ?_, ?_, ?_⟩
  · simp [openSession, hl]
  · intro i task ht
    rcases getElem?_concat_some ht with ht | ⟨rfl, rfl⟩
    · exact hw.reads_own i task ht
    · exact hl.symm
  · intro i task socket ht hs
    rcases getElem?_concat_some ht with ht | ⟨rfl, rfl⟩ <;>
      rcases getElem?_concat_some hs with hs | ⟨hi, rfl⟩
    · exact hw.bound_for i task socket ht hs
    · rw [List.getElem?_eq_none (by omega)] at ht
      cases ht
    · rw [List.getElem?_eq_none (by omega)] at hs
      cases hs
    · rfl
  · intro c s hc
    rw [sessions_openSession] at hc
    split at hc
    · next he =>
      subst he
      obtain rfl := Option.some.inj hc
      exact ⟨hl, _, List.getElem?_concat_length, rfl, by simp⟩
    · obtain ⟨hr, task, ht, hrest⟩ := hw.session_path c s hc
      exact ⟨hr, task, getElem?_append_of_some ht _, hrest⟩
  · intro c s hc
    rw [sessions_openSession] at hc
    split at hc
    · next he =>
      subst he
      obtain rfl := Option.some.inj hc
      exact ⟨_, List.getElem?_concat_length, rfl, rfl⟩
    · obtain ⟨socket, hk, hrest⟩ := hw.session_socket c s hc
      exact ⟨socket, getElem?_append_of_some hk _, hrest⟩
  · intro i task ht ha
    rw [sessions_openSession]
    rcases getElem?_concat_some ht with ht | ⟨rfl, rfl⟩
    · obtain ⟨s, hs, hr⟩ := hw.alive_session i task ht ha
      have hne : client ≠ task.client := by
        rintro rfl
        rw [h] at hs
        cases hs
      exact ⟨s, by rw [if_neg hne]; exact hs, hr⟩
    · exact ⟨_, if_pos rfl, rfl⟩

/-- The session map after `retain`. -/
theorem sessions_retain (relay : Relay) (keep : SocketAddr → Session → Bool) (c : SocketAddr) :
    (relay.retain keep).sessions[c]? = relay.sessions[c]?.filter (keep c) := by
  simp only [retain, ExtTreeMap.getElem?_filter']

theorem sessions_retain_some {relay : Relay} {keep : SocketAddr → Session → Bool}
    {c : SocketAddr} {s : Session} :
    (relay.retain keep).sessions[c]? = some s ↔
      relay.sessions[c]? = some s ∧ keep c s = true := by
  rw [sessions_retain, Option.filter_eq_some_iff]

/-- The task list after `retain`: those of the removed sessions are aborted. -/
theorem tasks_retain {relay : Relay} {keep : SocketAddr → Session → Bool} {i : Nat}
    {task : ReturnPath} (h : (relay.retain keep).tasks[i]? = some task) :
    ∃ task' : ReturnPath, relay.tasks[i]? = some task' ∧
      ((∃ (c : SocketAddr) (s : Session), relay.sessions[c]? = some s ∧ keep c s = false ∧
          s.returnPath = i) ∧ task = task'.abort ∨
        (∀ (c : SocketAddr) (s : Session), relay.sessions[c]? = some s → s.returnPath = i →
          keep c s = true) ∧ task = task') := by
  simp only [retain, List.getElem?_mapIdx, Option.map_eq_some_iff] at h
  obtain ⟨task', ht, rfl⟩ := h
  refine ⟨task', ht, ?_⟩
  have hmem : i ∈ ((relay.sessions.filter fun c s => !keep c s).toList.map (·.2.returnPath)) ↔
      ∃ (c : SocketAddr) (s : Session), relay.sessions[c]? = some s ∧ keep c s = false ∧
        s.returnPath = i := by
    simp only [List.mem_map, Prod.exists, ExtTreeMap.mem_toList_iff_getElem?_eq_some,
      ExtTreeMap.getElem?_filter', Option.filter_eq_some_iff, Bool.not_eq_true', and_assoc]
  by_cases hi : i ∈ ((relay.sessions.filter fun c s => !keep c s).toList.map (·.2.returnPath))
  · exact Or.inl ⟨hmem.mp hi, if_pos hi⟩
  · refine Or.inr ⟨fun c s hs hr => ?_, if_neg hi⟩
    by_contra hk
    exact hi (hmem.mpr ⟨c, s, hs, by simpa using hk, hr⟩)

theorem abort_alive {task : ReturnPath} (h : task.abort.status.Alive) : False := by
  rcases task with ⟨client, upstream, status⟩
  cases status <;> exact h

theorem wf_retain {relay : Relay} (hw : relay.WF) (keep : SocketAddr → Session → Bool) :
    (relay.retain keep).WF := by
  have hlen : (relay.retain keep).tasks.length = relay.tasks.length := by simp [retain]
  have hends : ∀ task : ReturnPath, task.abort.client = task.client ∧
      task.abort.upstream = task.upstream := by
    rintro ⟨client, upstream, status⟩
    cases status <;> exact ⟨rfl, rfl⟩
  refine ⟨by rw [hlen]; exact hw.lengths, ?_, ?_, ?_, ?_, ?_⟩
  · intro i task ht
    obtain ⟨task', ht', ⟨_, rfl⟩ | ⟨_, rfl⟩⟩ := tasks_retain ht
    · rw [(hends task').2]
      exact hw.reads_own i task' ht'
    · exact hw.reads_own i task ht'
  · intro i task socket ht hs
    obtain ⟨task', ht', ⟨_, rfl⟩ | ⟨_, rfl⟩⟩ := tasks_retain ht
    · rw [(hends task').1]
      exact hw.bound_for i task' socket ht' hs
    · exact hw.bound_for i task socket ht' hs
  · intro c s hc
    obtain ⟨hs, hk⟩ := sessions_retain_some.mp hc
    obtain ⟨hr, task, ht, hclient, hstatus⟩ := hw.session_path c s hs
    obtain ⟨task₁, ht₁⟩ := exists_getElem?_of_length_eq hlen ht
    obtain ⟨task₂, ht₂, ⟨⟨c', s', hs', hk', hr'⟩, _⟩ | ⟨_, rfl⟩⟩ := tasks_retain ht₁
    · obtain ⟨_, task₃, ht₃, hclient', _⟩ := hw.session_path c' s' hs'
      rw [hr', ht, Option.some.injEq] at ht₃
      obtain rfl : c = c' := by rw [← hclient, ← hclient', ht₃]
      rw [hs, Option.some.injEq] at hs'
      rw [← hs', hk] at hk'
      cases hk'
    · rw [ht, Option.some.injEq] at ht₂
      subst ht₂
      exact ⟨hr, task, ht₁, hclient, hstatus⟩
  · intro c s hc
    exact hw.session_socket c s (sessions_retain_some.mp hc).1
  · intro i task ht ha
    obtain ⟨task', ht', ⟨_, rfl⟩ | ⟨hk, rfl⟩⟩ := tasks_retain ht
    · exact (abort_alive ha).elim
    · obtain ⟨s, hs, hr⟩ := hw.alive_session i task ht' ha
      exact ⟨s, sessions_retain_some.mpr ⟨hs, hk _ _ hs hr⟩, hr⟩

/-- A step on the upstream side moves tasks and queues only: sessions stay, as
do the ends of every socket and task, and no task comes back to life. -/
structure PathFrame (relay relay' : Relay) : Prop where
  sessions : relay'.sessions = relay.sessions
  tasks_length : relay'.tasks.length = relay.tasks.length
  sockets_length : relay'.sockets.length = relay.sockets.length
  tasks : ∀ (i : Nat) (task' : ReturnPath), relay'.tasks[i]? = some task' →
    ∃ task : ReturnPath, relay.tasks[i]? = some task ∧ task'.client = task.client ∧
      task'.upstream = task.upstream ∧ (task'.status.Alive → task.status.Alive) ∧
      (task'.status = .aborted → task.status = .aborted)
  sockets : ∀ (i : Nat) (socket' : Upstream), relay'.sockets[i]? = some socket' →
    ∃ socket : Upstream, relay.sockets[i]? = some socket ∧ socket'.client = socket.client ∧
      socket'.backend = socket.backend

theorem PathFrame.refl (relay : Relay) : PathFrame relay relay where
  sessions := rfl
  tasks_length := rfl
  sockets_length := rfl
  tasks := fun _ task h => ⟨task, h, rfl, rfl, id, id⟩
  sockets := fun _ socket h => ⟨socket, h, rfl, rfl⟩

theorem PathFrame.wf {relay relay' : Relay} (h : PathFrame relay relay') (hw : relay.WF) :
    relay'.WF := by
  refine ⟨?_, ?_, ?_, ?_, ?_, ?_⟩
  · rw [h.tasks_length, h.sockets_length]
    exact hw.lengths
  · intro i task ht
    obtain ⟨task', ht', _, hu, _⟩ := h.tasks i task ht
    rw [hu]
    exact hw.reads_own i task' ht'
  · intro i task socket ht hs
    obtain ⟨task', ht', hc, _⟩ := h.tasks i task ht
    obtain ⟨socket', hs', hc', _⟩ := h.sockets i socket hs
    rw [hc, hc']
    exact hw.bound_for i task' socket' ht' hs'
  · intro c s hc
    rw [h.sessions] at hc
    obtain ⟨hr, task, ht, hclient, hstatus⟩ := hw.session_path c s hc
    obtain ⟨task', ht'⟩ := exists_getElem?_of_length_eq h.tasks_length ht
    obtain ⟨task₂, ht₂, hc₂, _, _, ha⟩ := h.tasks _ task' ht'
    rw [ht, Option.some.injEq] at ht₂
    subst ht₂
    exact ⟨hr, task', ht', by rw [hc₂, hclient], fun he => hstatus (ha he)⟩
  · intro c s hc
    rw [h.sessions] at hc
    obtain ⟨socket, hs, hclient, hb⟩ := hw.session_socket c s hc
    obtain ⟨socket', hs'⟩ := exists_getElem?_of_length_eq h.sockets_length hs
    obtain ⟨socket₂, hs₂, hc₂, hb₂⟩ := h.sockets _ socket' hs'
    rw [hs, Option.some.injEq] at hs₂
    subst hs₂
    exact ⟨socket', hs', by rw [hc₂, hclient], by rw [hb₂, hb]⟩
  · intro i task ht ha
    obtain ⟨task', ht', hc, _, hal, _⟩ := h.tasks i task ht
    rw [h.sessions, hc]
    exact hw.alive_session i task' ht' (hal ha)

theorem tasks_setStatus {relay : Relay} {id i : Nat} {status : PathStatus} {task' : ReturnPath}
    (h : (relay.setStatus id status).tasks[i]? = some task') :
    ∃ task : ReturnPath, relay.tasks[i]? = some task ∧
      task' = if id = i then { task with status := status } else task := by
  rw [setStatus, List.getElem?_modify] at h
  obtain ⟨task, ht, rfl⟩ := Option.map_eq_some_iff.mp h
  exact ⟨task, ht, rfl⟩

theorem pathFrame_setStatus {relay : Relay} {id : Nat} {task : ReturnPath}
    (h : relay.tasks[id]? = some task) (ha : task.status.Alive) {status : PathStatus}
    (hs : status ≠ .aborted) : PathFrame relay (relay.setStatus id status) where
  sessions := rfl
  tasks_length := by simp [setStatus]
  sockets_length := rfl
  tasks := by
    intro i task' ht
    obtain ⟨task₂, ht₂, rfl⟩ := tasks_setStatus ht
    refine ⟨task₂, ht₂, ?_⟩
    split
    · next he =>
      subst he
      rw [h, Option.some.injEq] at ht₂
      subst ht₂
      exact ⟨rfl, rfl, fun _ => ha, fun he => absurd he hs⟩
    · exact ⟨rfl, rfl, fun h => h, fun h => h⟩
  sockets := fun _ socket h => ⟨socket, h, rfl, rfl⟩

theorem pathFrame_arrive (relay : Relay) (socket : SocketId) (source : SocketAddr)
    (datagram : Datagram) : PathFrame relay (relay.arrive socket source datagram) := by
  unfold arrive
  split
  · refine ⟨rfl, rfl, by simp, fun _ task h => ⟨task, h, rfl, rfl, id, id⟩, ?_⟩
    intro i upstream h
    rw [List.getElem?_modify] at h
    obtain ⟨upstream', hu, rfl⟩ := Option.map_eq_some_iff.mp h
    refine ⟨upstream', hu, ?_⟩
    split <;> exact ⟨rfl, rfl⟩
  · exact PathFrame.refl relay

/-- The three ways a `receive` step can go: the task was not in `recv` or had
nothing to take, it ended on an error, or it took the oldest waiting datagram. -/
theorem receive_cases (relay : Relay) (id : TaskId) (ok : Bool) :
    relay.receive id ok = relay ∨
    (∃ (client : SocketAddr) (socket : SocketId),
      relay.tasks[id]? = some ⟨client, socket, .receiving⟩ ∧ ok = false ∧
      relay.receive id ok = relay.setStatus id .ended) ∨
    (∃ (client : SocketAddr) (socket : SocketId) (upstream : Upstream) (arrival : Arrival)
        (inbox : List Arrival),
      relay.tasks[id]? = some ⟨client, socket, .receiving⟩ ∧ ok = true ∧
      relay.sockets[socket]? = some upstream ∧ upstream.inbox = arrival :: inbox ∧
      relay.receive id ok = { relay.setStatus id (.sending arrival) with
        sockets := relay.sockets.set socket { upstream with inbox := inbox } }) := by
  unfold receive
  split
  · next client socket ht =>
    cases ok with
    | false => exact Or.inr (Or.inl ⟨client, socket, ht, rfl, rfl⟩)
    | true =>
      simp only [if_true]
      split
      · next c b bind arrival inbox hs =>
        exact Or.inr (Or.inr ⟨client, socket, _, arrival, inbox, ht, trivial, hs, rfl, rfl⟩)
      · exact Or.inl rfl
  · exact Or.inl rfl

/-- A `reply` step does nothing, or completes the send of a task that has one
to do, and the task goes on exactly if the send succeeded. -/
theorem reply_cases (relay : Relay) (id : TaskId) (ok : Bool) :
    relay.reply id ok = relay ∨
    (∃ (client : SocketAddr) (socket : SocketId) (arrival : Arrival),
      relay.tasks[id]? = some ⟨client, socket, .sending arrival⟩ ∧
      relay.reply id ok = { relay.setStatus id (if ok then .receiving else .ended) with
        replies := relay.replies ++ [⟨socket, arrival, client, arrival.datagram, ok⟩] }) := by
  unfold reply
  split
  · next client socket arrival ht => exact Or.inr ⟨client, socket, arrival, ht, rfl⟩
  · exact Or.inl rfl

theorem pathFrame_receive (relay : Relay) (id : TaskId) (ok : Bool) :
    PathFrame relay (relay.receive id ok) := by
  rcases receive_cases relay id ok with h | ⟨client, socket, ht, _, h⟩ |
    ⟨client, socket, upstream, arrival, inbox, ht, _, hs, _, h⟩
  · rw [h]
    exact PathFrame.refl relay
  · rw [h]
    exact pathFrame_setStatus ht trivial (by simp)
  · rw [h]
    have hframe : PathFrame relay (relay.setStatus id (.sending arrival)) :=
      pathFrame_setStatus ht trivial (by simp)
    obtain ⟨hsess, hlen, _, htasks, _⟩ := hframe
    refine ⟨hsess, hlen, by simp, htasks, ?_⟩
    intro i upstream' hu
    rw [List.getElem?_set] at hu
    split at hu
    · next he =>
      subst he
      split at hu
      · obtain rfl := Option.some.inj hu
        exact ⟨upstream, hs, rfl, rfl⟩
      · cases hu
    · exact ⟨upstream', hu, rfl, rfl⟩

theorem pathFrame_reply (relay : Relay) (id : TaskId) (ok : Bool) :
    PathFrame relay (relay.reply id ok) := by
  rcases reply_cases relay id ok with h | ⟨client, socket, arrival, ht, h⟩
  · rw [h]
    exact PathFrame.refl relay
  · rw [h]
    have hstatus : (if ok then PathStatus.receiving else .ended) ≠ .aborted := by
      cases ok <;> simp
    obtain ⟨hsess, hlen, hsock, htasks, hsocks⟩ := pathFrame_setStatus ht trivial hstatus
    exact ⟨hsess, hlen, hsock, htasks, hsocks⟩

theorem pathFrame_path (relay : Relay) (act : PathAct) : PathFrame relay (relay.path act) := by
  cases act with
  | arrive socket source datagram => exact pathFrame_arrive relay socket source datagram
  | receive id ok => exact pathFrame_receive relay id ok
  | reply id ok => exact pathFrame_reply relay id ok

theorem wf_forward {relay : Relay} (hw : relay.WF) (now : Instant) (env : ForwardEnv)
    (client backend : SocketAddr) (datagram : Datagram) :
    (relay.forwardToBackend now env client backend datagram).relay.WF := by
  rcases forward_cases relay now env client backend datagram with
    ⟨session, _, hs, _, h⟩ | ⟨_, hs, _, _, h⟩ | ⟨_, _, _, _, h⟩
  · rw [h]
    exact wf_touch hw hs now
  · rw [h]
    exact wf_openSession hw hs backend now
  · rw [h]
    exact hw

/-- Sockets are only ever added. -/
theorem sockets_length_le (relay : Relay) (act : RelayAct) :
    relay.sockets.length ≤ (relay.step act).sockets.length := by
  cases act with
  | forward now env client backend datagram =>
    rcases forward_cases relay now env client backend datagram with
      ⟨_, _, _, _, h⟩ | ⟨_, _, _, _, h⟩ | ⟨_, _, _, _, h⟩ <;>
      simp [step, h, touch, openSession]
  | reap now => exact Nat.le_refl _
  | drop backend => exact Nat.le_refl _
  | clear => exact Nat.le_refl _
  | path act => exact Nat.le_of_eq (pathFrame_path relay act).sockets_length.symm

/-- Every step of the relay keeps it well formed. -/
theorem wf_step {relay : Relay} (hw : relay.WF) (act : RelayAct) : (relay.step act).WF := by
  cases act with
  | forward now env client backend datagram => exact wf_forward hw now env client backend datagram
  | reap now => exact wf_retain hw _
  | drop backend => exact wf_retain hw _
  | clear => exact wf_retain hw _
  | path act => exact (pathFrame_path relay act).wf hw

theorem wf_run (timeout : Duration) (acts : List RelayAct) :
    (Lib.Machine.run Relay.step (Relay.new timeout) acts).WF :=
  Lib.Machine.run_invariant WF (fun _ act hw => wf_step hw act) (wf_new timeout) acts

end Relay

end Sleepytale
