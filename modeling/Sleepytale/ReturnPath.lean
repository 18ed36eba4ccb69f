import Sleepytale.RelayInvariant

/-!
# What a return path does with the datagrams of its socket

Between arriving on an upstream socket and being sent to the client a datagram
is pending: in the socket's queue, or in the hands of the task that reads it.
`Flow` says that on every socket the datagrams sent to the client, followed by
the pending ones, are arrivals of that socket in their order of arrival. Hence
nothing is altered, nothing is sent twice, and what a running task is given it
passes on.
-/

namespace Sleepytale

open Sleepytale.Net
open Sleepytale.Lib.Maps
open Sleepytale.Lib.Lists
open Sleepytale.Lib.Machine
open Std (ExtTreeMap)

namespace Relay

/-- What ever arrived on a socket, oldest first. -/
def arrivedAt (relay : Relay) (socket : SocketId) : List Arrival :=
  (relay.arrivals.filter (·.1 = socket)).map (·.2)

/-- The arrivals of a socket that were handed to `public.send_to`. -/
def repliedFrom (relay : Relay) (socket : SocketId) : List Arrival :=
  (relay.replies.filter (·.upstream = socket)).map (·.arrival)

/-- The arrival a task holds between `recv` and the end of `send_to`. -/
def inHand (relay : Relay) (id : TaskId) : List Arrival :=
  match relay.tasks[id]? with
  | some ⟨_, _, .sending arrival⟩ => [arrival]
  | _ => []

def queued (relay : Relay) (socket : SocketId) : List Arrival :=
  match relay.sockets[socket]? with
  | some upstream => upstream.inbox
  | none => []

/-- A socket and the task that reads it have the same index. -/
def pending (relay : Relay) (socket : SocketId) : List Arrival :=
  relay.inHand socket ++ relay.queued socket

theorem pending_openSession {relay : Relay} (hw : relay.WF) (client backend : SocketAddr)
    (now : Instant) (k : SocketId) :
    (relay.openSession client backend now).pending k = relay.pending k := by
  have hl := hw.lengths
  have hhand : (relay.openSession client backend now).inHand k = relay.inHand k := by
    simp only [inHand, openSession]
    rcases Nat.lt_trichotomy k relay.tasks.length with hk | rfl | hk
    · rw [List.getElem?_append_left hk]
    · rw [List.getElem?_concat_length, List.getElem?_eq_none (Nat.le_refl _)]
    · rw [List.getElem?_eq_none (by simp; omega), List.getElem?_eq_none (by omega)]
  have hqueue : (relay.openSession client backend now).queued k = relay.queued k := by
    simp only [queued, openSession]
    rcases Nat.lt_trichotomy k relay.sockets.length with hk | rfl | hk
    · rw [List.getElem?_append_left hk]
    · rw [List.getElem?_concat_length, List.getElem?_eq_none (Nat.le_refl _)]
    · rw [List.getElem?_eq_none (by simp; omega), List.getElem?_eq_none (by omega)]
  rw [pending, pending, hhand, hqueue]

/-- Aborting a task can only lose what it had in hand. -/
theorem pending_retain (relay : Relay) (keep : SocketAddr → Session → Bool) (k : SocketId) :
    ((relay.retain keep).pending k).Sublist (relay.pending k) := by
  refine List.Sublist.append ?_ (List.Sublist.refl _)
  cases h : (relay.retain keep).tasks[k]? with
  | none => simp [inHand, h]
  | some task =>
    obtain ⟨task', ht', ⟨_, rfl⟩ | ⟨_, rfl⟩⟩ := tasks_retain h
    · have hnil : (relay.retain keep).inHand k = [] := by
        rcases task' with ⟨client, upstream, status⟩
        cases status <;> simp [inHand, h, ReturnPath.abort]
      rw [hnil]
      exact List.nil_sublist _
    · simp [inHand, h, ht']

theorem pending_arrive (relay : Relay) (socket : SocketId) (source : SocketAddr)
    (datagram : Datagram) (hs : socket < relay.sockets.length) (k : SocketId) :
    (relay.arrive socket source datagram).pending k =
      relay.pending k ++
        if socket = k then [⟨relay.arrivals.length, source, datagram⟩] else [] := by
  have hhand : (relay.arrive socket source datagram).inHand k = relay.inHand k := by
    simp only [inHand, arrive, if_pos hs]
  have hqueue : (relay.arrive socket source datagram).queued k = relay.queued k ++
      if socket = k then [⟨relay.arrivals.length, source, datagram⟩] else [] := by
    simp only [queued, arrive, if_pos hs, List.getElem?_modify]
    by_cases hk : socket = k
    · subst hk
      rw [List.getElem?_eq_getElem hs]
      simp
    · cases relay.sockets[k]? <;> simp [hk]
  rw [pending, pending, hhand, hqueue, List.append_assoc]

theorem inHand_setStatus (relay : Relay) (id : TaskId) (status : PathStatus) (k : TaskId) :
    (relay.setStatus id status).inHand k =
      if id = k then
        (match relay.tasks[id]?, status with
          | some _, .sending arrival => [arrival]
          | _, _ => [])
      else relay.inHand k := by
  simp only [inHand, setStatus, List.getElem?_modify]
  by_cases hk : id = k
  · subst hk
    cases relay.tasks[id]? with
    | none => simp
    | some task => cases status <;> simp
  · cases relay.tasks[k]? <;> simp [hk]

/-- Receiving moves a datagram from the queue to the task's hand. -/
theorem pending_receive {relay : Relay} (hw : relay.WF) (id : TaskId) (ok : Bool)
    (k : SocketId) : (relay.receive id ok).pending k = relay.pending k := by
  rcases receive_cases relay id ok with h | ⟨client, socket, ht, _, h⟩ |
    ⟨client, socket, upstream, arrival, inbox, ht, _, hs, hin, h⟩
  · rw [h]
  · have hhand : (relay.setStatus id .ended).inHand k = relay.inHand k := by
      rw [inHand_setStatus]
      split
      · next hk =>
        subst hk
        simp [inHand, ht]
      · rfl
    rw [h, pending, pending, hhand]
    rfl
  · obtain rfl : socket = id := hw.reads_own id _ ht
    have hlt : socket < relay.sockets.length := (List.getElem?_eq_some_iff.mp hs).1
    rw [h, pending, pending]
    change (relay.setStatus socket (.sending arrival)).inHand k ++ _ = _
    rw [inHand_setStatus]
    by_cases hk : socket = k
    · subst hk
      have hq : relay.queued socket = arrival :: inbox := by simp only [queued, hs, hin]
      rw [hq]
      simp [queued, inHand, ht, hlt]
    · simp [queued, hk]

/-- A completed send takes the task's arrival out of its hand, into the replies. -/
theorem pending_reply {relay : Relay} {id : TaskId} {client : SocketAddr} {socket : SocketId}
    {arrival : Arrival} (ht : relay.tasks[id]? = some ⟨client, socket, .sending arrival⟩)
    (ok : Bool) (k : SocketId) :
    relay.pending k = (if id = k then [arrival] else []) ++ (relay.reply id ok).pending k := by
  have hreply : (relay.reply id ok).pending k =
      (relay.setStatus id (if ok then .receiving else .ended)).inHand k ++ relay.queued k := by
    unfold reply
    rw [ht]
    rfl
  rw [hreply, inHand_setStatus, pending]
  by_cases hk : id = k
  · subst hk
    cases ok <;> simp [inHand, ht]
  · simp [hk]

/-- Nothing but `reply` adds to the replies, and nothing but `arrive` to the arrivals. -/
structure Flow (relay : Relay) : Prop where
  numbered : (relay.arrivals.map fun entry => entry.2.number) = List.range relay.arrivals.length
  ordered : ∀ k : SocketId,
    (relay.repliedFrom k ++ relay.pending k).Sublist (relay.arrivedAt k)

theorem flow_new (timeout : Duration) : (Relay.new timeout).Flow := by
  constructor
  · rfl
  · intro k
    exact List.Sublist.refl _

theorem flow_of_pending {relay relay' : Relay} (hf : relay.Flow)
    (ha : relay'.arrivals = relay.arrivals) (hr : relay'.replies = relay.replies)
    (hp : ∀ k, (relay'.pending k).Sublist (relay.pending k)) : relay'.Flow := by
  constructor
  · rw [ha]
    exact hf.numbered
  · intro k
    have hre : relay'.repliedFrom k = relay.repliedFrom k := by rw [repliedFrom, hr, repliedFrom]
    have har : relay'.arrivedAt k = relay.arrivedAt k := by rw [arrivedAt, ha, arrivedAt]
    rw [hre, har]
    exact (List.Sublist.append (List.Sublist.refl _) (hp k)).trans (hf.ordered k)

theorem flow_arrive {relay : Relay} (hf : relay.Flow) (socket : SocketId) (source : SocketAddr)
    (datagram : Datagram) : (relay.arrive socket source datagram).Flow := by
  by_cases hs : socket < relay.sockets.length
  · have har : (relay.arrive socket source datagram).arrivals =
        relay.arrivals ++ [(socket, ⟨relay.arrivals.length, source, datagram⟩)] := by
      simp only [arrive, if_pos hs]
    have hre : (relay.arrive socket source datagram).replies = relay.replies := by
      simp only [arrive, if_pos hs]
    constructor
    · rw [har, List.map_append, hf.numbered, List.length_append]
      exact List.range_succ.symm
    · intro k
      rw [repliedFrom, hre, pending_arrive _ _ _ _ hs, arrivedAt, har, List.filter_append,
        List.map_append, ← List.append_assoc]
      refine List.Sublist.append (hf.ordered k) ?_
      by_cases hk : socket = k <;> simp [hk]
  · rw [arrive, if_neg hs]
    exact hf

theorem flow_reply {relay : Relay} (hw : relay.WF) (hf : relay.Flow) (id : TaskId) (ok : Bool) :
    (relay.reply id ok).Flow := by
  rcases reply_cases relay id ok with h | ⟨client, socket, arrival, ht, h⟩
  · rw [h]
    exact hf
  · obtain rfl : socket = id := hw.reads_own id _ ht
    have har : (relay.reply socket ok).arrivals = relay.arrivals := by rw [h]; rfl
    have hre : (relay.reply socket ok).replies =
        relay.replies ++ [⟨socket, arrival, client, arrival.datagram, ok⟩] := by rw [h]
    constructor
    · rw [har]
      exact hf.numbered
    · intro k
      have hk := hf.ordered k
      rw [pending_reply ht ok k] at hk
      rw [arrivedAt, har, repliedFrom, hre, List.filter_append, List.map_append, List.append_assoc]
      by_cases he : socket = k
      · subst he
        simpa [repliedFrom, arrivedAt] using hk
      · simpa [repliedFrom, arrivedAt, he] using hk

theorem flow_step {relay : Relay} (hw : relay.WF) (hf : relay.Flow) (act : RelayAct) :
    (relay.step act).Flow := by
  cases act with
  | forward now env client backend datagram =>
    rcases forward_cases relay now env client backend datagram with
      ⟨session, _, _, _, h⟩ | ⟨_, _, _, _, h⟩ | ⟨_, _, _, _, h⟩
    all_goals simp only [step, h]
    · exact flow_of_pending hf rfl rfl fun k => List.Sublist.refl _
    · refine flow_of_pending hf rfl rfl fun k => ?_
      rw [pending_openSession hw]
    · exact hf
  | reap now => exact flow_of_pending hf rfl rfl fun k => pending_retain relay _ k
  | drop backend => exact flow_of_pending hf rfl rfl fun k => pending_retain relay _ k
  | clear => exact flow_of_pending hf rfl rfl fun k => pending_retain relay _ k
  | path act =>
    cases act with
    | arrive socket source datagram => exact flow_arrive hf socket source datagram
    | receive id ok =>
      refine flow_of_pending hf ?_ ?_ fun k => ?_
      · rcases receive_cases relay id ok with h | ⟨_, _, _, _, h⟩ | ⟨_, _, _, _, _, _, _, _, _, h⟩ <;>
          simp only [step, path, h, setStatus]
      · rcases receive_cases relay id ok with h | ⟨_, _, _, _, h⟩ | ⟨_, _, _, _, _, _, _, _, _, h⟩ <;>
          simp only [step, path, h, setStatus]
      · rw [step, path, pending_receive hw]
    | reply id ok => exact flow_reply hw hf id ok

/-- Every pending datagram of a session in the map came from its backend. -/
def Pure (relay : Relay) : Prop :=
  ∀ (client : SocketAddr) (session : Session), relay.sessions[client]? = some session →
    ∀ arrival ∈ relay.pending session.upstream, arrival.source = session.backend

/-- What reaches the upstream socket of a session in the map was sent by the
backend the session is pinned to. -/
def FromBackend (relay : Relay) : RelayAct → Prop
  | .path (.arrive socket source _) =>
      ∀ (client : SocketAddr) (session : Session), relay.sessions[client]? = some session →
        session.upstream = socket → source = session.backend
  | _ => True

theorem pure_forward {relay : Relay} (hw : relay.WF) (hp : relay.Pure) (now : Instant)
    (env : ForwardEnv) (client backend : SocketAddr) (datagram : Datagram) :
    (relay.forwardToBackend now env client backend datagram).relay.Pure := by
  rcases forward_cases relay now env client backend datagram with
    ⟨session, _, hs, _, h⟩ | ⟨_, hs, _, _, h⟩ | ⟨_, _, _, _, h⟩
  all_goals simp only [h]
  · intro c s hc arrival ha
    rw [sessions_touch hs, Option.map_eq_some_iff] at hc
    obtain ⟨s', hs', rfl⟩ := hc
    by_cases he : client = c
    · rw [if_pos he] at ha ⊢
      exact hp c s' hs' arrival ha
    · rw [if_neg he] at ha ⊢
      exact hp c s' hs' arrival ha
  · intro c s hc arrival ha
    rw [pending_openSession hw] at ha
    rw [sessions_openSession] at hc
    split at hc
    · obtain rfl := Option.some.inj hc
      have hnil : relay.pending relay.sockets.length = [] := by
        simp [pending, inHand, queued, hw.lengths]
      rw [hnil] at ha
      cases ha
    · exact hp c s hc arrival ha
  · exact hp

theorem pure_retain {relay : Relay} (hp : relay.Pure) (keep : SocketAddr → Session → Bool) :
    (relay.retain keep).Pure := by
  intro c s hc arrival ha
  exact hp c s (sessions_retain_some.mp hc).1 arrival ((pending_retain relay keep _).subset ha)

theorem pure_step {relay : Relay} (hw : relay.WF) (hp : relay.Pure) {act : RelayAct}
    (hc : relay.FromBackend act) : (relay.step act).Pure := by
  cases act with
  | forward now env client backend datagram => exact pure_forward hw hp now env client backend datagram
  | reap now => exact pure_retain hp _
  | drop backend => exact pure_retain hp _
  | clear => exact pure_retain hp _
  | path act =>
    intro c s hs arrival ha
    rw [step, (pathFrame_path relay act).sessions] at hs
    cases act with
    | arrive socket source datagram =>
      by_cases hk : socket < relay.sockets.length
      · rw [step, path, pending_arrive _ _ _ _ hk, List.mem_append] at ha
        rcases ha with ha | ha
        · exact hp c s hs arrival ha
        · split at ha
          · next he =>
            rw [List.mem_singleton.mp ha]
            exact hc c s hs he.symm
          · cases ha
      · rw [step, path, arrive, if_neg hk] at ha
        exact hp c s hs arrival ha
    | receive id ok =>
      rw [step, path, pending_receive hw] at ha
      exact hp c s hs arrival ha
    | reply id ok =>
      rcases reply_cases relay id ok with h | ⟨client, socket, sent, ht, h⟩
      · rw [step, path, h] at ha
        exact hp c s hs arrival ha
      · refine hp c s hs arrival ?_
        rw [pending_reply ht ok]
        exact List.mem_append_right _ ha

/-- One send of the public socket is what it should be: the datagram is an
arrival on the upstream socket of a session of the client that is in the map,
unaltered, sent by the session's backend, and it was not sent before. -/
def Provenance (relay : Relay) (reply : Reply) : Prop :=
  ∃ session : Session, relay.sessions[reply.client]? = some session ∧
    session.upstream = reply.upstream ∧
    (session.upstream, reply.arrival) ∈ relay.arrivals ∧
    reply.datagram = reply.arrival.datagram ∧
    reply.arrival.source = session.backend ∧
    ∀ earlier ∈ relay.replies, earlier.arrival.number ≠ reply.arrival.number

/-- The sends of the public socket that a step makes. -/
def sends (relay : Relay) (act : RelayAct) : List Reply :=
  (relay.step act).replies.drop relay.replies.length

/-- Only a return path that has a datagram in hand sends. -/
theorem mem_sends {relay : Relay} {act : RelayAct} {reply : Reply} (h : reply ∈ relay.sends act) :
    ∃ (id : TaskId) (ok : Bool) (client : SocketAddr) (socket : SocketId) (arrival : Arrival),
      act = .path (.reply id ok) ∧
      relay.tasks[id]? = some ⟨client, socket, .sending arrival⟩ ∧
      reply = ⟨socket, arrival, client, arrival.datagram, ok⟩ := by
  have hsame : (relay.step act).replies = relay.replies → False := by
    intro he
    rw [sends, he, List.drop_length] at h
    cases h
  cases act with
  | forward now env client backend datagram =>
    exfalso
    refine hsame ?_
    rcases forward_cases relay now env client backend datagram with
      ⟨_, _, _, _, h⟩ | ⟨_, _, _, _, h⟩ | ⟨_, _, _, _, h⟩ <;> simp only [step, h] <;> rfl
  | reap now => exact (hsame rfl).elim
  | drop backend => exact (hsame rfl).elim
  | clear => exact (hsame rfl).elim
  | path act =>
    cases act with
    | arrive socket source datagram =>
      refine (hsame ?_).elim
      simp only [step, path, arrive]
      split <;> rfl
    | receive id ok =>
      refine (hsame ?_).elim
      rcases receive_cases relay id ok with h | ⟨_, _, _, _, h⟩ | ⟨_, _, _, _, _, _, _, _, _, h⟩ <;>
        simp only [step, path, h, setStatus]
    | reply id ok =>
      rcases reply_cases relay id ok with he | ⟨client, socket, arrival, ht, he⟩
      · exact (hsame (congrArg replies he)).elim
      · refine ⟨id, ok, client, socket, arrival, rfl, ht, ?_⟩
        simpa [sends, step, path, he, setStatus] using h

theorem mem_arrivedAt {relay : Relay} {k : SocketId} {arrival : Arrival} :
    arrival ∈ relay.arrivedAt k ↔ (k, arrival) ∈ relay.arrivals := by
  simp [arrivedAt]

/-- Arrivals are told apart by their numbers. -/
theorem Flow.arrival_unique {relay : Relay} (hf : relay.Flow) {k k' : SocketId}
    {a a' : Arrival} (h : (k, a) ∈ relay.arrivals) (h' : (k', a') ∈ relay.arrivals)
    (hn : a.number = a'.number) : k = k' := by
  have hnodup : (relay.arrivals.map fun entry => entry.2.number).Nodup := by
    rw [hf.numbered]
    exact List.nodup_range
  have := List.inj_on_of_nodup_map hnodup h h' hn
  exact congrArg Prod.fst this

/-- No arrival is both sent and pending. -/
theorem Flow.not_replied {relay : Relay} (hf : relay.Flow) {k : SocketId} {a a' : Arrival}
    (h : a ∈ relay.repliedFrom k) (h' : a' ∈ relay.pending k) : a.number ≠ a'.number := by
  have hnodup : (relay.arrivals.map fun entry => entry.2.number).Nodup := by
    rw [hf.numbered]
    exact List.nodup_range
  have hsub : ((relay.repliedFrom k ++ relay.pending k).map (·.number)).Sublist
      (relay.arrivals.map fun entry => entry.2.number) := by
    have hmap := (hf.ordered k).map (·.number)
    rw [arrivedAt, List.map_map] at hmap
    exact hmap.trans (List.filter_sublist.map _)
  have hdis := hnodup.sublist hsub
  rw [List.map_append, List.nodup_append] at hdis
  exact hdis.2.2 _ (List.mem_map_of_mem h) _ (List.mem_map_of_mem h')

/-- What holds of a send in every run, whoever sent the datagrams. -/
theorem sends_of_flow {relay : Relay} (hw : relay.WF) (hf : relay.Flow) {act : RelayAct}
    {reply : Reply} (h : reply ∈ relay.sends act) :
    ∃ session : Session, relay.sessions[reply.client]? = some session ∧
      session.upstream = reply.upstream ∧
      reply.arrival ∈ relay.pending session.upstream ∧
      (session.upstream, reply.arrival) ∈ relay.arrivals ∧
      reply.datagram = reply.arrival.datagram ∧
      ∀ earlier ∈ relay.replies, earlier.arrival.number ≠ reply.arrival.number := by
  obtain ⟨id, ok, client, socket, arrival, rfl, ht, rfl⟩ := mem_sends h
  obtain ⟨session, hs, hr⟩ := hw.alive_session id _ ht trivial
  have hup : session.upstream = id := by rw [← (hw.session_path _ _ hs).1, hr]
  obtain rfl : socket = id := hw.reads_own id _ ht
  have hpend : arrival ∈ relay.pending socket := by
    simp [pending, inHand, ht]
  have harr : (socket, arrival) ∈ relay.arrivals :=
    mem_arrivedAt.mp ((hf.ordered socket).subset (List.mem_append_right _ hpend))
  refine ⟨session, hs, hup, by rw [hup]; exact hpend, by rw [hup]; exact harr, rfl, ?_⟩
  intro earlier he hn
  have hearlier : earlier.arrival ∈ relay.repliedFrom earlier.upstream := by
    simp only [repliedFrom, List.mem_map, List.mem_filter, decide_eq_true_eq]
    exact ⟨earlier, ⟨he, rfl⟩, rfl⟩
  have harr' : (earlier.upstream, earlier.arrival) ∈ relay.arrivals :=
    mem_arrivedAt.mp ((hf.ordered _).subset (List.mem_append_left _ hearlier))
  rw [hf.arrival_unique harr' harr hn] at hearlier
  exact hf.not_replied hearlier hpend hn

theorem sound_run (timeout : Duration) (acts : List RelayAct) :
    (run Relay.step (Relay.new timeout) acts).WF ∧
      (run Relay.step (Relay.new timeout) acts).Flow :=
  run_invariant (fun relay : Relay => relay.WF ∧ relay.Flow)
    (fun _ act h => ⟨wf_step h.1 act, flow_step h.1 h.2 act⟩)
    ⟨wf_new timeout, flow_new timeout⟩ acts

theorem pure_run (timeout : Duration) {acts : List RelayAct}
    (hc : AllSteps Relay.step FromBackend (Relay.new timeout) acts) :
    (run Relay.step (Relay.new timeout) acts).Pure := by
  refine (run_invariant_of (fun relay : Relay => relay.WF ∧ relay.Pure) ?_ ⟨wf_new timeout, ?_⟩ hc).2
  · intro relay act h hact
    exact ⟨wf_step h.1 act, pure_step h.1 h.2 hact⟩
  · intro client session hs
    simp [Relay.new] at hs

/-- Every datagram the public socket sends in the run, at the moment it is sent. -/
def RepliesFromBackend (timeout : Duration) (acts : List RelayAct) : Prop :=
  ∀ (before : List RelayAct) (act : RelayAct), before ++ [act] <+: acts →
    ∀ reply ∈ (run Relay.step (Relay.new timeout) before).sends act,
      (run Relay.step (Relay.new timeout) before).Provenance reply

/-- In a run in which only its backend writes to the upstream socket of a
session, every send of the public socket is a reply of that backend. -/
theorem replies_from_backend (timeout : Duration) (acts : List RelayAct)
    (hc : AllSteps Relay.step FromBackend (Relay.new timeout) acts) :
    RepliesFromBackend timeout acts := by
  intro before act hpre reply hr
  obtain ⟨rest, rfl⟩ := hpre
  rw [allSteps_append, allSteps_snoc] at hc
  have hp := pure_run timeout hc.1.1
  obtain ⟨hw, hf⟩ := sound_run timeout before
  obtain ⟨session, hs, hu, hpend, harr, hd, hfresh⟩ := sends_of_flow hw hf hr
  exact ⟨session, hs, hu, harr, hd, hp _ _ hs _ hpend, hfresh⟩

/-- One client, one backend, and one datagram from `source` on the session's
socket, passed on to the client. -/
def replyRun (source : SocketAddr) : List RelayAct :=
  [.forward 5 ⟨0, true, true⟩ (.localhost 40000) (.localhost 5521) ⟨[0xc0], by decide⟩,
    .path (.arrive 0 source ⟨[0x40, 0x01], by decide⟩),
    .path (.receive 0 true),
    .path (.reply 0 true)]

theorem replies_from_backend_replyRun :
    RepliesFromBackend 60 (replyRun (.localhost 5521)) ∧
      (run Relay.step (Relay.new 60) (replyRun (.localhost 5521))).replies.map (·.client) =
        [.localhost 40000] := by
  refine ⟨replies_from_backend 60 _ ?_, by decide +kernel⟩
  refine ⟨trivial, ?_, trivial, trivial, trivial⟩
  intro client session hs hu
  have hall : ∀ entry ∈ (run Relay.step (Relay.new 60)
      ((replyRun (.localhost 5521)).take 1)).sessions.toList, entry.2.backend = .localhost 5521 := by
    decide +kernel
  exact (hall _ (ExtTreeMap.mem_toList_iff_getElem?_eq_some.mpr hs)).symm

/-- The socket is not connected, so a stranger's datagram is passed on too. -/
theorem stranger_reaches_client :
    ¬ RepliesFromBackend 60 (replyRun (.localhost 6666)) := by
  intro h
  have hsend := h ((replyRun (.localhost 6666)).take 3) (.path (.reply 0 true))
    (by exact List.prefix_rfl)
    ⟨0, ⟨0, .localhost 6666, ⟨[0x40, 0x01], by decide⟩⟩, .localhost 40000,
      ⟨[0x40, 0x01], by decide⟩, true⟩ (by decide +kernel)
  obtain ⟨session, hs, _, _, _, hsource, _⟩ := hsend
  have hall : ∀ entry ∈ (run Relay.step (Relay.new 60)
      ((replyRun (.localhost 6666)).take 3)).sessions.toList, entry.2.backend = .localhost 5521 := by
    decide +kernel
  have hb := hall _ (ExtTreeMap.mem_toList_iff_getElem?_eq_some.mpr hs)
  rw [← hsource] at hb
  revert hb
  decide

/-- The return path of a session runs: its task reads the session's socket and
has neither returned nor been aborted. -/
def Pumping (relay : Relay) (client : SocketAddr) (session : Session) : Prop :=
  ∃ task : ReturnPath, relay.tasks[session.returnPath]? = some task ∧
    task.client = client ∧ task.upstream = session.upstream ∧ task.status.Alive

/-- `n` rounds of a task's loop, with both of its calls succeeding. -/
def rounds (id : TaskId) : Nat → List RelayAct
  | 0 => []
  | n + 1 => .path (.receive id true) :: .path (.reply id true) :: rounds id n

/-- A datagram that reaches the session's socket now is sent to the client
once the session's task has made enough rounds. -/
def PassesOn (relay : Relay) (client : SocketAddr) (session : Session) : Prop :=
  ∀ (source : SocketAddr) (datagram : Datagram), ∃ n : Nat,
    ⟨session.upstream, ⟨relay.arrivals.length, source, datagram⟩, client, datagram, true⟩ ∈
      (run Relay.step (relay.arrive session.upstream source datagram)
        (rounds session.returnPath n)).replies

theorem mem_inHand {relay : Relay} {id : TaskId} {task : ReturnPath}
    (ht : relay.tasks[id]? = some task) :
    relay.inHand id = match task.status with
      | .sending arrival => [arrival]
      | _ => [] := by
  rcases task with ⟨client, upstream, status⟩
  cases status <;> simp [inHand, ht]

/-- In one round a running task sends the oldest pending datagram and goes on. -/
theorem pump_round {relay : Relay} {id : TaskId} {client : SocketAddr} {task : ReturnPath}
    {arrival : Arrival} {rest : List Arrival}
    (ht : relay.tasks[id]? = some task) (hc : task.client = client) (hu : task.upstream = id)
    (ha : task.status.Alive) (hp : relay.pending id = arrival :: rest) :
    let relay' := (relay.receive id true).reply id true
    relay'.tasks[id]? = some ⟨client, id, .receiving⟩ ∧ relay'.pending id = rest ∧
      relay'.replies = relay.replies ++ [⟨id, arrival, client, arrival.datagram, true⟩] := by
  rcases task with ⟨c, k, status⟩
  simp only at hc hu
  subst hc hu
  have hsend : ∀ r : Relay, r.tasks[k]? = some ⟨c, k, .sending arrival⟩ →
      r.pending k = arrival :: rest → r.replies = relay.replies →
      (r.reply k true).tasks[k]? = some ⟨c, k, .receiving⟩ ∧ (r.reply k true).pending k = rest ∧
        (r.reply k true).replies =
          relay.replies ++ [⟨k, arrival, c, arrival.datagram, true⟩] := by
    intro r hr hpend hrep
    have hrest := pending_reply hr true k
    rw [if_pos rfl, hpend] at hrest
    refine ⟨?_, (List.cons.inj hrest).2.symm, ?_⟩
    · simp [reply, hr, setStatus]
    · simp [reply, hr, hrep]
  cases status with
  | receiving =>
    have hnil : relay.inHand k = [] := by simp [inHand, ht]
    rw [pending, hnil, List.nil_append] at hp
    cases hk : relay.sockets[k]? with
    | none =>
      rw [queued, hk] at hp
      cases hp
    | some upstream =>
      rcases upstream with ⟨uc, ub, ubind, inbox⟩
      rw [queued, hk] at hp
      simp only at hp
      subst hp
      have hlt : k < relay.sockets.length := (List.getElem?_eq_some_iff.mp hk).1
      have hrec : relay.receive k true = { relay.setStatus k (.sending arrival) with
          sockets := relay.sockets.set k ⟨uc, ub, ubind, rest⟩ } := by
        simp [receive, ht, hk]
      refine hsend _ ?_ ?_ ?_
      · simp [hrec, setStatus, ht]
      · rw [hrec, pending]
        change (relay.setStatus k (.sending arrival)).inHand k ++ _ = _
        rw [inHand_setStatus]
        simp [queued, ht, hlt]
      · rw [hrec]
        rfl
  | sending held =>
    have hrec : relay.receive k true = relay := by simp [receive, ht]
    have hheld : held = arrival := by
      rw [pending, mem_inHand ht] at hp
      exact (List.cons.inj hp).1
    subst hheld
    rw [hrec]
    exact hsend relay ht hp rfl
  | ended => exact ha.elim
  | aborted => exact ha.elim

/-- After one round for each pending datagram all of them have been sent. -/
theorem pump_rounds {relay : Relay} {id : TaskId} {client : SocketAddr} {task : ReturnPath}
    (ht : relay.tasks[id]? = some task) (hc : task.client = client) (hu : task.upstream = id)
    (ha : task.status.Alive) :
    (run Relay.step relay (rounds id (relay.pending id).length)).replies =
      relay.replies ++ (relay.pending id).map fun arrival =>
        ⟨id, arrival, client, arrival.datagram, true⟩ := by
  generalize hp : relay.pending id = l
  induction l generalizing relay task with
  | nil => simp [rounds]
  | cons arrival rest ih =>
    obtain ⟨ht', hp', hr'⟩ := pump_round ht hc hu ha hp
    have htail := ih ht' rfl rfl trivial hp'
    rw [hr'] at htail
    simp only [List.length_cons, rounds, run_cons, Relay.step, path, List.map_cons]
    rw [htail, List.append_assoc]
    rfl

theorem passesOn_of_pumping {relay : Relay} (hw : relay.WF) {client : SocketAddr}
    {session : Session} (hs : relay.sessions[client]? = some session)
    (hp : relay.Pumping client session) : relay.PassesOn client session := by
  obtain ⟨task, ht, hc, hu, ha⟩ := hp
  obtain ⟨hr, _⟩ := hw.session_path client session hs
  obtain ⟨socket, hk, _⟩ := hw.session_socket client session hs
  have hlt : session.upstream < relay.sockets.length := (List.getElem?_eq_some_iff.mp hk).1
  intro source datagram
  rw [hr] at ht ⊢
  have ht' : (relay.arrive session.upstream source datagram).tasks[session.upstream]? =
      some task := by
    simpa [arrive, hlt] using ht
  refine ⟨((relay.arrive session.upstream source datagram).pending session.upstream).length, ?_⟩
  rw [pump_rounds ht' hc hu ha, pending_arrive _ _ _ _ hlt, if_pos rfl]
  simp

/-- No session is half dead: its return path runs, what arrives for it is
passed on, and no traffic of a client keeps a session whose return path is over. -/
structure NoHalfDead (relay : Relay) : Prop where
  pumping : ∀ (client : SocketAddr) (session : Session),
    relay.sessions[client]? = some session → relay.Pumping client session
  passes_on : ∀ (client : SocketAddr) (session : Session),
    relay.sessions[client]? = some session → relay.PassesOn client session
  not_refreshed : ∀ (id : TaskId) (task : ReturnPath), relay.tasks[id]? = some task →
    ¬ task.status.Alive → ∀ (now : Instant) (env : ForwardEnv) (client backend : SocketAddr)
      (datagram : Datagram) (session : Session),
      (relay.forwardToBackend now env client backend datagram).relay.sessions[client]? =
        some session → session.returnPath ≠ id

/-- No call of a running return path fails: neither a `recv` it waits in nor
the `send_to` of a datagram it has in hand. -/
def PathsUp (relay : Relay) : RelayAct → Prop
  | .path (.receive id false) => ∀ task : ReturnPath, relay.tasks[id]? = some task →
      task.status ≠ .receiving
  | .path (.reply id false) => ∀ task : ReturnPath, relay.tasks[id]? = some task →
      ∀ arrival : Arrival, task.status ≠ .sending arrival
  | _ => True

def AllPumping (relay : Relay) : Prop :=
  ∀ (client : SocketAddr) (session : Session), relay.sessions[client]? = some session →
    relay.Pumping client session

theorem noHalfDead_of_allPumping {relay : Relay} (hw : relay.WF) (hp : relay.AllPumping) :
    relay.NoHalfDead := by
  refine ⟨hp, fun client session hs => passesOn_of_pumping hw hs (hp client session hs), ?_⟩
  intro id task ht hdead now env client backend datagram session hs
  rcases forward_cases relay now env client backend datagram with
    ⟨old, _, hold, _, h⟩ | ⟨_, hnone, _, _, h⟩ | ⟨_, hnone, _, _, h⟩
  · rw [h, sessions_touch hold, hold, Option.map_some, if_pos rfl] at hs
    obtain rfl := Option.some.inj hs
    rintro rfl
    obtain ⟨task', ht', _, _, ha⟩ := hp client old hold
    rw [ht, Option.some.injEq] at ht'
    rw [ht'] at hdead
    exact hdead ha
  · rw [h, sessions_openSession, if_pos rfl] at hs
    obtain rfl := Option.some.inj hs
    rintro rfl
    rw [List.getElem?_eq_none (Nat.le_refl _)] at ht
    cases ht
  · rw [h, hnone] at hs
    cases hs

theorem allPumping_forward {relay : Relay} (hp : relay.AllPumping) (now : Instant)
    (env : ForwardEnv) (client backend : SocketAddr) (datagram : Datagram) :
    (relay.forwardToBackend now env client backend datagram).relay.AllPumping := by
  rcases forward_cases relay now env client backend datagram with
    ⟨old, _, hold, _, h⟩ | ⟨_, hnone, _, _, h⟩ | ⟨_, hnone, _, _, h⟩
  all_goals simp only [h]
  · intro c s hs
    rw [sessions_touch hold, Option.map_eq_some_iff] at hs
    obtain ⟨s', hs', rfl⟩ := hs
    have := hp c s' hs'
    split <;> exact this
  · intro c s hs
    rw [sessions_openSession] at hs
    split at hs
    · next he =>
      subst he
      obtain rfl := Option.some.inj hs
      exact ⟨_, List.getElem?_concat_length, rfl, rfl, trivial⟩
    · obtain ⟨task, ht, hrest⟩ := hp c s hs
      exact ⟨task, getElem?_append_of_some ht _, hrest⟩
  · exact hp

theorem allPumping_retain {relay : Relay} (hw : relay.WF) (hp : relay.AllPumping)
    (keep : SocketAddr → Session → Bool) : (relay.retain keep).AllPumping := by
  intro c s hs
  obtain ⟨_, task, ht, _, hna⟩ := (wf_retain hw keep).session_path c s hs
  obtain ⟨task', ht', hc, hu, ha⟩ := hp c s (sessions_retain_some.mp hs).1
  obtain ⟨task₂, ht₂, ⟨_, rfl⟩ | ⟨_, rfl⟩⟩ := tasks_retain ht
  · rw [ht', Option.some.injEq] at ht₂
    subst ht₂
    rcases task' with ⟨client, upstream, status⟩
    cases status with
    | receiving => exact (hna rfl).elim
    | sending arrival => exact (hna rfl).elim
    | ended => exact ha.elim
    | aborted => exact ha.elim
  · rw [ht', Option.some.injEq] at ht₂
    subst ht₂
    exact ⟨task', ht, hc, hu, ha⟩

/-- A step on the upstream side that fails no running task leaves it running. -/
theorem alive_path {relay : Relay} {act : PathAct} (hc : relay.PathsUp (.path act)) {i : Nat}
    {task : ReturnPath} (ht : relay.tasks[i]? = some task) (ha : task.status.Alive) :
    ∃ task' : ReturnPath, (relay.path act).tasks[i]? = some task' ∧ task'.client = task.client ∧
      task'.upstream = task.upstream ∧ task'.status.Alive := by
  have hset : ∀ (id : TaskId) (status : PathStatus), (id = i → status.Alive) →
      ∃ task' : ReturnPath, (relay.setStatus id status).tasks[i]? = some task' ∧
        task'.client = task.client ∧ task'.upstream = task.upstream ∧ task'.status.Alive := by
    intro id status hstatus
    rw [setStatus, List.getElem?_modify, ht]
    by_cases he : id = i
    · exact ⟨{ task with status := status }, by simp [he], rfl, rfl, hstatus he⟩
    · exact ⟨task, by simp [he], rfl, rfl, ha⟩
  cases act with
  | arrive socket source datagram =>
    refine ⟨task, ?_, rfl, rfl, ha⟩
    simp only [path, arrive]
    split <;> exact ht
  | receive id ok =>
    simp only [path]
    rcases receive_cases relay id ok with h | ⟨client, socket, hid, rfl, h⟩ |
      ⟨client, socket, upstream, arrival, inbox, hid, _, _, _, h⟩
    · rw [h]
      exact ⟨task, ht, rfl, rfl, ha⟩
    · exact (hc _ hid rfl).elim
    · rw [h]
      exact hset id _ fun _ => trivial
  | reply id ok =>
    simp only [path]
    rcases reply_cases relay id ok with h | ⟨client, socket, arrival, hid, h⟩
    · rw [h]
      exact ⟨task, ht, rfl, rfl, ha⟩
    · cases ok with
      | false => exact (hc _ hid arrival rfl).elim
      | true =>
        rw [h]
        exact hset id _ fun _ => trivial

theorem allPumping_step {relay : Relay} (hw : relay.WF) (hp : relay.AllPumping)
    {act : RelayAct} (hc : relay.PathsUp act) : (relay.step act).AllPumping := by
  cases act with
  | forward now env client backend datagram =>
    exact allPumping_forward hp now env client backend datagram
  | reap now => exact allPumping_retain hw hp _
  | drop backend => exact allPumping_retain hw hp _
  | clear => exact allPumping_retain hw hp _
  | path act =>
    intro c s hs
    rw [step, (pathFrame_path relay act).sessions] at hs
    obtain ⟨task, ht, hclient, hu, ha⟩ := hp c s hs
    obtain ⟨task', ht', hclient', hu', ha'⟩ := alive_path hc ht ha
    exact ⟨task', ht', hclient'.trans hclient, hu'.trans hu, ha'⟩

/-- A failing call of a running return path leaves its session half dead. -/
theorem half_dead_of_failure {relay : Relay} (hw : relay.WF) {act : RelayAct}
    (hc : ¬ relay.PathsUp act) : ¬ (relay.step act).AllPumping := by
  have hend : ∀ (id : TaskId) (task : ReturnPath), relay.tasks[id]? = some task →
      task.status.Alive → (relay.step act).sessions = relay.sessions →
      (relay.step act).tasks = (relay.setStatus id .ended).tasks →
      ¬ (relay.step act).AllPumping := by
    intro id task ht ha hsess htasks hall
    obtain ⟨session, hs, hr⟩ := hw.alive_session id task ht ha
    rw [← hsess] at hs
    obtain ⟨task', ht', _, _, ha'⟩ := hall _ _ hs
    rw [hr, htasks, setStatus, List.getElem?_modify, ht] at ht'
    obtain rfl := Option.some.inj ht'
    simp only [if_true] at ha'
    exact ha'
  cases act with
  | forward now env client backend datagram => exact (hc trivial).elim
  | reap now => exact (hc trivial).elim
  | drop backend => exact (hc trivial).elim
  | clear => exact (hc trivial).elim
  | path act =>
    cases act with
    | arrive socket source datagram => exact (hc trivial).elim
    | receive id ok =>
      cases ok with
      | true => exact (hc trivial).elim
      | false =>
        simp only [PathsUp, not_forall, not_not] at hc
        obtain ⟨⟨client, socket, status⟩, ht, rfl⟩ := hc
        refine hend id _ ht trivial ?_ ?_ <;> simp [step, path, receive, ht, setStatus]
    | reply id ok =>
      cases ok with
      | true => exact (hc trivial).elim
      | false =>
        simp only [PathsUp, not_forall, not_not] at hc
        obtain ⟨⟨client, socket, status⟩, ht, arrival, rfl⟩ := hc
        refine hend id _ ht trivial ?_ ?_ <;> simp [step, path, reply, ht, setStatus]

/-- No session is half dead at any moment of a run exactly if no call of a
running return path fails in it. -/
theorem no_half_dead_sessions_iff (timeout : Duration) (acts : List RelayAct) :
    (∀ before : List RelayAct, before <+: acts →
      (run Relay.step (Relay.new timeout) before).NoHalfDead) ↔
      AllSteps Relay.step PathsUp (Relay.new timeout) acts := by
  have hstart : (Relay.new timeout).AllPumping := fun client session hs => by
    simp [Relay.new] at hs
  rw [← forall_prefix_iff_allSteps AllPumping hstart
    (fun acts _ hp hc => allPumping_step (wf_run timeout acts) hp hc)
    (fun acts _ hc => half_dead_of_failure (wf_run timeout acts) hc) acts]
  constructor
  · exact fun h before hb => (h before hb).pumping
  · exact fun h before hb => noHalfDead_of_allPumping (wf_run timeout before) (h before hb)

/-- One failed send to the client, and its session stays without a return path. -/
theorem failed_reply_leaves_half_dead :
    ¬ (∀ before : List RelayAct,
      before <+: [.forward 5 ⟨0, true, true⟩ (.localhost 40000) (.localhost 5521)
          ⟨[0xc0], by decide⟩,
        .path (.arrive 0 (.localhost 5521) ⟨[0x40, 0x01], by decide⟩),
        .path (.receive 0 true), .path (.reply 0 false)] →
      (run Relay.step (Relay.new 60) before).NoHalfDead) := by
  intro h
  have hlast := (h _ (List.prefix_refl _)).pumping (.localhost 40000)
    ⟨0, .localhost 5521, 0, 5⟩ (by decide +kernel)
  obtain ⟨task, ht, _, _, ha⟩ := hlast
  have hended : (run Relay.step (Relay.new 60)
      [.forward 5 ⟨0, true, true⟩ (.localhost 40000) (.localhost 5521) ⟨[0xc0], by decide⟩,
        .path (.arrive 0 (.localhost 5521) ⟨[0x40, 0x01], by decide⟩),
        .path (.receive 0 true), .path (.reply 0 false)]).tasks[0]? =
      some ⟨.localhost 40000, 0, .ended⟩ := by decide +kernel
  rw [hended, Option.some.injEq] at ht
  subst ht
  exact ha

end Relay

end Sleepytale
