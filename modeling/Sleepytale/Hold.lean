import Sleepytale.Boots
import Sleepytale.Lib.Capped

/-!
# The Initials held during a boot

`initialsOf` reads from the log which Initials were received for a slot while
one boot of it was waking, the knock first. The held map of a waking slot is the
capped map of that history; when the boot is taken over each entry is passed on
once, and when it has failed none ever is.
-/

namespace Sleepytale

open Sleepytale.Net
open Sleepytale.Lib.Maps
open Sleepytale.Lib.Machine
open Sleepytale.Lib.Capped
open Std (ExtTreeMap)

/-- What has been heard of a boot: whether it is still waking, and the Initials
received for its slot since it was spawned. -/
structure Hearing where
  waking : Bool
  initials : List (SocketAddr × Datagram)

def Hearing.hear (boot : BootId) (slot : SocketAddr) (hearing : Hearing) : Effect → Hearing
  | .spawned boot' _ _ client datagram =>
      if boot' = boot then ⟨true, [(client, datagram)]⟩ else hearing
  | .received client datagram target =>
      if hearing.waking = true ∧ target = slot ∧ isQuicInitial datagram.bytes = true then
        { hearing with initials := hearing.initials ++ [(client, datagram)] }
      else hearing
  | .consumed boot' _ _ => if boot' = boot then { hearing with waking := false } else hearing
  | _ => hearing

def hearing (boot : BootId) (slot : SocketAddr) (log : List Effect) : Hearing :=
  log.foldl (Hearing.hear boot slot) ⟨false, []⟩

/-- The Initials received for `slot` while its boot `boot` was waking. -/
def initialsOf (boot : BootId) (slot : SocketAddr) (log : List Effect) :
    List (SocketAddr × Datagram) := (hearing boot slot log).initials

def Effect.delivery? (boot : BootId) : Effect → Option (SocketAddr × Datagram)
  | forwarded call =>
      match call.origin with
      | .direct => none
      | .held _ boot' => if boot' = boot then some (call.client, call.datagram) else none
  | _ => none

/-- The entries of a hold that `deliver_held` passed on for a boot. -/
def delivered (boot : BootId) (log : List Effect) : List (SocketAddr × Datagram) :=
  log.filterMap (Effect.delivery? boot)

theorem hearing_append (boot : BootId) (slot : SocketAddr) (log effects : List Effect) :
    hearing boot slot (log ++ effects) =
      effects.foldl (Hearing.hear boot slot) (hearing boot slot log) := by
  rw [hearing, List.foldl_append]
  rfl

theorem hearing_append_of_silent {boot : BootId} {slot : SocketAddr} {log effects : List Effect}
    (h : ∀ effect ∈ effects, Hearing.hear boot slot (hearing boot slot log) effect =
      hearing boot slot log) :
    hearing boot slot (log ++ effects) = hearing boot slot log := by
  rw [hearing_append]
  induction effects with
  | nil => rfl
  | cons effect effects ih =>
    rw [List.foldl_cons, h effect List.mem_cons_self]
    exact ih fun e hm => h e (List.mem_cons_of_mem _ hm)

theorem hear_calls (boot : BootId) (slot : SocketAddr) (heard : Hearing) (calls : List Forward) :
    (calls.map Effect.forwarded).foldl (Hearing.hear boot slot) heard = heard := by
  induction calls with
  | nil => rfl
  | cons call calls ih => exact ih

theorem delivered_append (boot : BootId) (log effects : List Effect) :
    delivered boot (log ++ effects) = delivered boot log ++ delivered boot effects := by
  rw [delivered, List.filterMap_append]
  rfl

theorem Effect.delivery?_isSome {boot : BootId} {effect : Effect}
    {entry : SocketAddr × Datagram} (h : effect.delivery? boot = some entry) :
    ∃ (call : Forward) (slot : SocketAddr), effect = .forwarded call ∧
      call.origin = .held slot boot := by
  cases effect with
  | forwarded call =>
    cases ho : call.origin with
    | direct => simp [delivery?, ho] at h
    | held slot boot' =>
      simp only [delivery?, ho] at h
      split at h
      · next he =>
        subst he
        exact ⟨call, slot, rfl, ho⟩
      · cases h
  | _ => cases h

theorem delivered_eq_nil {boot : BootId} {log : List Effect}
    (h : ∀ (call : Forward) (slot : SocketAddr), call.origin = .held slot boot →
      .forwarded call ∉ log) : delivered boot log = [] := by
  rw [delivered, List.filterMap_eq_nil_iff]
  intro effect hm
  cases hd : effect.delivery? boot with
  | none => rfl
  | some entry =>
    obtain ⟨call, slot, rfl, ho⟩ := Effect.delivery?_isSome hd
    exact (h call slot ho hm).elim

theorem delivered_calls {boot : BootId} {slot : SocketAddr} {calls : List Forward}
    (h : ∀ call ∈ calls, call.origin = .held slot boot) :
    delivered boot (calls.map .forwarded) =
      calls.map fun call => (call.client, call.datagram) := by
  induction calls with
  | nil => rfl
  | cons call calls ih =>
    have hhead : (Effect.forwarded call).delivery? boot = some (call.client, call.datagram) := by
      simp [Effect.delivery?, h call List.mem_cons_self]
    have hrest := ih fun c hm => h c (List.mem_cons_of_mem _ hm)
    rw [delivered] at hrest
    rw [delivered, List.map_cons, List.filterMap_cons_some hhead, hrest, List.map_cons]

namespace Life

variable {boot : BootId} {slot : SocketAddr} {stage : Stage} {t : List Effect}

/-- Before a boot is consumed nothing is passed on for it. -/
theorem early (h : Life boot slot stage t) (hrunning : stage ≠ .running) (hgone : stage ≠ .gone)
    (effect : Effect) (hm : effect ∈ t) :
    (∀ slot' result, effect ≠ .consumed boot slot' result) ∧ ∀ call, effect ≠ .forwarded call := by
  induction h with
  | spawned => simp_all
  | started h ih =>
    rcases List.mem_append.mp hm with hm | hm
    · exact ih (by simp) (by simp) hm
    · simp_all
  | becameReady h ih => exact ih (by simp) (by simp) hm
  | failedEarly h hresult ih =>
    rcases List.mem_append.mp hm with hm | hm
    · exact ih (by simp) (by simp) hm
    · simp_all
  | failedLate h hresult ih =>
    rcases List.mem_append.mp hm with hm | hm
    · exact ih (by simp) (by simp) hm
    · simp_all
  | tookOver => exact (hrunning rfl).elim
  | checked => exact (hrunning rfl).elim
  | bootFailed => exact (hgone rfl).elim
  | exited => exact (hgone rfl).elim
  | idleStopped => exact (hgone rfl).elim
  | drained => exact (hgone rfl).elim
  | drainedFailed => exact (hgone rfl).elim
  | gaveUp => exact (hgone rfl).elim

/-- What is passed on for a boot is passed to its own slot, after it was taken over. -/
theorem forwarded (h : Life boot slot stage t) {call : Forward} (hm : .forwarded call ∈ t) :
    call.origin = .held slot boot ∧ call.backend = slot ∧ .consumed boot slot .ready ∈ t := by
  induction h with
  | spawned => simp at hm
  | started h ih => simpa using ih (by simpa using hm)
  | becameReady h ih => exact ih hm
  | failedEarly h hresult ih => simpa using ih (by simpa using hm)
  | failedLate h hresult ih => simpa using ih (by simpa using hm)
  | tookOver h hcalls ih =>
    rcases List.mem_append.mp hm with hm | hm
    · obtain ⟨ho, hb, hc⟩ := ih hm
      exact ⟨ho, hb, List.mem_append_left _ hc⟩
    · obtain ⟨ho, hb⟩ := hcalls call (by simpa using hm)
      exact ⟨ho, hb, by simp⟩
  | bootFailed h ih =>
    obtain ⟨ho, hb, hc⟩ := ih (by simpa using hm)
    exact ⟨ho, hb, List.mem_append_left _ hc⟩
  | checked h halive ih => simpa using ih (by simpa using hm)
  | exited h ih => simpa using ih (by simpa using hm)
  | idleStopped h time ok ih => simpa using ih (by simpa using hm)
  | drained h hstage ok ih => simpa using ih (by simpa using hm)
  | drainedFailed h ih => exact ih hm
  | gaveUp h hstage ih => simpa using ih (by simpa using hm)

theorem knock (h : Life boot slot stage t) : ∃ knock : SocketAddr × Datagram,
    ∀ config console client datagram, .spawned boot config console client datagram ∈ t →
      (client, datagram) = knock := by
  have hmore : ∀ {t effects : List Effect},
      (∃ knock : SocketAddr × Datagram, ∀ config console client datagram,
        .spawned boot config console client datagram ∈ t → (client, datagram) = knock) →
      (∀ config console client datagram,
        .spawned boot config console client datagram ∉ effects) →
      ∃ knock : SocketAddr × Datagram, ∀ config console client datagram,
        .spawned boot config console client datagram ∈ t ++ effects →
          (client, datagram) = knock := by
    rintro t effects ⟨knock, hknock⟩ hno
    refine ⟨knock, fun config console client datagram hm => ?_⟩
    rcases List.mem_append.mp hm with hm | hm
    · exact hknock config console client datagram hm
    · exact (hno config console client datagram hm).elim
  induction h with
  | spawned console client datagram => exact ⟨(client, datagram), by simp +contextual⟩
  | started h ih => exact hmore ih (by simp)
  | becameReady h ih => exact ih
  | failedEarly h hresult ih => exact hmore ih (by simp)
  | failedLate h hresult ih => exact hmore ih (by simp)
  | tookOver h hcalls ih => exact hmore ih (by simp)
  | bootFailed h ih => exact hmore ih (by simp)
  | checked h halive ih => exact hmore ih (by simp)
  | exited h ih => exact hmore ih (by simp)
  | idleStopped h time ok ih => exact hmore ih (by simp)
  | drained h hstage ok ih => exact hmore ih (by simp)
  | drainedFailed h ih => exact ih
  | gaveUp h hstage ih => exact hmore ih (by simp)

/-- A boot is consumed for its own slot, and nothing is passed on for it if it
had failed. -/
theorem consumed (h : Life boot slot stage t) {slot' : SocketAddr} {result : StartupResult}
    (hm : .consumed boot slot' result ∈ t) :
    slot' = slot ∧ (result ≠ .ready → ∀ call : Forward, .forwarded call ∉ t) := by
  induction h with
  | spawned => simp at hm
  | started h ih => simpa using ih (by simpa using hm)
  | becameReady h ih => exact ih hm
  | failedEarly h hresult ih => simpa using ih (by simpa using hm)
  | failedLate h hresult ih => simpa using ih (by simpa using hm)
  | tookOver h hcalls ih =>
    rcases List.mem_append.mp hm with hm | hm
    · exact ((h.early (by simp) (by simp) _ hm).1 slot' result rfl).elim
    · have he : slot' = slot ∧ result = .ready := by simpa using hm
      exact ⟨he.1, fun hne => (hne he.2).elim⟩
  | @bootFailed t failure h ih =>
    have hno : ∀ call : Forward, .forwarded call ∉ t := fun call hmem =>
      (h.early (by simp) (by simp) _ hmem).2 call rfl
    rcases List.mem_append.mp hm with hm | hm
    · exact ((h.early (by simp) (by simp) _ hm).1 slot' result rfl).elim
    · have he : slot' = slot ∧ result = failure := by simpa using hm
      exact ⟨he.1, fun _ call => by simpa using hno call⟩
  | checked h halive ih => simpa using ih (by simpa using hm)
  | exited h ih => simpa using ih (by simpa using hm)
  | idleStopped h time ok ih => simpa using ih (by simpa using hm)
  | drained h hstage ok ih => simpa using ih (by simpa using hm)
  | drainedFailed h ih => exact ih hm
  | gaveUp h hstage ih => simpa using ih (by simpa using hm)

end Life

theorem ManagedBackend.hold_put (managed : ManagedBackend) (client : SocketAddr)
    (datagram : Datagram) :
    (managed.hold client datagram).1.held = put maxHeldClients managed.held client datagram := by
  unfold hold put
  split <;> rfl

/-- The hold of a waking slot is the capped map of what its boot has heard, and
the knock was heard first. -/
structure State.HoldOf (s : State) (slot : SocketAddr) (managed : ManagedBackend)
    (boot : BootId) : Prop where
  waking : (hearing boot slot s.log).waking = true
  contents : managed.held = capped maxHeldClients (initialsOf boot slot s.log)
  knock : ∃ (config : BackendConfig) (console : Bool) (client : SocketAddr) (datagram : Datagram),
    .spawned boot config console client datagram ∈ s.log ∧
    (initialsOf boot slot s.log).head? = some (client, datagram)

/-- Every waking slot holds what its boot has heard; what was held when a boot
was taken over has been passed on, each entry once. -/
structure State.Holds (s : State) : Prop where
  waking : ∀ (slot : SocketAddr) (managed : ManagedBackend) (boot : BootId) (task : Startup),
    s.backends[slot]? = some managed → managed.lifecycle = .waking boot task →
    s.HoldOf slot managed boot
  taken : ∀ (boot : BootId) (slot : SocketAddr), .consumed boot slot .ready ∈ s.log →
    (hearing boot slot s.log).waking = false ∧
    (delivered boot s.log).Perm (capped maxHeldClients (initialsOf boot slot s.log)).toList

/-- What a transition of another slot logs is not heard by a waking boot. -/
theorem State.Holds.waking_of_silent {s s' : State} (h : s.Holds) {slot : SocketAddr}
    {managed managed' : ManagedBackend} {boot : BootId} {task : Startup}
    (hslot : s.backends[slot]? = some managed) (hlife : managed.lifecycle = .waking boot task)
    (hheld : managed'.held = managed.held)
    {effects : List Effect} (hlog : s'.log = s.log ++ effects)
    (hsilent : ∀ effect ∈ effects, Hearing.hear boot slot (hearing boot slot s.log) effect =
      hearing boot slot s.log) : s'.HoldOf slot managed' boot := by
  have hsame : hearing boot slot s'.log = hearing boot slot s.log := by
    rw [hlog]
    exact hearing_append_of_silent hsilent
  obtain ⟨hw, hcap, config, console, client, datagram, hspawn, hhead⟩ :=
    h.waking slot managed boot task hslot hlife
  refine ⟨by rw [hsame]; exact hw, ?_, config, console, client, datagram, ?_, ?_⟩
  · rw [initialsOf, hsame, hheld]
    exact hcap
  · rw [hlog]
    exact List.mem_append_left _ hspawn
  · rw [initialsOf, hsame]
    exact hhead

theorem State.holdOf_knock {s s' : State} {slot client : SocketAddr} {datagram : Datagram}
    {managed : ManagedBackend} {boot : BootId} {config : BackendConfig} {console : Bool}
    (hheld : managed.held = put maxHeldClients ∅ client datagram)
    (hlog : s'.log = s.log ++
      [.received client datagram slot, .spawned boot config console client datagram]) :
    s'.HoldOf slot managed boot := by
  have hhear : hearing boot slot s'.log = ⟨true, [(client, datagram)]⟩ := by
    rw [hlog, hearing_append]
    simp [Hearing.hear]
  refine ⟨by rw [hhear], ?_, config, console, client, datagram, ?_, ?_⟩
  · rw [initialsOf, hhear, hheld]
    simp [capped]
  · rw [hlog]
    exact List.mem_append_right _ (List.mem_cons_of_mem _ List.mem_cons_self)
  · rw [initialsOf, hhear]
    rfl

theorem State.Holds.heldBack {s s' : State} (h : s.Holds) {slot client : SocketAddr}
    {datagram : Datagram} {managed managed' : ManagedBackend} {boot : BootId} {task : Startup}
    (hslot : s.backends[slot]? = some managed) (hlife : managed.lifecycle = .waking boot task)
    (hinitial : isQuicInitial datagram.bytes = true)
    (hheld : managed'.held = put maxHeldClients managed.held client datagram)
    (hlog : s'.log = s.log ++ [.received client datagram slot]) :
    s'.HoldOf slot managed' boot := by
  obtain ⟨hw, hcap, config, console, knock, first, hspawn, hhead⟩ :=
    h.waking slot managed boot task hslot hlife
  have hhear : hearing boot slot s'.log =
      ⟨true, initialsOf boot slot s.log ++ [(client, datagram)]⟩ := by
    rw [hlog, hearing_append]
    simp [Hearing.hear, hw, hinitial, initialsOf]
  refine ⟨by rw [hhear], ?_, config, console, knock, first, ?_, ?_⟩
  · rw [initialsOf, hhear, hheld, capped_snoc, hcap]
  · rw [hlog]
    exact List.mem_append_left _ hspawn
  · rw [initialsOf, hhear, List.head?_append, hhead]
    rfl

/-- A boot that was taken over hears nothing more, and nothing more is passed on
for it. -/
theorem State.Holds.taken_of_silent {s s' : State} (h : s.Holds) {boot : BootId}
    {slot : SocketAddr} (hc : .consumed boot slot .ready ∈ s.log) {effects : List Effect}
    (hlog : s'.log = s.log ++ effects)
    (hspawn : ∀ config console client datagram,
      .spawned boot config console client datagram ∉ effects)
    (hcalls : ∀ (call : Forward) (slot' : SocketAddr), call.origin = .held slot' boot →
      .forwarded call ∉ effects) :
    (hearing boot slot s'.log).waking = false ∧
    (delivered boot s'.log).Perm (capped maxHeldClients (initialsOf boot slot s'.log)).toList := by
  obtain ⟨hw, hperm⟩ := h.taken boot slot hc
  have hsame : hearing boot slot s'.log = hearing boot slot s.log := by
    rw [hlog]
    refine hearing_append_of_silent fun effect hm => ?_
    cases effect with
    | spawned boot' config console client datagram =>
      have hne : boot' ≠ boot := by
        rintro rfl
        exact hspawn config console client datagram hm
      simp [Hearing.hear, hne]
    | received client datagram target => simp [Hearing.hear, hw]
    | consumed boot' slot' result =>
      simp only [Hearing.hear]
      split
      · rw [← hw]
      · rfl
    | _ => rfl
  refine ⟨by rw [hsame]; exact hw, ?_⟩
  rw [initialsOf, hsame, hlog, delivered_append, delivered_eq_nil hcalls, List.append_nil]
  exact hperm

theorem other_of_waking {backends : ExtTreeMap SocketAddr ManagedBackend} {slot changed : SocketAddr}
    {managed new : ManagedBackend} (hnot : ¬ new.Waking)
    (hslot : (backends.insert changed new)[slot]? = some managed) (hwaking : managed.Waking) :
    slot ≠ changed ∧ backends[slot]? = some managed := by
  rcases getElem?_insert_cases hslot with ⟨rfl, rfl⟩ | hother
  · exact (hnot hwaking).elim
  · exact hother

theorem State.Boots.ne_of_waking {s : State} (hb : s.Boots) {slot changed : SocketAddr}
    {managed old : ManagedBackend} {boot boot' : BootId} {task : Startup} {stage : Stage}
    (hold : s.backends[changed]? = some old) (hstage : old.lifecycle.stage = some (boot', stage))
    (hne : slot ≠ changed) (hslot : s.backends[slot]? = some managed)
    (hlife : managed.lifecycle = .waking boot task) : boot' ≠ boot := by
  rintro rfl
  obtain ⟨stage', hstage'⟩ := Lifecycle.exists_stage_waking boot' task
  rw [← hlife] at hstage'
  exact hne (hb.distinct slot changed managed old boot' stage' stage hslot hold hstage' hstage)

theorem State.Holds.waking_of_moved {s s' : State} (h : s.Holds) {slot changed : SocketAddr}
    {managed old new : ManagedBackend} {boot boot' : BootId} {task task₁ task₂ : Startup}
    {effects : List Effect} (hold : s.backends[changed]? = some old)
    (hslot : (s.backends.insert changed new)[slot]? = some managed)
    (hlife : managed.lifecycle = .waking boot task)
    (hbefore : old.lifecycle = .waking boot' task₁) (hafter : new.lifecycle = .waking boot' task₂)
    (hheld : new.held = old.held) (hlog : s'.log = s.log ++ effects)
    (hsilent : ∀ effect ∈ effects, ∀ heard, Hearing.hear boot slot heard effect = heard) :
    s'.HoldOf slot managed boot := by
  rcases getElem?_insert_cases hslot with ⟨rfl, rfl⟩ | ⟨_, hslot⟩
  · rw [hafter] at hlife
    obtain ⟨rfl, _⟩ := Lifecycle.waking.inj hlife
    exact h.waking_of_silent hold hbefore hheld hlog fun effect hm => hsilent effect hm _
  · exact h.waking_of_silent hslot hlife rfl hlog fun effect hm => hsilent effect hm _

theorem holds_waking_trans {p : Proxy} {s s' : State} {e : Event} (hb : s.Boots)
    (hcons : s.SlotsConsistent) (hh : s.Holds) (h : Trans p s e s') (slot : SocketAddr) (managed : ManagedBackend)
    (boot : BootId) (task : Startup) (hslot : s'.backends[slot]? = some managed)
    (hlife : managed.lifecycle = .waking boot task) : s'.HoldOf slot managed boot := by
  -- The slot was waking before and nothing that was logged concerns its boot.
  have hsame : ∀ {old : ManagedBackend} {task' : Startup} {effects : List Effect},
      s.backends[slot]? = some old → old.lifecycle = .waking boot task' →
      managed.held = old.held → s'.log = s.log ++ effects →
      (∀ effect ∈ effects, ∀ heard, Hearing.hear boot slot heard effect = heard) →
      s'.HoldOf slot managed boot :=
    fun hold hl hheld hlog hsilent =>
      hh.waking_of_silent hold hl hheld hlog fun effect hm => hsilent effect hm _
  have hnothing : s'.backends = s.backends → s'.log = s.log →
      s'.HoldOf slot managed boot := by
    intro hback hlog
    rw [hback] at hslot
    exact hsame hslot hlife rfl (by rw [hlog, List.append_nil]) (by simp)
  have hget : ∀ {changed : SocketAddr} {new : ManagedBackend},
      s'.backends = s.backends.insert changed new → ¬ new.Waking →
      slot ≠ changed ∧ s.backends[slot]? = some managed := by
    intro changed new hback hnot
    rw [hback] at hslot
    exact other_of_waking hnot hslot ⟨boot, task, hlife⟩
  have hnot_running : ∀ {new : ManagedBackend}, new.Running → ¬ new.Waking :=
    fun hr => ManagedBackend.not_waking_of_running hr
  cases h with
  | stay => exact hnothing rfl rfl
  | @rejected client datagram env hphase hnone =>
    have hne : p.target s client datagram ≠ slot := by
      intro he
      change s.backends[slot]? = some managed at hslot
      rw [he, hslot] at hnone
      cases hnone
    refine hsame hslot hlife rfl rfl fun effect hm heard => ?_
    simp only [List.mem_cons, List.not_mem_nil, or_false] at hm
    rcases hm with rfl | rfl
    · simp [Hearing.hear, hne]
    · rfl
  | @relayed client datagram env old boot' hphase hold hl =>
    have hne : p.target s client datagram ≠ slot := by
      intro he
      rw [he] at hold
      change s.backends[slot]? = some managed at hslot
      rw [hslot, Option.some.injEq] at hold
      rw [hold, hl] at hlife
      cases hlife
    refine hsame hslot hlife rfl (List.append_assoc _ _ _) fun effect hm heard => ?_
    simp only [List.singleton_append, List.mem_cons, List.not_mem_nil, or_false] at hm
    rcases hm with rfl | rfl
    · simp [Hearing.hear, hne]
    · rfl
  | @woke client datagram env old hphase hold hl hinitial =>
    rcases getElem?_insert_cases hslot with ⟨rfl, rfl⟩ | ⟨hne, hslot⟩
    · obtain ⟨rfl, rfl⟩ := Lifecycle.waking.inj
        ((ManagedBackend.hold_lifecycle ..).symm.trans hlife)
      have hempty : old.held = ∅ :=
        (hcons (by simp [hphase, Phase.InLoop]) _ old hold).held_empty
          (ManagedBackend.not_waking_of_sleeping hl)
      apply State.holdOf_knock _ rfl
      rw [ManagedBackend.hold_put, hempty]
    · have hlt : boot ≠ s.boots := by
        rintro rfl
        obtain ⟨stage, hst⟩ := Lifecycle.exists_stage_waking s.boots task
        rw [← hlife] at hst
        exact Nat.lt_irrefl _ (hb.bound slot managed s.boots stage hslot hst)
      refine hsame hslot hlife rfl rfl fun effect hm heard => ?_
      simp only [List.mem_cons, List.not_mem_nil, or_false] at hm
      rcases hm with rfl | rfl
      · simp [Hearing.hear, hne.symm]
      · simp [Hearing.hear, hlt.symm]
  | @heldBack client datagram env old boot' task' hphase hold hl hinitial =>
    rcases getElem?_insert_cases hslot with ⟨rfl, rfl⟩ | ⟨hne, hslot⟩
    · rw [ManagedBackend.hold_lifecycle, hl] at hlife
      obtain ⟨rfl, rfl⟩ := Lifecycle.waking.inj hlife
      exact hh.heldBack hold hl hinitial (ManagedBackend.hold_put _ _ _) rfl
    · refine hsame hslot hlife rfl rfl fun effect hm heard => ?_
      obtain rfl := List.mem_singleton.mp hm
      simp [Hearing.hear, hne.symm]
  | ignored hphase hold hl hinitial =>
    refine hsame hslot hlife rfl rfl fun effect hm heard => ?_
    obtain rfl := List.mem_singleton.mp hm
    simp [Hearing.hear, hinitial]
  | tickStarted => exact hnothing rfl rfl
  | nothingFinished => exact hnothing rfl rfl
  | @ready env changed rest old boot' hphase hold hl =>
    obtain ⟨calls, hlog, _, _⟩ := State.deliverHeld_log
      (s.takeOver changed old boot' env.readyLap) old.config.backend boot'
      (env.order.list old.held) env.forward
    obtain ⟨hne, hm⟩ := hget (State.deliverHeld_backends ..) (hnot_running ⟨boot', rfl⟩)
    have hbne := hb.ne_of_waking hold (by rw [hl]; rfl) hne hm hlife
    refine hsame hm hlife rfl (hlog.trans (List.append_assoc _ _ _)) fun effect hmem heard => ?_
    rcases List.mem_append.mp hmem with hmem | hmem
    · obtain rfl := List.mem_singleton.mp hmem
      simp [Hearing.hear, hbne]
    · obtain ⟨call, _, rfl⟩ := List.mem_map.mp hmem
      rfl
  | bootFailed hphase hold hl hresult =>
    obtain ⟨hne, hm⟩ := hget rfl (ManagedBackend.not_waking_of_sleeping rfl)
    have hbne := hb.ne_of_waking hold (by rw [hl]; exact Lifecycle.stage_finished hresult) hne hm
      hlife
    refine hsame hm hlife rfl rfl fun effect hmem heard => ?_
    obtain rfl := List.mem_singleton.mp hmem
    simp [Hearing.hear, hbne]
  | notRunning => exact hnothing rfl rfl
  | exited =>
    obtain ⟨_, hm⟩ := hget rfl (ManagedBackend.not_waking_of_sleeping rfl)
    exact hsame hm hlife rfl rfl (by simp [Hearing.hear])
  | checkFailed => exact hsame hslot hlife rfl rfl (by simp [Hearing.hear])
  | busy hphase hold hl =>
    obtain ⟨_, hm⟩ := hget rfl (hnot_running ⟨_, hl⟩)
    exact hsame hm hlife rfl rfl (by simp [Hearing.hear])
  | idling hphase hold hl =>
    obtain ⟨_, hm⟩ := hget rfl (hnot_running ⟨_, hl⟩)
    exact hsame hm hlife rfl rfl (by simp [Hearing.hear])
  | idleStopped =>
    obtain ⟨_, hm⟩ := hget rfl (ManagedBackend.not_waking_of_sleeping rfl)
    exact hsame hm hlife rfl rfl (by simp [Hearing.hear])
  | shutDown => exact hnothing rfl rfl
  | nothingToDrain => exact hnothing rfl rfl
  | drained =>
    obtain ⟨_, hm⟩ := hget rfl (ManagedBackend.not_waking_of_sleeping rfl)
    exact hsame hm hlife rfl rfl (by simp [Hearing.hear])
  | drainedFailed =>
    obtain ⟨_, hm⟩ := hget rfl (ManagedBackend.not_waking_of_sleeping rfl)
    exact hsame hm hlife rfl (List.append_nil _).symm (by simp)
  | gaveUp =>
    obtain ⟨_, hm⟩ := hget rfl (ManagedBackend.not_waking_of_sleeping rfl)
    exact hsame hm hlife rfl rfl (by simp [Hearing.hear])
  | started hold hl =>
    exact hh.waking_of_moved hold hslot hlife hl rfl rfl rfl (by simp [Hearing.hear])
  | becameReady hold hl =>
    exact hh.waking_of_moved hold hslot hlife hl rfl rfl (List.append_nil _).symm (by simp)
  | startupFailed hold hl =>
    exact hh.waking_of_moved hold hslot hlife hl rfl rfl rfl (by simp [Hearing.hear])
  | advanced => exact hnothing rfl rfl
  | path => exact hnothing rfl rfl

/-- What a transition can log about held Initials: the takeover of a ready boot
passes them on, and nothing else does. -/
inductive State.Passes (s : State) : List Effect → Prop where
  | quiet {effects : List Effect}
      (hcalls : ∀ (call : Forward) (slot : SocketAddr) (boot : BootId),
        call.origin = .held slot boot → .forwarded call ∉ effects)
      (htaken : ∀ (boot : BootId) (slot : SocketAddr), .consumed boot slot .ready ∉ effects) :
      s.Passes effects
  | tookOver {slot : SocketAddr} {managed : ManagedBackend} {boot : BootId}
      {calls : List Forward} (hslot : s.backends[slot]? = some managed)
      (hlife : managed.lifecycle = .waking boot (.finished .ready))
      (hentries : (calls.map fun call => (call.client, call.datagram)).Perm managed.held.toList)
      (horigin : ∀ call ∈ calls, call.origin = .held managed.config.backend boot) :
      s.Passes (.consumed boot managed.config.backend .ready :: calls.map .forwarded)

theorem Trans.passes {p : Proxy} {s s' : State} {e : Event} (h : Trans p s e s') :
    ∃ effects : List Effect, s'.log = s.log ++ effects ∧ s.Passes effects ∧
      ∀ boot config console client datagram,
        .spawned boot config console client datagram ∈ effects → boot = s.boots := by
  have hquiet : ∀ {effects : List Effect}, s'.log = s.log ++ effects →
      (∀ boot config console client datagram,
        .spawned boot config console client datagram ∈ effects → boot = s.boots) →
      (∀ (call : Forward) (slot : SocketAddr) (boot : BootId), call.origin = .held slot boot →
        .forwarded call ∉ effects) →
      (∀ (boot : BootId) (slot : SocketAddr), .consumed boot slot .ready ∉ effects) →
      ∃ effects : List Effect, s'.log = s.log ++ effects ∧ s.Passes effects ∧
        ∀ boot config console client datagram,
          .spawned boot config console client datagram ∈ effects → boot = s.boots :=
    fun hlog hspawn hcalls htaken => ⟨_, hlog, .quiet hcalls htaken, hspawn⟩
  have hnothing : s'.log = s.log → _ := fun hlog =>
    hquiet (by rw [hlog, List.append_nil]) (by simp) (by simp) (by simp)
  cases h with
  | stay => exact hnothing rfl
  | rejected => exact hquiet rfl (by simp) (by simp) (by simp)
  | relayed =>
    refine hquiet (List.append_assoc _ _ _) (by simp) ?_ (by simp)
    intro call slot boot horigin hm
    simp only [List.singleton_append, List.mem_cons, reduceCtorEq, false_or, List.not_mem_nil,
      or_false, Effect.forwarded.injEq] at hm
    subst hm
    cases horigin
  | woke =>
    refine hquiet rfl ?_ (by simp) (by simp)
    intro boot config console client datagram hm
    simp only [List.mem_cons, reduceCtorEq, false_or, List.not_mem_nil, or_false,
      Effect.spawned.injEq] at hm
    exact hm.1
  | heldBack => exact hquiet rfl (by simp) (by simp) (by simp)
  | ignored => exact hquiet rfl (by simp) (by simp) (by simp)
  | @ready env slot rest managed boot hphase hslot hlife =>
    obtain ⟨calls, hlog, hmap, hall⟩ := State.deliverHeld_log
      (s.takeOver slot managed boot env.readyLap) managed.config.backend boot
      (env.order.list managed.held) env.forward
    refine ⟨_, hlog.trans (List.append_assoc _ _ _), .tookOver hslot hlife ?_
      fun call hm => (hall call hm).1, by simp⟩
    rw [hmap]
    exact env.order.perm managed.held
  | bootFailed hphase hslot hlife hresult =>
    exact hquiet rfl (by simp) (by simp) (by simpa using hresult.symm)
  | exited => exact hquiet rfl (by simp) (by simp) (by simp)
  | checkFailed => exact hquiet rfl (by simp) (by simp) (by simp)
  | busy => exact hquiet rfl (by simp) (by simp) (by simp)
  | idling => exact hquiet rfl (by simp) (by simp) (by simp)
  | idleStopped => exact hquiet rfl (by simp) (by simp) (by simp)
  | drained => exact hquiet rfl (by simp) (by simp) (by simp)
  | gaveUp => exact hquiet rfl (by simp) (by simp) (by simp)
  | started => exact hquiet rfl (by simp) (by simp) (by simp)
  | startupFailed => exact hquiet rfl (by simp) (by simp) (by simp)
  | _ => exact hnothing rfl

theorem holds_taken_trans {p : Proxy} {s s' : State} {e : Event} (hk : s.Keyed) (hb : s.Boots)
    (hh : s.Holds) (h : Trans p s e s') (boot : BootId) (slot : SocketAddr)
    (hc : .consumed boot slot .ready ∈ s'.log) :
    (hearing boot slot s'.log).waking = false ∧
    (delivered boot s'.log).Perm (capped maxHeldClients (initialsOf boot slot s'.log)).toList := by
  obtain ⟨effects, hlog, hpasses, hspawn⟩ := h.passes
  have hold : .consumed boot slot .ready ∈ s.log →
      (∀ (call : Forward) (slot' : SocketAddr), call.origin = .held slot' boot →
        .forwarded call ∉ effects) →
      (hearing boot slot s'.log).waking = false ∧
      (delivered boot s'.log).Perm
        (capped maxHeldClients (initialsOf boot slot s'.log)).toList := by
    intro hc hcalls
    refine hh.taken_of_silent hc hlog (fun config console client datagram hm => ?_) hcalls
    -- A boot that was consumed has a number already given away.
    have htrace : .consumed boot slot .ready ∈ trace boot s.log := mem_trace.mpr ⟨hc, rfl⟩
    rw [hb.unborn boot (Nat.le_of_eq (hspawn _ _ _ _ _ hm).symm)] at htrace
    cases htrace
  rw [hlog] at hc
  cases hpasses with
  | quiet hcalls htaken =>
    rcases List.mem_append.mp hc with hc | hc
    · exact hold hc fun call slot' ho => hcalls call slot' boot ho
    · exact (htaken boot slot hc).elim
  | @tookOver slot' managed boot' calls hslot hlife hentries horigin =>
    have hlived := hb.life slot' managed boot' .ready hslot (by rw [hlife]; rfl)
    rcases List.mem_append.mp hc with hc | hc
    · refine hold hc fun call slot₂ ho hm => ?_
      obtain ⟨call', hcall', he⟩ := List.mem_map.mp (List.mem_of_ne_of_mem (by simp) hm)
      obtain rfl := Effect.forwarded.inj he
      rw [horigin call' hcall'] at ho
      obtain ⟨_, rfl⟩ := Origin.held.inj ho
      exact (hlived.early (by simp) (by simp) _ (mem_trace.mpr ⟨hc, rfl⟩)).1 slot .ready rfl
    · have hbs : boot = boot' ∧ slot = managed.config.backend := by simpa using hc
      obtain ⟨rfl, rfl⟩ := hbs
      have hkey := hk slot' managed hslot
      rw [hkey] at hlog ⊢
      obtain ⟨hw, hcap, _⟩ := hh.waking slot' managed boot _ hslot hlife
      have hhear : hearing boot slot' s'.log = ⟨false, initialsOf boot slot' s.log⟩ := by
        rw [hlog, hearing_append, List.foldl_cons]
        rw [hear_calls]
        simp [Hearing.hear, initialsOf]
      have hnone : delivered boot s.log = [] := by
        refine delivered_eq_nil fun call slot₂ ho hm => ?_
        have hown : (Effect.forwarded call).boot? = some boot := by simp [Effect.boot?, ho]
        exact (hlived.early (by simp) (by simp) _ (mem_trace.mpr ⟨hm, hown⟩)).2 call rfl
      refine ⟨by rw [hhear], ?_⟩
      rw [initialsOf, hhear, ← hcap, hlog, delivered_append, hnone, List.nil_append]
      exact (delivered_calls horigin) ▸ hentries

theorem holds (p : Proxy) (now : Instant) (events : List Event) : (p.run now events).Holds := by
  refine run_induction State.Holds ⟨?_, by simp [Proxy.init]⟩ ?_ events
  · intro slot managed boot task hslot hlife
    obtain ⟨route, _, _, rfl⟩ := slots_keyed hslot
    cases hlife
  · intro before e s' hh h
    have hb := boots p now before
    refine ⟨?_, fun boot slot => holds_taken_trans (keyed p now before) hb hh h boot slot⟩
    intro slot managed boot task
    exact holds_waking_trans hb (slotsConsistent p now before) hh h slot managed boot task

end Sleepytale
