import Sleepytale.Scoping

/-!
# A tick comes to every slot

The steps of a tick are two half turns for each slot, and other events stand between
them: the tasks of the backends go on, and time passes. `Phase.wait` counts the half
turns that are left until the tick comes to a given slot, and no event adds to it.
So whatever a slot waits for that a turn brings is there after one tick.
-/

namespace Sleepytale

open Sleepytale.Net
open Sleepytale.Lib.Maps
open Sleepytale.Lib.Lists
open Sleepytale.Lib.Machine
open Std (ExtTreeMap)

namespace Phase

instance decidableInLoop (phase : Phase) : Decidable phase.InLoop :=
  match phase with
  | serving => inferInstanceAs (Decidable True)
  | ticking _ => inferInstanceAs (Decidable True)
  | checking _ _ => inferInstanceAs (Decidable True)
  | draining _ => inferInstanceAs (Decidable False)
  | finished => inferInstanceAs (Decidable False)

/-- The tick has not yet come to `slot`. -/
def Ahead (slot : SocketAddr) : Phase → Prop
  | serving => True
  | ticking slots => slot ∈ slots
  | checking _ rest => slot ∈ rest
  | draining _ => False
  | finished => False

/-- How many half turns are left until the tick comes to `slot`, of `n` slots at most. -/
def wait (slot : SocketAddr) (n : Nat) : Phase → Nat
  | serving => 2 * n - 1
  | ticking slots => 2 * slots.idxOf slot
  | checking _ rest => 2 * rest.idxOf slot + 1
  | draining _ => 0
  | finished => 0

/-- How many slots the tick has not finished with. -/
def left : Phase → Nat
  | ticking slots => slots.length
  | checking _ rest => rest.length + 1
  | _ => 0

@[simp] theorem left_tick (rest : List SocketAddr) : (tick rest).left = rest.length := by
  cases rest <;> rfl

@[simp] theorem left_drain (rest : List SocketAddr) : (drain rest).left = 0 := by
  cases rest <;> rfl

@[simp] theorem wait_serving (slot : SocketAddr) (n : Nat) :
    serving.wait slot n = 2 * n - 1 := rfl

@[simp] theorem wait_ticking (slot : SocketAddr) (n : Nat) (slots : List SocketAddr) :
    (ticking slots).wait slot n = 2 * slots.idxOf slot := rfl

@[simp] theorem wait_checking (slot : SocketAddr) (n : Nat) (first : SocketAddr)
    (rest : List SocketAddr) : (checking first rest).wait slot n = 2 * rest.idxOf slot + 1 := rfl

theorem tick_of_mem {slot : SocketAddr} {rest : List SocketAddr} (h : slot ∈ rest) :
    tick rest = ticking rest := by
  cases rest with
  | nil => cases h
  | cons first rest => rfl

end Phase

/-- How an event can change the phase: the tick starts or takes its next half turn,
the loop is left or its slots are dealt with. -/
inductive Phase.Step (keys : List SocketAddr) (phase : Phase) (e : Event) : Phase → Prop where
  | stays : Step keys phase e phase
  | starts (h : phase = .serving) : Step keys phase e (.tick keys)
  | finishes {first : SocketAddr} {rest : List SocketAddr} (env : FinishEnv)
      (h : phase = .ticking (first :: rest)) (he : e = .finishSlot env) :
      Step keys phase e (.checking first rest)
  | checks {first : SocketAddr} {rest : List SocketAddr} (env : CheckEnv)
      (h : phase = .checking first rest) (he : e = .checkSlot env) : Step keys phase e (.tick rest)
  | leaves (rest : List SocketAddr) : Step keys phase e (.drain rest)

section Transitions

variable {p : Proxy} {s s' : State} {e : Event} {slot : SocketAddr} {n : Nat}

theorem Trans.phase_step (h : Trans p s e s') : s.phase.Step s.backends.keys e s'.phase := by
  cases h with
  | tickStarted hphase => exact .starts hphase
  | nothingFinished hphase => exact .finishes _ hphase rfl
  | ready hphase => exact .finishes _ hphase rfl
  | bootFailed hphase => exact .finishes _ hphase rfl
  | notRunning hphase => exact .checks _ hphase rfl
  | exited hphase => exact .checks _ hphase rfl
  | checkFailed hphase => exact .checks _ hphase rfl
  | busy hphase => exact .checks _ hphase rfl
  | idling hphase => exact .checks _ hphase rfl
  | idleStopped hphase => exact .checks _ hphase rfl
  | shutDown => exact .leaves _
  | nothingToDrain => exact .leaves _
  | drained => exact .leaves _
  | drainedFailed => exact .leaves _
  | gaveUp => exact .leaves _
  | _ => exact .stays

/-- The loop is not entered again. -/
theorem Trans.inLoop (h : Trans p s e s') (hloop : s'.phase.InLoop) : s.phase.InLoop := by
  have hstep := h.phase_step
  generalize s'.phase = phase' at hstep hloop
  cases hstep with
  | stays => exact hloop
  | starts hphase => rw [hphase]; trivial
  | finishes _ hphase => rw [hphase]; trivial
  | checks _ hphase => rw [hphase]; trivial
  | leaves => exact (Phase.drain_not_inLoop _ hloop).elim

theorem Trans.mem_keys (hm : slot ∈ s.backends.keys) (h : Trans p s e s') :
    slot ∈ s'.backends.keys := by
  rw [ExtTreeMap.mem_keys] at hm ⊢
  rcases h.slot_cases with hb | ⟨changed, managed, managed', hslot, hb, _⟩
  · rw [hb]
    exact hm
  · rw [hb]
    exact ExtTreeMap.mem_insert.mpr (Or.inr hm)

theorem Trans.size (h : Trans p s e s') : s'.backends.size = s.backends.size := by
  rcases h.slot_cases with hb | ⟨changed, managed, managed', hslot, hb, _⟩
  · rw [hb]
  · have hm : changed ∈ s.backends := by
      rw [← ExtTreeMap.isSome_getElem?_iff_mem, hslot]
      rfl
    rw [hb, ExtTreeMap.size_insert, if_pos (ExtTreeMap.mem_iff_contains.mp hm)]

theorem Trans.left (hsize : s.backends.size ≤ n) (hleft : s.phase.left ≤ n)
    (h : Trans p s e s') : s'.phase.left ≤ n := by
  have hstep := h.phase_step
  generalize s'.phase = phase' at hstep ⊢
  cases hstep with
  | stays => exact hleft
  | starts =>
    rw [Phase.left_tick, ExtTreeMap.length_keys]
    exact hsize
  | finishes _ hphase =>
    rw [hphase] at hleft
    exact hleft
  | checks _ hphase =>
    rw [hphase] at hleft
    rw [Phase.left_tick]
    exact Nat.le_of_succ_le hleft
  | leaves =>
    rw [Phase.left_drain]
    exact Nat.zero_le n

/-- The tick will come to `slot`, one of `n` slots at most. -/
structure State.Ahead (s : State) (slot : SocketAddr) (n : Nat) : Prop where
  mem : slot ∈ s.backends.keys
  size : s.backends.size ≤ n
  left : s.phase.left ≤ n
  ahead : s.phase.Ahead slot

theorem State.Ahead.idxOf_lt (ha : s.Ahead slot n) : s.backends.keys.idxOf slot < n := by
  have hlt := List.idxOf_lt_length_of_mem ha.mem
  rw [ExtTreeMap.length_keys] at hlt
  exact Nat.lt_of_lt_of_le hlt ha.size

/-- The first half of the slot's turn. -/
def State.Turn (slot : SocketAddr) (s : State) (e : Event) : Prop :=
  ∃ rest env, s.phase = .ticking (slot :: rest) ∧ e = .finishSlot env

/-- No event adds to the wait. It ends with the slot's turn. -/
theorem ahead_trans (ha : s.Ahead slot n) (h : Trans p s e s') :
    ¬ s'.phase.InLoop ∨ s.Turn slot e ∨
      (s'.Ahead slot n ∧ s'.phase.wait slot n ≤ s.phase.wait slot n) := by
  have hmem' := h.mem_keys ha.mem
  have hsize' : s'.backends.size ≤ n := by
    rw [h.size]
    exact ha.size
  have hleft' := h.left ha.size ha.left
  have hahead := ha.ahead
  have hlt := ha.idxOf_lt
  have hgoes : s'.phase.Ahead slot → s'.phase.wait slot n ≤ s.phase.wait slot n →
      s'.Ahead slot n ∧ s'.phase.wait slot n ≤ s.phase.wait slot n :=
    fun hahead' hwait => ⟨⟨hmem', hsize', hleft', hahead'⟩, hwait⟩
  have hstep := h.phase_step
  generalize s'.phase = phase' at hstep hgoes ⊢
  cases hstep with
  | stays => exact Or.inr (Or.inr (hgoes hahead (Nat.le_refl _)))
  | starts hphase =>
    refine Or.inr (Or.inr (hgoes ?_ ?_))
    · rw [Phase.tick_of_mem ha.mem]
      exact ha.mem
    · rw [Phase.tick_of_mem ha.mem, hphase, Phase.wait_serving, Phase.wait_ticking]
      omega
  | @finishes first rest env hphase he =>
    by_cases hne : first = slot
    · subst hne
      exact Or.inr (Or.inl ⟨rest, env, hphase, he⟩)
    · rw [hphase] at hahead
      have hrest : slot ∈ rest := (List.mem_cons.mp hahead).resolve_left fun heq => hne heq.symm
      refine Or.inr (Or.inr (hgoes hrest ?_))
      rw [hphase, Phase.wait_checking, Phase.wait_ticking, List.idxOf_cons_ne rest hne]
      omega
  | @checks first rest env hphase he =>
    rw [hphase] at hahead
    have hrest : slot ∈ rest := hahead
    refine Or.inr (Or.inr (hgoes ?_ ?_))
    · rw [Phase.tick_of_mem hrest]
      exact hrest
    · rw [Phase.tick_of_mem hrest, hphase, Phase.wait_checking, Phase.wait_ticking]
      omega
  | leaves => exact Or.inl (Phase.drain_not_inLoop _)

end Transitions

/-- A turn for each slot: what its startup task did, and whether it still runs. -/
def slotTurns (turns : List (FinishEnv × CheckEnv)) : List Event :=
  turns.flatMap fun turn => [.finishSlot turn.1, .checkSlot turn.2]

/-- A tick, with as many turns as there are environments for them. -/
def tickTurns (turns : List (FinishEnv × CheckEnv)) : List Event :=
  .tickStart :: slotTurns turns

theorem tickTurns_length (turns : List (FinishEnv × CheckEnv)) :
    (tickTurns turns).length = 2 * turns.length + 1 := by
  rw [tickTurns, List.length_cons, slotTurns, length_flatMap_pair]

/-- The event that a tick has in its `i`th place: its start, and after that the two
halves of a turn alternately. -/
inductive TickKey (i : Nat) : Event → Prop where
  | start (h : i = 0) : TickKey i .tickStart
  | finish (h : i % 2 = 1) (env : FinishEnv) : TickKey i (.finishSlot env)
  | check (h : 0 < i) (heven : i % 2 = 0) (env : CheckEnv) : TickKey i (.checkSlot env)

theorem tickKey_of_getElem? {turns : List (FinishEnv × CheckEnv)} {i : Nat} {e : Event}
    (h : (tickTurns turns)[i]? = some e) : TickKey i e := by
  rcases i with _ | i
  · obtain rfl : .tickStart = e := Option.some.inj h
    exact .start rfl
  · rcases getElem?_flatMap_pair h with ⟨heven, turn, rfl⟩ | ⟨hodd, turn, rfl⟩
    · exact .finish (by omega) turn.1
    · exact .check (by omega) (by omega) turn.2

/-- The tick gets nearer with each event of its own. Before the first half of a turn
the wait is even, before the second half it is odd, so a half turn that comes in
the wrong phase was not needed yet. -/
theorem ahead_next {p : Proxy} {s : State} {e : Event} {slot : SocketAddr} {n i : Nat}
    (ha : s.Ahead slot n) (hkey : TickKey i e) (hwait : s.phase.wait slot n + i ≤ 2 * n - 1) :
    ¬ (p.step s e).phase.InLoop ∨ s.Turn slot e ∨
      ((p.step s e).Ahead slot n ∧
        (p.step s e).phase.wait slot n + (i + 1) ≤ 2 * n - 1) := by
  have hlt := ha.idxOf_lt
  have hahead := ha.ahead
  rcases ahead_trans ha (step_trans p s e) with hleft | hturn | ⟨ha', hless⟩
  · exact Or.inl hleft
  · exact Or.inr (Or.inl hturn)
  · refine Or.inr (Or.inr ⟨ha', ?_⟩)
    cases hphase : s.phase with
    | serving =>
      rw [hphase, Phase.wait_serving] at hwait hless
      cases hkey with
      | start =>
        have hphase' : (p.step s .tickStart).phase = .tick s.backends.keys := by
          simp [Proxy.step, hphase]
        rw [hphase', Phase.tick_of_mem ha.mem, Phase.wait_ticking] at hless ⊢
        omega
      | finish => omega
      | check => omega
    | ticking slots =>
      rw [hphase, Phase.wait_ticking] at hwait hless
      cases hkey with
      | start => omega
      | finish hodd env =>
        rw [hphase] at hahead
        cases slots with
        | nil => cases hahead
        | cons first rest =>
          have hphase' : (p.step s (.finishSlot env)).phase = .checking first rest := by
            simp [Proxy.step, hphase]
          rw [hphase', Phase.wait_checking] at hless ⊢
          omega
      | check => omega
    | checking first rest =>
      rw [hphase, Phase.wait_checking] at hwait hless
      cases hkey with
      | start =>
        -- A tick is under way already: one slot of it at least is done with.
        have hleft := ha.left
        rw [hphase] at hahead hleft
        have hrest : rest.idxOf slot < rest.length := List.idxOf_lt_length_of_mem hahead
        have hone : rest.length + 1 ≤ n := hleft
        omega
      | finish => omega
      | check hlater heven env =>
        have hphase' : (p.step s (.checkSlot env)).phase = .tick rest := by
          simp [Proxy.step, hphase]
        rw [hphase] at hahead
        rw [hphase', Phase.tick_of_mem hahead, Phase.wait_ticking] at hless ⊢
        omega
    | draining slots =>
      rw [hphase] at hahead
      exact hahead.elim
    | finished =>
      rw [hphase] at hahead
      exact hahead.elim

/-- In every continuation that contains a whole tick the slot gets its turn, unless
the loop is left. -/
theorem exists_first_turn {p : Proxy} {s : State} {slot : SocketAddr} {after : List Event}
    {turns : List (FinishEnv × CheckEnv)} (hserving : s.phase = .serving)
    (hmem : slot ∈ s.backends.keys) (hsize : s.backends.size ≤ turns.length)
    (htick : (tickTurns turns).Sublist after) (hloop : (run p.step s after).phase.InLoop) :
    ∃ before e later, after = before ++ e :: later ∧ (run p.step s before).Turn slot e ∧
      ∀ t e', Passes p.step s before t e' → ¬ t.Turn slot e' := by
  apply exists_first_pass
  by_contra hnever
  have hno : ∀ t e, Passes p.step s after t e → ¬ t.Turn slot e :=
    fun t e hpass hturn => hnever ⟨t, e, hpass, hturn⟩
  have hend : ¬ (run p.step s after).phase.InLoop ∨
      ((run p.step s after).Ahead slot turns.length ∧
        (run p.step s after).phase.wait slot turns.length + (tickTurns turns).length ≤
          2 * turns.length - 1) := by
    refine run_stages (fun i (t : State) => ¬ t.phase.InLoop ∨
      (t.Ahead slot turns.length ∧ t.phase.wait slot turns.length + i ≤ 2 * turns.length - 1))
      ?_ ?_ (Or.inr ⟨⟨hmem, hsize, ?_, ?_⟩, ?_⟩) htick
    · intro i t e hpass hat
      rcases hat with hleft | ⟨ha, hwait⟩
      · exact Or.inl fun hl => hleft ((step_trans p t e).inLoop hl)
      · rcases ahead_trans ha (step_trans p t e) with hleft | hturn | ⟨ha', hless⟩
        · exact Or.inl hleft
        · exact absurd hturn (hno t e hpass)
        · exact Or.inr ⟨ha', by omega⟩
    · intro i t e hpass hkey hat
      rcases hat with hleft | ⟨ha, hwait⟩
      · exact Or.inl fun hl => hleft ((step_trans p t e).inLoop hl)
      · rcases ahead_next ha (tickKey_of_getElem? hkey) hwait with hleft | hturn | ha'
        · exact Or.inl hleft
        · exact absurd hturn (hno t e hpass)
        · exact Or.inr ha'
    · rw [hserving]
      exact Nat.zero_le _
    · rw [hserving]
      trivial
    · rw [hserving]
      exact Nat.le_refl _
  rcases hend with hleft | ⟨_, hwait⟩
  · exact hleft hloop
  · rw [tickTurns_length] at hwait
    omega

end Sleepytale
