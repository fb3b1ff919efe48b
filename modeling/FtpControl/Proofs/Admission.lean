import FtpControl.Proofs.Replay

/-!
This module contains the connections that come in during a run of a listener and are not turned
away. All that the run shows of such a connection is what it does with nobody beside it.
-/

namespace FtpControl

namespace Listener

/-- A connection of a run that came in and was not turned away. -/
structure Admission (l : Listener) (stimuli : List Stimulus) where
  before : List Stimulus
  peer : String
  control : Channel
  later : List Stimulus
  stimuli_eq : stimuli = before ++ .connected peer control :: later
  accepting : (l.run before).1.accepting = true
  places_ne_zero : (l.run before).1.places ≠ 0

namespace Admission

variable {l : Listener} {stimuli : List Stimulus} (a : Admission l stimuli)

def serial : Nat :=
  (l.run a.before).1.started

def connection : Connection :=
  (l.run a.before).1.newConnection a.peer a.control

def alone (moves : List Connection.Move) : Connection.Step :=
  ((a.connection.start.1.replay moves).1,
    a.connection.start.2 ++ (a.connection.start.1.replay moves).2)

def moves : List Connection.Move :=
  a.later.filterMap (·.move? a.serial)

def joined : Listener :=
  ((l.run a.before).1.connect a.peer a.control).1

def upTo (first : List Stimulus)
    : Admission l (a.before ++ .connected a.peer a.control :: first) where
  before := a.before
  peer := a.peer
  control := a.control
  later := first
  stimuli_eq := rfl
  accepting := a.accepting
  places_ne_zero := a.places_ne_zero

theorem started_joined : a.joined.started = a.serial + 1 := by
  unfold joined connect
  split
  . next hplaces => exact absurd hplaces a.places_ne_zero
  . rfl

theorem connections_joined
    : a.joined.connections = (l.run a.before).1.connections ++ [a.connection.start.1] := by
  unfold joined connect
  split
  . next hplaces => exact absurd hplaces a.places_ne_zero
  . rfl

theorem effects_connect
    : ((l.run a.before).1.connect a.peer a.control).2
        =
      .served a.serial a.connection.log ::
        a.connection.start.2.map (.happened a.serial a.connection.log) := by
  unfold connect
  split
  . next hplaces => exact absurd hplaces a.places_ne_zero
  . rfl

theorem run_eq
    : l.run stimuli
        =
      ((a.joined.run a.later).1,
        (l.run a.before).2 ++ (.served a.serial a.connection.log ::
          a.connection.start.2.map (.happened a.serial a.connection.log)
            ++ (a.joined.run a.later).2)) := by
  have hstep : (l.run a.before).1.step (.connected a.peer a.control)
      = (l.run a.before).1.connect a.peer a.control := if_pos a.accepting
  conv => lhs; rw [a.stimuli_eq]
  rw [run_append, run_cons, hstep, effects_connect]
  rfl

theorem find?_joined (hnumbered : l.Numbered)
    : a.joined.find? a.serial = some a.connection.start.1 := by
  have hnone : (l.run a.before).1.connections.find? (·.serial == a.serial) = none := by
    apply List.find?_eq_none.2
    intro c hc
    have hlt := (hnumbered.run a.before).lt_started c hc
    exact fun heq => Nat.ne_of_lt hlt (eq_of_beq heq)
  have hfound : (a.connection.start.1.serial == a.serial) = true := beq_self_eq_true _
  unfold find?
  rw [connections_joined, List.find?_append, hnone, List.find?_singleton, hfound]
  rfl

theorem numbered_joined (hnumbered : l.Numbered) : a.joined.Numbered := by
  exact (hnumbered.run a.before).of_moves (moves_connect (l.run a.before).1 a.peer a.control)

theorem serial_lt (hnumbered : l.Numbered) : a.serial < (l.run stimuli).1.started := by
  have hle := (a.numbered_joined hnumbered).started_le_run a.later
  rw [started_joined] at hle
  rw [a.run_eq]
  exact hle

theorem fate (hnumbered : l.Numbered)
    : (l.run stimuli).1.Fate a.serial (a.alone a.moves).1
          ((l.run stimuli).2.filterMap (Effect.notice? a.serial))
        ∧
      (l.run stimuli).2.filterMap (Effect.event? a.serial) = (a.alone a.moves).2 := by
  have hlt : a.serial < a.joined.started := by
    rw [started_joined]
    exact Nat.lt_succ_self _
  have hheld : a.joined.Fate a.serial a.connection.start.1 [] :=
    @Fate.held _ _ _ false (a.find?_joined hnumbered) (by simp)
  obtain ⟨hrun, hlater⟩ := hheld.run (a.numbered_joined hnumbered) hlt a.later
  obtain ⟨hevents, hnotices⟩ :
      (l.run a.before).2.filterMap (Effect.event? a.serial) = []
        ∧
      (l.run a.before).2.filterMap (Effect.notice? a.serial) = [] :=
    hnumbered.filterMap_run_eq_nil a.before (Nat.le_refl _)
  rw [a.run_eq]
  constructor
  . dsimp only
    rw [List.filterMap_append, hnotices, List.filterMap_append, List.filterMap_cons_none rfl,
      filterMap_notice?_happened]
    exact hrun
  . dsimp only
    rw [List.filterMap_append, hevents, List.filterMap_append, List.filterMap_cons_none rfl,
      filterMap_event?_happened, if_pos rfl, hlater]
    rfl

end Admission

end Listener

end FtpControl
