import Mathlib
import FtpControl.Proofs.Admission
import FtpControl.Proofs.Capacity

/-!
This module contains the accounts of a listener: the numbers that it gives to sessions and the
notices that it sends when they end. Numbers are given in the order in which connections come in,
and a session that has ended is told of once, whatever else happens in between.
-/

namespace FtpControl

namespace Connection

theorem vacated_of_vacate {c left : Connection} (hover : c.isOver = true)
    (h : c.vacate = some left) : left.vacated = true := by
  unfold vacate at h
  rw [hover, Bool.true_and] at h
  split at h
  . obtain ⟨termination, _, rfl⟩ := Option.map_eq_some_iff.1 h
    rfl
  . next hvacated =>
    rw [← Option.some.inj h]
    simpa using hvacated

theorem vacate_of_vacated {c : Connection} (h : c.vacated = true) : c.vacate = some c := by
  unfold vacate
  rw [h, Bool.not_true, Bool.and_false]
  rfl

theorem termination?_eq_some_iff {c : Connection} {termination : Termination}
    : c.termination? = some termination
        ↔
      termination.session = c.log.session
        ∧
      termination.peer = c.log.peer
        ∧
      c.session.phase = .ended termination.reason
        ∧
      c.session.state = termination.state := by
  unfold termination? Session.termination?
  cases c.session.phase with
  | ended reason =>
    constructor
    . intro h
      rw [← Option.some.inj h]
      exact ⟨rfl, rfl, rfl, rfl⟩
    . rintro ⟨hsession, hpeer, hreason, hstate⟩
      rw [← hsession, ← hpeer, hstate, Phase.ended.inj hreason]
  | _ => simp

end Connection

namespace Listener

variable {l : Listener} {serial : Nat} {c : Connection} {notices : List Termination}

def admits? (l : Listener) : Stimulus → Option String
  | .connected peer _ => if l.accepting && l.places != 0 then some peer else none
  | _ => none

def admitted (l : Listener) : List Stimulus → List String
  | [] => []
  | stimulus :: rest => (l.admits? stimulus).toList ++ admitted (l.step stimulus).1 rest

structure Counts (l : Listener) (admitted : List String) (step : Step) : Prop where
  log_eq : step.1.log = l.log
  started_eq : step.1.started = l.started + admitted.length
  served_eq : step.2.filterMap Effect.served?
    = admitted.mapIdx fun i peer => l.log.forConnection (.ofNat (l.started + i + 1)) peer

theorem counts_advance (l : Listener) (serial : Nat) (move : Connection → Connection.Step)
    : l.Counts [] (l.advance serial move) := by
  unfold advance
  split
  . exact ⟨rfl, rfl, rfl⟩
  . exact ⟨rfl, rfl, by simp [Function.comp_def]⟩

theorem counts_vacate (l : Listener) (serial : Nat) : l.Counts [] (l.vacate serial) := by
  have heffects := effects_vacate l serial
  refine ⟨?_, ?_, by rw [heffects]; rfl⟩
  all_goals
    unfold vacate
    split
    . rfl
    . split
      . dsimp only
        split <;> rfl
      . rfl

theorem counts_report (l : Listener) (serial : Nat) : l.Counts [] (l.report serial) := by
  unfold report
  split
  . exact ⟨rfl, rfl, rfl⟩
  . split
    . exact ⟨rfl, rfl, by simp [Function.comp_def]⟩
    . exact ⟨rfl, rfl, rfl⟩

theorem counts_connect (l : Listener) (peer : String) (control : Channel)
    : l.Counts (if l.places != 0 then some peer else none).toList (l.connect peer control) := by
  unfold connect
  cases hplaces : l.places with
  | zero => exact ⟨rfl, rfl, by simp⟩
  | succ places =>
    exact ⟨rfl, rfl, by simp [Function.comp_def, newConnection, nextId, Connection.start]⟩

theorem counts_step (l : Listener) (stimulus : Stimulus)
    : l.Counts (l.admits? stimulus).toList (l.step stimulus) := by
  cases stimulus with
  | connected peer control =>
    rw [step, admits?]
    cases l.accepting with
    | true => exact counts_connect l peer control
    | false => exact ⟨rfl, rfl, rfl⟩
  | acceptFailed reason =>
    rw [step, complain]
    split
    . exact ⟨rfl, rfl, rfl⟩
    . exact ⟨rfl, rfl, rfl⟩
  | received serial inputs => exact counts_advance l serial (Connection.receive inputs)
  | settled serial n verdict => exact counts_advance l serial (Connection.settle n verdict)
  | vacated serial => exact counts_vacate l serial
  | reported serial => exact counts_report l serial
  | stopped =>
    rw [step, stop]
    split
    . exact ⟨rfl, rfl, rfl⟩
    . exact ⟨rfl, rfl, rfl⟩

theorem counts_run (l : Listener) (stimuli : List Stimulus)
    : l.Counts (l.admitted stimuli) (l.run stimuli) := by
  induction stimuli generalizing l with
  | nil => exact ⟨rfl, rfl, rfl⟩
  | cons stimulus rest ih =>
    have hstep := counts_step l stimulus
    have hrest := ih (l.step stimulus).1
    rw [run_cons, admitted]
    constructor
    . exact hrest.log_eq.trans hstep.log_eq
    . rw [List.length_append, ← Nat.add_assoc, ← hstep.started_eq]
      exact hrest.started_eq
    . rw [List.filterMap_append, hstep.served_eq, hrest.served_eq, List.mapIdx_append, hstep.log_eq,
        hstep.started_eq]
      have hshift : ∀ i, l.started + (l.admits? stimulus).toList.length + i + 1
          = l.started + (i + (l.admits? stimulus).toList.length) + 1 := by
        intro i
        omega
      simp only [hshift]

theorem Moves.accepting_eq_false {step : Step} (h : l.Moves step) (hstopped : l.accepting = false)
    : step.1.accepting = false := by
  cases h with
  | stopped note => rfl
  | _ => exact hstopped

theorem Numbered.admitted_eq_nil (h : l.Numbered) (hstopped : l.accepting = false)
    (stimuli : List Stimulus) : l.admitted stimuli = [] := by
  induction stimuli generalizing l with
  | nil => rfl
  | cons stimulus rest ih =>
    have hmoves := h.moves_step stimulus
    have hnone : l.admits? stimulus = none := by
      cases stimulus with
      | connected peer control => simp [admits?, hstopped]
      | _ => rfl
    rw [admitted, hnone, ih (h.of_moves hmoves) (hmoves.accepting_eq_false hstopped)]
    rfl

def Released (l : Listener) (serial : Nat) : Prop :=
  ∀ c, l.find? serial = some c → c.vacated = true

theorem released_vacate (h : l.Fate serial c notices) (hover : c.isOver = true)
    : (l.vacate serial).1.Released serial := by
  intro found hfound
  rw [find?_vacate, if_pos rfl] at hfound
  cases h with
  | @held vacated hheld hvacated =>
    have hended : ({ c with vacated } : Connection).isOver = true := hover
    rw [hheld, Option.bind_some] at hfound
    exact Connection.vacated_of_vacate hended hfound
  | gone hgone hover =>
    rw [hgone] at hfound
    contradiction

theorem Released.step (h : l.Released serial) (hstarted : serial < l.started)
    (stimulus : Stimulus) : (l.step stimulus).1.Released serial := by
  intro found hfound
  cases concerns hstarted stimulus with
  | passed hmove hpasses =>
    rw [hpasses.find?_eq] at hfound
    exact h found hfound
  | @moved _ m hmove hstep =>
    have hkeeps := Connection.keeps_move m
    rw [hstep, find?_advance _ _ _ fun c => (hkeeps c).serial_eq, if_pos rfl] at hfound
    obtain ⟨c, hc, rfl⟩ := Option.map_eq_some_iff.1 hfound
    rw [(hkeeps c).vacated_eq]
    exact h c hc
  | vacated =>
    rw [Listener.step, find?_vacate, if_pos rfl] at hfound
    obtain ⟨c, hc, hvacate⟩ := Option.bind_eq_some_iff.1 hfound
    rw [Connection.vacate_of_vacated (h c hc), Option.some.injEq] at hvacate
    rw [← hvacate]
    exact h c hc
  | reported =>
    rw [Listener.step, find?_report, if_pos rfl, Option.filter_eq_some_iff] at hfound
    have hvacated := h found hfound.1
    rw [hvacated] at hfound
    exact absurd hfound.2 (by decide)

theorem Released.run (h : l.Released serial) (hnumbered : l.Numbered)
    (hstarted : serial < l.started) (stimuli : List Stimulus)
    : (l.run stimuli).1.Released serial := by
  induction stimuli generalizing l with
  | nil => exact h
  | cons stimulus rest ih =>
    have hmoves := hnumbered.moves_step stimulus
    exact ih (h.step hstarted stimulus) (hnumbered.of_moves hmoves)
      (Nat.lt_of_lt_of_le hstarted hmoves.started_le)

theorem notices_of_released {termination : Termination} (h : l.Fate serial c notices)
    (hnotifies : l.notifies = true) (hreleased : l.Released serial)
    (htermination : c.termination? = some termination)
    : notices ++ (l.report serial).2.filterMap (Effect.notice? serial) = [termination] := by
  rw [notices_report, if_pos rfl]
  cases h with
  | @held vacated hheld hvacated =>
    have hgiven : vacated = true := hreleased _ hheld
    have hsome : ({ c with vacated } : Connection).termination? = some termination := htermination
    rw [hheld, Option.elim_some, hnotifies, hsome, hgiven]
    rfl
  | gone hgone hover =>
    rw [hgone, hnotifies, htermination]
    rfl

theorem exists_of_admits? {stimulus : Stimulus} {peer : String}
    (h : l.admits? stimulus = some peer)
    : ∃ control, stimulus = .connected peer control ∧ l.accepting = true ∧ l.places ≠ 0 := by
  cases stimulus with
  | connected other control =>
    rw [admits?, Option.ite_none_right_eq_some, Bool.and_eq_true, bne_iff_ne] at h
    exact ⟨control, by rw [Option.some.inj h.2], h.1.1, h.1.2⟩
  | _ => simp [admits?] at h

theorem exists_admission (l : Listener) (stimuli : List Stimulus) {n : Nat} (hle : l.started ≤ n)
    (hlt : n < (l.run stimuli).1.started) : ∃ a : Admission l stimuli, a.serial = n := by
  induction stimuli generalizing l with
  | nil =>
    exact absurd hlt (Nat.not_lt.2 hle)
  | cons stimulus rest ih =>
    rw [run_cons] at hlt
    by_cases hnext : (l.step stimulus).1.started ≤ n
    . obtain ⟨a, ha⟩ := ih (l.step stimulus).1 hnext hlt
      refine ⟨⟨stimulus :: a.before, a.peer, a.control, a.later, ?_, a.accepting,
        a.places_ne_zero⟩, ha⟩
      rw [List.cons_append, ← a.stimuli_eq]
    . have hstarted := (counts_step l stimulus).started_eq
      cases hadmits : l.admits? stimulus with
      | none =>
        rw [hadmits, Option.toList_none, List.length_nil] at hstarted
        omega
      | some peer =>
        rw [hadmits, Option.toList_some, List.length_singleton] at hstarted
        obtain ⟨control, hstimulus, haccepting, hplaces⟩ := exists_of_admits? hadmits
        refine ⟨⟨[], peer, control, rest, by rw [hstimulus]; rfl, haccepting, hplaces⟩, ?_⟩
        change l.started = n
        omega

theorem Fate.length_le (h : l.Fate serial c notices) : notices.length ≤ 1 := by
  cases h with
  | held hheld hvacated => exact Nat.zero_le 1
  | gone hgone hover =>
    split
    . cases c.termination? <;> simp
    . exact Nat.zero_le 1

theorem Fate.termination?_of_mem (h : l.Fate serial c notices) {termination : Termination}
    (hmem : termination ∈ notices) : c.termination? = some termination := by
  cases h with
  | held hheld hvacated => contradiction
  | gone hgone hover =>
    split at hmem
    . exact Option.mem_toList.1 hmem
    . contradiction

theorem Fate.of_find? (h : l.Fate serial c notices) {found : Connection}
    (hfound : l.find? serial = some found)
    : found.session = c.session ∧ found.inbox = c.inbox ∧ notices = [] := by
  cases h with
  | held hheld hvacated =>
    rw [hheld] at hfound
    rw [← Option.some.inj hfound]
    exact ⟨rfl, rfl, rfl⟩
  | gone hgone hover =>
    rw [hgone] at hfound
    contradiction

theorem Fate.notices_eq_singleton {termination : Termination} (h : l.Fate serial c notices)
    (hnumbered : l.Numbered) (hstarted : serial < l.started) (hnotifies : l.notifies = true)
    (htermination : c.termination? = some termination) (second third : List Stimulus)
    : notices ++ (l.run (.vacated serial :: (second ++ .reported serial :: third))).2.filterMap
          (Effect.notice? serial)
        =
      [termination] := by
  have hover := Connection.isOver_of_termination? htermination
  have hgiven := hnumbered.of_moves (hnumbered.moves_vacate serial)
  have hlt : serial < (l.vacate serial).1.started :=
    Nat.lt_of_lt_of_le hstarted (hnumbered.moves_vacate serial).started_le
  -- The session keeps what it ended with while others go on.
  obtain ⟨hwaiting, _⟩ := (h.vacate hnumbered).run hgiven hlt second
  have hreleased := (released_vacate h hover).run hgiven hlt second
  have hkeeps := Connection.keeps_replay c (second.filterMap (·.move? serial))
  have hkept := (hkeeps.termination?_eq hover).trans htermination
  have hquiet := hgiven.run second
  have hnotifies' := (hgiven.notifies_run second).trans
    ((hnumbered.moves_vacate serial).notifies_eq.trans hnotifies)
  -- The notice is sent, and nothing comes after it.
  have htold := notices_of_released hwaiting hnotifies' hreleased hkept
  have hreport := hwaiting.report hquiet
  rw [htold] at hreport
  have hmoves := hquiet.moves_report serial
  obtain ⟨hlast, _⟩ := hreport.run (hquiet.of_moves hmoves)
    (Nat.lt_of_lt_of_le hlt (Nat.le_trans (hgiven.started_le_run second) hmoves.started_le)) third
  have hnone : (((((l.vacate serial).1.run second).1.report serial).1.run third).2.filterMap
      (Effect.notice? serial)) = [] := by
    have hlength := hlast.length_le
    rw [List.length_append, List.length_singleton] at hlength
    exact List.eq_nil_of_length_eq_zero (by omega)
  rw [run_cons, Listener.step, effects_vacate, List.nil_append, run_append, run_cons]
  dsimp only
  rw [List.filterMap_append, List.filterMap_append, Listener.step, hnone, List.append_nil,
    ← List.append_assoc]
  exact htold

namespace Admission

variable {stimuli : List Stimulus}

structure Accounted (a : Admission l stimuli) : Prop where
  served_eq : ((l.run stimuli).2.filterMap Effect.served?)[a.serial]?
    = some (l.log.forConnection (.ofNat (a.serial + 1)) a.peer)
  events_eq : (l.run stimuli).2.filterMap (Effect.event? a.serial) = (a.alone a.moves).2
  length_le : ((l.run stimuli).2.filterMap (Effect.notice? a.serial)).length ≤ 1
  own : ∀ termination ∈ (l.run stimuli).2.filterMap (Effect.notice? a.serial),
    termination.session = .ofNat (a.serial + 1)
      ∧
    termination.peer = a.peer
      ∧
    (a.alone a.moves).1.session.phase = .ended termination.reason
      ∧
    (a.alone a.moves).1.session.state = termination.state
  untold : ∀ c, (l.run stimuli).1.find? a.serial = some c
    → c.session = (a.alone a.moves).1.session
        ∧
      (l.run stimuli).2.filterMap (Effect.notice? a.serial) = []
  told : ∀ first second third termination,
    a.later = first ++ .vacated a.serial :: (second ++ .reported a.serial :: third)
      →
    (a.alone (first.filterMap (·.move? a.serial))).1.termination? = some termination
      →
    (l.run stimuli).2.filterMap (Effect.notice? a.serial) = [termination]

theorem log_connection (a : Admission l stimuli)
    : a.connection.log = l.log.forConnection (.ofNat (a.serial + 1)) a.peer := by
  rw [← (counts_run l a.before).log_eq]
  rfl

theorem log_alone (a : Admission l stimuli) (moves : List Connection.Move)
    : (a.alone moves).1.log = a.connection.log := by
  exact (Connection.keeps_replay a.connection.start.1 moves).log_eq

theorem getElem?_served (a : Admission l stimuli) (hstarted : l.started = 0)
    : ((l.run stimuli).2.filterMap Effect.served?)[a.serial]? = some a.connection.log := by
  have hbefore := counts_run l a.before
  have hlength : ((l.run a.before).2.filterMap Effect.served?).length = a.serial := by
    rw [hbefore.served_eq, List.length_mapIdx]
    have := hbefore.started_eq
    rw [hstarted, Nat.zero_add] at this
    exact this.symm
  rw [a.run_eq]
  dsimp only
  rw [List.filterMap_append, List.getElem?_append_right (Nat.le_of_eq hlength), hlength,
    Nat.sub_self]
  rfl

theorem accounted (a : Admission l stimuli) (hnumbered : l.Numbered) (hstarted : l.started = 0)
    (hnotifies : l.notifies = true) : a.Accounted := by
  obtain ⟨hfate, hevents⟩ := a.fate hnumbered
  constructor
  . rw [a.getElem?_served hstarted, log_connection]
  . exact hevents
  . exact hfate.length_le
  . intro termination hmem
    have htermination := hfate.termination?_of_mem hmem
    obtain ⟨hsession, hpeer, hreason, hstate⟩ := Connection.termination?_eq_some_iff.1 htermination
    rw [log_alone, log_connection] at hsession hpeer
    exact ⟨hsession, hpeer, hreason, hstate⟩
  . intro c hc
    obtain ⟨hsession, _, hnotices⟩ := hfate.of_find? hc
    exact ⟨hsession, hnotices⟩
  . intro first second third termination hlater htermination
    obtain ⟨hupTo, _⟩ := (a.upTo first).fate hnumbered
    have hprefix := hnumbered.run (a.before ++ .connected a.peer a.control :: first)
    have htold := hupTo.notices_eq_singleton hprefix ((a.upTo first).serial_lt hnumbered)
      ((hnumbered.notifies_run _).trans hnotifies) htermination second third
    have hrun : l.run stimuli = l.run ((a.before ++ .connected a.peer a.control :: first)
        ++ .vacated a.serial :: (second ++ .reported a.serial :: third)) := by
      apply congrArg l.run
      rw [List.append_assoc, List.cons_append, ← hlater]
      exact a.stimuli_eq
    rw [hrun, run_append, List.filterMap_append]
    exact htold

end Admission

theorem notifies_of_bind {host : Host} {config : ServerConfig} {settings : SessionSettings}
    {log : ServerLog} {records : List Record} {opened : Listener}
    (hbind : bind host config settings log = (records, .listening opened))
    : opened.notifies = true ∧ opened.log = log ∧ opened.settings = settings := by
  unfold bind at hbind
  split at hbind
  . simp at hbind
  . split at hbind
    . simp at hbind
    . dsimp only at hbind
      split at hbind
      . simp only [Prod.mk.injEq, Outcome.listening.injEq] at hbind
        obtain ⟨_, rfl⟩ := hbind
        exact ⟨rfl, rfl, rfl⟩
      . simp at hbind

theorem exists_admission_of_notified (hnumbered : l.Numbered) (hstarted : l.started = 0)
    (stimuli : List Stimulus) {termination : Termination}
    (hmem : .notified serial termination ∈ (l.run stimuli).2)
    : ∃ a : Admission l stimuli, a.serial = serial := by
  apply exists_admission l stimuli (by omega)
  rw [← Nat.not_le]
  intro hle
  obtain ⟨_, hnone⟩ := hnumbered.filterMap_run_eq_nil stimuli hle
  have hnotice : termination ∈ (l.run stimuli).2.filterMap (Effect.notice? serial) :=
    List.mem_filterMap.2 ⟨_, hmem, if_pos rfl⟩
  rw [hnone] at hnotice
  contradiction

theorem served_of_stopped (hnumbered : l.Numbered) (before later : List Stimulus)
    : (l.run (before ++ .stopped :: later)).2.filterMap Effect.served?
        =
      (l.run before).2.filterMap Effect.served? := by
  have hbefore := hnumbered.run before
  have hstop : ((l.run before).1.step .stopped).1.accepting = false := by
    rw [step, stop]
    split
    . rfl
    . next h => exact Bool.eq_false_iff.2 h
  have hquiet := (hbefore.of_moves (hbefore.moves_step .stopped)).admitted_eq_nil hstop later
  have hfirst := (counts_step (l.run before).1 .stopped).served_eq
  have hlater := (counts_run ((l.run before).1.step .stopped).1 later).served_eq
  rw [hquiet] at hlater
  rw [run_append, run_cons]
  dsimp only
  rw [List.filterMap_append, List.filterMap_append, hfirst, hlater]
  exact List.append_nil _

theorem map_session_mapIdx (log : ServerLog) (peers : List String) (hfew : peers.length < 2 ^ 64)
    : (peers.mapIdx fun i peer => log.forConnection (.ofNat (i + 1)) peer).map (·.session.toNat)
        =
      List.range' 1 peers.length := by
  apply List.ext_getElem
  . simp
  . intro i hi _
    rw [List.length_map, List.length_mapIdx] at hi
    rw [List.getElem_map, List.getElem_mapIdx, List.getElem_range', ServerLog.forConnection]
    have hlt : i + 1 < UInt64.size := Nat.lt_of_le_of_lt hi hfew
    rw [UInt64.toNat_ofNat_of_lt' hlt]
    omega

/--
The accounts of sessions, whatever happens to the listener and in whatever order. The numbers that
it gives out are 1, 2, 3 and so on for the connections that it does not turn away, every session has
its account, notices are about sessions only, and when the listener has been asked to stop there are
no new sessions.
-/
theorem run_accounts_for_sessions (host : Host) (config : ServerConfig)
    (settings : SessionSettings) (log : ServerLog) (stimuli : List Stimulus)
    {records : List Record} {opened : Listener}
    (hbind : bind host config settings log = (records, .listening opened))
    : let result := opened.run stimuli
      let logs := result.2.filterMap Effect.served?
      (logs = (opened.admitted stimuli).mapIdx fun i peer => log.forConnection (.ofNat (i + 1)) peer)
        ∧
      (logs.length < 2 ^ 64 → logs.map (·.session.toNat) = List.range' 1 logs.length)
        ∧
      (∀ a : Admission opened stimuli, a.Accounted)
        ∧
      (∀ serial termination, .notified serial termination ∈ result.2
        → ∃ a : Admission opened stimuli, a.serial = serial)
        ∧
      ∀ before later, stimuli = before ++ .stopped :: later
        → logs = (opened.run before).2.filterMap Effect.served? := by
  intro result logs
  obtain ⟨hconnections, hstarted, _⟩ := opened_of_bind hbind
  obtain ⟨hnotifies, hlog, _⟩ := notifies_of_bind hbind
  have hnumbered := (within_of_connections_eq_nil opened hconnections).numbered
  have hlogs : logs
      = (opened.admitted stimuli).mapIdx fun i peer => log.forConnection (.ofNat (i + 1)) peer := by
    have hserved := (counts_run opened stimuli).served_eq
    rw [hstarted, hlog] at hserved
    simpa using hserved
  refine ⟨hlogs, ?_, ?_, ?_, ?_⟩
  . intro hfew
    rw [hlogs, List.length_mapIdx] at hfew ⊢
    exact map_session_mapIdx log (opened.admitted stimuli) hfew
  . exact fun a => a.accounted hnumbered hstarted hnotifies
  . intro serial termination hmem
    exact exists_admission_of_notified hnumbered hstarted stimuli hmem
  . rintro before later rfl
    exact served_of_stopped hnumbered before later

set_option maxRecDepth 10000 in
theorem run_accounts_for_sessions_across_stop
    : let host : Host := {}
      let config : ServerConfig := { maxClients := 1 }
      let settings : SessionSettings := { welcome := "hi", maxCommandLength := 16 }
      let control : Channel := { name := "control" }
      let opened : Listener :=
        { settings, log := {}, address := config.controlSocket, maxClients := 1, places := 1 }
      let stimuli := [.connected "a" control, .connected "b" control, .received 0 [.eof],
        .vacated 0, .connected "c" control, .stopped, .connected "d" control, .reported 0,
        .received 1 [.eof], .vacated 1, .reported 1]
      let result := opened.run stimuli
      (∃ records, bind host config settings {} = (records, .listening opened))
        ∧
      (result.2.filterMap Effect.served?).map (·.session.toNat) = [1, 2]
        ∧
      (result.2.filterMap Effect.served?).map (·.peer) = ["a", "c"]
        ∧
      result.2.filterMap (Effect.notice? 1) = [⟨2, "c", .peerClosed, .initial⟩] := by
  intro host config settings control opened stimuli result
  obtain ⟨records, hbind⟩ : ∃ records, bind host config settings {} = (records, .listening opened) :=
    ⟨_, rfl⟩
  obtain ⟨hlogs, hnumbers, haccounted, _⟩ :=
    run_accounts_for_sessions host config settings {} stimuli hbind
  have hadmitted : opened.admitted stimuli = ["a", "c"] := by
    dsimp only [stimuli, opened, settings, config, control]
    cbv
  rw [hadmitted] at hlogs
  have hlength : (result.2.filterMap Effect.served?).length = 2 := by
    rw [hlogs]
    rfl
  refine ⟨⟨records, hbind⟩, ?_, ?_, ?_⟩
  . apply (hnumbers (by rw [hlength]; decide)).trans
    rw [hlength]
    rfl
  . rw [hlogs]
    rfl
  . let third : Admission opened stimuli :=
      { before := [.connected "a" control, .connected "b" control, .received 0 [.eof], .vacated 0]
        peer := "c"
        control
        later := [.stopped, .connected "d" control, .reported 0, .received 1 [.eof], .vacated 1,
          .reported 1]
        stimuli_eq := rfl
        accepting := by dsimp only [opened, settings, config, control]; cbv
        places_ne_zero := by dsimp only [opened, settings, config, control]; cbv }
    have hserial : third.serial = 1 := by
      dsimp only [third, opened, settings, config, control]
      cbv
    have htold := (haccounted third).told
      [.stopped, .connected "d" control, .reported 0, .received 1 [.eof]] [] []
      ⟨2, "c", .peerClosed, .initial⟩
    rw [hserial] at htold
    apply htold
    . rfl
    . dsimp only [third, stimuli, opened, settings, config, control]
      cbv

end Listener

end FtpControl
