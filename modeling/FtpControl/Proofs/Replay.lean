import Mathlib.Data.List.Basic
import FtpControl.Proofs.ListenerStep

/-!
This module contains the listener as one of its connections sees it. Whatever happens to the others,
a connection that is served goes through the moves that are addressed to it and through nothing
else, until it has given back its place and sent its notice.
-/

namespace FtpControl

namespace Connection

inductive Move where
  | received (inputs : List Input)
  | settled (call : Nat) (verdict : Verdict)

def move (c : Connection) : Move → Step
  | .received inputs => c.receive inputs
  | .settled n verdict => c.settle n verdict

def replay (c : Connection) : List Move → Step
  | [] => (c, [])
  | m :: moves => ((replay (c.move m).1 moves).1, (c.move m).2 ++ (replay (c.move m).1 moves).2)

variable {c : Connection}

theorem keeps_move (m : Move) (c : Connection) : c.Keeps (c.move m) := by
  cases m with
  | received inputs => exact keeps_receive inputs c
  | settled n verdict => exact keeps_settle n verdict c

theorem keeps_replay (c : Connection) (moves : List Move) : c.Keeps (c.replay moves) := by
  induction moves generalizing c with
  | nil => exact ⟨rfl, rfl, rfl, fun _ => rfl⟩
  | cons m moves ih =>
    have hmove := keeps_move m c
    have hrest := ih (c.move m).1
    constructor
    . exact hrest.serial_eq.trans hmove.serial_eq
    . exact hrest.log_eq.trans hmove.log_eq
    . exact hrest.vacated_eq.trans hmove.vacated_eq
    . intro h
      have hsession := hmove.session_eq h
      have hover := isOver_of_session_eq hsession
      rw [h] at hover
      exact (hrest.session_eq hover).trans hsession

theorem replay_append (c : Connection) (first second : List Move)
    : c.replay (first ++ second)
        =
      (((c.replay first).1.replay second).1,
        (c.replay first).2 ++ ((c.replay first).1.replay second).2) := by
  induction first generalizing c with
  | nil => rfl
  | cons m first ih => simp [replay, ih]

theorem move_of_isOver (h : c.isOver = true) (m : Move) : (c.move m).2 = [] := by
  cases m with
  | received inputs =>
    have hover : ({ c with inbox := c.inbox ++ inputs } : Connection).isOver = true := h
    rw [move, receive, pump_of_isOver hover]
  | settled n verdict =>
    rw [move, settle, settle_of_isOver h]
    exact congrArg Prod.snd (pump_of_isOver h)

-- Whether a connection has given back its place is nothing that a move looks at.
theorem move_vacated (m : Move) (vacated : Bool)
    : ({ c with vacated } : Connection).move m = ({ (c.move m).1 with vacated }, (c.move m).2) := by
  cases m <;> rfl

theorem Keeps.isOver {step : Step} (h : c.Keeps step) (hover : c.isOver = true)
    : step.1.isOver = true := by
  rw [isOver_of_session_eq (h.session_eq hover), hover]

theorem Keeps.termination?_eq {step : Step} (h : c.Keeps step) (hover : c.isOver = true)
    : step.1.termination? = c.termination? := by
  unfold termination?
  rw [h.session_eq hover, h.log_eq]

def vacate (c : Connection) : Option Connection :=
  if c.isOver && !c.vacated then c.termination?.map fun _ => { c with vacated := true } else some c

theorem isOver_of_termination? {termination : Termination} (h : c.termination? = some termination)
    : c.isOver = true := by
  unfold termination? Session.termination? at h
  unfold isOver
  split at h
  . next hphase => rw [hphase]
  . contradiction

end Connection

namespace Listener

def Stimulus.move? (serial : Nat) : Stimulus → Option Connection.Move
  | received other inputs => if other = serial then some (.received inputs) else none
  | settled other call verdict => if other = serial then some (.settled call verdict) else none
  | _ => none

namespace Effect

def event? (serial : Nat) : Effect → Option Event
  | happened other _ event => if other = serial then some event else none
  | _ => none

def notice? (serial : Nat) : Effect → Option Termination
  | notified other termination => if other = serial then some termination else none
  | _ => none

end Effect

variable {l : Listener} {serial : Nat} {c : Connection}

theorem serial_of_find? (h : l.find? serial = some c) : c.serial = serial := by
  exact (exists_split_of_find? h).1

theorem find?_replace (l : Listener) (new : Connection) (serial : Nat)
    : (l.replace new).find? serial
        =
      if new.serial = serial then (l.find? serial).map fun _ => new else l.find? serial := by
  have hkey : ((fun c : Connection => c.serial == serial)
      ∘ fun c => if c.serial == new.serial then new else c) = fun c => c.serial == serial := by
    funext c
    rw [Function.comp_apply]
    split
    . next h => rw [eq_of_beq h]
    . rfl
  have hfound : ∀ c ∈ l.find? serial, c.serial = serial := fun c hc => serial_of_find? hc
  unfold replace find? at *
  rw [List.find?_map, hkey]
  cases hfind : l.connections.find? fun c => c.serial == serial with
  | none => simp
  | some c =>
    rw [Option.map_some, Option.map_some, hfound c hfind]
    by_cases h : serial = new.serial
    . simp [h]
    . rw [if_neg (Ne.symm h), if_neg (by simpa using h)]

theorem find?_remove (l : Listener) (other serial : Nat)
    : (l.remove other).find? serial = if other = serial then none else l.find? serial := by
  unfold remove find?
  rw [List.find?_filter]
  split
  . next h =>
    rw [List.find?_eq_none]
    simp [h]
  . next h =>
    congr 1
    funext c
    by_cases hc : c.serial = serial
    . simp [hc, Ne.symm h]
    . simp [hc]

theorem filterMap_event?_happened (serial other : Nat) (log : ConnectionLog) (events : List Event)
    : (events.map (Effect.happened other log)).filterMap (Effect.event? serial)
        =
      if other = serial then events else [] := by
  rw [List.filterMap_map]
  split
  . next h => simp [Effect.event?, h]
  . next h => simp [Effect.event?, h]

theorem filterMap_notice?_happened (serial other : Nat) (log : ConnectionLog) (events : List Event)
    : (events.map (Effect.happened other log)).filterMap (Effect.notice? serial) = [] := by
  simp [Effect.notice?]

theorem filterMap_notice?_notified (serial other : Nat) (notices : List Termination)
    : (notices.map (Effect.notified other)).filterMap (Effect.notice? serial)
        =
      if other = serial then notices else [] := by
  rw [List.filterMap_map]
  split
  . next h => simp [Effect.notice?, h]
  . next h => simp [Effect.notice?, h]

theorem find?_advance (l : Listener) (other serial : Nat) {move : Connection → Connection.Step}
    (hmove : ∀ c : Connection, (move c).1.serial = c.serial)
    : (l.advance other move).1.find? serial
        =
      if other = serial then (l.find? serial).map fun c => (move c).1 else l.find? serial := by
  unfold advance
  split
  . next hfind =>
    split
    . next h => rw [← h, hfind]; rfl
    . rfl
  . next c hfind =>
    have hserial := serial_of_find? hfind
    dsimp only
    rw [find?_replace, hmove, hserial]
    split
    . next h =>
      rw [← h, hfind]
      rfl
    . rfl

theorem events_advance (l : Listener) (other serial : Nat) (move : Connection → Connection.Step)
    : (l.advance other move).2.filterMap (Effect.event? serial)
        =
      if other = serial then (l.find? serial).elim [] fun c => (move c).2 else [] := by
  unfold advance
  split
  . next hfind =>
    split
    . next h => rw [← h, hfind]; rfl
    . rfl
  . next c hfind =>
    have hserial := serial_of_find? hfind
    dsimp only
    rw [filterMap_event?_happened, hserial]
    split
    . next h =>
      rw [← h, hfind]
      rfl
    . rfl

theorem notices_advance (l : Listener) (other serial : Nat) (move : Connection → Connection.Step)
    : (l.advance other move).2.filterMap (Effect.notice? serial) = [] := by
  unfold advance
  split
  . rfl
  . apply filterMap_notice?_happened

theorem effects_vacate (l : Listener) (serial : Nat) : (l.vacate serial).2 = [] := by
  unfold vacate
  split
  . rfl
  . split
    . dsimp only
      split <;> rfl
    . rfl

theorem find?_vacate (l : Listener) (other serial : Nat)
    : (l.vacate other).1.find? serial
        =
      if other = serial then (l.find? serial).bind (·.vacate) else l.find? serial := by
  have hplaces : ({ l with places := l.places + 1 } : Listener).find? serial = l.find? serial := rfl
  unfold vacate
  by_cases h : other = serial
  . subst h
    rw [if_pos rfl]
    cases hfind : l.find? other with
    | none => exact hfind
    | some c =>
      have hserial := serial_of_find? hfind
      rw [Option.bind_some, Connection.vacate]
      dsimp only
      split
      . cases c.termination? with
        | none => exact (find?_remove _ _ _).trans (if_pos rfl)
        | some termination =>
          rw [find?_replace, if_pos hserial, hplaces, hfind]
          rfl
      . exact hfind
  . rw [if_neg h]
    split
    . rfl
    . next c hfind =>
      have hserial := serial_of_find? hfind
      split
      . dsimp only
        split
        . rw [find?_replace, if_neg (by rw [hserial]; exact h), hplaces]
        . rw [find?_remove, if_neg h, hplaces]
      . rfl

theorem find?_report (l : Listener) (other serial : Nat)
    : (l.report other).1.find? serial
        =
      if other = serial then (l.find? serial).filter (!·.vacated) else l.find? serial := by
  unfold report
  by_cases h : other = serial
  . subst h
    rw [if_pos rfl]
    cases hfind : l.find? other with
    | none => exact hfind
    | some c =>
      rw [Option.filter_some]
      cases hvacated : c.vacated with
      | true =>
        dsimp only
        rw [if_pos hvacated]
        exact (find?_remove _ _ _).trans (if_pos rfl)
      | false =>
        dsimp only
        rw [hvacated]
        exact hfind
  . rw [if_neg h]
    split
    . rfl
    . split
      . dsimp only
        rw [find?_remove, if_neg h]
      . rfl

theorem events_report (l : Listener) (other serial : Nat)
    : (l.report other).2.filterMap (Effect.event? serial) = [] := by
  unfold Listener.report
  split
  . rfl
  . split
    . simp [Effect.event?]
    . rfl

theorem notices_report (l : Listener) (other serial : Nat)
    : (l.report other).2.filterMap (Effect.notice? serial)
        =
      if other = serial then
        (l.find? serial).elim [] fun c =>
          if c.vacated && l.notifies then c.termination?.toList else []
      else
        [] := by
  unfold Listener.report
  by_cases h : other = serial
  . subst h
    rw [if_pos rfl]
    cases hfind : l.find? other with
    | none => rfl
    | some c =>
      rw [Option.elim_some]
      cases hvacated : c.vacated with
      | true =>
        dsimp only
        rw [if_pos hvacated]
        exact (filterMap_notice?_notified _ _ _).trans (if_pos rfl)
      | false =>
        dsimp only
        rw [hvacated]
        rfl
  . rw [if_neg h]
    split
    . rfl
    . split
      . exact (filterMap_notice?_notified _ _ _).trans (if_neg h)
      . rfl

theorem Moves.notifies_eq {step : Step} (h : l.Moves step) : step.1.notifies = l.notifies := by
  cases h <;> rfl

theorem Moves.started_le {step : Step} (h : l.Moves step) : l.started ≤ step.1.started := by
  cases h with
  | served => exact Nat.le_succ _
  | _ => exact Nat.le_refl _

theorem Numbered.run (h : l.Numbered) (stimuli : List Stimulus) : (l.run stimuli).1.Numbered := by
  induction stimuli generalizing l with
  | nil => exact h
  | cons stimulus rest ih => exact ih (h.of_moves (h.moves_step stimulus))

theorem run_cons (l : Listener) (stimulus : Stimulus) (rest : List Stimulus)
    : l.run (stimulus :: rest)
        =
      (((l.step stimulus).1.run rest).1,
        (l.step stimulus).2 ++ ((l.step stimulus).1.run rest).2) := rfl

theorem run_append (l : Listener) (first second : List Stimulus)
    : l.run (first ++ second)
        =
      (((l.run first).1.run second).1, (l.run first).2 ++ ((l.run first).1.run second).2) := by
  induction first generalizing l with
  | nil => rfl
  | cons stimulus first ih => simp [Listener.run, ih]

/--
What has become of a connection that was served and would be `c` by now with nobody beside it: the
listener has it and has sent no notice for it, or the listener is through with it.
-/
inductive Fate (l : Listener) (serial : Nat) (c : Connection) : List Termination → Prop
  | held {vacated : Bool} (hfind : l.find? serial = some { c with vacated })
      (hvacated : vacated = true → ∃ termination, c.termination? = some termination)
    : Fate l serial c []
  | gone (hfind : l.find? serial = none) (hover : c.isOver = true)
    : Fate l serial c (if l.notifies then c.termination?.toList else [])

variable {notices : List Termination} {next : Listener}

theorem Fate.of_eq (h : l.Fate serial c notices) (hfind : next.find? serial = l.find? serial)
    (hnotifies : next.notifies = l.notifies) : next.Fate serial c notices := by
  cases h with
  | held hheld hvacated => exact .held (hfind.trans hheld) hvacated
  | gone hgone hover =>
    rw [← hnotifies]
    exact .gone (hfind.trans hgone) hover

theorem Fate.advance (h : l.Fate serial c notices) (m : Connection.Move)
    : (l.advance serial (·.move m)).1.Fate serial (c.move m).1 notices
        ∧
      (l.advance serial (·.move m)).2.filterMap (Effect.event? serial) = (c.move m).2 := by
  have hkeeps := Connection.keeps_move m
  have hfind := find?_advance l serial serial fun c => (hkeeps c).serial_eq
  have hevents := events_advance l serial serial (·.move m)
  rw [if_pos rfl] at hfind hevents
  cases h with
  | held hheld hvacated =>
    rw [hheld, Option.map_some, Connection.move_vacated] at hfind
    rw [hheld, Option.elim_some, Connection.move_vacated] at hevents
    refine ⟨.held hfind ?_, hevents⟩
    intro hv
    obtain ⟨termination, htermination⟩ := hvacated hv
    have hover := Connection.isOver_of_termination? htermination
    exact ⟨termination, ((hkeeps c).termination?_eq hover).trans htermination⟩
  | gone hgone hover =>
    rw [hgone] at hfind hevents
    constructor
    . have hnotifies : (l.advance serial (·.move m)).1.notifies = l.notifies := by
        unfold Listener.advance
        rw [hgone]
      rw [← hnotifies, ← (hkeeps c).termination?_eq hover]
      exact .gone hfind ((hkeeps c).isOver hover)
    . rw [hevents, Connection.move_of_isOver hover]
      rfl

theorem Fate.vacate (h : l.Fate serial c notices) (hnumbered : l.Numbered)
    : (l.vacate serial).1.Fate serial c notices := by
  have hnotifies := (hnumbered.moves_vacate serial).notifies_eq
  have hfind := find?_vacate l serial serial
  rw [if_pos rfl] at hfind
  cases h with
  | @held vacated hheld hvacated =>
    rw [hheld, Option.bind_some, Connection.vacate] at hfind
    split at hfind
    . next hcond =>
      rw [Bool.and_eq_true] at hcond
      have htermination : ({ c with vacated } : Connection).termination? = c.termination? := rfl
      rw [htermination] at hfind
      cases hc : c.termination? with
      | none =>
        have hgone : (l.vacate serial).1.Fate serial c
            (if (l.vacate serial).1.notifies then c.termination?.toList else []) := by
          rw [hc] at hfind
          exact .gone hfind hcond.1
        rw [hc, Option.toList_none, ite_self] at hgone
        exact hgone
      | some termination =>
        rw [hc, Option.map_some] at hfind
        exact .held hfind fun _ => ⟨termination, hc⟩
    . exact .held hfind hvacated
  | gone hgone hover =>
    rw [hgone] at hfind
    rw [← hnotifies]
    exact .gone hfind hover

theorem Fate.report (h : l.Fate serial c notices) (hnumbered : l.Numbered)
    : (l.report serial).1.Fate serial c
        (notices ++ (l.report serial).2.filterMap (Effect.notice? serial)) := by
  have hnotifies := (hnumbered.moves_report serial).notifies_eq
  have hfind := find?_report l serial serial
  rw [if_pos rfl] at hfind
  rw [notices_report, if_pos rfl]
  cases h with
  | @held vacated hheld hvacated =>
    rw [hheld, Option.filter_some] at hfind
    rw [hheld, Option.elim_some, List.nil_append]
    cases vacated with
    | false => exact .held hfind hvacated
    | true =>
      obtain ⟨termination, htermination⟩ := hvacated rfl
      rw [Bool.true_and, ← hnotifies]
      exact .gone hfind (Connection.isOver_of_termination? htermination)
  | gone hgone hover =>
    rw [hgone] at hfind
    rw [hgone, Option.elim_none, List.append_nil, ← hnotifies]
    exact .gone hfind hover

structure Passes (l : Listener) (serial : Nat) (step : Step) : Prop where
  find?_eq : step.1.find? serial = l.find? serial
  events_eq : step.2.filterMap (Effect.event? serial) = []
  notices_eq : step.2.filterMap (Effect.notice? serial) = []

theorem passes_connect (hserial : serial ≠ l.started) (peer : String) (control : Channel)
    : l.Passes serial (l.connect peer control) := by
  unfold connect
  split
  . constructor
    . rfl
    . simp [Effect.event?]
    . simp [Effect.notice?]
  . constructor
    . unfold find?
      have hother : ((l.newConnection peer control).start.1.serial == serial) = false :=
        beq_false_of_ne (Ne.symm hserial)
      dsimp only
      rw [List.find?_append, List.find?_singleton, hother]
      apply Option.or_none
    . rw [List.filterMap_cons_none rfl, filterMap_event?_happened]
      exact if_neg (Ne.symm hserial)
    . rw [List.filterMap_cons_none rfl, filterMap_notice?_happened]

theorem passes_vacate {other : Nat} (h : other ≠ serial) : l.Passes serial (l.vacate other) := by
  constructor
  . rw [find?_vacate, if_neg h]
  . rw [effects_vacate]
    rfl
  . rw [effects_vacate]
    rfl

theorem passes_report {other : Nat} (h : other ≠ serial) : l.Passes serial (l.report other) := by
  constructor
  . rw [find?_report, if_neg h]
  . apply events_report
  . rw [notices_report, if_neg h]

theorem passes_advance {other : Nat} (h : other ≠ serial) (m : Connection.Move)
    : l.Passes serial (l.advance other (·.move m)) := by
  constructor
  . rw [find?_advance _ _ _ fun c => (Connection.keeps_move m c).serial_eq, if_neg h]
  . rw [events_advance, if_neg h]
  . apply notices_advance

theorem passes_complain (reason : String) : l.Passes serial (l.complain reason) := by
  unfold complain
  split
  . exact ⟨rfl, rfl, rfl⟩
  . exact ⟨rfl, rfl, rfl⟩

theorem passes_stop : l.Passes serial l.stop := by
  unfold stop
  split
  . exact ⟨rfl, rfl, rfl⟩
  . exact ⟨rfl, rfl, rfl⟩

inductive Concerns (l : Listener) (serial : Nat) : Stimulus → Prop
  | passed {stimulus : Stimulus} (hmove : stimulus.move? serial = none)
      (hpasses : l.Passes serial (l.step stimulus)) : Concerns l serial stimulus
  | moved {stimulus : Stimulus} {m : Connection.Move} (hmove : stimulus.move? serial = some m)
      (hstep : l.step stimulus = l.advance serial (·.move m)) : Concerns l serial stimulus
  | vacated : Concerns l serial (.vacated serial)
  | reported : Concerns l serial (.reported serial)

theorem concerns (hstarted : serial < l.started) (stimulus : Stimulus)
    : l.Concerns serial stimulus := by
  cases stimulus with
  | connected peer control =>
    apply Concerns.passed rfl
    rw [step]
    split
    . exact passes_connect (Nat.ne_of_lt hstarted) peer control
    . exact ⟨rfl, rfl, rfl⟩
  | acceptFailed reason => exact .passed rfl (passes_complain reason)
  | received other inputs =>
    by_cases hother : other = serial
    . subst hother
      exact .moved (if_pos rfl) rfl
    . exact .passed (if_neg hother) (passes_advance hother (.received inputs))
  | settled other n verdict =>
    by_cases hother : other = serial
    . subst hother
      exact .moved (if_pos rfl) rfl
    . exact .passed (if_neg hother) (passes_advance hother (.settled n verdict))
  | vacated other =>
    by_cases hother : other = serial
    . rw [hother]
      exact .vacated
    . exact .passed rfl (passes_vacate hother)
  | reported other =>
    by_cases hother : other = serial
    . rw [hother]
      exact .reported
    . exact .passed rfl (passes_report hother)
  | stopped => exact .passed rfl passes_stop

theorem Fate.step (h : l.Fate serial c notices) (hnumbered : l.Numbered)
    (hstarted : serial < l.started) (stimulus : Stimulus)
    : (l.step stimulus).1.Fate serial (c.replay (stimulus.move? serial).toList).1
          (notices ++ (l.step stimulus).2.filterMap (Effect.notice? serial))
        ∧
      (l.step stimulus).2.filterMap (Effect.event? serial)
        =
      (c.replay (stimulus.move? serial).toList).2 := by
  cases concerns hstarted stimulus with
  | passed hmove hpasses =>
    rw [hmove, hpasses.notices_eq, hpasses.events_eq, List.append_nil]
    exact ⟨h.of_eq hpasses.find?_eq (hnumbered.moves_step stimulus).notifies_eq, rfl⟩
  | @moved _ m hmove hstep =>
    obtain ⟨hfate, hevents⟩ := h.advance m
    rw [hmove, hstep, notices_advance, List.append_nil]
    exact ⟨hfate, hevents.trans (List.append_nil _).symm⟩
  | vacated =>
    rw [Listener.step, effects_vacate, List.filterMap_nil, List.append_nil]
    exact ⟨h.vacate hnumbered, rfl⟩
  | reported => exact ⟨h.report hnumbered, events_report l serial serial⟩

theorem Fate.run (h : l.Fate serial c notices) (hnumbered : l.Numbered)
    (hstarted : serial < l.started) (stimuli : List Stimulus)
    : (l.run stimuli).1.Fate serial (c.replay (stimuli.filterMap (·.move? serial))).1
          (notices ++ (l.run stimuli).2.filterMap (Effect.notice? serial))
        ∧
      (l.run stimuli).2.filterMap (Effect.event? serial)
        =
      (c.replay (stimuli.filterMap (·.move? serial))).2 := by
  induction stimuli generalizing l c notices with
  | nil =>
    refine ⟨?_, rfl⟩
    change l.Fate serial c (notices ++ [])
    rw [List.append_nil]
    exact h
  | cons stimulus rest ih =>
    have hmoves := hnumbered.moves_step stimulus
    obtain ⟨hstep, hevents⟩ := h.step hnumbered hstarted stimulus
    obtain ⟨hrun, hlater⟩ :=
      ih hstep (hnumbered.of_moves hmoves) (Nat.lt_of_lt_of_le hstarted hmoves.started_le)
    have hsplit : (stimulus :: rest).filterMap (·.move? serial)
        = (stimulus.move? serial).toList ++ rest.filterMap (·.move? serial) := by
      rw [List.filterMap_cons]
      cases stimulus.move? serial <;> rfl
    rw [Listener.run, hsplit, Connection.replay_append, List.filterMap_append,
      List.filterMap_append, hevents, hlater, ← List.append_assoc]
    exact ⟨hrun, rfl⟩

-- Nothing happens in a session before its connection is served.
theorem Moves.filterMap_eq_nil (hnumbered : l.Numbered) {step : Step} (h : l.Moves step)
    (hserial : step.1.started ≤ serial)
    : step.2.filterMap (Effect.event? serial) = []
        ∧
      step.2.filterMap (Effect.notice? serial) = [] := by
  have hother : ∀ {before after : List Connection} {c : Connection},
      l.connections = before ++ c :: after → l.started ≤ serial → c.serial ≠ serial := by
    intro before after c hsplit hle
    have hlt := hnumbered.lt_started c (by rw [hsplit]; simp)
    omega
  cases h with
  | idle => exact ⟨rfl, rfl⟩
  | complained note => exact ⟨rfl, rfl⟩
  | stopped note => exact ⟨rfl, rfl⟩
  | refused note peer control hplaces => simp [Effect.event?, Effect.notice?]
  | served c events hplaces hlog hc hvacated =>
    have hne : c.serial ≠ serial := by
      have hlt : l.started + 1 ≤ serial := hserial
      omega
    rw [List.filterMap_cons_none rfl, List.filterMap_cons_none rfl, filterMap_event?_happened,
      filterMap_notice?_happened]
    exact ⟨if_neg hne, rfl⟩
  | wentOn hsplit hkeeps =>
    rw [filterMap_event?_happened, filterMap_notice?_happened]
    exact ⟨if_neg (hother hsplit hserial), rfl⟩
  | vacated hsplit hover hvacated htermination => exact ⟨rfl, rfl⟩
  | forgotten hsplit hover hvacated htermination => exact ⟨rfl, rfl⟩
  | reported hsplit hvacated =>
    rw [filterMap_notice?_notified, if_neg (hother hsplit hserial)]
    exact ⟨by simp [Effect.event?], rfl⟩

theorem Numbered.started_le_run (h : l.Numbered) (stimuli : List Stimulus)
    : l.started ≤ (l.run stimuli).1.started := by
  induction stimuli generalizing l with
  | nil => exact Nat.le_refl _
  | cons stimulus rest ih =>
    have hmoves := h.moves_step stimulus
    exact Nat.le_trans hmoves.started_le (ih (h.of_moves hmoves))

theorem Numbered.notifies_run (h : l.Numbered) (stimuli : List Stimulus)
    : (l.run stimuli).1.notifies = l.notifies := by
  induction stimuli generalizing l with
  | nil => rfl
  | cons stimulus rest ih =>
    have hmoves := h.moves_step stimulus
    exact (ih (h.of_moves hmoves)).trans hmoves.notifies_eq

theorem Numbered.filterMap_run_eq_nil (h : l.Numbered) (stimuli : List Stimulus)
    (hserial : (l.run stimuli).1.started ≤ serial)
    : (l.run stimuli).2.filterMap (Effect.event? serial) = []
        ∧
      (l.run stimuli).2.filterMap (Effect.notice? serial) = [] := by
  induction stimuli generalizing l with
  | nil => exact ⟨rfl, rfl⟩
  | cons stimulus rest ih =>
    have hmoves := h.moves_step stimulus
    have hnext := h.of_moves hmoves
    obtain ⟨hevents, hnotices⟩ :=
      hmoves.filterMap_eq_nil h (Nat.le_trans (hnext.started_le_run rest) hserial)
    obtain ⟨hlater, hlast⟩ := ih hnext hserial
    rw [Listener.run, List.filterMap_append, List.filterMap_append, hevents, hnotices]
    exact ⟨hlater, hlast⟩

end Listener

end FtpControl
