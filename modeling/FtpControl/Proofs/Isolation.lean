import FtpControl.Proofs.Accounting
import FtpControl.Proofs.Resumption

/-!
This module contains the isolation of sessions. They share the places of a listener, its numbers and
a backend, and they come to no more and to no less than each of them alone: only the answers to its
own calls can keep a session waiting.
-/

namespace FtpControl

namespace Connection

theorem awaited?_of_isOver {c : Connection} (h : c.isOver = true) : c.session.awaited? = none := by
  unfold isOver at h
  unfold Session.awaited?
  split at h
  . next hphase => rw [hphase]
  . next hphase => rw [hphase]
  . contradiction

end Connection

namespace Listener

variable {l : Listener} {stimuli : List Stimulus} {serial : Nat} {log : ConnectionLog}
  {verdict : Call → Verdict}

-- The backend looks at users and passwords only: every verdict that comes for a call while a
-- session waits for it is the one that goes with the call. Calls may stay without a verdict, and
-- one that a session has given up on may come to any.
def Decides (l : Listener) (verdict : Call → Verdict) (stimuli : List Stimulus) : Prop :=
  ∀ before serial n given later, stimuli = before ++ .settled serial n given :: later
    → ∀ c past call, (l.run before).1.find? serial = some c
      → c.session.awaited? = some (past, call) → past.length = n → given = verdict call

def Effect.recordOf? (log : ServerLog) (serial : Nat) (effect : Effect) : Option Record :=
  (effect.event? serial).bind fun _ => effect.record? log

structure Shows (l : Listener) (stimuli : List Stimulus) (serial : Nat) (log : ConnectionLog)
    (oracle : Action.Oracle) (alone : Session.Step) : Prop where
  isPrefix : (l.run stimuli).2.filterMap (Effect.event? serial) <+: alone.2
  held : ∀ c, (l.run stimuli).1.find? serial = some c
    → alone = (c.session.proceed oracle c.inbox).after
          ((l.run stimuli).2.filterMap (Effect.event? serial))
        ∧
      (l.run stimuli).2.filterMap (Effect.notice? serial) = []
  -- A session that waits for no answer, or for one that never comes, has got as far as alone.
  caughtUp : ∀ c, (l.run stimuli).1.find? serial = some c → c.session.answer? oracle = none
    → alone = (c.session, (l.run stimuli).2.filterMap (Effect.event? serial))
  gone : (l.run stimuli).1.find? serial = none
    → (l.run stimuli).2.filterMap (Effect.event? serial) = alone.2
        ∧
      (l.run stimuli).2.filterMap (Effect.notice? serial) = (alone.1.termination? log).toList
  records_eq : (l.run stimuli).2.filterMap (Effect.recordOf? l.log serial)
    = log.records ((l.run stimuli).2.filterMap (Effect.event? serial))

theorem Moves.settings_eq {step : Step} (h : l.Moves step) : step.1.settings = l.settings := by
  cases h <;> rfl

theorem Numbered.settings_run (h : l.Numbered) (stimuli : List Stimulus)
    : (l.run stimuli).1.settings = l.settings := by
  induction stimuli generalizing l with
  | nil => rfl
  | cons stimulus rest ih =>
    have hmoves := h.moves_step stimulus
    exact (ih (h.of_moves hmoves)).trans hmoves.settings_eq

structure Logs (l : Listener) (serial : Nat) (log : ConnectionLog) (step : Step) : Prop where
  log_eq : ∀ c ∈ step.1.connections, c.serial = serial → c.log = log
  happened : ∀ other event, .happened serial other event ∈ step.2 → other = log

theorem Moves.logs {step : Step} (h : l.Moves step) (hstarted : serial < l.started)
    (hlog : ∀ c ∈ l.connections, c.serial = serial → c.log = log) : l.Logs serial log step := by
  cases h with
  | idle => exact ⟨hlog, by simp⟩
  | complained note => exact ⟨hlog, by simp⟩
  | stopped note => exact ⟨hlog, by simp⟩
  | refused note peer control hplaces => exact ⟨hlog, by simp⟩
  | served c events hplaces hnew hserial hvacated =>
    have hne : c.serial ≠ serial := by omega
    constructor
    . intro other hother
      rcases List.mem_append.1 hother with hold | hnew
      . exact hlog other hold
      . rw [List.mem_singleton.1 hnew]
        exact fun heq => absurd heq hne
    . simp [hne]
  | @wentOn c before after hsplit step hkeeps =>
    rw [hsplit] at hlog
    simp only [List.forall_mem_append, List.forall_mem_cons] at hlog
    obtain ⟨hbefore, hc, hafter⟩ := hlog
    constructor
    . simp only [List.forall_mem_append, List.forall_mem_cons]
      rw [hkeeps.serial_eq, hkeeps.log_eq]
      exact ⟨hbefore, hc, hafter⟩
    . simp only [List.mem_map, Effect.happened.injEq]
      rintro other event ⟨_, _, hserial, hother, _⟩
      rw [← hother, hc hserial]
  | vacated hsplit hover hvacated htermination =>
    rw [hsplit] at hlog
    simp only [List.forall_mem_append, List.forall_mem_cons] at hlog
    refine ⟨?_, by simp⟩
    simp only [List.forall_mem_append, List.forall_mem_cons]
    exact hlog
  | forgotten hsplit hover hvacated htermination =>
    rw [hsplit] at hlog
    simp only [List.forall_mem_append, List.forall_mem_cons] at hlog
    refine ⟨?_, by simp⟩
    simp only [List.forall_mem_append]
    exact ⟨hlog.1, hlog.2.2⟩
  | reported hsplit hvacated =>
    rw [hsplit] at hlog
    simp only [List.forall_mem_append, List.forall_mem_cons] at hlog
    refine ⟨?_, by simp⟩
    simp only [List.forall_mem_append]
    exact ⟨hlog.1, hlog.2.2⟩

theorem Numbered.log_of_happened (h : l.Numbered) (hstarted : serial < l.started)
    (hlog : ∀ c ∈ l.connections, c.serial = serial → c.log = log) (stimuli : List Stimulus)
    : ∀ other event, .happened serial other event ∈ (l.run stimuli).2 → other = log := by
  induction stimuli generalizing l with
  | nil => simp [Listener.run]
  | cons stimulus rest ih =>
    have hmoves := h.moves_step stimulus
    have hlogs := hmoves.logs hstarted hlog
    intro other event hmem
    rw [run_cons, List.mem_append] at hmem
    cases hmem with
    | inl hfirst => exact hlogs.happened other event hfirst
    | inr hlater =>
      exact ih (h.of_moves hmoves) (Nat.lt_of_lt_of_le hstarted hmoves.started_le) hlogs.log_eq
        other event hlater

theorem Fate.exists_of_awaited? {c : Connection} {notices : List Termination}
    (h : l.Fate serial c notices) {pending : List Call × Call}
    (hawaited : c.session.awaited? = some pending)
    : ∃ found, l.find? serial = some found ∧ found.session = c.session := by
  cases h with
  | held hfind hvacated => exact ⟨_, hfind, rfl⟩
  | gone hgone hover =>
    rw [Connection.awaited?_of_isOver hover] at hawaited
    contradiction

theorem Fate.of_find?_eq_none {c : Connection} {notices : List Termination}
    (h : l.Fate serial c notices) (hnone : l.find? serial = none)
    : c.isOver = true ∧ notices = if l.notifies then c.termination?.toList else [] := by
  cases h with
  | held hfind hvacated =>
    rw [hfind] at hnone
    contradiction
  | gone hgone hover => exact ⟨hover, rfl⟩

namespace Admission

variable (a : Admission l stimuli)

def inputs : List Input :=
  a.moves.flatMap (·.inputs)

theorem log_of_happened (hnumbered : l.Numbered)
    : ∀ other event, .happened a.serial other event ∈ (l.run stimuli).2
        → other = a.connection.log := by
  have hbefore := hnumbered.run a.before
  have hjoined : ∀ c ∈ a.joined.connections, c.serial = a.serial → c.log = a.connection.log := by
    rw [connections_joined]
    simp only [List.forall_mem_append, List.mem_singleton, forall_eq]
    refine ⟨?_, fun _ => rfl⟩
    intro c hc hserial
    exact absurd hserial (Nat.ne_of_lt (hbefore.lt_started c hc))
  have hlt : a.serial < a.joined.started := by
    rw [started_joined]
    exact Nat.lt_succ_self _
  intro other event hmem
  rw [a.run_eq, List.mem_append, List.mem_append, List.mem_cons] at hmem
  rcases hmem with hfirst | (hserved | hstart) | hlater
  . obtain ⟨hevents, _⟩ := hnumbered.filterMap_run_eq_nil a.before (Nat.le_refl a.serial)
    have hevent : event ∈ (l.run a.before).2.filterMap (Effect.event? a.serial) :=
      List.mem_filterMap.2 ⟨_, hfirst, if_pos rfl⟩
    rw [hevents] at hevent
    contradiction
  . contradiction
  . simp only [List.mem_map, Effect.happened.injEq] at hstart
    obtain ⟨_, _, _, hother, _⟩ := hstart
    exact hother.symm
  . exact (a.numbered_joined hnumbered).log_of_happened hlt hjoined a.later other event hlater

theorem filterMap_recordOf? (hnumbered : l.Numbered)
    : (l.run stimuli).2.filterMap (Effect.recordOf? l.log a.serial)
        =
      a.connection.log.records ((l.run stimuli).2.filterMap (Effect.event? a.serial)) := by
  unfold ConnectionLog.records
  rw [List.filterMap_filterMap]
  apply List.filterMap_congr
  intro effect hmem
  cases effect with
  | happened other log event =>
    by_cases hserial : other = a.serial
    . subst hserial
      rw [a.log_of_happened hnumbered log event hmem]
      simp [Effect.recordOf?, Effect.event?, Effect.record?]
    . simp [Effect.recordOf?, Effect.event?, hserial]
  | _ => rfl

theorem settings_replay (hnumbered : l.Numbered) (moves : List Connection.Move)
    : (a.connection.start.1.replay moves).1.session.settings = l.settings := by
  apply (Connection.settings_replay _ _).trans
  exact (Session.steady_start _).settings_eq.trans (hnumbered.settings_run a.before)

theorem heeds (hnumbered : l.Numbered) (hdecides : l.Decides verdict stimuli)
    {oracle : Action.Oracle}
    (horacle : oracle = l.settings.auth.consult (Backend.ofFunction verdict))
    : ∀ first m last, a.moves = first ++ m :: last
        → (a.connection.start.1.replay first).1.Heeds oracle m := by
  rintro first m last hsplit n given past call rfl hawaited hlength
  -- The move stands for a stimulus, and the run up to there has the connection as it is alone.
  obtain ⟨earlier, rest, hlater, hfirst, hrest⟩ := List.filterMap_eq_append_iff.1 hsplit
  obtain ⟨skipped, stimulus, behind, rfl, hskipped, hstimulus, _⟩ :=
    List.filterMap_eq_cons_iff.1 hrest
  have hsettled : stimulus = .settled a.serial n given := by
    unfold Stimulus.move? at hstimulus
    split at hstimulus
    . split at hstimulus <;> simp at hstimulus
    . split at hstimulus
      . next hserial =>
        simp only [Option.some.injEq, Connection.Move.settled.injEq] at hstimulus
        rw [hserial, hstimulus.1, hstimulus.2]
      . contradiction
    . contradiction
  have hmoves : (a.upTo (earlier ++ skipped)).moves = first := by
    change (earlier ++ skipped).filterMap (·.move? a.serial) = first
    rw [List.filterMap_append, hfirst, List.filterMap_eq_nil_iff.2 hskipped, List.append_nil]
  have hstimuli : stimuli = (a.before ++ .connected a.peer a.control :: (earlier ++ skipped))
      ++ .settled a.serial n given :: behind := by
    rw [← hsettled, List.append_assoc, List.cons_append, List.append_assoc, ← hlater]
    exact a.stimuli_eq
  obtain ⟨hfate, _⟩ := (a.upTo (earlier ++ skipped)).fate hnumbered
  rw [hmoves] at hfate
  obtain ⟨found, hfind, hsession⟩ := hfate.exists_of_awaited? hawaited
  have hfound : found.session.awaited? = some (past, call) := by
    rw [hsession]
    exact hawaited
  have hgiven := hdecides _ _ _ _ _ hstimuli found past call hfind hfound hlength
  rw [settings_replay a hnumbered, horacle, hgiven]
  rfl

theorem shows (hnumbered : l.Numbered) (hnotifies : l.notifies = true)
    (hdecides : l.Decides verdict stimuli) {oracle : Action.Oracle}
    (horacle : oracle = l.settings.auth.consult (Backend.ofFunction verdict))
    : l.Shows stimuli a.serial a.connection.log oracle
        (a.connection.session.hear oracle a.inputs) := by
  obtain ⟨hfate, hevents⟩ := a.fate hnumbered
  have hahead : a.connection.session.hear oracle a.inputs
      = ((a.alone a.moves).1.ahead oracle []).after (a.alone a.moves).2 := by
    have hreplay := Connection.ahead_replay a.moves (a.heeds hnumbered hdecides horacle)
    rw [Session.hear_eq_proceed]
    exact (congrArg (Session.Step.after a.connection.start.2) hreplay).trans
      (Session.Step.after_after _ _ _)
  have hdrained : (a.alone a.moves).1.Drained :=
    Connection.drained_replay (fun _ => rfl) a.moves
  have hidle : (a.alone a.moves).1.session.answer? oracle = none
      → a.connection.session.hear oracle a.inputs
        = ((a.alone a.moves).1.session, (a.alone a.moves).2) := by
    intro hanswer
    rw [hahead, Connection.ahead_nil hdrained hanswer]
    exact congrArg (Prod.mk _) (List.append_nil _)
  constructor
  . rw [hevents, hahead]
    apply List.prefix_append
  . intro c hc
    obtain ⟨hsession, hinbox, hnotices⟩ := hfate.of_find? hc
    rw [hevents, hsession, hinbox, hahead, Connection.ahead, List.append_nil]
    exact ⟨rfl, hnotices⟩
  . intro c hc hanswer
    obtain ⟨hsession, _⟩ := hfate.of_find? hc
    rw [hsession] at hanswer
    rw [hevents, hsession, hidle hanswer]
  . intro hnone
    obtain ⟨hover, hnotices⟩ := hfate.of_find?_eq_none hnone
    have hanswer : (a.alone a.moves).1.session.answer? oracle = none := by
      unfold Session.answer?
      rw [Connection.awaited?_of_isOver hover]
      rfl
    rw [hevents, hnotices, hidle hanswer, hnumbered.notifies_run, hnotifies, if_pos rfl,
      Connection.termination?, log_alone]
    exact ⟨rfl, rfl⟩
  . exact a.filterMap_recordOf? hnumbered

end Admission

end Listener

end FtpControl
