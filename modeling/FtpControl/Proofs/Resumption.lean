import FtpControl.Proofs.Loop
import FtpControl.Proofs.Replay

/-!
This module contains sessions that wait for the answers to their calls. A connection keeps what
comes in the meantime, so that the session gets to where it would be by now with a backend that
answers at once.
-/

namespace FtpControl

namespace Session

def awaited? (s : Session) : Option (List Call × Call) :=
  match s.phase, s.calls with
  | .checking _, call :: past => some (past, call)
  | _, _ => none

def answer? (oracle : Action.Oracle) (s : Session) : Option Answer :=
  s.awaited?.bind fun (past, call) => oracle past call

def resolve (oracle : Action.Oracle) (s : Session) : Step :=
  match s.answer? oracle with
  | some a => s.answer oracle a
  | none => (s, [])

def proceed (oracle : Action.Oracle) (s : Session) (inputs : List Input) : Step :=
  (s.resolve oracle).andThen fun s => s.run oracle inputs

variable {oracle : Action.Oracle} {s : Session}

theorem resolve_of_answer? (h : s.answer? oracle = none) : s.resolve oracle = (s, []) := by
  unfold resolve
  rw [h]

theorem resolve_of_awaited? (h : s.awaited? = none) : s.resolve oracle = (s, []) := by
  apply resolve_of_answer?
  unfold answer?
  rw [h]
  rfl

theorem andThen_resolve_of_awaited? {step : Step} (h : step.1.awaited? = none)
    : step.andThen (resolve oracle) = step := by
  apply Step.andThen_of_idle
  exact resolve_of_awaited? h

theorem awaited?_finish (s : Session) (reason : Reason) : (s.finish reason).1.awaited? = none := rfl

theorem awaited?_awaitLine (s : Session) : s.awaitLine.1.awaited? = none := rfl

theorem awaited?_send (s : Session) (reply : Reply) (next : Session → Step)
    (hnext : ∀ s, (next s).1.awaited? = none) : (s.send reply next).1.awaited? = none := by
  unfold send
  dsimp only
  split
  . apply awaited?_finish
  . apply hnext

theorem awaited?_respond (s : Session) (response : Response)
    : (s.respond response).1.awaited? = none := by
  apply awaited?_send
  intro s
  split
  . apply awaited?_finish
  . apply awaited?_awaitLine

theorem awaited?_start (s : Session) : s.start.1.awaited? = none := by
  apply awaited?_send
  exact awaited?_awaitLine

theorem awaited?_of_isReading (h : s.isReading = true) : s.awaited? = none := by
  obtain ⟨framer, hphase⟩ := exists_of_isReading h
  unfold awaited?
  rw [hphase]

theorem perform_note (oracle : Action.Oracle) (s : Session) (note : Note)
    (action : Action (SessionState × Response))
    : s.perform oracle (.note note action) = (s.perform oracle action).after [.noted note] := rfl

theorem perform_check_of_some (s : Session) (call : Call)
    (next : Answer → Action (SessionState × Response)) {a : Answer}
    (h : oracle s.calls call = some a)
    : s.perform oracle (.check call next)
        =
      (({ s with calls := call :: s.calls } : Session).perform oracle (next a)).after
        [.called call] := by
  unfold perform
  rw [Action.run, h]
  rfl

theorem perform_check_of_none (s : Session) (call : Call)
    (next : Answer → Action (SessionState × Response)) (h : oracle s.calls call = none)
    : s.perform oracle (.check call next)
        =
      ({ s with calls := call :: s.calls, phase := .checking next }, [.called call]) := by
  unfold perform
  rw [Action.run, h]
  rfl

/-- Whoever waits for answers does the same in the end as somebody who has them at once. -/
theorem perform_eq_resolve (oracle : Action.Oracle) (s : Session)
    (action : Action (SessionState × Response))
    : s.perform oracle action = (s.perform .later action).andThen (resolve oracle) := by
  induction action with
  | done result =>
    obtain ⟨state, response⟩ := result
    symm
    apply andThen_resolve_of_awaited?
    exact awaited?_respond { s with state } response
  | note n next ih =>
    rw [perform_note, perform_note, ih, Step.after_andThen]
  | check call next _ =>
    -- Only the first call is waited for; behind it the oracle answers in both.
    have hlater : Action.Oracle.later s.calls call = none := rfl
    have hwaiting : answer? oracle { s with calls := call :: s.calls, phase := .checking next }
        = oracle s.calls call := rfl
    rw [perform_check_of_none s call next hlater, Step.andThen, resolve, hwaiting]
    cases hanswer : oracle s.calls call with
    | none =>
      rw [perform_check_of_none s call next hanswer]
      rfl
    | some a =>
      rw [perform_check_of_some s call next hanswer, ← perform_phase oracle _ _ (.checking next)]
      rfl
  | crash =>
    symm
    apply andThen_resolve_of_awaited?
    rfl

theorem read_eq_resolve (oracle : Action.Oracle) (hreading : s.isReading = true) (input : Input)
    : s.read oracle input = (s.read .later input).andThen (resolve oracle) := by
  obtain ⟨framer, hphase⟩ := exists_of_isReading hreading
  unfold read
  rw [hphase]
  dsimp only
  cases framer.step s.settings.maxCommandLength input with
  | more next => rfl
  | frame frame =>
    dsimp only
    rw [Step.after_andThen, ← perform_eq_resolve]
  | closed => exact (andThen_resolve_of_awaited? (awaited?_finish s _)).symm
  | failed reason => exact (andThen_resolve_of_awaited? (awaited?_finish s _)).symm

theorem resolve_eq_settle {n : Nat} {verdict : Verdict}
    (h : ∀ past call, s.awaited? = some (past, call) → past.length = n
      → oracle past call = s.settings.auth.conclude verdict)
    : s.resolve oracle = (s.settle .later n verdict).andThen (resolve oracle) := by
  have hidle : s.resolve oracle = Step.andThen (s, []) (resolve oracle) := rfl
  unfold settle
  split
  . next hlast =>
    cases hverdict : s.settings.auth.conclude verdict with
    | none => exact hidle
    | some a =>
      dsimp only
      unfold answer
      split
      . next resume hphase =>
        cases hcalls : s.calls with
        | nil =>
          rw [hcalls] at hlast
          contradiction
        | cons call past =>
          have hawaited : s.awaited? = some (past, call) := by
            unfold awaited?
            rw [hphase, hcalls]
          have hanswer : s.answer? oracle = some a := by
            unfold answer?
            rw [hawaited, Option.bind_some, ← hverdict]
            apply h past call hawaited
            rw [hcalls, List.length_cons] at hlast
            omega
          rw [← perform_eq_resolve, resolve, hanswer]
          dsimp only
          rw [answer, hphase]
      . exact hidle
  . exact hidle

theorem settings_read (oracle : Action.Oracle) (s : Session) (input : Input)
    : (s.read oracle input).1.settings = s.settings := by
  unfold read
  split
  . split
    . rfl
    . exact (steady_perform oracle s _).settings_eq
    . rfl
    . rfl
  . rfl

theorem settings_settle (s : Session) (n : Nat) (verdict : Verdict)
    : (s.settle .later n verdict).1.settings = s.settings := by
  unfold settle
  split
  . split
    . unfold answer
      split
      . exact (steady_perform .later s _).settings_eq
      . rfl
    . rfl
  . rfl

theorem proceed_of_isReading (h : s.isReading = true) (inputs : List Input)
    : s.proceed oracle inputs = s.run oracle inputs := by
  unfold proceed
  rw [resolve_of_awaited? (awaited?_of_isReading h)]
  rfl

theorem hear_eq_proceed (oracle : Action.Oracle) (s : Session) (inputs : List Input)
    : s.hear oracle inputs = s.start.andThen fun s => s.proceed oracle inputs := by
  unfold hear proceed
  rw [← Step.andThen_assoc, andThen_resolve_of_awaited? (awaited?_start s)]

end Session

namespace Connection

def Move.inputs : Move → List Input
  | received inputs => inputs
  | settled .. => []

def ahead (oracle : Action.Oracle) (c : Connection) (inputs : List Input) : Session.Step :=
  c.session.proceed oracle (c.inbox ++ inputs)

variable {oracle : Action.Oracle} {c : Connection}

theorem proceed_pump_go (oracle : Action.Oracle) (s : Session) (inbox inputs : List Input)
    : s.proceed oracle (inbox ++ inputs)
        =
      ((pump.go s inbox).1.proceed oracle ((pump.go s inbox).2.1 ++ inputs)).after
        (pump.go s inbox).2.2 := by
  induction inbox generalizing s with
  | nil => rfl
  | cons input inbox ih =>
    unfold pump.go
    split
    . next hreading =>
      dsimp only
      rw [← Session.Step.after_after, ← ih, Session.proceed_of_isReading hreading,
        List.cons_append, Session.run, Session.read_eq_resolve oracle hreading,
        Session.Step.andThen_assoc]
      rfl
    . rfl

theorem ahead_pump (oracle : Action.Oracle) (c : Connection) (inputs : List Input)
    : c.ahead oracle inputs = (c.pump.1.ahead oracle inputs).after c.pump.2 := by
  apply proceed_pump_go

theorem ahead_receive (oracle : Action.Oracle) (c : Connection) (first inputs : List Input)
    : c.ahead oracle (first ++ inputs)
        =
      ((c.receive first).1.ahead oracle inputs).after (c.receive first).2 := by
  have hpump := ahead_pump oracle { c with inbox := c.inbox ++ first } inputs
  unfold ahead at hpump ⊢
  rw [← List.append_assoc]
  exact hpump

def Heeds (oracle : Action.Oracle) (c : Connection) (m : Move) : Prop :=
  ∀ n verdict past call, m = .settled n verdict → c.session.awaited? = some (past, call)
    → past.length = n → oracle past call = c.session.settings.auth.conclude verdict

theorem ahead_settle {n : Nat} {verdict : Verdict} (h : c.Heeds oracle (.settled n verdict))
    (inputs : List Input)
    : c.ahead oracle inputs
        =
      ((c.settle n verdict).1.ahead oracle inputs).after (c.settle n verdict).2 := by
  have hresolve := Session.resolve_eq_settle fun past call => h n verdict past call rfl
  have hpump := ahead_pump oracle { c with session := (c.session.settle .later n verdict).1 } inputs
  have hahead : c.ahead oracle inputs
      = (ahead oracle { c with session := (c.session.settle .later n verdict).1 } inputs).after
          (c.session.settle .later n verdict).2 := by
    unfold ahead Session.proceed
    rw [hresolve, Session.Step.andThen_assoc]
    rfl
  rw [hahead, hpump, Session.Step.after_after]
  rfl

theorem ahead_move {m : Move} (h : c.Heeds oracle m) (inputs : List Input)
    : c.ahead oracle (m.inputs ++ inputs)
        =
      ((c.move m).1.ahead oracle inputs).after (c.move m).2 := by
  cases m with
  | received first => exact ahead_receive oracle c first inputs
  | settled n verdict => exact ahead_settle h inputs

theorem ahead_replay (moves : List Move)
    (h : ∀ first m last, moves = first ++ m :: last → (c.replay first).1.Heeds oracle m)
    : c.ahead oracle (moves.flatMap Move.inputs)
        =
      ((c.replay moves).1.ahead oracle []).after (c.replay moves).2 := by
  induction moves generalizing c with
  | nil => rfl
  | cons m moves ih =>
    have hm : c.Heeds oracle m := h [] m moves rfl
    rw [List.flatMap_cons, ahead_move hm, ih, Session.Step.after_after]
    . rfl
    . intro first n last hsplit
      apply h (m :: first) n last
      rw [hsplit]
      rfl

-- A session that waits for a line has taken all that its peer has sent.
def Drained (c : Connection) : Prop :=
  c.session.isReading = true → c.inbox = []

theorem drained_pump (c : Connection) : c.pump.1.Drained := by
  have hgo : ∀ (s : Session) (inbox : List Input), (pump.go s inbox).1.isReading = true
      → (pump.go s inbox).2.1 = [] := by
    intro s inbox
    induction inbox generalizing s with
    | nil => exact fun _ => rfl
    | cons input inbox ih =>
      unfold pump.go
      split
      . exact ih _
      . next hreading => exact fun h => absurd h hreading
  exact hgo c.session c.inbox

theorem drained_replay (h : c.Drained) (moves : List Move) : (c.replay moves).1.Drained := by
  induction moves generalizing c with
  | nil => exact h
  | cons m moves ih =>
    apply ih
    cases m <;> apply drained_pump

theorem ahead_nil (h : c.Drained) (hanswer : c.session.answer? oracle = none)
    : c.ahead oracle [] = (c.session, []) := by
  unfold ahead
  rw [List.append_nil]
  cases hreading : c.session.isReading with
  | true =>
    rw [h hreading, Session.proceed_of_isReading hreading]
    rfl
  | false =>
    unfold Session.proceed
    rw [Session.resolve_of_answer? hanswer]
    exact Session.run_of_not_isReading oracle c.session c.inbox hreading

theorem settings_pump_go (s : Session) (inbox : List Input)
    : (pump.go s inbox).1.settings = s.settings := by
  induction inbox generalizing s with
  | nil => rfl
  | cons input inbox ih =>
    unfold pump.go
    split
    . exact (ih _).trans (Session.settings_read .later s input)
    . rfl

theorem settings_move (c : Connection) (m : Move)
    : (c.move m).1.session.settings = c.session.settings := by
  cases m with
  | received inputs => apply settings_pump_go
  | settled n verdict =>
    exact (settings_pump_go _ _).trans (Session.settings_settle c.session n verdict)

theorem settings_replay (c : Connection) (moves : List Move)
    : (c.replay moves).1.session.settings = c.session.settings := by
  induction moves generalizing c with
  | nil => rfl
  | cons m moves ih => exact (ih (c.move m).1).trans (settings_move c m)

end Connection

end FtpControl
