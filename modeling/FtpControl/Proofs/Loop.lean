import FtpControl.Proofs.Exchange
import FtpControl.Proofs.Framing

/-!
This module contains the session as a loop: what it does with the bytes of its peer is what it does
with their lines, one after the other. Nothing is assumed of the channel, the handlers or the
backend.
-/

namespace FtpControl

def Framer.Progress.ending? : Progress → Option Reason
  | closed => some .peerClosed
  | failed reason => some (.transport (.io reason))
  | _ => none

namespace Session

theorem Step.andThen_congr {step : Step} {next other : Session → Step}
    (h : next step.1 = other step.1) : step.andThen next = step.andThen other := by
  unfold andThen
  rw [h]

theorem Step.after_after (step : Step) (first second : List Event)
    : (step.after second).after first = step.after (first ++ second) := by
  simp [after]

theorem Step.after_andThen (step : Step) (events : List Event) (next : Session → Step)
    : (step.after events).andThen next = (step.andThen next).after events := by
  simp [after, andThen]

theorem Step.andThen_assoc (step : Step) (next last : Session → Step)
    : (step.andThen next).andThen last = step.andThen fun s => (next s).andThen last := by
  simp [after, andThen]

theorem Step.andThen_of_idle {step : Step} {next : Session → Step}
    (h : next step.1 = (step.1, [])) : step.andThen next = step := by
  unfold andThen
  rw [h]
  simp [after]

def exchange (oracle : Action.Oracle) (s : Session) (frame : Frame) : Exchange Frame :=
  FtpControl.exchange s.settings.dispatch oracle s.state s.calls frame

theorem handle_of_done {oracle : Action.Oracle} {s : Session} {frame : Frame} {st : SessionState}
    {response : Response} (h : (s.exchange oracle frame).outcome.stop = .done (st, response))
    : s.handle oracle frame
        =
      (({ s with
          calls := (s.exchange oracle frame).outcome.calls
          state := st
        } : Session).respond response).after
        (.received frame :: (s.exchange oracle frame).outcome.events) := by
  unfold exchange FtpControl.exchange at h
  unfold handle perform
  dsimp at h
  dsimp
  rw [h]
  rfl

theorem handle_of_stuck {oracle : Action.Oracle} {s : Session} {frame : Frame}
    (h : (s.exchange oracle frame).response? = none)
    : s.handle oracle frame
        =
      ({ s with
          calls := (s.exchange oracle frame).outcome.calls
          phase := (s.exchange oracle frame).phase },
        .received frame :: (s.exchange oracle frame).outcome.events) := by
  rcases Exchange.phase_of_response? h with ⟨resume, hstop, hphase⟩ | ⟨hstop, hphase⟩
  all_goals
    rw [hphase]
    unfold exchange FtpControl.exchange at hstop
    unfold handle perform
    dsimp at hstop
    dsimp
    rw [hstop]
    simp [Step.after, exchange, FtpControl.exchange]

def hear (oracle : Action.Oracle) (s : Session) (inputs : List Input) : Step :=
  s.start.andThen fun s => s.run oracle inputs

def AtLine (s : Session) : Prop :=
  ∀ framer, s.phase = .reading framer → framer = .fresh s.settings.maxCommandLength

theorem isReading_of_phase_eq {s : Session} {framer : Framer} (h : s.phase = .reading framer)
    : s.isReading = true := by
  unfold isReading
  rw [h]

theorem exists_of_isReading {s : Session} (h : s.isReading = true)
    : ∃ framer, s.phase = .reading framer := by
  unfold isReading at h
  split at h
  . next framer heq => exact ⟨framer, heq⟩
  . contradiction

theorem read_of_not_isReading (oracle : Action.Oracle) (s : Session) (input : Input)
    (h : s.isReading = false) : s.read oracle input = (s, []) := by
  unfold read
  split
  . next heq =>
    rw [isReading_of_phase_eq heq] at h
    contradiction
  . rfl

theorem run_of_not_isReading (oracle : Action.Oracle) (s : Session) (inputs : List Input)
    (h : s.isReading = false) : s.run oracle inputs = (s, []) := by
  induction inputs with
  | nil => rfl
  | cons input inputs ih =>
    rw [run, read_of_not_isReading oracle s input h]
    simp [Step.andThen, Step.after, ih]

theorem run_append (oracle : Action.Oracle) (s : Session) (first second : List Input)
    : s.run oracle (first ++ second)
        =
      (s.run oracle first).andThen fun s => s.run oracle second := by
  induction first generalizing s with
  | nil => rfl
  | cons input first ih =>
    rw [List.cons_append, run, run, Step.andThen_assoc]
    apply Step.andThen_congr
    apply ih

theorem perform_phase (oracle : Action.Oracle) (s : Session)
    (action : Action (SessionState × Response)) (phase : Phase)
    : ({ s with phase } : Session).perform oracle action = s.perform oracle action := by
  unfold perform
  dsimp
  split
  . unfold respond send
    dsimp
    split
    . rfl
    . split <;> rfl
  . rfl
  . rfl

-- Where the framer was is forgotten as soon as the line is complete.
theorem handle_phase (oracle : Action.Oracle) (s : Session) (frame : Frame) (phase : Phase)
    : ({ s with phase } : Session).handle oracle frame = s.handle oracle frame := by
  unfold handle
  rw [perform_phase]

theorem run_of_scan_frame (oracle : Action.Oracle) (s : Session) (framer : Framer)
    (inputs rest : List Input) (frame : Frame)
    (h : framer.scan s.settings.maxCommandLength inputs = some (.frame frame, rest))
    : ({ s with phase := .reading framer } : Session).run oracle inputs
        =
      (s.handle oracle frame).andThen fun s => s.run oracle rest := by
  induction inputs generalizing framer with
  | nil => simp [Framer.scan] at h
  | cons input inputs ih =>
    unfold Framer.scan at h
    rw [run, read]
    split at h
    . next next hstep =>
      dsimp
      rw [hstep]
      simp [Step.andThen, Step.after, ih next h]
    . rw [Option.some.injEq, Prod.mk.injEq] at h
      dsimp
      rw [h.1, ← h.2, ← handle_phase oracle s frame (.reading framer)]
      rfl

theorem run_of_scan_ending (oracle : Action.Oracle) (s : Session) (framer : Framer)
    (inputs rest : List Input) {progress : Framer.Progress} {ending : Reason}
    (h : framer.scan s.settings.maxCommandLength inputs = some (progress, rest))
    (hending : progress.ending? = some ending)
    : ({ s with phase := .reading framer } : Session).run oracle inputs = s.finish ending := by
  induction inputs generalizing framer with
  | nil => simp [Framer.scan] at h
  | cons input inputs ih =>
    unfold Framer.scan at h
    rw [run, read]
    split at h
    . next next hstep =>
      dsimp
      rw [hstep]
      simp [Step.andThen, Step.after, ih next h]
    . rw [Option.some.injEq, Prod.mk.injEq] at h
      dsimp
      rw [h.1]
      have hfinish : ∀ reason,
          (s.finish reason).andThen (fun s => s.run oracle inputs) = s.finish reason := by
        intro reason
        apply Step.andThen_of_idle
        exact run_of_not_isReading oracle _ inputs rfl
      cases progress with
      | more next => contradiction
      | frame frame => contradiction
      | closed =>
        rw [← Option.some.inj hending]
        apply hfinish
      | failed reason =>
        rw [← Option.some.inj hending]
        apply hfinish

theorem send_of_delivered (s : Session) (reply : Reply) (next : Session → Step)
    (h : (s.control.send s.out (Text.Utf8.encodeString reply.encode)).fault? = none)
    : s.send reply next
        =
      (next { s with
          out := (s.control.send s.out (Text.Utf8.encodeString reply.encode)).out
        }).after
        ((s.control.send s.out (Text.Utf8.encodeString reply.encode)).events
          ++ [.noted (.reply reply.encode)]) := by
  unfold send
  dsimp
  rw [h]

theorem send_of_fault (s : Session) (reply : Reply) (next : Session → Step) (reason : String)
    (h : (s.control.send s.out (Text.Utf8.encodeString reply.encode)).fault? = some reason)
    : s.send reply next
        =
      (({ s with
          out := (s.control.send s.out (Text.Utf8.encodeString reply.encode)).out
        } : Session).finish (.transport (.io reason))).after
        (s.control.send s.out (Text.Utf8.encodeString reply.encode)).events := by
  unfold send
  dsimp
  rw [h]

theorem respond_calls (s : Session) (calls : List Call) (response : Response)
    : ({ s with calls } : Session).respond response
        =
      ({ (s.respond response).1 with calls }, (s.respond response).2) := by
  unfold respond send
  dsimp only
  split
  . rfl
  . split <;> rfl

theorem calls_respond (s : Session) (response : Response)
    : (s.respond response).1.calls = s.calls := by
  exact congrArg (·.1.calls) (respond_calls s s.calls response)

theorem state_respond (s : Session) (response : Response)
    : (s.respond response).1.state = s.state := by
  unfold respond send
  dsimp only
  split
  . rfl
  . split <;> rfl

structure Steady (s : Session) (step : Step) : Prop where
  settings_eq : step.1.settings = s.settings
  control_eq : step.1.control = s.control
  atLine : step.1.AtLine

theorem steady_finish (s : Session) (reason : Reason) : Steady s (s.finish reason) := by
  constructor
  . rfl
  . rfl
  . intro framer h
    simp [finish] at h

theorem steady_awaitLine (s : Session) : Steady s s.awaitLine := by
  constructor
  . rfl
  . rfl
  . intro framer h
    simp only [awaitLine, Phase.reading.injEq] at h
    rw [← h]
    rfl

theorem steady_send (s : Session) (reply : Reply) (next : Session → Step)
    (h : ∀ out, Steady { s with out } (next { s with out })) : Steady s (s.send reply next) := by
  cases hfault : (s.control.send s.out (Text.Utf8.encodeString reply.encode)).fault? with
  | none =>
    rw [send_of_delivered s reply next hfault]
    exact ⟨(h _).settings_eq, (h _).control_eq, (h _).atLine⟩
  | some reason =>
    rw [send_of_fault s reply next reason hfault]
    have := steady_finish { s with
      out := (s.control.send s.out (Text.Utf8.encodeString reply.encode)).out
    } (.transport (.io reason))
    exact ⟨this.settings_eq, this.control_eq, this.atLine⟩

theorem steady_respond (s : Session) (response : Response) : Steady s (s.respond response) := by
  unfold respond
  apply steady_send
  intro out
  split
  . apply steady_finish
  . apply steady_awaitLine

theorem steady_perform (oracle : Action.Oracle) (s : Session)
    (action : Action (SessionState × Response)) : Steady s (s.perform oracle action) := by
  unfold perform
  dsimp
  split
  . next state response _ =>
    have := steady_respond { s with calls := (action.run oracle s.calls).calls, state } response
    exact ⟨this.settings_eq, this.control_eq, this.atLine⟩
  . constructor
    . rfl
    . rfl
    . intro framer h
      simp [Step.after] at h
  . constructor
    . rfl
    . rfl
    . intro framer h
      simp [Step.after] at h

theorem steady_handle (oracle : Action.Oracle) (s : Session) (frame : Frame)
    : Steady s (s.handle oracle frame) := by
  have := steady_perform oracle s (s.settings.dispatch frame s.state)
  exact ⟨this.settings_eq, this.control_eq, this.atLine⟩

theorem steady_start (s : Session) : Steady s s.start := by
  have := steady_send s ⟨.serviceReady, s.settings.welcome⟩ awaitLine
    (fun out => steady_awaitLine { s with out })
  exact ⟨this.settings_eq, this.control_eq, this.atLine⟩

theorem run_of_scan (oracle : Action.Oracle) (s : Session) (h : s.AtLine)
    (inputs rest : List Input) (frame : Frame)
    (hscan : (Framer.fresh s.settings.maxCommandLength).scan s.settings.maxCommandLength inputs
      = some (.frame frame, rest))
    : s.run oracle inputs
        =
      if s.isReading then
        (s.handle oracle frame).andThen fun s => s.run oracle rest
      else
        (s, []) := by
  split
  . next hreading =>
    obtain ⟨framer, hphase⟩ := exists_of_isReading hreading
    rw [← h framer hphase] at hscan
    rw [← run_of_scan_frame oracle s framer _ _ _ hscan, ← hphase]
  . next hreading =>
    rw [Bool.not_eq_true] at hreading
    exact run_of_not_isReading oracle s _ hreading

end Session

end FtpControl
