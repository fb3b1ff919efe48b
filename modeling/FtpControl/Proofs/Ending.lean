import FtpControl.Proofs.Loop

/-!
This module contains the ends of sessions: the peer closes its side, or reading from it fails, and
the session takes its leave. What stands in front of the end of the input is a list of frames, and a
session answers them as long as it goes on.
-/

namespace FtpControl

namespace Framer

inductive Parses (limit : Nat) : List Input → List Frame → Reason → Prop
  | ended {inputs rest : List Input} {progress : Progress} {ending : Reason}
      (hscan : scan limit (fresh limit) inputs = some (progress, rest))
      (hending : progress.ending? = some ending)
    : Parses limit inputs [] ending
  | frame {inputs rest : List Input} {frame : Frame} {frames : List Frame} {ending : Reason}
      (hscan : scan limit (fresh limit) inputs = some (.frame frame, rest))
      (hrest : Parses limit rest frames ending)
    : Parses limit inputs (frame :: frames) ending

theorem Parses.line {limit : Nat} (hlimit : 0 < limit) {body bytes : List UInt8} (h : lf ∉ body)
    {inputs : List Input} {frames : List Frame} {ending : Reason}
    (hrest : Parses limit (bytes.map .byte ++ inputs) frames ending)
    : Parses limit ((body ++ lf :: bytes).map .byte ++ inputs)
        (.ofLine limit (body ++ [lf]) :: frames) ending := by
  have hscan := scan_line limit hlimit body h (bytes.map .byte ++ inputs)
  rw [← List.append_assoc, ← List.map_append, List.append_assoc, List.singleton_append] at hscan
  exact .frame hscan hrest

theorem parses_eof (limit : Nat) (hlimit : 0 < limit) (bytes : List UInt8) (n : Nat)
    : Parses limit (bytes.map .byte ++ List.replicate (n + 3) .eof)
        ((lines bytes).map (.ofLine limit)) .peerClosed := by
  induction bytes using lines_induction with
  | nil => exact .ended (scan_closed limit (n + 2)) rfl
  | tail body hne h =>
    obtain ⟨left, hleft, hscan⟩ := scan_tail limit hlimit body hne h (n + 1)
    have hclosed := scan_closed limit (left - 1)
    rw [Nat.sub_add_cancel (by omega)] at hclosed
    rw [lines_of_not_mem body hne h]
    exact .frame hscan (.ended hclosed rfl)
  | line body bytes h ih =>
    rw [lines_append_lf body bytes h]
    exact ih.line hlimit h

variable {limit : Nat}

theorem scan_of_ne_more {framer : Framer} {input : Input} (rest : List Input)
    (h : ∀ next, framer.step limit input ≠ .more next)
    : scan limit framer (input :: rest) = some (framer.step limit input, rest) := by
  rw [scan]
  split
  . next hmore => exact absurd hmore (h _)
  . rfl

theorem exists_scan_lastingEnd (limit : Nat) (framer : Framer) (inputs : List Input)
    : ∃ progress rest,
        scan limit framer (inputs ++ Session.lastingEnd) = some (progress, rest)
          ∧
        (∀ next, progress ≠ .more next)
          ∧
        ((∃ left, rest = left ++ Session.lastingEnd ∧ left.length < inputs.length)
          ∨
        ∃ n, rest = List.replicate (n + 1) .eof) := by
  induction inputs generalizing framer with
  | nil =>
    -- One look is enough, except inside a window, which takes the first one for itself.
    cases framer with
    | collecting held room =>
      cases held with
      | nil =>
        refine ⟨.closed, _, ?_, nofun, .inr ⟨1, rfl⟩⟩
        cases room <;> rfl
      | cons b held =>
        refine ⟨.frame (.line (b :: held).reverse), _, ?_, nofun, .inr ⟨1, rfl⟩⟩
        cases room <;> rfl
    | draining kept taken =>
      cases taken with
      | zero => exact ⟨.frame _, _, rfl, nofun, .inr ⟨1, rfl⟩⟩
      | succ taken => exact ⟨.frame _, _, rfl, nofun, .inr ⟨0, rfl⟩⟩
  | cons input inputs ih =>
    by_cases hmore : ∃ next, framer.step limit input = .more next
    . obtain ⟨next, hstep⟩ := hmore
      obtain ⟨progress, rest, hscan, hprogress, hrest⟩ := ih next
      refine ⟨progress, rest, ?_, hprogress, ?_⟩
      . rw [List.cons_append, scan_of_more _ hstep, hscan]
      . rcases hrest with ⟨left, hleft, hlength⟩ | hend
        . exact .inl ⟨left, hleft, Nat.lt_succ_of_lt hlength⟩
        . exact .inr hend
    . rw [not_exists] at hmore
      exact ⟨_, _, scan_of_ne_more _ hmore, hmore, .inl ⟨inputs, rfl, Nat.lt_succ_self _⟩⟩

theorem exists_parses (limit : Nat) (inputs : List Input)
    : ∃ frames ending, Parses limit (inputs ++ Session.lastingEnd) frames ending := by
  obtain ⟨progress, rest, hscan, hprogress, hrest⟩ :=
    exists_scan_lastingEnd limit (fresh limit) inputs
  cases progress with
  | more next => exact absurd rfl (hprogress next)
  | closed => exact ⟨[], _, .ended hscan rfl⟩
  | failed reason => exact ⟨[], _, .ended hscan rfl⟩
  | frame frame =>
    rcases hrest with ⟨left, hleft, hlength⟩ | ⟨n, hend⟩
    . obtain ⟨frames, ending, hparses⟩ := exists_parses limit left
      rw [← hleft] at hparses
      exact ⟨frame :: frames, ending, .frame hscan hparses⟩
    . have hclosed := scan_closed limit n
      rw [← hend] at hclosed
      exact ⟨[frame], _, .frame hscan (.ended hclosed rfl)⟩
termination_by inputs.length

end Framer

namespace Session

def farewell (s : Session) : Phase → List Event
  | .ended reason => (s.finish reason).2
  | _ => []

theorem noted_or_shutDown_of_mem_finish (s : Session) (reason : Reason)
    : ∀ event ∈ (s.finish reason).2,
        (∃ note, event = .noted note) ∨ (∃ channel clean, event = .shutDown channel clean) := by
  have hshut : ∀ (ch : Channel) (label : String), ∀ event ∈ ch.shutDown label,
      (∃ note, event = .noted note) ∨ (∃ channel clean, event = .shutDown channel clean) := by
    intro ch label
    unfold Channel.shutDown
    split <;> simp
  intro event hevent
  simp only [finish, List.mem_append, List.mem_singleton] at hevent
  rcases hevent with (hcontrol | hdata) | hnote
  . exact hshut _ _ event hcontrol
  . cases hd : s.data with
    | none => simp [hd] at hdata
    | some ch =>
      rw [hd] at hdata
      exact hshut _ _ event hdata
  . exact .inl ⟨_, hnote⟩

theorem visible_finish (s : Session) (reason : Reason)
    : visible (s.finish reason).2 = (s.finish reason).2 := by
  apply visible_eq_self
  intro event hevent
  rcases noted_or_shutDown_of_mem_finish s reason event hevent with ⟨_, heq⟩ | ⟨_, _, heq⟩
  . rw [heq]
    rfl
  . rw [heq]
    rfl

theorem filterMap_farewell {α : Type} (f : Event → Option α)
    (hnoted : ∀ note, f (.noted note) = none)
    (hshutDown : ∀ channel clean, f (.shutDown channel clean) = none) (s : Session) (phase : Phase)
    : (s.farewell phase).filterMap f = [] := by
  apply List.filterMap_eq_nil_iff.2
  intro event hevent
  cases phase with
  | ended reason =>
    rcases noted_or_shutDown_of_mem_finish s reason event hevent with ⟨_, heq⟩ | ⟨_, _, heq⟩
    . rw [heq, hnoted]
    . rw [heq, hshutDown]
  | _ => simp [farewell] at hevent

theorem filterMap_frame?_finish (s : Session) (reason : Reason)
    : (s.finish reason).2.filterMap Event.frame? = [] := by
  exact filterMap_farewell Event.frame? (fun _ => rfl) (fun _ _ => rfl) s (.ended reason)

theorem filterMap_frame?_respond (s : Session) (response : Response)
    : (s.respond response).2.filterMap Event.frame? = [] := by
  have hsend := Channel.filterMap_send Event.frame? (fun _ => rfl) (fun _ => rfl) (fun _ _ => rfl)
    s.control s.out (Text.Utf8.encodeString response.reply.encode)
  unfold respond send
  dsimp only
  split
  . rw [Step.after, List.filterMap_append, hsend, filterMap_frame?_finish, List.append_nil]
  . rw [Step.after, List.filterMap_append, List.filterMap_append, hsend]
    split
    . exact filterMap_frame?_finish _ _
    . rfl

theorem filterMap_frame?_perform (oracle : Action.Oracle) (s : Session)
    (action : Action (SessionState × Response))
    : (s.perform oracle action).2.filterMap Event.frame? = [] := by
  have hrun := Action.filterMap_run Event.frame? (fun _ => rfl) (fun _ => rfl) oracle s.calls action
  unfold perform
  dsimp only
  rw [Step.after, List.filterMap_append, hrun, List.nil_append]
  split
  . apply filterMap_frame?_respond
  . rfl
  . rfl

theorem filterMap_frame?_handle (oracle : Action.Oracle) (s : Session) (frame : Frame)
    : (s.handle oracle frame).2.filterMap Event.frame? = [frame] := by
  rw [handle, Step.after, List.filterMap_append, filterMap_frame?_perform]
  rfl

theorem phase_respond (s : Session) (response : Response)
    : (s.respond response).1.isReading = true
        ∨
      ∃ reason, reason ≠ .peerClosed ∧ (s.respond response).1.phase = .ended reason := by
  unfold respond send
  dsimp only
  split
  . exact .inr ⟨_, Reason.noConfusion, rfl⟩
  . split
    . exact .inr ⟨_, Reason.noConfusion, rfl⟩
    . exact .inl rfl

theorem start_eq_respond (s : Session)
    : s.start
        =
      (s.respond ⟨⟨.serviceReady, s.settings.welcome⟩, false⟩).after
        [.noted .connectionEstablished] := rfl

theorem filterMap_frame?_start (s : Session) : s.start.2.filterMap Event.frame? = [] := by
  rw [start_eq_respond, Step.after, List.filterMap_append, filterMap_frame?_respond]
  rfl

variable {oracle : Action.Oracle} {s : Session}

def outAfter (s : Session) (reply : Reply) : Outbox :=
  (s.control.send s.out (Text.Utf8.encodeString reply.encode)).out

theorem visible_exchange (frame : Frame)
    : visible (s.exchange oracle frame).outcome.events
        =
      (s.exchange oracle frame).outcome.events := by
  apply Action.visible_run

/-- Answer lines as long as the session waits for one, and then take the end of the input. -/
def answerUntil (oracle : Action.Oracle) (ending : Reason) (s : Session) : List Frame → Step
  | [] => if s.isReading then s.finish ending else (s, [])
  | frame :: frames =>
    if s.isReading then
      (s.handle oracle frame).andThen fun s => answerUntil oracle ending s frames
    else
      (s, [])

theorem answerUntil_of_not_isReading (ending : Reason) (frames : List Frame)
    (h : s.isReading = false) : s.answerUntil oracle ending frames = (s, []) := by
  cases frames <;> simp [answerUntil, h]

theorem answerUntil_cons (ending : Reason) (frame : Frame) (frames : List Frame)
    (h : s.isReading = true)
    : s.answerUntil oracle ending (frame :: frames)
        =
      (s.handle oracle frame).andThen fun s => s.answerUntil oracle ending frames := by
  exact if_pos h

theorem run_of_parses (oracle : Action.Oracle) (s : Session) (h : s.AtLine) {limit : Nat}
    (hlimit : s.settings.maxCommandLength = limit) {inputs : List Input} {frames : List Frame}
    {ending : Reason} (hparses : Framer.Parses limit inputs frames ending)
    : s.run oracle inputs = s.answerUntil oracle ending frames := by
  -- Each line is answered in the state that the line before it has left, so `s` is general.
  induction hparses generalizing s with
  | ended hscan hending =>
    subst hlimit
    rw [answerUntil]
    split
    . next hreading =>
      obtain ⟨framer, hphase⟩ := exists_of_isReading hreading
      rw [← h framer hphase] at hscan
      rw [← run_of_scan_ending oracle s framer _ _ hscan hending, ← hphase]
    . next hreading =>
      rw [Bool.not_eq_true] at hreading
      exact run_of_not_isReading oracle s _ hreading
  | @frame _ _ frame _ _ hscan _ ih =>
    subst hlimit
    have hsteady := steady_handle oracle s frame
    rw [run_of_scan oracle s h _ _ _ hscan, answerUntil]
    congr 1
    apply Step.andThen_congr
    exact ih _ hsteady.atLine (by rw [hsteady.settings_eq])

def answerAll (oracle : Action.Oracle) (s : Session) : List Frame → Step
  | [] => if s.isReading then s.finish .peerClosed else (s, [])
  | frame :: frames =>
    if s.isReading then
      (s.handle oracle frame).andThen fun s => answerAll oracle s frames
    else
      (s, [])

theorem answerUntil_peerClosed (oracle : Action.Oracle) (s : Session) (frames : List Frame)
    : s.answerUntil oracle .peerClosed frames = s.answerAll oracle frames := by
  induction frames generalizing s with
  | nil => rfl
  | cons frame frames ih => rw [answerUntil, answerAll, funext ih]

theorem run_eq_answerAll (oracle : Action.Oracle) (s : Session) (h : s.AtLine)
    (hlimit : 0 < s.settings.maxCommandLength) (bytes : List UInt8) (n : Nat)
    : s.run oracle (bytes.map .byte ++ List.replicate (n + 3) .eof)
        =
      s.answerAll oracle
        ((Framer.lines bytes).map (.ofLine s.settings.maxCommandLength)) := by
  rw [run_of_parses oracle s h rfl (Framer.parses_eof _ hlimit bytes n), answerUntil_peerClosed]

theorem serve_eq_answerAll (oracle : Action.Oracle) (s : Session)
    (hlimit : 0 < s.settings.maxCommandLength) (bytes : List UInt8)
    : s.serve oracle (bytes.map .byte)
        =
      s.start.andThen fun started =>
        started.answerAll oracle
          ((Framer.lines bytes).map (.ofLine s.settings.maxCommandLength)) := by
  have hsteady := steady_start s
  apply Step.andThen_congr
  rw [← hsteady.settings_eq] at hlimit
  rw [← hsteady.settings_eq]
  exact run_eq_answerAll oracle _ hsteady.atLine hlimit bytes 0

end Session

end FtpControl
