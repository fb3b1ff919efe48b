import FtpControl.Channel
import FtpControl.Registry
import FtpControl.Source

/-!
This module contains sessions: one for every control connection. A session sends its greeting, then
takes one line at a time and sends one reply to it before it looks at the next. Its steps are driven
from outside, by what is found on the peer's side and by the answers to its calls; each step gives
the events that it caused.
-/

namespace FtpControl

inductive SessionError where
  | io (reason : String)
  deriving Repr, DecidableEq

def SessionError.message : SessionError → String
  | io reason => s!"control channel I/O failed: {reason}"

inductive Reason where
  | peerClosed
  | closeRequested
  | transport (error : SessionError)
  deriving Repr, DecidableEq

def Reason.text : Reason → String
  | peerClosed => "closed by peer"
  | closeRequested => "closed on request"
  | transport error => error.message

structure Termination where
  session : UInt64
  peer : String
  reason : Reason
  state : SessionState
  deriving DecidableEq

structure SessionSettings where
  welcome : String
  maxCommandLength : Nat
  auth : Authenticator := {}
  registry : Registry := .withLogin

namespace SessionSettings

def dispatch (cfg : SessionSettings) (frame : Frame) (st : SessionState) :
    Action (SessionState × Response) :=
  match frame with
  | .line bytes => cfg.registry.handleLine (Text.Utf8.decodeString bytes) st
  | .overLong kept =>
    cfg.registry.handleOverLong cfg.maxCommandLength (Text.Utf8.decodeString kept) st

end SessionSettings

inductive Phase where
  | unopened
  | reading (framer : Framer)
  | checking (resume : Answer → Action (SessionState × Response))
  | ended (reason : Reason)
  | crashed

structure Session where
  settings : SessionSettings
  control : Channel := { name := "control" }
  data : Option Channel := none
  state : SessionState := .initial
  out : Outbox := {}
  calls : List Call := []
  phase : Phase := .unopened

namespace Session

abbrev Step := Session × List Event

def Step.after (events : List Event) (step : Step) : Step :=
  (step.1, events ++ step.2)

@[simp]
theorem Step.fst_after (events : List Event) (step : Step) : (step.after events).1 = step.1 := rfl

def Step.andThen (step : Step) (next : Session → Step) : Step :=
  (next step.1).after step.2

def attach (s : Session) (ch : Channel) : Option Channel × Session :=
  (s.data, { s with data := some ch })

def finish (s : Session) (reason : Reason) : Step :=
  ({ s with data := none, phase := .ended reason },
    s.control.shutDown "Control channel" ++ s.data.elim [] (·.shutDown "Data channel")
      ++ [.noted ⟨.info, s!"Connection terminated: {reason.text}"⟩])

def send (s : Session) (reply : Reply) (next : Session → Step) : Step :=
  let delivery := s.control.send s.out (Text.Utf8.encodeString reply.encode)
  let s := { s with out := delivery.out }
  match delivery.fault? with
  | some reason => (s.finish (.transport (.io reason))).after delivery.events
  | none => (next s).after (delivery.events ++ [.noted (.reply reply.encode)])

def awaitLine (s : Session) : Step :=
  ({ s with phase := .reading (.fresh s.settings.maxCommandLength) }, [])

def respond (s : Session) (response : Response) : Step :=
  s.send response.reply fun s =>
    if response.closes then s.finish .closeRequested else s.awaitLine

def perform (oracle : Action.Oracle) (s : Session) (action : Action (SessionState × Response)) :
    Step :=
  let outcome := action.run oracle s.calls
  let s := { s with calls := outcome.calls }
  Step.after outcome.events <|
    match outcome.stop with
    | .done (state, response) => { s with state }.respond response
    | .waiting resume => ({ s with phase := .checking resume }, [])
    | .crashed => ({ s with phase := .crashed }, [])

def start (s : Session) : Step :=
  (s.send ⟨.serviceReady, s.settings.welcome⟩ awaitLine).after [.noted .connectionEstablished]

def read (oracle : Action.Oracle) (s : Session) (input : Input) : Step :=
  match s.phase with
  | .reading framer =>
    match framer.step s.settings.maxCommandLength input with
    | .more framer => ({ s with phase := .reading framer }, [])
    | .frame frame =>
      (s.perform oracle (s.settings.dispatch frame s.state)).after [.received frame]
    | .closed => s.finish .peerClosed
    | .failed reason => s.finish (.transport (.io reason))
  | _ => (s, [])

def answer (oracle : Action.Oracle) (s : Session) (a : Answer) : Step :=
  match s.phase with
  | .checking resume => s.perform oracle (resume a)
  | _ => (s, [])

/--
Take the verdict on the call with number `n`, counted from 0. A session waits for its last call
only, so what becomes of an older one that it has given up on changes nothing.
-/
def settle (oracle : Action.Oracle) (s : Session) (n : Nat) (verdict : Verdict) : Step :=
  if n + 1 = s.calls.length then
    match s.settings.auth.conclude verdict with
    | some a => s.answer oracle a
    | none => (s, [])
  else
    (s, [])

def isReading (s : Session) : Bool :=
  match s.phase with
  | .reading _ => true
  | _ => false

def run (oracle : Action.Oracle) (s : Session) : List Input → Step
  | [] => (s, [])
  | input :: inputs => (s.read oracle input).andThen fun s => run oracle s inputs

-- The end of the input as seen by a session that keeps looking. The first look may close a window,
-- the second a line, and the third finds no line at all.
def lastingEnd : List Input :=
  List.replicate 3 .eof

-- Windows are counted without bound here. `serveFrom64` counts them with 64 bits, which is the same
-- as long as there is such a number beyond the limit.
def serve (oracle : Action.Oracle) (s : Session) (inputs : List Input) : Step :=
  s.start.andThen fun s => s.run oracle (inputs ++ lastingEnd)

def handle (oracle : Action.Oracle) (s : Session) (frame : Frame) : Step :=
  (s.perform oracle (s.settings.dispatch frame s.state)).after [.received frame]

-- Answer line after line of a source. There is no result if the session looks for a line and the
-- limit leaves no number of 64 bits for its window.
def runFrom64 (oracle : Action.Oracle) (s : Session) (src : Source) : Option Step :=
  if s.isReading then
    match _h : src.readLine64 (.ofNat s.settings.maxCommandLength) with
    | none => none
    | some (.error reason) => some (s.finish (.transport (.io reason)))
    | some (.ok (none, _)) => some (s.finish .peerClosed)
    | some (.ok (some frame, rest)) =>
      let step := s.handle oracle frame
      (runFrom64 oracle step.1 rest).map (.after step.2)
  else
    some (s, [])
termination_by src.inputs.length
decreasing_by
  exact Source.length_readLine64_lt _h

def serveFrom64 (oracle : Action.Oracle) (s : Session) (src : Source) : Option Step :=
  let step := s.start
  (step.1.runFrom64 oracle src).map (.after step.2)

def termination? (s : Session) (log : ConnectionLog) : Option Termination :=
  match s.phase with
  | .ended reason => some ⟨log.session, log.peer, reason, s.state⟩
  | _ => none

end Session

def ConnectionLog.records (log : ConnectionLog) (events : List Event) : List Record :=
  events.filterMap fun e => e.note?.map log.record

end FtpControl
