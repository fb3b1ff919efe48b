import FtpControl.Config.Server
import FtpControl.Connection
import FtpControl.Host

/-!
This module contains the listener: it accepts connections, gives each of them a session as long as
there are places, and sends a notice for every session that ends. Its steps are driven from outside,
by what happens to it in whatever order, and each step gives the effects that it has.
-/

namespace FtpControl

structure Listener where
  settings : SessionSettings
  log : ServerLog
  address : String
  maxClients : UInt64
  places : Nat
  notifies : Bool := true
  started : Nat := 0
  connections : List Connection := []
  accepting : Bool := true

namespace Listener

/--
What happens to a listener. Its connections are told apart by their serials, since the numbers of
sessions, which have 64 bits, come round again.
-/
inductive Stimulus where
  | connected (peer : String) (control : Channel)
  | acceptFailed (reason : String)
  | received (serial : Nat) (inputs : List Input)
  -- A call of a session came to a verdict, `silent` when its time was up.
  | settled (serial : Nat) (call : Nat) (verdict : Verdict)
  | vacated (serial : Nat)
  | reported (serial : Nat)
  | stopped

inductive Effect where
  | noted (note : Note)
  | served (serial : Nat) (log : ConnectionLog)
  | happened (serial : Nat) (log : ConnectionLog) (event : Event)
  | refused (peer : String) (event : Event)
  | notified (serial : Nat) (termination : Termination)

abbrev Step := Listener × List Effect

def refusal : Reply :=
  ⟨.serviceUnavailable, "Too many connections. Try again later."⟩

def turnAway (control : Channel) : List Event :=
  let delivery := control.write {} (Text.Utf8.encodeString refusal.encode)
  let failure := delivery.fault?.elim [] fun reason =>
    [.noted ⟨.debug, s!"Failed to send refusal: {reason}"⟩]
  delivery.events ++ failure ++ control.shutDown "Refused connection"

def nextId (l : Listener) : UInt64 :=
  .ofNat (l.started + 1)

def newConnection (l : Listener) (peer : String) (control : Channel) : Connection where
  serial := l.started
  log := l.log.forConnection l.nextId peer
  session := { settings := l.settings, control }

def connect (l : Listener) (peer : String) (control : Channel) : Step :=
  match l.places with
  | 0 =>
    (l, .noted ⟨.warn, s!"Refusing {peer}: {l.maxClients} clients already connected"⟩
      :: (turnAway control).map (.refused peer))
  | places + 1 =>
    let (c, events) := (l.newConnection peer control).start
    ({ l with places, started := l.started + 1, connections := l.connections ++ [c] },
      .served c.serial c.log :: events.map (.happened c.serial c.log))

def find? (l : Listener) (serial : Nat) : Option Connection :=
  l.connections.find? fun c => c.serial == serial

def replace (l : Listener) (new : Connection) : Listener :=
  { l with connections := l.connections.map fun c => if c.serial == new.serial then new else c }

def remove (l : Listener) (serial : Nat) : Listener :=
  { l with connections := l.connections.filter fun c => c.serial != serial }

def advance (l : Listener) (serial : Nat) (move : Connection → Connection.Step) : Step :=
  match l.find? serial with
  | none => (l, [])
  | some c =>
    let (moved, events) := move c
    (l.replace moved, events.map (.happened c.serial c.log))

def vacate (l : Listener) (serial : Nat) : Step :=
  match l.find? serial with
  | none => (l, [])
  | some c =>
    if c.isOver && !c.vacated then
      let l := { l with places := l.places + 1 }
      match c.termination? with
      | some _ => (l.replace { c with vacated := true }, [])
      | none => (l.remove serial, [])
    else
      (l, [])

def report (l : Listener) (serial : Nat) : Step :=
  match l.find? serial with
  | none => (l, [])
  | some c =>
    if c.vacated then
      let notice := if l.notifies then c.termination?.toList else []
      (l.remove serial, notice.map (.notified serial))
    else
      (l, [])

def stop (l : Listener) : Step :=
  if l.accepting then
    ({ l with accepting := false },
      [.noted ⟨.info, "Shutdown requested, no longer accepting connections"⟩])
  else
    (l, [])

def complain (l : Listener) (reason : String) : Step :=
  if l.accepting then
    (l, [.noted ⟨.error, s!"Error accepting connection: {reason}"⟩])
  else
    (l, [])

def step (l : Listener) : Stimulus → Step
  | .connected peer control => if l.accepting then l.connect peer control else (l, [])
  | .acceptFailed reason => l.complain reason
  | .received serial inputs => l.advance serial (Connection.receive inputs)
  | .settled serial n verdict => l.advance serial (Connection.settle n verdict)
  | .vacated serial => l.vacate serial
  | .reported serial => l.report serial
  | .stopped => l.stop

def run (l : Listener) : List Stimulus → Step
  | [] => (l, [])
  | stimulus :: rest =>
    let (l, effects) := l.step stimulus
    let (l, later) := l.run rest
    (l, effects ++ later)

def Effect.record? (log : ServerLog) : Effect → Option Record
  | noted note => some (log.record note)
  | happened _ log event => event.note?.map log.record
  | refused _ event => event.note?.map log.record
  | served .. | notified .. => none

def maxPlaces : Nat := 0x1FFFFFFFFFFFFFFF

inductive Outcome where
  | listening (listener : Listener)
  | failed (error : ServerError)
  | crashed

def bind (host : Host) (c : ServerConfig) (settings : SessionSettings) (log : ServerLog) :
    List Record × Outcome :=
  match host.refusal? c.controlSocket with
  | some reason => ([], .failed (.bind c.controlSocket reason))
  | none =>
    match host.localAddress c.controlSocket with
    | .error reason => ([], .failed (.io reason))
    | .ok address =>
      let records := [log.record ⟨.info, s!"Server bound to {address}"⟩]
      if c.maxClients.toNat ≤ maxPlaces then
        (records, .listening
          { settings, log, address, maxClients := c.maxClients, places := c.maxClients.toNat })
      else
        (records, .crashed)

def opening (l : Listener) : Record :=
  l.log.record ⟨.info, s!"Starting Rax FTP server on {l.address} (max {l.maxClients} clients)"⟩

end Listener

end FtpControl
