import FtpControl.Session

/-!
This module contains the connections that a listener serves. A connection keeps what its peer has
sent ahead, so that its session gets every input when it is ready for it and not before.
-/

namespace FtpControl

structure Connection where
  serial : Nat
  log : ConnectionLog
  session : Session
  inbox : List Input := []
  /-- The session is over and its place is free, but its notice has not been sent. -/
  vacated : Bool := false

namespace Connection

abbrev Step := Connection × List Event

def pump (c : Connection) : Step :=
  let (session, inbox, events) := go c.session c.inbox
  ({ c with session, inbox }, events)
where
  go (s : Session) : List Input → Session × List Input × List Event
    | [] => (s, [], [])
    | input :: inbox =>
      if s.isReading then
        let (s, events) := s.read .later input
        let (s, inbox, later) := go s inbox
        (s, inbox, events ++ later)
      else
        (s, input :: inbox, [])

def start (c : Connection) : Step :=
  let (session, events) := c.session.start
  ({ c with session }, events)

def receive (inputs : List Input) (c : Connection) : Step :=
  { c with inbox := c.inbox ++ inputs }.pump

def settle (n : Nat) (verdict : Verdict) (c : Connection) : Step :=
  let (session, events) := c.session.settle .later n verdict
  let (c, later) := { c with session }.pump
  (c, events ++ later)

def isOver (c : Connection) : Bool :=
  match c.session.phase with
  | .ended _ | .crashed => true
  | _ => false

def termination? (c : Connection) : Option Termination :=
  c.session.termination? c.log

end Connection

end FtpControl
