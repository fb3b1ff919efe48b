import FtpControl.Event
import FtpControl.Text.Utf8

/-!
This module contains the sending side of a channel. A channel is described by what it does to the
calls on it: which of them fail, and how many bytes a write takes.
-/

namespace FtpControl

structure Channel where
  name : String
  /-- The reason for which the call with a given number fails. Each operation counts its own. -/
  fault : Operation → Nat → Option String := fun _ _ => none
  -- How many bytes the write with a given number takes at most; `none` takes them all.
  room : Nat → Option Nat := fun _ => none

structure Outbox where
  writes : Nat := 0
  flushes : Nat := 0
  unflushed : List UInt8 := []
  deriving Repr, DecidableEq

namespace Channel

def accepted (ch : Channel) (n offered : Nat) : Nat :=
  match ch.room n with
  | some room => min room offered
  | none => offered

structure Delivery where
  out : Outbox
  events : List Event
  fault? : Option String

def Delivery.after (event : Event) (d : Delivery) : Delivery :=
  { d with events := event :: d.events }

def write (ch : Channel) (out : Outbox) (bytes : List UInt8) : Delivery :=
  match bytes with
  | [] => ⟨out, [], none⟩
  | b :: rest =>
    let out := { out with writes := out.writes + 1 }
    match ch.fault .write (out.writes - 1) with
    | some reason => ⟨out, [.failed .write reason], some reason⟩
    | none =>
      match ch.accepted (out.writes - 1) (b :: rest).length with
      | 0 => ⟨out, [.failed .write "write zero"], some "write zero"⟩
      | n + 1 =>
        let piece := b :: rest.take n
        let out := { out with unflushed := out.unflushed ++ piece }
        (ch.write out (rest.drop n)).after (.wrote piece)
termination_by bytes.length
decreasing_by
  simp only [List.length_drop, List.length_cons]
  omega

def flush (ch : Channel) (out : Outbox) : Delivery :=
  let called := { out with flushes := out.flushes + 1 }
  match ch.fault .flush out.flushes with
  | some reason => ⟨called, [.failed .flush reason], some reason⟩
  | none => ⟨{ called with unflushed := [] }, [.flushed out.unflushed], none⟩

def send (ch : Channel) (out : Outbox) (bytes : List UInt8) : Delivery :=
  let written := ch.write out bytes
  match written.fault? with
  | some _ => written
  | none =>
    let flushed := ch.flush written.out
    { flushed with events := written.events ++ flushed.events }

def shutDown (ch : Channel) (label : String) : List Event :=
  match ch.fault .shutdown 0 with
  | none => [.shutDown ch.name true]
  | some reason =>
    [.shutDown ch.name false, .noted ⟨.debug, s!"{label} shutdown failed: {reason}"⟩]

end Channel

end FtpControl
