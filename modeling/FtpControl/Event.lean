import FtpControl.Auth
import FtpControl.Frame
import FtpControl.Log

/-!
This module contains the events of a session. All that a session does to the world around it is in
the list of its events, in order.
-/

namespace FtpControl

inductive Operation where
  | write
  | flush
  | shutdown
  deriving Repr, DecidableEq

inductive Event where
  | noted (note : Note)
  | received (frame : Frame)
  | called (call : Call)
  | wrote (bytes : List UInt8)
  | flushed (bytes : List UInt8)
  | failed (operation : Operation) (reason : String)
  | shutDown (channel : String) (clean : Bool)
  deriving Repr, DecidableEq

namespace Event

def note? : Event → Option Note
  | noted note => some note
  | _ => none

def call? : Event → Option Call
  | called call => some call
  | _ => none

def frame? : Event → Option Frame
  | received frame => some frame
  | _ => none

def flushed? : Event → Option (List UInt8)
  | flushed bytes => some bytes
  | _ => none

end Event

end FtpControl
