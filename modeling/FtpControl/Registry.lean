import Std.Data.TreeMap
import FtpControl.Command
import FtpControl.Handler

/-!
This module contains the table of command handlers and the way a line finds its handler in it.
-/

namespace FtpControl

structure Registry where
  handlers : Std.TreeMap String Handler := {}
  fallback : Handler := .unknown

namespace Registry

def empty : Registry := {}

def register (r : Registry) (verb : String) (h : Handler) : Registry :=
  { r with handlers := r.handlers.insert verb.toUpper h }

def setFallback (r : Registry) (h : Handler) : Registry :=
  { r with fallback := h }

def withLogin : Registry :=
  (empty.register "USER" .user).register "PASS" .pass

def resolve (r : Registry) (verb : String) : Handler :=
  r.handlers[verb]?.getD r.fallback

-- What the handler for a verb in upper case needs. The fallback takes what it gets.
def minArgs (r : Registry) (verb : String) : Nat :=
  match r.handlers[verb]? with
  | some h => h.minArgs
  | none => 0

def contains (r : Registry) (verb : String) : Bool :=
  r.handlers.contains verb.toUpper

def verbs (r : Registry) : List String :=
  r.handlers.keys

inductive Route where
  | blank
  | incomplete (verb : String) (required given : Nat)
  | invoke (handler : Handler) (args : List String)

def route (r : Registry) (line : String) : Route :=
  match Request.parse r.minArgs line with
  | .blank => .blank
  | .incomplete verb required given => .incomplete verb required given
  | .complete command => .invoke (r.resolve command.verb) command.args

def Route.follow (st : SessionState) : Route → Action (SessionState × Response)
  | blank => .done (st, .refusal "Syntax error, zero parameters")
  | incomplete verb required given =>
    .note ⟨.debug, s!"{verb} needs {required} argument(s), got {given}"⟩
      (.done (st, .refusal "Syntax error, missing parameters"))
  | invoke handler args => handler.conduct args st

def handleLine (r : Registry) (line : String) (st : SessionState) :
    Action (SessionState × Response) :=
  .note (.command (Text.stripLineEnding line)) ((r.route line).follow st)

/--
Answer a line of which only the first `limit` bytes are known. A registered verb is refused; blank
and unregistered lines get what they get at any length.
-/
def handleOverLong (r : Registry) (limit : Nat) (kept : String) (st : SessionState) :
    Action (SessionState × Response) :=
  match (Text.words kept).head?.map String.toUpper with
  | none => r.handleLine kept st
  | some verb =>
    if r.contains verb then
      .note ⟨.warn, s!"{verb} longer than {limit} bytes rejected"⟩
        (.done (st, .refusal "Command too long"))
    else
      r.handleLine kept st

end Registry

end FtpControl
