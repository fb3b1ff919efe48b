/-!
This module contains the framing of the bytes that a peer sends: a line ends with its LF or with the
input. A line may have `limit` bytes, its LF included; of a longer one the first `limit` bytes are
kept and the rest is drained.
-/

namespace FtpControl

inductive Frame where
  | line (bytes : List UInt8)
  | overLong (kept : List UInt8)
  deriving Repr, DecidableEq

inductive Input where
  | byte (b : UInt8)
  -- The end of the input. It need not last: bytes may follow a look that found nothing.
  | eof
  | failure (reason : String)
  deriving Repr, DecidableEq

inductive Framer where
  | collecting (held : List UInt8) (room : Nat)
  /--
  The line is too long. What is left of it is drained in windows as wide as the limit, and `taken`
  bytes of the present window have gone by.
  -/
  | draining (kept : List UInt8) (taken : Nat)
  deriving Repr, DecidableEq

namespace Framer

def lf : UInt8 := 0x0A

def fresh (limit : Nat) : Framer :=
  collecting [] limit

inductive Progress where
  | more (framer : Framer)
  | frame (frame : Frame)
  | closed
  | failed (reason : String)
  deriving Repr, DecidableEq

-- The line has outgrown the limit with `b`. A window without width has nothing to drain.
def overflow (limit : Nat) (kept : List UInt8) (b : UInt8) : Progress :=
  if b = lf ∨ limit = 0 then .frame (.overLong kept) else .more (draining kept 0)

def step (limit : Nat) : Framer → Input → Progress
  | collecting held 0, .byte b => overflow limit held.reverse b
  | collecting held (room + 1), .byte b =>
    if b = lf then
      .frame (.line (b :: held).reverse)
    else
      .more (collecting (b :: held) room)
  | collecting [] _, .eof => .closed
  | collecting held _, .eof => .frame (.line held.reverse)
  | draining kept taken, .byte b =>
    if b = lf then
      .frame (.overLong kept)
    else
      .more (draining kept (if taken + 1 = limit then 0 else taken + 1))
  -- The end of the input counts only at the start of a window; elsewhere it just ends the window.
  | draining kept 0, .eof => .frame (.overLong kept)
  | draining kept (_ + 1), .eof => .more (draining kept 0)
  | _, .failure reason => .failed reason

end Framer

end FtpControl
