import FtpControl.Frame

/-!
This module contains reading through a buffer. The bytes of a peer come in pieces of any size, and a
line is taken out of them through windows, of which numbers of 64 bits count what is left. There is
no number beyond the largest limit, so no line can be read under that one.
-/

namespace FtpControl

structure Source where
  buffer : List UInt8 := []
  -- A read that finds no bytes has come to the end of the input, and so has every read behind
  -- these.
  reads : List (Except String (List UInt8)) := []

namespace Source

def ofChunks (chunks : List (List UInt8)) : Source where
  reads := chunks.map .ok

-- What a read is to somebody who looks at one byte at a time.
def looks : Except String (List UInt8) → List Input
  | .ok [] => [.eof]
  | .ok (b :: bytes) => .byte b :: bytes.map .byte
  | .error reason => [.failure reason]

def inputs (src : Source) : List Input :=
  src.buffer.map .byte ++ src.reads.flatMap looks

-- A read is due only if nothing is left in the buffer.
def fill (src : Source) : Except String Source :=
  match src.buffer, src.reads with
  | [], .ok bytes :: reads => .ok ⟨bytes, reads⟩
  | [], .error reason :: _ => .error reason
  | _, _ => .ok src

def upToLf (bytes : List UInt8) : List UInt8 :=
  bytes.take (bytes.idxOf Framer.lf + 1)

theorem length_upToLf_take_le (buffer : List UInt8) (window : Nat)
    : (upToLf (buffer.take window)).length ≤ window := by
  unfold upToLf
  rw [List.length_take, List.length_take]
  omega

theorem toNat_sub_length {window : UInt64} {piece : List UInt8}
    (h : piece.length ≤ window.toNat)
    : (window - .ofNat piece.length).toNat = window.toNat - piece.length := by
  have hpiece : (UInt64.ofNat piece.length).toNat = piece.length := by
    apply UInt64.toNat_ofNat_of_lt'
    exact Nat.lt_of_le_of_lt h window.toNat_lt
  rw [UInt64.toNat_sub_of_le, hpiece]
  rw [UInt64.le_iff_toNat_le, hpiece]
  exact h

/-- Take bytes until there is an LF among them, the window is full or the input has ended. -/
def take64 (src : Source) (window : UInt64) : Except String (List UInt8 × Source) :=
  if window = 0 then
    .ok ([], src)
  else
    match src.fill with
    | .error reason => .error reason
    | .ok src =>
      let piece := upToLf (src.buffer.take window.toNat)
      let rest := { src with buffer := src.buffer.drop piece.length }
      if Framer.lf ∈ piece ∨ piece = [] then
        .ok (piece, rest)
      else
        (take64 rest (window - .ofNat piece.length)).map fun (more, rest) => (piece ++ more, rest)
termination_by window.toNat
decreasing_by
  rw [toNat_sub_length (length_upToLf_take_le _ _)]
  apply Nat.sub_lt
  . rw [Nat.pos_iff_ne_zero]
    intro hzero
    exact absurd (UInt64.toNat_inj.1 hzero) ‹_›
  . exact List.length_pos_iff.2 (not_or.1 ‹_›).2

theorem length_fill_le {src filled : Source} (h : src.fill = .ok filled)
    : filled.inputs.length ≤ src.inputs.length := by
  obtain ⟨buffer, reads⟩ := src
  unfold fill at h
  dsimp only at h
  split at h
  . next bytes reads =>
    rw [← Except.ok.inj h]
    cases bytes <;> simp [inputs, looks]
  . contradiction
  . apply Nat.le_of_eq
    rw [← Except.ok.inj h]

theorem length_inputs_drop {src : Source} {n : Nat} (h : n ≤ src.buffer.length)
    : (inputs { src with buffer := src.buffer.drop n }).length + n = src.inputs.length := by
  simp only [inputs, List.length_append, List.length_map, List.length_drop]
  omega

theorem length_upToLf_take_le_length (buffer : List UInt8) (window : Nat)
    : (upToLf (buffer.take window)).length ≤ buffer.length := by
  unfold upToLf
  rw [List.length_take, List.length_take]
  omega

theorem length_take64_le {src rest : Source} {window : UInt64} {piece : List UInt8}
    (h : src.take64 window = .ok (piece, rest))
    : rest.inputs.length + piece.length ≤ src.inputs.length := by
  revert piece rest
  fun_induction take64 src window with
  | case1 src =>
    intro rest piece h
    obtain ⟨rfl, rfl⟩ := Prod.mk.inj (Except.ok.inj h)
    exact Nat.le_refl _
  | case2 src window hwindow reason hfill => nofun
  | case3 src window hwindow filled hfill taken =>
    intro rest piece h
    obtain ⟨rfl, rfl⟩ := Prod.mk.inj (Except.ok.inj h)
    have hdrop := length_inputs_drop (length_upToLf_take_le_length filled.buffer window.toNat)
    exact Nat.le_trans (Nat.le_of_eq hdrop) (length_fill_le hfill)
  | case4 src window hwindow filled hfill taken left =>
    rename_i _ ih
    intro rest piece h
    have hfilled := length_fill_le hfill
    have hdrop : left.inputs.length + taken.length = filled.inputs.length :=
      length_inputs_drop (length_upToLf_take_le_length filled.buffer window.toNat)
    generalize htake : left.take64 _ = found at h
    cases found with
    | error reason => contradiction
    | ok found =>
      obtain ⟨rfl, rfl⟩ := Prod.mk.inj (Except.ok.inj h)
      have hmore := ih htake
      rw [List.length_append]
      omega

-- What is left of a line that is too long goes one window after the other.
def drain64 (src : Source) (window : UInt64) : Except String Source :=
  match _h : src.take64 window with
  | .error reason => .error reason
  | .ok (piece, rest) =>
    if piece = [] ∨ piece.getLast? = some Framer.lf then .ok rest else rest.drain64 window
termination_by src.inputs.length
decreasing_by
  have hpiece := List.length_pos_iff.2 (not_or.1 ‹_›).1
  have hlength := length_take64_le _h
  omega

def window? (limit : UInt64) : Option UInt64 :=
  if limit.toNat + 1 < UInt64.size then some (limit + 1) else none

def readLine64 (src : Source) (limit : UInt64) : Option (Except String (Option Frame × Source)) :=
  (window? limit).map fun window =>
    match src.take64 window with
    | .error reason => .error reason
    | .ok (piece, rest) =>
      if piece = [] then
        .ok (none, rest)
      else if UInt64.ofNat piece.length ≤ limit then
        .ok (some (.line piece), rest)
      else if piece.getLast? = some Framer.lf then
        .ok (some (.overLong (piece.take limit.toNat)), rest)
      else
        (rest.drain64 limit).map fun rest => (some (.overLong (piece.take limit.toNat)), rest)

theorem length_drain64_le {src rest : Source} {window : UInt64} (h : src.drain64 window = .ok rest)
    : rest.inputs.length ≤ src.inputs.length := by
  fun_induction drain64 src window with
  | case1 src reason htake => contradiction
  | case2 src piece found htake hdone =>
    have hlength := length_take64_le htake
    rw [← Except.ok.inj h]
    omega
  | case3 src piece found htake hdone ih =>
    have hlength := length_take64_le htake
    have hfound := ih h
    omega

theorem length_readLine64_lt {src rest : Source} {limit : UInt64} {frame : Frame}
    (h : src.readLine64 limit = some (.ok (some frame, rest)))
    : rest.inputs.length < src.inputs.length := by
  unfold readLine64 at h
  obtain ⟨window, _, hread⟩ := Option.map_eq_some_iff.1 h
  split at hread
  . contradiction
  . next piece found htake =>
    have hlength := length_take64_le htake
    split at hread
    . simp at hread
    . next hne =>
      have hpiece := List.length_pos_iff.2 hne
      have hfound : rest.inputs.length ≤ found.inputs.length := by
        split at hread
        . apply Nat.le_of_eq
          rw [(Prod.mk.inj (Except.ok.inj hread)).2]
        . split at hread
          . apply Nat.le_of_eq
            rw [(Prod.mk.inj (Except.ok.inj hread)).2]
          . cases hdrain : found.drain64 limit with
            | error reason =>
              rw [hdrain] at hread
              contradiction
            | ok drained =>
              rw [hdrain] at hread
              rw [← (Prod.mk.inj (Except.ok.inj hread)).2]
              exact length_drain64_le hdrain
      omega

end Source

end FtpControl
