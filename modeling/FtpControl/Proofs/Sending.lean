import FtpControl.Proofs.Delivery

/-!
This module contains sending over a channel whose calls may fail. What a channel has to do for some
bytes is known beforehand, because it only depends on how much its writes take; the first of these
calls that fails is where sending stops.
-/

namespace FtpControl

namespace Channel

def writesFor (ch : Channel) (n : Nat) (bytes : List UInt8) : Nat :=
  match bytes with
  | [] => 0
  | b :: rest => ch.writesFor (n + 1) (rest.drop (ch.accepted n (b :: rest).length - 1)) + 1
termination_by bytes.length
decreasing_by
  simp only [List.length_drop, List.length_cons]
  omega

def writeCalls (ch : Channel) (n : Nat) (bytes : List UInt8) : List (Operation × Nat) :=
  (List.range' n (ch.writesFor n bytes)).map (.write, ·)

def callsFor (ch : Channel) (out : Outbox) (bytes : List UInt8) : List (Operation × Nat) :=
  ch.writeCalls out.writes bytes ++ [(.flush, out.flushes)]

def faultIn (ch : Channel) (calls : List (Operation × Nat)) : Option (Operation × String) :=
  calls.findSome? fun (operation, n) => (ch.fault operation n).map (operation, ·)

def behind (ch : Channel) (out : Outbox) (bytes : List UInt8) : Outbox where
  writes := out.writes + ch.writesFor out.writes bytes
  flushes := out.flushes + 1

def schedule (ch : Channel) (out : Outbox) : List (List UInt8) → List (List (Operation × Nat))
  | [] => []
  | bytes :: rest => ch.callsFor out bytes :: ch.schedule (ch.behind out bytes) rest

def mended (ch : Channel) : Channel :=
  { ch with
    fault := fun operation n =>
      match operation with
      | .shutdown => ch.fault .shutdown n
      | _ => none }

/-- A write takes something, unless it fails. -/
def Roomy (ch : Channel) : Prop :=
  ∀ n, ch.room n ≠ some 0

variable {ch : Channel}

theorem Roomy.accepted_ne_zero (h : ch.Roomy) (n offered : Nat) (hoffered : 0 < offered)
    : ch.accepted n offered ≠ 0 := by
  unfold accepted
  split
  . next room heq =>
    have hroom : room ≠ 0 := by
      intro hzero
      apply h n
      rw [heq, hzero]
    omega
  . omega

theorem faultIn_cons (ch : Channel) (operation : Operation) (n : Nat)
    (calls : List (Operation × Nat))
    : ch.faultIn ((operation, n) :: calls)
        =
      ((ch.fault operation n).map (operation, ·)).or (ch.faultIn calls) := by
  unfold faultIn
  cases hfault : ch.fault operation n with
  | none => simp [hfault]
  | some reason => simp [hfault]

theorem faultIn_append (ch : Channel) (first second : List (Operation × Nat))
    : ch.faultIn (first ++ second) = (ch.faultIn first).or (ch.faultIn second) := by
  apply List.findSome?_append

theorem writeCalls_nil (ch : Channel) (n : Nat) : ch.writeCalls n [] = [] := by
  rw [writeCalls, writesFor]
  rfl

theorem writeCalls_cons (ch : Channel) (n : Nat) (b : UInt8) (rest : List UInt8)
    : ch.writeCalls n (b :: rest)
        =
      (.write, n) ::
        ch.writeCalls (n + 1) (rest.drop (ch.accepted n (b :: rest).length - 1)) := by
  rw [writeCalls, writesFor, List.range'_succ]
  rfl

structure Writes (ch : Channel) (out : Outbox) (bytes : List UInt8)
    (fault? : Option (Operation × String)) (d : Delivery) : Prop where
  fault?_eq : d.fault? = fault?.map (·.2)
  visible_eq : visible d.events = (fault?.map fun fault => .failed fault.1 fault.2).toList
  out_eq : fault? = none
    → d.out = { out with
        writes := out.writes + ch.writesFor out.writes bytes
        unflushed := out.unflushed ++ bytes }

theorem Roomy.write (h : ch.Roomy) (out : Outbox) (bytes : List UInt8)
    : ch.Writes out bytes (ch.faultIn (ch.writeCalls out.writes bytes)) (ch.write out bytes) := by
  fun_induction Channel.write ch out bytes with
  | case1 out =>
    rw [writeCalls_nil]
    constructor
    . rfl
    . rfl
    . intro _
      rw [writesFor, List.append_nil, Nat.add_zero]
  | case2 out b rest out' reason heq =>
    change ch.fault .write out.writes = some reason at heq
    rw [writeCalls_cons, faultIn_cons, heq]
    constructor
    . rfl
    . rfl
    . simp
  | case3 out b rest out' hnone heq =>
    exact absurd heq (h.accepted_ne_zero _ _ (by simp))
  | case4 out b rest out' hnone n heq piece out'' ih =>
    change ch.fault .write out.writes = none at hnone
    change ch.accepted out.writes (b :: rest).length = n + 1 at heq
    rw [writeCalls_cons, faultIn_cons, hnone, heq]
    constructor
    . exact ih.fault?_eq
    . exact ih.visible_eq
    . intro hrest
      rw [Delivery.after]
      dsimp only
      rw [ih.out_eq hrest, writesFor, heq]
      simp [out'', out', piece]
      omega

structure Sends (ch : Channel) (out : Outbox) (bytes : List UInt8)
    (fault? : Option (Operation × String)) (d : Delivery) : Prop where
  fault?_eq : d.fault? = fault?.map (·.2)
  visible_eq : visible d.events
    = [fault?.elim (.flushed (out.unflushed ++ bytes)) fun fault => .failed fault.1 fault.2]
  out_eq : fault? = none → d.out = ch.behind out bytes

theorem Roomy.send (h : ch.Roomy) (out : Outbox) (bytes : List UInt8)
    : ch.Sends out bytes (ch.faultIn (ch.callsFor out bytes)) (ch.send out bytes) := by
  have hwrite := h.write out bytes
  rw [callsFor, faultIn_append]
  unfold Channel.send
  dsimp only
  cases hfault : ch.faultIn (ch.writeCalls out.writes bytes) with
  | some fault =>
    rw [hfault] at hwrite
    rw [hwrite.fault?_eq]
    constructor
    . exact hwrite.fault?_eq
    . exact hwrite.visible_eq
    . simp
  | none =>
    rw [hfault] at hwrite
    rw [hwrite.fault?_eq, Option.none_or, faultIn_cons]
    dsimp only [Option.map_none]
    rw [hwrite.out_eq rfl, flush]
    dsimp only
    cases hflush : ch.fault .flush out.flushes with
    | some reason =>
      constructor
      . rfl
      . rw [visible_append, hwrite.visible_eq]
        rfl
      . simp
    | none =>
      constructor
      . rfl
      . rw [visible_append, hwrite.visible_eq]
        rfl
      . intro _
        rfl

theorem Roomy.mended (h : ch.Roomy) : ch.mended.Roomy := h

theorem Roomy.write_mended (h : ch.Roomy) (out : Outbox) (bytes : List UInt8)
    (hnone : ch.faultIn (ch.writeCalls out.writes bytes) = none)
    : ch.mended.write out bytes = ch.write out bytes := by
  fun_induction Channel.write ch out bytes with
  | case1 out => rw [Channel.write]
  | case2 out b rest out' reason heq =>
    change ch.fault .write out.writes = some reason at heq
    rw [writeCalls_cons, faultIn_cons, heq] at hnone
    contradiction
  | case3 out b rest out' hfault heq =>
    exact absurd heq (h.accepted_ne_zero _ _ (by simp))
  | case4 out b rest out' hfault n heq piece out'' ih =>
    change ch.fault .write out.writes = none at hfault
    change ch.accepted out.writes (b :: rest).length = n + 1 at heq
    rw [writeCalls_cons, faultIn_cons, hfault, heq] at hnone
    have hmended : ch.mended.fault .write (out.writes + 1 - 1) = none := rfl
    have haccepted : ch.mended.accepted (out.writes + 1 - 1) (b :: rest).length = n + 1 := heq
    rw [Channel.write]
    dsimp only
    rw [hmended]
    dsimp only
    rw [haccepted]
    exact congrArg (Delivery.after (.wrote piece)) (ih hnone)

theorem Roomy.send_mended (h : ch.Roomy) (out : Outbox) (bytes : List UInt8)
    (hnone : ch.faultIn (ch.callsFor out bytes) = none)
    : ch.mended.send out bytes = ch.send out bytes := by
  have hwrite := h.write out bytes
  rw [callsFor, faultIn_append, Option.or_eq_none_iff, faultIn_cons, Option.or_eq_none_iff] at hnone
  obtain ⟨hwrites, hflush, _⟩ := hnone
  rw [hwrites] at hwrite
  rw [Option.map_eq_none_iff] at hflush
  unfold Channel.send
  dsimp only
  rw [h.write_mended out bytes hwrites, hwrite.fault?_eq, hwrite.out_eq rfl]
  unfold flush
  dsimp only
  rw [hflush]
  rfl

theorem length_schedule (ch : Channel) (out : Outbox) (wires : List (List UInt8))
    : (ch.schedule out wires).length = wires.length := by
  induction wires generalizing out with
  | nil => rfl
  | cons bytes rest ih => rw [schedule, List.length_cons, List.length_cons, ih]

theorem faultIn_schedule (hwrite : ∀ n, ch.fault .write n = none)
    (hflush : ∀ n, ch.fault .flush n = none) (wires : List (List UInt8)) (out : Outbox)
    : ∀ calls ∈ ch.schedule out wires, ch.faultIn calls = none := by
  induction wires generalizing out with
  | nil => simp [schedule]
  | cons bytes rest ih =>
    intro calls hcalls
    cases List.mem_cons.1 hcalls with
    | inl heq =>
      rw [heq]
      apply List.findSome?_eq_none_iff.2
      rintro ⟨operation, n⟩ hcall
      rw [callsFor, writeCalls, List.mem_append, List.mem_map, List.mem_singleton] at hcall
      dsimp only
      rw [Option.map_eq_none_iff]
      rcases hcall with ⟨_, _, hcall⟩ | hcall
      . rw [← (Prod.mk.inj hcall).1]
        apply hwrite
      . rw [(Prod.mk.inj hcall).1]
        apply hflush
    | inr hmem => exact ih _ calls hmem

structure Faultless (ch : Channel) : Prop where
  fault_eq_none : ∀ operation n, ch.fault operation n = none
  room_ne_zero : ∀ n, ch.room n ≠ some 0

theorem faultless_named (name : String) : ({ name } : Channel).Faultless := by
  constructor
  . intro operation n
    rfl
  . intro n
    simp

theorem Faultless.faultIn_eq_none (h : ch.Faultless) (calls : List (Operation × Nat))
    : ch.faultIn calls = none := by
  apply List.findSome?_eq_none_iff.2
  rintro ⟨operation, n⟩ _
  dsimp only
  rw [h.fault_eq_none, Option.map_none]

theorem Faultless.write (h : ch.Faultless) (out : Outbox) (bytes : List UInt8)
    : (ch.write out bytes).fault? = none
        ∧
      (ch.write out bytes).out.unflushed = out.unflushed ++ bytes
        ∧
      visible (ch.write out bytes).events = [] := by
  have hwrite := Roomy.write h.room_ne_zero out bytes
  rw [h.faultIn_eq_none] at hwrite
  refine ⟨hwrite.fault?_eq, ?_, hwrite.visible_eq⟩
  rw [hwrite.out_eq rfl]

end Channel

end FtpControl
