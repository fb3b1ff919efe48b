import FtpControl.Channel

/-!
This module contains what is seen of sending: the bytes of a reply may be accepted in several
writes, and the peer sees them when they are flushed.
-/

namespace FtpControl

def Event.isWrite : Event → Bool
  | wrote _ => true
  | _ => false

def Event.wrote? : Event → Option (List UInt8)
  | wrote bytes => some bytes
  | _ => none

def written (events : List Event) : List UInt8 :=
  (events.filterMap (·.wrote?)).flatten

/-- Events without the writes, whose bytes the peer does not see before they are flushed. -/
def visible (events : List Event) : List Event :=
  events.filter fun event => !event.isWrite

@[simp]
theorem visible_nil : visible [] = [] := rfl

@[simp]
theorem visible_append (first second : List Event)
    : visible (first ++ second) = visible first ++ visible second := by
  apply List.filter_append

@[simp]
theorem visible_visible (events : List Event) : visible (visible events) = visible events := by
  unfold visible
  rw [List.filter_filter]
  simp

@[simp]
theorem visible_received_cons (frame : Frame) (events : List Event)
    : visible (.received frame :: events) = .received frame :: visible events := rfl

@[simp]
theorem visible_noted_cons (note : Note) (events : List Event)
    : visible (.noted note :: events) = .noted note :: visible events := rfl

theorem filterMap_visible {α : Type} (f : Event → Option α) (h : ∀ bytes, f (.wrote bytes) = none)
    (events : List Event) : (visible events).filterMap f = events.filterMap f := by
  induction events with
  | nil => rfl
  | cons event events ih =>
    cases event with
    | wrote bytes =>
      rw [List.filterMap_cons_none (h bytes), ← ih]
      rfl
    | _ =>
      rw [List.filterMap_cons, ← ih, ← List.filterMap_cons]
      rfl

theorem visible_eq_self {events : List Event} (h : ∀ event ∈ events, event.isWrite = false)
    : visible events = events := by
  apply List.filter_eq_self.2
  intro event hmem
  rw [h event hmem]
  rfl

@[simp]
theorem written_append (first second : List Event)
    : written (first ++ second) = written first ++ written second := by
  unfold written
  rw [List.filterMap_append, List.flatten_append]

theorem written_eq_nil {events : List Event} (h : ∀ event ∈ events, event.isWrite = false)
    : written events = [] := by
  unfold written
  rw [List.filterMap_eq_nil_iff.2, List.flatten_nil]
  intro event hmem
  have hwrite := h event hmem
  cases event with
  | wrote bytes => contradiction
  | _ => rfl

namespace Channel

theorem wrote_or_failed_of_mem_write (ch : Channel) (out : Outbox) (bytes : List UInt8)
    : ∀ event ∈ (ch.write out bytes).events,
        (∃ piece, event = .wrote piece) ∨ (∃ reason, event = .failed .write reason) := by
  fun_induction Channel.write ch out bytes with
  | case1 => simp
  | case2 out b rest out' reason heq => simp
  | case3 out b rest out' hfault heq => simp
  | case4 out b rest out' hfault n heq piece out'' ih =>
    intro event hmem
    rcases List.mem_cons.1 hmem with rfl | hmem
    . exact .inl ⟨piece, rfl⟩
    . exact ih event hmem

theorem written_write (ch : Channel) (out : Outbox) (bytes : List UInt8)
    : written (ch.write out bytes).events <+: bytes
        ∧
      ((ch.write out bytes).fault? = none → written (ch.write out bytes).events = bytes) := by
  fun_induction Channel.write ch out bytes with
  | case1 => exact ⟨List.prefix_refl [], fun _ => rfl⟩
  | case2 out b rest out' reason heq => simp [written, Event.wrote?]
  | case3 out b rest out' hfault heq => simp [written, Event.wrote?]
  | case4 out b rest out' hfault n heq piece out'' ih =>
    obtain ⟨hbegins, hall⟩ := ih
    have hsplit : b :: rest = piece ++ rest.drop n := by simp [piece]
    constructor
    . rw [hsplit]
      exact (List.prefix_append_right_inj piece).2 hbegins
    . intro hnone
      rw [hsplit]
      exact congrArg (piece ++ ·) (hall hnone)

theorem filterMap_send {α : Type} (f : Event → Option α) (hwrote : ∀ bytes, f (.wrote bytes) = none)
    (hflushed : ∀ bytes, f (.flushed bytes) = none)
    (hfailed : ∀ operation reason, f (.failed operation reason) = none) (ch : Channel)
    (out : Outbox) (bytes : List UInt8) : (ch.send out bytes).events.filterMap f = [] := by
  have hwrite : (ch.write out bytes).events.filterMap f = [] := by
    apply List.filterMap_eq_nil_iff.2
    intro event hevent
    rcases ch.wrote_or_failed_of_mem_write out bytes event hevent with ⟨piece, rfl⟩ | ⟨reason, rfl⟩
    . exact hwrote piece
    . exact hfailed .write reason
  unfold send flush
  dsimp only
  split
  . exact hwrite
  . rw [List.filterMap_append, hwrite]
    split <;> simp [hflushed, hfailed]

end Channel

end FtpControl
