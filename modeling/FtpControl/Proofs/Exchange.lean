import Mathlib.Data.List.Basic
import FtpControl.Session
import FtpControl.Proofs.Delivery

/-!
This module contains exchanges: requests that are answered one after the other, without a channel
and without anybody who reads the replies.
-/

namespace FtpControl

def Reply.wire (reply : Reply) : List UInt8 :=
  Text.Utf8.encodeString reply.encode

namespace Action

theorem noted_or_called_of_mem_run {α : Type} (oracle : Oracle) (past : List Call)
    (action : Action α)
    : ∀ event ∈ (action.run oracle past).events,
        (∃ note, event = .noted note) ∨ (∃ call, event = .called call) := by
  induction action generalizing past with
  | done result => simp [run]
  | note n next ih => simpa [run, Outcome.after] using ih past
  | check call next ih =>
    rw [run]
    split
    . next answer _ => simpa [Outcome.after] using ih answer (call :: past)
    . simp
  | crash => simp [run]

theorem calls_run {α : Type} (oracle : Oracle) (past : List Call) (action : Action α)
    : (action.run oracle past).calls
        =
      ((action.run oracle past).events.filterMap Event.call?).reverse ++ past := by
  induction action generalizing past with
  | done result => rfl
  | note n next ih => exact ih past
  | check call next ih =>
    rw [run]
    split
    . next answer _ =>
      rw [Outcome.after, List.filterMap_cons_some (by rfl), List.reverse_cons, List.append_assoc]
      exact ih answer (call :: past)
    . rfl
  | crash => rfl

theorem filterMap_run {α β : Type} (f : Event → Option β) (hnoted : ∀ note, f (.noted note) = none)
    (hcalled : ∀ call, f (.called call) = none) (oracle : Oracle) (past : List Call)
    (action : Action α) : (action.run oracle past).events.filterMap f = [] := by
  apply List.filterMap_eq_nil_iff.2
  intro event hevent
  rcases noted_or_called_of_mem_run oracle past action event hevent with ⟨_, heq⟩ | ⟨_, heq⟩
  . rw [heq, hnoted]
  . rw [heq, hcalled]

theorem visible_run {α : Type} (oracle : Oracle) (past : List Call) (action : Action α)
    : visible (action.run oracle past).events = (action.run oracle past).events := by
  apply visible_eq_self
  intro event hevent
  rcases noted_or_called_of_mem_run oracle past action event hevent with ⟨_, heq⟩ | ⟨_, heq⟩
  . rw [heq]
    rfl
  . rw [heq]
    rfl

end Action

structure Exchange (ρ : Type) where
  request : ρ
  before : SessionState
  outcome : Action.Outcome (SessionState × Response)

namespace Exchange

variable {ρ : Type}

def response? (x : Exchange ρ) : Option Response :=
  match x.outcome.stop with
  | .done (_, response) => some response
  | _ => none

def after (x : Exchange ρ) : SessionState :=
  match x.outcome.stop with
  | .done (st, _) => st
  | _ => x.before

def closes (x : Exchange ρ) : Bool :=
  x.response?.any (·.closes)

def calls (x : Exchange ρ) : List Call :=
  x.outcome.events.filterMap Event.call?

def phase (x : Exchange ρ) : Phase :=
  match x.outcome.stop with
  | .done (_, response) => .ended (if response.closes then .closeRequested else .peerClosed)
  | .waiting resume => .checking resume
  | .crashed => .crashed

section

variable {x : Exchange ρ} {st : SessionState} {response : Response}

theorem response?_of_done (h : x.outcome.stop = .done (st, response))
    : x.response? = some response := by
  unfold response?
  rw [h]

theorem after_of_done (h : x.outcome.stop = .done (st, response)) : x.after = st := by
  unfold after
  rw [h]

theorem closes_of_done (h : x.outcome.stop = .done (st, response))
    : x.closes = response.closes := by
  unfold closes
  rw [response?_of_done h]
  rfl

theorem phase_of_done (h : x.outcome.stop = .done (st, response))
    : x.phase = .ended (if response.closes then .closeRequested else .peerClosed) := by
  unfold phase
  rw [h]

theorem done_of_response? (h : x.response? = some response)
    : x.outcome.stop = .done (x.after, response) := by
  unfold response? at h
  split at h
  . next st found hstop =>
    rw [Option.some.injEq] at h
    rw [after_of_done hstop, hstop, h]
  . contradiction

theorem not_done_of_response? (h : x.response? = none) (st : SessionState) (response : Response)
    : x.outcome.stop ≠ .done (st, response) := by
  intro hstop
  rw [response?_of_done hstop] at h
  contradiction

theorem after_of_response? (h : x.response? = none) : x.after = x.before := by
  unfold after
  split
  . next hstop => exact absurd hstop (not_done_of_response? h _ _)
  . rfl

theorem phase_of_response? (h : x.response? = none)
    : (∃ resume, x.outcome.stop = .waiting resume ∧ x.phase = .checking resume)
        ∨
      (x.outcome.stop = .crashed ∧ x.phase = .crashed) := by
  unfold phase
  cases hstop : x.outcome.stop with
  | done result => exact absurd hstop (not_done_of_response? h _ _)
  | waiting resume => exact .inl ⟨resume, rfl, rfl⟩
  | crashed => exact .inr ⟨rfl, rfl⟩

end

end Exchange

section

variable {ρ : Type} (answer : ρ → SessionState → Action (SessionState × Response))
  (oracle : Action.Oracle)

def exchange (st : SessionState) (past : List Call) (request : ρ) : Exchange ρ :=
  ⟨request, st, (answer request st).run oracle past⟩

/--
Answer requests one after the other. A request without a result, because its handler broke down or
waits for ever, is the last one.
-/
def exchanges (st : SessionState) (past : List Call) : List ρ → List (Exchange ρ)
  | [] => []
  | request :: requests =>
    let x := exchange answer oracle st past request
    x :: if x.response?.isSome then exchanges x.after x.outcome.calls requests else []

theorem exchanges_cons_of_some (st : SessionState) (past : List Call) (request : ρ)
    (requests : List ρ) {response : Response}
    (h : (exchange answer oracle st past request).response? = some response)
    : exchanges answer oracle st past (request :: requests)
        =
      exchange answer oracle st past request ::
        exchanges answer oracle (exchange answer oracle st past request).after
          (exchange answer oracle st past request).outcome.calls requests := by
  rw [exchanges, h]
  rfl

theorem exchanges_cons_of_none (st : SessionState) (past : List Call) (request : ρ)
    (requests : List ρ) (h : (exchange answer oracle st past request).response? = none)
    : exchanges answer oracle st past (request :: requests)
        =
      [exchange answer oracle st past request] := by
  rw [exchanges, h]
  rfl

theorem map_request_exchanges (st : SessionState) (past : List Call) (requests : List ρ)
    : (exchanges answer oracle st past requests).map (·.request) <+: requests := by
  induction requests generalizing st past with
  | nil => exact List.nil_prefix
  | cons request requests ih =>
    cases hresponse : (exchange answer oracle st past request).response? with
    | none =>
      rw [exchanges_cons_of_none _ _ _ _ _ _ hresponse]
      exact List.prefix_append [request] requests
    | some response =>
      rw [exchanges_cons_of_some _ _ _ _ _ _ hresponse, List.map_cons]
      exact (List.prefix_cons_inj request).2 (ih _ _)

variable {answer oracle} in
theorem forall_mem_exchanges (inv : SessionState → List Call → Prop) (p : Exchange ρ → Prop)
    (hstep : ∀ st past request, inv st past →
      p (exchange answer oracle st past request)
        ∧
      inv (exchange answer oracle st past request).after
        (exchange answer oracle st past request).outcome.calls)
    {st : SessionState} {past : List Call} (h : inv st past) (requests : List ρ)
    : ∀ x ∈ exchanges answer oracle st past requests, p x := by
  induction requests generalizing st past with
  | nil => simp [exchanges]
  | cons request requests ih =>
    obtain ⟨hp, hnext⟩ := hstep st past request h
    intro x hx
    cases hresponse : (exchange answer oracle st past request).response? with
    | none =>
      rw [exchanges_cons_of_none _ _ _ _ _ _ hresponse, List.mem_singleton] at hx
      rw [hx]
      exact hp
    | some response =>
      rw [exchanges_cons_of_some _ _ _ _ _ _ hresponse, List.mem_cons] at hx
      cases hx with
      | inl heq =>
        rw [heq]
        exact hp
      | inr hmem => exact ih hnext x hmem

theorem exists_exchange_of_mem (st : SessionState) (past : List Call) (requests : List ρ)
    : ∀ x ∈ exchanges answer oracle st past requests,
        ∃ before earlier, x = exchange answer oracle before earlier x.request := by
  refine forall_mem_exchanges (fun _ _ => True) _ ?_ trivial requests
  intro st past request _
  exact ⟨⟨st, past, rfl⟩, trivial⟩

end

namespace Exchange

variable {ρ : Type}

def upToClose (xs : List (Exchange ρ)) : List (Exchange ρ) :=
  xs.take (xs.findIdx closes + 1)

def last {α : Type} (f : Exchange ρ → α) (d : α) (xs : List (Exchange ρ)) : α :=
  (xs.getLast?.map f).getD d

@[simp]
theorem last_nil {α : Type} (f : Exchange ρ → α) (d : α) : last f d [] = d := rfl

@[simp]
theorem last_cons {α : Type} (f : Exchange ρ → α) (d : α) (x : Exchange ρ)
    (xs : List (Exchange ρ)) : last f d (x :: xs) = last f (f x) xs := by
  unfold last
  rw [List.getLast?_cons]
  cases xs.getLast? <;> rfl

@[simp]
theorem upToClose_singleton (x : Exchange ρ) : upToClose [x] = [x] := by
  simp [upToClose]

theorem upToClose_cons_of_closes (x : Exchange ρ) (xs : List (Exchange ρ)) (h : x.closes = true)
    : upToClose (x :: xs) = [x] := by
  simp [upToClose, List.findIdx_cons, h]

theorem upToClose_cons_of_not_closes (x : Exchange ρ) (xs : List (Exchange ρ))
    (h : x.closes = false) : upToClose (x :: xs) = x :: upToClose xs := by
  simp [upToClose, List.findIdx_cons, h]

theorem upToClose_eq_self (xs : List (Exchange ρ)) (h : ∀ x ∈ xs, x.closes = false)
    : upToClose xs = xs := by
  apply List.take_of_length_le
  rw [List.findIdx_eq_length.2 h]
  omega

def delivered (reply : Reply) : List Event :=
  [.flushed reply.wire, .noted ⟨.debug, "-> " ++ Text.trimEnd reply.encode⟩]

def trace (x : Exchange Frame) : List Event :=
  .received x.request :: x.outcome.events ++ (x.response?.map (·.reply)).elim [] delivered

theorem isPrefix_upToClose (xs : List (Exchange ρ)) : upToClose xs <+: xs := by
  apply List.take_prefix

section

variable (answer : ρ → SessionState → Action (SessionState × Response)) (oracle : Action.Oracle)
  (st : SessionState) (past : List Call) (requests : List ρ)

theorem last_calls_exchanges
    : last (·.outcome.calls) past (exchanges answer oracle st past requests)
        =
      ((exchanges answer oracle st past requests).flatMap calls).reverse ++ past := by
  induction requests generalizing st past with
  | nil => rfl
  | cons request requests ih =>
    have hcalls : (exchange answer oracle st past request).outcome.calls
        = (exchange answer oracle st past request).calls.reverse ++ past := Action.calls_run _ _ _
    cases hresponse : (exchange answer oracle st past request).response? with
    | none =>
      rw [exchanges_cons_of_none _ _ _ _ _ _ hresponse, List.flatMap_singleton]
      exact hcalls
    | some response =>
      rw [exchanges_cons_of_some _ _ _ _ _ _ hresponse, last_cons, ih, hcalls]
      rw [List.flatMap_cons, List.reverse_append, List.append_assoc]

theorem map_request_of_answered
    (hanswered : ∀ x ∈ exchanges answer oracle st past requests, x.response? ≠ none)
    : (exchanges answer oracle st past requests).map (·.request) = requests := by
  induction requests generalizing st past with
  | nil => rfl
  | cons request requests ih =>
    cases hresponse : (exchange answer oracle st past request).response? with
    | none => exact absurd hresponse (hanswered _ (.head _))
    | some response =>
      rw [exchanges_cons_of_some _ _ _ _ _ _ hresponse] at hanswered
      rw [exchanges_cons_of_some _ _ _ _ _ _ hresponse, List.map_cons,
        ih _ _ fun x hx => hanswered x (.tail _ hx)]
      rfl

theorem map_request_upToClose
    : (upToClose (exchanges answer oracle st past requests)).map (·.request)
        =
      requests.take (upToClose (exchanges answer oracle st past requests)).length := by
  have hbegins := ((isPrefix_upToClose (exchanges answer oracle st past requests)).map
    (·.request)).trans (map_request_exchanges answer oracle st past requests)
  rw [List.prefix_iff_eq_take.1 hbegins, List.length_map]

theorem upToClose_exchanges_complete
    : (upToClose (exchanges answer oracle st past requests)).length = requests.length
        ∨
      ∃ x, (upToClose (exchanges answer oracle st past requests)).getLast? = some x
        ∧ (x.closes = true ∨ x.response? = none) := by
  induction requests generalizing st past with
  | nil => exact .inl rfl
  | cons request requests ih =>
    cases hresponse : (exchange answer oracle st past request).response? with
    | none =>
      rw [exchanges_cons_of_none _ _ _ _ _ _ hresponse, upToClose_singleton]
      exact .inr ⟨_, rfl, .inr hresponse⟩
    | some response =>
      rw [exchanges_cons_of_some _ _ _ _ _ _ hresponse]
      cases hcloses : (exchange answer oracle st past request).closes with
      | true =>
        rw [upToClose_cons_of_closes _ _ hcloses]
        exact .inr ⟨_, rfl, .inl hcloses⟩
      | false =>
        rw [upToClose_cons_of_not_closes _ _ hcloses, List.getLast?_cons]
        cases ih (exchange answer oracle st past request).after
          (exchange answer oracle st past request).outcome.calls with
        | inl hlength =>
          rw [List.length_cons, List.length_cons, hlength]
          exact .inl rfl
        | inr hlast =>
          obtain ⟨x, hx, hstops⟩ := hlast
          rw [hx]
          exact .inr ⟨x, rfl, hstops⟩

end

section

variable {answer : Frame → SessionState → Action (SessionState × Response)}
  {oracle : Action.Oracle} {xs : List (Exchange Frame)}

theorem filterMap_delivered {α : Type} (f : Event → Option α)
    (hnoted : ∀ note, f (.noted note) = none) (reply : Reply)
    : (delivered reply).filterMap f = (f (.flushed reply.wire)).toList := by
  rw [delivered, List.filterMap_eq_flatMap_toList, List.flatMap_cons, List.flatMap_singleton]
  rw [hnoted, Option.toList_none, List.append_nil]

theorem filterMap_trace {α : Type} (f : Event → Option α) (hnoted : ∀ note, f (.noted note) = none)
    (hcalled : ∀ call, f (.called call) = none) (st : SessionState) (past : List Call)
    (frame : Frame)
    : (exchange answer oracle st past frame).trace.filterMap f
        =
      (f (.received frame)).toList ++
        ((exchange answer oracle st past frame).response?.bind fun response =>
          f (.flushed response.reply.wire)).toList := by
  have hevents : (exchange answer oracle st past frame).outcome.events.filterMap f = [] :=
    Action.filterMap_run f hnoted hcalled oracle past _
  rw [trace, ← List.singleton_append, List.append_assoc, List.filterMap_append]
  rw [List.filterMap_append, hevents, List.nil_append, List.filterMap_eq_flatMap_toList f [_]]
  rw [List.flatMap_singleton]
  congr 1
  cases (exchange answer oracle st past frame).response? with
  | none => rfl
  | some response => exact filterMap_delivered f hnoted response.reply

theorem filterMap_flatMap_trace {α : Type} (f : Event → Option α)
    (hnoted : ∀ note, f (.noted note) = none) (hcalled : ∀ call, f (.called call) = none)
    (h : ∀ x ∈ xs, ∃ st past, x = exchange answer oracle st past x.request)
    : (xs.flatMap trace).filterMap f
        =
      xs.flatMap fun x => (f (.received x.request)).toList ++
        (x.response?.bind fun response => f (.flushed response.reply.wire)).toList := by
  rw [List.filterMap_flatMap]
  apply List.flatMap_congr
  intro x hmem
  obtain ⟨st, past, hx⟩ := h x hmem
  rw [hx]
  exact filterMap_trace f hnoted hcalled st past x.request

theorem filterMap_frame?_trace
    (h : ∀ x ∈ xs, ∃ st past, x = exchange answer oracle st past x.request)
    : (xs.flatMap trace).filterMap Event.frame? = xs.map (·.request) := by
  rw [filterMap_flatMap_trace Event.frame? (fun _ => rfl) (fun _ => rfl) h, List.map_eq_flatMap]
  apply List.flatMap_congr
  intro x _
  cases x.response? <;> rfl

theorem filterMap_call?_trace (xs : List (Exchange Frame))
    : (xs.flatMap trace).filterMap Event.call? = xs.flatMap calls := by
  rw [List.filterMap_flatMap]
  apply List.flatMap_congr
  intro x _
  rw [trace, List.cons_append, List.filterMap_cons_none (by rfl), List.filterMap_append]
  cases x.response? <;> exact List.append_nil _

theorem filterMap_flushed?_trace
    (h : ∀ x ∈ xs, ∃ st past, x = exchange answer oracle st past x.request)
    : (xs.flatMap trace).filterMap Event.flushed?
        =
      (xs.filterMap (·.response?)).map (·.reply.wire) := by
  rw [filterMap_flatMap_trace Event.flushed? (fun _ => rfl) (fun _ => rfl) h]
  rw [List.map_filterMap, List.filterMap_eq_flatMap_toList]
  apply List.flatMap_congr
  intro x _
  cases x.response? <;> rfl

end

end Exchange

end FtpControl
