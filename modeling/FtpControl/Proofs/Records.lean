import FtpControl.Proofs.Decoding
import FtpControl.Proofs.Journal
import FtpControl.Proofs.LoginMachine

/-!
This module contains the records of a session, sorted by what they are about. Every request, every
reply that got out and every answer of the backend has one record, and the reason for which the
session ended has the last one.
-/

namespace FtpControl

namespace Note

inductive Kind where
  | request
  | reply
  | verdict
  | failure
  | ending
  | other
  deriving DecidableEq

def opens (n : Note) (level : Level) (opening : String) : Bool :=
  n.level = level && opening.toList.isPrefixOf n.text.toList

def kind (n : Note) : Kind :=
  if n.opens .info "<- " then .request
  else if n.opens .debug "-> " then .reply
  else if n.opens .info "User " || n.opens .info "Login rejected for " then .verdict
  else if n.opens .warn "Authentication for " then .failure
  else if n.opens .info "Connection terminated: " then .ending
  else if n.level = .warn then .request
  else .other

end Note

namespace Turn

theorem verb_of_refused? {frame : Frame} {verb : String} (h : refused? frame = some verb)
    : verb = "USER" ∨ verb = "PASS" := by
  cases frame with
  | line bytes => contradiction
  | overLong kept =>
    rw [refused?, Option.map_eq_some_iff] at h
    obtain ⟨token, htoken, rfl⟩ := h
    exact (Registry.contains_withLogin token).1 (Option.filter_eq_some_iff.1 htoken).2

theorem verb_of_incomplete {line verb : String} {required given : Nat}
    (h : request line = .incomplete verb required given) : verb = "USER" ∨ verb = "PASS" := by
  cases hwords : Text.words line with
  | nil =>
    rw [request, Request.parse_of_blank hwords] at h
    contradiction
  | cons token args =>
    rw [request, Request.parse_of_words hwords] at h
    split at h
    . next hless =>
      obtain ⟨rfl, _, _⟩ := Request.incomplete.inj h
      rw [Registry.minArgs_withLogin] at hless
      split at hless
      . next hverb => exact hverb
      . omega
    . contradiction

variable {k : Note.Kind}

def answers (checks : List (Call × Option Answer)) : List (Call × Answer) :=
  checks.filterMap fun (call, answer?) => answer?.map (call, ·)

end Turn

namespace Session

open Exchange Turn

def endingNote (reason : Reason) : Note :=
  ⟨.info, "Connection terminated: " ++ reason.told⟩

def journal (limit : Nat) (first? : Option Reply) (turns : List Turn)
    (fault? : Option (Operation × String)) (last : List Event) : List Event :=
  .noted ⟨.info, "Connection established"⟩ :: first?.elim [] delivered
    ++ turns.flatMap (·.events limit) ++ (fault?.map fun fault => .failed fault.1 fault.2).toList
    ++ last

theorem filterMap_note?_closing (control : Channel) (data : Option Channel) (reason : Reason)
    : (closing control data reason).filterMap Event.note? = lastNotes control data reason := by
  have hshut : ∀ (ch : Channel) label,
      (ch.shutDown label).filterMap Event.note? = (ch.complaint? label).toList := by
    intro ch label
    rw [ch.shutDown_eq, List.filterMap_cons_none (by rfl), filterMap_note?_noted]
  rw [closing, lastNotes, List.filterMap_append, List.filterMap_append, hshut]
  cases data with
  | none => rfl
  | some ch =>
    dsimp only [Option.elim, Option.bind_some]
    rw [hshut]
    rfl

section

variable {limit : Nat} {first? : Option Reply} {turns : List Turn}
  {fault? : Option (Operation × String)} {control : Channel} {data : Option Channel}
  {ending? : Option Reason} {events : List Event}
  (h : visible events = journal limit first? turns fault? (ending?.elim [] (closing control data)))

include h

theorem notes_of_journal
    : events.filterMap Event.note?
        =
      ⟨.info, "Connection established"⟩ :: first?.toList.map replyNote
        ++ turns.flatMap (·.notes limit) ++ ending?.elim [] (lastNotes control data) := by
  have hfirst : (first?.elim [] delivered).filterMap Event.note?
      = first?.toList.map replyNote := by
    cases first? <;> rfl
  have hfault : ((fault?.map fun fault => .failed fault.1 fault.2).toList : List Event).filterMap
      Event.note? = [] := by
    cases fault? <;> rfl
  have hlast : (ending?.elim [] (closing control data)).filterMap Event.note?
      = ending?.elim [] (lastNotes control data) := by
    cases ending? with
    | none => rfl
    | some reason => exact filterMap_note?_closing control data reason
  have hturns : (turns.flatMap (·.events limit)).filterMap Event.note?
      = turns.flatMap (·.notes limit) := by
    rw [List.filterMap_flatMap]
    exact List.flatMap_congr fun turn _ => filterMap_note?_events limit turn
  rw [← filterMap_visible Event.note? (fun _ => rfl), h, journal, List.filterMap_append,
    List.filterMap_append, List.filterMap_append, List.filterMap_cons_some (by rfl), hfirst, hfault,
    hlast, hturns, List.append_nil]

end

theorem answer?_of_mem {oracle : Action.Oracle} {past : List Call}
    {checks : List (Call × Option Answer)} (h : Answered oracle past checks)
    : ∀ check ∈ checks, ∃ earlier, check.2 = oracle earlier check.1 := by
  induction checks generalizing past with
  | nil => nofun
  | cons check checks ih => exact List.forall_mem_cons.2 ⟨⟨past, h.1⟩, ih h.2⟩

theorem farewell_of_termination? (s other : Session) (log : ConnectionLog)
    : s.farewell other.phase
        =
      ((other.termination? log).map (·.reason)).elim [] (closing s.control s.data) := by
  unfold termination?
  cases other.phase with
  | ended reason => exact finish_eq_closing s reason
  | _ => rfl

theorem records_eq (log : ConnectionLog) (events : List Event)
    : log.records events = (events.filterMap Event.note?).map log.record := by
  rw [List.map_filterMap]
  rfl

section

variable {oracle : Action.Oracle} {s : Session} {ending : Reason} {response : Response}
  {frames : List Frame} {sent : Bool} {told : List (Exchange Frame × Bool)}
  {fault? : Option (Operation × String)} {step : Step}
  (h : s.Course oracle ending response frames sent told fault? step)

include h

theorem Course.visible_eq_journal {limit : Nat} {past : List Call} {turns : List Turn}
    (hturns : Lists limit oracle past told turns) (log : ConnectionLog)
    : visible (step.after [.noted .connectionEstablished]).2
        =
      journal limit (if sent then some response.reply else none) turns fault?
        (((step.1.termination? log).map (·.reason)).elim [] (closing s.control s.data)) := by
  rw [Step.after, visible_append, h.visible_eq, hturns.events_eq,
    farewell_of_termination? s step.1 log, journal]
  cases sent <;> simp [Note.connectionEstablished]

end

end Session

end FtpControl
