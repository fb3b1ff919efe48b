import FtpControl.Proofs.Course
import FtpControl.Proofs.Dispatch
import FtpControl.Proofs.LoginCommands
import FtpControl.Proofs.Release

/-!
This module contains the log of a session with the login commands as a journal of what it did: one
record for each request, one for each reply that got out, and one for each answer of the backend, in
the order in which these things happened.
-/

namespace FtpControl

def Request.verb? : Request → Option String
  | blank => none
  | incomplete verb _ _ => some verb
  | complete command => some command.verb

/-- A request that was worked on, as the log tells it. -/
structure Turn where
  frame : Frame
  check? : Option (Call × Option Answer)
  reply? : Option Reply
  sent : Bool

namespace Turn

def refused? : Frame → Option String
  | .line _ => none
  | .overLong kept =>
    ((Text.words (Text.Utf8.decodeString kept)).head?.filter Registry.withLogin.contains).map
      String.toUpper

def request (line : String) : Request :=
  Request.parse Registry.withLogin.minArgs line

def shown (line : String) : String :=
  if (request line).verb? = some "PASS" then
    (Text.words line).headD "" ++ " ****"
  else
    Text.stripLineEnding line

def requestNote (limit : Nat) (frame : Frame) : Note :=
  match refused? frame with
  | some verb => ⟨.warn, s!"{verb} longer than {limit} bytes rejected"⟩
  | none => ⟨.info, s!"<- {shown (SessionSettings.text frame)}"⟩

def replyNote (reply : Reply) : Note :=
  ⟨.debug, "-> " ++ Text.trimEnd reply.encode⟩

def shortfall? (line : String) : Option Note :=
  match request line with
  | .incomplete verb required given =>
    some ⟨.debug, s!"{verb} needs {required} argument(s), got {given}"⟩
  | _ => none

def requestNotes (limit : Nat) (frame : Frame) : List Note :=
  requestNote limit frame ::
    if (refused? frame).isSome then [] else (shortfall? (SessionSettings.text frame)).toList

def failure? (user : String) : Answer → Option Note
  | .error e => some ⟨.warn, s!"Authentication for {user} failed: {e.message}"⟩
  | .ok _ => none

def verdict (user : String) : Answer → Note
  | .ok true => ⟨.info, s!"User {user} logged in"⟩
  | _ => ⟨.info, s!"Login rejected for {user}"⟩

def verdictNotes (user : String) (answer : Answer) : List Note :=
  (failure? user answer).toList ++ [verdict user answer]

def checkNotes (check : Call × Option Answer) : List Note :=
  check.2.elim [] (verdictNotes check.1.user)

def checkEvents (check : Call × Option Answer) : List Event :=
  .called check.1 :: (checkNotes check).map .noted

def work (limit : Nat) (frame : Frame) (check? : Option (Call × Option Answer)) : List Event :=
  .received frame :: (requestNotes limit frame).map .noted ++ check?.elim [] checkEvents

def sentReply? (turn : Turn) : Option Reply :=
  if turn.sent then turn.reply? else none

def events (limit : Nat) (turn : Turn) : List Event :=
  work limit turn.frame turn.check? ++ turn.sentReply?.elim [] Exchange.delivered

def notes (limit : Nat) (turn : Turn) : List Note :=
  requestNotes limit turn.frame ++ turn.check?.elim [] checkNotes
    ++ turn.sentReply?.toList.map replyNote

-- What a reply says about the password check behind it.
structure Sound (check? : Option (Call × Option Answer)) (reply? : Option Reply) : Prop where
  loggedIn_iff : reply?.map (·.code) = some .loggedIn
    ↔ ∃ call, check? = some (call, some (.ok true))
  notLoggedIn_iff : reply?.map (·.code) = some .notLoggedIn
    ↔ ∃ call answer, check? = some (call, some answer) ∧ answer ≠ .ok true
  eq_none_iff : reply? = none ↔ ∃ call, check? = some (call, none)

def Answered (oracle : Action.Oracle) (past : List Call) : List (Call × Option Answer) → Prop
  | [] => True
  | (call, answer?) :: checks =>
    answer? = oracle past call ∧ Answered oracle (call :: past) checks

theorem sound_of_no_check {reply : Reply} (hloggedIn : reply.code ≠ .loggedIn)
    (hnotLoggedIn : reply.code ≠ .notLoggedIn) : Sound none (some reply) := by
  constructor
  . simp [hloggedIn]
  . simp [hnotLoggedIn]
  . simp

theorem note_command (line : String)
    : Note.command (Text.stripLineEnding line) = ⟨.info, s!"<- {shown line}"⟩ := by
  unfold Note.command Note.maskPassword shown request
  rw [Text.words_stripLineEnding]
  cases hwords : Text.words line with
  | nil =>
    rw [Request.parse_of_blank hwords]
    rfl
  | cons token args =>
    have hverb : (Request.parse Registry.withLogin.minArgs line).verb? = some token.toUpper := by
      rw [Request.parse_of_words hwords]
      split <;> rfl
    simp only [hverb, Option.some.injEq]
    rfl

def replyOf? (o : Action.Outcome (SessionState × Response)) : Option Reply :=
  match o.stop with
  | .done (_, response) => some response.reply
  | _ => none

theorem map_response? (x : Exchange Frame) : x.response?.map (·.reply) = replyOf? x.outcome := by
  unfold Exchange.response? replyOf?
  cases x.outcome.stop <;> rfl

def Named (st : SessionState) : Prop :=
  ∀ name, st.login = .pending name → ∃ line, name ∈ Text.words line

theorem named_initial : Named .initial := by
  rintro _ ⟨⟩

structure Tells (oracle : Action.Oracle) (past : List Call) (notes : List Note)
    (check? : Option (Call × Option Answer)) (o : Action.Outcome (SessionState × Response)) : Prop
    where
  events_eq : o.events = notes.map .noted ++ check?.elim [] checkEvents
  calls_eq : o.calls = (check?.map (·.1)).toList ++ past
  answer_eq : ∀ check, check? = some check → check.2 = oracle past check.1
  sound : Sound check? (replyOf? o)
  user_mem : ∀ check, check? = some check → ∃ line, check.1.user ∈ Text.words line
  named : ∀ after response, o.stop = .done (after, response) → Named after

variable {oracle : Action.Oracle} {past : List Call} {st : SessionState}

theorem Tells.after {notes : List Note} {check? : Option (Call × Option Answer)}
    {o : Action.Outcome (SessionState × Response)} (h : Tells oracle past notes check? o)
    (note : Note) : Tells oracle past (note :: notes) check? (o.after (.noted note)) := by
  constructor
  . rw [Action.Outcome.after, h.events_eq]
    rfl
  . exact h.calls_eq
  . exact h.answer_eq
  . exact h.sound
  . exact h.user_mem
  . exact h.named

theorem tells_done (hst : Named st) {response : Response} (hloggedIn : response.reply.code ≠ .loggedIn)
    (hnotLoggedIn : response.reply.code ≠ .notLoggedIn)
    : Tells oracle past [] none ⟨past, [], .done (st, response)⟩ := by
  constructor
  . rfl
  . rfl
  . nofun
  . exact sound_of_no_check hloggedIn hnotLoggedIn
  . nofun
  . rintro _ _ ⟨⟩
    exact hst

variable (oracle past st) in
theorem run_settle (name : String) (answer : Answer)
    : ∃ after response,
        (Handler.settle name st answer).run oracle past
          =
        ⟨past, (verdictNotes name answer).map .noted, .done (after, response)⟩
          ∧
        response.reply.code = (if answer = .ok true then .loggedIn else .notLoggedIn)
          ∧
        Named after := by
  have hcomplete : Named st.complete.1 := by
    intro name hname
    unfold SessionState.complete Login.complete at hname
    cases hlogin : st.login <;> simp [hlogin] at hname
  have hreject : Named st.reject := by
    intro name hname
    unfold SessionState.reject Login.reject at hname
    cases hlogin : st.login <;> simp [hlogin] at hname
  match answer with
  | .ok true => exact ⟨_, _, rfl, rfl, hcomplete⟩
  | .ok false => exact ⟨_, _, rfl, rfl, hreject⟩
  | .error e => exact ⟨_, _, rfl, rfl, hreject⟩

theorem tells_check {name line : String} (hname : name ∈ Text.words line) (password : String)
    : Tells oracle past [] (some (⟨name, password⟩, oracle past ⟨name, password⟩))
        ((Action.check ⟨name, password⟩ (Handler.settle name st)).run oracle past) := by
  rw [Action.run]
  cases hanswer : oracle past ⟨name, password⟩ with
  | none =>
    constructor
    . rfl
    . rfl
    . rintro _ ⟨⟩
      exact hanswer.symm
    . constructor <;> simp [replyOf?]
    . rintro _ ⟨⟩
      exact ⟨line, hname⟩
    . intro _ _ hdone
      contradiction
  | some answer =>
    obtain ⟨after, response, hrun, hcode, hafter⟩ :=
      run_settle oracle (⟨name, password⟩ :: past) st name answer
    dsimp only
    rw [hrun]
    constructor
    . rfl
    . rfl
    . rintro _ ⟨⟩
      exact hanswer.symm
    . by_cases hyes : answer = .ok true
      . rw [if_pos hyes] at hcode
        constructor <;> simp [replyOf?, Action.Outcome.after, hcode, hyes]
      . rw [if_neg hyes] at hcode
        constructor <;> simp [replyOf?, Action.Outcome.after, hcode, hyes]
    . rintro _ ⟨⟩
      exact ⟨line, hname⟩
    . rintro _ _ ⟨⟩
      exact hafter

theorem tells_user (hst : Named st) {name line : String} (hname : name ∈ Text.words line)
    (args : List String)
    : Tells oracle past [] none ((Handler.user.conduct (name :: args) st).run oracle past) := by
  by_cases h : ∀ user, st.login ≠ .loggedIn user
  . have hafter : Named { st with login := .pending name } := by
      rintro _ ⟨⟩
      exact ⟨line, hname⟩
    rw [Handler.run_user_of_not_loggedIn oracle past args name h]
    constructor
    . rfl
    . rfl
    . nofun
    . exact sound_of_no_check (by decide) (by decide)
    . nofun
    . rintro _ _ ⟨⟩
      exact hafter
  . simp only [ne_eq, not_forall, not_not] at h
    obtain ⟨user, hlogin⟩ := h
    rw [Handler.run_user_of_loggedIn oracle past _ hlogin]
    exact tells_done hst (by decide) (by decide)

theorem tells_pass (hst : Named st) (password : String) (args : List String)
    : ∃ check?,
        Tells oracle past [] check?
          ((Handler.pass.conduct (password :: args) st).run oracle past) := by
  cases hlogin : st.login with
  | anonymous =>
    rw [Handler.run_pass_of_anonymous oracle past _ hlogin]
    exact ⟨none, tells_done hst (by decide) (by decide)⟩
  | loggedIn user =>
    rw [Handler.run_pass_of_loggedIn oracle past _ hlogin]
    exact ⟨none, tells_done hst (by decide) (by decide)⟩
  | pending name =>
    obtain ⟨line, hname⟩ := hst name hlogin
    rw [Handler.run_pass_of_pending oracle past args password hlogin]
    exact ⟨_, tells_check hname password⟩

variable (oracle past) in
theorem tells_follow (hst : Named st) (line : String)
    : ∃ check?,
        Tells oracle past (shortfall? line).toList check?
          (((Registry.withLogin.route line).follow st).run oracle past) := by
  cases hwords : Text.words line with
  | nil =>
    rw [Registry.route_of_blank _ hwords, shortfall?, request, Request.parse_of_blank hwords]
    exact ⟨none, tells_done hst (by decide) (by decide)⟩
  | cons token args =>
    rw [Registry.route_of_token _ hwords, shortfall?, request, Request.parse_of_words hwords]
    by_cases hless : args.length < Registry.withLogin.minArgs token.toUpper
    . rw [if_pos hless, if_pos hless]
      exact ⟨none, (tells_done hst (by decide) (by decide)).after _⟩
    . rw [if_neg hless, if_neg hless, Registry.Route.follow, Registry.resolve_withLogin]
      rw [Registry.minArgs_withLogin] at hless
      by_cases hverb : token.toUpper = "USER" ∨ token.toUpper = "PASS"
      . rw [if_pos hverb] at hless
        obtain ⟨arg, args, rfl⟩ := List.exists_cons_of_length_pos (Nat.not_lt.1 hless)
        rcases hverb with huser | hpass
        . rw [if_pos huser]
          exact ⟨none, tells_user hst (by rw [hwords]; simp) args⟩
        . rw [if_neg (by simp [hpass]), if_pos hpass]
          exact tells_pass hst arg args
      . rw [not_or] at hverb
        rw [if_neg hverb.1, if_neg hverb.2]
        exact ⟨none, tells_done hst (by decide) (by decide)⟩

theorem dispatch_of_refused? {cfg : SessionSettings} (hregistry : cfg.registry = .withLogin)
    {frame : Frame} (h : refused? frame = none)
    : cfg.dispatch frame st
        =
      Registry.withLogin.handleLine (SessionSettings.text frame) st := by
  cases frame with
  | line bytes =>
    rw [SessionSettings.dispatch, hregistry]
    rfl
  | overLong kept =>
    rw [SessionSettings.dispatch, hregistry]
    apply Registry.handleOverLong_of_not_contains
    intro token htoken
    rw [refused?, Option.map_eq_none_iff, htoken, Option.filter_eq_none_iff] at h
    exact Bool.eq_false_iff.2 (h token rfl)

variable (oracle past) in
theorem tells_dispatch {cfg : SessionSettings} (hregistry : cfg.registry = .withLogin)
    (hst : Named st) (frame : Frame)
    : ∃ check?,
        Tells oracle past (requestNotes cfg.maxCommandLength frame) check?
          ((cfg.dispatch frame st).run oracle past) := by
  unfold requestNotes requestNote
  cases hrefused : refused? frame with
  | none =>
    rw [dispatch_of_refused? hregistry hrefused, Registry.handleLine, note_command]
    obtain ⟨check?, htells⟩ := tells_follow oracle past hst (SessionSettings.text frame)
    exact ⟨check?, htells.after _⟩
  | some verb =>
    cases frame with
    | line bytes => contradiction
    | overLong kept =>
      rw [refused?, Option.map_eq_some_iff] at hrefused
      obtain ⟨token, htoken, rfl⟩ := hrefused
      rw [Option.filter_eq_some_iff, List.head?_eq_some_iff] at htoken
      obtain ⟨⟨args, hwords⟩, hcontains⟩ := htoken
      rw [SessionSettings.dispatch, hregistry,
        Registry.handleOverLong_of_contains _ _ _ hwords hcontains]
      exact ⟨none, (tells_done hst (by decide) (by decide)).after _⟩

structure Lists (limit : Nat) (oracle : Action.Oracle) (past : List Call)
    (told : List (Exchange Frame × Bool)) (turns : List Turn) : Prop where
  events_eq : told.flatMap (fun turn => turn.1.tale turn.2) = turns.flatMap (·.events limit)
  frame_eq : turns.map (·.frame) = told.map (·.1.request)
  sent_eq : turns.map (·.sent) = told.map (·.2)
  reply?_eq : turns.map (·.reply?) = told.map fun turn => turn.1.response?.map (·.reply)
  reply?_ne_none : ∀ turn ∈ turns.dropLast, turn.reply? ≠ none
  answered : Answered oracle past (turns.filterMap (·.check?))
  sound : ∀ turn ∈ turns, Sound turn.check? turn.reply?
  user_mem : ∀ turn ∈ turns, ∀ check, turn.check? = some check
    → ∃ line, check.1.user ∈ Text.words line

theorem lists_nil (limit : Nat) : Lists limit oracle past [] [] := by
  constructor
  . rfl
  . rfl
  . rfl
  . rfl
  . nofun
  . trivial
  . nofun
  . nofun

theorem Tells.tale_eq {limit : Nat} {check? : Option (Call × Option Answer)} {x : Exchange Frame}
    (h : Tells oracle past (requestNotes limit x.request) check? x.outcome) (sent : Bool)
    : x.tale sent = (⟨x.request, check?, replyOf? x.outcome, sent⟩ : Turn).events limit := by
  rw [Exchange.tale, Exchange.work, h.events_eq, map_response?]
  cases sent <;> rfl

theorem Tells.cons {limit : Nat} {check? : Option (Call × Option Answer)} {x : Exchange Frame}
    (h : Tells oracle past (requestNotes limit x.request) check? x.outcome)
    {told : List (Exchange Frame × Bool)} {turns : List Turn}
    (hrest : Lists limit oracle x.outcome.calls told turns)
    (hreply : turns ≠ [] → replyOf? x.outcome ≠ none) (sent : Bool)
    : Lists limit oracle past ((x, sent) :: told)
        (⟨x.request, check?, replyOf? x.outcome, sent⟩ :: turns) := by
  constructor
  . rw [List.flatMap_cons, List.flatMap_cons, hrest.events_eq, h.tale_eq]
  . rw [List.map_cons, List.map_cons, hrest.frame_eq]
  . rw [List.map_cons, List.map_cons, hrest.sent_eq]
  . rw [List.map_cons, List.map_cons, hrest.reply?_eq, map_response?]
  . cases turns with
    | nil => nofun
    | cons turn turns =>
      rw [List.dropLast_cons_of_ne_nil (List.cons_ne_nil _ _)]
      exact List.forall_mem_cons.2 ⟨hreply (List.cons_ne_nil _ _), hrest.reply?_ne_none⟩
  . have hanswered := hrest.answered
    rw [h.calls_eq] at hanswered
    cases check? with
    | none => exact hanswered
    | some check => exact ⟨h.answer_eq check rfl, hanswered⟩
  . exact List.forall_mem_cons.2 ⟨h.sound, hrest.sound⟩
  . exact List.forall_mem_cons.2 ⟨h.user_mem, hrest.user_mem⟩

theorem exists_lists {cfg : SessionSettings} (hregistry : cfg.registry = .withLogin)
    (hst : Named st) {told : List (Exchange Frame × Bool)}
    (h : exchanges cfg.dispatch oracle st past (told.map (·.1.request)) = told.map (·.1))
    : ∃ turns, Lists cfg.maxCommandLength oracle past told turns := by
  induction told generalizing st past with
  | nil => exact ⟨[], lists_nil _⟩
  | cons first told ih =>
    obtain ⟨x, sent⟩ := first
    rw [List.map_cons, List.map_cons, exchanges, List.cons.injEq] at h
    obtain ⟨hx, hrest⟩ : exchange cfg.dispatch oracle st past x.request = x ∧ _ := h
    dsimp only at hrest
    rw [hx] at hrest
    obtain ⟨check?, htells⟩ := tells_dispatch oracle past hregistry hst x.request
    rw [show (cfg.dispatch x.request st).run oracle past = x.outcome from
      congrArg (·.outcome) hx] at htells
    split at hrest
    . next hsome =>
      obtain ⟨response, hresponse⟩ := Option.isSome_iff_exists.1 hsome
      have hafter := htells.named _ _ (Exchange.done_of_response? hresponse)
      obtain ⟨turns, hturns⟩ := ih hafter hrest
      refine ⟨_, htells.cons hturns ?_ sent⟩
      rw [← map_response?, ← Option.isSome_iff_ne_none, Option.isSome_map]
      exact fun _ => hsome
    . rw [eq_comm, List.map_eq_nil_iff] at hrest
      subst hrest
      exact ⟨_, htells.cons (lists_nil _) (absurd rfl) sent⟩

theorem filterMap_note?_noted (notes : List Note)
    : (notes.map .noted).filterMap Event.note? = notes := by
  rw [List.filterMap_map]
  exact List.filterMap_some

theorem filterMap_note?_events (limit : Nat) (turn : Turn)
    : (turn.events limit).filterMap Event.note? = turn.notes limit := by
  have hcheck : (turn.check?.elim [] checkEvents).filterMap Event.note?
      = turn.check?.elim [] checkNotes := by
    cases turn.check? with
    | none => rfl
    | some check =>
      dsimp only [Option.elim]
      rw [checkEvents, List.filterMap_cons_none (by rfl), filterMap_note?_noted]
  have hreply : (turn.sentReply?.elim [] Exchange.delivered).filterMap Event.note?
      = turn.sentReply?.toList.map replyNote := by
    cases turn.sentReply? <;> rfl
  rw [events, work, notes, List.filterMap_append, List.filterMap_append,
    List.filterMap_cons_none (by rfl), filterMap_note?_noted, hcheck, hreply]

end Turn

end FtpControl
