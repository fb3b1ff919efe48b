import FtpControl.Proofs.Conversation
import FtpControl.Proofs.Routing

/-!
This module contains the secrecy of passwords. Two peers whose lines differ in their passwords only
have the same conversation and leave the same log, as long as the backend has the same verdicts for
both: what a password says is in the calls to the backend and nowhere else.
-/

namespace FtpControl

def AgreeOn {α : Type} (f g : List Call → Call → α) (calls others : List Call) : Prop :=
  ∀ call past other past',
    call :: past <:+ calls
      →
    other :: past' <:+ others
      →
    past.length = past'.length
      →
    f past call = g past' other

theorem AgreeOn.mono {α : Type} {f g : List Call → Call → α} {calls others fewer less : List Call}
    (h : AgreeOn f g calls others) (hfewer : fewer <:+ calls) (hless : less <:+ others)
    : AgreeOn f g fewer less := by
  intro call past other past' hcall hother
  exact h call past other past' (hcall.trans hfewer) (hother.trans hless)

theorem AgreeOn.consult {backend rival : Backend} {calls others : List Call}
    (h : AgreeOn backend rival calls others) (auth : Authenticator)
    : AgreeOn (auth.consult backend) (auth.consult rival) calls others := by
  intro call past other past' hcall hother hlength
  unfold Authenticator.consult
  rw [h call past other past' hcall hother hlength]

def Event.isOpen : Event → Bool
  | received _ | called _ => false
  | _ => true

def disclosed (events : List Event) : List Event :=
  events.filter (·.isOpen)

theorem disclosed_append (first second : List Event)
    : disclosed (first ++ second) = disclosed first ++ disclosed second := by
  apply List.filter_append

theorem filterMap_disclosed {α : Type} (f : Event → Option α)
    (hreceived : ∀ frame, f (.received frame) = none) (hcalled : ∀ call, f (.called call) = none)
    (events : List Event) : (disclosed events).filterMap f = events.filterMap f := by
  unfold disclosed
  rw [List.filterMap_filter]
  apply List.filterMap_congr
  intro event _
  cases event with
  | received frame =>
    rw [hreceived]
    rfl
  | called call =>
    rw [hcalled]
    rfl
  | _ => rfl

namespace Action

variable {α : Type} {oracle rival : Oracle} {past past' : List Call}

inductive Twin : Action α → Action α → Prop
  | same (action : Action α) : Twin action action
  | note (n : Note) {next other : Action α} (h : Twin next other)
    : Twin (.note n next) (.note n other)
  | check {call other : Call} (huser : call.user = other.user) (next : Answer → Action α)
    : Twin (.check call next) (.check other next)

structure Outcome.Twin (o p : Outcome α) : Prop where
  stop_eq : o.stop = p.stop
  disclosed_eq : disclosed o.events = disclosed p.events
  users_eq : o.calls.map (·.user) = p.calls.map (·.user)

theorem Outcome.Twin.note {o p : Outcome α} (h : o.Twin p) (n : Note)
    : (o.after (.noted n)).Twin (p.after (.noted n)) := by
  constructor
  . exact h.stop_eq
  . exact congrArg (List.cons (.noted n)) h.disclosed_eq
  . exact h.users_eq

theorem Outcome.Twin.called {o p : Outcome α} (h : o.Twin p) (call other : Call)
    : (o.after (.called call)).Twin (p.after (.called other)) := by
  constructor
  . exact h.stop_eq
  . exact h.disclosed_eq
  . exact h.users_eq

theorem suffix_calls_run (oracle : Oracle) (past : List Call) (action : Action α)
    : past <:+ (action.run oracle past).calls := by
  rw [calls_run]
  apply List.suffix_append

theorem suffix_calls_run_check (oracle : Oracle) (past : List Call) (call : Call)
    (next : Answer → Action α) : call :: past <:+ ((check call next).run oracle past).calls := by
  rw [run]
  split
  . apply suffix_calls_run
  . apply List.suffix_refl

theorem twin_run_check {call other : Call} {next : Answer → Action α}
    (hpast : past.map (·.user) = past'.map (·.user)) (huser : call.user = other.user)
    (hagree : AgreeOn oracle rival ((check call next).run oracle past).calls
      ((check other next).run rival past').calls)
    (hnext : ∀ answer,
      AgreeOn oracle rival ((next answer).run oracle (call :: past)).calls
          ((next answer).run rival (other :: past')).calls
        →
      ((next answer).run oracle (call :: past)).Twin ((next answer).run rival (other :: past')))
    : ((check call next).run oracle past).Twin ((check other next).run rival past') := by
  have hlength : past.length = past'.length := by
    simpa using congrArg List.length hpast
  have hsame := hagree call past other past' (suffix_calls_run_check _ _ _ _)
    (suffix_calls_run_check _ _ _ _) hlength
  rw [run, run] at hagree ⊢
  rw [← hsame] at hagree ⊢
  cases hanswer : oracle past call with
  | some answer =>
    rw [hanswer] at hagree
    exact (hnext answer hagree).called call other
  | none =>
    refine ⟨rfl, rfl, ?_⟩
    simp only [List.map_cons, hpast, huser]

theorem twin_run_self (action : Action α) (hpast : past.map (·.user) = past'.map (·.user))
    (hagree : AgreeOn oracle rival (action.run oracle past).calls (action.run rival past').calls)
    : (action.run oracle past).Twin (action.run rival past') := by
  induction action generalizing past past' with
  | done result => exact ⟨rfl, rfl, hpast⟩
  | note n next ih => exact (ih hpast hagree).note n
  | check call next ih =>
    apply twin_run_check hpast rfl hagree
    intro answer
    apply ih
    rw [List.map_cons, List.map_cons, hpast]
  | crash => exact ⟨rfl, rfl, hpast⟩

theorem Twin.run {action other : Action α} (h : action.Twin other)
    (hpast : past.map (·.user) = past'.map (·.user))
    (hagree : AgreeOn oracle rival (action.run oracle past).calls (other.run rival past').calls)
    : (action.run oracle past).Twin (other.run rival past') := by
  induction h with
  | same action => exact twin_run_self action hpast hagree
  | note n h ih => exact (ih hagree).note n
  | check huser next =>
    apply twin_run_check hpast huser hagree
    intro answer
    apply twin_run_self
    rw [List.map_cons, List.map_cons, hpast, huser]

end Action

theorem Handler.twin_pass (st : SessionState) (password other : String) (args others : List String)
    : (Handler.pass.conduct (password :: args) st).Twin
        (Handler.pass.conduct (other :: others) st) := by
  unfold pass
  dsimp only
  split
  . apply Action.Twin.same
  . apply Action.Twin.same
  . next name _ =>
    rw [Action.argument, Action.argument, List.getElem?_cons_zero, List.getElem?_cons_zero]
    dsimp only
    apply Action.Twin.check
    rfl

structure GivesPassword (limit : Nat) (token : String) (line : List UInt8) : Prop where
  toUpper_eq : token.toUpper = "PASS"
  words_eq : ∃ password args,
    Text.words (Text.Utf8.decodeString line) = token :: password :: args
  kept_eq : limit < line.length
    → ∃ args, Text.words (Text.Utf8.decodeString (line.take limit)) = token :: args

theorem GivesPassword.of_length_le {limit : Nat} {token password : String} {line : List UInt8}
    {args : List String} (htoken : token.toUpper = "PASS")
    (hwords : Text.words (Text.Utf8.decodeString line) = token :: password :: args)
    (hlength : line.length ≤ limit) : GivesPassword limit token line := by
  constructor
  . exact htoken
  . exact ⟨password, args, hwords⟩
  . intro hlong
    omega

-- Two lines that are the same, or that both give a password and are both within the limit or not.
def EqUpToPassword (limit : Nat) (line other : List UInt8) : Prop :=
  line = other
    ∨
  ∃ token,
    GivesPassword limit token line
      ∧
    GivesPassword limit token other
      ∧
    (limit < line.length ↔ limit < other.length)

section

variable {token password line : String} {args : List String}

theorem Note.command_of_password (hwords : Text.words line = token :: args)
    (htoken : token.toUpper = "PASS")
    : Note.command (Text.stripLineEnding line) = ⟨.info, s!"<- {token} ****"⟩ := by
  unfold command maskPassword
  rw [Text.words_stripLineEnding, hwords]
  dsimp only
  rw [if_pos htoken]
  simp only [toString, String.append_assoc]

theorem Registry.handleLine_of_password (st : SessionState)
    (hwords : Text.words line = token :: password :: args) (htoken : token.toUpper = "PASS")
    : Registry.withLogin.handleLine line st
        =
      .note ⟨.info, s!"<- {token} ****"⟩ (Handler.pass.conduct (password :: args) st) := by
  unfold handleLine
  rw [Note.command_of_password hwords htoken, route_of_token _ hwords, htoken, minArgs_withLogin]
  rw [resolve_withLogin, if_neg (by simp), if_neg (by decide), if_pos rfl, Route.follow]

end

theorem twin_dispatch_of_eqUpToPassword {limit : Nat} {line other : List UInt8}
    (h : EqUpToPassword limit line other) (welcome : String) (auth : Authenticator)
    (st : SessionState)
    : let cfg : SessionSettings := { welcome, maxCommandLength := limit, auth }
      (cfg.dispatch (.ofLine limit line) st).Twin (cfg.dispatch (.ofLine limit other) st) := by
  intro cfg
  rcases h with rfl | ⟨token, hline, hother, hlong⟩
  . apply Action.Twin.same
  . have htoken := hline.toUpper_eq
    unfold Frame.ofLine
    by_cases hlength : limit < line.length
    . rw [if_neg (by omega), if_neg (by omega), SessionSettings.dispatch, SessionSettings.dispatch]
      obtain ⟨args, hwords⟩ := hline.kept_eq hlength
      obtain ⟨others, hwords'⟩ := hother.kept_eq (hlong.1 hlength)
      have hcontains := (Registry.contains_withLogin token).2 (.inr htoken)
      rw [Registry.handleOverLong_of_contains _ _ _ hwords hcontains]
      rw [Registry.handleOverLong_of_contains _ _ _ hwords' hcontains]
      apply Action.Twin.same
    . rw [if_pos (by omega), if_pos (by omega), SessionSettings.dispatch, SessionSettings.dispatch]
      obtain ⟨password, args, hwords⟩ := hline.words_eq
      obtain ⟨password', others, hwords'⟩ := hother.words_eq
      rw [Registry.handleLine_of_password st hwords htoken]
      rw [Registry.handleLine_of_password st hwords' htoken]
      exact .note _ (Handler.twin_pass st _ _ _ _)

namespace Session

variable {oracle rival : Action.Oracle} {s t : Session}

structure Twin (s t : Session) : Prop where
  eq : t = { s with calls := t.calls }
  users_eq : s.calls.map (·.user) = t.calls.map (·.user)

theorem Twin.refl (s : Session) : s.Twin s := by
  constructor <;> rfl

structure Step.Twin (step other : Step) : Prop where
  session : step.1.Twin other.1
  disclosed_eq : disclosed step.2 = disclosed other.2

theorem Step.Twin.after {step other : Step} (h : step.Twin other) {events others : List Event}
    (hevents : disclosed events = disclosed others) : (step.after events).Twin (other.after others) := by
  constructor
  . exact h.session
  . simp only [Step.after, disclosed_append, hevents, h.disclosed_eq]

theorem Twin.respond (h : s.Twin t) (response : Response)
    : (s.respond response).Twin (t.respond response) := by
  have husers := h.users_eq
  constructor
  . constructor
    . rw [calls_respond, h.eq, respond_calls]
    . rw [calls_respond, calls_respond, husers]
  . rw [h.eq, respond_calls s t.calls]

theorem calls_perform (oracle : Action.Oracle) (s : Session)
    (action : Action (SessionState × Response))
    : (s.perform oracle action).1.calls = (action.run oracle s.calls).calls := by
  unfold perform
  dsimp only
  split
  . rw [Step.fst_after, calls_respond]
  . rfl
  . rfl

theorem Twin.goTo (h : s.Twin t) (phase : Phase) {calls others : List Call}
    (husers : calls.map (·.user) = others.map (·.user))
    : ({ s with calls, phase } : Session).Twin { t with calls := others, phase } := by
  constructor
  . rw [h.eq]
  . exact husers

theorem Twin.perform (h : s.Twin t) {action other : Action (SessionState × Response)}
    (haction : action.Twin other)
    (hagree : AgreeOn oracle rival (s.perform oracle action).1.calls (t.perform rival other).1.calls)
    : (s.perform oracle action).Twin (t.perform rival other) := by
  rw [calls_perform, calls_perform] at hagree
  obtain ⟨hstop, hevents, husers⟩ := haction.run h.users_eq hagree
  unfold Session.perform
  dsimp only
  rw [← hstop]
  apply Step.Twin.after _ hevents
  split
  . next st response _ =>
    apply Twin.respond
    constructor
    . rw [h.eq]
    . exact husers
  . exact ⟨h.goTo _ husers, rfl⟩
  . exact ⟨h.goTo _ husers, rfl⟩

theorem Step.Twin.andThen {step other : Step} (h : step.Twin other) {next following : Session → Step}
    (hnext : (next step.1).Twin (following other.1))
    : (step.andThen next).Twin (other.andThen following) := by
  unfold Step.andThen
  exact hnext.after h.disclosed_eq

theorem Step.Twin.filterMap_eq {α : Type} {step other : Step} (h : step.Twin other)
    (f : Event → Option α) (hreceived : ∀ frame, f (.received frame) = none)
    (hcalled : ∀ call, f (.called call) = none) : step.2.filterMap f = other.2.filterMap f := by
  rw [← filterMap_disclosed f hreceived hcalled, h.disclosed_eq]
  rw [filterMap_disclosed f hreceived hcalled]

theorem Twin.finish (h : s.Twin t) (reason : Reason) : (s.finish reason).Twin (t.finish reason) := by
  constructor
  . constructor
    . rw [h.eq]
      rfl
    . exact h.users_eq
  . rw [h.eq]
    rfl

theorem Twin.isReading_eq (h : s.Twin t) : t.isReading = s.isReading := by
  rw [h.eq]
  rfl

theorem Twin.termination?_eq (h : s.Twin t) (log : ConnectionLog)
    : t.termination? log = s.termination? log := by
  rw [h.eq]
  rfl

def TwinFrames (cfg : SessionSettings) (frame other : Frame) : Prop :=
  ∀ st, (cfg.dispatch frame st).Twin (cfg.dispatch other st)

theorem Twin.handle (h : s.Twin t) {frame other : Frame} (hframe : TwinFrames s.settings frame other)
    (hagree : AgreeOn oracle rival (s.handle oracle frame).1.calls (t.handle rival other).1.calls)
    : (s.handle oracle frame).Twin (t.handle rival other) := by
  have hdispatch : t.settings.dispatch other t.state = s.settings.dispatch other s.state := by
    rw [h.eq]
  unfold Session.handle at hagree ⊢
  rw [hdispatch] at hagree ⊢
  exact (h.perform (hframe s.state) hagree).after rfl

theorem suffix_calls_handle (oracle : Action.Oracle) (s : Session) (frame : Frame)
    : s.calls <:+ (s.handle oracle frame).1.calls := by
  unfold handle
  rw [Step.fst_after, calls_perform]
  apply Action.suffix_calls_run

theorem suffix_calls_answerAll (oracle : Action.Oracle) (s : Session) (frames : List Frame)
    : s.calls <:+ (s.answerAll oracle frames).1.calls := by
  induction frames generalizing s with
  | nil =>
    rw [answerAll]
    split <;> apply List.suffix_refl
  | cons frame frames ih =>
    rw [answerAll]
    split
    . exact (suffix_calls_handle oracle s frame).trans (ih _)
    . apply List.suffix_refl

theorem suffix_calls_answerAll_take (oracle : Action.Oracle) (s : Session) (frames : List Frame)
    (n : Nat)
    : (s.answerAll oracle (frames.take n)).1.calls <:+ (s.answerAll oracle frames).1.calls := by
  induction frames generalizing s n with
  | nil => rw [List.take_nil]
  | cons frame frames ih =>
    cases n with
    | zero =>
      rw [List.take_zero]
      have hstart : (s.answerAll oracle []).1.calls = s.calls := by
        rw [answerAll]
        split <;> rfl
      rw [hstart]
      apply suffix_calls_answerAll
    | succ n =>
      rw [List.take_succ_cons, answerAll, answerAll]
      split
      . exact ih _ n
      . apply List.suffix_refl

theorem Twin.answerAll (h : s.Twin t) {frames others : List Frame}
    (hframes : List.Forall₂ (TwinFrames s.settings) frames others)
    (hagree : AgreeOn oracle rival (s.answerAll oracle frames).1.calls
      (t.answerAll rival others).1.calls)
    : (s.answerAll oracle frames).Twin (t.answerAll rival others) := by
  generalize hsettings : s.settings = cfg at hframes
  induction hframes generalizing s t with
  | nil =>
    rw [Session.answerAll, Session.answerAll, h.isReading_eq]
    split
    . exact h.finish .peerClosed
    . exact ⟨h, rfl⟩
  | @cons frame other frames others hframe hframes ih =>
    rw [Session.answerAll, Session.answerAll, h.isReading_eq] at hagree ⊢
    by_cases hreading : s.isReading = true
    . rw [if_pos hreading, if_pos hreading] at hagree ⊢
      -- The calls for this line are among those of the whole run, on which the backends agree.
      have hhandle := h.handle (hsettings ▸ hframe) (hagree.mono
        (suffix_calls_answerAll oracle _ frames) (suffix_calls_answerAll rival _ others))
      apply hhandle.andThen
      exact ih hhandle.session hagree ((steady_handle oracle s frame).settings_eq.trans hsettings)
    . rw [if_neg hreading, if_neg hreading]
      exact ⟨h, rfl⟩

theorem state_run_eq_answerAll (oracle : Action.Oracle) (s : Session) (h : s.AtLine)
    (hlimit : 0 < s.settings.maxCommandLength) (lines : List (List UInt8))
    (hlines : ∀ line ∈ lines, ∃ body, Framer.lf ∉ body ∧ line = body ++ [Framer.lf])
    : (s.run oracle (lines.flatten.map .byte)).1.state
        =
      (s.answerAll oracle (lines.map (.ofLine s.settings.maxCommandLength))).1.state := by
  induction lines generalizing s with
  | nil =>
    rw [List.map_nil, answerAll]
    split <;> rfl
  | cons line lines ih =>
    rw [List.forall_mem_cons] at hlines
    obtain ⟨⟨body, hbody, rfl⟩, hlines⟩ := hlines
    have hscan := Framer.scan_line _ hlimit body hbody (lines.flatten.map .byte)
    rw [List.flatten_cons, List.map_append, run_of_scan oracle s h _ _ _ hscan]
    rw [List.map_cons, answerAll]
    split
    . have hsteady := steady_handle oracle s
        (.ofLine s.settings.maxCommandLength (body ++ [Framer.lf]))
      have hrest := ih _ hsteady.atLine (by rw [hsteady.settings_eq]; exact hlimit) hlines
      rw [hsteady.settings_eq] at hrest
      exact hrest
    . rfl

theorem exists_body_of_mem_take {bytes line : List UInt8} {n : Nat}
    (hn : n < (Framer.lines bytes).length) (hline : line ∈ (Framer.lines bytes).take n)
    : ∃ body, Framer.lf ∉ body ∧ line = body ++ [Framer.lf] := by
  have hcut := Framer.isCut_lines bytes
  have hdropLast : line ∈ (Framer.lines bytes).dropLast := by
    rw [List.dropLast_eq_take]
    exact List.take_subset_take_left _ (by omega) hline
  obtain ⟨body, rfl⟩ := List.getLast?_eq_some_iff.1 (hcut.getLast?_eq line hdropLast)
  have hbody := hcut.not_mem_dropLast _ (List.mem_of_mem_take hline)
  rw [List.dropLast_concat] at hbody
  exact ⟨body, hbody, rfl⟩

section

variable {bytes others : List UInt8}
  (hlimit : 0 < s.settings.maxCommandLength)
  (hframes : List.Forall₂ (TwinFrames s.settings)
    ((Framer.lines bytes).map (.ofLine s.settings.maxCommandLength))
    ((Framer.lines others).map (.ofLine s.settings.maxCommandLength)))
  (hagree : AgreeOn oracle rival (s.serve oracle (bytes.map .byte)).1.calls
    (s.serve rival (others.map .byte)).1.calls)

include hlimit hframes hagree

theorem twin_serve : (s.serve oracle (bytes.map .byte)).Twin (s.serve rival (others.map .byte)) := by
  have hstart : s.start.1.settings = s.settings := (steady_start s).settings_eq
  rw [serve_eq_answerAll _ s hlimit, serve_eq_answerAll _ s hlimit] at hagree ⊢
  rw [← hstart] at hframes
  apply Step.Twin.andThen ⟨.refl s.start.1, rfl⟩
  exact (Twin.refl s.start.1).answerAll (hstart ▸ hframes) hagree

theorem state_run_take_eq {n : Nat} (hn : n < (Framer.lines bytes).length)
    : (s.start.1.run oracle (((Framer.lines bytes).take n).flatten.map .byte)).1.state
        =
      (s.start.1.run rival (((Framer.lines others).take n).flatten.map .byte)).1.state := by
  have hsteady := steady_start s
  have hstart : s.start.1.settings = s.settings := hsteady.settings_eq
  have hn' : n < (Framer.lines others).length := by
    have hlength := hframes.length_eq
    rw [List.length_map, List.length_map] at hlength
    omega
  rw [serve_eq_answerAll _ s hlimit, serve_eq_answerAll _ s hlimit] at hagree
  rw [← hstart] at hlimit hframes hagree
  rw [state_run_eq_answerAll _ _ hsteady.atLine hlimit _ fun line => exists_body_of_mem_take hn]
  rw [state_run_eq_answerAll _ _ hsteady.atLine hlimit _ fun line => exists_body_of_mem_take hn']
  rw [List.map_take, List.map_take]
  have htwin := (Twin.refl s.start.1).answerAll (List.forall₂_take n hframes)
    (hagree.mono (suffix_calls_answerAll_take _ _ _ n) (suffix_calls_answerAll_take _ _ _ n))
  rw [htwin.session.eq]

end

/--
Nothing but the calls to the backend depends on the passwords: not the log, not the replies, not the
states that the session goes through, and not how it ends.
-/
theorem serve_hides_passwords (welcome : String) (limit : Nat) (auth : Authenticator)
    (backend rival : Backend) (control : Channel) (data : Option Channel)
    (bytes others : List UInt8) (hlimit : 0 < limit)
    (hlines : List.Forall₂ (EqUpToPassword limit) (Framer.lines bytes) (Framer.lines others))
    : let s : Session :=
        { settings := { welcome, maxCommandLength := limit, auth }, control, data }
      let served := s.serve (auth.consult backend) (bytes.map .byte)
      let served' := s.serve (auth.consult rival) (others.map .byte)
      AgreeOn backend rival served.1.calls served'.1.calls
        →
      (∀ log : ConnectionLog, log.records served.2 = log.records served'.2)
        ∧
      served.2.filterMap Event.flushed? = served'.2.filterMap Event.flushed?
        ∧
      (∀ n < (Framer.lines bytes).length,
        (s.start.1.run (auth.consult backend)
            (((Framer.lines bytes).take n).flatten.map .byte)).1.state
          =
        (s.start.1.run (auth.consult rival)
            (((Framer.lines others).take n).flatten.map .byte)).1.state)
        ∧
      served.1.state = served'.1.state
        ∧
      (∀ log : ConnectionLog, served.1.termination? log = served'.1.termination? log)
        ∧
      served.1.calls.map (·.user) = served'.1.calls.map (·.user) := by
  intro s served served' hagree
  have hframes : List.Forall₂ (TwinFrames s.settings)
      ((Framer.lines bytes).map (.ofLine limit)) ((Framer.lines others).map (.ofLine limit)) := by
    rw [List.forall₂_map_left_iff, List.forall₂_map_right_iff]
    exact hlines.imp fun line other h => twin_dispatch_of_eqUpToPassword h welcome auth
  have htwin : served.Twin served' := twin_serve hlimit hframes (hagree.consult auth)
  refine ⟨?_, ?_, ?_, ?_, ?_, htwin.session.users_eq⟩
  . intro log
    exact htwin.filterMap_eq _ (fun _ => rfl) (fun _ => rfl)
  . exact htwin.filterMap_eq _ (fun _ => rfl) (fun _ => rfl)
  . intro n hn
    exact state_run_take_eq hlimit hframes (hagree.consult auth) hn
  . rw [htwin.session.eq]
  . intro log
    exact (htwin.session.termination?_eq log).symm

set_option maxRecDepth 10000 in
theorem serve_hides_passwords_three_guesses
    : let first := Text.Utf8.encodeString "USER a\nPASS b\nUSER a\npass c\nPASS 0123456789abcdef\n"
      let second :=
        Text.Utf8.encodeString "USER a\nPASS x\nUSER a\npass y z\nPASS fedcba9876543210\n"
      let backend : Backend := fun past _ => if past.length = 1 then .granted else .denied
      let settings : SessionSettings := { welcome := "hi", maxCommandLength := 16 }
      let s : Session := { settings, control := { name := "control" } }
      let served := s.serve (settings.auth.consult backend) (first.map .byte)
      let served' := s.serve (settings.auth.consult backend) (second.map .byte)
      Framer.lines first ≠ Framer.lines second
        ∧
      List.Forall₂ (EqUpToPassword 16) (Framer.lines first) (Framer.lines second)
        ∧
      AgreeOn backend backend served.1.calls served'.1.calls
        ∧
      (∀ log : ConnectionLog, log.records served.2 = log.records served'.2)
        ∧
      served.2.filterMap Event.flushed? = served'.2.filterMap Event.flushed?
        ∧
      served.1.state = served'.1.state := by
  intro first second backend settings s served served'
  have hfirst : Framer.lines first = ["USER a\n", "PASS b\n", "USER a\n", "pass c\n",
      "PASS 0123456789abcdef\n"].map Text.Utf8.encodeString := by
    dsimp only [first]
    cbv
  have hsecond : Framer.lines second = ["USER a\n", "PASS x\n", "USER a\n", "pass y z\n",
      "PASS fedcba9876543210\n"].map Text.Utf8.encodeString := by
    dsimp only [second]
    cbv
  have hlines : List.Forall₂ (EqUpToPassword 16) (Framer.lines first) (Framer.lines second) := by
    rw [hfirst, hsecond]
    have hupper : "PASS".toUpper = "PASS" := by cbv
    have hlower : "pass".toUpper = "PASS" := by cbv
    have hb : GivesPassword 16 "PASS" (Text.Utf8.encodeString "PASS b\n") :=
      .of_length_le hupper (show Text.words _ = ["PASS", "b"] by cbv) (by decide)
    have hx : GivesPassword 16 "PASS" (Text.Utf8.encodeString "PASS x\n") :=
      .of_length_le hupper (show Text.words _ = ["PASS", "x"] by cbv) (by decide)
    have hc : GivesPassword 16 "pass" (Text.Utf8.encodeString "pass c\n") :=
      .of_length_le hlower (show Text.words _ = ["pass", "c"] by cbv) (by decide)
    have hy : GivesPassword 16 "pass" (Text.Utf8.encodeString "pass y z\n") :=
      .of_length_le hlower (show Text.words _ = ["pass", "y", "z"] by cbv) (by decide)
    have hup : GivesPassword 16 "PASS" (Text.Utf8.encodeString "PASS 0123456789abcdef\n") :=
      ⟨hupper, ⟨"0123456789abcdef", [], by cbv⟩, fun _ => ⟨["0123456789a"], by cbv⟩⟩
    have hdown : GivesPassword 16 "PASS" (Text.Utf8.encodeString "PASS fedcba9876543210\n") :=
      ⟨hupper, ⟨"fedcba9876543210", [], by cbv⟩, fun _ => ⟨["fedcba98765"], by cbv⟩⟩
    exact .cons (.inl rfl) (.cons (.inr ⟨_, hb, hx, by decide⟩) (.cons (.inl rfl)
      (.cons (.inr ⟨_, hc, hy, by decide⟩) (.cons (.inr ⟨_, hup, hdown, by decide⟩) .nil))))
  have hagree : AgreeOn backend backend served.1.calls served'.1.calls := by
    intro call past other past' _ _ hlength
    dsimp only [backend]
    rw [hlength]
  have hserve := serve_hides_passwords "hi" 16 {} backend backend { name := "control" } none first
    second (by decide) hlines hagree
  refine ⟨?_, hlines, hagree, hserve.1, hserve.2.1, hserve.2.2.2.1⟩
  rw [hfirst, hsecond]
  decide

end Session

end FtpControl
