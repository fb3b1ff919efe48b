import FtpControl.Proofs.Conversation
import FtpControl.Proofs.LoginCommands
import FtpControl.Proofs.Routing

/-!
This module contains the login machine: a small automaton that says what a peer of a server with the
two login commands reads, line by line. Sessions refine it, from the bytes that come in to the bytes
that go out.
-/

namespace FtpControl

/-- A login and the calls that were made for it, newest first. -/
structure LoginMachine where
  login : Login := .anonymous
  calls : List Call := []

namespace LoginMachine

def user (m : LoginMachine) (name : String) : LoginMachine × String :=
  match m.login with
  | .loggedIn _ => (m, "500 Already logged in")
  | _ => ({ m with login := .pending name }, "331 User name ok, password required")

def pass (backend : Backend) (m : LoginMachine) (password : String) : LoginMachine × String :=
  match m.login with
  | .loggedIn _ => (m, "500 Already logged in")
  | .anonymous => (m, "500 Bad sequence of commands, send USER first")
  | .pending name =>
    let call : Call := ⟨name, password⟩
    if backend m.calls call = .granted then
      (⟨.loggedIn name, call :: m.calls⟩, "230 Password ok, continue")
    else
      (⟨.anonymous, call :: m.calls⟩, "530 Incorrect password, not logged in")

def command (backend : Backend) (m : LoginMachine) (verb : String) (args : List String)
    : LoginMachine × String :=
  if verb = "USER" ∨ verb = "PASS" then
    match args with
    | [] => (m, "500 Syntax error, missing parameters")
    | arg :: _ => if verb = "USER" then user m arg else pass backend m arg
  else
    (m, "500 Command not found")

def step (backend : Backend) (limit : Nat) (m : LoginMachine) (line : List UInt8)
    : LoginMachine × String :=
  match Text.words (Text.Utf8.decodeString (line.take limit)) with
  | [] => (m, "500 Syntax error, zero parameters")
  | token :: args =>
    if limit < line.length ∧ (token.toUpper = "USER" ∨ token.toUpper = "PASS") then
      (m, "500 Command too long")
    else
      command backend m token.toUpper args

def run (backend : Backend) (limit : Nat) (m : LoginMachine)
    : List (List UInt8) → LoginMachine × List String
  | [] => (m, [])
  | line :: lines =>
    let (m, reply) := step backend limit m line
    let (m, replies) := run backend limit m lines
    (m, reply :: replies)

def state (m : LoginMachine) : SessionState :=
  { SessionState.initial with login := m.login }

structure Matches (o : Action.Outcome (SessionState × Response)) (result : LoginMachine × String)
    : Prop where
  calls_eq : o.calls = result.1.calls
  done : ∃ response, o.stop = .done (result.1.state, response)
    ∧ response.closes = false
    ∧ response.reply.encode = result.2 ++ "\r\n"

variable {m : LoginMachine} {oracle : Action.Oracle} {result : LoginMachine × String}

theorem matches_of_run {o : Action.Outcome (SessionState × Response)} {next : LoginMachine}
    {events : List Event} {response : Response} {reply : String}
    (hrun : o = ⟨next.calls, events, .done (next.state, response)⟩)
    (hcloses : response.closes = false) (hencode : response.reply.encode = reply ++ "\r\n")
    : Matches o (next, reply) := by
  constructor
  . rw [hrun]
  . rw [hrun]
    exact ⟨response, rfl, hcloses, hencode⟩

theorem Matches.note {past : List Call} {note : Note} {next : Action (SessionState × Response)}
    (h : Matches (next.run oracle past) result)
    : Matches ((Action.note note next).run oracle past) result := by
  constructor
  . exact h.calls_eq
  . exact h.done

theorem matches_done {response : Response} {reply : String} (hcloses : response.closes = false)
    (hencode : response.reply.encode = reply ++ "\r\n")
    : Matches ((Action.done (m.state, response)).run oracle m.calls) (m, reply) := by
  apply matches_of_run
  . rfl
  . exact hcloses
  . exact hencode

theorem user_of_not_loggedIn (h : ∀ user, m.login ≠ .loggedIn user) (name : String)
    : m.user name = (⟨.pending name, m.calls⟩, "331 User name ok, password required") := by
  unfold user
  split
  . next current hlogin => exact absurd hlogin (h current)
  . rfl

theorem matches_user (name : String) (args : List String)
    : Matches ((Handler.user.conduct (name :: args) m.state).run oracle m.calls)
        (m.user name) := by
  by_cases h : ∀ user, m.login ≠ .loggedIn user
  . rw [user_of_not_loggedIn h]
    apply matches_of_run
    . exact Handler.run_user_of_not_loggedIn oracle m.calls args name h
    . rfl
    . cbv
  . simp only [ne_eq, not_forall, not_not] at h
    obtain ⟨current, hlogin⟩ := h
    unfold user
    rw [hlogin]
    apply matches_of_run
    . exact Handler.run_user_of_loggedIn oracle m.calls (name :: args) hlogin
    . rfl
    . cbv

theorem matches_pass {auth : Authenticator} {backend : Backend}
    (hanswered : ∀ past call, (auth.consult backend past call).isSome = true)
    (password : String) (args : List String)
    : Matches
        ((Handler.pass.conduct (password :: args) m.state).run (auth.consult backend) m.calls)
        (pass backend m password) := by
  cases hlogin : m.login with
  | loggedIn current =>
    unfold pass
    rw [hlogin]
    apply matches_of_run
    . exact Handler.run_pass_of_loggedIn _ m.calls (password :: args) hlogin
    . rfl
    . cbv
  | anonymous =>
    unfold pass
    rw [hlogin]
    apply matches_of_run
    . exact Handler.run_pass_of_anonymous _ m.calls (password :: args) hlogin
    . rfl
    . cbv
  | pending name =>
    have hstate : m.state.login = .pending name := hlogin
    unfold pass
    rw [hlogin]
    dsimp only
    obtain ⟨answer, hanswer⟩ := Option.isSome_iff_exists.1 (hanswered m.calls ⟨name, password⟩)
    split
    . next hgranted =>
      have hyes := (auth.consult_eq_ok_true_iff backend m.calls ⟨name, password⟩).2 hgranted
      apply matches_of_run
      . exact Handler.run_pass_of_granted _ m.calls args password hstate hyes
      . rfl
      . cbv
    . next hgranted =>
      have hrefused : answer ≠ .ok true := by
        intro hyes
        rw [hyes, auth.consult_eq_ok_true_iff] at hanswer
        contradiction
      obtain ⟨notes, hrun⟩ :=
        Handler.run_pass_of_refused _ m.calls args password hstate hanswer hrefused
      apply matches_of_run
      . exact hrun
      . rfl
      . cbv

theorem matches_blank {line : String} (h : Text.words line = [])
    : Matches ((Registry.withLogin.handleLine line m.state).run oracle m.calls)
        (m, "500 Syntax error, zero parameters") := by
  unfold Registry.handleLine
  apply Matches.note
  rw [Registry.route_of_blank _ h, Registry.Route.follow]
  apply matches_done
  . rfl
  . cbv

theorem matches_command {auth : Authenticator} {backend : Backend}
    (hanswered : ∀ past call, (auth.consult backend past call).isSome = true)
    {line token : String} {args : List String} (h : Text.words line = token :: args)
    : Matches
        ((Registry.withLogin.handleLine line m.state).run (auth.consult backend) m.calls)
        (command backend m token.toUpper args) := by
  unfold Registry.handleLine command
  apply Matches.note
  rw [Registry.route_of_token _ h, Registry.minArgs_withLogin, Registry.resolve_withLogin]
  split
  . next hverb =>
    cases args with
    | nil =>
      rw [if_pos (by simp), Registry.Route.follow]
      apply Matches.note
      apply matches_done
      . rfl
      . cbv
    | cons arg args =>
      rw [if_neg (by simp), Registry.Route.follow]
      dsimp only
      split
      . next huser => exact matches_user arg args
      . next huser =>
        rw [if_pos (hverb.resolve_left huser)]
        exact matches_pass hanswered arg args
  . next hverb =>
    rw [not_or] at hverb
    rw [if_neg (by simp), if_neg hverb.1, if_neg hverb.2, Registry.Route.follow]
    apply matches_done
    . rfl
    . cbv

theorem matches_step {auth : Authenticator} {backend : Backend}
    (hanswered : ∀ past call, (auth.consult backend past call).isSome = true)
    (welcome : String) (limit : Nat) (line : List UInt8)
    : Matches
        ((({ welcome, maxCommandLength := limit, auth } : SessionSettings).dispatch
          (.ofLine limit line) m.state).run (auth.consult backend) m.calls)
        (step backend limit m line) := by
  unfold Frame.ofLine step
  split
  . next hlength =>
    rw [List.take_of_length_le hlength, SessionSettings.dispatch]
    split
    . next hwords => exact matches_blank hwords
    . next token args hwords =>
      rw [if_neg (by omega)]
      exact matches_command hanswered hwords
  . next hlength =>
    rw [SessionSettings.dispatch]
    dsimp only
    -- The verb is looked for in the bytes that were kept, which is all that the machine sees.
    split
    . next hwords =>
      rw [Registry.handleOverLong_of_not_contains _ _ _ (by simp [hwords])]
      exact matches_blank hwords
    . next token args hwords =>
      split
      . next hlong =>
        rw [Registry.handleOverLong_of_contains _ _ _ hwords
          ((Registry.contains_withLogin token).2 hlong.2)]
        apply Matches.note
        apply matches_done
        . rfl
        . cbv
      . next hlong =>
        have hcontains : Registry.withLogin.contains token = false := by
          rw [← Bool.not_eq_true, Registry.contains_withLogin]
          intro hverb
          exact hlong ⟨by omega, hverb⟩
        rw [Registry.handleOverLong_of_not_contains _ _ _ (by simp [hwords, hcontains])]
        exact matches_command hanswered hwords

structure Mirrors (m : LoginMachine) (xs : List (Exchange Frame))
    (result : LoginMachine × List String) : Prop where
  answered : ∀ x ∈ xs, x.response? ≠ none
  not_closes : ∀ x ∈ xs, x.closes = false
  replies_eq : (xs.filterMap (·.response?)).map (·.reply.wire)
    = result.2.map (fun reply => Text.Utf8.encodeString (reply ++ "\r\n"))
  state_eq : Exchange.last (·.after) m.state xs = result.1.state
  calls_eq : Exchange.last (·.outcome.calls) m.calls xs = result.1.calls
  phase_eq : Exchange.last (·.phase) (.ended .peerClosed) xs = .ended .peerClosed

theorem mirrors_cons {x : Exchange Frame} {xs : List (Exchange Frame)} {next : LoginMachine}
    {reply : String} {result : LoginMachine × List String}
    (hx : Matches x.outcome (next, reply)) (hxs : Mirrors next xs result)
    : Mirrors m (x :: xs) (result.1, reply :: result.2) := by
  obtain ⟨response, hdone, hopen, hencode⟩ := hx.done
  have hcloses : x.closes = false := by
    rw [Exchange.closes_of_done hdone, hopen]
  constructor
  . rw [List.forall_mem_cons, Exchange.response?_of_done hdone]
    exact ⟨Option.some_ne_none response, hxs.answered⟩
  . rw [List.forall_mem_cons]
    exact ⟨hcloses, hxs.not_closes⟩
  . rw [List.filterMap_cons_some (Exchange.response?_of_done hdone), List.map_cons, List.map_cons]
    rw [Reply.wire, hencode, hxs.replies_eq]
  . rw [Exchange.last_cons, Exchange.after_of_done hdone]
    exact hxs.state_eq
  . rw [Exchange.last_cons, hx.calls_eq]
    exact hxs.calls_eq
  . rw [Exchange.last_cons, Exchange.phase_of_done hdone, hopen]
    exact hxs.phase_eq

theorem mirrors_run {auth : Authenticator} {backend : Backend}
    (hanswered : ∀ past call, (auth.consult backend past call).isSome = true)
    (welcome : String) (limit : Nat) (lines : List (List UInt8))
    : Mirrors m
        (exchanges ({ welcome, maxCommandLength := limit, auth } : SessionSettings).dispatch
          (auth.consult backend) m.state m.calls (lines.map (.ofLine limit)))
        (run backend limit m lines) := by
  induction lines generalizing m with
  | nil => constructor <;> simp [exchanges, run]
  | cons line lines ih =>
    have hstep := matches_step (m := m) hanswered welcome limit line
    obtain ⟨response, hdone, _, _⟩ := hstep.done
    rw [List.map_cons]
    rw [exchanges_cons_of_some _ _ _ _ _ _ (Exchange.response?_of_done hdone)]
    apply mirrors_cons
    . exact hstep
    . rw [Exchange.after_of_done hdone]
      rw [show (exchange _ _ _ _ _).outcome.calls = _ from hstep.calls_eq]
      exact ih

end LoginMachine

namespace Session

theorem encode_greeting (welcome : String)
    : Reply.encode ⟨.serviceReady, welcome⟩ = s!"220 {flatten welcome}" ++ "\r\n" := by
  have hnumber : toString 220 ++ " " = "220 " := by cbv
  rw [Reply.encode_eq]
  dsimp only [ReplyCode.number]
  rw [show toString " " = " " from rfl, hnumber]
  rfl

theorem serve_eq_loginMachine (welcome : String) (limit : Nat) (auth : Authenticator)
    (backend : Backend) (control : Channel) (data : Option Channel) (bytes : List UInt8)
    (hlimit : 0 < limit) (hcontrol : control.Faultless)
    (hanswered : ∀ past call, (auth.consult backend past call).isSome = true)
    : let settings : SessionSettings := { welcome, maxCommandLength := limit, auth }
      let s : Session := { settings, control, data }
      let served := s.serve (auth.consult backend) (bytes.map .byte)
      let result := LoginMachine.run backend limit {} (Framer.lines bytes)
      served.2.filterMap Event.frame? = (Framer.lines bytes).map (.ofLine limit)
        ∧
      served.2.filterMap Event.call? = result.1.calls.reverse
        ∧
      served.2.filterMap Event.flushed?
          =
        (s!"220 {flatten welcome}" :: result.2).map
          (fun reply => Text.Utf8.encodeString (reply ++ "\r\n"))
        ∧
      served.1.state = { login := result.1.login }
        ∧
      served.1.calls = result.1.calls
        ∧
      served.1.phase = .ended .peerClosed := by
  intro settings s served result
  have hmirrors : LoginMachine.Mirrors {}
      (exchanges s.settings.dispatch (auth.consult backend) s.state s.calls
        ((Framer.lines bytes).map (.ofLine s.settings.maxCommandLength))) result :=
    LoginMachine.mirrors_run hanswered welcome limit (Framer.lines bytes)
  have hself := Exchange.upToClose_eq_self _ hmirrors.not_closes
  obtain ⟨step, hfollows, hstep, _⟩ :=
    serve_follows (s := s) (auth.consult backend) hcontrol rfl hlimit bytes
  have hserve : ∀ {α : Type} (f : Event → Option α), (∀ bytes, f (.wrote bytes) = none)
      → (∀ note, f (.noted note) = none) → (∀ channel clean, f (.shutDown channel clean) = none)
      → served.2.filterMap f = _ :=
    fun f hwrote hnoted hshutDown => filterMap_serve (s := s) (auth.consult backend) f hwrote hnoted
      hshutDown hcontrol rfl hlimit bytes hself.symm
  have hcalls := hmirrors.calls_eq
  rw [Exchange.last_calls_exchanges, List.append_nil, List.reverse_eq_iff] at hcalls
  rw [hself] at hfollows
  refine ⟨?_, ?_, ?_, ?_, ?_, ?_⟩
  . rw [hserve Event.frame? (fun _ => rfl) (fun _ => rfl) (fun _ _ => rfl),
      Exchange.filterMap_frame?_trace (exists_exchange_of_mem _ _ _ _ _)]
    exact Exchange.map_request_of_answered _ _ _ _ _ hmirrors.answered
  . rw [hserve Event.call? (fun _ => rfl) (fun _ => rfl) (fun _ _ => rfl),
      Exchange.filterMap_call?_trace]
    exact hcalls
  . rw [hserve Event.flushed? (fun _ => rfl) (fun _ => rfl) (fun _ _ => rfl),
      Exchange.filterMap_flushed?_trace (exists_exchange_of_mem _ _ _ _ _), hmirrors.replies_eq,
      List.map_cons, ← encode_greeting]
    rfl
  . exact (congrArg Session.state hstep).trans (hfollows.state_eq.trans hmirrors.state_eq)
  . exact (congrArg Session.calls hstep).trans (hfollows.calls_eq.trans hmirrors.calls_eq)
  . exact (congrArg Session.phase hstep).trans (hfollows.phase_eq.trans hmirrors.phase_eq)

theorem serveFrom64_eq_loginMachine (welcome : String) (limit : Nat) (auth : Authenticator)
    (backend : Backend) (control : Channel) (data : Option Channel) (src : Source)
    (bytes : List UInt8) (hinputs : src.inputs = bytes.map .byte) (hlimit : 0 < limit)
    (hroom : limit + 1 < 2 ^ 64) (hcontrol : control.Faultless)
    (hanswered : ∀ past call, (auth.consult backend past call).isSome = true)
    : let settings : SessionSettings := { welcome, maxCommandLength := limit, auth }
      let s : Session := { settings, control, data }
      let result := LoginMachine.run backend limit {} (Framer.lines bytes)
      ∃ served,
        s.serveFrom64 (auth.consult backend) src = some served
          ∧
        served.2.filterMap Event.flushed?
          =
        (s!"220 {flatten welcome}" :: result.2).map
          (fun reply => Text.Utf8.encodeString (reply ++ "\r\n"))
          ∧
        served.1.state = { login := result.1.login }
          ∧
        served.1.calls = result.1.calls
          ∧
        served.1.phase = .ended .peerClosed := by
  intro settings s result
  refine ⟨_, serveFrom64_eq_serve (s := s) (auth.consult backend) hlimit hroom src, ?_⟩
  rw [hinputs]
  exact (serve_eq_loginMachine welcome limit auth backend control data bytes hlimit hcontrol
    hanswered).2.2

set_option maxRecDepth 10000 in
theorem serveFrom64_eq_loginMachine_retry
    : let backend : Backend := .ofFunction fun call =>
        if call = ⟨"a", "b"⟩ then .granted else .crashed "down"
      let settings : SessionSettings := { welcome := "hi", maxCommandLength := 16 }
      let control : Channel := { name := "control" }
      let s : Session := { settings, control }
      let bytes := Text.Utf8.encodeString "USER a\r\nPASS c\r\nuser a\r\npass b"
      let src : Source := ⟨bytes.take 3, [.ok (bytes.drop 3)]⟩
      src.inputs = bytes.map .byte
        ∧
      0 < settings.maxCommandLength
        ∧
      settings.maxCommandLength + 1 < 2 ^ 64
        ∧
      control.Faultless
        ∧
      (∀ past call, (Authenticator.consult {} backend past call).isSome = true)
        ∧
      ∃ served,
        s.serveFrom64 (Authenticator.consult {} backend) src = some served
          ∧
        served.2.filterMap Event.flushed?
          =
        ["220 hi", "331 User name ok, password required", "530 Incorrect password, not logged in",
          "331 User name ok, password required", "230 Password ok, continue"].map
          (fun reply => Text.Utf8.encodeString (reply ++ "\r\n"))
          ∧
        served.1.state = { login := .loggedIn "a" } := by
  intro backend settings control s bytes src
  have hinputs : src.inputs = bytes.map .byte := by
    dsimp only [src, bytes]
    cbv
  have hcontrol : control.Faultless := Channel.faultless_named _
  have hanswered : ∀ past call, (Authenticator.consult {} backend past call).isSome = true := by
    intro past call
    unfold Authenticator.consult backend Backend.ofFunction
    dsimp only
    split <;> rfl
  have hserve := serveFrom64_eq_loginMachine "hi" 16 {} backend control none src bytes hinputs
    (by decide) (by decide) hcontrol hanswered
  have hgreeting : toString "220 " ++ toString (flatten "hi") = "220 hi" := by cbv
  have hresult : LoginMachine.run backend 16 {} (Framer.lines bytes)
      = (⟨.loggedIn "a", [⟨"a", "b"⟩, ⟨"a", "c"⟩]⟩,
        ["331 User name ok, password required", "530 Incorrect password, not logged in",
          "331 User name ok, password required", "230 Password ok, continue"]) := by
    dsimp only [backend, bytes]
    cbv
  rw [hresult, hgreeting] at hserve
  obtain ⟨served, hserved, hflushed, hstate, _⟩ := hserve
  exact ⟨hinputs, by decide, by decide, hcontrol, hanswered, served, hserved, hflushed, hstate⟩

set_option maxRecDepth 10000 in
theorem serveFrom64_eq_loginMachine_of_largest
    : let backend : Backend := .ofFunction fun _ => .granted
      let settings : SessionSettings := { welcome := "hi", maxCommandLength := 2 ^ 64 - 1 }
      let control : Channel := { name := "control" }
      let s : Session := { settings, control }
      let bytes := Text.Utf8.encodeString "USER a\n"
      let src := Source.ofChunks [bytes]
      src.inputs = bytes.map .byte
        ∧
      control.Faultless
        ∧
      (∀ past call, (Authenticator.consult {} backend past call).isSome = true)
        ∧
      LoginMachine.run backend settings.maxCommandLength {} (Framer.lines bytes)
        =
      (⟨.pending "a", []⟩, ["331 User name ok, password required"])
        ∧
      s.serveFrom64 (Authenticator.consult {} backend) src = none := by
  intro backend settings control s bytes src
  have hinputs : src.inputs = bytes.map .byte := by
    dsimp only [src, bytes]
    cbv
  have hcontrol : control.Faultless := Channel.faultless_named _
  have hlines : Framer.lines bytes = [bytes] := by
    dsimp only [bytes]
    cbv
  have htake : bytes.take settings.maxCommandLength = bytes := by
    apply List.take_of_length_le
    dsimp only [bytes, settings]
    cbv
  refine ⟨hinputs, hcontrol, fun _ _ => rfl, ?_, ?_⟩
  . rw [hlines, LoginMachine.run, LoginMachine.step, htake]
    dsimp only [bytes, settings]
    cbv
  . exact serveFrom64_of_largest _ (by simp [s, settings]) hcontrol src

end Session

end FtpControl
