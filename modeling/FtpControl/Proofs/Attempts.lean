import FtpControl.Proofs.Arity
import FtpControl.Proofs.Dialogue
import FtpControl.Proofs.LoginEffect
import FtpControl.Proofs.Resumption

/-!
This module contains logins whose passwords are checked while the session waits: how many calls have
come to an outcome, what an outcome does to the login, and that nobody gets in without one.
-/

namespace FtpControl

namespace Action

/--
An action for a session in a given state that logs nobody in, unless it asks for the pending name
and settles the login with the answer.
-/
def Minds (st : SessionState) : Action (SessionState × Response) → Prop
  | done (next, _) => ∀ name, next.login = .loggedIn name → st.login = .loggedIn name
  | note _ next => next.Minds st
  | check call next => st.login = .pending call.user ∧ next = Handler.settle call.user st
  | crash => True

variable {st : SessionState}

theorem Refuses.minds {action : Action (SessionState × Response)} (h : action.Refuses st)
    : action.Minds st := by
  induction h with
  | done text => exact fun _ hlogin => hlogin
  | note n h ih => exact ih

theorem Always.minds {action : Action (SessionState × Response)}
    (h : action.Always fun result => result.1.login = st.login) : action.Minds st := by
  induction action with
  | done result =>
    intro name hlogin
    rw [← hlogin]
    exact h.symm
  | note n next ih => exact ih h
  | check call next => contradiction
  | crash => trivial

end Action

namespace Handler

variable (args : List String) (st : SessionState)

theorem minds_user : (user.conduct args st).Minds st := by
  unfold user
  dsimp only
  split
  . exact fun _ hlogin => hlogin
  . unfold Action.argument
    split
    . intro name hlogin
      unfold SessionState.begin Login.begin at hlogin
      dsimp only at hlogin
      split at hlogin
      . next user heq =>
        rw [heq]
        exact hlogin
      . contradiction
    . trivial

theorem minds_pass : (pass.conduct args st).Minds st := by
  unfold pass
  dsimp only
  split
  . exact fun _ hlogin => hlogin
  . exact fun _ hlogin => hlogin
  . next name heq =>
    unfold Action.argument
    split
    . exact ⟨heq, rfl⟩
    . trivial

end Handler

theorem SessionSettings.minds_dispatch (cfg : SessionSettings) (honly : cfg.registry.LoginOnly)
    (frame : Frame) (st : SessionState) : (cfg.dispatch frame st).Minds st := by
  cases hinvocation : cfg.invocation? frame with
  | none => exact (cfg.refuses_dispatch hinvocation st).minds
  | some invocation =>
    obtain ⟨h, args⟩ := invocation
    rw [cfg.dispatch_of_invocation hinvocation st]
    obtain ⟨token, _, ⟨hfound, _⟩ | ⟨_, rfl⟩⟩ := cfg.exists_of_invocation hinvocation
    . rcases honly.handlers _ h hfound with rfl | rfl | hleaves
      . exact Handler.minds_user args st
      . exact Handler.minds_pass args st
      . exact (hleaves args st).minds
    . exact (honly.fallback args st).minds

namespace Session

variable {s : Session} {outcomes : List (Nat × Verdict)}

theorem checking_of_awaited? {past : List Call} {call : Call}
    (h : s.awaited? = some (past, call))
    : s.calls = call :: past ∧ ∃ resume, s.phase = .checking resume := by
  unfold awaited? at h
  split at h
  . next resume found before hphase hcalls =>
    rw [Option.some.injEq, Prod.mk.injEq] at h
    rw [hcalls, h.1, h.2]
    exact ⟨rfl, resume, hphase⟩
  . contradiction

theorem settle_of_awaited? {past : List Call} {call : Call} (h : s.awaited? = some (past, call))
    {resume : Answer → Action (SessionState × Response)} (hphase : s.phase = .checking resume)
    {verdict : Verdict} {a : Answer} (hanswer : s.settings.auth.conclude verdict = some a)
    : s.settle .later past.length verdict = s.perform .later (resume a) := by
  unfold settle
  rw [if_pos (by rw [(checking_of_awaited? h).1, List.length_cons]), hanswer]
  dsimp only
  rw [answer, hphase]

theorem settle_of_not_awaited (oracle : Action.Oracle) {n : Nat}
    (h : ∀ past call, s.awaited? = some (past, call) → past.length ≠ n) (verdict : Verdict)
    : s.settle oracle n verdict = (s, []) := by
  unfold settle
  split
  . next hlast =>
    split
    . unfold answer
      split
      . next resume hphase =>
        obtain ⟨call, past, hcalls⟩ := List.exists_cons_of_length_eq_add_one hlast.symm
        have hawaited : s.awaited? = some (past, call) := by
          unfold awaited?
          rw [hphase, hcalls]
        rw [hcalls, List.length_cons] at hlast
        exact absurd (Nat.succ.inj hlast).symm (h past call hawaited)
      . rfl
    . rfl
  . rfl

def concluded (s : Session) : Nat :=
  match s.awaited? with
  | some (past, _) => past.length
  | none => s.calls.length

theorem concluded_of_awaited? (h : s.awaited? = none) : s.concluded = s.calls.length := by
  unfold concluded
  rw [h]

theorem concluded_perform (s : Session) (action : Action (SessionState × Response))
    : (s.perform .later action).1.concluded = s.calls.length := by
  induction action with
  | done result =>
    obtain ⟨state, response⟩ := result
    have hawaited := awaited?_respond { s with state } response
    exact (concluded_of_awaited? hawaited).trans (by rw [calls_respond])
  | note n next ih => exact ih
  | check call next _ => rfl
  | crash => rfl

theorem concluded_read (hreading : s.isReading = true) (input : Input)
    : (s.read .later input).1.concluded = s.concluded := by
  rw [concluded_of_awaited? (awaited?_of_isReading hreading)]
  obtain ⟨framer, hphase⟩ := exists_of_isReading hreading
  unfold read
  rw [hphase]
  dsimp only
  split
  . rfl
  . apply concluded_perform
  . rfl
  . rfl

theorem concluded_settle {past : List Call} {call : Call} (h : s.awaited? = some (past, call))
    {verdict : Verdict} (hanswer : (s.settings.auth.conclude verdict).isSome = true)
    : (s.settle .later past.length verdict).1.concluded = s.concluded + 1 := by
  obtain ⟨a, ha⟩ := Option.isSome_iff_exists.1 hanswer
  obtain ⟨hcalls, resume, hphase⟩ := checking_of_awaited? h
  rw [settle_of_awaited? h hphase ha, concluded_perform, hcalls, concluded, h]
  rfl

def conclusion (name : String) : Answer → Login
  | .ok true => .loggedIn name
  | _ => .anonymous

-- The calls of a session that lets people in by their passwords only, when the outcomes of the
-- calls are known by their numbers.
structure Honest (outcomes : List (Nat × Verdict)) (s : Session) : Prop where
  loginOnly : s.settings.registry.LoginOnly
  asks : ∀ past call, s.awaited? = some (past, call)
    → s.state.login = .pending call.user ∧ s.phase = .checking (Handler.settle call.user s.state)
  granted : ∀ name, s.state.login = .loggedIn name
    → ∃ n password, (n, .granted) ∈ outcomes ∧ s.calls.reverse[n]? = some ⟨name, password⟩

theorem honest_respond (response : Response) (honly : s.settings.registry.LoginOnly)
    (hgranted : ∀ name, s.state.login = .loggedIn name
      → ∃ n password, (n, .granted) ∈ outcomes ∧ s.calls.reverse[n]? = some ⟨name, password⟩)
    : Honest outcomes (s.respond response).1 := by
  constructor
  . rw [(steady_respond s response).settings_eq]
    exact honly
  . intro past call hawaited
    rw [awaited?_respond] at hawaited
    contradiction
  . rw [state_respond, calls_respond]
    exact hgranted

theorem Honest.perform (h : s.Honest outcomes) {action : Action (SessionState × Response)}
    (hminds : action.Minds s.state) : Honest outcomes (s.perform .later action).1 := by
  induction action with
  | done result =>
    obtain ⟨state, response⟩ := result
    apply honest_respond
    . exact h.loginOnly
    . intro name hlogin
      exact h.granted name (hminds name hlogin)
  | note n next ih => exact ih hminds
  | check call next _ =>
    rw [perform_check_of_none s call next rfl]
    constructor
    . exact h.loginOnly
    . intro past found hawaited
      obtain ⟨hcalls, _⟩ := checking_of_awaited? hawaited
      obtain rfl : call = found := (List.cons.inj hcalls).1
      rw [← hminds.2]
      exact ⟨hminds.1, rfl⟩
    . intro name hlogin
      obtain ⟨n, password, hmem, hcall⟩ := h.granted name hlogin
      refine ⟨n, password, hmem, ?_⟩
      rw [List.reverse_cons, List.getElem?_append_left]
      . exact hcall
      . exact (List.getElem?_eq_some_iff.1 hcall).1
  | crash =>
    constructor
    . exact h.loginOnly
    . intro past found hawaited
      obtain ⟨_, _, hphase⟩ := checking_of_awaited? hawaited
      contradiction
    . exact h.granted

theorem Honest.read (h : s.Honest outcomes) (hreading : s.isReading = true) (input : Input)
    : Honest outcomes (s.read .later input).1 := by
  obtain ⟨framer, hphase⟩ := exists_of_isReading hreading
  unfold Session.read
  rw [hphase]
  dsimp only
  split
  . next next hstep =>
    constructor
    . exact h.loginOnly
    . intro past call hawaited
      contradiction
    . exact h.granted
  . exact h.perform (s.settings.minds_dispatch h.loginOnly _ _)
  all_goals
    constructor
    . exact h.loginOnly
    . intro past call hawaited
      contradiction
    . exact h.granted

theorem exists_perform_settle {name : String} (h : s.state.login = .pending name) (a : Answer)
    : ∃ events response,
        s.perform .later (Handler.settle name s.state a)
          =
        (({ s with state := { s.state with login := conclusion name a } } : Session).respond
          response).after events := by
  have hcomplete : s.state.complete.1 = { s.state with login := .loggedIn name } := by
    unfold SessionState.complete
    rw [h]
    rfl
  have hreject : s.state.reject = { s.state with login := .anonymous } := by
    unfold SessionState.reject
    rw [h]
    rfl
  cases a with
  | error e =>
    rw [Handler.settle, Handler.turnAway, hreject]
    exact ⟨_, _, rfl⟩
  | ok accepted =>
    cases accepted with
    | true =>
      rw [Handler.settle, Handler.accept, hcomplete]
      exact ⟨_, _, rfl⟩
    | false =>
      rw [Handler.settle, Handler.turnAway, hreject]
      exact ⟨_, _, rfl⟩

theorem granted_of_conclusion {auth : Authenticator} {verdict : Verdict} {a : Answer}
    {user name : String} (hanswer : auth.conclude verdict = some a)
    (h : conclusion user a = .loggedIn name) : verdict = .granted ∧ user = name := by
  have hyes : a = .ok true := by
    unfold conclusion at h
    split at h
    . rfl
    . contradiction
  rw [hyes] at hanswer h
  constructor
  . exact (auth.consult_eq_ok_true_iff (fun _ _ => verdict) [] ⟨user, name⟩).1 hanswer
  . exact Login.loggedIn.inj h

theorem Honest.settle (h : s.Honest outcomes) {past : List Call} {call : Call}
    (hawaited : s.awaited? = some (past, call)) {verdict : Verdict} {a : Answer}
    (hanswer : s.settings.auth.conclude verdict = some a)
    : Honest (outcomes ++ [(past.length, verdict)]) (s.settle .later past.length verdict).1 := by
  obtain ⟨hpending, hphase⟩ := h.asks past call hawaited
  obtain ⟨hcalls, _⟩ := checking_of_awaited? hawaited
  obtain ⟨events, response, hperform⟩ := exists_perform_settle hpending a
  rw [settle_of_awaited? hawaited hphase hanswer, hperform, Step.fst_after]
  apply honest_respond
  . exact h.loginOnly
  . intro name hlogin
    obtain ⟨hverdict, huser⟩ := granted_of_conclusion hanswer hlogin
    refine ⟨past.length, call.password, ?_, ?_⟩
    . rw [hverdict]
      simp
    . change s.calls.reverse[_]? = _
      rw [hcalls, List.reverse_cons, ← List.length_reverse, List.getElem?_concat_length, ← huser]

structure Clear (control : Channel) (s : Session) : Prop where
  control_eq : s.control = control
  unflushed_eq : control.Faultless → s.out.unflushed = []

section

variable {control : Channel} (h : s.Clear control)

include h

theorem Clear.sent (hcontrol : control.Faultless) (reply : Reply)
    : (s.control.send s.out reply.wire).fault? = none
        ∧
      s.outAfter reply = s.control.behind s.out reply.wire
        ∧
      visible (s.sent reply) = Exchange.delivered reply := by
  have hout := h.unflushed_eq hcontrol
  rw [← h.control_eq] at hcontrol
  apply sent_of_roomy
  . exact hcontrol.room_ne_zero
  . exact hout
  . apply hcontrol.faultIn_eq_none

theorem Clear.send (reply : Reply) (next : Session → Step)
    (hnext : ∀ s : Session, s.Clear control → (next s).1.Clear control)
    : (s.send reply next).1.Clear control := by
  cases hfault : (s.control.send s.out (Text.Utf8.encodeString reply.encode)).fault? with
  | none =>
    rw [send_of_delivered s reply next hfault]
    apply hnext
    constructor
    . exact h.control_eq
    . intro hcontrol
      exact congrArg Outbox.unflushed (h.sent hcontrol reply).2.1
  | some reason =>
    rw [send_of_fault s reply next reason hfault]
    constructor
    . exact h.control_eq
    . intro hcontrol
      have hnone := (h.sent hcontrol reply).1
      exact absurd (hfault.symm.trans hnone) (Option.some_ne_none reason)

theorem Clear.respond (response : Response) : (s.respond response).1.Clear control := by
  apply h.send
  intro s h
  split
  . exact ⟨h.control_eq, h.unflushed_eq⟩
  . exact ⟨h.control_eq, h.unflushed_eq⟩

theorem Clear.perform (oracle : Action.Oracle) (action : Action (SessionState × Response))
    : (s.perform oracle action).1.Clear control := by
  unfold Session.perform
  dsimp only
  split
  . rw [Step.fst_after]
    apply Clear.respond
    exact ⟨h.control_eq, h.unflushed_eq⟩
  . exact ⟨h.control_eq, h.unflushed_eq⟩
  . exact ⟨h.control_eq, h.unflushed_eq⟩

theorem Clear.read (oracle : Action.Oracle) (input : Input)
    : (s.read oracle input).1.Clear control := by
  unfold Session.read
  split
  . split
    . exact ⟨h.control_eq, h.unflushed_eq⟩
    . exact h.perform oracle _
    . exact ⟨h.control_eq, h.unflushed_eq⟩
    . exact ⟨h.control_eq, h.unflushed_eq⟩
  . exact h

theorem Clear.settle (oracle : Action.Oracle) (n : Nat) (verdict : Verdict)
    : (s.settle oracle n verdict).1.Clear control := by
  unfold Session.settle
  split
  . split
    . unfold answer
      split
      . exact h.perform oracle _
      . exact h
    . exact h
  . exact h

end

structure GivesUp (s : Session) (limit : Duration) (n : Nat) (call : Call) : Prop where
  calls_eq : ∃ past, s.calls = call :: past ∧ past.length = n
  state_eq : (s.settle .later n .silent).1.state = { s.state with login := .anonymous }
  visible_eq : s.control.Faultless
    → visible (s.settle .later n .silent).2
        =
      [.noted ⟨.warn,
          s!"Authentication for {call.user} failed: {(AuthError.timedOut limit).message}"⟩,
        .noted ⟨.info, s!"Login rejected for {call.user}"⟩,
        .flushed (Text.Utf8.encodeString "530 Incorrect password, not logged in\r\n"),
        .noted ⟨.debug, "-> 530 Incorrect password, not logged in"⟩]

theorem settle_silent {limit : Duration} (htimeout : s.settings.auth.timeout = some limit)
    {past : List Call} {call : Call} (hawaited : s.awaited? = some (past, call))
    (hpending : s.state.login = .pending call.user)
    (hphase : s.phase = .checking (Handler.settle call.user s.state))
    : s.settle .later past.length .silent
        =
      (({ s with state := { s.state with login := .anonymous } } : Session).respond
        (.ofText .notLoggedIn "Incorrect password, not logged in")).after
        [.noted ⟨.warn,
            s!"Authentication for {call.user} failed: {(AuthError.timedOut limit).message}"⟩,
          .noted ⟨.info, s!"Login rejected for {call.user}"⟩] := by
  have hanswer : s.settings.auth.conclude .silent = some (.error (.timedOut limit)) := by
    unfold Authenticator.conclude
    rw [htimeout]
    rfl
  have hreject : s.state.reject = { s.state with login := .anonymous } := by
    unfold SessionState.reject
    rw [hpending]
    rfl
  rw [settle_of_awaited? hawaited hphase hanswer, Handler.settle, Handler.turnAway, hreject]
  rfl

theorem Honest.givesUp (h : s.Honest outcomes) {control : Channel} (hclear : s.Clear control)
    {limit : Duration} (htimeout : s.settings.auth.timeout = some limit) {past : List Call}
    {call : Call} (hawaited : s.awaited? = some (past, call))
    : s.GivesUp limit past.length call := by
  obtain ⟨hpending, hphase⟩ := h.asks past call hawaited
  have hsettle := settle_silent htimeout hawaited hpending hphase
  constructor
  . exact ⟨past, (checking_of_awaited? hawaited).1, rfl⟩
  . rw [hsettle]
    apply state_respond
  . intro hcontrol
    let turned : Session := { s with state := { s.state with login := .anonymous } }
    let refusal : Response := .ofText .notLoggedIn "Incorrect password, not logged in"
    have hturned : turned.Clear control := ⟨hclear.control_eq, hclear.unflushed_eq⟩
    rw [hclear.control_eq] at hcontrol
    obtain ⟨hfault, _, hvisible⟩ := hturned.sent hcontrol refusal.reply
    have hencode : refusal.reply.encode = "530 Incorrect password, not logged in\r\n" := by cbv
    have htext : "-> " ++ Text.trimEnd "530 Incorrect password, not logged in\r\n"
        = "-> 530 Incorrect password, not logged in" := by cbv
    have hrespond : (turned.respond refusal).2 = turned.sent refusal.reply := by
      unfold Session.respond
      rw [send_of_delivered turned refusal.reply _ hfault]
      exact List.append_nil _
    rw [hsettle, Step.after, hrespond, visible_append, hvisible, Exchange.delivered, Reply.wire,
      hencode, htext]
    rfl

end Session

end FtpControl
