import FtpControl.Proofs.Arity
import FtpControl.Proofs.Dialogue
import FtpControl.Proofs.LoginMachine

/-!
This module contains what a session does with a line that its peer has not finished. If reading
fails the line is dropped, whatever has come of it; if the peer closes its side it is the last line.
-/

namespace FtpControl

namespace Framer

def finished (bytes : List UInt8) : List (List UInt8) :=
  (lines bytes).filter fun line => line.getLast? == some lf

def unfinished (bytes : List UInt8) : List (List UInt8) :=
  (lines bytes).filter fun line => line.getLast? != some lf

theorem finished_of_not_mem (body : List UInt8) (h : lf ∉ body) : finished body = [] := by
  cases body with
  | nil => rfl
  | cons b rest =>
    rw [finished, lines_of_not_mem _ (by simp) h]
    simp [getLast?_ne_lf h]

theorem unfinished_of_not_mem (body : List UInt8) (hne : body ≠ []) (h : lf ∉ body)
    : unfinished body = [body] := by
  rw [unfinished, lines_of_not_mem _ hne h]
  simp [getLast?_ne_lf h]

theorem finished_append_lf (body rest : List UInt8) (h : lf ∉ body)
    : finished (body ++ lf :: rest) = (body ++ [lf]) :: finished rest := by
  rw [finished, lines_append_lf body rest h]
  simp [finished]

theorem unfinished_append_lf (body rest : List UInt8) (h : lf ∉ body)
    : unfinished (body ++ lf :: rest) = unfinished rest := by
  rw [unfinished, lines_append_lf body rest h]
  simp [unfinished]

theorem lines_eq_finished_append (bytes : List UInt8)
    : lines bytes = finished bytes ++ unfinished bytes ∧ (unfinished bytes).length ≤ 1 := by
  induction bytes using lines_induction with
  | nil => exact ⟨rfl, Nat.zero_le 1⟩
  | tail body hne h =>
    rw [lines_of_not_mem body hne h, finished_of_not_mem body h, unfinished_of_not_mem body hne h]
    exact ⟨rfl, Nat.le_refl 1⟩
  | line body rest h ih =>
    rw [lines_append_lf body rest h, finished_append_lf body rest h,
      unfinished_append_lf body rest h, ih.1]
    exact ⟨rfl, ih.2⟩

theorem parses_failure (limit : Nat) (hlimit : 0 < limit) (bytes : List UInt8) (reason : String)
    (rest : List Input)
    : Parses limit (bytes.map .byte ++ .failure reason :: rest)
        ((finished bytes).map (.ofLine limit)) (.transport (.io reason)) := by
  induction bytes using lines_induction with
  | nil => exact .ended (scan_failure limit _ reason rest) rfl
  | tail body hne h =>
    -- However much of the line has come, and even if it is being drained, the failure ends it.
    have hscan := scan_body limit hlimit [] body h (.failure reason :: rest)
    rw [after_nil, scan_failure] at hscan
    rw [finished_of_not_mem body h]
    exact .ended hscan rfl
  | line body bytes h ih =>
    rw [finished_append_lf body bytes h]
    exact ih.line hlimit h

end Framer

namespace Action

def StaysOpen : Action (SessionState × Response) → Prop
  | done (_, response) => response.closes = false
  | note _ next => next.StaysOpen
  | check _ next => ∀ answer, (next answer).StaysOpen
  | crash => True

theorem StaysOpen.closes_eq {action : Action (SessionState × Response)} (h : action.StaysOpen)
    {oracle : Oracle} {past : List Call} {st : SessionState} {response : Response}
    (hstop : (action.run oracle past).stop = .done (st, response)) : response.closes = false := by
  induction action generalizing past with
  | done result =>
    rw [run, Stop.done.injEq] at hstop
    rw [hstop] at h
    exact h
  | note n next ih => exact ih h hstop
  | check call next ih =>
    rw [run] at hstop
    split at hstop
    . next answer _ => exact ih answer (h answer) hstop
    . contradiction
  | crash => contradiction

theorem Refuses.staysOpen {st : SessionState} {action : Action (SessionState × Response)}
    (h : action.Refuses st) : action.StaysOpen := by
  induction h with
  | done text => rfl
  | note n h ih => exact ih

end Action

def Handler.StaysOpen (h : Handler) : Prop :=
  ∀ args st, (h.conduct args st).StaysOpen

structure Registry.StaysOpen (r : Registry) : Prop where
  handlers : r.All Handler.StaysOpen
  fallback : r.fallback.StaysOpen

theorem Handler.staysOpen_user : Handler.user.StaysOpen := by
  intro args st
  unfold user
  dsimp only
  split
  . rfl
  . unfold Action.argument
    split
    . rfl
    . trivial

theorem Handler.staysOpen_pass : Handler.pass.StaysOpen := by
  intro args st
  unfold pass
  dsimp only
  split
  . rfl
  . rfl
  . unfold Action.argument
    split
    . intro answer
      unfold settle
      split <;> rfl
    . trivial

theorem Registry.staysOpen_withLogin : Registry.withLogin.StaysOpen := by
  constructor
  . exact all_withLogin Handler.staysOpen_user Handler.staysOpen_pass
  . intro args st
    rfl

theorem SessionSettings.staysOpen_dispatch (cfg : SessionSettings) (hopen : cfg.registry.StaysOpen)
    (frame : Frame) (st : SessionState) : (cfg.dispatch frame st).StaysOpen := by
  cases hinvocation : cfg.invocation? frame with
  | none => exact (cfg.refuses_dispatch hinvocation st).staysOpen
  | some invocation =>
    obtain ⟨h, args⟩ := invocation
    rw [cfg.dispatch_of_invocation hinvocation st]
    obtain ⟨token, _, ⟨hfound, _⟩ | ⟨_, rfl⟩⟩ := cfg.exists_of_invocation hinvocation
    . exact hopen.handlers _ h hfound args st
    . exact hopen.fallback args st

namespace Exchange

variable {ρ : Type} {answer : ρ → SessionState → Action (SessionState × Response)}
  {oracle : Action.Oracle} {xs : List (Exchange ρ)}

theorem closes_of_staysOpen (hopen : ∀ request st, (answer request st).StaysOpen)
    (st : SessionState) (past : List Call) (requests : List ρ)
    : ∀ x ∈ exchanges answer oracle st past requests, x.closes = false := by
  intro x hx
  obtain ⟨before, earlier, heq⟩ := exists_exchange_of_mem answer oracle st past requests x hx
  cases hresponse : x.response? with
  | none =>
    unfold closes
    rw [hresponse]
    rfl
  | some response =>
    have hstop := done_of_response? hresponse
    rw [closes_of_done hstop]
    rw [heq] at hstop
    exact (hopen _ _).closes_eq hstop

theorem answered_of_runs (hruns : ∀ request st, (answer request st).Runs)
    (hanswers : ∀ past call, oracle past call ≠ none) (st : SessionState) (past : List Call)
    (requests : List ρ)
    : ∀ x ∈ exchanges answer oracle st past requests, x.response? ≠ none := by
  intro x hx
  obtain ⟨before, earlier, heq⟩ := exists_exchange_of_mem answer oracle st past requests x hx
  obtain ⟨⟨next, response⟩, hstop⟩ :=
    (hruns x.request before).exists_done hanswers earlier
  rw [heq, response?_of_done hstop]
  exact Option.some_ne_none response

theorem phaseBy_of_open (ending : Reason) {x : Exchange ρ} (hanswered : x.response? ≠ none)
    (hopen : x.closes = false) : x.phaseBy ending = .ended ending := by
  obtain ⟨response, hresponse⟩ := Option.ne_none_iff_exists'.1 hanswered
  have hstop := done_of_response? hresponse
  rw [closes_of_done hstop] at hopen
  rw [phaseBy_of_done ending hstop, hopen]
  rfl

theorem last_eq_of_forall_mem {α : Type} {f : Exchange ρ → α} {d : α} (h : ∀ x ∈ xs, f x = d)
    : last f d xs = d := by
  induction xs with
  | nil => rfl
  | cons x xs ih =>
    rw [last_cons, h x (.head _)]
    exact ih fun y hy => h y (.tail _ hy)

end Exchange

namespace Session

structure WorksThrough (s : Session) (ending : Reason) (frames : List Frame)
    (results : List (Exchange Frame)) (step : Step) : Prop where
  visible_eq : visible step.2
    = .noted .connectionEstablished :: Exchange.delivered ⟨.serviceReady, s.settings.welcome⟩
        ++ results.flatMap (·.trace) ++ s.farewell step.1.phase
  frames_eq : step.2.filterMap Event.frame? = frames.take results.length
  calls_eq : step.2.filterMap Event.call? = results.flatMap (·.calls)
  flushed_eq : step.2.filterMap Event.flushed?
    = Reply.wire ⟨.serviceReady, s.settings.welcome⟩
        :: (results.filterMap (·.response?)).map (·.reply.wire)
  state_eq : step.1.state = Exchange.last (·.after) s.state results
  phase_eq : step.1.phase = Exchange.last (·.phaseBy ending) (.ended ending) results
  of_answered : (∀ x ∈ results, x.response? ≠ none)
    → step.2.filterMap Event.frame? = frames
        ∧ (step.2.filterMap Event.flushed?).length = frames.length + 1
        ∧ ∀ log : ConnectionLog, step.1.termination? log
          = some ⟨log.session, log.peer, ending, Exchange.last (·.after) s.state results⟩

variable {cfg : SessionSettings} {control : Channel}

theorem hear_worksThrough (data : Option Channel) (oracle : Action.Oracle)
    (hopen : cfg.registry.StaysOpen) (hwrite : ∀ n, control.fault .write n = none)
    (hflush : ∀ n, control.fault .flush n = none) (hroom : control.Roomy) {inputs : List Input}
    {frames : List Frame} {ending : Reason}
    (hparses : Framer.Parses cfg.maxCommandLength inputs frames ending)
    : let s : Session := { settings := cfg, control, data }
      s.WorksThrough ending frames (exchanges cfg.dispatch oracle .initial [] frames)
        (s.hear oracle inputs) := by
  intro s
  let greeting : Response := ⟨⟨.serviceReady, cfg.welcome⟩, false⟩
  let xs := exchanges cfg.dispatch oracle .initial [] frames
  have hxs : ∀ x ∈ xs, ∃ st past, x = FtpControl.exchange cfg.dispatch oracle st past x.request :=
    exists_exchange_of_mem _ _ _ _ _
  have hcloses : ∀ x ∈ xs, x.closes = false :=
    Exchange.closes_of_staysOpen (cfg.staysOpen_dispatch hopen) _ _ _
  have hupToClose : Exchange.upToClose xs = xs := Exchange.upToClose_eq_self xs hcloses
  have hdialogue : Exchange.Dialogue cfg.dispatch oracle .initial [] greeting frames xs := by
    rw [← hupToClose]
    exact Exchange.dialogue_upToClose rfl frames
  have hfinal := converse_concludes (s := s) ending hdialogue rfl rfl rfl hroom rfl
    (Channel.faultIn_schedule hwrite hflush _ _)
  have hrequests : xs.map (·.request) = frames.take xs.length := by
    have hmap := Exchange.map_request_upToClose cfg.dispatch oracle .initial [] frames
    rw [hupToClose] at hmap
    exact hmap
  rw [hear_of_parses oracle s hparses]
  have hframes := hfinal.filterMap_frame? hxs
  have hflushed := hfinal.filterMap_flushed? hxs
  rw [Exchange.map_wire_replies] at hflushed
  refine ⟨?_, ?_, hfinal.filterMap_call?, hflushed, hfinal.state_eq, hfinal.phase_eq, ?_⟩
  . rw [Step.after, List.singleton_append, visible_noted_cons, hfinal.visible_eq]
    rfl
  . exact hframes.trans hrequests
  . intro hanswered
    have hall := Exchange.map_request_of_answered _ _ _ _ _ hanswered
    have hphase : Exchange.last (·.phaseBy ending) (.ended ending) xs = .ended ending := by
      apply Exchange.last_eq_of_forall_mem
      intro x hx
      exact Exchange.phaseBy_of_open ending (hanswered x hx) (hcloses x hx)
    have hresponses : (xs.filterMap (·.response?)).length = xs.length := by
      apply List.filterMap_length_eq_length.2
      intro x hx
      exact Option.isSome_iff_ne_none.2 (hanswered x hx)
    refine ⟨hframes.trans hall, ?_, ?_⟩
    . apply (congrArg List.length hflushed).trans
      rw [List.length_cons, List.length_map, hresponses, ← hall, List.length_map]
    . intro log
      rw [Step.fst_after, termination?, hfinal.phase_eq.trans hphase, hfinal.state_eq]

/--
A session whose handlers never ask to close. Behind some bytes reading fails, and only the lines
that have their LF are worked on; or the input ends there, and what is behind the last LF is one
more line.
-/
theorem serveFrom64_drops_unfinished (cfg : SessionSettings) (control : Channel)
    (data : Option Channel) (oracle : Action.Oracle) (hlimit : 0 < cfg.maxCommandLength)
    (hcount : cfg.maxCommandLength + 1 < 2 ^ 64) (hopen : cfg.registry.StaysOpen)
    (hwrite : ∀ n, control.fault .write n = none) (hflush : ∀ n, control.fault .flush n = none)
    (hroom : ∀ n, control.room n ≠ some 0) (bytes : List UInt8)
    : let s : Session := { settings := cfg, control, data }
      let finished := (Framer.finished bytes).map (.ofLine cfg.maxCommandLength)
      let unfinished := (Framer.unfinished bytes).map (.ofLine cfg.maxCommandLength)
      (∀ (reason : String) (rest : List Input) (src : Source),
        src.inputs = bytes.map .byte ++ .failure reason :: rest
          →
        ∃ served,
          s.serveFrom64 oracle src = some served
            ∧
          s.WorksThrough (.transport (.io reason)) finished
            (exchanges cfg.dispatch oracle .initial [] finished) served)
        ∧
      (∀ (n : Nat) (src : Source),
        src.inputs = bytes.map .byte ++ List.replicate n .eof
          →
        ∃ served,
          s.serveFrom64 oracle src = some served
            ∧
          s.WorksThrough .peerClosed (finished ++ unfinished)
            (exchanges cfg.dispatch oracle .initial [] (finished ++ unfinished)) served)
        ∧
      ((∀ frame st, (cfg.dispatch frame st).Runs)
          →
        (∀ past call, oracle past call ≠ none)
          →
        ∀ frames, ∀ x ∈ exchanges cfg.dispatch oracle .initial [] frames, x.response? ≠ none)
        ∧
      Framer.lines bytes = Framer.finished bytes ++ Framer.unfinished bytes
        ∧
      (Framer.unfinished bytes).length ≤ 1 := by
  intro s finished unfinished
  obtain ⟨hlines, hlength⟩ := Framer.lines_eq_finished_append bytes
  refine ⟨?_, ?_, ?_, hlines, hlength⟩
  . intro reason rest src hinputs
    refine ⟨_, serveFrom64_eq_serve (s := s) oracle hlimit hcount src, ?_⟩
    rw [hinputs]
    apply hear_worksThrough data oracle hopen hwrite hflush hroom
    rw [List.append_assoc, List.cons_append]
    exact Framer.parses_failure _ hlimit bytes reason _
  . intro n src hinputs
    refine ⟨_, serveFrom64_eq_serve (s := s) oracle hlimit hcount src, ?_⟩
    have hparses := Framer.parses_eof _ hlimit bytes n
    rw [hlines, List.map_append] at hparses
    rw [hinputs]
    apply hear_worksThrough data oracle hopen hwrite hflush hroom
    rw [List.append_assoc, lastingEnd, List.replicate_append_replicate]
    exact hparses
  . intro hruns hanswers frames
    exact Exchange.answered_of_runs hruns hanswers _ _ frames

set_option maxRecDepth 10000 in
theorem serveFrom64_drops_unfinished_password
    : let cfg : SessionSettings := { welcome := "hi", maxCommandLength := 16 }
      let control : Channel := { name := "control" }
      let backend : Backend := .ofFunction fun _ => .granted
      let oracle := Authenticator.consult {} backend
      let s : Session := { settings := cfg, control }
      let user := Text.Utf8.encodeString "USER a\n"
      let pass := Text.Utf8.encodeString "PASS b"
      let broken : Source := ⟨user, [.ok (pass.take 1), .ok (pass.drop 1), .error "reset"]⟩
      let ended : Source := ⟨[], [.ok user, .ok pass]⟩
      0 < cfg.maxCommandLength
        ∧
      cfg.maxCommandLength + 1 < 2 ^ 64
        ∧
      cfg.registry.StaysOpen
        ∧
      (∀ n, control.fault .write n = none)
        ∧
      (∀ n, control.fault .flush n = none)
        ∧
      (∀ n, control.room n ≠ some 0)
        ∧
      broken.inputs = (user ++ pass).map .byte ++ [.failure "reset"]
        ∧
      (∃ served,
        s.serveFrom64 oracle broken = some served
          ∧
        served.2.filterMap Event.frame? = [.line user]
          ∧
        served.2.filterMap Event.call? = []
          ∧
        ∀ log : ConnectionLog, served.1.termination? log
          = some ⟨log.session, log.peer, .transport (.io "reset"), { login := .pending "a" }⟩)
        ∧
      ended.inputs = (user ++ pass).map .byte ++ List.replicate 0 .eof
        ∧
      ∃ served,
        s.serveFrom64 oracle ended = some served
          ∧
        served.2.filterMap Event.frame? = [.line user, .line pass]
          ∧
        served.2.filterMap Event.call? = [⟨"a", "b"⟩]
          ∧
        ∀ log : ConnectionLog, served.1.termination? log
          = some ⟨log.session, log.peer, .peerClosed, { login := .loggedIn "a" }⟩ := by
  intro cfg control backend oracle s user pass broken ended
  have hopen : cfg.registry.StaysOpen := Registry.staysOpen_withLogin
  have hroom : ∀ n, control.room n ≠ some 0 := by simp [control]
  obtain ⟨hfailure, heof, hruns, _⟩ := serveFrom64_drops_unfinished cfg control none oracle
    (by decide) (by decide) hopen (fun _ => rfl) (fun _ => rfl) hroom (user ++ pass)
  have huser : user = [85, 83, 69, 82, 32, 97, 10] := by
    dsimp only [user]
    cbv
  have hpass : pass = [80, 65, 83, 83, 32, 98] := by
    dsimp only [pass]
    cbv
  have hinputs : broken.inputs = (user ++ pass).map .byte ++ [.failure "reset"] := by
    dsimp only [broken]
    rw [huser, hpass]
    rfl
  have hinputs' : ended.inputs = (user ++ pass).map .byte ++ List.replicate 0 .eof := by
    dsimp only [ended]
    rw [huser, hpass]
    rfl
  obtain ⟨first, hserved, hbroken⟩ := hfailure "reset" [] broken hinputs
  obtain ⟨second, hserved', hended⟩ := heof 0 ended hinputs'
  have hconsulted : ∀ past call, (Authenticator.consult {} backend past call).isSome = true :=
    fun _ _ => rfl
  have hanswered := hruns (cfg.runs_dispatch Registry.careful_withLogin) fun past call =>
    Option.isSome_iff_ne_none.1 (hconsulted past call)
  have hfinished : (Framer.finished (user ++ pass)).map (Frame.ofLine cfg.maxCommandLength)
      = [.line user] := by
    rw [huser, hpass]
    cbv
  have hunfinished : (Framer.unfinished (user ++ pass)).map (Frame.ofLine cfg.maxCommandLength)
      = [.line pass] := by
    rw [huser, hpass]
    cbv
  rw [hfinished] at hbroken
  rw [hfinished, hunfinished] at hended
  have hfirst : LoginMachine.Mirrors {} (exchanges cfg.dispatch oracle .initial [] [.line user])
      (⟨.pending "a", []⟩, ["331 User name ok, password required"]) := by
    have hrun : LoginMachine.run backend 16 {} [user]
        = (⟨.pending "a", []⟩, ["331 User name ok, password required"]) := by
      rw [huser]
      dsimp only [backend]
      cbv
    rw [← hrun]
    exact LoginMachine.mirrors_run hconsulted "hi" 16 [user]
  have hboth : LoginMachine.Mirrors {}
      (exchanges cfg.dispatch oracle .initial [] [.line user, .line pass])
      (⟨.loggedIn "a", [⟨"a", "b"⟩]⟩,
        ["331 User name ok, password required", "230 Password ok, continue"]) := by
    have hrun : LoginMachine.run backend 16 {} [user, pass]
        = (⟨.loggedIn "a", [⟨"a", "b"⟩]⟩,
          ["331 User name ok, password required", "230 Password ok, continue"]) := by
      rw [huser, hpass]
      dsimp only [backend]
      cbv
    rw [← hrun]
    exact LoginMachine.mirrors_run hconsulted "hi" 16 [user, pass]
  have hcalls := hfirst.calls_eq
  have hcalls' := hboth.calls_eq
  rw [Exchange.last_calls_exchanges, List.append_nil, List.reverse_eq_iff] at hcalls hcalls'
  obtain ⟨hframes, _, htermination⟩ := hbroken.of_answered (hanswered _)
  obtain ⟨hframes', _, htermination'⟩ := hended.of_answered (hanswered _)
  refine ⟨by decide, by decide, hopen, fun _ => rfl, fun _ => rfl, hroom, hinputs,
    ⟨first, hserved, hframes, ?_, ?_⟩, hinputs', second, hserved', hframes', ?_, ?_⟩
  . exact hbroken.calls_eq.trans hcalls
  . intro log
    apply (htermination log).trans
    exact congrArg (fun state => some (Termination.mk _ _ _ state)) hfirst.state_eq
  . exact hended.calls_eq.trans hcalls'
  . intro log
    apply (htermination' log).trans
    exact congrArg (fun state => some (Termination.mk _ _ _ state)) hboth.state_eq

theorem serveFrom64_drops_unfinished_of_largest
    : let cfg : SessionSettings := { welcome := "hi", maxCommandLength := 2 ^ 64 - 1 }
      let control : Channel := { name := "control" }
      let s : Session := { settings := cfg, control }
      let src : Source := ⟨[10], [.error "reset"]⟩
      cfg.registry.StaysOpen
        ∧
      control.Faultless
        ∧
      src.inputs = [10].map .byte ++ [.failure "reset"]
        ∧
      (Framer.finished [10]).map (Frame.ofLine cfg.maxCommandLength) = [.line [10]]
        ∧
      s.serveFrom64 .later src = none := by
  intro cfg control s src
  have hcontrol : control.Faultless := Channel.faultless_named _
  have hfinished : Framer.finished [10] = [[10]] := by decide
  refine ⟨Registry.staysOpen_withLogin, hcontrol, rfl, ?_, ?_⟩
  . simp [hfinished, Frame.ofLine, cfg]
  . exact serveFrom64_of_largest _ (by simp [s, cfg]) hcontrol src

end Session

end FtpControl
