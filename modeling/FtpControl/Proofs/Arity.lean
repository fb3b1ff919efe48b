import FtpControl.Handler.Stock
import FtpControl.Proofs.Dispatch

/-!
This module contains the arity of handlers. A registered handler always gets the arguments that it
needs. The fallback gets what there is, so a fallback that needs arguments may reach for one in
vain, and that takes the session with it.
-/

namespace FtpControl

namespace Action

def Runs {α : Type} : Action α → Prop
  | done _ => True
  | note _ next => next.Runs
  | check _ next => ∀ answer, (next answer).Runs
  | crash => False

theorem Runs.not_crashed {α : Type} {action : Action α} (h : action.Runs) (oracle : Oracle)
    (past : List Call) : (action.run oracle past).stop ≠ .crashed := by
  induction action generalizing past with
  | done result => simp [Action.run]
  | note n next ih => exact ih h past
  | check call next ih =>
    rw [Action.run]
    split
    . next answer _ => exact ih answer (h answer) (call :: past)
    . simp
  | crash => contradiction

theorem Runs.exists_done {α : Type} {action : Action α} (h : action.Runs) {oracle : Oracle}
    (hanswers : ∀ past call, oracle past call ≠ none) (past : List Call)
    : ∃ result, (action.run oracle past).stop = .done result := by
  induction action generalizing past with
  | done result => exact ⟨result, rfl⟩
  | note n next ih => exact ih h past
  | check call next ih =>
    rw [Action.run]
    split
    . next answer _ => exact ih answer (h answer) (call :: past)
    . next hnone => exact absurd hnone (hanswers past call)
  | crash => contradiction

theorem Runs.resume {α : Type} {action : Action α} (h : action.Runs) {oracle : Oracle}
    {past : List Call} {resume : Answer → Action α}
    (hstop : (action.run oracle past).stop = .waiting resume) (answer : Answer)
    : (resume answer).Runs := by
  induction action generalizing past with
  | done result => simp [Action.run] at hstop
  | note n next ih => exact ih h hstop
  | check call next ih =>
    rw [Action.run] at hstop
    split at hstop
    . next found _ => exact ih found (h found) hstop
    . rw [Stop.waiting.injEq] at hstop
      rw [← hstop]
      exact h answer
  | crash => contradiction

theorem Refuses.runs {st : SessionState} {action : Action (SessionState × Response)}
    (h : action.Refuses st) : action.Runs := by
  induction h with
  | done text => trivial
  | note n h ih => exact ih

end Action

def Handler.Careful (h : Handler) : Prop :=
  ∀ args st, h.minArgs ≤ args.length → (h.conduct args st).Runs

theorem Handler.careful_probe (code : ReplyCode)
    : (Handler.needing 2 (.probe code)).Careful := by
  intro args st hargs
  match args, hargs with
  | name :: password :: rest, _ =>
    intro answer
    trivial

theorem Handler.careful_user : Handler.user.Careful := by
  intro args st hargs
  unfold user
  dsimp only
  split
  . trivial
  . rw [Action.argument, List.getElem?_eq_getElem hargs]
    trivial

theorem Handler.careful_pass : Handler.pass.Careful := by
  intro args st hargs
  unfold pass
  dsimp only
  split
  . trivial
  . trivial
  . rw [Action.argument, List.getElem?_eq_getElem hargs]
    intro answer
    unfold settle
    split <;> trivial

namespace Registry

def All (p : Handler → Prop) (r : Registry) : Prop :=
  ∀ (verb : String) h, r.handlers[verb]? = some h → p h

theorem all_empty (p : Handler → Prop) : Registry.empty.All p := by
  intro verb h hfound
  unfold empty at hfound
  rw [Std.TreeMap.getElem?_emptyc] at hfound
  contradiction

theorem All.register {p : Handler → Prop} {r : Registry} (hr : r.All p) (verb : String)
    {h : Handler} (hh : p h) : (r.register verb h).All p := by
  intro other found hfound
  unfold Registry.register at hfound
  rw [Std.TreeMap.getElem?_insert] at hfound
  split at hfound
  . rw [← Option.some.inj hfound]
    exact hh
  . exact hr other found hfound

theorem all_withLogin {p : Handler → Prop} (huser : p .user) (hpass : p .pass)
    : Registry.withLogin.All p :=
  ((all_empty p).register "USER" huser).register "PASS" hpass

-- All handlers are careful, and the fallback is so without any arguments.
structure Careful (r : Registry) : Prop where
  handlers : ∀ (verb : String) h, r.handlers[verb]? = some h → h.Careful
  fallback : r.fallback.Careful
  minArgs_fallback : r.fallback.minArgs = 0

structure Returns (r : Registry) : Prop where
  handlers : r.All Handler.Careful
  fallback : ∀ args st, (r.fallback.conduct args st).Runs

theorem Careful.returns {r : Registry} (h : r.Careful) : r.Returns := by
  constructor
  . exact h.handlers
  . intro args st
    apply h.fallback
    rw [h.minArgs_fallback]
    apply Nat.zero_le

theorem Careful.register {r : Registry} (hr : r.Careful) (verb : String) {h : Handler}
    (hh : h.Careful) : (r.register verb h).Careful := by
  constructor
  . exact All.register hr.handlers verb hh
  . exact hr.fallback
  . exact hr.minArgs_fallback

theorem Careful.setFallback {r : Registry} (hr : r.Careful) {h : Handler} (hh : h.Careful)
    (hminArgs : h.minArgs = 0) : (r.setFallback h).Careful := by
  constructor
  . exact hr.handlers
  . exact hh
  . exact hminArgs

theorem careful_empty : Registry.empty.Careful := by
  constructor
  . exact all_empty _
  . intro args st _
    trivial
  . rfl

theorem careful_withLogin : Registry.withLogin.Careful :=
  (careful_empty.register "USER" Handler.careful_user).register "PASS" Handler.careful_pass

end Registry

namespace SessionSettings

variable (cfg : SessionSettings) {frame : Frame} {h : Handler} {args : List String}

theorem exists_of_invocation (hinvocation : cfg.invocation? frame = some (h, args))
    : ∃ token,
        Text.words (text frame) = token :: args
          ∧
        ((cfg.registry.handlers[token.toUpper]? = some h ∧ h.minArgs ≤ args.length)
          ∨
        (cfg.registry.handlers[token.toUpper]? = none ∧ h = cfg.registry.fallback)) := by
  cases hwords : Text.words (text frame) with
  | nil =>
    rw [cfg.invocation?_of_blank hwords] at hinvocation
    contradiction
  | cons token found =>
    cases hfound : cfg.registry.handlers[token.toUpper]? with
    | none =>
      rw [cfg.invocation?_of_fallback hwords hfound] at hinvocation
      rw [Option.some.injEq, Prod.mk.injEq] at hinvocation
      obtain ⟨rfl, rfl⟩ := hinvocation
      exact ⟨token, rfl, .inr ⟨hfound, rfl⟩⟩
    | some registered =>
      cases frame with
      | line bytes =>
        rw [cfg.invocation?_line_of_registered hwords hfound] at hinvocation
        split at hinvocation
        . contradiction
        . next hless =>
          rw [Option.some.injEq, Prod.mk.injEq] at hinvocation
          obtain ⟨rfl, rfl⟩ := hinvocation
          exact ⟨token, rfl, .inl ⟨hfound, Nat.not_lt.1 hless⟩⟩
      | overLong kept =>
        rw [cfg.invocation?_overLong_of_registered hwords hfound] at hinvocation
        contradiction

theorem runs_dispatch_of_returns (hreturns : cfg.registry.Returns) (frame : Frame)
    (st : SessionState) : (cfg.dispatch frame st).Runs := by
  cases hinvocation : cfg.invocation? frame with
  | none => exact (cfg.refuses_dispatch hinvocation st).runs
  | some invocation =>
    obtain ⟨h, args⟩ := invocation
    rw [cfg.dispatch_of_invocation hinvocation st]
    obtain ⟨token, _, ⟨hfound, hargs⟩ | ⟨_, rfl⟩⟩ := cfg.exists_of_invocation hinvocation
    . exact hreturns.handlers _ h hfound args st hargs
    . exact hreturns.fallback args st

theorem runs_dispatch (hcareful : cfg.registry.Careful) (frame : Frame) (st : SessionState)
    : (cfg.dispatch frame st).Runs :=
  cfg.runs_dispatch_of_returns hcareful.returns frame st

end SessionSettings

namespace Session

structure Upright (s : Session) : Prop where
  careful : s.settings.registry.Careful
  not_crashed : s.phase ≠ .crashed
  runs : ∀ resume, s.phase = .checking resume → ∀ answer, (resume answer).Runs

variable {s : Session} (hcareful : s.settings.registry.Careful)

include hcareful

theorem upright_finish (reason : Reason) : (s.finish reason).1.Upright := by
  constructor
  . exact hcareful
  . simp [finish]
  . simp [finish]

theorem upright_awaitLine : s.awaitLine.1.Upright := by
  constructor
  . exact hcareful
  . simp [awaitLine]
  . simp [awaitLine]

theorem upright_send (reply : Reply) (next : Session → Step)
    (hnext : ∀ s : Session, s.settings.registry.Careful → (next s).1.Upright)
    : (s.send reply next).1.Upright := by
  unfold send
  dsimp only
  split
  . rw [Step.fst_after]
    apply upright_finish
    exact hcareful
  . exact hnext _ hcareful

theorem upright_respond (response : Response) : (s.respond response).1.Upright := by
  apply upright_send hcareful
  intro s hcareful
  split
  . exact upright_finish hcareful _
  . exact upright_awaitLine hcareful

theorem upright_perform (oracle : Action.Oracle) {action : Action (SessionState × Response)}
    (hruns : action.Runs) : (s.perform oracle action).1.Upright := by
  unfold perform
  dsimp only
  split
  . rw [Step.fst_after]
    apply upright_respond
    exact hcareful
  . next resume hstop =>
    constructor
    . exact hcareful
    . simp
    . intro found hphase
      simp only [Step.fst_after, Phase.checking.injEq] at hphase
      rw [← hphase]
      exact hruns.resume hstop
  . next hstop => exact absurd hstop (hruns.not_crashed oracle s.calls)

omit hcareful

theorem Upright.read (h : s.Upright) (oracle : Action.Oracle) (input : Input)
    : (s.read oracle input).1.Upright := by
  unfold Session.read
  split
  . split
    . constructor
      . exact h.careful
      . simp
      . simp
    . exact upright_perform h.careful oracle (s.settings.runs_dispatch h.careful _ _)
    . exact upright_finish h.careful _
    . exact upright_finish h.careful _
  . exact h

theorem Upright.run (h : s.Upright) (oracle : Action.Oracle) (inputs : List Input)
    : (s.run oracle inputs).1.Upright := by
  induction inputs generalizing s with
  | nil => exact h
  | cons input inputs ih => exact ih (h.read oracle input)

theorem upright_start (hcareful : s.settings.registry.Careful) : s.start.1.Upright := by
  apply upright_send hcareful
  intro s hcareful
  exact upright_awaitLine hcareful

/--
A registered handler gets the arguments that it needs, and so does every handler if the fallback
needs none. Then no line brings down a session whose handlers reach for no other arguments.
-/
theorem serve_arity (cfg : SessionSettings)
    : (∀ frame st,
        cfg.invocation? frame = none
          →
        (cfg.dispatch frame st).Refuses st)
        ∧
      (∀ frame h args,
        cfg.invocation? frame = some (h, args)
          →
        (∀ st,
          cfg.dispatch frame st
            =
          .note (.command (Text.stripLineEnding (SessionSettings.text frame))) (h.conduct args st))
          ∧
        ∃ token,
          Text.words (SessionSettings.text frame) = token :: args
            ∧
          ((cfg.registry.handlers[token.toUpper]? = some h ∧ h.minArgs ≤ args.length)
            ∨
          (cfg.registry.handlers[token.toUpper]? = none ∧ h = cfg.registry.fallback)))
        ∧
      (cfg.registry.fallback.minArgs = 0
          →
        ∀ frame h args, cfg.invocation? frame = some (h, args) → h.minArgs ≤ args.length)
        ∧
      (cfg.registry.Careful
          →
        ∀ (control : Channel) (data : Option Channel) (oracle : Action.Oracle)
            (inputs : List Input),
          let s : Session := { settings := cfg, control, data }
          (s.serve oracle inputs).1.phase ≠ .crashed) := by
  refine ⟨?_, ?_, ?_, ?_⟩
  . intro frame st hinvocation
    exact cfg.refuses_dispatch hinvocation st
  . intro frame h args hinvocation
    exact ⟨cfg.dispatch_of_invocation hinvocation, cfg.exists_of_invocation hinvocation⟩
  . intro hminArgs frame h args hinvocation
    obtain ⟨token, _, ⟨_, hargs⟩ | ⟨_, rfl⟩⟩ := cfg.exists_of_invocation hinvocation
    . exact hargs
    . rw [hminArgs]
      apply Nat.zero_le
  . intro hcareful control data oracle inputs s
    have hstart : s.start.1.Upright := upright_start hcareful
    exact (hstart.run oracle (inputs ++ lastingEnd)).not_crashed

theorem serve_arity_registered
    : let cfg : SessionSettings :=
        { welcome := "hi"
          maxCommandLength := 16
          registry := (Registry.empty.register "CHK" (.needing 2 (.probe .serviceReady))).setFallback
            .unknown }
      let s : Session := { settings := cfg, control := { name := "control" } }
      cfg.registry.Careful
        ∧
      cfg.registry.fallback.minArgs = 0
        ∧
      (∀ frame h args, cfg.invocation? frame = some (h, args) → h.minArgs ≤ args.length)
        ∧
      (s.serve .later ((Text.Utf8.encodeString "chk\nchk a b\n").map .byte)).1.phase ≠ .crashed := by
  intro cfg s
  have hunknown : Handler.unknown.Careful := by
    intro args st _
    trivial
  have hcareful : cfg.registry.Careful :=
    (Registry.careful_empty.register "CHK" (Handler.careful_probe .serviceReady)).setFallback
      hunknown rfl
  have harity := serve_arity cfg
  exact ⟨hcareful, rfl, harity.2.2.1 rfl, harity.2.2.2 hcareful _ none .later _⟩

set_option maxRecDepth 10000 in
theorem crashed_of_fallback_without_arguments
    : let checker := Handler.needing 2 (.probe .serviceReady)
      let cfg : SessionSettings :=
        { welcome := "hi"
          maxCommandLength := 16
          registry := Registry.empty.setFallback checker }
      let s : Session := { settings := cfg, control := { name := "control" } }
      checker.Careful
        ∧
      cfg.invocation? (.line [88, 10]) = some (checker, [])
        ∧
      ¬ checker.minArgs ≤ ([] : List String).length
        ∧
      (s.serve .later ([88, 10].map .byte)).1.phase = .crashed := by
  intro checker cfg s
  have hwords : Text.words (SessionSettings.text (.line [88, 10])) = ["X"] := by cbv
  have hinvocation : cfg.invocation? (.line [88, 10]) = some (checker, []) := by
    apply cfg.invocation?_of_fallback hwords
    exact Std.TreeMap.getElem?_emptyc
  refine ⟨Handler.careful_probe .serviceReady, hinvocation, by decide, ?_⟩
  dsimp only [s, cfg, checker]
  cbv

end Session

end FtpControl
