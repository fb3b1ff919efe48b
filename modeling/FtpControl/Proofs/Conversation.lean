import Mathlib
import FtpControl.Proofs.WordReading

/-!
This module contains the conversation of a session over a channel without faults. The session
follows the exchanges of its peer's lines up to the first that asks to close: it answers each line
once, sends one reply for it, and looks at no line before the reply to the last one is out.
-/

namespace FtpControl

namespace Session

variable {oracle : Action.Oracle} {s : Session}

/-- A step that does what some exchanges say, and takes its leave where they end. -/
structure Follows (s : Session) (xs : List (Exchange Frame)) (step : Step) : Prop where
  state_eq : step.1.state = Exchange.last (·.after) s.state xs
  calls_eq : step.1.calls = Exchange.last (·.outcome.calls) s.calls xs
  phase_eq : step.1.phase = Exchange.last (·.phase) (.ended .peerClosed) xs
  visible_eq : visible step.2
    = xs.flatMap (·.trace) ++ s.farewell (Exchange.last (·.phase) (.ended .peerClosed) xs)

theorem serve_follows (oracle : Action.Oracle) (hcontrol : s.control.Faultless)
    (hout : s.out.unflushed = [])
    (hlimit : 0 < s.settings.maxCommandLength) (bytes : List UInt8)
    : ∃ step,
        Follows s
          (Exchange.upToClose (exchanges s.settings.dispatch oracle s.state s.calls
            ((Framer.lines bytes).map (.ofLine s.settings.maxCommandLength)))) step
          ∧
        (s.serve oracle (bytes.map .byte)).1 = step.1
          ∧
        visible (s.serve oracle (bytes.map .byte)).2
          =
        .noted .connectionEstablished ::
          Exchange.delivered ⟨.serviceReady, s.settings.welcome⟩ ++ visible step.2 := by
  let greeting : Response := ⟨⟨.serviceReady, s.settings.welcome⟩, false⟩
  let frames := (Framer.lines bytes).map (Frame.ofLine s.settings.maxCommandLength)
  let xs := Exchange.upToClose (exchanges s.settings.dispatch oracle s.state s.calls frames)
  let seen := xs.flatMap (·.trace) ++ s.farewell (Exchange.last (·.phase) (.ended .peerClosed) xs)
  have hdialogue : Exchange.Dialogue s.settings.dispatch oracle s.state s.calls greeting frames
      xs := Exchange.dialogue_upToClose rfl frames
  have hfinal := converse_concludes .peerClosed hdialogue rfl rfl rfl hcontrol.room_ne_zero hout
    fun calls _ => hcontrol.faultIn_eq_none calls
  have hserve : s.serve oracle (bytes.map .byte)
      = (s.converse oracle .peerClosed greeting frames).after [.noted .connectionEstablished] :=
    hear_of_parses oracle s (Framer.parses_eof _ hlimit bytes 0)
  have hvisible := hfinal.visible_eq
  rw [hfinal.phase_eq, List.append_assoc] at hvisible
  have hseen : visible seen = seen := by
    have htwice := congrArg visible hvisible
    rw [visible_visible, hvisible, visible_append] at htwice
    exact (List.append_cancel_left htwice).symm
  refine ⟨((s.converse oracle .peerClosed greeting frames).1, seen), ?_, ?_, ?_⟩
  . exact ⟨hfinal.state_eq, hfinal.calls_eq, hfinal.phase_eq, hseen⟩
  . rw [hserve]
    rfl
  . rw [hserve, Step.after, List.singleton_append, visible_noted_cons, hvisible, hseen]
    rfl

theorem visible_serve (oracle : Action.Oracle) (hcontrol : s.control.Faultless)
    (hout : s.out.unflushed = [])
    (hlimit : 0 < s.settings.maxCommandLength) (bytes : List UInt8)
    {xs : List (Exchange Frame)}
    (hxs : xs = Exchange.upToClose (exchanges s.settings.dispatch oracle s.state s.calls
      ((Framer.lines bytes).map (.ofLine s.settings.maxCommandLength))))
    : visible (s.serve oracle (bytes.map .byte)).2
        =
      .noted .connectionEstablished ::
        Exchange.delivered ⟨.serviceReady, s.settings.welcome⟩ ++ xs.flatMap (·.trace)
          ++ s.farewell (s.serve oracle (bytes.map .byte)).1.phase := by
  obtain ⟨step, hfollows, hstep, hvisible⟩ :=
    serve_follows oracle hcontrol hout hlimit bytes
  rw [hvisible, hstep, hfollows.visible_eq, hfollows.phase_eq, ← hxs]
  simp

theorem filterMap_serve {α : Type} (oracle : Action.Oracle) (f : Event → Option α)
    (hwrote : ∀ bytes, f (.wrote bytes) = none) (hnoted : ∀ note, f (.noted note) = none)
    (hshutDown : ∀ channel clean, f (.shutDown channel clean) = none)
    (hcontrol : s.control.Faultless) (hout : s.out.unflushed = [])
    (hlimit : 0 < s.settings.maxCommandLength) (bytes : List UInt8)
    {xs : List (Exchange Frame)}
    (hxs : xs = Exchange.upToClose (exchanges s.settings.dispatch oracle s.state s.calls
      ((Framer.lines bytes).map (.ofLine s.settings.maxCommandLength))))
    : (s.serve oracle (bytes.map .byte)).2.filterMap f
        =
      (Exchange.delivered ⟨.serviceReady, s.settings.welcome⟩).filterMap f
        ++ (xs.flatMap (·.trace)).filterMap f := by
  rw [← filterMap_visible f hwrote, visible_serve oracle hcontrol hout hlimit bytes hxs]
  rw [List.filterMap_append, filterMap_farewell f hnoted hshutDown, List.append_nil]
  rw [List.cons_append, List.filterMap_cons_none (hnoted _), List.filterMap_append]

theorem serveFrom64_eq_exchanges (cfg : SessionSettings) (control : Channel)
    (data : Option Channel) (oracle : Action.Oracle) (src : Source) (bytes : List UInt8)
    (hinputs : src.inputs = bytes.map .byte) (hlimit : 0 < cfg.maxCommandLength)
    (hroom : cfg.maxCommandLength + 1 < 2 ^ 64) (hcontrol : control.Faultless)
    : let s : Session := { settings := cfg, control, data }
      let greeting : Reply := ⟨.serviceReady, cfg.welcome⟩
      let frames := (Framer.lines bytes).map (.ofLine cfg.maxCommandLength)
      let results := exchanges cfg.dispatch oracle .initial [] frames
      let answered := results.take (results.findIdx (·.closes) + 1)
      ∃ served,
        s.serveFrom64 oracle src = some served
          ∧
        visible served.2
          =
        .noted .connectionEstablished :: Exchange.delivered greeting
          ++ answered.flatMap (·.trace) ++ s.farewell served.1.phase
          ∧
        served.2.filterMap Event.frame? = frames.take answered.length
          ∧
        served.2.filterMap Event.flushed?
          =
        greeting.wire :: (answered.filterMap (·.response?)).map (·.reply.wire)
          ∧
        served.1.state = Exchange.last (·.after) .initial answered
          ∧
        served.1.phase = Exchange.last (·.phase) (.ended .peerClosed) answered
          ∧
        (answered.length = frames.length
          ∨ ∃ x, answered.getLast? = some x ∧ (x.closes = true ∨ x.response? = none)) := by
  intro s greeting frames results answered
  have hanswered : ∀ x ∈ answered,
      ∃ st past, x = FtpControl.exchange cfg.dispatch oracle st past x.request := by
    intro x hx
    exact exists_exchange_of_mem _ _ _ _ _ x (List.mem_of_mem_take hx)
  obtain ⟨step, hfollows, hstep, _⟩ :=
    serve_follows (s := s) oracle hcontrol rfl hlimit bytes
  have hframe := filterMap_serve (s := s) oracle Event.frame? (fun _ => rfl)
    (fun _ => rfl) (fun _ _ => rfl) hcontrol rfl hlimit bytes rfl
  have hflushed := filterMap_serve (s := s) oracle Event.flushed? (fun _ => rfl)
    (fun _ => rfl) (fun _ _ => rfl) hcontrol rfl hlimit bytes rfl
  refine ⟨_, serveFrom64_eq_serve (s := s) oracle hlimit hroom src, ?_⟩
  rw [hinputs]
  refine ⟨?_, ?_, ?_, ?_, ?_, ?_⟩
  . exact visible_serve oracle hcontrol rfl hlimit bytes rfl
  . apply hframe.trans
    apply (congrArg _ (Exchange.filterMap_frame?_trace hanswered)).trans
    apply Exchange.map_request_upToClose
  . apply hflushed.trans
    exact congrArg _ (Exchange.filterMap_flushed?_trace hanswered)
  . exact (congrArg Session.state hstep).trans hfollows.state_eq
  . exact (congrArg Session.phase hstep).trans hfollows.phase_eq
  . exact Exchange.upToClose_exchanges_complete _ _ _ _ _

set_option maxRecDepth 10000 in
theorem serveFrom64_eq_exchanges_quit
    : let cfg : SessionSettings :=
        { welcome := "hi"
          maxCommandLength := 16
          registry := Registry.empty.register "QUIT"
            { conduct := fun _ st => .done (st, ⟨⟨.closingControl, "bye"⟩, true⟩) } }
      let control : Channel := { name := "control" }
      let s : Session := { settings := cfg, control }
      let src := Source.ofChunks [[81, 85], [73, 84, 10, 10]]
      src.inputs = [81, 85, 73, 84, 10, 10].map .byte
        ∧
      0 < cfg.maxCommandLength
        ∧
      cfg.maxCommandLength + 1 < 2 ^ 64
        ∧
      control.Faultless
        ∧
      ∃ served,
        s.serveFrom64 .later src = some served
          ∧
        served.2.filterMap Event.frame? = [.line [81, 85, 73, 84, 10]]
          ∧
        served.2.filterMap Event.flushed?
          =
        [Text.Utf8.encodeString "220 hi\r\n", Text.Utf8.encodeString "221 bye\r\n"] := by
  intro cfg control s src
  have hcontrol : control.Faultless := Channel.faultless_named _
  have hserve := serveFrom64_eq_exchanges cfg control none .later src [81, 85, 73, 84, 10, 10] rfl
    (by decide) (by decide) hcontrol
  have hstop : (FtpControl.exchange cfg.dispatch .later .initial []
      (.line [81, 85, 73, 84, 10])).outcome.stop
      = .done (.initial, ⟨⟨.closingControl, "bye"⟩, true⟩) := by
    have hline : Text.Utf8.decodeString [81, 85, 73, 84, 10] = "QUIT\n" := by cbv
    dsimp only [cfg, FtpControl.exchange, SessionSettings.dispatch]
    rw [hline]
    cbv
  have hframes : (Framer.lines [81, 85, 73, 84, 10, 10]).map (Frame.ofLine cfg.maxCommandLength)
      = [.line [81, 85, 73, 84, 10], .line [10]] := by
    dsimp only [cfg]
    cbv
  have hanswered : Exchange.upToClose (exchanges cfg.dispatch .later .initial []
      [.line [81, 85, 73, 84, 10], .line [10]])
      = [FtpControl.exchange cfg.dispatch .later .initial [] (.line [81, 85, 73, 84, 10])] := by
    rw [exchanges, Exchange.upToClose_cons_of_closes]
    rw [Exchange.closes_of_done hstop]
  rw [hframes] at hserve
  obtain ⟨served, hserved, _, hframe, hflushed, _⟩ := hserve
  refine ⟨rfl, by decide, by decide, hcontrol, served, hserved, ?_, ?_⟩
  . apply hframe.trans
    exact congrArg (fun xs => List.take (List.length xs) _) hanswered
  . apply hflushed.trans
    apply (congrArg (fun xs => _ :: (List.filterMap (·.response?) xs).map (·.reply.wire))
      hanswered).trans
    rw [List.filterMap_cons_some (Exchange.response?_of_done hstop)]
    cbv

theorem serveFrom64_eq_exchanges_of_largest
    : let cfg : SessionSettings :=
        { welcome := "hi"
          maxCommandLength := 2 ^ 64 - 1
          registry := Registry.empty.register "QUIT"
            { conduct := fun _ st => .done (st, ⟨⟨.closingControl, "bye"⟩, true⟩) } }
      let control : Channel := { name := "control" }
      let s : Session := { settings := cfg, control }
      let src := Source.ofChunks [[81, 85, 73, 84, 10]]
      control.Faultless
        ∧
      src.inputs = [81, 85, 73, 84, 10].map .byte
        ∧
      (Framer.lines [81, 85, 73, 84, 10]).map (Frame.ofLine cfg.maxCommandLength)
        =
      [.line [81, 85, 73, 84, 10]]
        ∧
      s.serveFrom64 .later src = none := by
  intro cfg control s src
  have hcontrol : control.Faultless := Channel.faultless_named _
  have hlines : Framer.lines [81, 85, 73, 84, 10] = [[81, 85, 73, 84, 10]] := by decide
  refine ⟨hcontrol, rfl, ?_, ?_⟩
  . simp [hlines, Frame.ofLine, cfg]
  . exact serveFrom64_of_largest _ (by simp [s, cfg]) hcontrol src

end Session

end FtpControl
