import FtpControl.Proofs.Buffering
import FtpControl.Proofs.LoginMachine

/-!
This module contains the independence of a session from the sizes of what its transport hands over:
how the bytes of the peer are cut into reads, and how many bytes a write takes.
-/

namespace FtpControl

namespace Session

/-- Nothing but the channels differs, and these do the same when they are shut down. -/
structure Alike (first second : Session) : Prop where
  settings_eq : first.settings = second.settings
  state_eq : first.state = second.state
  calls_eq : first.calls = second.calls
  data_eq : first.data = second.data
  shutDown_eq : first.control.shutDown = second.control.shutDown

variable {first second : Session}

theorem Alike.farewell (h : Alike first second) : first.farewell = second.farewell := by
  funext phase
  cases phase with
  | ended reason => simp only [Session.farewell, finish, h.data_eq, h.shutDown_eq]
  | _ => rfl

theorem Alike.serve (h : Alike first second) (oracle : Action.Oracle)
    (hfirst : first.control.Faultless) (hsecond : second.control.Faultless)
    (hfirstOut : first.out.unflushed = []) (hsecondOut : second.out.unflushed = [])
    (hlimit : 0 < first.settings.maxCommandLength) (bytes : List UInt8)
    : let served := first.serve oracle (bytes.map .byte)
      let served' := second.serve oracle (bytes.map .byte)
      visible served.2 = visible served'.2
        ∧
      served.1.state = served'.1.state
        ∧
      served.1.phase = served'.1.phase := by
  intro served served'
  obtain ⟨step, hfollows, hstep, hvisible⟩ := serve_follows oracle hfirst hfirstOut hlimit bytes
  rw [h.settings_eq] at hlimit
  obtain ⟨step', hfollows', hstep', hvisible'⟩ :=
    serve_follows oracle hsecond hsecondOut hlimit bytes
  rw [← h.settings_eq, ← h.state_eq, ← h.calls_eq] at hfollows'
  have hphase : step.1.phase = step'.1.phase := by rw [hfollows.phase_eq, hfollows'.phase_eq]
  have hseen : visible step.2 = visible step'.2 := by
    rw [hfollows.visible_eq, hfollows'.visible_eq, h.farewell]
  refine ⟨?_, ?_, ?_⟩
  . rw [hvisible, hvisible', hseen, h.settings_eq]
  . rw [hstep, hstep', hfollows.state_eq, hfollows'.state_eq, h.state_eq]
  . rw [hstep, hstep', hphase]

theorem serveFrom_granularity (cfg : SessionSettings) (control : Channel) (data : Option Channel)
    (oracle : Action.Oracle) (hlimit : 0 < cfg.maxCommandLength)
    (hfault : ∀ operation n, control.fault operation n = none)
    (bytes : List UInt8) (chunks chunks' : List (List UInt8)) (room room' : Nat → Option Nat)
    (hchunks : chunks.flatten = bytes) (hchunks' : chunks'.flatten = bytes)
    (hne : ∀ chunk ∈ chunks, chunk ≠ []) (hne' : ∀ chunk ∈ chunks', chunk ≠ [])
    (hroom : ∀ n, room n ≠ some 0) (hroom' : ∀ n, room' n ≠ some 0)
    : let s : Session := { settings := cfg, control := { control with room }, data }
      let s' : Session := { settings := cfg, control := { control with room := room' }, data }
      let served := s.serveFrom oracle (.ofChunks chunks)
      let served' := s'.serveFrom oracle (.ofChunks chunks')
      served = s.serve oracle (bytes.map .byte)
        ∧
      served.2.filterMap Event.flushed? = served'.2.filterMap Event.flushed?
        ∧
      (∀ log : ConnectionLog, log.records served.2 = log.records served'.2)
        ∧
      served.2.filterMap Event.call? = served'.2.filterMap Event.call?
        ∧
      (∀ log, served.1.termination? log = served'.1.termination? log)
        ∧
      visible served.2 = visible served'.2 := by
  intro s s' served served'
  have hserved : served = s.serve oracle (bytes.map .byte) := by
    rw [← hchunks, ← Source.inputs_ofChunks hne]
    exact serveFrom_eq_serve oracle s hlimit _
  have hserved' : served' = s'.serve oracle (bytes.map .byte) := by
    rw [← hchunks', ← Source.inputs_ofChunks hne']
    exact serveFrom_eq_serve oracle s' hlimit _
  have halike : Alike s s' := by
    constructor
    all_goals rfl
  obtain ⟨hvisible, hstate, hphase⟩ :=
    halike.serve oracle ⟨hfault, hroom⟩ ⟨hfault, hroom'⟩ rfl rfl hlimit bytes
  rw [← hserved, ← hserved'] at hvisible hstate hphase
  have hsame : ∀ {α : Type} (f : Event → Option α), (∀ bytes, f (.wrote bytes) = none)
      → served.2.filterMap f = served'.2.filterMap f := by
    intro α f hwrote
    rw [← filterMap_visible f hwrote, hvisible, filterMap_visible f hwrote]
  refine ⟨hserved, hsame _ fun _ => rfl, ?_, hsame _ fun _ => rfl, ?_, hvisible⟩
  . intro log
    exact hsame _ fun _ => rfl
  . intro log
    unfold termination?
    rw [hstate, hphase]

set_option maxRecDepth 10000 in
theorem serveFrom_granularity_of_cuts
    : let backend : Backend := .ofFunction fun call =>
        if call = ⟨"é", "b"⟩ then .granted else .denied
      let cfg : SessionSettings := { welcome := "hi", maxCommandLength := 9 }
      let bytes := Text.Utf8.encodeString "USER é\r\nPASS bbbbbb\nPASS b"
      let chunks : List (List UInt8) :=
        [bytes.take 6, (bytes.drop 6).take 2, (bytes.drop 8).take 10, bytes.drop 18]
      let control : Channel := { name := "control" }
      let room : Nat → Option Nat := fun _ => some 1
      let room' : Nat → Option Nat := fun _ => some 3
      let s : Session := { settings := cfg, control := { control with room } }
      let s' : Session := { settings := cfg, control := { control with room := room' } }
      let served := s.serveFrom (Authenticator.consult {} backend) (.ofChunks chunks)
      let served' := s'.serveFrom (Authenticator.consult {} backend) (.ofChunks [bytes])
      let replies :=
        ["220 hi", "331 User name ok, password required", "500 Command too long",
          "230 Password ok, continue"].map fun reply => Text.Utf8.encodeString (reply ++ "\r\n")
      0 < cfg.maxCommandLength
        ∧
      (∀ operation n, control.fault operation n = none)
        ∧
      chunks.flatten = bytes
        ∧
      (∀ chunk ∈ chunks, chunk ≠ [])
        ∧
      (∀ chunk ∈ [bytes], chunk ≠ [])
        ∧
      (∀ n, room n ≠ some 0)
        ∧
      (∀ n, room' n ≠ some 0)
        ∧
      served.2.filterMap Event.flushed? = replies
        ∧
      served'.2.filterMap Event.flushed? = replies := by
  intro backend cfg bytes chunks control room room' s s' served served' replies
  have hfault : ∀ operation n, control.fault operation n = none := fun _ _ => rfl
  have hbytes : bytes = [85, 83, 69, 82, 32, 195, 169, 13, 10, 80, 65, 83, 83, 32, 98, 98, 98, 98,
      98, 98, 10, 80, 65, 83, 83, 32, 98] := by
    dsimp only [bytes]
    cbv
  have hchunks : chunks.flatten = bytes := by
    dsimp only [chunks]
    rw [hbytes]
    rfl
  have hne : ∀ chunk ∈ chunks, chunk ≠ [] := by
    dsimp only [chunks]
    rw [hbytes]
    decide
  have hne' : ∀ chunk ∈ [bytes], chunk ≠ [] := by
    rw [hbytes]
    decide
  have hroom : ∀ n, room n ≠ some 0 := by simp [room]
  have hroom' : ∀ n, room' n ≠ some 0 := by simp [room']
  have hsame := serveFrom_granularity cfg control none (Authenticator.consult {} backend)
    (by decide) hfault bytes chunks [bytes] room room' hchunks (by simp) hne hne' hroom hroom'
  have hanswered : ∀ past call, (Authenticator.consult {} backend past call).isSome = true := by
    intro past call
    change (Authenticator.conclude {} (if call = ⟨"é", "b"⟩ then .granted else .denied)).isSome
      = true
    split <;> rfl
  obtain ⟨_, _, hserve, _⟩ := serve_eq_loginMachine "hi" 9 {} backend { control with room } none
    bytes (by decide) ⟨hfault, hroom⟩ hanswered
  have hgreeting : toString "220 " ++ toString (flatten "hi") = "220 hi" := by cbv
  have hresult : (LoginMachine.run backend 9 {} (Framer.lines bytes)).2
      = ["331 User name ok, password required", "500 Command too long",
          "230 Password ok, continue"] := by
    rw [hbytes]
    cbv
  have hflushed : served.2.filterMap Event.flushed? = replies := by
    apply (congrArg (fun served => List.filterMap Event.flushed? served.2) hsame.1).trans
    apply hserve.trans
    rw [hresult, hgreeting]
  exact ⟨by decide, hfault, hchunks, hne, hne', hroom, hroom', hflushed,
    hsame.2.1.symm.trans hflushed⟩

end Session

end FtpControl
