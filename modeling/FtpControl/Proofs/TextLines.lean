import FtpControl.Proofs.Interruption
import FtpControl.Proofs.LossyDecoding

/-!
This module contains the lines of a text. Cutting a byte stream behind every LF and then decoding
its lines gives the lines of the decoded stream, valid or not, so a session that decodes all of its
input first and looks for line breaks in the text does the same.
-/

namespace FtpControl

namespace Text

def pieces : List Char → List (List Char)
  | [] => []
  | c :: cs =>
    if c = '\n' then
      [c] :: pieces cs
    else
      match pieces cs with
      | [] => [[c]]
      | piece :: rest => (c :: piece) :: rest

def lines (s : String) : List String :=
  (pieces s.toList).map String.ofList

theorem pieces_append_lf (body rest : List Char) (h : '\n' ∉ body)
    : pieces (body ++ '\n' :: rest) = (body ++ ['\n']) :: pieces rest := by
  induction body with
  | nil => rfl
  | cons c body ih =>
    rw [List.mem_cons, not_or] at h
    rw [List.cons_append, pieces, if_neg (Ne.symm h.1), ih h.2]
    rfl

theorem pieces_of_not_mem (body : List Char) (hne : body ≠ []) (h : '\n' ∉ body)
    : pieces body = [body] := by
  induction body with
  | nil => contradiction
  | cons c body ih =>
    rw [List.mem_cons, not_or] at h
    rw [pieces, if_neg (Ne.symm h.1)]
    cases body with
    | nil => rfl
    | cons d body => rw [ih (by simp) h.2]

theorem flatten_pieces (cs : List Char) : (pieces cs).flatten = cs := by
  induction cs with
  | nil => rfl
  | cons c cs ih =>
    rw [pieces]
    split
    . rw [List.flatten_cons, ih]
      rfl
    . cases hpieces : pieces cs with
      | nil =>
        rw [hpieces] at ih
        rw [← ih]
        rfl
      | cons piece rest =>
        rw [hpieces] at ih
        rw [← ih]
        rfl

theorem join_lines (s : String) : String.join (lines s) = s := by
  apply String.toList_inj.1
  rw [String.toList_join, lines, List.flatMap_map]
  simp only [String.toList_ofList]
  rw [List.flatMap_id', flatten_pieces]

namespace Utf8

theorem decode_append_lf (front back : List UInt8)
    : decode (front ++ Framer.lf :: back) = decode front ++ '\n' :: decode back := by
  obtain ⟨settled, next, hdecode⟩ := exists_decodeFrom_append .start front
  have hfront := hdecode []
  rw [List.append_nil, decodeFrom] at hfront
  rw [decode, decode, hdecode, hfront, Framer.lf, decodeFrom, step_lf, ← decode]
  simp

theorem decode_ne_nil {bytes : List UInt8} (h : bytes ≠ []) : decode bytes ≠ [] := by
  intro hnil
  have hlossy := lossy_iff.2 hnil.symm
  cases hlossy with
  | nil => contradiction

theorem lf_not_mem_decode {bytes : List UInt8} (h : Framer.lf ∉ bytes) : '\n' ∉ decode bytes := by
  have hstring := lf_not_mem_decodeString h
  rwa [decodeString, String.toList_ofList] at hstring

theorem pieces_decode (bytes : List UInt8)
    : pieces (decode bytes) = (Framer.lines bytes).map decode := by
  induction bytes using Framer.lines_induction with
  | nil => rfl
  | tail body hne h =>
    rw [Framer.lines_of_not_mem body hne h,
      pieces_of_not_mem _ (decode_ne_nil hne) (lf_not_mem_decode h)]
    rfl
  | line body rest h ih =>
    rw [Framer.lines_append_lf body rest h, decode_append_lf,
      pieces_append_lf _ _ (lf_not_mem_decode h), ih, List.map_cons, decode_append_lf]
    rfl

theorem lines_decodeString (bytes : List UInt8)
    : lines (decodeString bytes) = (Framer.lines bytes).map decodeString := by
  rw [lines, decodeString, String.toList_ofList, pieces_decode, List.map_map]
  rfl

end Utf8

end Text

namespace Session

theorem phase_respond_ne_peerClosed (s : Session) (response : Response)
    : (s.respond response).1.phase ≠ .ended .peerClosed := by
  intro hphase
  rcases phase_respond s response with hreading | ⟨reason, hreason, hended⟩
  . obtain ⟨framer, hframer⟩ := exists_of_isReading hreading
    rw [hframer] at hphase
    contradiction
  . rw [hended] at hphase
    exact hreason (Phase.ended.inj hphase)

theorem phase_perform_ne_peerClosed (oracle : Action.Oracle) (s : Session)
    (action : Action (SessionState × Response))
    : (s.perform oracle action).1.phase ≠ .ended .peerClosed := by
  unfold perform
  dsimp only
  split
  . apply phase_respond_ne_peerClosed
  . exact Phase.noConfusion
  . exact Phase.noConfusion

def answerTexts (oracle : Action.Oracle) (s : Session) : List String → Step
  | [] => if s.isReading then s.finish .peerClosed else (s, [])
  | text :: texts =>
    if s.isReading then
      (s.perform oracle (s.settings.registry.handleLine text s.state)).andThen fun s =>
        answerTexts oracle s texts
    else
      (s, [])

structure Hears (lines : List (List UInt8)) (step told : Step) : Prop where
  session_eq : step.1 = told.1
  events_eq : step.2.filter (·.frame?.isNone) = told.2
  frames_prefix : step.2.filterMap Event.frame? <+: lines.map .line
  frames_eq : step.1.phase = .ended .peerClosed → step.2.filterMap Event.frame? = lines.map .line

theorem filter_of_filterMap_frame? {events : List Event} (h : events.filterMap Event.frame? = [])
    : events.filter (·.frame?.isNone) = events := by
  apply List.filter_eq_self.2
  intro event hevent
  exact Option.isNone_iff_eq_none.2 (List.filterMap_eq_nil_iff.1 h event hevent)

theorem hears_of_stopped {s : Session} (h : s.phase ≠ .ended .peerClosed)
    (lines : List (List UInt8)) : Hears lines (s, []) (s, []) := by
  constructor
  . rfl
  . rfl
  . apply List.nil_prefix
  . exact fun heq => absurd heq h

theorem hears_handle {lines : List (List UInt8)} (oracle : Action.Oracle) (s : Session)
    (line : List UInt8) {next next' : Session → Step}
    (h : ∀ s, s.phase ≠ .ended .peerClosed → Hears lines (next s) (next' s))
    : Hears (line :: lines) ((s.handle oracle (.line line)).andThen next)
        ((s.perform oracle
          (s.settings.registry.handleLine (Text.Utf8.decodeString line) s.state)).andThen
          next') := by
  have hhandle : s.handle oracle (.line line)
      = (s.perform oracle (s.settings.registry.handleLine (Text.Utf8.decodeString line)
        s.state)).after [.received (.line line)] := rfl
  have hown := filterMap_frame?_perform oracle s
    (s.settings.registry.handleLine (Text.Utf8.decodeString line) s.state)
  have hphase := phase_perform_ne_peerClosed oracle s
    (s.settings.registry.handleLine (Text.Utf8.decodeString line) s.state)
  -- That the line was received is all that the session that is told of it does not have.
  rw [hhandle, Step.after_andThen]
  generalize s.perform oracle
    (s.settings.registry.handleLine (Text.Utf8.decodeString line) s.state) = step at hown hphase
  have hrest := h step.1 hphase
  have hframes : (step.2 ++ (next step.1).2).filterMap Event.frame?
      = (next step.1).2.filterMap Event.frame? := by
    rw [List.filterMap_append, hown, List.nil_append]
  constructor
  . exact hrest.session_eq
  . have hall : (step.2 ++ (next step.1).2).filter (·.frame?.isNone)
        = step.2 ++ (next' step.1).2 := by
      rw [List.filter_append, filter_of_filterMap_frame? hown, hrest.events_eq]
    exact hall
  . have hprefix := hrest.frames_prefix
    rw [← hframes] at hprefix
    exact List.cons_prefix_cons.2 ⟨rfl, hprefix⟩
  . intro hended
    have heq := hrest.frames_eq hended
    rw [← hframes] at heq
    exact congrArg (Frame.line line :: ·) heq

theorem hears_answerAll (oracle : Action.Oracle) (s : Session) (h : s.phase ≠ .ended .peerClosed)
    (lines : List (List UInt8))
    : Hears lines (s.answerAll oracle (lines.map .line))
        (s.answerTexts oracle (lines.map Text.Utf8.decodeString)) := by
  induction lines generalizing s with
  | nil =>
    rw [List.map_nil, List.map_nil, answerAll, answerTexts]
    split
    . have hfinish := filterMap_frame?_finish s .peerClosed
      constructor
      . rfl
      . exact filter_of_filterMap_frame? hfinish
      . rw [hfinish]
        apply List.nil_prefix
      . exact fun _ => hfinish
    . exact hears_of_stopped h []
  | cons line lines ih =>
    rw [List.map_cons, List.map_cons, answerAll, answerTexts]
    split
    . exact hears_handle oracle s line ih
    . exact hears_of_stopped h _

theorem phase_serve_of_answered (cfg : SessionSettings) {control : Channel} (data : Option Channel)
    {oracle : Action.Oracle} (hlimit : 0 < cfg.maxCommandLength) (bytes : List UInt8)
    (hopen : cfg.registry.StaysOpen) (hruns : ∀ frame st, (cfg.dispatch frame st).Runs)
    (hanswers : ∀ past call, oracle past call ≠ none) (hcontrol : control.Faultless)
    : let s : Session := { settings := cfg, control, data }
      (s.serve oracle (bytes.map .byte)).1.phase = .ended .peerClosed := by
  intro s
  have hworks := hear_worksThrough data oracle hopen (hcontrol.fault_eq_none .write)
    (hcontrol.fault_eq_none .flush) hcontrol.room_ne_zero (Framer.parses_eof _ hlimit bytes 0)
  have hanswered := Exchange.answered_of_runs hruns hanswers .initial []
    ((Framer.lines bytes).map (.ofLine cfg.maxCommandLength))
  have hcloses : ∀ x ∈ exchanges cfg.dispatch oracle .initial []
      ((Framer.lines bytes).map (.ofLine cfg.maxCommandLength)), x.closes = false :=
    Exchange.closes_of_staysOpen (cfg.staysOpen_dispatch hopen) _ _ _
  apply hworks.phase_eq.trans
  apply Exchange.last_eq_of_forall_mem
  intro x hx
  exact Exchange.phaseBy_of_open .peerClosed (hanswered x hx) (hcloses x hx)

/--
A session whose peer sends no line beyond the limit, and then nothing more. Its commands are the
lines of the decoded input, and it does what a session does that is told these one after the other.
-/
theorem serveFrom64_commutes_with_decoding (cfg : SessionSettings) (control : Channel)
    (data : Option Channel) (oracle : Action.Oracle) (hlimit : 0 < cfg.maxCommandLength)
    (hroom : cfg.maxCommandLength + 1 < 2 ^ 64) (src : Source) (bytes : List UInt8)
    (hinputs : src.inputs = bytes.map .byte)
    (hshort : ∀ line ∈ Framer.lines bytes, line.length ≤ cfg.maxCommandLength)
    : let s : Session := { settings := cfg, control, data }
      let text := Text.Utf8.decodeString bytes
      let told := s.start.andThen fun s => s.answerTexts oracle (Text.lines text)
      ∃ served,
        s.serveFrom64 oracle src = some served
          ∧
        let handed := (served.2.filterMap Event.frame?).map SessionSettings.text
        (∀ cs, Text.Utf8.Lossy bytes cs ↔ cs = text.toList)
          ∧
        Text.lines text = (Framer.lines bytes).map Text.Utf8.decodeString
          ∧
        (∀ frame ∈ served.2.filterMap Event.frame?,
          ∃ line ∈ Framer.lines bytes, frame = .line line)
          ∧
        handed <+: Text.lines text
          ∧
        (served.1.phase = .ended .peerClosed
          → handed = Text.lines text ∧ String.join handed = text)
          ∧
        (cfg.registry.StaysOpen
          →
        (∀ frame st, (cfg.dispatch frame st).Runs)
          →
        (∀ past call, oracle past call ≠ none)
          →
        control.Faultless
          →
        served.1.phase = .ended .peerClosed)
          ∧
        served.1 = told.1
          ∧
        served.2.filter (·.frame?.isNone) = told.2
          ∧
        (∀ line ∈ Framer.lines bytes, ∀ t,
          line = Text.Utf8.encodeString t → Text.Utf8.decodeString line = t)
          ∧
        ∀ front back,
          bytes = front ++ Framer.lf :: back
            →
          text = Text.Utf8.decodeString front ++ "\n" ++ Text.Utf8.decodeString back := by
  intro s text told
  refine ⟨_, serveFrom64_eq_serve (s := s) oracle hlimit hroom src, ?_⟩
  rw [hinputs]
  intro handed
  have hlines := Text.Utf8.lines_decodeString bytes
  have hframes : (Framer.lines bytes).map (Frame.ofLine cfg.maxCommandLength)
      = (Framer.lines bytes).map Frame.line := by
    apply List.map_congr_left
    intro line hline
    exact if_pos (hshort line hline)
  have hserved : s.serve oracle (bytes.map .byte) = s.start.andThen fun started =>
      started.answerAll oracle ((Framer.lines bytes).map .line) := by
    rw [← hframes]
    exact serve_eq_answerAll oracle s hlimit bytes
  have hstart := filterMap_frame?_start s
  have hhears := hears_answerAll oracle s.start.1
    (phase_respond_ne_peerClosed s ⟨⟨.serviceReady, cfg.welcome⟩, false⟩) (Framer.lines bytes)
  rw [← hlines] at hhears
  have htaken : (s.serve oracle (bytes.map .byte)).2.filterMap Event.frame?
      = (s.start.1.answerAll oracle
        ((Framer.lines bytes).map .line)).2.filterMap Event.frame? := by
    rw [hserved, Step.andThen, Step.after, List.filterMap_append, hstart, List.nil_append]
  have htexts : ((Framer.lines bytes).map Frame.line).map SessionSettings.text
      = Text.lines text := by
    rw [List.map_map]
    exact hlines.symm
  refine ⟨?_, hlines, ?_, ?_, ?_, ?_, ?_, ?_, ?_, ?_⟩
  . intro cs
    rw [Text.Utf8.lossy_iff, ← String.toList_ofList (l := Text.Utf8.decode bytes)]
    rfl
  . intro frame hframe
    rw [htaken] at hframe
    obtain ⟨line, hline, heq⟩ := List.mem_map.1 (hhears.frames_prefix.subset hframe)
    exact ⟨line, hline, heq.symm⟩
  . rw [← htexts]
    dsimp only [handed]
    rw [htaken]
    exact hhears.frames_prefix.map _
  . intro hended
    have hhanded : handed = Text.lines text := by
      rw [← htexts]
      dsimp only [handed]
      rw [htaken]
      rw [hserved] at hended
      rw [hhears.frames_eq hended]
    refine ⟨hhanded, ?_⟩
    rw [hhanded]
    apply Text.join_lines
  . exact phase_serve_of_answered cfg data hlimit bytes
  . rw [hserved]
    exact hhears.session_eq
  . rw [hserved, Step.andThen, Step.after, List.filter_append, hhears.events_eq,
      filter_of_filterMap_frame? hstart]
    rfl
  . intro line _ t ht
    rw [ht]
    apply Text.Utf8.decodeString_encodeString
  . intro front back hbytes
    dsimp only [text]
    rw [hbytes]
    apply String.toList_inj.1
    simp [Text.Utf8.decodeString, Text.Utf8.decode_append_lf]

set_option maxRecDepth 10000 in
theorem serveFrom64_commutes_with_decoding_surrogate
    : let cfg : SessionSettings := { welcome := "hi", maxCommandLength := 8 }
      let control : Channel := { name := "control" }
      let s : Session := { settings := cfg, control }
      let bytes : List UInt8 :=
        [0xE2, 0x82, 0x0A] ++ Text.Utf8.encodeString "USER é\n"
          ++ [0x50, 0x41, 0x53, 0x53, 0x20, 0xED, 0xA0, 0x80]
      let src : Source := ⟨[0xE2], [.ok (bytes.drop 1)]⟩
      let oracle := Authenticator.consult {} (.ofFunction fun _ => .granted)
      let texts := ["\uFFFD\n", "USER é\n", "PASS \uFFFD\uFFFD\uFFFD"]
      0 < cfg.maxCommandLength
        ∧
      cfg.maxCommandLength + 1 < 2 ^ 64
        ∧
      src.inputs = bytes.map .byte
        ∧
      (∀ line ∈ Framer.lines bytes, line.length ≤ cfg.maxCommandLength)
        ∧
      Text.Utf8.Lossy bytes (String.join texts).toList
        ∧
      ∃ served,
        s.serveFrom64 oracle src = some served
          ∧
        (served.2.filterMap Event.frame?).map SessionSettings.text = texts
          ∧
        served.1.phase = .ended .peerClosed := by
  intro cfg control s bytes src oracle texts
  have hbytes : bytes = [0xE2, 0x82, 0x0A, 85, 83, 69, 82, 32, 0xC3, 0xA9, 0x0A, 0x50, 0x41, 0x53,
      0x53, 0x20, 0xED, 0xA0, 0x80] := by
    dsimp only [bytes]
    cbv
  have hinputs : src.inputs = bytes.map .byte := by
    dsimp only [src]
    rw [hbytes]
    rfl
  have hshort : ∀ line ∈ Framer.lines bytes, line.length ≤ cfg.maxCommandLength := by
    rw [hbytes]
    decide
  have htext : Text.Utf8.decodeString bytes = String.join texts := by
    rw [hbytes]
    dsimp only [texts]
    cbv
  have htexts : Text.lines (Text.Utf8.decodeString bytes) = texts := by
    rw [hbytes]
    dsimp only [texts]
    cbv
  have hcontrol : control.Faultless := Channel.faultless_named _
  obtain ⟨served, hserved, hlossy, _, _, _, hhanded, hanswered, _⟩ :=
    serveFrom64_commutes_with_decoding cfg control none oracle (by decide) (by decide) src bytes
      hinputs hshort
  have hended := hanswered Registry.staysOpen_withLogin
    (cfg.runs_dispatch Registry.careful_withLogin) (fun _ _ => Option.some_ne_none _) hcontrol
  refine ⟨by decide, by decide, hinputs, hshort, ?_, served, hserved, ?_, hended⟩
  . rw [hlossy, htext]
  . rw [← htexts]
    exact (hhanded hended).1

set_option maxRecDepth 10000 in
theorem serveFrom64_commutes_with_decoding_of_largest
    : let cfg : SessionSettings := { welcome := "hi", maxCommandLength := 2 ^ 64 - 1 }
      let control : Channel := { name := "control" }
      let s : Session := { settings := cfg, control }
      let src := Source.ofChunks [[0x55, 0x0A]]
      control.Faultless
        ∧
      src.inputs = [0x55, 0x0A].map .byte
        ∧
      (∀ line ∈ Framer.lines [0x55, 0x0A], line.length ≤ cfg.maxCommandLength)
        ∧
      Text.lines (Text.Utf8.decodeString [0x55, 0x0A]) = ["U\n"]
        ∧
      s.serveFrom64 .later src = none := by
  intro cfg control s src
  have hcontrol : control.Faultless := Channel.faultless_named _
  have hlines : Framer.lines [0x55, 0x0A] = [[0x55, 0x0A]] := by decide
  refine ⟨hcontrol, rfl, ?_, by cbv, ?_⟩
  . simp [hlines, cfg]
  . exact serveFrom64_of_largest _ (by simp [s, cfg]) hcontrol src

end Session

end FtpControl
