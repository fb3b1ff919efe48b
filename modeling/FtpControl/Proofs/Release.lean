import FtpControl.Proofs.Ending

/-!
This module contains the release of channels. A session shuts its channels down as the last thing
it does, whatever it ends with, and nothing else depends on whether that goes well.
-/

namespace FtpControl

def Event.shutDown? : Event → Option (String × Bool)
  | shutDown channel clean => some (channel, clean)
  | _ => none

def Reason.told : Reason → String
  | peerClosed => "closed by peer"
  | closeRequested => "closed on request"
  | transport (.io text) => "control channel I/O failed: " ++ text

theorem Reason.text_eq_told (reason : Reason) : reason.text = reason.told := by
  cases reason with
  | transport error =>
    cases error
    rfl
  | _ => rfl

namespace Channel

structure Alike (ch other : Channel) : Prop where
  write_eq : ch.fault .write = other.fault .write
  flush_eq : ch.fault .flush = other.fault .flush
  room_eq : ch.room = other.room

variable {ch other : Channel}

theorem Alike.write (h : ch.Alike other) (out : Outbox) (bytes : List UInt8)
    : ch.write out bytes = other.write out bytes := by
  have haccepted : ch.accepted = other.accepted := by
    unfold accepted
    rw [h.room_eq]
  fun_induction Channel.write ch out bytes with
  | case1 => rw [Channel.write]
  | case2 out b rest out' reason heq =>
    rw [h.write_eq] at heq
    rw [Channel.write]
    dsimp only
    rw [heq]
  | case3 out b rest out' hfault heq =>
    rw [h.write_eq] at hfault
    rw [haccepted] at heq
    rw [Channel.write]
    dsimp only
    rw [hfault]
    dsimp only
    rw [heq]
  | case4 out b rest out' hfault n heq piece out'' ih =>
    rw [h.write_eq] at hfault
    rw [haccepted] at heq
    rw [Channel.write]
    dsimp only
    rw [hfault]
    dsimp only
    rw [heq]
    exact congrArg (Delivery.after (.wrote piece)) ih

theorem Alike.send (h : ch.Alike other) (out : Outbox) (bytes : List UInt8)
    : ch.send out bytes = other.send out bytes := by
  unfold Channel.send flush
  rw [h.write, h.flush_eq]

theorem filterMap_shutDown?_send (ch : Channel) (out : Outbox) (bytes : List UInt8)
    : (ch.send out bytes).events.filterMap Event.shutDown? = [] := by
  exact filterMap_send Event.shutDown? (fun _ => rfl) (fun _ => rfl) (fun _ _ => rfl) ch out bytes

def complaint? (ch : Channel) (label : String) : Option Note :=
  (ch.fault .shutdown 0).map fun reason => ⟨.debug, s!"{label} shutdown failed: {reason}"⟩

theorem shutDown_eq (ch : Channel) (label : String)
    : ch.shutDown label
        =
      .shutDown ch.name (ch.fault .shutdown 0).isNone
        :: (ch.complaint? label).toList.map .noted := by
  unfold shutDown complaint?
  cases ch.fault .shutdown 0 <;> rfl

end Channel

namespace Session

variable {control control' : Channel} {data data' : Option Channel} {oracle : Action.Oracle}

def attachAll (s : Session) : List Channel → List (Option Channel) × Session
  | [] => ([], s)
  | ch :: channels =>
    let (replaced, s) := s.attach ch
    let (others, s) := s.attachAll channels
    (replaced :: others, s)

theorem attachAll_eq (s : Session) (channels : List Channel)
    : s.attachAll channels
        =
      ((s.data :: channels.map some).take channels.length,
        { s with data := channels.getLast?.or s.data }) := by
  induction channels generalizing s with
  | nil => rfl
  | cons ch channels ih =>
    rw [attachAll, attach]
    dsimp only
    rw [ih]
    simp [List.getLast?_cons]

def closing (control : Channel) (data : Option Channel) (reason : Reason) : List Event :=
  control.shutDown "Control channel" ++ data.elim [] (·.shutDown "Data channel")
    ++ [.noted ⟨.info, "Connection terminated: " ++ reason.told⟩]

def lastNotes (control : Channel) (data : Option Channel) (reason : Reason) : List Note :=
  (control.complaint? "Control channel").toList
    ++ (data.bind (·.complaint? "Data channel")).toList
    ++ [⟨.info, "Connection terminated: " ++ reason.told⟩]

theorem finish_eq_closing (s : Session) (reason : Reason)
    : (s.finish reason).2 = closing s.control s.data reason := by
  rw [closing, ← reason.text_eq_told]
  rfl

theorem filterMap_closing {α : Type} (f : Event → Option α)
    (hnoted : ∀ note, f (.noted note) = none)
    (hshutDown : ∀ channel clean, f (.shutDown channel clean) = none) (control : Channel)
    (data : Option Channel) (reason : Reason) : (closing control data reason).filterMap f = [] := by
  have hfarewell := filterMap_farewell f hnoted hshutDown
    { settings := ⟨"", 0, {}, .empty⟩, control, data } (.ended reason)
  rw [farewell, finish_eq_closing] at hfarewell
  exact hfarewell

def onChannels (control : Channel) (data : Option Channel) (s : Session) : Session :=
  { s with control, data }

def Open (s : Session) : Prop :=
  ∀ reason, s.phase ≠ .ended reason

theorem isReading_of_ended {s : Session} {reason : Reason} (h : s.phase = .ended reason)
    : s.isReading = false := by
  unfold isReading
  rw [h]

inductive Shadows (control control' : Channel) (data data' : Option Channel) : Step → Step → Prop
  | going {s : Session} {events : List Event} (hopen : s.Open)
      (hevents : events.filterMap Event.shutDown? = [])
    : Shadows control control' data data' (s.onChannels control data, events)
        (s.onChannels control' data', events)
  | ended {s : Session} {events : List Event} {reason : Reason}
      (hevents : events.filterMap Event.shutDown? = [])
    : Shadows control control' data data' (((s.onChannels control data).finish reason).after events)
        (((s.onChannels control' data').finish reason).after events)

namespace Shadows

variable {control control' : Channel} {data data' : Option Channel} {step step' : Step}
  {oracle : Action.Oracle} {s : Session}

theorem after (h : Shadows control control' data data' step step') {events : List Event}
    (hevents : events.filterMap Event.shutDown? = [])
    : Shadows control control' data data' (step.after events) (step'.after events) := by
  cases h with
  | going hopen hlater =>
    apply going hopen
    rw [List.filterMap_append, hevents, hlater, List.append_nil]
  | ended hlater =>
    rw [Step.after_after, Step.after_after]
    apply ended
    rw [List.filterMap_append, hevents, hlater, List.append_nil]

theorem andThen (h : Shadows control control' data data' step step') {next : Session → Step}
    (hnext : ∀ s : Session, s.Open
      → Shadows control control' data data' (next (s.onChannels control data))
        (next (s.onChannels control' data')))
    (hidle : ∀ (s : Session) reason, s.phase = .ended reason → next s = (s, []))
    : Shadows control control' data data' (step.andThen next) (step'.andThen next) := by
  cases h with
  | going hopen hevents => exact (hnext _ hopen).after hevents
  | @ended s events reason hevents =>
    rw [Step.andThen_of_idle (hidle _ reason rfl), Step.andThen_of_idle (hidle _ reason rfl)]
    exact ended hevents

theorem finish (s : Session) (reason : Reason)
    : Shadows control control' data data' ((s.onChannels control data).finish reason)
        ((s.onChannels control' data').finish reason) := by
  have hnone : ([] : List Event).filterMap Event.shutDown? = [] := rfl
  exact ended (s := s) hnone

theorem awaitLine (s : Session)
    : Shadows control control' data data' (s.onChannels control data).awaitLine
        (s.onChannels control' data').awaitLine := by
  apply going (s := s.awaitLine.1)
  . intro reason hphase
    contradiction
  . rfl

section

variable (hcontrol : control.Alike control')

include hcontrol

theorem send (reply : Reply) {next : Session → Step}
    (hnext : ∀ s : Session, Shadows control control' data data' (next (s.onChannels control data))
      (next (s.onChannels control' data')))
    : Shadows control control' data data' ((s.onChannels control data).send reply next)
        ((s.onChannels control' data').send reply next) := by
  have hquiet := control.filterMap_shutDown?_send s.out (Text.Utf8.encodeString reply.encode)
  let sent : Session :=
    { s with out := (control.send s.out (Text.Utf8.encodeString reply.encode)).out }
  unfold Session.send onChannels
  dsimp only
  rw [← hcontrol.send]
  split
  . next reason _ => exact (finish sent (.transport (.io reason))).after hquiet
  . apply (hnext sent).after
    rw [List.filterMap_append, hquiet]
    rfl

theorem respond (s : Session) (response : Response)
    : Shadows control control' data data' ((s.onChannels control data).respond response)
        ((s.onChannels control' data').respond response) := by
  apply send hcontrol
  intro s
  split
  . apply finish
  . apply awaitLine

theorem perform (s : Session) (action : Action (SessionState × Response))
    : Shadows control control' data data' ((s.onChannels control data).perform oracle action)
        ((s.onChannels control' data').perform oracle action) := by
  have hquiet : (action.run oracle s.calls).events.filterMap Event.shutDown? = [] := by
    apply List.filterMap_eq_nil_iff.2
    intro event hevent
    rcases Action.noted_or_called_of_mem_run oracle s.calls action event hevent
      with ⟨_, rfl⟩ | ⟨_, rfl⟩
    . rfl
    . rfl
  unfold Session.perform onChannels
  dsimp only
  apply after _ hquiet
  split
  . next state response _ =>
    exact respond hcontrol { s with calls := (action.run oracle s.calls).calls, state } response
  . next resume _ =>
    apply going (s := { s with
      calls := (action.run oracle s.calls).calls
      phase := .checking resume })
    . intro reason hphase
      contradiction
    . rfl
  . apply going (s := { s with calls := (action.run oracle s.calls).calls, phase := .crashed })
    . intro reason hphase
      contradiction
    . rfl

theorem read (hopen : s.Open) (input : Input)
    : Shadows control control' data data' ((s.onChannels control data).read oracle input)
        ((s.onChannels control' data').read oracle input) := by
  unfold Session.read onChannels
  dsimp only
  split
  . next framer _ =>
    split
    . next next _ =>
      apply going (s := { s with phase := .reading next })
      . intro reason hphase
        contradiction
      . rfl
    . exact (perform hcontrol s _).after rfl
    . exact finish s _
    . exact finish s _
  . exact going hopen rfl

theorem run (hopen : s.Open) (inputs : List Input)
    : Shadows control control' data data' ((s.onChannels control data).run oracle inputs)
        ((s.onChannels control' data').run oracle inputs) := by
  induction inputs generalizing s with
  | nil => exact going hopen rfl
  | cons input inputs ih =>
    apply (read hcontrol hopen input).andThen fun s hopen => ih hopen
    intro s reason hphase
    exact run_of_not_isReading oracle s _ (isReading_of_ended hphase)

theorem hear (s : Session) (inputs : List Input)
    : Shadows control control' data data' ((s.onChannels control data).hear oracle inputs)
        ((s.onChannels control' data').hear oracle inputs) := by
  have hstart : Shadows control control' data data' (s.onChannels control data).start
      (s.onChannels control' data').start := by
    apply after _ rfl
    exact send hcontrol _ awaitLine
  apply hstart.andThen
  . intro s hopen
    exact run hcontrol hopen inputs
  . intro s reason hphase
    exact run_of_not_isReading oracle s _ (isReading_of_ended hphase)

end

theorem exists_of_ended (h : Shadows control control' data data' step step') {reason : Reason}
    (hended : step.1.phase = .ended reason)
    : ∃ events,
        events.filterMap Event.shutDown? = []
          ∧
        step.2 = events ++ closing control data reason
          ∧
        step'.2 = events ++ closing control' data' reason
          ∧
        step'.1.phase = .ended reason
          ∧
        step'.1.state = step.1.state := by
  cases h with
  | going hopen _ => exact absurd hended (hopen reason)
  | @ended s events found hevents =>
    obtain rfl : found = reason := Phase.ended.inj hended
    refine ⟨events, hevents, ?_, ?_, rfl, rfl⟩
    . exact congrArg (events ++ ·) (finish_eq_closing _ found)
    . exact congrArg (events ++ ·) (finish_eq_closing _ found)

theorem filterMap_shutDown?_of_open (h : Shadows control control' data data' step step')
    (hopen : step.1.Open) : step.2.filterMap Event.shutDown? = [] := by
  cases h with
  | going _ hevents => exact hevents
  | @ended s events reason _ => exact absurd rfl (hopen reason)

end Shadows

theorem exists_taken_run {s : Session} {oracle : Action.Oracle} {inputs : List Input}
    {reason : Reason} (hopen : s.Open) (hended : (s.run oracle inputs).1.phase = .ended reason)
    : ∃ taken rest,
        inputs = taken ++ rest
          ∧
        (∀ first, first <+: taken → first ≠ taken → (s.run oracle first).1.Open)
          ∧
        ∀ other, s.run oracle (taken ++ other) = s.run oracle inputs := by
  induction inputs generalizing s with
  | nil => exact absurd hended (hopen reason)
  | cons input inputs ih =>
    by_cases hread : ∃ found, (s.read oracle input).1.phase = .ended found
    . obtain ⟨found, hfound⟩ := hread
      have hidle : ∀ other, s.run oracle (input :: other) = s.read oracle input := by
        intro other
        rw [run]
        apply Step.andThen_of_idle
        exact run_of_not_isReading oracle _ other (isReading_of_ended hfound)
      refine ⟨[input], inputs, rfl, ?_, ?_⟩
      . intro first hprefix hne
        rcases List.prefix_cons_iff.1 hprefix with rfl | ⟨later, rfl, hlater⟩
        . exact hopen
        . rw [List.prefix_nil.1 hlater] at hne
          exact absurd rfl hne
      . intro other
        rw [List.singleton_append, hidle, hidle]
    . rw [not_exists] at hread
      obtain ⟨taken, rest, hsplit, hfirst, hother⟩ := ih hread hended
      refine ⟨input :: taken, rest, ?_, ?_, ?_⟩
      . rw [hsplit]
        rfl
      . intro first hprefix hne
        rcases List.prefix_cons_iff.1 hprefix with rfl | ⟨later, rfl, hlater⟩
        . exact hopen
        . apply hfirst later hlater
          exact fun heq => hne (congrArg _ heq)
      . intro other
        rw [List.cons_append, run, run]
        apply Step.andThen_congr
        apply hother

theorem exists_taken_hear {s : Session} {oracle : Action.Oracle} {inputs : List Input}
    {reason : Reason} (hended : (s.hear oracle inputs).1.phase = .ended reason)
    : ∃ taken rest,
        inputs = taken ++ rest
          ∧
        (∀ first, first <+: taken → first ≠ taken → (s.hear oracle first).1.Open)
          ∧
        ∀ other, s.hear oracle (taken ++ other) = s.hear oracle inputs := by
  by_cases hstart : ∃ found, s.start.1.phase = .ended found
  . obtain ⟨found, hfound⟩ := hstart
    have hidle : ∀ other, s.hear oracle other = s.start := by
      intro other
      apply Step.andThen_of_idle
      exact run_of_not_isReading oracle _ other (isReading_of_ended hfound)
    refine ⟨[], inputs, rfl, ?_, ?_⟩
    . intro first hprefix hne
      exact absurd (List.prefix_nil.1 hprefix) hne
    . intro other
      rw [hidle, hidle]
  . rw [not_exists] at hstart
    obtain ⟨taken, rest, hsplit, hfirst, hother⟩ := exists_taken_run hstart hended
    refine ⟨taken, rest, hsplit, hfirst, ?_⟩
    intro other
    apply Step.andThen_congr
    apply hother

theorem filterMap_shutDown?_closing (control : Channel) (data : Option Channel) (reason : Reason)
    : (closing control data reason).filterMap Event.shutDown?
        =
      (control :: data.toList).map fun ch => (ch.name, (ch.fault .shutdown 0).isNone) := by
  have hnotes : ∀ notes : List Note, (notes.map Event.noted).filterMap Event.shutDown? = [] := by
    intro notes
    rw [List.filterMap_map]
    exact List.filterMap_eq_nil_iff.2 fun _ _ => rfl
  have hshut : ∀ (ch : Channel) label, (ch.shutDown label).filterMap Event.shutDown?
      = [(ch.name, (ch.fault .shutdown 0).isNone)] := by
    intro ch label
    rw [ch.shutDown_eq, List.filterMap_cons_some (by rfl), hnotes]
  cases data with
  | none => simp [closing, hshut, Event.shutDown?]
  | some ch => simp [closing, hshut, Event.shutDown?]

theorem records_closing (log : ConnectionLog) (control : Channel) (data : Option Channel)
    (reason : Reason)
    : log.records (closing control data reason)
        =
      (lastNotes control data reason).map log.record := by
  have hnotes : ∀ notes : List Note, log.records (notes.map .noted) = notes.map log.record := by
    intro notes
    unfold ConnectionLog.records
    rw [List.filterMap_map]
    exact congrFun List.filterMap_eq_map notes
  have hshut : ∀ (ch : Channel) label,
      log.records (ch.shutDown label) = (ch.complaint? label).toList.map log.record := by
    intro ch label
    rw [ch.shutDown_eq, ← hnotes]
    rfl
  unfold ConnectionLog.records at *
  rw [closing, lastNotes, List.filterMap_append, List.filterMap_append, hshut, List.map_append,
    List.map_append]
  cases data with
  | none => rfl
  | some ch =>
    dsimp only [Option.elim, Option.bind_some]
    rw [hshut]
    rfl

theorem phase_of_termination? {s : Session} {log : ConnectionLog} {termination : Termination}
    (h : s.termination? log = some termination) : s.phase = .ended termination.reason := by
  unfold termination? at h
  split at h
  . next reason hphase =>
    rw [← Option.some.inj h]
    exact hphase
  . contradiction

/--
The channels are shut down once, behind all that is read, written and flushed, the control channel
first. Only the data channel that was attached last is among them, and what comes of shutting them
down changes nothing but the notes on it.
-/
theorem attachAll_serve_releases (cfg : SessionSettings) (control : Channel)
    (channels : List Channel) (oracle : Action.Oracle) (inputs : List Input) (log : ConnectionLog)
    : let attached := ({ settings := cfg, control } : Session).attachAll channels
      let last := channels.getLast?
      let served := attached.2.serve oracle inputs
      attached.1 = (none :: channels.map some).take channels.length
        ∧
      attached.2.data = last
        ∧
      ∀ termination,
        served.1.termination? log = some termination
          →
        ∃ events taken rest,
          served.2 = events ++ closing control last termination.reason
            ∧
          events.filterMap Event.shutDown? = []
            ∧
          served.2.filterMap Event.shutDown?
              =
            (control :: last.toList).map (fun ch => (ch.name, (ch.fault .shutdown 0).isNone))
            ∧
          inputs ++ lastingEnd = taken ++ rest
            ∧
          (∀ first,
            first <+: taken
              →
            first ≠ taken
              →
            (attached.2.hear oracle first).2.filterMap Event.shutDown? = [])
            ∧
          (∀ other, attached.2.hear oracle (taken ++ other) = served)
            ∧
          log.records served.2
              =
            log.records events ++ (lastNotes control last termination.reason).map log.record
            ∧
          ∀ (control' : Channel) (data' : Option Channel),
            control.Alike control'
              →
            let served' := (attached.2.onChannels control' data').serve oracle inputs
            served'.2 = events ++ closing control' data' termination.reason
              ∧
            served'.2.filterMap Event.flushed? = served.2.filterMap Event.flushed?
              ∧
            served'.1.termination? log = some termination := by
  intro attached last served
  have hattached : attached = ((none :: channels.map some).take channels.length,
      onChannels control last { settings := cfg }) := by
    apply (attachAll_eq _ channels).trans
    rw [Option.or_none]
    rfl
  have hopened : attached.2 = onChannels control last { settings := cfg } := by rw [hattached]
  have hshadows : ∀ (control' : Channel) (data' : Option Channel) inputs, control.Alike control'
      → Shadows control control' last data' (attached.2.hear oracle inputs)
        ((attached.2.onChannels control' data').hear oracle inputs) := by
    intro control' data' inputs hcontrol
    rw [hopened]
    exact .hear hcontrol _ inputs
  have hself : control.Alike control := ⟨rfl, rfl, rfl⟩
  refine ⟨by rw [hattached], by rw [hopened]; rfl, ?_⟩
  intro termination htermination
  have hended := phase_of_termination? htermination
  obtain ⟨events, hevents, hserved, _, _, _⟩ :=
    (hshadows control last (inputs ++ lastingEnd) hself).exists_of_ended hended
  change served.2 = _ at hserved
  obtain ⟨taken, rest, hsplit, hfirst, hother⟩ := exists_taken_hear hended
  refine ⟨events, taken, rest, hserved, hevents, ?_, hsplit, ?_, hother, ?_, ?_⟩
  . rw [hserved, List.filterMap_append, hevents, List.nil_append]
    apply filterMap_shutDown?_closing
  . intro first hprefix hne
    exact (hshadows control last first hself).filterMap_shutDown?_of_open (hfirst first hprefix hne)
  . rw [hserved, ← records_closing]
    apply List.filterMap_append
  . intro control' data' hcontrol served'
    obtain ⟨found, _, hfound, hserved', hphase, hstate⟩ :=
      (hshadows control' data' (inputs ++ lastingEnd) hcontrol).exists_of_ended hended
    change served.2 = _ at hfound
    obtain rfl : events = found := List.append_cancel_right (hserved.symm.trans hfound)
    change served'.2 = _ at hserved'
    change served'.1.phase = _ at hphase
    change served'.1.state = served.1.state at hstate
    have hclosing := filterMap_closing Event.flushed? (fun _ => rfl) (fun _ _ => rfl)
    refine ⟨hserved', ?_, ?_⟩
    . rw [hserved', hserved, List.filterMap_append, List.filterMap_append, hclosing, hclosing]
    . rw [← htermination, termination?, termination?, hphase, hended, hstate]

theorem attachAll_serve_releases_of_broken_reply
    : let cfg : SessionSettings := { welcome := "hi", maxCommandLength := 16 }
      let broken (name : String) : Channel :=
        { name
          fault := fun operation n =>
            if operation = .shutdown ∨ operation = .write ∧ n = 1 then some "broken" else none }
      let control := broken "control"
      let channels := [broken "data0", broken "data1"]
      let log : ConnectionLog := ⟨"rax_ftp", 1, "[::1]:1"⟩
      let attached := ({ settings := cfg, control } : Session).attachAll channels
      let served := attached.2.serve .later ([88, 10, 89, 10].map .byte)
      let control' : Channel :=
        { control with
          fault := fun operation n =>
            if operation = .shutdown then none else control.fault operation n }
      let served' := (attached.2.onChannels control' none).serve .later ([88, 10, 89, 10].map .byte)
      let termination : Termination := ⟨1, "[::1]:1", .transport (.io "broken"), .initial⟩
      attached.1 = [none, some (broken "data0")]
        ∧
      control.Alike control'
        ∧
      served.1.termination? log = some termination
        ∧
      served.2.filterMap Event.shutDown? = [("control", false), ("data1", false)]
        ∧
      served'.1.termination? log = some termination := by
  intro cfg broken control channels log attached served control' served' termination
  have hrelease := attachAll_serve_releases cfg control channels .later
    ([88, 10, 89, 10].map .byte) log
  have hcontrol : control.Alike control' := ⟨rfl, rfl, rfl⟩
  have htermination : served.1.termination? log = some termination := by decide +kernel
  obtain ⟨events, taken, rest, _, _, hshut, _, _, _, _, hothers⟩ :=
    hrelease.2.2 termination htermination
  exact ⟨hrelease.1, hcontrol, htermination, hshut, (hothers control' none hcontrol).2.2⟩

end Session

end FtpControl
