import Mathlib
import FtpControl.Proofs.ListenerStep
import FtpControl.Proofs.Sending

/-!
This module contains the cap on connections. At every moment the free places and the sessions that
hold one make up the number of places that the listener was bound with, so a connection is turned
away exactly when all places are held, and a place is free again before anybody hears of the end of
its session.
-/

namespace FtpControl

namespace Connection

def holdsPlace (c : Connection) : Bool :=
  !c.vacated

theorem holdsPlace_eq_true_iff {c : Connection} : c.holdsPlace = true ↔ c.vacated = false := by
  unfold holdsPlace
  rw [Bool.not_eq_true']

theorem holdsPlace_eq_false_iff {c : Connection} : c.holdsPlace = false ↔ c.vacated = true := by
  unfold holdsPlace
  rw [Bool.not_eq_false']

theorem Keeps.holdsPlace_eq {c : Connection} {step : Step} (h : c.Keeps step)
    : step.1.holdsPlace = c.holdsPlace := by
  unfold holdsPlace
  rw [h.vacated_eq]

end Connection

namespace Listener

namespace Effect

@[simp]
def served? : Effect → Option ConnectionLog
  | served _ log => some log
  | _ => none

@[simp]
def notified? : Effect → Option Termination
  | notified _ termination => some termination
  | _ => none

end Effect

variable {l : Listener} {limit : Nat} {c : Connection} {before after : List Connection}

def holders (l : Listener) : Nat :=
  l.connections.countP (·.holdsPlace)

structure Within (limit : Nat) (l : Listener) : Prop where
  numbered : l.Numbered
  places_eq : l.places + l.holders = limit
  isOver_of_vacated : ∀ c ∈ l.connections, c.vacated = true → c.isOver = true

theorem Within.split (h : l.Within limit) (hsplit : l.connections = before ++ c :: after)
    : l.places + ((before ++ after).countP (·.holdsPlace) + if c.holdsPlace then 1 else 0) = limit
        ∧
      (c.vacated = true → c.isOver = true)
        ∧
      ∀ other ∈ before ++ after, other.vacated = true → other.isOver = true := by
  have hplaces := h.places_eq
  have hover := h.isOver_of_vacated
  unfold holders at hplaces
  rw [hsplit, List.perm_middle.countP_eq, List.countP_cons] at hplaces
  simp only [hsplit, List.perm_middle.mem_iff, List.forall_mem_cons] at hover
  exact ⟨hplaces, hover.1, hover.2⟩

theorem Within.of_moves (h : l.Within limit) {step : Step} (hmoves : l.Moves step)
    : step.1.Within limit := by
  have hnumbered := h.numbered.of_moves hmoves
  cases hmoves with
  | idle => exact h
  | complained note => exact ⟨hnumbered, h.places_eq, h.isOver_of_vacated⟩
  | stopped note => exact ⟨hnumbered, h.places_eq, h.isOver_of_vacated⟩
  | refused note peer control hzero => exact h
  | served c events hsucc hlog hserial hvacated =>
    have hplaces := h.places_eq
    refine ⟨hnumbered, ?_, ?_⟩
    . have hholds : c.holdsPlace = true := Connection.holdsPlace_eq_true_iff.2 hvacated
      unfold holders at hplaces ⊢
      rw [List.countP_append, List.countP_singleton, if_pos hholds]
      dsimp only
      omega
    . rw [List.forall_mem_append, List.forall_mem_singleton]
      refine ⟨h.isOver_of_vacated, ?_⟩
      intro hgone
      rw [hvacated] at hgone
      contradiction
  | wentOn hsplit hkeeps =>
    obtain ⟨hplaces, hover, hothers⟩ := h.split hsplit
    refine ⟨hnumbered, ?_, ?_⟩
    . unfold holders
      rw [List.perm_middle.countP_eq, List.countP_cons, hkeeps.holdsPlace_eq]
      exact hplaces
    . simp only [List.perm_middle.mem_iff, List.forall_mem_cons]
      refine ⟨?_, hothers⟩
      intro hgone
      rw [hkeeps.vacated_eq] at hgone
      have hended := hover hgone
      rw [Connection.isOver_of_session_eq (hkeeps.session_eq hended)]
      exact hended
  | vacated hsplit hended hvacated htermination =>
    obtain ⟨hplaces, _, hothers⟩ := h.split hsplit
    rw [if_pos (Connection.holdsPlace_eq_true_iff.2 hvacated)] at hplaces
    refine ⟨hnumbered, ?_, ?_⟩
    . unfold holders
      rw [List.perm_middle.countP_eq, List.countP_cons, if_neg (by simp [Connection.holdsPlace])]
      dsimp only
      omega
    . simp only [List.perm_middle.mem_iff, List.forall_mem_cons]
      exact ⟨fun _ => hended, hothers⟩
  | forgotten hsplit hended hvacated htermination =>
    obtain ⟨hplaces, _, hothers⟩ := h.split hsplit
    rw [if_pos (Connection.holdsPlace_eq_true_iff.2 hvacated)] at hplaces
    refine ⟨hnumbered, ?_, hothers⟩
    unfold holders
    dsimp only
    omega
  | reported hsplit hvacated =>
    obtain ⟨hplaces, _, hothers⟩ := h.split hsplit
    rw [Connection.holdsPlace_eq_false_iff.2 hvacated] at hplaces
    exact ⟨hnumbered, hplaces, hothers⟩

theorem Within.countP_running_le (h : l.Within limit)
    : l.connections.countP (fun c => !c.isOver) ≤ limit := by
  have hmono : l.connections.countP (fun c => !c.isOver) ≤ l.holders := by
    apply List.countP_mono_left
    intro c hc hrunning
    rw [Connection.holdsPlace_eq_true_iff, ← Bool.not_eq_true]
    intro hvacated
    rw [h.isOver_of_vacated c hc hvacated] at hrunning
    contradiction
  have hplaces := h.places_eq
  omega

theorem Within.step (h : l.Within limit) (stimulus : Stimulus)
    : (l.step stimulus).1.Within limit := by
  exact h.of_moves (h.numbered.moves_step stimulus)

theorem Within.run (h : l.Within limit) (stimuli : List Stimulus)
    : (l.run stimuli).1.Within limit := by
  induction stimuli generalizing l with
  | nil => exact h
  | cons stimulus rest ih => exact ih (h.step stimulus)

theorem Within.exists_of_not_isOver (h : l.Within limit) {step : Step} (hmoves : l.Moves step)
    (hc : c ∈ l.connections) (hrunning : c.isOver = false)
    : ∃ next ∈ step.1.connections, next.serial = c.serial ∧ next.holdsPlace = true := by
  have hholds : c.holdsPlace = true := by
    rw [Connection.holdsPlace_eq_true_iff, ← Bool.not_eq_true]
    intro hvacated
    have hover := h.isOver_of_vacated c hc hvacated
    rw [hrunning] at hover
    contradiction
  cases hmoves with
  | idle => exact ⟨c, hc, rfl, hholds⟩
  | complained note => exact ⟨c, hc, rfl, hholds⟩
  | stopped note => exact ⟨c, hc, rfl, hholds⟩
  | refused note peer control hzero => exact ⟨c, hc, rfl, hholds⟩
  | served new events hsucc hlog hserial hvacated =>
    exact ⟨c, List.mem_append_left _ hc, rfl, hholds⟩
  | wentOn hsplit hkeeps =>
    rw [hsplit, List.perm_middle.mem_iff, List.mem_cons] at hc
    rcases hc with rfl | hc
    . refine ⟨_, ?_, hkeeps.serial_eq, hkeeps.holdsPlace_eq.trans hholds⟩
      exact List.mem_append_right _ List.mem_cons_self
    . refine ⟨c, ?_, rfl, hholds⟩
      rw [List.perm_middle.mem_iff]
      exact List.mem_cons_of_mem _ hc
  | vacated hsplit hended hvacated htermination =>
    rw [hsplit, List.perm_middle.mem_iff, List.mem_cons] at hc
    rcases hc with rfl | hc
    . rw [hrunning] at hended
      contradiction
    . refine ⟨c, ?_, rfl, hholds⟩
      rw [List.perm_middle.mem_iff]
      exact List.mem_cons_of_mem _ hc
  | forgotten hsplit hended hvacated htermination =>
    rw [hsplit, List.perm_middle.mem_iff, List.mem_cons] at hc
    rcases hc with rfl | hc
    . rw [hrunning] at hended
      contradiction
    . exact ⟨c, hc, rfl, hholds⟩
  | reported hsplit hvacated =>
    rw [hsplit, List.perm_middle.mem_iff, List.mem_cons] at hc
    rcases hc with rfl | hc
    . rw [Connection.holdsPlace_eq_true_iff, hvacated] at hholds
      contradiction
    . exact ⟨c, hc, rfl, hholds⟩

theorem Moves.exists_of_notified {step : Step} (h : l.Moves step) {serial : Nat}
    {termination : Termination} (hmem : .notified serial termination ∈ step.2)
    : ∃ c ∈ l.connections,
        c.serial = serial ∧ c.vacated = true ∧ c.termination? = some termination := by
  cases h with
  | reported hsplit hvacated =>
    simp only [List.mem_map, Effect.notified.injEq] at hmem
    obtain ⟨found, hfound, rfl, rfl⟩ := hmem
    refine ⟨_, ?_, rfl, hvacated, ?_⟩
    . rw [hsplit]
      exact List.mem_append_right _ List.mem_cons_self
    . split at hfound
      . exact Option.mem_toList.1 hfound
      . contradiction
  | _ => simp at hmem

structure Tallies (l : Listener) (step : Step) : Prop where
  started_eq : step.1.started = l.started + (step.2.filterMap Effect.served?).length
  length_le : step.1.connections.length + (step.2.filterMap Effect.notified?).length
    ≤ l.connections.length + (step.2.filterMap Effect.served?).length

theorem Moves.tallies {step : Step} (h : l.Moves step) : l.Tallies step := by
  cases h with
  | idle => exact ⟨rfl, Nat.le_refl _⟩
  | complained note => exact ⟨rfl, Nat.le_refl _⟩
  | stopped note => exact ⟨rfl, Nat.le_refl _⟩
  | refused note peer control hplaces =>
    constructor <;> simp [List.length_filterMap_eq_countP, Function.comp_def]
  | served c events hplaces hlog hserial hvacated =>
    constructor <;> simp [List.length_filterMap_eq_countP, Function.comp_def]
  | wentOn hsplit hkeeps =>
    constructor
    . simp [Function.comp_def]
    . rw [hsplit]
      simp [Function.comp_def]
  | vacated hsplit hover hvacated htermination =>
    constructor
    . rfl
    . rw [hsplit, List.length_append, List.length_append]
      exact Nat.le_refl _
  | forgotten hsplit hover hvacated htermination =>
    constructor
    . rfl
    . rw [hsplit, List.perm_middle.length_eq]
      exact Nat.le_succ _
  | @reported c before after hsplit hvacated =>
    have hnotices : (if l.notifies then c.termination?.toList else []).length ≤ 1 := by
      split
      . cases c.termination? <;> simp
      . simp
    constructor
    . simp [Function.comp_def]
    . rw [hsplit, List.perm_middle.length_eq, List.length_cons]
      simpa [List.length_filterMap_eq_countP, Function.comp_def] using hnotices

theorem Tallies.cons {stimulus : Stimulus} {rest : List Stimulus}
    (hfirst : l.Tallies (l.step stimulus))
    (hrest : (l.step stimulus).1.Tallies ((l.step stimulus).1.run rest))
    : l.Tallies (l.run (stimulus :: rest)) := by
  have hstarted := hrest.started_eq
  have hlength := hrest.length_le
  rw [hfirst.started_eq] at hstarted
  have hfirst := hfirst.length_le
  constructor
  . rw [run, List.filterMap_append, List.length_append, ← Nat.add_assoc]
    exact hstarted
  . rw [run, List.filterMap_append, List.length_append, List.filterMap_append, List.length_append]
    dsimp only
    omega

theorem Numbered.tallies_run (h : l.Numbered) (stimuli : List Stimulus)
    : l.Tallies (l.run stimuli) := by
  induction stimuli generalizing l with
  | nil => exact ⟨rfl, Nat.le_refl _⟩
  | cons stimulus rest ih =>
    have hmoves := h.moves_step stimulus
    exact hmoves.tallies.cons (ih (h.of_moves hmoves))

theorem connect_of_full (h : l.places = 0) (peer : String) (control : Channel)
    : l.connect peer control
        =
      (l, .noted ⟨.warn, s!"Refusing {peer}: {l.maxClients} clients already connected"⟩
        :: (turnAway control).map (.refused peer)) := by
  unfold connect
  rw [h]

theorem connect_of_places (h : l.places ≠ 0) (peer : String) (control : Channel)
    : ∃ (c : Connection) (events : List Event),
        c.serial = l.started
          ∧
        c.holdsPlace = true
          ∧
        (l.connect peer control).1.connections = l.connections ++ [c]
          ∧
        (l.connect peer control).2
          =
        .served l.started c.log :: events.map (.happened l.started c.log) := by
  unfold connect
  split
  . contradiction
  . exact ⟨_, _, rfl, rfl, rfl, rfl⟩

theorem isWrite_of_mem_shutDown (control : Channel) (label : String)
    : ∀ event ∈ control.shutDown label, event.isWrite = false := by
  unfold Channel.shutDown
  split <;> simp [Event.isWrite]

theorem written_turnAway (control : Channel)
    : written (turnAway control)
        =
      written (control.write {} (Text.Utf8.encodeString refusal.encode)).events := by
  unfold turnAway
  dsimp only
  rw [written_append, written_append, written_eq_nil (isWrite_of_mem_shutDown _ _)]
  rw [List.append_nil]
  cases (control.write {} (Text.Utf8.encodeString refusal.encode)).fault? with
  | none => apply List.append_nil
  | some reason => apply List.append_nil

theorem exists_mem_turnAway (control : Channel) : ∃ event, event ∈ turnAway control := by
  unfold turnAway Channel.shutDown
  split
  . exact ⟨_, List.mem_append_right _ List.mem_cons_self⟩
  . exact ⟨_, List.mem_append_right _ List.mem_cons_self⟩

theorem call?_of_mem_turnAway (control : Channel)
    : ∀ event ∈ turnAway control, event.call? = none := by
  unfold turnAway Channel.shutDown
  dsimp only
  rw [List.forall_mem_append, List.forall_mem_append]
  refine ⟨⟨?_, ?_⟩, ?_⟩
  . intro event hmem
    rcases control.wrote_or_failed_of_mem_write _ _ event hmem with ⟨piece, rfl⟩ | ⟨reason, rfl⟩
    . rfl
    . rfl
  . cases (control.write {} (Text.Utf8.encodeString refusal.encode)).fault? <;> simp [Event.call?]
  . split <;> simp [Event.call?]

theorem encode_refusal : refusal.encode = "421 Too many connections. Try again later.\r\n" := by
  cbv

theorem refused_iff_full (haccepting : l.accepting = true) (peer : String) (control : Channel)
    : (∃ event, .refused peer event ∈ (l.step (.connected peer control)).2) ↔ l.places = 0 := by
  rw [step, if_pos haccepting]
  by_cases hplaces : l.places = 0
  . rw [connect_of_full hplaces]
    obtain ⟨event, hevent⟩ := exists_mem_turnAway control
    refine ⟨fun _ => hplaces, fun _ => ⟨event, ?_⟩⟩
    exact List.mem_cons_of_mem _ (List.mem_map_of_mem hevent)
  . obtain ⟨c, events, _, _, _, heffects⟩ := connect_of_places hplaces peer control
    rw [heffects]
    simp [hplaces]

theorem served_iff_places (haccepting : l.accepting = true) (peer : String) (control : Channel)
    : (∃ c ∈ (l.step (.connected peer control)).1.connections,
        c.serial = l.started
          ∧
        c.holdsPlace = true
          ∧
        .served l.started c.log ∈ (l.step (.connected peer control)).2)
        ↔
      l.places ≠ 0 := by
  rw [step, if_pos haccepting]
  by_cases hplaces : l.places = 0
  . rw [connect_of_full hplaces]
    simp [hplaces]
  . obtain ⟨c, events, hserial, hholds, hconnections, heffects⟩ :=
      connect_of_places hplaces peer control
    refine ⟨fun _ => hplaces, fun _ => ⟨c, ?_, hserial, hholds, ?_⟩⟩
    . rw [hconnections]
      exact List.mem_append_right _ List.mem_cons_self
    . rw [heffects]
      exact List.mem_cons_self

theorem opened_of_bind {host : Host} {config : ServerConfig} {settings : SessionSettings}
    {log : ServerLog} {records : List Record} {opened : Listener}
    (hbind : bind host config settings log = (records, .listening opened))
    : opened.connections = []
        ∧
      opened.started = 0
        ∧
      opened.places = config.maxClients.toNat := by
  unfold bind at hbind
  split at hbind
  . simp at hbind
  . split at hbind
    . simp at hbind
    . dsimp only at hbind
      split at hbind
      . simp only [Prod.mk.injEq, Outcome.listening.injEq] at hbind
        obtain ⟨_, rfl⟩ := hbind
        exact ⟨rfl, rfl, rfl⟩
      . simp at hbind

theorem within_of_connections_eq_nil (l : Listener) (h : l.connections = [])
    : l.Within l.places := by
  refine ⟨⟨?_, ?_⟩, ?_, ?_⟩
  . rw [h]
    exact List.Pairwise.nil
  . simp [h]
  . simp [holders, h]
  . simp [h]

/--
The cap on connections, at any moment of any run. A client for which there is no place gets one line
and nothing else, and leaves no trace in the listener.
-/
theorem run_within_capacity (host : Host) (config : ServerConfig) (settings : SessionSettings)
    (log : ServerLog) (notifies : Bool) (stimuli : List Stimulus) {records : List Record}
    {opened : Listener} (hbind : bind host config settings log = (records, .listening opened))
    : let limit := config.maxClients.toNat
      let result := ({ opened with notifies } : Listener).run stimuli
      let l := result.1
      let started := (result.2.filterMap Effect.served?).length
      let notices := (result.2.filterMap Effect.notified?).length
      (l.places + l.holders = limit
        ∧ l.started = started
        ∧ l.connections.countP (fun c => !c.isOver) ≤ limit
        ∧ ∀ c ∈ l.connections, c.isOver = false → ∀ stimulus,
            ∃ next ∈ (l.step stimulus).1.connections,
              next.serial = c.serial ∧ next.holdsPlace = true)
        ∧
      (∀ stimulus serial termination, .notified serial termination ∈ (l.step stimulus).2
        → ∃ c ∈ l.connections,
            c.serial = serial ∧ c.holdsPlace = false ∧ c.termination? = some termination)
        ∧
      (l.accepting = true → ∀ peer control,
        let step := l.step (.connected peer control)
        ((∃ event, .refused peer event ∈ step.2) ↔ l.places = 0)
          ∧
        (l.places = 0
            →
          step
            =
          (l, .noted ⟨.warn, s!"Refusing {peer}: {l.maxClients} clients already connected"⟩
            :: (turnAway control).map (.refused peer)))
          ∧
        ((∃ c ∈ step.1.connections,
            c.serial = started ∧ c.holdsPlace = true ∧ .served started c.log ∈ step.2)
          ↔ l.places ≠ 0)
          ∧
        ∀ received ≤ notices, started < limit + received → l.places ≠ 0)
        ∧
      (∀ control : Channel,
        let line := Text.Utf8.encodeString "421 Too many connections. Try again later.\r\n"
        written (turnAway control) <+: line
          ∧
        (control.Faultless → written (turnAway control) = line)
          ∧
        (turnAway control).filterMap Event.call? = []) := by
  intro limit result l started notices
  obtain ⟨hconnections, hstarted, hplaces⟩ := opened_of_bind hbind
  have hstart : ({ opened with notifies } : Listener).Within limit := by
    rw [show limit = opened.places from hplaces.symm]
    exact within_of_connections_eq_nil { opened with notifies } hconnections
  have hwithin : l.Within limit := hstart.run stimuli
  have htallies := hstart.numbered.tallies_run stimuli
  have hserved : l.started = opened.started + started := htallies.started_eq
  have hlength : l.connections.length + notices ≤ opened.connections.length + started :=
    htallies.length_le
  rw [hstarted, Nat.zero_add] at hserved
  rw [hconnections, List.length_nil, Nat.zero_add] at hlength
  refine ⟨⟨hwithin.places_eq, hserved, hwithin.countP_running_le, ?_⟩, ?_, ?_, ?_⟩
  . intro c hc hrunning stimulus
    exact hwithin.exists_of_not_isOver (hwithin.numbered.moves_step stimulus) hc hrunning
  . intro stimulus serial termination hmem
    obtain ⟨c, hc, hserial, hvacated, htermination⟩ :=
      (hwithin.numbered.moves_step stimulus).exists_of_notified hmem
    exact ⟨c, hc, hserial, Connection.holdsPlace_eq_false_iff.2 hvacated, htermination⟩
  . intro haccepting peer control step
    refine ⟨refused_iff_full haccepting peer control, ?_, ?_, ?_⟩
    . intro hfull
      rw [← connect_of_full hfull peer control]
      exact if_pos haccepting
    . rw [← hserved]
      exact served_iff_places haccepting peer control
    . intro received hreceived hfew hfull
      have hholders : l.holders ≤ l.connections.length := List.countP_le_length
      have hall := hwithin.places_eq
      omega
  . intro control line
    obtain ⟨hbegins, hall⟩ := control.written_write {} (Text.Utf8.encodeString refusal.encode)
    rw [encode_refusal] at hbegins hall
    rw [written_turnAway, encode_refusal]
    refine ⟨hbegins, ?_, ?_⟩
    . intro hcontrol
      exact hall (hcontrol.write {} _).1
    . rw [List.filterMap_eq_nil_iff]
      exact call?_of_mem_turnAway control

set_option maxRecDepth 10000 in
theorem run_within_capacity_one_place
    : let host : Host := {}
      let config : ServerConfig := { maxClients := 1 }
      let settings : SessionSettings := { welcome := "hi", maxCommandLength := 16 }
      let control : Channel := { name := "control" }
      let opened : Listener :=
        { settings, log := {}, address := config.controlSocket, maxClients := 1, places := 1 }
      let busy := (opened.run [.connected "a" control]).1
      let stimuli := [.connected "a" control, .received 0 [.eof], .connected "b" control,
        .vacated 0, .reported 0]
      let idle := (opened.run stimuli).1
      (∃ records, bind host config settings {} = (records, .listening opened))
        ∧
      (∃ event, .refused "b" event ∈ (busy.step (.connected "b" control)).2)
        ∧
      written (turnAway control)
        =
      Text.Utf8.encodeString "421 Too many connections. Try again later.\r\n"
        ∧
      ∃ c ∈ (idle.step (.connected "c" control)).1.connections,
        c.serial = 1 ∧ c.holdsPlace = true ∧ .served 1 c.log ∈ (idle.step (.connected "c" control)).2 := by
  intro host config settings control opened busy stimuli idle
  have hcontrol : control.Faultless := Channel.faultless_named _
  have hbusy := run_within_capacity host config settings {} true [.connected "a" control] rfl
  have hidle := run_within_capacity host config settings {} true stimuli rfl
  have haccepting : idle.accepting = true := by
    dsimp only [idle, stimuli, opened, settings, config, control]
    cbv
  have hstarted : ((opened.run stimuli).2.filterMap Effect.served?).length = 1 := by
    dsimp only [stimuli, opened, settings, config, control]
    cbv
  have hnotices : ((opened.run stimuli).2.filterMap Effect.notified?).length = 1 := by
    dsimp only [stimuli, opened, settings, config, control]
    cbv
  refine ⟨⟨_, rfl⟩, ?_, (hbusy.2.2.2 control).2.1 hcontrol, ?_⟩
  . exact (hbusy.2.2.1 rfl "b" control).1.2 rfl
  . obtain ⟨_, _, hserved, hplaces⟩ := hidle.2.2.1 haccepting "c" control
    have hfew : ((opened.run stimuli).2.filterMap Effect.served?).length
        < config.maxClients.toNat + 1 := by
      rw [hstarted]
      decide
    obtain ⟨c, hc, hserial, hholds, hmem⟩ :=
      hserved.2 (hplaces 1 (Nat.le_of_eq hnotices.symm) hfew)
    refine ⟨c, hc, hserial.trans hstarted, hholds, ?_⟩
    rw [← hstarted]
    exact hmem

end Listener

end FtpControl
