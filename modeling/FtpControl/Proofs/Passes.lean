import FtpControl.Proofs.Arity
import FtpControl.Proofs.Validation

/-!
This module contains the passes of the loops that a session reads with: one takes a line, and one
inside it drains the windows of a line that is too long. A pass takes bytes or leaves its loop, also
if the limit is 0, so every session comes to an end and works on no more requests than its peer has
sent bytes.
-/

namespace FtpControl

def Input.byte? : Input → Option UInt8
  | byte b => some b
  | _ => none

namespace Source

def bytes (src : Source) : List UInt8 :=
  src.inputs.filterMap Input.byte?

theorem filterMap_byte?_map (bytes : List UInt8)
    : (bytes.map Input.byte).filterMap Input.byte? = bytes := by
  rw [List.filterMap_map]
  exact List.filterMap_some

theorem bytes_take {src rest : Source} {window : Nat} {piece : List UInt8}
    (h : src.take window = .ok (piece, rest)) : src.bytes = piece ++ rest.bytes := by
  obtain ⟨body, behind, _, hinputs, hstops⟩ := exists_stops_take src window
  rw [h] at hstops
  rw [bytes, hinputs, List.filterMap_append, filterMap_byte?_map]
  cases hstops with
  | line _ _ =>
    rw [List.append_assoc]
    rfl
  | full _ _ => rfl
  | ended _ _ => rfl
  | exhausted _ _ hrest => rw [bytes, hrest]

-- A window without width takes nothing, and with that it ends the line.
theorem drain_zero (src : Source) : src.drain 0 = .ok src := by
  rw [drain_eq, take, if_pos rfl]
  rfl

theorem agrees_readLine_zero (src : Source) (n : Nat) (hn : src.Lasts n)
    : Agrees ((Framer.fresh 0).scan 0 (src.inputs ++ List.replicate n .eof)) (src.readLine 0) := by
  obtain ⟨body, behind, hbody, hinputs, hstops⟩ := exists_stops_take src 1
  have hthree : body ≠ [] ∨ behind ≠ [] → 3 ≤ n := three_le hn hinputs
  have hnil : body.length < 1 → body = [] := by
    intro hroom
    exact List.eq_nil_of_length_eq_zero (Nat.lt_one_iff.1 hroom)
  unfold readLine
  rw [hinputs]
  generalize src.take (0 + 1) = taken at hstops
  cases hstops with
  | line rest hroom =>
    obtain rfl := hnil hroom
    exact .frame (.overLong []) (.inl (hthree (.inr (by simp))))
  | full rest hroom =>
    obtain ⟨b, rfl⟩ := List.length_eq_one_iff.1 hroom
    have hb : b ≠ Framer.lf := by simpa [eq_comm] using hbody
    dsimp only
    rw [if_neg (by simp), if_neg (by simp), if_neg (by simpa using hb), drain_zero]
    have hscan : (Framer.fresh 0).scan 0 (.byte b :: (rest.inputs ++ List.replicate n .eof))
        = some (.frame (.overLong []), rest.inputs ++ List.replicate n .eof) := by
      apply Framer.scan_of_frame
      simp [Framer.fresh, Framer.step, Framer.overflow]
    exact hscan ▸ .frame (.overLong []) (.inl (hthree (.inl (by simp))))
  | ended rest hroom =>
    obtain rfl := hnil hroom
    exact .closed rest _
  | exhausted rest hroom hrest =>
    obtain rfl := hnil hroom
    obtain ⟨m, rfl⟩ : ∃ m, n = m + 1 := by
      rcases hn with hn | ⟨_, hn⟩
      . exact ⟨n - 1, by omega⟩
      . exact ⟨n - 1, by omega⟩
    exact .closed rest _
  | failed reason later hroom =>
    obtain rfl := hnil hroom
    exact .failed reason _

end Source

namespace Session

theorem serveFrom_eq (oracle : Action.Oracle) (s : Session) (src : Source)
    : s.serveFrom oracle src = s.serve oracle src.inputs := by
  rcases Nat.eq_zero_or_pos s.settings.maxCommandLength with hzero | hpos
  . exact serveFrom_eq_of_agrees Source.agrees_readLine_zero oracle s hzero src
  . exact serveFrom_eq_serve oracle s hpos src

inductive Stage where
  | line (s : Session) (reading : s.isReading = true) (src : Source)
  | window (s : Session) (kept : List UInt8) (src : Source)
  | done (s : Session) (src : Source)

namespace Stage

def source : Stage → Source
  | line _ _ src | window _ _ src | done _ src => src

def isDone : Stage → Bool
  | done .. => true
  | _ => false

def isDraining : Stage → Bool
  | window .. => true
  | _ => false

def owed (stage : Stage) : Nat :=
  stage.isDraining.toNat

def behind (step : Step) (src : Source) : Stage × List Event :=
  (if h : step.1.isReading = true then line step.1 h src else done step.1 src, step.2)

def pass (oracle : Action.Oracle) : Stage → Stage × List Event
  | line s _ src =>
    let limit := s.settings.maxCommandLength
    match src.take (limit + 1) with
    | .error reason => behind (s.finish (.transport (.io reason))) src
    | .ok (piece, rest) =>
      if piece = [] then
        behind (s.finish .peerClosed) rest
      else if piece.length ≤ limit then
        behind (s.handle oracle (.line piece)) rest
      else if piece.getLast? = some Framer.lf then
        behind (s.handle oracle (.overLong (piece.take limit))) rest
      else
        (window s (piece.take limit) rest, [])
  | window s kept src =>
    match src.take s.settings.maxCommandLength with
    | .error reason => behind (s.finish (.transport (.io reason))) src
    | .ok (piece, rest) =>
      if piece = [] ∨ piece.getLast? = some Framer.lf then
        behind (s.handle oracle (.overLong kept)) rest
      else
        (window s kept rest, [])
  | done s src => (done s src, [])

def passes (oracle : Action.Oracle) : Nat → Stage → Stage × List Event
  | 0, stage => (stage, [])
  | n + 1, stage =>
    let next := stage.pass oracle
    let last := passes oracle n next.1
    (last.1, next.2 ++ last.2)

def outcome (oracle : Action.Oracle) : Stage → Step
  | line s _ src => s.runFrom oracle src
  | window s kept src =>
    match src.drain s.settings.maxCommandLength with
    | .error reason => s.finish (.transport (.io reason))
    | .ok rest => (s.handle oracle (.overLong kept)).andThen fun s => s.runFrom oracle rest
  | done s _ => (s, [])

end Stage

variable {oracle : Action.Oracle} {s : Session}

theorem runFrom_of_isReading (hreading : s.isReading = true) (src : Source)
    : s.runFrom oracle src
        =
      match src.readLine s.settings.maxCommandLength with
      | .error reason => s.finish (.transport (.io reason))
      | .ok (none, _) => s.finish .peerClosed
      | .ok (some frame, rest) =>
        (s.handle oracle frame).andThen fun s => s.runFrom oracle rest := by
  rw [runFrom, if_pos hreading]
  split <;> simp_all

theorem runFrom_of_not_isReading (hreading : s.isReading ≠ true) (src : Source)
    : s.runFrom oracle src = (s, []) := by
  rw [runFrom, if_neg hreading]

namespace Stage

theorem outcome_behind (step : Step) (src : Source)
    : ((behind step src).1.outcome oracle).after (behind step src).2
        =
      step.andThen fun s => s.runFrom oracle src := by
  unfold behind
  split
  . rfl
  . next hreading =>
    rw [Step.andThen, runFrom_of_not_isReading hreading]
    rfl

theorem outcome_behind_finish (s : Session) (reason : Reason) (src : Source)
    : ((behind (s.finish reason) src).1.outcome oracle).after (behind (s.finish reason) src).2
        =
      s.finish reason := by
  rw [outcome_behind]
  apply Step.andThen_of_idle
  apply runFrom_of_not_isReading
  exact Bool.false_ne_true

theorem outcome_pass (oracle : Action.Oracle) (stage : Stage)
    : ((stage.pass oracle).1.outcome oracle).after (stage.pass oracle).2
        =
      stage.outcome oracle := by
  cases stage with
  | line s reading src =>
    rw [outcome, runFrom_of_isReading reading, pass, Source.readLine]
    cases src.take (s.settings.maxCommandLength + 1) with
    | error reason => exact outcome_behind_finish s _ src
    | ok taken =>
      obtain ⟨piece, rest⟩ := taken
      dsimp only
      split
      . exact outcome_behind_finish s _ rest
      . split
        . apply outcome_behind
        . split
          . apply outcome_behind
          . rw [outcome]
            cases rest.drain s.settings.maxCommandLength <;> rfl
  | window s kept src =>
    rw [outcome, Source.drain_eq, pass]
    cases src.take s.settings.maxCommandLength with
    | error reason => exact outcome_behind_finish s _ src
    | ok taken =>
      obtain ⟨piece, rest⟩ := taken
      dsimp only
      split
      . apply outcome_behind
      . rfl
  | done s src => rfl

theorem outcome_passes (oracle : Action.Oracle) (n : Nat) (stage : Stage)
    : ((stage.passes oracle n).1.outcome oracle).after (stage.passes oracle n).2
        =
      stage.outcome oracle := by
  induction n generalizing stage with
  | zero => rfl
  | succ n ih =>
    rw [← outcome_pass oracle stage, ← ih (stage.pass oracle).1, Step.after_after]
    rfl

-- What a pass does with some bytes. It takes them off the input and leaves the loops, or takes at
-- least one, or at least settles what is owed; and there are bytes for every request.
structure Uses (stage : Stage) (taken : List UInt8) (next : Stage × List Event) : Prop where
  bytes_eq : stage.source.bytes = taken ++ next.1.source.bytes
  progress : next.1.isDone = true ∨ taken ≠ [] ∨ stage.owed = 1 ∧ next.1.owed = 0
  requests_le : (next.2.filterMap Event.frame?).length + next.1.owed ≤ taken.length + stage.owed

theorem source_behind (step : Step) (src : Source) : (behind step src).1.source = src := by
  unfold behind
  split <;> rfl

theorem owed_behind (step : Step) (src : Source) : (behind step src).1.owed = 0 := by
  unfold behind
  split <;> rfl

variable {stage : Stage} {taken : List UInt8} {rest : Source}

theorem uses_finish (hbytes : stage.source.bytes = rest.bytes) (s : Session) (reason : Reason)
    : stage.Uses [] (behind (s.finish reason) rest) := by
  constructor
  . rw [source_behind]
    exact hbytes
  . exact .inl rfl
  . rw [owed_behind, behind, filterMap_frame?_finish]
    apply Nat.zero_le

theorem uses_handle (hbytes : stage.source.bytes = taken ++ rest.bytes)
    (hprogress : taken ≠ [] ∨ stage.owed = 1) (s : Session) (frame : Frame)
    : stage.Uses taken (behind (s.handle oracle frame) rest) := by
  constructor
  . rw [source_behind]
    exact hbytes
  . rw [owed_behind]
    exact .inr (hprogress.imp_right fun howed => ⟨howed, rfl⟩)
  . rw [owed_behind, behind, filterMap_frame?_handle, List.length_singleton]
    rcases hprogress with hne | howed
    . have hpos := List.length_pos_of_ne_nil hne
      omega
    . omega

theorem uses_window (hbytes : stage.source.bytes = taken ++ rest.bytes) (hne : taken ≠ [])
    (s : Session) (kept : List UInt8) : stage.Uses taken (window s kept rest, []) := by
  have hpos := List.length_pos_of_ne_nil hne
  constructor
  . exact hbytes
  . exact .inr (.inl hne)
  . change 0 + 1 ≤ taken.length + stage.owed
    omega

theorem exists_uses_pass (oracle : Action.Oracle) (stage : Stage)
    : ∃ taken, stage.Uses taken (stage.pass oracle) := by
  cases stage with
  | line s reading src =>
    rw [pass]
    cases htake : src.take (s.settings.maxCommandLength + 1) with
    | error reason => exact ⟨[], uses_finish rfl s _⟩
    | ok found =>
      obtain ⟨piece, rest⟩ := found
      have hbytes : (line s reading src).source.bytes = piece ++ rest.bytes :=
        Source.bytes_take htake
      dsimp only
      split
      . next hnil =>
        rw [hnil] at hbytes
        exact ⟨[], uses_finish hbytes s _⟩
      . next hne =>
        refine ⟨piece, ?_⟩
        split
        . exact uses_handle hbytes (.inl hne) s _
        . split
          . exact uses_handle hbytes (.inl hne) s _
          . exact uses_window hbytes hne s _
  | window s kept src =>
    rw [pass]
    cases htake : src.take s.settings.maxCommandLength with
    | error reason => exact ⟨[], uses_finish rfl s _⟩
    | ok found =>
      obtain ⟨piece, rest⟩ := found
      have hbytes : (window s kept src).source.bytes = piece ++ rest.bytes :=
        Source.bytes_take htake
      refine ⟨piece, ?_⟩
      dsimp only
      split
      . exact uses_handle hbytes (.inr rfl) s _
      . next hdone => exact uses_window hbytes (not_or.1 hdone).1 s _
  | done s src => exact ⟨[], rfl, .inl rfl, Nat.le_refl 0⟩

/--
More passes than this are not to come. A byte counts twice, so that taking one makes up for what is
owed with it.
-/
def rank (stage : Stage) : Nat :=
  if stage.isDone then 0 else 2 * stage.source.bytes.length + 1 + stage.owed

theorem isDraining_of_isDone {stage : Stage} (h : stage.isDone = true)
    : stage.isDraining = false := by
  cases stage with
  | done s src => rfl
  | _ => contradiction

theorem rank_pass_lt (oracle : Action.Oracle) {stage : Stage} (h : stage.isDone ≠ true)
    : (stage.pass oracle).1.rank < stage.rank := by
  obtain ⟨taken, huses⟩ := exists_uses_pass oracle stage
  have hlength := congrArg List.length huses.bytes_eq
  have howed : (stage.pass oracle).1.owed ≤ 1 := Bool.toNat_le _
  rw [List.length_append] at hlength
  unfold rank
  rw [if_neg h]
  rcases huses.progress with hleft | hne | ⟨hbefore, hafter⟩
  . rw [if_pos hleft]
    omega
  . have hpos := List.length_pos_of_ne_nil hne
    split <;> omega
  . split <;> omega

theorem exists_passes_isDone (oracle : Action.Oracle) (stage : Stage)
    : ∃ n ≤ stage.rank, (stage.passes oracle n).1.isDone = true := by
  by_cases h : stage.isDone = true
  . exact ⟨0, Nat.zero_le _, h⟩
  . have hrank := rank_pass_lt oracle h
    obtain ⟨n, hn, hleft⟩ := exists_passes_isDone oracle (stage.pass oracle).1
    exact ⟨n + 1, Nat.lt_of_le_of_lt hn hrank, hleft⟩
termination_by stage.rank

theorem requests_passes_le (oracle : Action.Oracle) (n : Nat) (stage : Stage)
    : ((stage.passes oracle n).2.filterMap Event.frame?).length
        + (stage.passes oracle n).1.source.bytes.length + (stage.passes oracle n).1.owed
        ≤
      stage.source.bytes.length + stage.owed := by
  induction n generalizing stage with
  | zero => simp [passes]
  | succ n ih =>
    obtain ⟨taken, huses⟩ := exists_uses_pass oracle stage
    have hlength := congrArg List.length huses.bytes_eq
    have hrequests := huses.requests_le
    have hrest := ih (stage.pass oracle).1
    rw [List.length_append] at hlength
    rw [passes]
    dsimp only
    rw [List.filterMap_append, List.length_append]
    omega

end Stage

theorem phase_handle (hanswers : ∀ past call, oracle past call ≠ none) (frame : Frame)
    (hruns : (s.settings.dispatch frame s.state).Runs)
    : (s.handle oracle frame).1.isReading = true
        ∨
      ∃ reason, (s.handle oracle frame).1.phase = .ended reason := by
  obtain ⟨⟨st, response⟩, hstop⟩ := hruns.exists_done hanswers s.calls
  rw [handle_of_done (s := s) hstop, Step.fst_after]
  exact (phase_respond _ response).imp_right fun ⟨reason, _, hended⟩ => ⟨reason, hended⟩

theorem ended_runFrom (hanswers : ∀ past call, oracle past call ≠ none) (src : Source)
    (hruns : ∀ frame st, (s.settings.dispatch frame st).Runs)
    (hphase : s.isReading = true ∨ ∃ reason, s.phase = .ended reason)
    : ∃ reason, (s.runFrom oracle src).1.phase = .ended reason := by
  fun_induction runFrom oracle s src with
  | case1 s src hreading reason hread => exact ⟨_, rfl⟩
  | case2 s src hreading rest hread => exact ⟨_, rfl⟩
  | case3 s src hreading frame rest hread ih =>
    apply ih
    . rw [(steady_handle oracle s frame).settings_eq]
      exact hruns
    . exact phase_handle hanswers frame (hruns frame s.state)
  | case4 s src hreading => exact hphase.resolve_left hreading

theorem exists_passes_serveFrom (oracle : Action.Oracle) (s : Session) (src : Source)
    : ∃ n rest events,
        n ≤ 2 * src.bytes.length + 1
          ∧
        (Stage.behind s.start src).1.passes oracle n
          =
        (.done (s.serveFrom oracle src).1 rest, events)
          ∧
        (s.serveFrom oracle src).2 = s.start.2 ++ events
          ∧
        (events.filterMap Event.frame?).length + rest.bytes.length ≤ src.bytes.length := by
  let stage := (Stage.behind s.start src).1
  have hsource : stage.source = src := Stage.source_behind _ _
  have howed : stage.owed = 0 := Stage.owed_behind _ _
  obtain ⟨n, hn, hdone⟩ := stage.exists_passes_isDone oracle
  have hrank : stage.rank ≤ 2 * src.bytes.length + 1 := by
    unfold Stage.rank
    rw [hsource, howed]
    split <;> omega
  have hrequests := stage.requests_passes_le oracle n
  rw [hsource, howed] at hrequests
  have houtcome := stage.outcome_passes oracle n
  have hserved : (stage.outcome oracle).after s.start.2 = s.serveFrom oracle src :=
    Stage.outcome_behind s.start src
  rw [← houtcome] at hserved
  rcases hpasses : stage.passes oracle n with ⟨last, events⟩
  rw [hpasses] at hdone hrequests hserved
  cases last with
  | done final rest =>
    refine ⟨n, rest, events, Nat.le_trans hn hrank, ?_, ?_, ?_⟩
    . rw [← hserved]
      exact hpasses
    . rw [← hserved, Step.after_after]
      exact List.append_nil _
    . exact Nat.le_trans (Nat.le_add_right _ _) hrequests
  | _ => contradiction

theorem filterMap_frame?_run_byte (h : s.AtLine) (hlimit : s.settings.maxCommandLength = 0)
    (hreading : s.isReading = true) (b : UInt8) (inputs : List Input)
    : (s.run oracle (.byte b :: inputs)).2.filterMap Event.frame?
        =
      .overLong []
        :: ((s.handle oracle (.overLong [])).1.run oracle inputs).2.filterMap Event.frame? := by
  have hscan : (Framer.fresh s.settings.maxCommandLength).scan s.settings.maxCommandLength
      (.byte b :: inputs) = some (.frame (.overLong []), inputs) := by
    rw [hlimit]
    apply Framer.scan_of_frame
    simp [Framer.fresh, Framer.step, Framer.overflow]
  rw [run_of_scan oracle s h _ _ _ hscan, if_pos hreading, Step.andThen, Step.after,
    List.filterMap_append, filterMap_frame?_handle]
  rfl

theorem serveFrom64_terminates (cfg : SessionSettings) (control : Channel) (data : Option Channel)
    (backend : Backend) (hlimit : cfg.maxCommandLength + 1 < 2 ^ 64)
    (hreturns : cfg.registry.Returns)
    (hbackend : ∀ past call, backend past call = .silent → cfg.auth.timeout ≠ none)
    (src : Source) (log : ConnectionLog)
    : let s : Session := { settings := cfg, control, data }
      let oracle := cfg.auth.consult backend
      let served := s.serve oracle src.inputs
      s.serveFrom64 oracle src = some served
        ∧
      (∃ reason,
        served.1.termination? log = some ⟨log.session, log.peer, reason, served.1.state⟩)
        ∧
      (∃ n rest events,
        n ≤ 2 * src.bytes.length + 1
          ∧
        (Stage.behind s.start src).1.passes oracle n = (.done served.1 rest, events)
          ∧
        served.2 = s.start.2 ++ events
          ∧
        (served.2.filterMap Event.frame?).length + rest.bytes.length ≤ src.bytes.length)
        ∧
      (∀ (s : Session) reading src,
        let next := (Stage.line s reading src).pass oracle
        ∃ taken,
          src.bytes = taken ++ next.1.source.bytes ∧ (next.1.isDone = true ∨ taken ≠ []))
        ∧
      ∀ (s : Session) kept src,
        let next := (Stage.window s kept src).pass oracle
        ∃ taken,
          src.bytes = taken ++ next.1.source.bytes ∧ (next.1.isDraining = false ∨ taken ≠ []) := by
  intro s oracle served
  have hanswers : ∀ past call, oracle past call ≠ none := by
    intro past call
    dsimp only [oracle, Authenticator.consult]
    cases hverdict : backend past call with
    | silent => simpa [Authenticator.conclude] using hbackend past call hverdict
    | _ => exact Option.some_ne_none _
  have hsettings : s.start.1.settings = cfg := (steady_start s).settings_eq
  have hserved : s.serveFrom oracle src = served := serveFrom_eq oracle s src
  refine ⟨?_, ?_, ?_, ?_, ?_⟩
  . have hrun := runFrom64_eq oracle (s := s.start.1) (by rwa [hsettings]) src
    unfold serveFrom64
    dsimp only
    rw [hrun, ← hserved]
    rfl
  . have hphase := phase_respond s ⟨⟨.serviceReady, cfg.welcome⟩, false⟩
    obtain ⟨reason, hended⟩ := ended_runFrom (s := s.start.1) hanswers src
      (by rw [hsettings]; exact cfg.runs_dispatch_of_returns hreturns)
      (hphase.imp_right fun ⟨reason, _, hended⟩ => ⟨reason, hended⟩)
    refine ⟨reason, ?_⟩
    have hphase' : served.1.phase = .ended reason := by
      rw [← hserved]
      exact hended
    unfold termination?
    rw [hphase']
  . obtain ⟨n, rest, events, hn, hpasses, hevents, hrequests⟩ :=
      exists_passes_serveFrom oracle s src
    rw [hserved] at hpasses hevents
    refine ⟨n, rest, events, hn, hpasses, hevents, ?_⟩
    rw [hevents, List.filterMap_append, filterMap_frame?_start, List.nil_append]
    exact hrequests
  . intro s reading src next
    obtain ⟨taken, huses⟩ := Stage.exists_uses_pass oracle (.line s reading src)
    refine ⟨taken, huses.bytes_eq, ?_⟩
    rcases huses.progress with hdone | hne | ⟨howed, _⟩
    . exact .inl hdone
    . exact .inr hne
    . contradiction
  . intro s kept src next
    obtain ⟨taken, huses⟩ := Stage.exists_uses_pass oracle (.window s kept src)
    refine ⟨taken, huses.bytes_eq, ?_⟩
    rcases huses.progress with hdone | hne | ⟨_, howed⟩
    . exact .inl (Stage.isDraining_of_isDone hdone)
    . exact .inr hne
    . exact .inl (Bool.toNat_eq_zero.1 howed)

set_option maxRecDepth 10000 in
theorem serveFrom64_terminates_limit_zero
    : let cfg : SessionSettings :=
        { welcome := "hi", maxCommandLength := 0, auth := { timeout := some (.ofSeconds 1) } }
      let backend : Backend := .ofFunction fun _ => .silent
      let s : Session := { settings := cfg }
      let oracle := cfg.auth.consult backend
      let src : Source := { reads := [.ok [0x61, 0x0A], .error "reset"] }
      let served := s.serve oracle src.inputs
      cfg.maxCommandLength + 1 < 2 ^ 64
        ∧
      cfg.registry.Returns
        ∧
      (∀ past call, backend past call = .silent → cfg.auth.timeout ≠ none)
        ∧
      s.serveFrom64 oracle src = some served
        ∧
      (∀ log : ConnectionLog, ∃ reason,
        served.1.termination? log = some ⟨log.session, log.peer, reason, served.1.state⟩)
        ∧
      (served.2.filterMap Event.frame?).length = src.bytes.length := by
  intro cfg backend s oracle src served
  have hreturns : cfg.registry.Returns := Registry.careful_withLogin.returns
  have hbackend : ∀ past call, backend past call = .silent → cfg.auth.timeout ≠ none :=
    fun _ _ _ => Option.some_ne_none _
  have hterminates := serveFrom64_terminates cfg s.control none backend (by decide) hreturns
    hbackend src
  obtain ⟨hserved, _, ⟨_, rest, _, _, _, _, hrequests⟩, _⟩ := hterminates ⟨"log", 1, "peer"⟩
  refine ⟨by decide, hreturns, hbackend, hserved, fun log => (hterminates log).2.1, ?_⟩
  have hstart := steady_start s
  have hfirst : s.start.1.isReading = true := by
    dsimp only [s, cfg]
    cbv
  have hhandle := steady_handle oracle s.start.1 (.overLong [])
  have hsecond : (s.start.1.handle oracle (.overLong [])).1.isReading = true := by
    dsimp only [s, cfg, oracle, backend]
    cbv
  have hlimit : s.start.1.settings.maxCommandLength = 0 := by
    rw [hstart.settings_eq]
  let inputs : List Input := .byte 0x61 :: .byte 0x0A :: .failure "reset" :: lastingEnd
  have hframes : served.2.filterMap Event.frame?
      = (s.start.1.run oracle inputs).2.filterMap Event.frame? := by
    have hevents : served.2 = s.start.2 ++ (s.start.1.run oracle inputs).2 := rfl
    rw [hevents, List.filterMap_append, filterMap_frame?_start, List.nil_append]
  rw [filterMap_frame?_run_byte hstart.atLine hlimit hfirst,
    filterMap_frame?_run_byte hhandle.atLine (by rw [hhandle.settings_eq, hlimit]) hsecond]
    at hframes
  have hlength := congrArg List.length hframes
  have hbytes : src.bytes.length = 2 := rfl
  rw [List.length_cons, List.length_cons] at hlength
  apply Nat.le_antisymm (Nat.le_trans (Nat.le_add_right _ _) hrequests)
  rw [hbytes, hlength]
  omega

end Session

end FtpControl
