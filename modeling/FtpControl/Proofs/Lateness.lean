import FtpControl.Proofs.Attempts

/-!
This module contains calls that come back too late. Every call runs as a task of its own, and its
session looks into the place where that task leaves its result. A session that has given up on a
call never looks there again, so it makes no difference what the task returns in the end, and when.
-/

namespace FtpControl

namespace Connection

theorem pump_of_drained {c : Connection} (h : c.Drained) : c.pump = (c, []) := by
  have hgo : pump.go c.session c.inbox = (c.session, c.inbox, []) := by
    unfold pump.go
    split
    . next heq => rw [heq]
    . next input inbox heq =>
      split
      . next hreading =>
        rw [h hreading] at heq
        contradiction
      . rw [heq]
  unfold pump
  rw [hgo]

theorem pump_preserves {p : Session → Prop}
    (hread : ∀ s input, s.isReading = true → p s → p (s.read .later input).1) {c : Connection}
    (h : p c.session) : p c.pump.1.session := by
  have hgo : ∀ (s : Session) (inbox : List Input), p s → p (pump.go s inbox).1 := by
    intro s inbox hs
    induction inbox generalizing s with
    | nil => exact hs
    | cons input inbox ih =>
      unfold pump.go
      split
      . next hreading => exact ih _ (hread s input hreading hs)
      . exact hs
  exact hgo c.session c.inbox h

theorem concluded_pump (c : Connection) : c.pump.1.session.concluded = c.session.concluded := by
  apply pump_preserves (p := fun s => s.concluded = c.session.concluded)
  . intro s input hreading h
    rw [Session.concluded_read hreading input, h]
  . rfl

end Connection

inductive Occurrence where
  | received (inputs : List Input)
  | returned (call : Nat) (verdict : Verdict)
  -- The session looks after its call. Its patience is at an end by then, or it is not.
  | looked (due : Bool)

structure Pool where
  connection : Connection
  results : Nat → Option Verdict := fun _ => none
  outcomes : List (Nat × Verdict) := []

namespace Pool

-- What the session finds when it looks after its call. A result counts even if it is due.
def outcome? (p : Pool) (due : Bool) : Option (Nat × Verdict) :=
  p.connection.session.awaited?.bind fun (past, _) =>
    match p.results past.length with
    | some verdict => some (past.length, verdict)
    | none =>
      if due ∧ p.connection.session.settings.auth.timeout.isSome then
        some (past.length, .silent)
      else
        none

-- The results behind one more. A task leaves a single one, and not before its call was made.
def resultsWith (p : Pool) (n : Nat) (verdict : Verdict) (m : Nat) : Option Verdict :=
  if m = n ∧ n < p.connection.session.calls.length ∧ p.results n = none ∧ verdict ≠ .silent then
    some verdict
  else
    p.results m

def step (p : Pool) : Occurrence → Pool × List Event
  | .received inputs =>
    let (connection, events) := p.connection.receive inputs
    ({ p with connection }, events)
  | .returned n verdict => ({ p with results := p.resultsWith n verdict }, [])
  | .looked due =>
    match p.outcome? due with
    | some (n, verdict) =>
      let (connection, events) := p.connection.settle n verdict
      ({ p with connection, outcomes := p.outcomes ++ [(n, verdict)] }, events)
    | none => (p, [])

def run (p : Pool) : List Occurrence → Pool × List Event
  | [] => (p, [])
  | o :: occurrences =>
    let (p, events) := p.step o
    let (p, later) := p.run occurrences
    (p, events ++ later)

def IsLate (p : Pool) : Occurrence → Prop
  | .returned n _ => (n, .silent) ∈ p.outcomes
  | _ => False

instance (p : Pool) : DecidablePred p.IsLate
  | .received _ => .isFalse id
  | .returned n _ => inferInstanceAs (Decidable ((n, Verdict.silent) ∈ p.outcomes))
  | .looked _ => .isFalse id

def timely (p : Pool) : List Occurrence → List Occurrence
  | [] => []
  | o :: occurrences =>
    if p.IsLate o then
      (p.step o).1.timely occurrences
    else
      o :: (p.step o).1.timely occurrences

structure Orderly (p : Pool) : Prop where
  drained : p.connection.Drained
  concluded_eq : p.connection.session.concluded = p.outcomes.length
  numbers_eq : p.outcomes.map (·.1) = List.range p.outcomes.length
  own : ∀ n verdict, (n, verdict) ∈ p.outcomes → verdict = .silent ∨ p.results n = some verdict
  ne_silent : ∀ n, p.results n ≠ some .silent

theorem run_preserves (p : Pool → Prop) (hstep : ∀ q o, p q → p (step q o).1) {q : Pool} (h : p q)
    (occurrences : List Occurrence) : p (q.run occurrences).1 := by
  induction occurrences generalizing q with
  | nil => exact h
  | cons o occurrences ih => exact ih (hstep q o h)

variable {p q : Pool}

theorem outcome?_eq_some {due : Bool} {n : Nat} {verdict : Verdict}
    (h : p.outcome? due = some (n, verdict))
    : (∃ past call, p.connection.session.awaited? = some (past, call) ∧ past.length = n)
        ∧
      (p.results n = some verdict
        ∨ verdict = .silent ∧ p.results n = none ∧ due = true
          ∧ p.connection.session.settings.auth.timeout.isSome = true) := by
  unfold outcome? at h
  rw [Option.bind_eq_some_iff] at h
  obtain ⟨⟨past, call⟩, hawaited, h⟩ := h
  dsimp only at h
  split at h
  . next found hfound =>
    rw [Option.some.injEq, Prod.mk.injEq] at h
    obtain ⟨rfl, rfl⟩ := h
    exact ⟨⟨past, call, hawaited, rfl⟩, .inl hfound⟩
  . next hnone =>
    split at h
    . next hdue =>
      rw [Option.some.injEq, Prod.mk.injEq] at h
      obtain ⟨rfl, rfl⟩ := h
      exact ⟨⟨past, call, hawaited, rfl⟩, .inr ⟨rfl, hnone, hdue⟩⟩
    . contradiction

inductive Steps (p : Pool) : Occurrence → Pool × List Event → Prop
  | received (inputs : List Input)
    : Steps p (.received inputs)
        ({ p with connection := (p.connection.receive inputs).1 },
          (p.connection.receive inputs).2)
  | returned (n : Nat) (verdict : Verdict)
    : Steps p (.returned n verdict) ({ p with results := p.resultsWith n verdict }, [])
  | concluded {due : Bool} {past : List Call} {call : Call} {verdict : Verdict}
      (hawaited : p.connection.session.awaited? = some (past, call))
      (hfound : p.outcome? due = some (past.length, verdict))
    : Steps p (.looked due)
        ({ p with
            connection := (p.connection.settle past.length verdict).1
            outcomes := p.outcomes ++ [(past.length, verdict)] },
          (p.connection.settle past.length verdict).2)
  | waiting (due : Bool) : Steps p (.looked due) (p, [])

theorem steps (p : Pool) (o : Occurrence) : p.Steps o (p.step o) := by
  cases o with
  | received inputs => exact .received inputs
  | returned n verdict => exact .returned n verdict
  | looked due =>
    unfold step
    dsimp only
    split
    . next n verdict hfound =>
      obtain ⟨⟨past, call, hawaited, rfl⟩, _⟩ := outcome?_eq_some hfound
      exact .concluded hawaited hfound
    . exact .waiting due

theorem resultsWith_of_some {n m : Nat} {verdict found : Verdict} (h : p.results m = some found)
    : p.resultsWith n verdict m = some found := by
  unfold resultsWith
  split
  . next haccepted =>
    rw [haccepted.1, haccepted.2.2.1] at h
    contradiction
  . exact h

theorem resultsWith_of_ne {n m : Nat} (verdict : Verdict) (h : m ≠ n)
    : p.resultsWith n verdict m = p.results m := by
  unfold resultsWith
  rw [if_neg (by simp [h])]

theorem Orderly.lt_of_mem (h : p.Orderly) {n : Nat} {verdict : Verdict}
    (hmem : (n, verdict) ∈ p.outcomes) : n < p.outcomes.length := by
  rw [← List.mem_range, ← h.numbers_eq]
  exact List.mem_map_of_mem hmem

theorem Orderly.length_of_awaited? (h : p.Orderly) {past : List Call} {call : Call}
    (hawaited : p.connection.session.awaited? = some (past, call))
    : past.length = p.outcomes.length := by
  rw [← h.concluded_eq, Session.concluded, hawaited]

theorem Orderly.settle_of_mem (h : p.Orderly) {n : Nat} {outcome : Verdict}
    (hmem : (n, outcome) ∈ p.outcomes) (verdict : Verdict)
    : p.connection.settle n verdict = (p.connection, []) := by
  have hlt := h.lt_of_mem hmem
  have hsettle : p.connection.session.settle .later n verdict = (p.connection.session, []) := by
    apply Session.settle_of_not_awaited
    intro past call hawaited
    rw [h.length_of_awaited? hawaited]
    omega
  unfold Connection.settle
  rw [hsettle]
  exact Connection.pump_of_drained h.drained

theorem Orderly.isSome_conclude (h : p.Orderly) {due : Bool} {n : Nat} {verdict : Verdict}
    (hfound : p.outcome? due = some (n, verdict))
    : (p.connection.session.settings.auth.conclude verdict).isSome = true := by
  cases verdict with
  | silent =>
    rcases (outcome?_eq_some hfound).2 with hresult | ⟨_, _, _, htimeout⟩
    . exact absurd hresult (h.ne_silent n)
    . unfold Authenticator.conclude
      rw [Option.isSome_map]
      exact htimeout
  | _ => rfl

theorem Orderly.step (h : p.Orderly) (o : Occurrence) : Orderly (p.step o).1 := by
  have hsteps := p.steps o
  generalize p.step o = next at hsteps ⊢
  cases hsteps with
  | received inputs =>
    constructor
    . apply Connection.drained_pump
    . exact (Connection.concluded_pump _).trans h.concluded_eq
    . exact h.numbers_eq
    . exact h.own
    . exact h.ne_silent
  | returned n verdict =>
    constructor
    . exact h.drained
    . exact h.concluded_eq
    . exact h.numbers_eq
    . intro m outcome hmem
      exact (h.own m outcome hmem).imp_right resultsWith_of_some
    . intro m
      change p.resultsWith n verdict m ≠ _
      unfold resultsWith
      split
      . next haccepted => simpa using haccepted.2.2.2
      . exact h.ne_silent m
  | concluded hawaited hfound =>
    have hlength := h.length_of_awaited? hawaited
    constructor
    . apply Connection.drained_pump
    . apply (Connection.concluded_pump _).trans
      apply (Session.concluded_settle hawaited (h.isSome_conclude hfound)).trans
      rw [h.concluded_eq, List.length_append, List.length_singleton]
    . dsimp only
      rw [List.map_append, h.numbers_eq, List.length_append, List.length_singleton,
        List.range_succ, hlength]
      rfl
    . intro m outcome hmem
      rw [List.mem_append, List.mem_singleton, Prod.mk.injEq] at hmem
      rcases hmem with hold | ⟨rfl, rfl⟩
      . exact h.own m outcome hold
      . exact (outcome?_eq_some hfound).2.symm.imp And.left id
    . exact h.ne_silent
  | waiting due => exact h

theorem Orderly.run (h : p.Orderly) (occurrences : List Occurrence)
    : Orderly (p.run occurrences).1 := by
  exact run_preserves Orderly (fun _ o hq => hq.step o) h occurrences

structure Same (p q : Pool) : Prop where
  connection_eq : p.connection = q.connection
  outcomes_eq : p.outcomes = q.outcomes
  results_eq : ∀ n, p.outcomes.length ≤ n → p.results n = q.results n

theorem Same.outcome?_eq (h : p.Same q) (hp : p.Orderly) (due : Bool)
    : p.outcome? due = q.outcome? due := by
  unfold outcome?
  rw [← h.connection_eq]
  cases hawaited : p.connection.session.awaited? with
  | none => rfl
  | some found =>
    obtain ⟨past, call⟩ := found
    have hlength := hp.length_of_awaited? hawaited
    rw [Option.bind_some, Option.bind_some]
    dsimp only
    rw [h.results_eq past.length (by omega)]

theorem Same.step (h : p.Same q) (hp : p.Orderly) (o : Occurrence)
    : Same (p.step o).1 (q.step o).1 ∧ (p.step o).2 = (q.step o).2 := by
  cases o with
  | received inputs =>
    unfold Pool.step
    rw [h.connection_eq]
    exact ⟨⟨rfl, h.outcomes_eq, h.results_eq⟩, rfl⟩
  | returned n verdict =>
    refine ⟨⟨h.connection_eq, h.outcomes_eq, ?_⟩, rfl⟩
    intro m hm
    have hresults := h.results_eq m hm
    by_cases hmn : m = n
    . subst hmn
      change p.resultsWith m verdict m = q.resultsWith m verdict m
      unfold resultsWith
      rw [hresults, h.connection_eq]
    . exact (resultsWith_of_ne verdict hmn).trans
        (hresults.trans (resultsWith_of_ne verdict hmn).symm)
  | looked due =>
    unfold Pool.step
    dsimp only
    rw [h.outcome?_eq hp, h.connection_eq]
    split
    . refine ⟨⟨rfl, ?_, ?_⟩, rfl⟩
      . dsimp only
        rw [h.outcomes_eq]
      . intro n hn
        apply h.results_eq
        rw [List.length_append] at hn
        omega
    . exact ⟨h, rfl⟩

theorem Same.late (h : p.Same q) (hp : p.Orderly) {o : Occurrence} (hlate : p.IsLate o)
    : Same (p.step o).1 q ∧ (p.step o).2 = [] := by
  cases o with
  | returned n verdict =>
    have hlt := hp.lt_of_mem hlate
    refine ⟨⟨h.connection_eq, h.outcomes_eq, ?_⟩, rfl⟩
    intro m hm
    change p.outcomes.length ≤ m at hm
    apply (resultsWith_of_ne verdict (by omega)).trans
    exact h.results_eq m hm
  | _ => contradiction

theorem Same.run_timely (h : p.Same q) (hp : p.Orderly) (occurrences : List Occurrence)
    : Same (p.run occurrences).1 (q.run (p.timely occurrences)).1
        ∧
      (p.run occurrences).2 = (q.run (p.timely occurrences)).2 := by
  induction occurrences generalizing p q with
  | nil => exact ⟨h, rfl⟩
  | cons o occurrences ih =>
    rw [timely]
    split
    . next hlate =>
      obtain ⟨hsame, hnone⟩ := h.late hp hlate
      obtain ⟨hrest, hevents⟩ := ih hsame (hp.step o)
      refine ⟨hrest, ?_⟩
      rw [run]
      dsimp only
      rw [hnone, hevents]
      rfl
    . obtain ⟨hsame, hstep⟩ := h.step hp o
      obtain ⟨hrest, hevents⟩ := ih hsame (hp.step o)
      refine ⟨hrest, ?_⟩
      rw [run, run]
      dsimp only
      rw [hstep, hevents]

theorem results_step {o : Occurrence} {n : Nat} {verdict : Verdict}
    (h : (p.step o).1.results n = some verdict)
    : p.results n = some verdict ∨ o = .returned n verdict := by
  have hsteps := p.steps o
  generalize p.step o = next at hsteps h
  cases hsteps with
  | returned m found =>
    change p.resultsWith m found n = _ at h
    unfold resultsWith at h
    split at h
    . next haccepted =>
      rw [← Option.some.inj h, haccepted.1]
      exact .inr rfl
    . exact .inl h
  | _ => exact .inl h

theorem results_run {occurrences : List Occurrence} {n : Nat} {verdict : Verdict}
    (h : (p.run occurrences).1.results n = some verdict)
    : p.results n = some verdict ∨ .returned n verdict ∈ occurrences := by
  induction occurrences generalizing p with
  | nil => exact .inl h
  | cons o occurrences ih =>
    rcases ih h with hstep | hmem
    . rcases results_step hstep with hbefore | rfl
      . exact .inl hbefore
      . exact .inr List.mem_cons_self
    . exact .inr (List.mem_cons_of_mem o hmem)

theorem honest_step (h : p.connection.session.Honest p.outcomes) (hp : p.Orderly) (o : Occurrence)
    : (p.step o).1.connection.session.Honest (p.step o).1.outcomes := by
  have hsteps := p.steps o
  generalize p.step o = next at hsteps ⊢
  cases hsteps with
  | received inputs =>
    apply Connection.pump_preserves fun s input hreading hs => hs.read hreading input
    exact h
  | concluded hawaited hfound =>
    obtain ⟨a, ha⟩ := Option.isSome_iff_exists.1 (hp.isSome_conclude hfound)
    apply Connection.pump_preserves fun s input hreading hs => hs.read hreading input
    exact h.settle hawaited ha
  | _ => exact h

theorem honest_run (h : p.connection.session.Honest p.outcomes) (hp : p.Orderly)
    (occurrences : List Occurrence)
    : (p.run occurrences).1.connection.session.Honest (p.run occurrences).1.outcomes := by
  -- The outcomes that are new have to be those of calls that are waited for.
  apply And.left
  apply run_preserves fun q => q.connection.session.Honest q.outcomes ∧ q.Orderly
  . intro q o hq
    exact ⟨honest_step hq.1 hq.2 o, hq.2.step o⟩
  . exact ⟨h, hp⟩

theorem clear_step {control : Channel} (h : p.connection.session.Clear control) (o : Occurrence)
    : (p.step o).1.connection.session.Clear control := by
  have hread : ∀ (s : Session) input, s.isReading = true → s.Clear control
      → (s.read .later input).1.Clear control := fun _ input _ hs => hs.read .later input
  have hsteps := p.steps o
  generalize p.step o = next at hsteps ⊢
  cases hsteps with
  | received inputs =>
    apply Connection.pump_preserves hread
    exact h
  | concluded hawaited hfound =>
    apply Connection.pump_preserves hread
    apply h.settle
  | _ => exact h

theorem clear_run {control : Channel} (h : p.connection.session.Clear control)
    (occurrences : List Occurrence) : (p.run occurrences).1.connection.session.Clear control := by
  apply run_preserves fun q => q.connection.session.Clear control
  . exact fun _ o hq => clear_step hq o
  . exact h

theorem settings_step (p : Pool) (o : Occurrence)
    : (p.step o).1.connection.session.settings = p.connection.session.settings := by
  have hsteps := p.steps o
  generalize p.step o = next at hsteps ⊢
  cases hsteps with
  | received inputs => exact Connection.settings_move p.connection (.received inputs)
  | @concluded _ past _ verdict _ _ =>
    exact Connection.settings_move p.connection (.settled past.length verdict)
  | _ => rfl

theorem settings_run (p : Pool) (occurrences : List Occurrence)
    : (p.run occurrences).1.connection.session.settings = p.connection.session.settings := by
  apply run_preserves fun q => q.connection.session.settings = p.connection.session.settings
  . intro q o hq
    exact (settings_step q o).trans hq
  . rfl

theorem mem_outcomes_step {o : Occurrence} {n : Nat} {verdict : Verdict}
    (h : (n, verdict) ∈ (p.step o).1.outcomes)
    : (n, verdict) ∈ p.outcomes ∨ ∃ due, o = .looked due ∧ p.outcome? due = some (n, verdict) := by
  have hsteps := p.steps o
  generalize p.step o = next at hsteps h
  cases hsteps with
  | @concluded due _ _ _ _ hfound =>
    rw [List.mem_append, List.mem_singleton] at h
    rcases h with hold | hnew
    . exact .inl hold
    . rw [hnew]
      exact .inr ⟨due, rfl, hfound⟩
  | _ => exact .inl h

theorem mem_outcomes_run {occurrences : List Occurrence} {n : Nat} {verdict : Verdict}
    (h : (n, verdict) ∈ (p.run occurrences).1.outcomes)
    : (n, verdict) ∈ p.outcomes
        ∨
      ∃ first due last,
        occurrences = first ++ .looked due :: last
          ∧
        (p.run first).1.outcome? due = some (n, verdict) := by
  induction occurrences generalizing p with
  | nil => exact .inl h
  | cons o occurrences ih =>
    rcases ih h with hstep | ⟨first, due, last, hsplit, hfound⟩
    . rcases mem_outcomes_step hstep with hbefore | ⟨due, rfl, hfound⟩
      . exact .inl hbefore
      . exact .inr ⟨[], due, occurrences, rfl, hfound⟩
    . refine .inr ⟨o :: first, due, last, ?_, hfound⟩
      rw [hsplit]
      rfl

def opened (cfg : SessionSettings) (control : Channel) (data : Option Channel) (serial : Nat)
    (log : ConnectionLog) : Pool where
  connection :=
    (Connection.start { serial, log, session := { settings := cfg, control, data } }).1

variable (cfg : SessionSettings) (control : Channel) (data : Option Channel) (serial : Nat)
  (log : ConnectionLog)

theorem settings_opened
    : (opened cfg control data serial log).connection.session.settings = cfg := by
  exact (Session.steady_start _).settings_eq

theorem orderly_opened : (opened cfg control data serial log).Orderly := by
  constructor
  . exact fun _ => rfl
  . apply (Session.concluded_of_awaited? (Session.awaited?_start _)).trans
    exact congrArg List.length (Session.calls_respond _ ⟨⟨.serviceReady, cfg.welcome⟩, false⟩)
  . rfl
  . simp [opened]
  . simp [opened]

theorem clear_opened : (opened cfg control data serial log).connection.session.Clear control := by
  have hnew : Session.Clear control { settings := cfg, control, data } := ⟨rfl, fun _ => rfl⟩
  exact hnew.respond ⟨⟨.serviceReady, cfg.welcome⟩, false⟩

theorem honest_opened (honly : cfg.registry.LoginOnly)
    : (opened cfg control data serial log).connection.session.Honest [] := by
  apply Session.honest_respond ⟨⟨.serviceReady, cfg.welcome⟩, false⟩
  . exact honly
  . intro name hlogin
    contradiction

/--
Nothing depends on what a call returns on which its session has given up, or on when it does. Each
call has one outcome at most, which is its own, and without one it is refused.
-/
theorem run_late_returns {limit : Duration} (htimeout : cfg.auth.timeout = some limit)
    (occurrences : List Occurrence)
    : let fresh := opened cfg control data serial log
      let pool := (fresh.run occurrences).1
      let punctual := fresh.run (fresh.timely occurrences)
      punctual.1.connection = pool.connection
        ∧
      punctual.1.outcomes = pool.outcomes
        ∧
      punctual.2 = (fresh.run occurrences).2
        ∧
      (∀ n outcome verdict,
        (n, outcome) ∈ pool.outcomes
          →
        pool.connection.settle n verdict = (pool.connection, []))
        ∧
      pool.outcomes.map (·.1) = List.range pool.outcomes.length
        ∧
      (∀ n verdict,
        (n, verdict) ∈ pool.outcomes
          →
        ∃ first due last,
          occurrences = first ++ .looked due :: last
            ∧
          (fresh.run first).1.outcome? due = some (n, verdict)
            ∧
          (.returned n verdict ∈ first ∨ verdict = .silent))
        ∧
      (cfg.registry.LoginOnly
          →
        (∀ name,
          pool.connection.session.state.login = .loggedIn name
            →
          ∃ n password,
            (n, .granted) ∈ pool.outcomes
              ∧
            pool.connection.session.calls.reverse[n]? = some ⟨name, password⟩)
          ∧
        ∀ n,
          (n, .silent) ∈ pool.outcomes
            →
          ∃ first last call,
            occurrences = first ++ .looked true :: last
              ∧
            (fresh.run first).1.outcome? true = some (n, .silent)
              ∧
            (fresh.run first).1.connection.session.control = control
              ∧
            (fresh.run first).1.connection.session.GivesUp limit n call) := by
  intro fresh pool punctual
  have horderly : fresh.Orderly := orderly_opened cfg control data serial log
  have hrun := horderly.run occurrences
  have hself : Same fresh fresh := ⟨rfl, rfl, fun _ _ => rfl⟩
  obtain ⟨hsame, hevents⟩ := hself.run_timely horderly occurrences
  have hfound : ∀ {n : Nat} {verdict : Verdict}, (n, verdict) ∈ pool.outcomes
      → ∃ first due last,
        occurrences = first ++ .looked due :: last
          ∧ (fresh.run first).1.outcome? due = some (n, verdict) := by
    intro n verdict hmem
    exact (mem_outcomes_run hmem).resolve_left (by simp [fresh, opened])
  refine ⟨hsame.connection_eq.symm, hsame.outcomes_eq.symm, hevents.symm,
    fun n outcome verdict hmem => hrun.settle_of_mem hmem verdict, hrun.numbers_eq, ?_, ?_⟩
  . intro n verdict hmem
    obtain ⟨first, due, last, hsplit, houtcome⟩ := hfound hmem
    refine ⟨first, due, last, hsplit, houtcome, ?_⟩
    rcases (outcome?_eq_some houtcome).2 with hresult | ⟨hsilent, _⟩
    . left
      exact (results_run hresult).resolve_left (by simp [fresh, opened])
    . exact .inr hsilent
  . intro honly
    have hhonest : fresh.connection.session.Honest [] :=
      honest_opened cfg control data serial log honly
    constructor
    . exact (honest_run hhonest horderly occurrences).granted
    . intro n hmem
      obtain ⟨first, due, last, hsplit, houtcome⟩ := hfound hmem
      have hfirst := horderly.run first
      have hclear : (fresh.run first).1.connection.session.Clear control :=
        clear_run (clear_opened cfg control data serial log) first
      have hlimit : (fresh.run first).1.connection.session.settings.auth.timeout = some limit := by
        rw [settings_run, settings_opened]
        exact htimeout
      obtain ⟨⟨past, call, hawaited, rfl⟩, hresult⟩ := outcome?_eq_some houtcome
      obtain ⟨_, _, hdue, _⟩ := hresult.resolve_left (hfirst.ne_silent _)
      rw [hdue] at hsplit houtcome
      exact ⟨first, last, call, hsplit, houtcome, hclear.control_eq,
        (honest_run hhonest horderly first).givesUp hclear hlimit hawaited⟩

theorem run_late_returns_of_two_logins
    : let cfg : SessionSettings :=
        { welcome := "hi", maxCommandLength := 16, auth := { timeout := some (.ofSeconds 5) } }
      let lines := Text.Utf8.encodeString "USER a\r\nPASS x\r\nUSER b\r\nPASS y\r\n"
      let occurrences : List Occurrence :=
        [.received (lines.map .byte), .looked true, .returned 0 .granted, .looked false,
          .returned 1 .denied, .looked false]
      let fresh := opened cfg { name := "control" } none 0 ⟨"rax_ftp", 1, "[::1]:1"⟩
      let pool := (fresh.run occurrences).1
      cfg.auth.timeout = some (.ofSeconds 5)
        ∧
      cfg.registry.LoginOnly
        ∧
      pool.outcomes = [(0, .silent), (1, .denied)]
        ∧
      pool.connection.session.state.login = .anonymous
        ∧
      (fresh.run (fresh.timely occurrences)).2 = (fresh.run occurrences).2
        ∧
      pool.connection.settle 0 .granted = (pool.connection, [])
        ∧
      ∃ first last call,
        occurrences = first ++ .looked true :: last
          ∧
        (fresh.run first).1.connection.session.GivesUp (.ofSeconds 5) 0 call := by
  intro cfg lines occurrences fresh pool
  have hlate := run_late_returns cfg { name := "control" } none 0 ⟨"rax_ftp", 1, "[::1]:1"⟩ rfl
    occurrences
  have houtcomes : pool.outcomes = [(0, .silent), (1, .denied)] := by decide +kernel
  have hmem : (0, .silent) ∈ pool.outcomes := by
    rw [houtcomes]
    exact List.mem_cons_self
  obtain ⟨_, _, hevents, hinert, _, _, hrefuses⟩ := hlate
  have honly : cfg.registry.LoginOnly := Registry.loginOnly_withLogin
  obtain ⟨first, last, call, hsplit, _, _, hgives⟩ := (hrefuses honly).2 0 hmem
  exact ⟨rfl, honly, houtcomes, by decide +kernel, hevents, hinert 0 .silent .granted hmem,
    first, last, call, hsplit, hgives⟩

end Pool

end FtpControl
