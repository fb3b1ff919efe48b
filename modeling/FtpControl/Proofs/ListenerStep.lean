import FtpControl.Listener

/-!
This module contains all that a step of a listener can do. There are nine kinds of steps, and what
holds along every run is read off them: a step finds at most one connection by its serial, and the
others stay as they are.
-/

namespace FtpControl

namespace Connection

variable {c : Connection}

/--
What a move leaves of a connection: who it is, whether it has given back its place, and the whole
session once that is over.
-/
structure Keeps (c : Connection) (step : Step) : Prop where
  serial_eq : step.1.serial = c.serial
  log_eq : step.1.log = c.log
  vacated_eq : step.1.vacated = c.vacated
  session_eq : c.isOver = true → step.1.session = c.session

theorem isReading_of_isOver (h : c.isOver = true) : c.session.isReading = false := by
  unfold isOver at h
  unfold Session.isReading
  split at h
  . next hphase => rw [hphase]
  . next hphase => rw [hphase]
  . contradiction

theorem isOver_of_session_eq {other : Connection} (h : other.session = c.session)
    : other.isOver = c.isOver := by
  unfold isOver
  rw [h]

theorem pump_of_isOver (h : c.isOver = true) : c.pump = (c, []) := by
  have hgo : pump.go c.session c.inbox = (c.session, c.inbox, []) := by
    unfold pump.go
    split
    . next heq => rw [heq]
    . next heq =>
      rw [heq, isReading_of_isOver h]
      rfl
  unfold pump
  rw [hgo]

theorem keeps_pump (c : Connection) : c.Keeps c.pump := by
  constructor
  . rfl
  . rfl
  . rfl
  . intro h
    rw [pump_of_isOver h]

theorem keeps_receive (inputs : List Input) (c : Connection) : c.Keeps (c.receive inputs) := by
  have hpump := keeps_pump { c with inbox := c.inbox ++ inputs }
  constructor
  . exact hpump.serial_eq
  . exact hpump.log_eq
  . exact hpump.vacated_eq
  . exact hpump.session_eq

theorem settle_of_isOver (h : c.isOver = true) (oracle : Action.Oracle) (n : Nat)
    (verdict : Verdict) : c.session.settle oracle n verdict = (c.session, []) := by
  have hanswer : ∀ a, c.session.answer oracle a = (c.session, []) := by
    intro a
    unfold isOver at h
    unfold Session.answer
    split at h
    . next hphase => rw [hphase]
    . next hphase => rw [hphase]
    . contradiction
  unfold Session.settle
  split
  . split
    . apply hanswer
    . rfl
  . rfl

theorem keeps_settle (n : Nat) (verdict : Verdict) (c : Connection)
    : c.Keeps (c.settle n verdict) := by
  have hpump := keeps_pump { c with session := (c.session.settle .later n verdict).1 }
  constructor
  . exact hpump.serial_eq
  . exact hpump.log_eq
  . exact hpump.vacated_eq
  . intro h
    have hsettle := settle_of_isOver h .later n verdict
    rw [hsettle] at hpump
    unfold settle
    rw [hsettle]
    exact hpump.session_eq h

end Connection

namespace Listener

variable {l : Listener} {c : Connection} {before after : List Connection}

structure Numbered (l : Listener) : Prop where
  sorted : (l.connections.map (·.serial)).Pairwise (· < ·)
  lt_started : ∀ c ∈ l.connections, c.serial < l.started

theorem Numbered.ne_of_split (h : l.Numbered) (hsplit : l.connections = before ++ c :: after)
    : (∀ other ∈ before, other.serial ≠ c.serial) ∧ (∀ other ∈ after, other.serial ≠ c.serial) := by
  have hsorted := h.sorted
  rw [hsplit, List.map_append, List.map_cons, List.pairwise_append, List.pairwise_cons] at hsorted
  obtain ⟨_, ⟨hafter, _⟩, hbefore⟩ := hsorted
  constructor
  . intro other hother
    have hlt := hbefore _ (List.mem_map_of_mem hother) c.serial (List.mem_cons_self)
    omega
  . intro other hother
    have hlt := hafter _ (List.mem_map_of_mem hother)
    omega

theorem exists_split_of_find? {serial : Nat} (h : l.find? serial = some c)
    : c.serial = serial ∧ ∃ before after, l.connections = before ++ c :: after := by
  unfold find? at h
  obtain ⟨hserial, before, after, hsplit, _⟩ := List.find?_eq_some_iff_append.1 h
  exact ⟨eq_of_beq hserial, before, after, hsplit⟩

theorem Numbered.replace_eq (h : l.Numbered) (hsplit : l.connections = before ++ c :: after)
    (new : Connection) (hnew : new.serial = c.serial)
    : l.replace new = { l with connections := before ++ new :: after } := by
  obtain ⟨hbefore, hafter⟩ := h.ne_of_split hsplit
  have hother : ∀ others : List Connection, (∀ other ∈ others, other.serial ≠ c.serial)
      → (others.map fun other => if other.serial == new.serial then new else other) = others := by
    intro others hne
    apply (List.map_congr_left _).trans others.map_id
    intro other hmem
    rw [hnew, if_neg (by simpa using hne other hmem)]
    rfl
  unfold replace
  rw [hsplit, List.map_append, List.map_cons, hother before hbefore, hother after hafter]
  rw [if_pos (by simp [hnew])]

theorem Numbered.remove_eq (h : l.Numbered) (hsplit : l.connections = before ++ c :: after)
    : l.remove c.serial = { l with connections := before ++ after } := by
  obtain ⟨hbefore, hafter⟩ := h.ne_of_split hsplit
  have hother : ∀ others : List Connection, (∀ other ∈ others, other.serial ≠ c.serial)
      → (others.filter fun other => other.serial != c.serial) = others := by
    intro others hne
    apply List.filter_eq_self.2
    intro other hmem
    exact bne_iff_ne.2 (hne other hmem)
  unfold remove
  rw [hsplit, List.filter_append, hother before hbefore, List.filter_cons, hother after hafter]
  simp

inductive Moves (l : Listener) : Step → Prop
  | idle : Moves l (l, [])
  | complained (note : Note) : Moves l (l, [.noted note])
  | stopped (note : Note) : Moves l ({ l with accepting := false }, [.noted note])
  | refused (note : Note) (peer : String) (control : Channel) (hplaces : l.places = 0)
    : Moves l (l, .noted note :: (turnAway control).map (.refused peer))
  | served (c : Connection) (events : List Event) {places : Nat} (hplaces : l.places = places + 1)
      {peer : String} (hlog : c.log = l.log.forConnection l.nextId peer)
      (hserial : c.serial = l.started) (hvacated : c.vacated = false)
    : Moves l
        ({ l with places, started := l.started + 1, connections := l.connections ++ [c] },
          .served c.serial c.log :: events.map (.happened c.serial c.log))
  | wentOn {c : Connection} {before after : List Connection}
      (hsplit : l.connections = before ++ c :: after) {step : Connection.Step}
      (hkeeps : c.Keeps step)
    : Moves l
        ({ l with connections := before ++ step.1 :: after },
          step.2.map (.happened c.serial c.log))
  | vacated {c : Connection} {before after : List Connection}
      (hsplit : l.connections = before ++ c :: after) (hover : c.isOver = true)
      (hvacated : c.vacated = false) {termination : Termination}
      (htermination : c.termination? = some termination)
    : Moves l
        ({ l with
            places := l.places + 1
            connections := before ++ { c with vacated := true } :: after },
          [])
  | forgotten {c : Connection} {before after : List Connection}
      (hsplit : l.connections = before ++ c :: after) (hover : c.isOver = true)
      (hvacated : c.vacated = false) (htermination : c.termination? = none)
    : Moves l ({ l with places := l.places + 1, connections := before ++ after }, [])
  | reported {c : Connection} {before after : List Connection}
      (hsplit : l.connections = before ++ c :: after) (hvacated : c.vacated = true)
    : Moves l
        ({ l with connections := before ++ after },
          (if l.notifies then c.termination?.toList else []).map (.notified c.serial))

theorem moves_connect (l : Listener) (peer : String) (control : Channel)
    : l.Moves (l.connect peer control) := by
  unfold connect
  split
  . next hplaces => exact .refused _ peer control hplaces
  . next places hplaces => exact .served _ _ hplaces rfl rfl rfl

theorem Numbered.moves_advance (h : l.Numbered) (serial : Nat) {move : Connection → Connection.Step}
    (hmove : ∀ c : Connection, c.Keeps (move c)) : l.Moves (l.advance serial move) := by
  unfold advance
  split
  . exact .idle
  . next c hfind =>
    obtain ⟨_, before, after, hsplit⟩ := exists_split_of_find? hfind
    change l.Moves (l.replace (move c).1, (move c).2.map (.happened c.serial c.log))
    rw [h.replace_eq hsplit _ (hmove c).serial_eq]
    exact .wentOn hsplit (hmove c)

theorem Numbered.moves_vacate (h : l.Numbered) (serial : Nat) : l.Moves (l.vacate serial) := by
  unfold vacate
  split
  . exact .idle
  . next c hfind =>
    obtain ⟨rfl, before, after, hsplit⟩ := exists_split_of_find? hfind
    split
    . next hcond =>
      rw [Bool.and_eq_true, Bool.not_eq_true'] at hcond
      obtain ⟨hover, hvacated⟩ := hcond
      have hnumbered : Numbered { l with places := l.places + 1 } := ⟨h.sorted, h.lt_started⟩
      dsimp only
      split
      . next htermination =>
        rw [hnumbered.replace_eq hsplit { c with vacated := true } rfl]
        exact .vacated hsplit hover hvacated htermination
      . next htermination =>
        rw [hnumbered.remove_eq hsplit]
        exact .forgotten hsplit hover hvacated htermination
    . exact .idle

theorem Numbered.moves_report (h : l.Numbered) (serial : Nat) : l.Moves (l.report serial) := by
  unfold report
  split
  . exact .idle
  . next c hfind =>
    obtain ⟨rfl, before, after, hsplit⟩ := exists_split_of_find? hfind
    split
    . next hvacated =>
      rw [h.remove_eq hsplit]
      exact .reported hsplit hvacated
    . exact .idle

theorem moves_complain (l : Listener) (reason : String) : l.Moves (l.complain reason) := by
  unfold complain
  split
  . exact .complained _
  . exact .idle

theorem moves_stop (l : Listener) : l.Moves l.stop := by
  unfold stop
  split
  . exact .stopped _
  . exact .idle

theorem Numbered.moves_step (h : l.Numbered) (stimulus : Stimulus) : l.Moves (l.step stimulus) := by
  cases stimulus with
  | connected peer control =>
    rw [step]
    split
    . exact moves_connect l peer control
    . exact .idle
  | acceptFailed reason => exact moves_complain l reason
  | received serial inputs => exact h.moves_advance serial (Connection.keeps_receive inputs)
  | settled serial n verdict => exact h.moves_advance serial (Connection.keeps_settle n verdict)
  | vacated serial => exact h.moves_vacate serial
  | reported serial => exact h.moves_report serial
  | stopped => exact moves_stop l

theorem numbered_of_sublist (h : l.Numbered) {next : Listener}
    (hsublist : (next.connections.map (·.serial)).Sublist (l.connections.map (·.serial)))
    (hstarted : next.started = l.started) : next.Numbered := by
  constructor
  . exact h.sorted.sublist hsublist
  . intro c hc
    obtain ⟨other, hother, hserial⟩ := List.mem_map.1 (hsublist.subset (List.mem_map_of_mem hc))
    rw [← hserial, hstarted]
    exact h.lt_started other hother

theorem Numbered.of_moves (h : l.Numbered) {step : Step} (hmoves : l.Moves step)
    : step.1.Numbered := by
  cases hmoves with
  | idle => exact h
  | complained note => exact h
  | stopped note => exact ⟨h.sorted, h.lt_started⟩
  | refused note peer control hplaces => exact h
  | served c events hplaces hlog hserial hvacated =>
    constructor
    . rw [List.map_append, List.map_singleton, List.pairwise_append]
      refine ⟨h.sorted, List.pairwise_singleton _ _, ?_⟩
      simp only [List.mem_map, List.mem_singleton]
      rintro _ ⟨other, hother, rfl⟩ _ rfl
      rw [hserial]
      exact h.lt_started other hother
    . simp only [List.mem_append, List.mem_singleton]
      rintro other (hother | rfl)
      . have hlt := h.lt_started other hother
        omega
      . omega
  | @wentOn c before after hsplit step hkeeps =>
    have hserials : (before ++ step.1 :: after).map (·.serial) = l.connections.map (·.serial) := by
      rw [hsplit, List.map_append, List.map_append, List.map_cons, List.map_cons, hkeeps.serial_eq]
    exact numbered_of_sublist h (hserials ▸ List.Sublist.refl _) rfl
  | @vacated c before after hsplit hover hvacated termination htermination =>
    have hserials : (before ++ { c with vacated := true } :: after).map (·.serial)
        = l.connections.map (·.serial) := by
      rw [hsplit, List.map_append, List.map_append, List.map_cons, List.map_cons]
    exact numbered_of_sublist h (hserials ▸ List.Sublist.refl _) rfl
  | forgotten hsplit hover hvacated htermination =>
    refine numbered_of_sublist h ?_ rfl
    rw [hsplit]
    apply List.Sublist.map
    simp
  | reported hsplit hvacated =>
    refine numbered_of_sublist h ?_ rfl
    rw [hsplit]
    apply List.Sublist.map
    simp

end Listener

end FtpControl
