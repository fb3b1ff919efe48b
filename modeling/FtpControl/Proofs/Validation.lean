import FtpControl.Listener
import FtpControl.Proofs.WordReading

/-!
This module contains the theory of valid configurations. Their numbers have 64 bits, and so have
those with which a session reads its lines; the listener counts its places with 61. A configuration
may be valid and still have a number that is too great for one or the other.
-/

namespace FtpControl

def Host.Binds (host : Host) (socket : String) : Prop :=
  host.refusal? socket = none ∧ ∃ address, host.localAddress socket = .ok address

theorem Listener.bind_eq_crashed_iff (host : Host) (c : ServerConfig) (settings : SessionSettings)
    (log : ServerLog)
    : (bind host c settings log).2 = .crashed
        ↔
      host.Binds c.controlSocket ∧ (2 ^ 64 - 1) >>> 3 < c.maxClients.toNat := by
  have hplaces : (2 ^ 64 - 1) >>> 3 = maxPlaces := by decide
  unfold bind Host.Binds
  rw [hplaces]
  cases host.refusal? c.controlSocket with
  | some reason => simp
  | none =>
    cases host.localAddress c.controlSocket with
    | error reason => simp
    | ok address =>
      dsimp only
      split
      . next hle => simp [Nat.not_lt.2 hle]
      . next hlt => simp [Nat.lt_of_not_le hlt]

namespace ServerConfig

structure Valid (c : ServerConfig) : Prop where
  controlPort_ne_zero : c.controlPort ≠ 0
  maxClients_ne_zero : c.maxClients ≠ 0
  minCommandLength_le : minCommandLength ≤ c.maxCommandLength
  any_welcomeMessage : (c.welcomeMessage.toList.any fun ch => ch == '\r' || ch == '\n') = false
  logTarget_ne_empty : c.logTarget ≠ ""

theorem validate_eq_ok_iff {c : ServerConfig} : c.validate = .ok () ↔ c.Valid := by
  have hproblem : c.validate = .ok () ↔ c.problem? = none := by
    unfold validate
    cases c.problem? <;> simp
  have hrule : ∀ {p : Prop} [Decidable p] {text : String} {rest : Option String},
      (if p then some text else rest) = none ↔ ¬p ∧ rest = none := by
    intro p _ text rest
    split <;> simp_all
  rw [hproblem]
  unfold problem?
  rw [hrule, hrule, hrule, hrule, hrule, UInt64.not_lt, Bool.not_eq_true]
  constructor
  . rintro ⟨hport, hclients, hlength, hwelcome, htarget, _⟩
    exact ⟨hport, hclients, hlength, hwelcome, htarget⟩
  . rintro ⟨hport, hclients, hlength, hwelcome, htarget⟩
    exact ⟨hport, hclients, hlength, hwelcome, htarget, rfl⟩

variable {c : ServerConfig}

theorem zero_lt_maxCommandLength (h : c.validate = .ok ()) : 0 < c.maxCommandLength.toNat := by
  have hmin := UInt64.le_iff_toNat_le.1 (validate_eq_ok_iff.1 h).minCommandLength_le
  have hsixteen : minCommandLength.toNat = 16 := rfl
  omega

theorem Valid.with_iff (h : c.Valid) {places limit : UInt64}
    : ({ c with maxClients := places, maxCommandLength := limit } : ServerConfig).Valid
        ↔
      places ≠ 0 ∧ minCommandLength ≤ limit := by
  constructor
  . intro hvalid
    exact ⟨hvalid.maxClients_ne_zero, hvalid.minCommandLength_le⟩
  . rintro ⟨hplaces, hlimit⟩
    exact { h with maxClients_ne_zero := hplaces, minCommandLength_le := hlimit }

/--
What a valid configuration can break. Validation bounds the numbers of clients and of bytes from
below and not from above, so there are valid configurations with which binding crashes, and there is
one limit at which a session cannot count the window for a line. Nothing else goes wrong.
-/
theorem crash_iff_of_validate (c : ServerConfig) (hvalid : c.validate = .ok ())
    : (∀ places limit : UInt64,
        let other : ServerConfig := { c with maxClients := places, maxCommandLength := limit }
        other.validate = .ok () ↔ places ≠ 0 ∧ minCommandLength ≤ limit)
        ∧
      (∀ (host : Host) (settings : SessionSettings) (log : ServerLog),
        (Listener.bind host c settings log).2 = .crashed
          ↔
        host.Binds c.controlSocket ∧ (2 ^ 64 - 1) >>> 3 < c.maxClients.toNat)
        ∧
      ∀ (s : Session) (oracle : Action.Oracle) (src : Source),
        s.settings.maxCommandLength = c.sessionSettings.maxCommandLength
          →
        s.serveFrom64 oracle src
          =
        if c.maxCommandLength.toNat + 1 = 2 ^ 64 ∧ s.start.1.isReading = true then
          none
        else
          some (s.serve oracle src.inputs) := by
  refine ⟨?_, ?_, ?_⟩
  . intro places limit other
    rw [validate_eq_ok_iff]
    apply (validate_eq_ok_iff.1 hvalid).with_iff
  . intro host settings log
    exact Listener.bind_eq_crashed_iff host c settings log
  . intro s oracle src hlimit
    have hlength : s.settings.maxCommandLength = c.maxCommandLength.toNat := hlimit
    rw [← hlength]
    apply Session.serveFrom64_eq
    . rw [hlength]
      exact c.maxCommandLength.toNat_lt
    . rw [hlength]
      exact zero_lt_maxCommandLength hvalid

theorem crash_iff_of_validate_largest
    : let c : ServerConfig :=
        { maxClients := 0x1FFFFFFFFFFFFFFF, maxCommandLength := 0xFFFFFFFFFFFFFFFE }
      let s : Session := { settings := c.sessionSettings }
      let src := Source.ofChunks [[0x0A]]
      c.validate = .ok ()
        ∧
      (Listener.bind {} c c.sessionSettings ⟨c.logTarget⟩).2 ≠ .crashed
        ∧
      s.settings.maxCommandLength = c.sessionSettings.maxCommandLength
        ∧
      s.serveFrom64 .later src = some (s.serve .later src.inputs) := by
  intro c s src
  have hvalid : c.validate = .ok () := by
    rw [validate_eq_ok_iff]
    constructor <;> decide +kernel
  have hclients : c.maxClients.toNat = 0x1FFFFFFFFFFFFFFF := by decide +kernel
  have hlength : c.maxCommandLength.toNat = 0xFFFFFFFFFFFFFFFE := by decide +kernel
  obtain ⟨_, hbind, hserve⟩ := crash_iff_of_validate c hvalid
  refine ⟨hvalid, ?_, rfl, ?_⟩
  . rw [ne_eq, hbind, hclients]
    simp
  . rw [hserve s .later src rfl, hlength]
    simp

theorem crash_of_valid
    : let c : ServerConfig :=
        { maxClients := 0x2000000000000000, maxCommandLength := 0xFFFFFFFFFFFFFFFF }
      let s : Session := { settings := c.sessionSettings }
      c.validate = .ok ()
        ∧
      (Listener.bind {} c c.sessionSettings ⟨c.logTarget⟩).2 = .crashed
        ∧
      s.serveFrom64 .later (.ofChunks [[0x0A]]) = none := by
  intro c s
  have hvalid : c.validate = .ok () := by
    rw [validate_eq_ok_iff]
    constructor <;> decide +kernel
  have hclients : c.maxClients.toNat = 0x2000000000000000 := by decide +kernel
  have hlength : s.settings.maxCommandLength = 0xFFFFFFFFFFFFFFFF := by decide +kernel
  have hreading : s.start.1.isReading = true := by
    apply Session.isReading_start
    constructor
    . intro operation n
      rfl
    . intro n
      simp [s]
  refine ⟨hvalid, ?_, ?_⟩
  . rw [Listener.bind_eq_crashed_iff, hclients]
    refine ⟨⟨rfl, _, rfl⟩, by simp⟩
  . rw [Session.serveFrom64_eq, hlength, hreading]
    . simp
    . rw [hlength]
      simp
    . rw [hlength]
      simp

end ServerConfig

end FtpControl
