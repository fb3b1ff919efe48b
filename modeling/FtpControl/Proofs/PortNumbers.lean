import Mathlib.Data.Nat.Digits.Defs
import FtpControl.Proofs.Loading
import FtpControl.Proofs.Placement

/-!
This module contains the ports that are loaded. The number that the uppermost source gives for the
port is read in full, and then only its low 16 bits are kept: a number that is too great gives
another port, and it is an error only where nothing is left of it.
-/

namespace FtpControl

namespace Config

def decimalValue (digits : List Char) : Nat :=
  Nat.ofDigits 10 (digits.map fun c => c.toNat - '0'.toNat).reverse

inductive Spells (text : String) : Int → Prop where
  | plain {digits : List Char} (htext : text.toList = digits) (hne : digits ≠ [])
      (hdigits : ∀ c ∈ digits, c.isDigit = true) : Spells text (decimalValue digits)
  | plus {digits : List Char} (htext : text.toList = '+' :: digits) (hne : digits ≠ [])
      (hdigits : ∀ c ∈ digits, c.isDigit = true) : Spells text (decimalValue digits)
  | minus {digits : List Char} (htext : text.toList = '-' :: digits) (hne : digits ≠ [])
      (hdigits : ∀ c ∈ digits, c.isDigit = true) : Spells text (-(decimalValue digits : Int))

theorem foldl_digits_eq (digits : List Char)
    : digits.foldl (fun n c => n * 10 + (c.toNat - '0'.toNat)) 0 = decimalValue digits := by
  unfold decimalValue
  induction digits using List.reverseRecOn with
  | nil => rfl
  | append_singleton digits c ih =>
    rw [List.foldl_append, ih, List.map_append, List.reverse_append, List.map_singleton,
      List.reverse_singleton, List.singleton_append, Nat.ofDigits_cons, List.foldl_cons,
      List.foldl_nil, Nat.mul_comm, Nat.add_comm]

theorem isAlpha_of_isDigit {c : Char} (h : c.isDigit = true) : c.isAlpha = false := by
  simp [Char.isDigit, Char.isAlpha, Char.isUpper, Char.isLower, UInt32.le_iff_toNat_le] at *
  omega

theorem number?_eq_decimal? {text : String} {c : Char} {cs : List Char}
    (htext : text.toList = c :: cs) (hc : c.isAlpha = false) : number? text = decimal? text := by
  have hword : ∀ word : String, word.toList.head?.any Char.isAlpha = true
      → text.toLower ≠ word := by
    rintro word hword rfl
    simp [String.toLower, htext, hc] at hword
  unfold number?
  dsimp only
  rw [if_neg, if_neg]
  . rintro (h | h | h) <;> exact hword _ (by decide) h
  . rintro (h | h | h) <;> exact hword _ (by decide) h

theorem decimal?_of_digits {text : String} {digits : List Char} (hne : digits ≠ [])
    (hdigits : ∀ c ∈ digits, c.isDigit = true)
    (htext : text.toList = digits ∨ text.toList = '+' :: digits)
    : decimal? text
        =
      if decimalValue digits ≤ maxNumber then some (decimalValue digits) else none := by
  have hall : (!digits.isEmpty && digits.all Char.isDigit) = true := by
    simpa [hne] using hdigits
  have hread : decimal? text = if !digits.isEmpty && digits.all Char.isDigit then
      let n := digits.foldl (fun n c => n * 10 + (c.toNat - '0'.toNat)) 0
      if n ≤ maxNumber then some n else none
    else none := by
    unfold decimal?
    obtain htext | htext := htext
    . rw [htext]
      split
      . have hplus := hdigits _ List.mem_cons_self
        contradiction
      . rfl
    . rw [htext]
      rfl
  rw [hread, if_pos hall, foldl_digits_eq]

theorem Spells.number?_eq_some {text : String} {n : Int} (hspells : Spells text n) {m : Nat}
    (h : number? text = some m) : (m : Int) = n ∧ m ≤ maxNumber := by
  have hvalue : ∀ {digits : List Char},
      (if decimalValue digits ≤ maxNumber then some (decimalValue digits) else none) = some m
        → (m : Int) = decimalValue digits ∧ m ≤ maxNumber := by
    intro digits hm
    split at hm
    . cases hm
      exact ⟨rfl, ‹_›⟩
    . contradiction
  cases hspells with
  | @plain digits htext hne hdigits =>
    obtain ⟨c, cs, rfl⟩ := List.exists_cons_of_ne_nil hne
    rw [number?_eq_decimal? htext (isAlpha_of_isDigit (hdigits _ List.mem_cons_self)),
      decimal?_of_digits hne hdigits (.inl htext)] at h
    exact hvalue h
  | plus htext hne hdigits =>
    rw [number?_eq_decimal? htext rfl, decimal?_of_digits hne hdigits (.inr htext)] at h
    exact hvalue h
  | minus htext hne hdigits =>
    rw [number?_eq_decimal? htext rfl] at h
    simp [decimal?, htext] at h

inductive GivesPort (tree : FileTree) (env : List (String × String)) (path : String) (n : Int)
    : Prop where
  | environment {name text : String} (hmem : (name, text) ∈ env)
      (hkey : envKey? name = some "control_port")
      (honly : ∀ other ∈ env, envKey? other.1 = some "control_port" → other.2 = text)
      (hspells : Spells text n)
  | file {file : Settings} {source : Option Source}
      (hunset : ∀ other ∈ env, envKey? other.1 ≠ some "control_port")
      (hfile : fileSettings tree path = .ok file)
      (hmem : ("control_port", .scalar source (.integer n)) ∈ file)

theorem isPlain_controlPort : Settings.IsPlain "control_port" := by
  decide

variable {tree : FileTree} {env : List (String × String)} {path : String} {n : Int}

theorem standsIn_merged_of_variable {text : String} (file : Settings)
    (hmem : ∃ name, (name, text) ∈ env ∧ envKey? name = some "control_port")
    (honly : ∀ other ∈ env, envKey? other.1 = some "control_port" → other.2 = text)
    : (ofVariable text).StandsIn ((merged file env).lookup "control_port") := by
  obtain ⟨name, hmem, hkey⟩ := hmem
  apply Settings.standsIn_collect isPlain_controlPort rfl
  . intro entry hentry hport
    obtain ⟨other, hother, hsets, hvalue⟩ := mem_envSettings.1 hentry
    rw [hvalue, honly other hother (hport ▸ hsets)]
  . exact .inr (mem_envSettings.2 ⟨(name, text), hmem, hkey, rfl⟩)

theorem standsIn_merged_of_file {file : Settings} {v : Setting} (hfile : file.Keyed)
    (hmem : ("control_port", v) ∈ file) (hv : v.isNode = false)
    (hunset : ∀ other ∈ env, envKey? other.1 ≠ some "control_port")
    : v.StandsIn ((merged file env).lookup "control_port") := by
  apply Settings.standsIn_collect isPlain_controlPort hv
  . intro entry hentry hport
    obtain ⟨other, hother, hsets, _⟩ := mem_envSettings.1 hentry
    exact absurd (hport ▸ hsets) (hunset other hother)
  . left
    apply Settings.standsIn_collect isPlain_controlPort hv
    . intro entry hentry hport
      exact List.inj_on_of_nodup_map hfile.nodup hentry hmem hport ▸ rfl
    . exact .inr hmem

theorem toNat_ofVariable_eq_ok {text : String} {m : Nat} (h : (ofVariable text).toNat = .ok m)
    : number? text = some m := by
  unfold ofVariable Setting.toNat at h
  dsimp only at h
  split at h
  . next m' hnumber =>
    cases h
    exact hnumber
  . contradiction

theorem GivesPort.eq_of_toNat (h : GivesPort tree env path n) {file : Settings}
    (hfile : fileSettings tree path = .ok file) {m : Nat}
    (hm : (((merged file env).lookup "control_port").getD .nothing).toNat = .ok m)
    : (m : Int) = n
        ∧
      ((∃ named ∈ env, envKey? named.1 = some "control_port") → m ≤ maxNumber) := by
  cases h with
  | environment hmem hkey honly hspells =>
    have hstands := standsIn_merged_of_variable file ⟨_, hmem, hkey⟩ honly
    have hnumber := toNat_ofVariable_eq_ok (hstands.toNat_eq_ok hm)
    obtain ⟨heq, hle⟩ := hspells.number?_eq_some hnumber
    exact ⟨heq, fun _ => hle⟩
  | @file file' source hunset hfile' hmem =>
    obtain rfl : file' = file := by
      rw [hfile'] at hfile
      exact Except.ok.inj hfile
    have hstands := standsIn_merged_of_file (keyed_of_fileSettings hfile) hmem rfl hunset
    have hinteger := hstands.toNat_eq_ok hm
    refine ⟨?_, fun ⟨named, hnamed, hkey⟩ => absurd hkey (hunset named hnamed)⟩
    dsimp only [Setting.toNat] at hinteger
    split at hinteger
    . next hn =>
      cases hinteger
      exact Int.toNat_of_nonneg hn
    . contradiction

end Config

namespace ServerConfig

variable {tree : FileTree} {env : List (String × String)} {path : String} {n : Int}

theorem controlPort_of_load (h : Config.GivesPort tree env path n) {c : ServerConfig}
    (hload : load tree env path = .ok c)
    : 0 ≤ n
        ∧
      (c.controlPort.toNat : Int) = n % 65536
        ∧
      n % 65536 ≠ 0
        ∧
      ((∃ named ∈ env, Config.envKey? named.1 = some "control_port") → n ≤ Config.maxNumber) := by
  obtain ⟨file, hfile, _, hsettings, hvalid⟩ := load_eq_ok_iff_exists.1 hload
  obtain ⟨m, hm, hport⟩ := (ofSettings_eq_ok_iff.1 hsettings).1.controlPort
  obtain ⟨rfl, hle⟩ := h.eq_of_toNat hfile hm
  have hmod : c.controlPort.toNat = m % 65536 := by
    rw [← hport]
    rfl
  have hne : c.controlPort.toNat ≠ 0 := by
    intro hzero
    exact hvalid.controlPort_ne_zero (UInt16.toNat_inj.1 hzero)
  refine ⟨Int.natCast_nonneg m, by omega, by omega, ?_⟩
  intro hnamed
  exact Int.ofNat_le.2 (hle hnamed)

/--
A port keeps the low 16 bits of the number that the uppermost source gives for it, so it is this
number exactly if 16 bits are enough. A number that is below zero or has nothing in these bits is
never loaded, and neither is a variable with a number of more than 64 bits.
-/
theorem load_narrows_port (h : Config.GivesPort tree env path n)
    : (∀ c, load tree env path = .ok c
        →
        0 ≤ n
          ∧
        (c.controlPort.toNat : Int) = n % 65536
          ∧
        ((c.controlPort.toNat : Int) = n ↔ n ≤ 65535))
        ∧
      (n < 0 ∨ n % 65536 = 0 → ∃ e, load tree env path = .error e)
        ∧
      ((∃ named ∈ env, Config.envKey? named.1 = some "control_port") → Config.maxNumber < n
        → ∃ e, load tree env path = .error e) := by
  refine ⟨?_, ?_, ?_⟩
  . intro c hload
    obtain ⟨hnonneg, hport, _, _⟩ := controlPort_of_load h hload
    refine ⟨hnonneg, hport, ?_⟩
    rw [hport]
    omega
  . intro hbad
    cases hload : load tree env path with
    | error e => exact ⟨e, rfl⟩
    | ok c =>
      obtain ⟨_, _, _, _⟩ := controlPort_of_load h hload
      omega
  . intro hnamed hbig
    cases hload : load tree env path with
    | error e => exact ⟨e, rfl⟩
    | ok c =>
      obtain ⟨_, _, _, hle⟩ := controlPort_of_load h hload
      have := hle hnamed
      omega

open Config Toml

theorem fileSettings_of_port_65537
    : let tree : FileTree :=
        { files := [(["config.toml"], Text.Utf8.encodeString "control_port = 65537\n")] }
      fileSettings tree "config.toml"
        =
      .ok [("control_port", .scalar (some (.file "config.toml")) (.integer 65537))] := by
  intro tree
  have hparse : Document.parse? "control_port = 65537\n"
      = some [("control_port", .integer 65537)] := by
    rw [Document.parse?_of_no_header
      [.bare "control_port", .blank " ", .equals, .blank " ", .bare "65537", .newline]
      [.entry ["control_port"] (.integer 65537)] [("control_port", .integer 65537)]]
    . cbv
    . decide
    . cbv
    . cbv
    . cbv
    . cbv
  refine (fileSettings_of_text hparse).trans ?_
  simp [Setting.ofToml]

theorem load_narrows_port_of_variables
    : let tree : FileTree :=
        { files := [(["config.toml"], Text.Utf8.encodeString "control_port = 65537\n")] }
      let env := [("RAX_FTP__CONTROL_PORT", "+70001"), ("HOME", "/root")]
      GivesPort tree env "config.toml" 70001
        ∧
      load tree env "config.toml" = .ok { controlPort := 4465 }
        ∧
      ((4465 : Int) = 70001 % 65536 ∧ ¬(4465 : Int) = 70001)
        ∧
      GivesPort tree [("RAX_FTP__CONTROL_PORT", "65536")] "config.toml" 65536
        ∧
      ∃ e, load tree [("RAX_FTP__CONTROL_PORT", "65536")] "config.toml" = .error e := by
  intro tree env
  have hspells : Spells "+70001" 70001 := by
    have hvalue : (decimalValue "70001".toList : Int) = 70001 := by decide +kernel
    rw [← hvalue]
    exact .plus rfl (by decide) (List.all_eq_true.1 (by decide))
  have hgives : GivesPort tree env "config.toml" 70001 :=
    .environment List.mem_cons_self (by decide) (by decide) hspells
  have hspells' : Spells "65536" 65536 := by
    have hvalue : (decimalValue "65536".toList : Int) = 65536 := by decide +kernel
    rw [← hvalue]
    exact .plain rfl (by decide) (List.all_eq_true.1 (by decide))
  have hgives' : GivesPort tree [("RAX_FTP__CONTROL_PORT", "65536")] "config.toml" 65536 :=
    .environment List.mem_cons_self (by decide) (by decide) hspells'
  have henv : SetsScalars env := by
    constructor <;> decide
  have hload : load tree env "config.toml" = .ok { controlPort := 4465 } := by
    rw [load_eq_ok_iff fileSettings_of_port_65537 (by simp [serverKeys, scalarKeys]) henv]
    refine ⟨?_, rfl, ?_⟩
    . constructor
      . decide +kernel
      . exact ⟨70001, by decide +kernel, rfl⟩
      . decide +kernel
      . exact ⟨10, by decide +kernel, rfl⟩
      . exact ⟨512, by decide +kernel, rfl⟩
      . exact ⟨0, by decide +kernel, rfl⟩
      . decide +kernel
    . constructor <;> decide +kernel
  obtain ⟨_, hport, hexact⟩ := (load_narrows_port hgives).1 _ hload
  refine ⟨hgives, hload, ⟨hport, ?_⟩, hgives', ?_⟩
  . intro heq
    exact absurd (hexact.1 heq) (by decide)
  . exact (load_narrows_port hgives').2.1 (.inr rfl)

theorem load_of_port_65537
    : let tree : FileTree :=
        { files := [(["config.toml"], Text.Utf8.encodeString "control_port = 65537\n")] }
      GivesPort tree [] "config.toml" 65537
        ∧
      load tree [] "config.toml" = .ok { controlPort := 1 }
        ∧
      (({ controlPort := 1 } : ServerConfig).controlPort.toNat : Int) ≠ 65537 := by
  intro tree
  have hnil : SetsScalars [] := by
    constructor <;> simp
  refine ⟨?_, ?_, by decide⟩
  . apply GivesPort.file _ fileSettings_of_port_65537 List.mem_cons_self
    simp
  . rw [load_eq_ok_iff fileSettings_of_port_65537 (by simp [serverKeys, scalarKeys]) hnil]
    refine ⟨?_, rfl, ?_⟩
    . exact ⟨rfl, ⟨_, rfl, rfl⟩, rfl, ⟨_, rfl, rfl⟩, ⟨_, rfl, rfl⟩, ⟨_, rfl, rfl⟩, rfl⟩
    . constructor <;> decide +kernel

end ServerConfig

end FtpControl
