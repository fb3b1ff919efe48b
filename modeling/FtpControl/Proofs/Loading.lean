import FtpControl.Proofs.Decoding
import FtpControl.Proofs.Sources
import FtpControl.Proofs.Validation

/-!
This module contains the theory of loaded configurations: each field comes from the uppermost source
that has a value for its key, whatever the sources say about other keys and whatever the sources
below say about this one, and nothing is loaded that breaks a rule.
-/

namespace FtpControl

namespace ServerConfig

structure Reads (c : ServerConfig) (value : String → Config.Setting) : Prop where
  bindAddress : (value "bind_address").toText = .ok c.bindAddress
  controlPort : ∃ n, (value "control_port").toNat = .ok n ∧ n.toUInt16 = c.controlPort
  welcomeMessage : (value "welcome_message").toText = .ok c.welcomeMessage
  maxClients : ∃ n, (value "max_clients").toNat = .ok n ∧ n.toUInt64 = c.maxClients
  maxCommandLength :
    ∃ n, (value "max_command_length").toNat = .ok n ∧ n.toUInt64 = c.maxCommandLength
  authTimeoutSecs : ∃ n, (value "auth_timeout_secs").toNat = .ok n ∧ n.toUInt64 = c.authTimeoutSecs
  logTarget : (value "log_target").toText = .ok c.logTarget

theorem Reads.of_convertsAs {c : ServerConfig} {value value' : String → Config.Setting}
    (hreads : c.Reads value) (h : ∀ key ∈ Config.scalarKeys, (value' key).ConvertsAs (value key))
    : c.Reads value' := by
  simp only [Config.scalarKeys, List.forall_mem_cons, List.not_mem_nil] at h
  obtain ⟨haddress, hport, hwelcome, hclients, hlength, htimeout, htarget, _⟩ := h
  constructor
  . exact (haddress.toText_iff _).2 hreads.bindAddress
  . simpa only [hport.toNat_iff] using hreads.controlPort
  . exact (hwelcome.toText_iff _).2 hreads.welcomeMessage
  . simpa only [hclients.toNat_iff] using hreads.maxClients
  . simpa only [hlength.toNat_iff] using hreads.maxCommandLength
  . simpa only [htimeout.toNat_iff] using hreads.authTimeoutSecs
  . exact (htarget.toText_iff _).2 hreads.logTarget

theorem Reads.eq_with_users {c other : ServerConfig} {value : String → Config.Setting}
    (h : c.Reads value) (hother : other.Reads value) : other = { c with users := other.users } := by
  obtain ⟨_, ⟨_, _⟩, _, ⟨_, _⟩, ⟨_, _⟩, ⟨_, _⟩, _⟩ := h
  obtain ⟨_, ⟨_, _⟩, _, ⟨_, _⟩, ⟨_, _⟩, ⟨_, _⟩, _⟩ := hother
  cases c
  cases other
  simp_all

theorem ofSettings_eq_ok_iff {t : Config.Settings} {c : ServerConfig}
    : ofSettings t = .ok c
        ↔
      c.Reads (fun key => (t.lookup key).getD .nothing) ∧ t.accounts = .ok c.users := by
  unfold ofSettings
  simp only [Config.bind_eq_ok_iff, Config.Settings.get_eq_ok_iff]
  constructor
  . rintro ⟨_, haddress, port, hport, _, hwelcome, clients, hclients, length, hlength, timeout,
      htimeout, _, htarget, _, husers, h⟩
    cases h
    refine ⟨?_, husers⟩
    constructor
    . exact haddress
    . exact ⟨port, hport, rfl⟩
    . exact hwelcome
    . exact ⟨clients, hclients, rfl⟩
    . exact ⟨length, hlength, rfl⟩
    . exact ⟨timeout, htimeout, rfl⟩
    . exact htarget
  . rintro ⟨hreads, husers⟩
    obtain ⟨port, hport, hportEq⟩ := hreads.controlPort
    obtain ⟨clients, hclients, hclientsEq⟩ := hreads.maxClients
    obtain ⟨length, hlength, hlengthEq⟩ := hreads.maxCommandLength
    obtain ⟨timeout, htimeout, htimeoutEq⟩ := hreads.authTimeoutSecs
    refine ⟨_, hreads.bindAddress, port, hport, _, hreads.welcomeMessage, clients, hclients, length,
      hlength, timeout, htimeout, _, hreads.logTarget, _, husers, ?_⟩
    rw [hportEq, hclientsEq, hlengthEq, htimeoutEq]
    rfl

theorem ofSettings_eq_error_of_accounts {t : Config.Settings} {c : ServerConfig}
    (hreads : c.Reads fun key => (t.lookup key).getD .nothing) {e : Config.Error}
    (husers : t.accounts = .error e)
    : ofSettings t = .error e := by
  obtain ⟨haddress, ⟨port, hport, _⟩, hwelcome, ⟨clients, hclients, _⟩, ⟨length, hlength, _⟩,
    ⟨timeout, htimeout, _⟩, htarget⟩ := hreads
  rw [← Config.Settings.get_eq_ok_iff] at haddress hport hwelcome hclients hlength htimeout htarget
  unfold ofSettings
  rw [haddress, hport, hwelcome, hclients, hlength, htimeout, htarget, husers]
  rfl

theorem ofSettings_congr {t t' : Config.Settings}
    (h : ∀ key ∈ Config.serverKeys, t.lookup key = t'.lookup key)
    : ofSettings t = ofSettings t' := by
  simp only [Config.serverKeys, Config.scalarKeys, List.forall_mem_append, List.forall_mem_cons,
    List.not_mem_nil] at h
  obtain ⟨⟨haddress, hport, hwelcome, hclients, hlength, htimeout, htarget, _⟩, husers, _⟩ := h
  unfold ofSettings Config.Settings.get Config.Settings.accounts
  rw [haddress, hport, hwelcome, hclients, hlength, htimeout, htarget, husers]

section

variable {tree : FileTree} {env : List (String × String)} {path : String} {file : Config.Settings}

theorem load_eq_ok_iff_exists {c : ServerConfig}
    : load tree env path = .ok c
        ↔
      ∃ file,
        Config.fileSettings tree path = .ok file
          ∧
        (∀ entry ∈ file ++ Config.envSettings env, (Config.Path.ofKey entry.1).hasRoom = true)
          ∧
        ofSettings (Config.merged file env) = .ok c
          ∧
        c.Valid := by
  unfold load
  simp only [Config.bind_eq_ok_iff, ← List.all_eq_true, ← validate_eq_ok_iff]
  apply exists_congr
  intro file
  apply and_congr_right
  intro _
  split
  . next hroom =>
    simp only [Config.bind_eq_ok_iff, hroom, true_and]
    constructor
    . rintro ⟨_, hsettings, _, hvalid, h⟩
      cases h
      exact ⟨hsettings, hvalid⟩
    . rintro ⟨hsettings, hvalid⟩
      exact ⟨c, hsettings, (), hvalid, rfl⟩
  . next hroom =>
    constructor
    . intro h
      cases h
    . rintro ⟨hroom', _⟩
      exact absurd hroom' hroom

theorem load_eq (hfile : Config.fileSettings tree path = .ok file)
    (hkeys : ∀ entry ∈ file, entry.1 ∈ Config.serverKeys) (henv : Config.SetsScalars env)
    : load tree env path
        =
      (do
        let c ← ofSettings (Config.merged file env)
        c.validate
        return c) := by
  have hroom : (file ++ Config.envSettings env).all
      (fun entry => (Config.Path.ofKey entry.1).hasRoom) = true := by
    rw [List.all_eq_true]
    intro entry hentry
    apply Config.Settings.hasRoom_of_isPlain
    apply Config.isPlain_of_mem
    obtain hentry | hentry := List.mem_append.1 hentry
    . exact hkeys entry hentry
    . exact Config.mem_serverKeys (Config.mem_scalarKeys_of_mem_envSettings henv entry hentry)
  unfold load
  rw [hfile]
  simp only [bind, Except.bind, hroom]
  rfl

theorem ofSettings_merged_eq_ok_iff (hfile : file.Keyed)
    (hkeys : ∀ entry ∈ file, entry.1 ∈ Config.serverKeys) (henv : Config.SetsScalars env)
    (c : ServerConfig)
    : ofSettings (Config.merged file env) = .ok c
        ↔
      c.Reads (Config.layered file env) ∧ file.accounts = .ok c.users := by
  rw [ofSettings_eq_ok_iff, Config.Settings.accounts_eq_ok_iff
    (Config.lookup_users_merged hfile hkeys henv) (fun _ _ => hfile.nodup_of_lookup)]
  apply and_congr_left
  intro _
  constructor
  . intro hreads
    apply hreads.of_convertsAs
    intro key hkey
    exact (Config.convertsAs_layered hfile hkeys henv hkey).symm
  . intro hreads
    apply hreads.of_convertsAs
    intro key hkey
    exact Config.convertsAs_layered hfile hkeys henv hkey

theorem load_eq_ok_iff (hfile : Config.fileSettings tree path = .ok file)
    (hkeys : ∀ entry ∈ file, entry.1 ∈ Config.serverKeys) (henv : Config.SetsScalars env)
    (c : ServerConfig)
    : load tree env path = .ok c
        ↔
      c.Reads (Config.layered file env) ∧ file.accounts = .ok c.users ∧ c.Valid := by
  have hmerged := ofSettings_merged_eq_ok_iff (Config.keyed_of_fileSettings hfile) hkeys henv
  rw [load_eq hfile hkeys henv]
  simp only [Config.bind_eq_ok_iff, hmerged]
  constructor
  . rintro ⟨_, ⟨hreads, husers⟩, ⟨⟩, hvalid, h⟩
    cases h
    exact ⟨hreads, husers, validate_eq_ok_iff.1 hvalid⟩
  . rintro ⟨hreads, husers, hvalid⟩
    exact ⟨c, ⟨hreads, husers⟩, (), validate_eq_ok_iff.2 hvalid, rfl⟩

theorem exists_problem_of_not_valid {c : ServerConfig} (h : ¬c.Valid)
    : ∃ text, c.problem? = some text := by
  rw [← validate_eq_ok_iff] at h
  unfold validate at h
  split at h
  . next text hproblem => exact ⟨text, hproblem⟩
  . contradiction

theorem load_eq_error_of_problem? (hfile : Config.fileSettings tree path = .ok file)
    (hkeys : ∀ entry ∈ file, entry.1 ∈ Config.serverKeys) (henv : Config.SetsScalars env)
    {c : ServerConfig} (hreads : c.Reads (Config.layered file env))
    (husers : file.accounts = .ok c.users) {text : String} (hproblem : c.problem? = some text)
    : load tree env path = .error (.message text) := by
  have hmerged := ofSettings_merged_eq_ok_iff (Config.keyed_of_fileSettings hfile) hkeys henv c
  rw [load_eq hfile hkeys henv, hmerged.2 ⟨hreads, husers⟩]
  simp only [bind, Except.bind, validate, hproblem]

theorem load_eq_error_of_accounts (hfile : Config.fileSettings tree path = .ok file)
    (hkeys : ∀ entry ∈ file, entry.1 ∈ Config.serverKeys) (henv : Config.SetsScalars env)
    {c : ServerConfig} (hreads : c.Reads (Config.layered file env)) {e : Config.Error}
    (husers : (Config.merged file env).accounts = .error e)
    : load tree env path = .error e := by
  have hmerged : c.Reads fun key => ((Config.merged file env).lookup key).getD .nothing := by
    apply hreads.of_convertsAs
    intro key hkey
    exact Config.convertsAs_layered (Config.keyed_of_fileSettings hfile) hkeys henv hkey
  rw [load_eq hfile hkeys henv, ofSettings_eq_error_of_accounts hmerged husers]
  rfl

theorem Valid.with_users {c : ServerConfig} (h : c.Valid) (users : Accounts)
    : ({ c with users } : ServerConfig).Valid := by
  obtain ⟨hport, hclients, hlength, hwelcome, htarget⟩ := h
  exact ⟨hport, hclients, hlength, hwelcome, htarget⟩

theorem lookup_variableFor_users (henv : Config.SetsScalars env)
    : env.lookup (Config.variableFor "users") = none := by
  rw [List.lookup_eq_none_iff]
  intro entry hentry
  rw [bne_iff_ne]
  intro hname
  have hkey : Config.envKey? entry.1 = some "users" := by
    rw [← hname]
    decide
  exact Config.users_not_mem_scalarKeys (henv.eq_variableFor hentry hkey).1

theorem lookup_merged_congr {file' : Config.Settings} (hfile : file.Keyed) (hfile' : file'.Keyed)
    (hkeys : ∀ entry ∈ file, entry.1 ∈ Config.serverKeys)
    (hkeys' : ∀ entry ∈ file', entry.1 ∈ Config.serverKeys) (henv : Config.SetsScalars env)
    (hsame : ∀ key ∈ Config.serverKeys, env.lookup (Config.variableFor key) = none
      → file'.lookup key = file.lookup key)
    {key : String} (hkey : key ∈ Config.serverKeys)
    : (Config.merged file' env).lookup key = (Config.merged file env).lookup key := by
  obtain hscalar | husers := List.mem_append.1 hkey
  . rw [Config.lookup_merged hfile hkeys henv, Config.lookup_merged hfile' hkeys' henv,
      Config.lookup_envSettings henv hscalar]
    cases hvalue : env.lookup (Config.variableFor key) with
    | none => rw [hsame key hkey hvalue]
    | some value =>
      -- the value of a variable is no table, so it does not matter what it is laid over
      cases file.lookup key <;> cases file'.lookup key <;> rfl
  . obtain rfl := List.mem_singleton.1 husers
    rw [Config.lookup_users_merged hfile hkeys henv, Config.lookup_users_merged hfile' hkeys' henv,
      hsame _ hkey (lookup_variableFor_users henv)]

/--
A configuration is loaded exactly if the uppermost values of the keys convert to its fields and it
keeps the rules. If the uppermost values break a rule, none is loaded, and the rule is what is
reported unless the accounts do not convert. What lies below an uppermost value changes nothing.
-/
theorem load_reads_uppermost (hfile : Config.fileSettings tree path = .ok file)
    (hkeys : ∀ entry ∈ file, entry.1 ∈ Config.serverKeys) (henv : Config.SetsScalars env)
    : (∀ c,
        load tree env path = .ok c
          ↔
        c.Reads (Config.layered file env) ∧ file.accounts = .ok c.users ∧ c.Valid)
        ∧
      (∀ c : ServerConfig, c.Reads (Config.layered file env) → ¬c.Valid
        →
        (∀ other, load tree env path ≠ .ok other)
          ∧
        ((∃ users, file.accounts = .ok users)
          →
          ∃ text, c.problem? = some text ∧ load tree env path = .error (.message text)))
        ∧
      ∀ (tree' : FileTree) (path' : String) (file' : Config.Settings),
        Config.fileSettings tree' path' = .ok file' → (∀ entry ∈ file', entry.1 ∈ Config.serverKeys)
        →
        (∀ key ∈ Config.serverKeys, env.lookup (Config.variableFor key) = none
          → file'.lookup key = file.lookup key)
        →
        load tree' env path' = load tree env path := by
  refine ⟨load_eq_ok_iff hfile hkeys henv, ?_, ?_⟩
  . intro c hreads hinvalid
    constructor
    . intro other hload
      obtain ⟨hother, _, hvalid⟩ := (load_eq_ok_iff hfile hkeys henv other).1 hload
      apply hinvalid
      rw [hother.eq_with_users hreads]
      exact hvalid.with_users c.users
    . rintro ⟨users, husers⟩
      have hreads' : ({ c with users } : ServerConfig).Reads (Config.layered file env) := by
        obtain ⟨haddress, hport, hwelcome, hclients, hlength, htimeout, htarget⟩ := hreads
        exact ⟨haddress, hport, hwelcome, hclients, hlength, htimeout, htarget⟩
      obtain ⟨text, hproblem⟩ := exists_problem_of_not_valid hinvalid
      exact ⟨text, hproblem, load_eq_error_of_problem? hfile hkeys henv hreads' husers hproblem⟩
  . intro tree' path' file' hfile' hkeys' hsame
    rw [load_eq hfile hkeys henv, load_eq hfile' hkeys' henv]
    congr 1
    apply ofSettings_congr
    intro key hkey
    exact lookup_merged_congr (Config.keyed_of_fileSettings hfile)
      (Config.keyed_of_fileSettings hfile') hkeys hkeys' henv hsame hkey

end

open Config Toml

theorem displayPath_config : displayPath "config.toml" = "config.toml" := by
  decide +kernel

theorem fileSettings_of_text {text : String} {t : Table} (hparse : Document.parse? text = some t)
    : fileSettings { files := [(["config.toml"], Text.Utf8.encodeString text)] } "config.toml"
        =
      .ok (t.map fun entry => (entry.1, .ofToml (.file "config.toml") entry.2)) := by
  rw [fileSettings_of_content "config.toml" _ hparse, displayPath_config]
  have hread : ({ files := [(["config.toml"], Text.Utf8.encodeString text)] } : FileTree).read?
      "config.toml" = some (Text.Utf8.encodeString text) := rfl
  have hlocate : locate? { files := [(["config.toml"], Text.Utf8.encodeString text)] } "config.toml"
      = some "config.toml" := by
    unfold locate?
    rw [hread]
    rfl
  rw [hlocate]
  simp only [Option.bind_eq_bind, Option.bind_some, hread, Text.Utf8.decode?_encodeString]
  rfl

set_option maxRecDepth 10000 in
theorem load_reads_uppermost_of_variables
    : let tree : FileTree :=
        { files := [(["config.toml"], Text.Utf8.encodeString "max_clients = 0\n")] }
      let file : Settings := [("max_clients", .scalar (some (.file "config.toml")) (.integer 0))]
      let env :=
        [("RAX_FTP__MAX_CLIENTS", "7"), ("RAX_FTP__CONTROL_PORT", "2200"), ("HOME", "/root")]
      fileSettings tree "config.toml" = .ok file
        ∧
      (∀ entry ∈ file, entry.1 ∈ serverKeys)
        ∧
      SetsScalars env
        ∧
      load tree env "config.toml" = .ok { controlPort := 2200, maxClients := 7 }
        ∧
      load {} env "config.toml" = load tree env "config.toml"
        ∧
      load tree [] "config.toml" = .error (.message "max_clients must be greater than 0") := by
  intro tree file env
  have hparse : Document.parse? "max_clients = 0\n" = some [("max_clients", .integer 0)] := by
    rw [Document.parse?_of_no_header
      [.bare "max_clients", .blank " ", .equals, .blank " ", .bare "0", .newline]
      [.entry ["max_clients"] (.integer 0)] [("max_clients", .integer 0)]]
    . cbv
    . decide
    . cbv
    . cbv
    . cbv
    . cbv
  have hfile : fileSettings tree "config.toml" = .ok file := by
    rw [fileSettings_of_content "config.toml" (by decide +kernel) hparse]
    simp [Setting.ofToml, file, displayPath_config]
  have hkeys : ∀ entry ∈ file, entry.1 ∈ serverKeys := by
    simp [file, serverKeys, scalarKeys]
  have henv : SetsScalars env := by
    constructor <;> decide
  have hnil : SetsScalars [] := by
    constructor <;> simp
  refine ⟨hfile, hkeys, henv, ?_, ?_, ?_⟩
  . rw [(load_reads_uppermost hfile hkeys henv).1]
    refine ⟨?_, rfl, ?_⟩
    . constructor
      . decide +kernel
      . exact ⟨2200, by decide +kernel, rfl⟩
      . decide +kernel
      . exact ⟨7, by decide +kernel, rfl⟩
      . exact ⟨512, by decide +kernel, rfl⟩
      . exact ⟨0, by decide +kernel, rfl⟩
      . decide +kernel
    . constructor <;> decide +kernel
  . apply (load_reads_uppermost hfile hkeys henv).2.2 {} "config.toml" []
    . rfl
    . simp
    . intro key _ hunset
      have hne : key ≠ "max_clients" := by
        rintro rfl
        revert hunset
        decide
      dsimp only [file]
      rw [List.lookup_cons, beq_eq_false_iff_ne.2 hne]
  . have hreads : ({ maxClients := 0 } : ServerConfig).Reads (layered file []) :=
      ⟨rfl, ⟨_, rfl, rfl⟩, rfl, ⟨_, rfl, rfl⟩, ⟨_, rfl, rfl⟩, ⟨_, rfl, rfl⟩, rfl⟩
    obtain ⟨_, hmessage⟩ := (load_reads_uppermost hfile hkeys hnil).2.1 _ hreads
      (fun hvalid => hvalid.maxClients_ne_zero rfl)
    obtain ⟨text, hproblem, hload⟩ := hmessage ⟨_, rfl⟩
    rw [hload]
    cases hproblem
    rfl

set_option maxRecDepth 10000 in
theorem load_of_tables
    : let tree (text : String) : FileTree :=
        { files := [(["config.toml"], Text.Utf8.encodeString text)] }
      let source := some (Source.file "config.toml")
      let file : Settings :=
        [("max_clients", .scalar source (.integer 0)),
          ("users", .table source [("a", .array source [])])]
      (fileSettings (tree "max_clients = \x7b\x7d\n") "config.toml"
          = .ok [("max_clients", .table source [])]
        ∧
      (Setting.table source []).toNat = .error ⟨.map, .integer, source⟩
        ∧
      load (tree "max_clients = \x7b\x7d\n") [] "config.toml" = .ok {})
        ∧
      fileSettings (tree "max_clients = 0\nusers = \x7ba = []\x7d\n") "config.toml" = .ok file
        ∧
      ({ maxClients := 0 } : ServerConfig).Reads (layered file [])
        ∧
      ¬({ maxClients := 0 } : ServerConfig).Valid
        ∧
      load (tree "max_clients = 0\nusers = \x7ba = []\x7d\n") [] "config.toml"
        =
      .error (.type "users.a" ⟨.sequence, .string, source⟩) := by
  intro tree source file
  have hnil : SetsScalars [] := by
    constructor <;> simp
  have hblank : fileSettings (tree "max_clients = \x7b\x7d\n") "config.toml"
      = .ok [("max_clients", .table source [])] := by
    have hparse : Document.parse? "max_clients = \x7b\x7d\n"
        = some [("max_clients", .table .inline [])] := by
      rw [Document.parse?_of_no_header
        [.bare "max_clients", .blank " ", .equals, .blank " ", .openBrace, .closeBrace, .newline]
        [.entry ["max_clients"] (.table .inline [])] [("max_clients", .table .inline [])]]
      . cbv
      . decide
      . cbv
      . cbv
      . cbv
      . cbv
    rw [fileSettings_of_content "config.toml" (by decide +kernel) hparse]
    simp [Setting.ofToml, source, displayPath_config]
  have hfile : fileSettings (tree "max_clients = 0\nusers = \x7ba = []\x7d\n") "config.toml"
      = .ok file := by
    let entries : Table := [("max_clients", .integer 0),
      ("users", .table .inline [("a", .array false [])])]
    have hparse : Document.parse? "max_clients = 0\nusers = \x7ba = []\x7d\n" = some entries := by
      rw [Document.parse?_of_no_header
        [.bare "max_clients", .blank " ", .equals, .blank " ", .bare "0", .newline,
          .bare "users", .blank " ", .equals, .blank " ", .openBrace, .bare "a", .blank " ",
          .equals, .blank " ", .openBracket, .closeBracket, .closeBrace, .newline]
        [.entry ["max_clients"] (.integer 0),
          .entry ["users"] (.table .inline [("a", .array false [])])]
        entries]
      . simp [entries, Table.meaning?, Value.meaning?, Value.meanings?, Table.isDate, dateKey,
          Table.union?, Table.add?, List.lookup_cons]
      . decide
      . cbv
      . cbv
      . cbv
      . cbv
    rw [fileSettings_of_content "config.toml" (by decide +kernel) hparse]
    simp [Setting.ofToml, file, entries, source, displayPath_config]
  have hreads : ({ maxClients := 0 } : ServerConfig).Reads (layered file []) :=
    ⟨rfl, ⟨_, rfl, rfl⟩, rfl, ⟨_, rfl, rfl⟩, ⟨_, rfl, rfl⟩, ⟨_, rfl, rfl⟩, rfl⟩
  refine ⟨⟨hblank, rfl, ?_⟩, hfile, hreads, ?_, ?_⟩
  . rw [load_eq_ok_iff hblank (by simp [serverKeys, scalarKeys]) hnil]
    refine ⟨⟨rfl, ⟨_, rfl, rfl⟩, rfl, ⟨_, rfl, rfl⟩, ⟨_, rfl, rfl⟩, ⟨_, rfl, rfl⟩, rfl⟩, ?_, ?_⟩
    . rfl
    . constructor <;> decide +kernel
  . intro hvalid
    exact hvalid.maxClients_ne_zero rfl
  . have hkeys : ∀ entry ∈ file, entry.1 ∈ serverKeys := by
      simp [file, serverKeys, scalarKeys]
    apply load_eq_error_of_accounts hfile hkeys hnil hreads
    have husers : (merged file []).lookup "users"
        = some (.table none [("a", .array source [])]) := by
      rw [lookup_users_merged (keyed_of_fileSettings hfile) hkeys hnil]
      have hlookup : file.lookup "users" = some (.table source [("a", .array source [])]) := rfl
      rw [hlookup, Option.map_some, Setting.atop_none_of_nodup (by simp)]
      rfl
    have hkey : userKey "a" = "users.a" := by
      decide +kernel
    unfold Settings.accounts
    rw [husers, ← hkey]
    rfl

end ServerConfig

end FtpControl
