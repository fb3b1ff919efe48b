import FtpControl.Config.Load
import FtpControl.Proofs.Documents
import FtpControl.Proofs.Layering

/-!
This module contains the theory of the sources of a configuration. A file has each of its keys once,
an environment has each of its variables once, and so under a key there is in the end what the
uppermost source says that has a value for it.
-/

namespace FtpControl.Config

def scalarKeys : List String :=
  ["bind_address", "control_port", "welcome_message", "max_clients", "max_command_length",
    "auth_timeout_secs", "log_target"]

def serverKeys : List String :=
  scalarKeys ++ ["users"]

def variableFor (key : String) : String :=
  "RAX_FTP__" ++ String.ofList (key.toList.map Char.toUpper)

theorem isPlain_of_mem : ∀ key ∈ serverKeys, Settings.IsPlain key := by
  decide

theorem envKey?_variableFor : ∀ key ∈ scalarKeys, envKey? (variableFor key) = some key := by
  decide

theorem lookup_builtIn_isSome : ∀ key ∈ scalarKeys, (builtIn.lookup key).isSome = true := by
  decide

theorem lookup_users_builtIn : builtIn.lookup "users" = none := by
  decide

theorem mem_serverKeys {key : String} (h : key ∈ scalarKeys) : key ∈ serverKeys :=
  List.mem_append_left _ h

theorem users_not_mem_scalarKeys : "users" ∉ scalarKeys := by
  decide

theorem nodup_of_ofToml_eq_table {source : Source} {v : Toml.Value} {origin : Option Source}
    {entries : Settings} (hkeyed : v.Keyed) (h : Setting.ofToml source v = .table origin entries)
    : (entries.map Prod.fst).Nodup := by
  cases hkeyed with
  | table _ hnodup _ =>
    rw [Setting.ofToml] at h
    cases h
    rw [List.map_map]
    exact hnodup
  | _ =>
    rw [Setting.ofToml] at h
    cases h

structure Settings.Keyed (t : Settings) : Prop where
  nodup : (t.map Prod.fst).Nodup
  nodup_of_lookup : ∀ {key source entries}, t.lookup key = some (.table source entries)
    → (entries.map Prod.fst).Nodup

theorem keyed_of_fileSettings {tree : FileTree} {path : String} {file : Settings}
    (h : fileSettings tree path = .ok file) : file.Keyed := by
  unfold fileSettings at h
  dsimp only at h
  split at h
  . cases h
    constructor
    . exact List.nodup_nil
    . intro key source entries hlookup
      contradiction
  . split at h
    . contradiction
    . next t hparse =>
      cases h
      have hkeyed := Toml.Document.keyed_of_parse? hparse
      constructor
      . rw [List.map_map]
        exact hkeyed.nodup
      . intro key source entries hlookup
        have htoml := (Settings.lookup_mapValues _ t key).symm.trans hlookup
        obtain ⟨v, hv, hsetting⟩ := Option.map_eq_some_iff.1 htoml
        exact nodup_of_ofToml_eq_table (hkeyed.lookup hv) hsetting

theorem fileSettings_of_content {tree : FileTree} {path text : String} {t : Toml.Table}
    (found : String) (hcontent : (do
      let path ← locate? tree path
      return (path, ← Text.Utf8.decode? (← tree.read? path))) = some (found, text))
    (hparse : Toml.Document.parse? text = some t)
    : fileSettings tree path
        =
      .ok (t.map fun entry => (entry.1, .ofToml (.file (displayPath found)) entry.2)) := by
  unfold fileSettings
  rw [hcontent]
  dsimp only
  rw [hparse]

-- An environment, with each name once, whose variables set keys with one value each or count for
-- nothing.
structure SetsScalars (env : List (String × String)) : Prop where
  nodup : (env.map Prod.fst).Nodup
  settles : ∀ entry ∈ env, envKey? entry.1 = none ∨ ∃ key ∈ scalarKeys, entry.1 = variableFor key

namespace SetsScalars

variable {env : List (String × String)} {entry : String × String}

theorem tail (henv : SetsScalars (entry :: env)) : SetsScalars env := by
  constructor
  . exact (List.nodup_cons.1 henv.nodup).2
  . intro other hother
    exact henv.settles other (List.mem_cons_of_mem _ hother)

theorem eq_variableFor (henv : SetsScalars env) (hentry : entry ∈ env) {key : String}
    (hkey : envKey? entry.1 = some key)
    : key ∈ scalarKeys ∧ entry.1 = variableFor key := by
  obtain hnone | ⟨other, hother, hname⟩ := henv.settles entry hentry
  . rw [hnone] at hkey
    contradiction
  . rw [hname, envKey?_variableFor other hother] at hkey
    obtain rfl := Option.some.inj hkey
    exact ⟨hother, hname⟩

end SetsScalars

def ofVariable (value : String) : Setting :=
  .scalar (some .environment) (.string value)

theorem mem_envSettings {env : List (String × String)} {entry : String × Setting}
    : entry ∈ envSettings env
        ↔
      ∃ named ∈ env, envKey? named.1 = some entry.1 ∧ entry.2 = ofVariable named.2 := by
  unfold envSettings
  rw [List.mem_filterMap]
  constructor
  . rintro ⟨named, hnamed, hsome⟩
    obtain ⟨key, hkey, rfl⟩ := Option.map_eq_some_iff.1 hsome
    exact ⟨named, hnamed, hkey, rfl⟩
  . rintro ⟨named, hnamed, hkey, hvalue⟩
    refine ⟨named, hnamed, Option.map_eq_some_iff.2 ⟨entry.1, hkey, ?_⟩⟩
    exact Prod.ext rfl hvalue.symm

section

variable {env : List (String × String)} {name value : String}

theorem envSettings_cons_of_none (h : envKey? name = none)
    : envSettings ((name, value) :: env) = envSettings env := by
  unfold envSettings
  rw [List.filterMap_cons_none]
  simp [h]

theorem envSettings_cons_of_some {key : String} (h : envKey? name = some key)
    : envSettings ((name, value) :: env) = (key, ofVariable value) :: envSettings env := by
  unfold envSettings
  rw [List.filterMap_cons_some]
  simp [h, ofVariable]

theorem nodup_envSettings (henv : SetsScalars env) : ((envSettings env).map Prod.fst).Nodup := by
  induction env with
  | nil => exact List.nodup_nil
  | cons entry env ih =>
    obtain ⟨name, value⟩ := entry
    cases hkey : envKey? name with
    | none =>
      rw [envSettings_cons_of_none hkey]
      exact ih henv.tail
    | some key =>
      rw [envSettings_cons_of_some hkey, List.map_cons, List.nodup_cons]
      refine ⟨?_, ih henv.tail⟩
      intro hmem
      obtain ⟨entry, hentry, rfl⟩ := List.mem_map.1 hmem
      obtain ⟨named, hnamed, hother, _⟩ := mem_envSettings.1 hentry
      have hname := (henv.tail.eq_variableFor hnamed hother).2
      rw [← (henv.eq_variableFor List.mem_cons_self hkey).2] at hname
      exact (List.nodup_cons.1 henv.nodup).1 (List.mem_map.2 ⟨named, hnamed, hname⟩)

theorem lookup_envSettings (henv : SetsScalars env) {key : String} (hkey : key ∈ scalarKeys)
    : (envSettings env).lookup key = (env.lookup (variableFor key)).map ofVariable := by
  have hvariable := envKey?_variableFor key hkey
  induction env with
  | nil => rfl
  | cons entry env ih =>
    obtain ⟨name, value⟩ := entry
    rw [List.lookup_cons]
    cases hname : envKey? name with
    | none =>
      have hne : variableFor key ≠ name := by
        rintro rfl
        simp_all
      rw [envSettings_cons_of_none hname, ih henv.tail, beq_eq_false_iff_ne.2 hne]
    | some first =>
      obtain ⟨hfirst, rfl⟩ := henv.eq_variableFor List.mem_cons_self hname
      rw [envSettings_cons_of_some hname, List.lookup_cons]
      by_cases heq : key = first
      . subst heq
        simp
      . have hne : variableFor key ≠ variableFor first := by
          intro hsame
          rw [hsame, hname] at hvariable
          exact heq (Option.some.inj hvariable).symm
        rw [ih henv.tail, beq_eq_false_iff_ne.2 heq, beq_eq_false_iff_ne.2 hne]

end

/--
The value of a key that counts: that of the environment, else that of the file, else the built-in
one. An empty table in the file is no value.
-/
def layered (file : Settings) (env : List (String × String)) (key : String) : Setting :=
  match env.lookup (variableFor key), (file.lookup key).filter (!·.isBlank) with
  | some value, _ => ofVariable value
  | none, some v => v
  | none, none => (builtIn.lookup key).getD .nothing

def merged (file : Settings) (env : List (String × String)) : Settings :=
  (builtIn.collect file).collect (envSettings env)

section

variable {file : Settings} {env : List (String × String)} {key : String}

theorem mem_scalarKeys_of_mem_envSettings (henv : SetsScalars env)
    : ∀ entry ∈ envSettings env, entry.1 ∈ scalarKeys := by
  intro entry hentry
  obtain ⟨named, hnamed, hkey, _⟩ := mem_envSettings.1 hentry
  exact (henv.eq_variableFor hnamed hkey).1

theorem lookup_merged (hfile : file.Keyed) (hkeys : ∀ entry ∈ file, entry.1 ∈ serverKeys)
    (henv : SetsScalars env) (key : String)
    : (merged file env).lookup key
        =
      match (envSettings env).lookup key, file.lookup key with
      | some v, some w => some (v.atop (some (w.atop (builtIn.lookup key))))
      | some v, none => some (v.atop (builtIn.lookup key))
      | none, some w => some (w.atop (builtIn.lookup key))
      | none, none => builtIn.lookup key := by
  unfold merged
  rw [Settings.lookup_collect _ (nodup_envSettings henv), Settings.lookup_collect _ hfile.nodup]
  . cases (envSettings env).lookup key <;> cases file.lookup key <;> rfl
  . intro entry hentry
    exact .inl (isPlain_of_mem _ (hkeys entry hentry))
  . intro entry hentry
    left
    exact isPlain_of_mem _ (mem_serverKeys (mem_scalarKeys_of_mem_envSettings henv entry hentry))

theorem convertsAs_layered (hfile : file.Keyed) (hkeys : ∀ entry ∈ file, entry.1 ∈ serverKeys)
    (henv : SetsScalars env) (hkey : key ∈ scalarKeys)
    : (((merged file env).lookup key).getD .nothing).ConvertsAs (layered file env key) := by
  obtain ⟨default, hdefault⟩ := Option.isSome_iff_exists.1 (lookup_builtIn_isSome key hkey)
  rw [lookup_merged hfile hkeys henv, lookup_envSettings henv hkey, hdefault]
  unfold layered
  rw [hdefault]
  cases env.lookup (variableFor key) with
  | some value => cases file.lookup key <;> exact .refl _
  | none =>
    cases file.lookup key with
    | none => exact .refl _
    | some v =>
      rw [Option.map_none, Option.filter_some]
      cases hblank : v.isBlank with
      | true =>
        dsimp only [Bool.not_true]
        rw [Setting.atop_of_isBlank hblank]
        exact .refl _
      | false =>
        apply Setting.convertsAs_atop
        simp [hblank]

theorem lookup_users_merged (hfile : file.Keyed) (hkeys : ∀ entry ∈ file, entry.1 ∈ serverKeys)
    (henv : SetsScalars env)
    : (merged file env).lookup "users" = (file.lookup "users").map (·.atop none) := by
  have hnone : (envSettings env).lookup "users" = none := by
    rw [List.lookup_eq_none_iff]
    intro entry hentry
    rw [bne_iff_ne]
    intro heq
    have hmem := mem_scalarKeys_of_mem_envSettings henv entry hentry
    rw [← heq] at hmem
    exact users_not_mem_scalarKeys hmem
  rw [lookup_merged hfile hkeys henv, hnone, lookup_users_builtIn]
  cases file.lookup "users" <;> rfl

end

end FtpControl.Config
