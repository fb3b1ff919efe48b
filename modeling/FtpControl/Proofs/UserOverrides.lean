import FtpControl.Proofs.AccountTable
import FtpControl.Proofs.Loading
import FtpControl.Proofs.Placement

/-!
This module contains the theory of accounts whose passwords the environment overrides. A variable
sets the password of the name in lower case, and every other name keeps the password that the file
has for it. So a variable never reaches an account with a capital letter in its name.
-/

namespace FtpControl

namespace Config

def userVariable (user : String) : String :=
  "RAX_FTP__USERS__" ++ user

theorem eq_of_userVariable_eq {user other : String} (h : userVariable user = userVariable other)
    : user = other := by
  unfold userVariable at h
  rw [← String.toList_inj] at *
  simpa using h

structure IsUserName (user : String) : Prop where
  ne_empty : user.toList ≠ []
  isAlphanum : ∀ c ∈ user.toList, c.isAlphanum = true

structure AssignsPassword (env : List (String × String)) (user password : String) : Prop where
  isUserName : IsUserName user
  mem : (userVariable user, password) ∈ env

-- An environment, with each name once, that has passwords for users whose names differ in more
-- than case. Nothing else in it leads to the table of users.
structure AssignsPasswords (env : List (String × String)) : Prop where
  nodup : (env.map Prod.fst).Nodup
  settles : ∀ entry ∈ env,
    (∃ user, AssignsPassword env user entry.2 ∧ entry.1 = userVariable user)
      ∨
    ∀ key, envKey? entry.1 = some key → (Path.ofKey key).key ≠ "users"
  apart : ∀ {user password other password'}, AssignsPassword env user password
    → AssignsPassword env other password' → user.toLower = other.toLower → user = other

theorem toList_toLower (s : String) : s.toLower.toList = s.toList.map Char.toLower := by
  rw [String.toLower, String.toList_map]

theorem toLower_toLower (s : String) : s.toLower.toLower = s.toLower := by
  rw [← String.toList_inj, toList_toLower, toList_toLower, List.map_map]
  apply List.map_congr_left
  intro c _
  apply Char.toLower_toLower_eq_toLower

theorem isAlphanum_toLower {c : Char} (h : c.isAlphanum = true) : c.toLower.isAlphanum = true := by
  rw [Char.isAlphanum, Bool.or_eq_true] at *
  obtain halpha | hdigit := h
  . left
    rw [Char.isAlpha_toLower_eq_isAlpha]
    exact halpha
  . right
    rw [Char.toLower_eq_of_not_isUpper]
    . exact hdigit
    . simp [Char.isUpper, Char.isDigit, UInt32.le_iff_toNat_le] at *
      omega

theorem IsUserName.toLower {user : String} (h : IsUserName user) : IsUserName user.toLower := by
  constructor
  . rw [toList_toLower, ne_eq, List.map_eq_nil_iff]
    exact h.ne_empty
  . rw [toList_toLower, List.forall_mem_map]
    exact fun c hc => isAlphanum_toLower (h.isAlphanum c hc)

theorem lowerCase_of_isAlphanum {cs : List Char} (h : ∀ c ∈ cs, c.isAlphanum = true)
    : lowerCase cs = cs.map Char.toLower := by
  unfold lowerCase
  apply List.map_congr_left
  intro c hc
  rw [if_neg]
  rintro rfl
  have hletter := h _ hc
  contradiction

theorem dotted_of_not_mem {cs : List Char} (h : '_' ∉ cs) : dotted cs = cs := by
  fun_induction dotted cs with
  | case1 => simp at h
  | case2 c cs _ ih => rw [ih fun hcs => h (List.mem_cons_of_mem _ hcs)]
  | case3 => rfl

theorem envKey?_userVariable {user : String} (h : IsUserName user)
    : envKey? (userVariable user) = some ("users." ++ user.toLower) := by
  have hlower : lowerCase (userVariable user).toList
      = envPrefix ++ ("users__".toList ++ user.toLower.toList) := by
    have hfixed : lowerCase "RAX_FTP__USERS__".toList = envPrefix ++ "users__".toList := by
      decide
    unfold userVariable
    rw [String.toList_append, toList_toLower, ← lowerCase_of_isAlphanum h.isAlphanum,
      ← List.append_assoc]
    exact List.map_append.trans (congrArg (· ++ lowerCase user.toList) hfixed)
  have hdotted : dotted ("users__".toList ++ user.toLower.toList)
      = "users.".toList ++ user.toLower.toList := by
    have hnone : '_' ∉ user.toLower.toList := by
      intro hmem
      have hletter := h.toLower.isAlphanum _ hmem
      contradiction
    change _ :: _ :: _ :: _ :: _ :: '.' :: dotted user.toLower.toList = _
    rw [dotted_of_not_mem hnone]
    rfl
  unfold envKey?
  dsimp only
  rw [hlower, if_pos, List.drop_left, hdotted, ← String.toList_append, String.ofList_toList]
  rw [List.isPrefixOf_iff_prefix]
  apply List.prefix_append

def userPath (user : String) : Path :=
  ⟨"users", [.child user]⟩

theorem eq_of_userPath_eq {user other : String} (h : userPath user = userPath other)
    : user = other := by
  cases h
  rfl

theorem ofKey_userName {user : String} (h : IsUserName user)
    : Path.ofKey ("users." ++ user) = userPath user := by
  have hname : ∀ c ∈ user.toList, Path.isName c = true := by
    intro c hc
    simp [Path.isName, h.isAlphanum c hc]
  have htake : user.toList.takeWhile Path.isName = user.toList := by
    rw [List.takeWhile_eq_self_iff]
    exact hname
  have hdrop : user.toList.dropWhile Path.isName = [] := by
    rw [List.dropWhile_eq_nil_iff]
    exact hname
  have hstep : Path.step? ('.' :: user.toList) = some (.child user, []) := by
    rw [Path.step?, htake, hdrop]
    split
    . next hnil => exact absurd hnil h.ne_empty
    . rw [String.ofList_toList]
  have hsteps : ∀ n, Path.steps? (n + 1) ('.' :: user.toList) = some [.child user] := by
    intro n
    simp [Path.steps?, hstep]
  have hparse : Path.parse? ("users." ++ user) = some (userPath user) := by
    unfold Path.parse?
    rw [String.toList_append]
    exact congrArg (Option.map _) (hsteps _)
  unfold Path.ofKey
  rw [hparse]
  rfl

theorem Setting.toOption_toText_atop_none (v : Setting)
    : (v.atop none).toText.toOption = v.toText.toOption := by
  have h := (convertsAs_atop (v := v) fun _ => rfl).toText_iff
  ext s
  have hok : ∀ x : Except Mismatch String, x.toOption = some s ↔ x = .ok s := by
    intro x
    cases x <;> simp [Except.toOption]
  rw [hok, hok, h]

namespace Settings

def user? (t : Settings) (user : String) : Option Setting :=
  ((t.lookup "users").getD .nothing).asTable.2.lookup user

def password? (t : Settings) (user : String) : Option String :=
  (t.user? user).bind fun v => v.toText.toOption

variable {t : Settings} {user : String}

theorem user?_set_of_ne {path : Path} (hpath : path.key ≠ "users") (v : Setting)
    : (t.set path v).user? user = t.user? user := by
  unfold user?
  rw [lookup_set, if_neg hpath.symm]

theorem user?_set_userPath {v : Setting} (hv : v.isNode = false) (other : String)
    : (t.set (userPath other) v).user? user
        =
      if user = other then some v else t.user? user := by
  unfold user?
  rw [lookup_set, userPath, if_pos rfl]
  dsimp only [Setting.put, Setting.place, Option.getD_some, Setting.asTable]
  rw [Setting.layOver_eq_insert, lookup_insert, Setting.atop_of_not_isNode hv]

theorem user?_collect {entries : List (String × Setting)}
    (hv : ∀ entry ∈ entries, entry.2.isNode = false)
    (hleads : ∀ entry ∈ entries,
      (Path.ofKey entry.1).key ≠ "users" ∨ ∃ other, Path.ofKey entry.1 = userPath other)
    : (t.collect entries).user? user
        =
      ((entries.reverse.find? fun entry => Path.ofKey entry.1 = userPath user).map Prod.snd).or
        (t.user? user) := by
  induction entries generalizing t with
  | nil => rfl
  | cons entry entries ih =>
    rw [List.forall_mem_cons] at hv hleads
    rw [collect_cons, ih hv.2 hleads.2, List.reverse_cons, List.find?_append, Option.map_or,
      Option.or_assoc]
    -- what stands behind the first entry counts before it does, so only its own step is left
    congr 1
    obtain hkey | ⟨other, hkey⟩ := hleads.1
    . have hne : Path.ofKey entry.1 ≠ userPath user := by
        intro heq
        exact hkey (congrArg Path.key heq)
      rw [user?_set_of_ne hkey]
      simp [hne]
    . rw [hkey, user?_set_userPath hv.1]
      by_cases huser : user = other
      . simp [hkey, huser]
      . have hne : userPath other ≠ userPath user := by
          intro heq
          exact huser (eq_of_userPath_eq heq).symm
        simp [hkey, huser, hne]

theorem lookup_of_mapM_toText {entries : Settings} {users : List (String × String)}
    (h : (entries.mapM fun (user, v) => do
      return (user, ← v.toText.mapError (Error.type (userKey user)))) = .ok users)
    : users.map Prod.fst = entries.map Prod.fst
        ∧
      ∀ user, users.lookup user = (entries.lookup user).bind fun v => v.toText.toOption := by
  induction entries generalizing users with
  | nil =>
    cases h
    simp
  | cons entry entries ih =>
    obtain ⟨first, v⟩ := entry
    rw [List.mapM_cons] at h
    simp only [bind_eq_ok_iff, mapError_eq_ok_iff] at h
    obtain ⟨_, ⟨text, htext, h⟩, rest, hrest, h'⟩ := h
    cases h
    cases h'
    obtain ⟨hkeys, hlookup⟩ := ih hrest
    refine ⟨by simp [hkeys], ?_⟩
    intro user
    rw [List.lookup_cons, List.lookup_cons, hlookup]
    by_cases huser : user = first
    . simp [huser, htext, Except.toOption]
    . simp [beq_eq_false_iff_ne.2 huser]

theorem getElem?_accounts {users : Accounts} (h : t.accounts = .ok users)
    (hdistinct : ((t.lookup "users").getD .nothing).Distinct) (user : String)
    : users.passwords[user]? = t.password? user := by
  unfold accounts at h
  unfold password? user?
  split at h
  . next hnone =>
    cases h
    rw [hnone]
    simp [Setting.asTable]
  . next source entries htable =>
    simp only [bind_eq_ok_iff] at h
    obtain ⟨list, hlist, h⟩ := h
    cases h
    obtain ⟨hkeys, hlookup⟩ := lookup_of_mapM_toText hlist
    rw [htable, Option.getD_some, Setting.Distinct, Setting.asTable, ← hkeys] at hdistinct
    rw [Accounts.getElem?_ofList hdistinct, hlookup, htable]
    rfl
  . contradiction

section

variable {file : Settings} (hfile : file.Keyed)
  (honly : ∀ entry ∈ file, entry.1 ≠ "users" → (Path.ofKey entry.1).key ≠ "users")

include hfile honly

theorem lookup_users_collect_builtIn
    : (builtIn.collect file).lookup "users" = (file.lookup "users").map (·.atop none) := by
  rw [lookup_collect _ hfile.nodup, lookup_users_builtIn]
  . cases file.lookup "users" <;> rfl
  . intro entry hentry
    by_cases hkey : entry.1 = "users"
    . left
      rw [hkey]
      exact isPlain_of_mem _ (by decide)
    . exact .inr ⟨hkey, honly entry hentry hkey⟩

theorem password?_collect_builtIn (user : String)
    : (builtIn.collect file).password? user = file.password? user := by
  unfold password? user?
  rw [lookup_users_collect_builtIn hfile honly]
  cases htable : file.lookup "users" with
  | none => rfl
  | some v =>
    cases v with
    | nothing | scalar | array => rfl
    | table source entries =>
      rw [Option.map_some, Setting.atop_none_of_nodup (hfile.nodup_of_lookup htable)]
      dsimp only [Option.getD_some, Setting.asTable]
      rw [lookup_mapValues (Setting.atop · none), Option.bind_map]
      congr 1
      funext v
      exact Setting.toOption_toText_atop_none v

end

end Settings

namespace AssignsPasswords

variable {env : List (String × String)} {user password : String}

theorem eq_userPath (henv : AssignsPasswords env) {entry : String × Setting}
    (hentry : entry ∈ envSettings env)
    : (Path.ofKey entry.1).key ≠ "users"
        ∨
      ∃ user password, AssignsPassword env user password
        ∧
      Path.ofKey entry.1 = userPath user.toLower ∧ entry.2 = ofVariable password := by
  obtain ⟨named, hnamed, hkey, hvalue⟩ := mem_envSettings.1 hentry
  obtain ⟨user, hassigns, hname⟩ | hother := henv.settles named hnamed
  . right
    rw [hname, envKey?_userVariable hassigns.isUserName] at hkey
    rw [← Option.some.inj hkey]
    exact ⟨user, named.2, hassigns, ofKey_userName hassigns.isUserName.toLower, hvalue⟩
  . exact .inl (hother _ hkey)

theorem user?_merged (henv : AssignsPasswords env) (file : Settings) (name : String)
    : (merged file env).user? name
        =
      (((envSettings env).reverse.find? fun entry => Path.ofKey entry.1 = userPath name).map
        Prod.snd).or ((builtIn.collect file).user? name) := by
  apply Settings.user?_collect
  . intro entry hentry
    obtain ⟨named, _, _, hvalue⟩ := mem_envSettings.1 hentry
    rw [hvalue]
    rfl
  . intro entry hentry
    obtain hkey | ⟨user, _, _, hkey, _⟩ := henv.eq_userPath hentry
    . exact .inl hkey
    . exact .inr ⟨_, hkey⟩

theorem user?_merged_of_assigns (henv : AssignsPasswords env)
    (h : AssignsPassword env user password) (file : Settings)
    : (merged file env).user? user.toLower = some (ofVariable password) := by
  rw [henv.user?_merged]
  cases hfind : (envSettings env).reverse.find? fun entry =>
    Path.ofKey entry.1 = userPath user.toLower with
  | none =>
    have hmem : ("users." ++ user.toLower, ofVariable password) ∈ envSettings env :=
      mem_envSettings.2 ⟨_, h.mem, envKey?_userVariable h.isUserName, rfl⟩
    have hne := List.find?_eq_none.1 hfind _ (List.mem_reverse.2 hmem)
    rw [decide_eq_true_eq] at hne
    exact absurd (ofKey_userName h.isUserName.toLower) hne
  | some entry =>
    have hentry := List.mem_reverse.1 (List.mem_of_find?_eq_some hfind)
    have hpath := List.find?_some hfind
    rw [decide_eq_true_eq] at hpath
    obtain hkey | ⟨other, password', hother, hpath', hvalue⟩ := henv.eq_userPath hentry
    . rw [hpath] at hkey
      contradiction
    . -- whichever variable comes last for this name, it is the one that was given
      have huser : user = other := by
        apply henv.apart h hother
        exact eq_of_userPath_eq (hpath.symm.trans hpath')
      subst huser
      have hpassword : password' = password :=
        congrArg Prod.snd (List.inj_on_of_nodup_map henv.nodup hother.mem h.mem rfl)
      rw [Option.map_some, Option.some_or, hvalue, hpassword]

theorem user?_merged_of_not_assigns (henv : AssignsPasswords env) {name : String}
    (h : ∀ user password, AssignsPassword env user password → user.toLower ≠ name)
    (file : Settings)
    : (merged file env).user? name = (builtIn.collect file).user? name := by
  rw [henv.user?_merged]
  have hfind : ((envSettings env).reverse.find? fun entry => Path.ofKey entry.1 = userPath name)
      = none := by
    rw [List.find?_eq_none]
    intro entry hentry hpath
    rw [decide_eq_true_eq] at hpath
    rw [List.mem_reverse] at hentry
    obtain hkey | ⟨user, password, hassigns, hpath', _⟩ := henv.eq_userPath hentry
    . rw [hpath] at hkey
      contradiction
    . exact h user password hassigns (eq_of_userPath_eq (hpath'.symm.trans hpath))
  rw [hfind, Option.map_none, Option.none_or]

end AssignsPasswords

section

/-! An environment in which one variable counts. -/

variable {user password : String} {rest : List (String × String)}
  (hrest : ∀ entry ∈ rest, envKey? entry.1 = none)

include hrest

theorem envSettings_cons_userVariable (huser : IsUserName user)
    : envSettings ((userVariable user, password) :: rest)
        =
      [("users." ++ user.toLower, ofVariable password)] := by
  have hnil : envSettings rest = [] := by
    rw [List.eq_nil_iff_forall_not_mem]
    intro entry hentry
    obtain ⟨named, hnamed, hkey, _⟩ := mem_envSettings.1 hentry
    rw [hrest named hnamed] at hkey
    contradiction
  rw [envSettings_cons_of_some (envKey?_userVariable huser), hnil]

theorem AssignsPassword.eq_of_cons {other password' : String}
    (h : AssignsPassword ((userVariable user, password) :: rest) other password')
    : other = user := by
  obtain heq | hmem := List.mem_cons.1 h.mem
  . exact eq_of_userVariable_eq (congrArg Prod.fst heq)
  . have hnone := hrest _ hmem
    rw [envKey?_userVariable h.isUserName] at hnone
    contradiction

theorem assignsPasswords_cons_userVariable (huser : IsUserName user)
    (hnodup : (rest.map Prod.fst).Nodup)
    : AssignsPasswords ((userVariable user, password) :: rest) := by
  constructor
  . rw [List.map_cons, List.nodup_cons]
    refine ⟨?_, hnodup⟩
    intro hmem
    obtain ⟨entry, hentry, heq⟩ := List.mem_map.1 hmem
    have hnone := hrest entry hentry
    rw [heq, envKey?_userVariable huser] at hnone
    contradiction
  . intro entry hentry
    obtain rfl | hmem := List.mem_cons.1 hentry
    . exact .inl ⟨user, ⟨huser, List.mem_cons_self⟩, rfl⟩
    . right
      intro key hkey
      rw [hrest entry hmem] at hkey
      contradiction
  . intro other _ other' _ hassigns hassigns' _
    rw [hassigns.eq_of_cons hrest, hassigns'.eq_of_cons hrest]

theorem lookup_users_merged_cons_userVariable (huser : IsUserName user) {file : Settings}
    (hfile : file.Keyed)
    (honly : ∀ entry ∈ file, entry.1 ≠ "users" → (Path.ofKey entry.1).key ≠ "users")
    {source : Option Source} {entries : Settings}
    (htable : file.lookup "users" = some (.table source entries))
    : (merged file ((userVariable user, password) :: rest)).lookup "users"
        =
      some (.table none
        (Settings.insert (entries.map fun entry => (entry.1, entry.2.atop none)) user.toLower
          (ofVariable password))) := by
  have hnodup := hfile.nodup_of_lookup htable
  rw [merged, envSettings_cons_userVariable hrest huser, Settings.collect_cons,
    ofKey_userName huser.toLower]
  change ((builtIn.collect file).set (userPath user.toLower) (ofVariable password)).lookup "users"
    = _
  rw [Settings.lookup_set, userPath, if_pos rfl, Settings.lookup_users_collect_builtIn hfile honly,
    htable, Option.map_some, Setting.atop_none_of_nodup hnodup]
  dsimp only [Setting.put, Setting.place, Option.getD_some, Setting.asTable]
  rw [Setting.layOver_eq_insert]
  rfl

end

end Config

namespace ServerConfig

variable {tree : FileTree} {env : List (String × String)} {path : String} {file : Config.Settings}
  {c : ServerConfig}

theorem getElem?_users_of_load (hfile : Config.fileSettings tree path = .ok file)
    (hload : load tree env path = .ok c) (user : String)
    : c.users.passwords[user]? = (Config.merged file env).password? user := by
  obtain ⟨file', hfile', _, hsettings, _⟩ := load_eq_ok_iff_exists.1 hload
  obtain rfl : file' = file := by
    rw [hfile'] at hfile
    exact Except.ok.inj hfile
  apply Config.Settings.getElem?_accounts (ofSettings_eq_ok_iff.1 hsettings).2
  apply Config.Settings.distinct_collect
  apply Config.Settings.distinct_collect
  exact List.nodup_nil

/--
A variable gives its password to the user whose name is in lower case and leaves no other password
to it. All other names have the passwords that the file gives them, or none. Names with a capital
letter are always among them, so that a variable for such a name does not disable its old password.
-/
theorem load_overrides_passwords (hfile : Config.fileSettings tree path = .ok file)
    (henv : Config.AssignsPasswords env) (hload : load tree env path = .ok c)
    : (∀ user password, Config.AssignsPassword env user password
        →
        c.users.passwords[user.toLower]? = some password
          ∧
        ∀ attempt, c.users.admits user.toLower attempt = true → attempt = password)
        ∧
      (∀ name, (∀ user password, Config.AssignsPassword env user password → user.toLower ≠ name)
        → c.users.passwords[name]? = (Config.builtIn.collect file).password? name)
        ∧
      (∀ name, name.toLower ≠ name
        → c.users.passwords[name]? = (Config.builtIn.collect file).password? name)
        ∧
      ((∀ entry ∈ file, entry.1 ≠ "users" → (Config.Path.ofKey entry.1).key ≠ "users")
        → ∀ name, (Config.builtIn.collect file).password? name = file.password? name) := by
  have hothers : ∀ name,
      (∀ user password, Config.AssignsPassword env user password → user.toLower ≠ name)
        → c.users.passwords[name]? = (Config.builtIn.collect file).password? name := by
    intro name hname
    rw [getElem?_users_of_load hfile hload, Config.Settings.password?,
      henv.user?_merged_of_not_assigns hname]
    rfl
  refine ⟨?_, hothers, ?_, ?_⟩
  . intro user password hassigns
    have hpassword : c.users.passwords[user.toLower]? = some password := by
      rw [getElem?_users_of_load hfile hload, Config.Settings.password?,
        henv.user?_merged_of_assigns hassigns]
      rfl
    refine ⟨hpassword, ?_⟩
    intro attempt hadmits
    have hattempt := ((Accounts.admits_iff _ _ _).1 hadmits).1
    rw [hpassword] at hattempt
    exact (Option.some.inj hattempt).symm
  . intro name hcapital
    apply hothers
    rintro user _ _ rfl
    exact hcapital (Config.toLower_toLower user)
  . intro honly name
    exact Config.Settings.password?_collect_builtIn (Config.keyed_of_fileSettings hfile) honly name

theorem load_eq_ok_of_users (hfile : Config.fileSettings tree path = .ok file)
    (hkeys : ∀ entry ∈ file ++ Config.envSettings env,
      (Config.Path.ofKey entry.1).key = "users" ∧ (Config.Path.ofKey entry.1).hasRoom = true)
    {users : Accounts} (husers : (Config.merged file env).accounts = .ok users)
    : load tree env path = .ok { users } := by
  have hbuiltIn : ({ users } : ServerConfig).Reads
      fun key => (Config.builtIn.lookup key).getD .nothing :=
    ⟨rfl, ⟨_, rfl, rfl⟩, rfl, ⟨_, rfl, rfl⟩, ⟨_, rfl, rfl⟩, ⟨_, rfl, rfl⟩, rfl⟩
  rw [load_eq_ok_iff_exists]
  refine ⟨file, hfile, fun entry hentry => (hkeys entry hentry).2, ?_, ?_⟩
  . refine ofSettings_eq_ok_iff.2 ⟨hbuiltIn.of_convertsAs ?_, husers⟩
    intro key hkey
    have hne : ∀ entry ∈ file ++ Config.envSettings env, (Config.Path.ofKey entry.1).key ≠ key := by
      rintro entry hentry rfl
      rw [(hkeys entry hentry).1] at hkey
      exact Config.users_not_mem_scalarKeys hkey
    rw [List.forall_mem_append] at hne
    rw [Config.merged, Config.Settings.lookup_collect_of_ne hne.2,
      Config.Settings.lookup_collect_of_ne hne.1]
    exact .refl _
  . have hvalid : ({} : ServerConfig).Valid := by
      constructor <;> decide +kernel
    exact hvalid.with_users users

open Config Toml

theorem fileSettings_of_users
    : let tree : FileTree :=
        { files := [(["config.toml"],
            Text.Utf8.encodeString "users = \x7bAlice = \"old\", bob = \"old\"\x7d\n")] }
      let source := some (Source.file "config.toml")
      fileSettings tree "config.toml"
        =
      .ok [("users", .table source
        [("Alice", .scalar source (.string "old")), ("bob", .scalar source (.string "old"))])] := by
  intro tree source
  let users : Value := .table .inline [("Alice", .string "old"), ("bob", .string "old")]
  have hparse : Document.parse? "users = \x7bAlice = \"old\", bob = \"old\"\x7d\n"
      = some [("users", users)] := by
    rw [Document.parse?_of_no_header
      [.bare "users", .blank " ", .equals, .blank " ", .openBrace, .bare "Alice", .blank " ",
        .equals, .blank " ", .quoted "old" false, .comma, .blank " ", .bare "bob", .blank " ",
        .equals, .blank " ", .quoted "old" false, .closeBrace, .newline]
      [.entry ["users"] users] [("users", users)]]
    . simp [users, Table.meaning?, Value.meaning?, Table.isDate, dateKey, Table.union?,
        Table.add?, List.lookup_cons]
    . decide
    . cbv
    . cbv
    . cbv
    . cbv
  refine (fileSettings_of_text hparse).trans ?_
  simp [Setting.ofToml, users, source]

theorem load_overrides_passwords_of_variable
    : let tree : FileTree :=
        { files := [(["config.toml"],
            Text.Utf8.encodeString "users = \x7bAlice = \"old\", bob = \"old\"\x7d\n")] }
      let source := some (Source.file "config.toml")
      let file : Settings :=
        [("users", .table source
          [("Alice", .scalar source (.string "old")), ("bob", .scalar source (.string "old"))])]
      let env := [("RAX_FTP__USERS__bob", "new"), ("HOME", "/root")]
      let c : ServerConfig := { users := .ofList [("Alice", "old"), ("bob", "new")] }
      fileSettings tree "config.toml" = .ok file
        ∧
      AssignsPasswords env
        ∧
      AssignsPassword env "bob" "new"
        ∧
      load tree env "config.toml" = .ok c
        ∧
      c.users.passwords["bob"]? = some "new"
        ∧
      c.users.passwords["Alice"]? = some "old"
        ∧
      c.users.passwords["eve"]? = none := by
  intro tree source file env c
  have hbob : IsUserName "bob" := ⟨by decide, List.all_eq_true.1 (by decide)⟩
  have hrest : ∀ entry ∈ [("HOME", "/root")], envKey? entry.1 = none := by
    decide
  have hname : env = (userVariable "bob", "new") :: [("HOME", "/root")] := by
    decide +kernel
  have hlower : "bob".toLower = "bob" ∧ "Alice".toLower ≠ "Alice" := by
    rw [ne_eq, ← String.toList_inj, ← String.toList_inj, toList_toLower, toList_toLower]
    decide
  have honly : ∀ entry ∈ file, entry.1 ≠ "users" → (Path.ofKey entry.1).key ≠ "users" := by
    simp [file]
  rw [hname]
  have henv : AssignsPasswords ((userVariable "bob", "new") :: [("HOME", "/root")]) :=
    assignsPasswords_cons_userVariable hrest hbob (by decide)
  have hassigns :
      AssignsPassword ((userVariable "bob", "new") :: [("HOME", "/root")]) "bob" "new" :=
    ⟨hbob, List.mem_cons_self⟩
  have hload : load tree ((userVariable "bob", "new") :: [("HOME", "/root")]) "config.toml"
      = .ok c := by
    apply load_eq_ok_of_users fileSettings_of_users
    . decide +kernel
    . unfold Settings.accounts
      rw [lookup_users_merged_cons_userVariable hrest hbob
        (keyed_of_fileSettings fileSettings_of_users) honly rfl, hlower.1]
      rfl
  obtain ⟨hset, hothers, hcapital, hfile⟩ :=
    load_overrides_passwords fileSettings_of_users henv hload
  refine ⟨fileSettings_of_users, henv, hassigns, hload, ?_, ?_, ?_⟩
  . rw [← hlower.1]
    exact (hset "bob" "new" hassigns).1
  . rw [hcapital "Alice" hlower.2, hfile honly]
    rfl
  . rw [hothers "eve", hfile honly]
    . rfl
    . intro user password hassigns
      rw [hassigns.eq_of_cons hrest, hlower.1]
      decide

theorem load_of_capital_user
    : let tree : FileTree :=
        { files := [(["config.toml"],
            Text.Utf8.encodeString "users = \x7bAlice = \"old\", bob = \"old\"\x7d\n")] }
      let env := [("RAX_FTP__USERS__Alice", "new")]
      let c : ServerConfig :=
        { users := .ofList [("Alice", "old"), ("bob", "old"), ("alice", "new")] }
      AssignsPasswords env
        ∧
      AssignsPassword env "Alice" "new"
        ∧
      load tree env "config.toml" = .ok c
        ∧
      c.users.passwords["Alice"]? ≠ some "new"
        ∧
      c.users.admits "Alice" "old" = true
        ∧
      c.users.passwords["alice"]? = some "new" := by
  intro tree env c
  have halice : IsUserName "Alice" := ⟨by decide, List.all_eq_true.1 (by decide)⟩
  have hname : env = [(userVariable "Alice", "new")] := by
    decide +kernel
  have hlower : "Alice".toLower = "alice" := by
    rw [← String.toList_inj, toList_toLower]
    decide
  rw [hname]
  refine ⟨?_, ⟨halice, List.mem_cons_self⟩, ?_, ?_⟩
  . exact assignsPasswords_cons_userVariable (by simp) halice (by simp)
  . apply load_eq_ok_of_users fileSettings_of_users
    . decide +kernel
    . unfold Settings.accounts
      rw [lookup_users_merged_cons_userVariable (by simp) halice
        (keyed_of_fileSettings fileSettings_of_users) (by simp) rfl, hlower]
      rfl
  . decide +kernel

end ServerConfig

end FtpControl
