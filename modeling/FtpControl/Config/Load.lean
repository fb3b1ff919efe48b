import FtpControl.Config.Server
import FtpControl.FileTree
import FtpControl.Toml.Document

/-!
This module contains the loading of a server's configuration. Built-in values come first, then a
file that need not be there, then the environment; what comes later is laid over what came before.
-/

namespace FtpControl

namespace Config

def Setting.ofToml (source : Source) : Toml.Value → Setting
  | .string s => .scalar (some source) (.string s)
  | .integer n => .scalar (some source) (.integer n)
  | .float x => .scalar (some source) (.float x)
  | .boolean b => .scalar (some source) (.boolean b)
  | .datetime s => .scalar (some source) (.string s)
  | .array _ items => .array (some source) (items.map (ofToml source))
  | .table _ entries =>
    .table (some source) (entries.map fun entry => (entry.1, ofToml source entry.2))
decreasing_by
  . have := List.sizeOf_lt_of_mem ‹_ ∈ items›
    simp only [Toml.Value.array.sizeOf_spec]
    omega
  . have := List.sizeOf_lt_of_mem ‹_ ∈ entries›
    have : sizeOf entry.2 < sizeOf entry := by
      cases entry
      simp only [Prod.mk.sizeOf_spec]
      omega
    simp only [Toml.Value.table.sizeOf_spec]
    omega

def displayPath (path : String) : String :=
  "/".intercalate ((FileTree.components path).filter fun name => name != "" && name != ".")

def extension : String := ".toml"

def hasExtension (path : String) : Bool :=
  match ((FileTree.components path).filter fun name => name != "" && name != ".").getLast? with
  | some name => name.length > extension.length && extension.toList.isSuffixOf name.toList
  | none => false

def withExtension? (path : String) : Option String :=
  let named := (FileTree.components path).reverse.dropWhile fun name => name == "" || name == "."
  match named with
  | [] => none
  | name :: before =>
    if name = ".." then none else some ("/".intercalate ((name ++ extension) :: before).reverse)

/--
The configuration file that a path means: the file itself if it has the right ending, and otherwise,
if there is no such file, the one with the ending added.
-/
def locate? (tree : FileTree) (path : String) : Option String :=
  match tree.read? path with
  | some _ => if hasExtension path then some path else none
  | none => do
    let path ← withExtension? path
    guard (tree.read? path).isSome
    return path

def fileSettings (tree : FileTree) (path : String) : Except Error Settings :=
  let content := do
    let path ← locate? tree path
    return (path, ← Text.Utf8.decode? (← tree.read? path))
  match content with
  | none => .ok []
  | some (path, text) =>
    match Toml.Document.parse? text with
    | none => .error .fileParse
    | some t => .ok (t.map fun (key, v) => (key, .ofToml (.file (displayPath path)) v))

-- A name in lower case. Of the letters outside ASCII only the Kelvin sign has its lower case
-- inside, and no other matters to a name.
def lowerCase (name : List Char) : List Char :=
  name.map fun c => if c = '\u212A' then 'k' else c.toLower

def envPrefix : List Char := "rax_ftp__".toList

def dotted : List Char → List Char
  | '_' :: '_' :: cs => '.' :: dotted cs
  | c :: cs => c :: dotted cs
  | [] => []

def envKey? (name : String) : Option String :=
  let cs := lowerCase name.toList
  if envPrefix.isPrefixOf cs then
    some (String.ofList (dotted (cs.drop envPrefix.length)))
  else none

def envSettings (env : List (String × String)) : Settings :=
  env.filterMap fun (name, value) =>
    (envKey? name).map (·, .scalar (some .environment) (.string value))

def builtIn : Settings :=
  let c : ServerConfig := {}
  let text (s : String) : Setting := .scalar none (.string s)
  let number (n : Nat) : Setting := .scalar none (.integer n)
  [("bind_address", text c.bindAddress), ("control_port", number c.controlPort.toNat),
    ("welcome_message", text c.welcomeMessage), ("max_clients", number c.maxClients.toNat),
    ("max_command_length", number c.maxCommandLength.toNat),
    ("auth_timeout_secs", number c.authTimeoutSecs.toNat), ("log_target", text c.logTarget)]

end Config

namespace ServerConfig

-- Convert settings. A port keeps its low 16 bits.
def ofSettings (t : Config.Settings) : Except Config.Error ServerConfig := do
  return { bindAddress := ← t.get "bind_address" Config.Setting.toText,
           controlPort := (← t.get "control_port" Config.Setting.toNat).toUInt16,
           welcomeMessage := ← t.get "welcome_message" Config.Setting.toText,
           maxClients := (← t.get "max_clients" Config.Setting.toNat).toUInt64,
           maxCommandLength := (← t.get "max_command_length" Config.Setting.toNat).toUInt64,
           authTimeoutSecs := (← t.get "auth_timeout_secs" Config.Setting.toNat).toUInt64,
           logTarget := ← t.get "log_target" Config.Setting.toText,
           users := ← t.accounts }

def defaultPath : String := "config"

def load (tree : FileTree) (env : List (String × String)) (path : String := defaultPath) :
    Except Config.Error ServerConfig := do
  let fromFile ← Config.fileSettings tree path
  let fromEnv := Config.envSettings env
  unless (fromFile ++ fromEnv).all (fun entry => (Config.Path.ofKey entry.1).hasRoom) do
    throw .noRoom
  let config ← ofSettings ((Config.builtIn.collect fromFile).collect fromEnv)
  config.validate
  return config

end ServerConfig

end FtpControl
