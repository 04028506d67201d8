import Rulebook.Config.Basic
import Rulebook.Config.Toml
import Rulebook.Text.Blank
import Rulebook.Text.Upper

/-!
# Layers of configuration

A configuration is made of layers, each laid over those before it: the names that the service is
started with, the file `default.toml`, the file of the environment, the file of the service, and
the environment variables that start with `RULES_`. What no layer says keeps its default. Last, a
variable of the service's own may say the port.

A file that is not there may be stood in for by one of another format. A loader knows some formats,
and which of them it tries first is up to it.
-/

namespace Rulebook.Config

/-- Why a configuration cannot be made. -/
inductive LoadError where
  /-- a file is not written as it must be -/
  | file
  /-- a value is not of the kind that its setting needs -/
  | value
deriving DecidableEq

/-! ## Environment variables -/

/-- The value of a variable: a truth value, an integer, a number or a text, whichever it first
reads as. -/
def variableValue (text : String) : Setting :=
  let word := Setting.lower text
  if word = "true" then .bool true
  else if word = "false" then .bool false
  else match Setting.integer? text with
    | some n => .int n
    | none =>
      match Binary64.read? text with
      | some x => .real x
      | none => .text text

/-- What variables for settings start with, in lower case. -/
def variableHead : List Char := "rules_".toList

/-- Puts a dot in the place of each pair of underscores. -/
def dotted : List Char → List Char
  | '_' :: '_' :: rest => '.' :: dotted rest
  | c :: rest => c :: dotted rest
  | [] => []

/-- The setting that a variable gives, if it is one for settings. Case does not matter in its
name, two underscores stand between a section and a setting. Only the case of ASCII is looked at:
no name of a section or a setting has another letter. -/
def variableEntry? (name value : String) : Option (String × Setting) :=
  let cs := name.toList.map Char.toLower
  if variableHead.isPrefixOf cs then
    some (String.ofList (dotted (cs.drop variableHead.length)), variableValue value)
  else none

/-- The settings that variables give. -/
def variableEntries (vars : List (String × String)) : List (String × Setting) :=
  vars.filterMap fun (name, value) => variableEntry? name value

/-- The variable that says the port of a service: its name in upper case, with underscores for
hyphens. -/
def portVariable (service : String) : String :=
  String.ofList ((Text.upper service).toList.map fun c => if c = '-' then '_' else c) ++ "_PORT"

/-- The port that a variable says. -/
def port? (text : String) : Option Nat :=
  (Setting.digits? text).bind fun n => if n < Nat.pow 2 16 then some n else none

/-! ## From settings -/

/-- The server section that a setting is. -/
def Server.ofSetting? (s : Setting) : Option Server := do
  let d : Server := {}
  guard s.isSection
  return {
    host := ← Setting.orDefault d.host Setting.asText? (s.part? 0 "host")
    port := ← Setting.orDefault d.port (Setting.asNatBelow? (Nat.pow 2 16)) (s.part? 1 "port") }

/-- The reporting section that a setting is. -/
def Reporting.ofSetting? (s : Setting) : Option Reporting := do
  let d : Reporting := {}
  guard s.isSection
  return {
    logLevel := ← Setting.orDefault d.logLevel Setting.asText? (s.part? 0 "log_level")
    logFormat := ← Setting.orDefault d.logFormat Setting.asText? (s.part? 1 "log_format")
    metricsEnabled := ← Setting.orDefault d.metricsEnabled Setting.asBool?
      (s.part? 2 "metrics_enabled")
    metricsPort := ← Setting.orDefault d.metricsPort (Setting.asNatBelow? (Nat.pow 2 16))
      (s.part? 3 "metrics_port") }

/-- The engine section that a setting is. -/
def Engine.ofSetting? (s : Setting) : Option Engine := do
  let d : Engine := {}
  guard s.isSection
  return {
    mode := ← Setting.orDefault d.mode Setting.asText? (s.part? 0 "parser_mode")
    strategy := ← Setting.orDefault d.strategy Setting.asText? (s.part? 1 "combine_strategy")
    traced := ← Setting.orDefault d.traced Setting.asBool? (s.part? 2 "trace_enabled")
    maxDepth := ← Setting.orDefault d.maxDepth Setting.asNat? (s.part? 3 "max_depth") }

/-- The section of origins that a setting is. -/
def Origins.ofSetting? (s : Setting) : Option Origins := do
  let d : Origins := {}
  guard s.isSection
  return {
    allowed := ← Setting.orDefault d.allowed Setting.asTexts? (s.part? 0 "allowed_origins") }

/-- The configuration that a tree of settings is. -/
def ofSetting? (s : Setting) : Option Config := do
  return {
    serviceName := ← (← s.part? 0 "service_name").asText?
    environment := ← (← s.part? 1 "environment").asText?
    server := ← Setting.orDefault {} Server.ofSetting? (s.part? 2 "server")
    reporting := ← Setting.orDefault {} Reporting.ofSetting? (s.part? 3 "observability")
    engine := ← Setting.orDefault {} Engine.ofSetting? (s.part? 4 "engine")
    origins := ← Setting.orDefault {} Origins.ofSetting? (s.part? 5 "cors") }

/-! ## Files -/

/-- A format of files: what their names end in and how their texts are read. -/
structure Format where
  ending : String
  read? : String → Option (List (String × Setting))

/-- The format in which files are asked for. -/
def Format.toml : Format := ⟨"toml", Toml.read?⟩

/-- What a loader brings along. -/
structure Loader where
  /-- the formats that it knows, in the order in which it tries them -/
  formats : List Format := [.toml]
  /-- the texts of files outside the configuration directory, by the paths that lead there from the
  directory -/
  elsewhere : String → Option String := fun _ => none

/-- What a configuration is loaded from. -/
structure Surroundings where
  /-- the files of the configuration directory, names and texts -/
  files : List (String × String)
  /-- the environment variables -/
  vars : List (String × String)

/-- The environment, which a variable names. -/
def Surroundings.environment (s : Surroundings) : String :=
  (s.vars.lookup "RULES_ENV").getD "development"

/-- The names on a path below the configuration directory. A dot stands for the directory where
it stands; a path that starts with a slash or leads upward is not below. -/
def pathBelow? (path : String) : Option (List String) :=
  let names := (path.toList.splitOn '/').map String.ofList
  if path.startsWith "/" || names.contains ".." then none
  else some (names.filter fun name => name != "" && name != ".")

namespace Loader

variable (loader : Loader) (s : Surroundings)

/-- The text of the file at a path, if there is one. -/
def file? (path : String) : Option String :=
  match pathBelow? path with
  | some names => (s.files.find? fun (other, _) => pathBelow? other == some names).map (·.2)
  | none => loader.elsewhere path

/-- The text that is read for a file without its ending, and the format of the text. The file itself
comes first, but one that has no name before its ending is of no known format. For a file that is
not there the first one stands in that has the ending of a known format behind its own. -/
def found? (name : String) : Option (Format × String) :=
  match loader.file? s (name ++ "." ++ Format.toml.ending) with
  | some text =>
    if name.isEmpty || name.endsWith "/" then none
    else (loader.formats.find? (·.ending == Format.toml.ending)).map fun format => (format, text)
  | none => loader.formats.findSome? fun format =>
      (loader.file? s (name ++ "." ++ Format.toml.ending ++ "." ++ format.ending)).map fun text =>
        (format, text)

/-- The layer of a file; a file that is not there is empty. -/
def fileLayer (name : String) : Except LoadError (List (String × Setting)) :=
  match loader.found? s name with
  | none => .ok []
  | some (format, text) =>
    match format.read? text with
    | some entries => .ok entries
    | none => .error .file

end Loader

/-! ## Loading -/

/-- The first layer: the names that the service is started with. -/
def names (service environment : String) : List (String × Setting) :=
  [("service_name", .text service), ("environment", .text environment)]

/-- The configuration of layers, the first one lowest. -/
def ofLayers? (layers : List (List (String × Setting))) : Option Config :=
  ofSetting? (layers.foldl Setting.layOver (.table []))

/-- Loads the configuration of a service. -/
def Loader.load (loader : Loader) (service : String) (s : Surroundings) :
    Except LoadError Config := do
  let base ← loader.fileLayer s "default"
  let ofEnvironment ← loader.fileLayer s s.environment
  let ofService ← loader.fileLayer s service
  match ofLayers? [names service s.environment, base, ofEnvironment, ofService,
      variableEntries s.vars] with
  | none => .error .value
  | some config =>
    match (s.vars.lookup (portVariable service)).bind port? with
    | some port => return { config with server := { config.server with port } }
    | none => return config

/-- Loads the configuration of a service from files of the usual format in its directory. -/
def load (service : String) (s : Surroundings) : Except LoadError Config :=
  ({} : Loader).load service s

end Rulebook.Config
