import Rulebook.Json.Layout

/-!
# The configuration

A configuration names the service and its environment and has four sections; each section, and
each setting in one, has a value where nobody gives another. Names of ways of reading and of
strategies stay texts here and are looked at when a service is built from them.
-/

namespace Rulebook

namespace Config

/-- Where the service listens. -/
structure Server where
  host : String := "0.0.0.0"
  port : Nat := 8080
deriving DecidableEq

/-- What the service tells about itself. -/
structure Reporting where
  logLevel : String := "info"
  logFormat : String := "pretty"
  metricsEnabled : Bool := true
  metricsPort : Nat := 9090
deriving DecidableEq

/-- How rules are read, combined and evaluated. -/
structure Engine where
  mode : String := "first_match"
  strategy : String := "fixed_and"
  traced : Bool := false
  maxDepth : Nat := 100
deriving DecidableEq

/-- Which origins may ask. -/
structure Origins where
  allowed : List String := ["*"]
deriving DecidableEq

end Config

/-- A configuration. -/
structure Config where
  serviceName : String := ""
  environment : String := ""
  server : Config.Server := {}
  reporting : Config.Reporting := {}
  engine : Config.Engine := {}
  origins : Config.Origins := {}
deriving DecidableEq

namespace Config

/-- Whether every origin may ask. -/
def Origins.any (o : Origins) : Bool := o.allowed.contains "*"

/-- The address on which the service listens. -/
def address (c : Config) : String :=
  c.server.host ++ ":" ++ String.ofList (Decimal.toDigits c.server.port)

/-- Whether this is the environment of production. -/
def isProduction (c : Config) : Bool := c.environment == "production"

/-! ## From documents -/

/-- A document that must be a port. -/
def asPort (value : Json) : Except Fault Nat := value.asNat (Nat.pow 2 16) "u16"

/-- A document that must be a size. -/
def asSize (value : Json) : Except Fault Nat := value.asNat (Nat.pow 2 64) "usize"

/-- The parts of a server section. -/
def Server.layout : Layout Server where
  name := "struct ServerConfig"
  parts :=
    [⟨"host", false, fun j s => do return { s with host := ← j.asText }⟩,
     ⟨"port", false, fun j s => do return { s with port := ← asPort j }⟩]

/-- The parts of a reporting section. -/
def Reporting.layout : Layout Reporting where
  name := "struct ObservabilityConfig"
  parts :=
    [⟨"log_level", false, fun j s => do return { s with logLevel := ← j.asText }⟩,
     ⟨"log_format", false, fun j s => do return { s with logFormat := ← j.asText }⟩,
     ⟨"metrics_enabled", false, fun j s => do return { s with metricsEnabled := ← j.asBool }⟩,
     ⟨"metrics_port", false, fun j s => do return { s with metricsPort := ← asPort j }⟩]

/-- The parts of an engine section. -/
def Engine.layout : Layout Engine where
  name := "struct EngineConfig"
  parts :=
    [⟨"parser_mode", false, fun j s => do return { s with mode := ← j.asText }⟩,
     ⟨"combine_strategy", false, fun j s => do return { s with strategy := ← j.asText }⟩,
     ⟨"trace_enabled", false, fun j s => do return { s with traced := ← j.asBool }⟩,
     ⟨"max_depth", false, fun j s => do return { s with maxDepth := ← asSize j }⟩]

/-- The parts of a section of origins. -/
def Origins.layout : Layout Origins where
  name := "struct CorsConfig"
  parts := [⟨"allowed_origins", false, fun j s => do return { s with allowed := ← j.asTexts }⟩]

/-- The engine section that a document is. -/
def Engine.ofJson (value : Json) : Except Fault Engine := Engine.layout.read {} value

/-- The parts of a configuration. -/
def layout : Layout Config where
  name := "struct AppConfig"
  parts :=
    [⟨"service_name", true, fun j c => do return { c with serviceName := ← j.asText }⟩,
     ⟨"environment", true, fun j c => do return { c with environment := ← j.asText }⟩,
     ⟨"server", false, fun j c => do return { c with server := ← Server.layout.read {} j }⟩,
     ⟨"observability", false, fun j c => do
       return { c with reporting := ← Reporting.layout.read {} j }⟩,
     ⟨"engine", false, fun j c => do return { c with engine := ← Engine.ofJson j }⟩,
     ⟨"cors", false, fun j c => do return { c with origins := ← Origins.layout.read {} j }⟩]

/-- The configuration that a document is. -/
def ofJson (value : Json) : Except Fault Config := layout.read {} value

end Config

end Rulebook
