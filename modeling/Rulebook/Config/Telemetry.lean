import Rulebook.Config.Basic

/-!
# Telemetry

What the logs and the metrics of a process need to know of its configuration. Logs and metrics
are set up once in a process: a second attempt fails and says which of the two was there already,
the logs first when both are asked for.
-/

namespace Rulebook

/-- The configuration of logs and metrics. -/
structure Telemetry where
  serviceName : String := "unknown-service"
  metricsEnabled : Bool := true
  metricsPort : Nat := 9090
  logLevel : String := "info"
  jsonLogs : Bool := false
deriving DecidableEq

namespace Telemetry

/-- What a configuration says about logs and metrics. -/
def ofConfig (c : Config) : Telemetry where
  serviceName := c.serviceName
  metricsEnabled := c.reporting.metricsEnabled
  metricsPort := c.reporting.metricsPort
  logLevel := c.reporting.logLevel
  jsonLogs := c.reporting.logFormat == "json"

/-- What a process has set up. -/
structure Installed where
  logs : Bool
  metrics : Bool
deriving DecidableEq

/-- Sets up the logs. -/
def startLogs (process : Installed) : Except String Installed :=
  if process.logs then .error "a global default trace dispatcher has already been set"
  else .ok { process with logs := true }

/-- Sets up the metrics. -/
def startMetrics (process : Installed) : Except String Installed :=
  if process.metrics then
    .error ("failed to install exporter as global recorder: attempted to set a recorder " ++
      "after the metrics system was already initialized")
  else .ok { process with metrics := true }

/-- Sets up the logs and, unless they are turned off, the metrics. -/
def start (t : Telemetry) (process : Installed) : Except String Installed := do
  let process ← startLogs process
  if t.metricsEnabled then startMetrics process else return process

end Telemetry

end Rulebook
