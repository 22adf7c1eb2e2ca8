import PodRoutes.Network.Socket
import PodRoutes.Node.UpdateFilter
import PodRoutes.Reconcile.Settings

/-!
# Arguments of the controller

The options with their values, their defaults, and what they mean for the controller.
-/

namespace PodRoutes.CommandLine

inductive IdSource where
  | nodeKeys
  | providerId
deriving DecidableEq

inductive LogFormat where
  | text
  | json
deriving DecidableEq

/-- The values of all options; times are in seconds. -/
structure Arguments where
  period : Nat := 300
  configureRoutes : Bool := true
  idSource : IdSource := .nodeKeys
  timeout : Nat := 120
  requeueDelay : Nat := 15
  metricsAddress : Socket := .v4 Address.any 8080
  logFormat : LogFormat := .text
deriving DecidableEq

inductive Opt where
  | period
  | configureRoutes
  | idSource
  | timeout
  | requeueDelay
  | metricsAddress
  | logFormat
deriving DecidableEq

inductive Refusal where
  | help
  | version
  | unknownArgument
  | repeated
  | unreadableValue
  /-- A value is missing, or is none of the words to choose from. -/
  | invalidValue
  | surplusValue
deriving DecidableEq

namespace Opt

/-- All options, in the order in which their environment variables are looked at. -/
def all : List Opt :=
  [period, configureRoutes, idSource, timeout, requeueDelay, metricsAddress, logFormat]

def name : Opt → String
  | period => "route-reconciliation-period"
  | configureRoutes => "configure-routes"
  | idSource => "instance-id-from"
  | timeout => "reconcile-timeout"
  | requeueDelay => "requeue-delay"
  | metricsAddress => "metrics-addr"
  | logFormat => "log-format"

def environmentName : Opt → String
  | period => "ROUTE_RECONCILIATION_PERIOD"
  | configureRoutes => "CONFIGURE_ROUTES"
  | idSource => "INSTANCE_ID_FROM"
  | timeout => "RECONCILE_TIMEOUT"
  | requeueDelay => "REQUEUE_DELAY"
  | metricsAddress => "METRICS_ADDR"
  | logFormat => "LOG_FORMAT"

def help : Opt → String
  | period => "Seconds between full route syncs (at least 60)"
  | configureRoutes => "Create and delete routes; when false the controller only watches"
  | idSource => "Where node instance ids come from: annotation or provider-id"
  | timeout => "Deadline in seconds for one node reconcile or one full sync"
  | requeueDelay => "Seconds before a failed node reconcile is retried"
  | metricsAddress => "Address of the metrics and health endpoint"
  | logFormat => "How the log is written: text or json"

def ofName? (name : String) : Option Opt := all.find? fun o => o.name = name

end Opt

/-! ### Values -/

/-- Reads a number of 64 bits; a plus sign is allowed. -/
def readNumber (s : String) : Except Refusal Nat :=
  match (Decimal.readPlus? s.toList).filter (· < UInt64.size) with
  | some n => .ok n
  | none => .error .unreadableValue

def IdSource.word : IdSource → String
  | nodeKeys => "annotation"
  | providerId => "provider-id"

def LogFormat.word : LogFormat → String
  | text => "text"
  | json => "json"

def switchWord (on : Bool) : String := if on then "true" else "false"

def readChoice (word : α → String) (choices : List α) (s : String) : Except Refusal α :=
  match choices.find? fun a => word a = s with
  | some a => .ok a
  | none => .error .invalidValue

def Arguments.set (a : Arguments) (o : Opt) (value : String) : Except Refusal Arguments :=
  match o with
  | .period => do
    let n ← readNumber value
    return { a with period := n }
  | .configureRoutes => do
    let b ← readChoice switchWord [true, false] value
    return { a with configureRoutes := b }
  | .idSource => do
    let source ← readChoice IdSource.word [.nodeKeys, .providerId] value
    return { a with idSource := source }
  | .timeout => do
    let n ← readNumber value
    return { a with timeout := n }
  | .requeueDelay => do
    let n ← readNumber value
    return { a with requeueDelay := n }
  | .metricsAddress =>
    match Socket.parse? value with
    | some address => .ok { a with metricsAddress := address }
    | none => .error .unreadableValue
  | .logFormat => do
    let format ← readChoice LogFormat.word [.text, .json] value
    return { a with logFormat := format }

/-! ### Meaning -/

/-- The controller's settings; a period below the lower limit is raised to it. -/
def Arguments.settings (a : Arguments) : Settings where
  configureRoutes := a.configureRoutes
  period := max (a.period * 1000) Settings.minPeriod
  timeout := a.timeout * 1000
  requeueDelay := a.requeueDelay * 1000

def Arguments.updateFilter (a : Arguments) : UpdateFilter := ⟨a.idSource = .nodeKeys⟩

end PodRoutes.CommandLine
