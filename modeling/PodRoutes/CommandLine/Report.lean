import PodRoutes.Cloud.Client
import PodRoutes.CommandLine.Parser

/-!
# What a start of the program reports

A command line and an environment give the text that is printed and the exit code: the options for
help, the version, a fault of the command line or of the configuration, or else what the controller
runs with.
-/

namespace PodRoutes.CommandLine

structure Report where
  text : String
  exitCode : Nat
deriving DecidableEq

def programName : String := "vpc-route-controller"

def version : String := "0.1.0"

def purpose : String := "Programs VPC routes for node pod CIDRs"

/-! ### Values of options -/

def Arguments.text (a : Arguments) : Opt → String
  | .period => Decimal.text a.period
  | .configureRoutes => switchWord a.configureRoutes
  | .idSource => a.idSource.word
  | .timeout => Decimal.text a.timeout
  | .requeueDelay => Decimal.text a.requeueDelay
  | .metricsAddress => a.metricsAddress.text
  | .logFormat => a.logFormat.word

/-! ### Help -/

def defaults : Arguments := {}

def helpLines (o : Opt) : List String :=
  ["  --" ++ o.name ++ " <" ++ o.environmentName ++ ">",
    "      " ++ o.help ++ " [env: " ++ o.environmentName ++ "] [default: " ++
      defaults.text o ++ "]"]

def helpText : String :=
  "\n".intercalate ([purpose, "", "Usage: " ++ programName ++ " [OPTIONS]", "", "Options:"] ++
    Opt.all.flatMap helpLines ++
    ["  -h, --help", "      Print help", "  -V, --version", "      Print version"]) ++ "\n"

/-! ### Reports -/

def Refusal.message : Refusal → String
  | help => purpose
  | version => programName
  | unknownArgument => "unexpected argument found"
  | repeated => "an option cannot be used multiple times"
  | unreadableValue => "a value cannot be read"
  | invalidValue => "a value is missing or is none of the possible values"
  | surplusValue => "a value is given to an option that takes none"

def refusalReport : Refusal → Report
  | .help => ⟨helpText, 0⟩
  | .version => ⟨programName ++ " " ++ version ++ "\n", 0⟩
  | r => ⟨"error: " ++ r.message ++ "\n", 2⟩

/-- What the controller runs with, a line for each option and for each part of the configuration. -/
def startText (a : Arguments) (c : Cloud.Config) : String :=
  let line (name value : String) : String := name ++ ": " ++ value ++ "\n"
  "".intercalate (Opt.all.map (fun o => line o.name (a.text o)) ++
    [line "network-endpoint" c.endpoint, line "vpc-id" c.vpcId, line "region" c.region])

def variableNames : List String :=
  Cloud.Config.environmentName :: Opt.all.map Opt.environmentName

def report (environment : String → Option String) (args : List String) : Report :=
  match parse environment args with
  | .error r => refusalReport r
  | .ok a =>
    match (Cloud.Config.ofVariable (environment Cloud.Config.environmentName)).bind
        Cloud.Client.ofConfig with
    | .error e => ⟨"Error: " ++ e.message ++ "\n", 1⟩
    | .ok client => ⟨startText a client.config, 0⟩

end PodRoutes.CommandLine
