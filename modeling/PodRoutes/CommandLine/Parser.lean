import PodRoutes.CommandLine.Arguments

/-!
# Reading the command line

An option is written `--name value` or `--name=value`. A value that begins with a hyphen is taken
for an option, and nothing may stand alone. A value is looked at when the next option begins or the
line ends, so an unknown argument right after it is reported first. An environment variable counts
for an option that is not on the line.
-/

namespace PodRoutes.CommandLine

/-- An option that was named and not yet looked at, with its value if that has been read. -/
structure Pending where
  option : Opt
  value : Option String
deriving DecidableEq

structure Progress where
  arguments : Arguments := {}
  given : List Opt := []
  pending : Option Pending := none
deriving DecidableEq

namespace Progress

def accept (p : Progress) (o : Opt) (value : String) : Except Refusal Progress :=
  if p.given.contains o then .error .repeated
  else return { p with arguments := ← p.arguments.set o value, given := o :: p.given }

def settle (p : Progress) : Except Refusal Progress :=
  match p.pending with
  | none => .ok p
  | some ⟨_, none⟩ => .error .invalidValue
  | some ⟨o, some value⟩ => { p with pending := none }.accept o value

/-- The refusal of a flag that ends the reading, after the option before it has been looked at. -/
def stop (p : Progress) (r : Refusal) : Except Refusal Progress := do
  let _ ← p.settle
  .error r

def long (p : Progress) (name : String) (value : Option String) : Except Refusal Progress :=
  match Opt.ofName? name, value with
  | some o, some v => do (← p.settle).accept o v
  | some o, none => return { ← p.settle with pending := some ⟨o, none⟩ }
  | none, none =>
    if name = "help" then p.stop .help
    else if name = "version" then p.stop .version
    else .error .unknownArgument
  | none, some _ =>
    .error (if name = "help" ∨ name = "version" then .surplusValue else .unknownArgument)

/-- Reads an argument that is no option: the value of the option before it, if that lacks one. -/
def plain (p : Progress) (arg : String) : Except Refusal Progress :=
  match p.pending with
  | some ⟨o, none⟩ => .ok { p with pending := some ⟨o, some arg⟩ }
  | _ => .error .unknownArgument

def read (p : Progress) (arg : String) : Except Refusal Progress :=
  match arg.toList with
  | '-' :: '-' :: rest =>
    let (name, value) := Fields.cut '=' rest
    p.long (String.ofList name) (value.map String.ofList)
  | '-' :: 'h' :: _ => p.stop .help
  | '-' :: 'V' :: _ => p.stop .version
  | '-' :: _ :: _ => .error .unknownArgument
  | _ => p.plain arg

/-- Reads a line; after a double hyphen nothing may follow. -/
def readAll (p : Progress) : List String → Except Refusal Progress
  | [] => p.settle
  | "--" :: rest => if rest.isEmpty then p.settle else .error .unknownArgument
  | arg :: rest => do (← p.read arg).readAll rest

/-- Sets the options that are not on the line from the environment. -/
def readEnvironment (environment : String → Option String) (p : Progress) :
    List Opt → Except Refusal Progress
  | [] => .ok p
  | o :: rest => do
    let p ← match environment o.environmentName with
      | some value => if p.given.contains o then .ok p else p.accept o value
      | none => .ok p
    readEnvironment environment p rest

end Progress

def parse (environment : String → Option String) (line : List String) :
    Except Refusal Arguments := do
  let p ← Progress.readAll {} line
  return (← Progress.readEnvironment environment p Opt.all).arguments

end PodRoutes.CommandLine
