import PodRoutes.Control.Basic

/-!
# Stored nodes

A store of nodes by name, listed in the order of the names. Errors can be queued for the next calls
of each kind.
-/

namespace PodRoutes

structure NodeFailures where
  get : List RouteError := []
  list : List RouteError := []
  patch : List RouteError := []
deriving DecidableEq

structure NodeStore where
  nodes : Table Node := Table.empty
  failures : NodeFailures := {}

namespace NodeStore

def add (s : NodeStore) (n : Node) : NodeStore := { s with nodes := s.nodes.insert n.name n }

def remove (s : NodeStore) (name : String) : NodeStore := { s with nodes := s.nodes.erase name }

def get (s : NodeStore) (name : String) : Outcome (Option Node) × NodeStore :=
  match s.failures.get with
  | e :: rest => (.error e, { s with failures.get := rest })
  | [] => (.ok (s.nodes.get? name), s)

def list (s : NodeStore) : Outcome (List Node) × NodeStore :=
  match s.failures.list with
  | e :: rest => (.error e, { s with failures.list := rest })
  | [] => (.ok s.nodes.values, s)

def patch (s : NodeStore) (name : String) (edit : Node → Node) : Outcome Unit × NodeStore :=
  match s.failures.patch with
  | e :: rest => (.error e, { s with failures.patch := rest })
  | [] =>
    match s.nodes.get? name with
    | none => (.error (.nodeNotFound name), s)
    | some n => (.ok (), { s with nodes := s.nodes.insert name (edit n) })

end NodeStore

end PodRoutes
