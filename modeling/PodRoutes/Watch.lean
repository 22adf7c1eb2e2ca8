import PodRoutes.Node.UpdateFilter

/-!
# Watching nodes

The watch keeps the last seen object of every node, so that an update can be compared with what it
replaces. Each event gives the names that are worth a reconcile: a node that appears or disappears,
and a node whose update the filter lets through. A relist that is complete also gives the names of
the nodes that it no longer showed.
-/

namespace PodRoutes

inductive WatchEvent where
  | relist
  | listed (node : Node)
  | relistDone
  | applied (node : Node)
  | deleted (node : Node)

structure WatchState where
  seen : Table Node := Table.empty
  /-- The names shown since the last relist began. -/
  shown : List String := []

namespace WatchState

/-- Takes in an object of a node, and tells whether the node is worth a reconcile. -/
def apply (f : UpdateFilter) (s : WatchState) (node : Node) : WatchState × List String :=
  let worth := match s.seen.get? node.name with
    | some old => f.admits old node
    | none => true
  ({ seen := s.seen.insert node.name node, shown := node.name :: s.shown },
    if worth then [node.name] else [])

/-- The names that a complete relist has not shown, in order. -/
def vanished (s : WatchState) : List String := s.seen.keys.filter fun name => !s.shown.contains name

def handle (f : UpdateFilter) (s : WatchState) : WatchEvent → WatchState × List String
  | .relist => ({ s with shown := [] }, [])
  | .listed node => s.apply f node
  | .applied node => s.apply f node
  | .deleted node => ({ s with seen := s.seen.erase node.name }, [node.name])
  | .relistDone =>
    ({ s with seen := s.seen.filter fun name _ => s.shown.contains name }, s.vanished)

def handleAll (f : UpdateFilter) (s : WatchState) : List WatchEvent → WatchState × List String
  | [] => (s, [])
  | e :: rest =>
    let (s, names) := s.handle f e
    let (s, more) := s.handleAll f rest
    (s, names ++ more)

end WatchState

def WatchEvent.ofList (nodes : List Node) : List WatchEvent :=
  .relist :: (nodes.map .listed ++ [.relistDone])

end PodRoutes
