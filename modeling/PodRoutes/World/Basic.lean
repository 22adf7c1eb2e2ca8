import PodRoutes.Gateway.Memory
import PodRoutes.World.NodeStore

/-!
# The controller's surroundings

A world holds the route table, the stored nodes, the cache and the clock, and keeps a record of the
calls made. A call is noted when it begins, then its latency passes, and then it takes effect. Time
is in whole milliseconds and moves only while something waits.
-/

namespace PodRoutes

/-! ### Records and latencies -/

inductive GatewayCall where
  | create (instanceId destination : String)
  | find (destination : String)
  | list
  | delete (destination : String)
deriving DecidableEq

inductive NodeCall where
  | get (name : String)
  | list
  | patch (name : String) (scope : PatchScope)
deriving DecidableEq

/-- How many milliseconds pass before each kind of call takes effect. -/
structure Latency where
  create : Nat := 0
  find : Nat := 0
  list : Nat := 0
  delete : Nat := 0
  getNode : Nat := 0
  listNodes : Nat := 0
  patchNode : Nat := 0
deriving DecidableEq

structure World where
  clock : Nat := 0
  epoch : Instant
  latency : Latency := {}
  gateway : MemoryGateway := {}
  store : NodeStore := {}
  cache : RouteCache := Table.empty
  /-- The gateway calls with the time at which each began. -/
  gatewayCalls : List (Nat × GatewayCall) := []
  nodeCalls : List NodeCall := []
  events : List NodeEvent := []
  observed : List Verb := []
  /-- The random share that every draw gives. -/
  share : Rat := 1 / 2

namespace World

def date (w : World) : Instant := w.epoch.addMillis w.clock

/-! ### Waiting -/

/-- The whole milliseconds that a pause takes: it is rounded to the nearest nanosecond, and a timer
that would end inside a millisecond ends at its end. -/
def wholeMillis (pause : Rat) : Nat :=
  let nanos := (pause * 1000000 + 1 / 2).floor.toNat
  (nanos + 999999) / 1000000

def wait (w : World) : Control.Request → Nat
  | .createRoute _ _ => w.latency.create
  | .findRoute _ => w.latency.find
  | .listRoutes => w.latency.list
  | .deleteRoute _ => w.latency.delete
  | .getNode _ => w.latency.getNode
  | .listNodes => w.latency.listNodes
  | .patchNode _ _ _ => w.latency.patchNode
  | .pause millis => wholeMillis millis
  | _ => 0

def advance (w : World) (millis : Nat) : World := { w with clock := w.clock + millis }

/-- The world at a point of the clock, or now if that is past. -/
def advanceTo (w : World) (time : Nat) : World := { w with clock := max w.clock time }

/-! ### Calls -/

def noteGateway (w : World) (c : GatewayCall) : World :=
  { w with gatewayCalls := w.gatewayCalls ++ [(w.clock, c)] }

def noteNode (w : World) (c : NodeCall) : World := { w with nodeCalls := w.nodeCalls ++ [c] }

def begin (w : World) : Control.Request → World
  | .createRoute i c => w.noteGateway (.create i c)
  | .findRoute c => w.noteGateway (.find c)
  | .listRoutes => w.noteGateway .list
  | .deleteRoute c => w.noteGateway (.delete c)
  | .getNode name => w.noteNode (.get name)
  | .listNodes => w.noteNode .list
  | .patchNode name _ scope => w.noteNode (.patch name scope)
  | _ => w

def effect (w : World) : (r : Control.Request) → Control.Reply r × World
  | .createRoute i c =>
    let (x, g) := w.gateway.create i c
    (x, { w with gateway := g })
  | .findRoute c =>
    let (x, g) := w.gateway.find c
    (x, { w with gateway := g })
  | .listRoutes =>
    let (x, g) := w.gateway.list
    (x, { w with gateway := g })
  | .deleteRoute c =>
    let (x, g) := w.gateway.delete c
    (x, { w with gateway := g })
  | .getNode name =>
    let (x, s) := w.store.get name
    (x, { w with store := s })
  | .listNodes =>
    let (x, s) := w.store.list
    (x, { w with store := s })
  | .patchNode name edit _ =>
    let (x, s) := w.store.patch name (edit w.date)
    (x, { w with store := s })
  | .record e => ((), { w with events := w.events ++ [e] })
  | .cachedRoute name => (w.cache.get? name, w)
  | .remember name r => ((), { w with cache := (w.cache.setIfAbsent name r).1 })
  | .forget name => ((), { w with cache := (w.cache.remove name).1 })
  | .evict c => ((), { w with cache := (w.cache.evict c).1 })
  | .observe verb _ => ((), { w with observed := w.observed ++ [verb] })
  | .now => (w.clock, w)
  | .lock => ((), w)
  | .unlock => ((), w)
  | .pause _ => ((), w)
  | .draw => (w.share, w)

/-! ### One program alone -/

def reply (w : World) (r : Control.Request) : Control.Reply r × World :=
  ((w.begin r).advance (w.wait r)).effect r

/-- The same up to a deadline: a request that would take effect later is given up at the deadline
and has no effect. -/
def replyBy (w : World) (deadline : Nat) (r : Control.Request) :
    Option (Control.Reply r) × World :=
  if w.wait r = 0 ∨ w.clock + w.wait r ≤ deadline then
    let (x, w) := w.reply r
    (some x, w)
  else (none, (w.begin r).advanceTo deadline)

/-- The world as the surroundings of a program that runs alone, so that the lock is always free. -/
def handler : Program.Handler Control.interface World where
  reply r w := w.reply r
  replyBy deadline r w := w.replyBy deadline r

def run (w : World) (p : Control α) : α × World := p.run handler w

end World

end PodRoutes
