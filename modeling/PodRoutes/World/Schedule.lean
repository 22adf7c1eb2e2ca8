import PodRoutes.World.Basic

/-!
# Programs side by side

Several programs share a world and the lock. A task runs until it has to wait; of the tasks that
can run the first one does. The lock is granted in the order of asking. When every task waits, the
clock moves to the next point at which one of them goes on.
-/

namespace PodRoutes

inductive Task (α : Type) where
  | ready (program : Control α)
  /-- Goes on at a point of the clock. -/
  | waiting (wake : Nat) (resume : World → Control α × World)
  /-- Stands in the queue for the lock, up to a deadline if there is one. -/
  | queued (deadline : Option Nat) (resume : Bool → Control α)
  | finished (result : α)

structure System (α : Type) where
  world : World
  holder : Option Nat := none
  /-- The tasks that wait for the lock, first the one that asked first. -/
  queue : List Nat := []
  tasks : List (Task α)

namespace System

variable {α : Type}

def set (s : System α) (i : Nat) (t : Task α) : System α := { s with tasks := s.tasks.set i t }

def granted : Task α → Task α
  | .queued _ resume => .ready (resume true)
  | t => t

def passLock (s : System α) : System α :=
  match s.queue with
  | [] => { s with holder := none }
  | i :: rest =>
    { s with holder := some i, queue := rest, tasks := s.tasks.modify i granted }

def takeLock (s : System α) (i : Nat) (deadline : Option Nat) (resume : Bool → Control α) :
    System α :=
  match s.holder with
  | none => { s.set i (.ready (resume true)) with holder := some i }
  | some _ => { s.set i (.queued deadline resume) with queue := s.queue ++ [i] }

/-- Begins a request; it is over at once if it need not wait. -/
def start (s : System α) (i : Nat) (r : Control.Request)
    (next : Control.Reply r → Control α) : System α :=
  let w := s.world.begin r
  let finish (w : World) : Control α × World :=
    let (x, w) := w.effect r
    (next x, w)
  if w.wait r = 0 then
    let (p, w) := finish w
    { s.set i (.ready p) with world := w }
  else { s.set i (.waiting (w.clock + w.wait r) finish) with world := w }

/-- Begins a request with a deadline that comes before its effect. -/
def startLate (s : System α) (i : Nat) (deadline : Nat) (r : Control.Request)
    (next : Control α) : System α :=
  { s.set i (.waiting deadline fun w => (next, w)) with world := s.world.begin r }

def advance (s : System α) (i : Nat) : Control α → System α
  | .done a => s.set i (.finished a)
  | .ask .lock next => s.takeLock i none fun _ => next ()
  | .ask .unlock next => (s.set i (.ready (next ()))).passLock
  | .ask r next => s.start i r next
  | .askBy d .lock next => s.takeLock i (some d) fun
    | true => next (some ())
    | false => next none
  | .askBy _ .unlock next => (s.set i (.ready (next (some ())))).passLock
  | .askBy d r next =>
    if s.world.wait r = 0 ∨ s.world.clock + s.world.wait r ≤ d then
      s.start i r fun x => next (some x)
    else s.startLate i d r (next none)

def wakeTime : Task α → Option Nat
  | .waiting wake _ => some wake
  | .queued deadline _ => deadline
  | _ => none

def nextReady (s : System α) : Option (Nat × Control α) :=
  (s.tasks.zipIdx.filterMap fun
    | (.ready p, i) => some (i, p)
    | _ => none).head?

/-- The first of the tasks that go on by themselves at the earliest point, with that point. -/
def nextWake (s : System α) : Option (Nat × Nat) :=
  (s.tasks.zipIdx.filterMap fun (t, i) => (wakeTime t).map (·, i)).foldl (fun best x =>
    match best with
    | none => some x
    | some b => if x.1 < b.1 then some x else some b) none

def wake (s : System α) (i : Nat) : System α :=
  match s.tasks[i]? with
  | some (.waiting _ resume) =>
    let (p, w) := resume s.world
    { s.set i (.ready p) with world := w }
  | some (.queued _ resume) =>
    { s.set i (.ready (resume false)) with queue := s.queue.erase i }
  | _ => s

def step (s : System α) : Option (System α) :=
  match s.nextReady with
  | some (i, p) => some (s.advance i p)
  | none =>
    match s.nextWake with
    | some (time, i) => some ({ s with world := s.world.advanceTo time }.wake i)
    | none => none

def steps : Nat → System α → System α
  | 0, s => s
  | n + 1, s =>
    match s.step with
    | some s => steps n s
    | none => s

def result? : Task α → Option α
  | .finished a => some a
  | _ => none

end System

def World.runAll (w : World) (bound : Nat) (programs : List (Control α)) :
    List (Option α) × World :=
  let s := System.steps bound { world := w, tasks := programs.map .ready }
  (s.tasks.map System.result?, s.world)

end PodRoutes
