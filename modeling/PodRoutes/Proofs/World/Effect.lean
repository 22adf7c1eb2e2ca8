import PodRoutes.Proofs.Table.Keyed
import PodRoutes.Protocol.Basic
import PodRoutes.World.Basic

/-!
# What requests do to the world

Only creates and deletes change the route table, and only patches change the stored nodes. Routes
stay kept by destination, nodes by name, and a world in which nothing fails stays one.
-/

namespace PodRoutes

/-! ### A gateway without failures -/

namespace MemoryGateway

variable {g : MemoryGateway}

theorem create_of_contains (hf : g.failures = {}) (href : g.refused = []) {destination : String}
    (hc : g.table.contains destination = true) (instanceId : String) :
    g.create instanceId destination = (.error (g.duplicateError destination),
      { g with counts.creates := g.counts.creates + 1 }) := by
  simp [create, hf, href, hc, duplicateError]

theorem create_of_free (hf : g.failures = {}) (href : g.refused = []) {destination : String}
    (hc : g.table.contains destination = false) (instanceId : String) :
    g.create instanceId destination =
      (.ok (if g.createReturnsNone then none else some (g.nextRoute instanceId destination)),
        { g with
          table := g.table.insert destination (g.nextRoute instanceId destination)
          made := g.made + 1
          counts.creates := g.counts.creates + 1 }) := by
  simp [create, hf, href, hc, nextRoute]

theorem find_of_faultless (hf : g.failures = {}) (destination : String) :
    g.find destination =
      (.ok (g.table.get? destination), { g with counts.finds := g.counts.finds + 1 }) := by
  simp [find, hf]

theorem list_of_faultless (hf : g.failures = {}) :
    g.list = (.ok g.table.values, { g with counts.lists := g.counts.lists + 1 }) := by
  simp [list, hf, routes]

theorem delete_of_faultless (hf : g.failures = {}) (destination : String) :
    g.delete destination = (.ok (), { g with
      table := g.table.erase destination
      counts.deletes := g.counts.deletes + 1
      deleted := g.deleted ++ [destination] }) := by
  simp [delete, hf]

end MemoryGateway

/-! ### A world without failures -/

namespace World

/-- No error is queued and no destination is refused. -/
structure Faultless (w : World) : Prop where
  failures : w.gateway.failures = {}
  refused : w.gateway.refused = []
  storeFailures : w.store.failures = {}

theorem Faultless.effect {w : World} (hw : w.Faultless) (r : Control.Request) :
    (w.effect r).2.Faultless := by
  obtain ⟨hf, href, hs⟩ := hw
  cases r with
  | createRoute i c =>
    by_cases hc : w.gateway.table.contains c = true
    · simp only [World.effect, MemoryGateway.create_of_contains hf href hc]
      exact ⟨hf, href, hs⟩
    · rw [Bool.not_eq_true] at hc
      simp only [World.effect, MemoryGateway.create_of_free hf href hc]
      exact ⟨hf, href, hs⟩
  | findRoute c =>
    simp only [World.effect, MemoryGateway.find_of_faultless hf]
    exact ⟨hf, href, hs⟩
  | listRoutes =>
    simp only [World.effect, MemoryGateway.list_of_faultless hf]
    exact ⟨hf, href, hs⟩
  | deleteRoute c =>
    simp only [World.effect, MemoryGateway.delete_of_faultless hf]
    exact ⟨hf, href, hs⟩
  | getNode name =>
    simp only [World.effect, NodeStore.get, hs]
    exact ⟨hf, href, hs⟩
  | listNodes =>
    simp only [World.effect, NodeStore.list, hs]
    exact ⟨hf, href, hs⟩
  | patchNode name edit scope =>
    cases hn : w.store.nodes.get? name <;>
    · simp only [World.effect, NodeStore.patch, hs, hn]
      exact ⟨hf, href, by simp [hs]⟩
  | _ => exact ⟨hf, href, hs⟩

end World

/-! ### The beginning of a request -/

namespace World

variable (w : World) (r : Control.Request)

theorem gateway_begin : (w.begin r).gateway = w.gateway := by
  cases r <;> rfl

theorem store_begin : (w.begin r).store = w.store := by
  cases r <;> rfl

theorem clock_begin : (w.begin r).clock = w.clock := by
  cases r <;> rfl

theorem epoch_begin : (w.begin r).epoch = w.epoch := by
  cases r <;> rfl

theorem latency_begin : (w.begin r).latency = w.latency := by
  cases r <;> rfl

theorem wait_begin : (w.begin r).wait r = w.wait r := by
  cases r <;> rfl

theorem cache_begin (millis : Nat) : ((w.begin r).advance millis).cache = w.cache := by
  cases r <;> rfl

theorem cache_advanceTo (time : Nat) : ((w.begin r).advanceTo time).cache = w.cache := by
  cases r <;> rfl

theorem clock_effect : (w.effect r).2.clock = w.clock := by
  cases r <;> rfl

theorem epoch_effect : (w.effect r).2.epoch = w.epoch := by
  cases r <;> rfl

end World

/-! ### Running alone -/

namespace World

theorem run_bind {α β : Type} (w : World) (p : Control α) (f : α → Control β) :
    w.run (p >>= f) = (w.run p).2.run (f (w.run p).1) := Program.run_bind _ p f w

theorem run_pure {α : Type} (w : World) (a : α) : w.run (pure a) = (a, w) := rfl

theorem run_now (w : World) : w.run Control.now = (w.clock, w) := rfl

theorem run_observe (w : World) (verb : Verb) (start : Nat) :
    w.run (Control.observe verb start) = ((), { w with observed := w.observed ++ [verb] }) := rfl

theorem run_record (w : World) (event : NodeEvent) :
    w.run (Control.record event) = ((), { w with events := w.events ++ [event] }) := rfl

theorem run_remember (w : World) (name : String) (r : Route) :
    w.run (Control.remember name r) = ((), { w with cache := w.cache.insertNew name r }) := rfl

/-- Alone, a program gets the lock at once. -/
theorem run_locked {α : Type} (w : World) (p : Control α) : w.run (Control.locked p) = w.run p := by
  let release : α → Control α := fun a => do
    Control.unlock
    return a
  have hrun : w.run (p >>= release) = (w.run p).2.run (release (w.run p).1) := run_bind w p release
  exact hrun

theorem run_delete (w : World) (destination : String) :
    (w.run (Protocol.delete destination)).1 = (w.gateway.delete destination).1 ∧
      (w.run (Protocol.delete destination)).2.gateway = (w.gateway.delete destination).2 :=
  ⟨rfl, rfl⟩

variable {w : World} {deadline : Nat} {r : Control.Request}

theorem replyBy_inTime (h : w.wait r = 0 ∨ w.clock + w.wait r ≤ deadline) :
    w.replyBy deadline r = (some (w.reply r).1, (w.reply r).2) := by
  unfold replyBy
  rw [if_pos h]

theorem replyBy_late (h : ¬(w.wait r = 0 ∨ w.clock + w.wait r ≤ deadline)) :
    w.replyBy deadline r = (none, (w.begin r).advanceTo deadline) := by
  unfold replyBy
  rw [if_neg h]

variable {α : Type} (next : Option (Control.Reply r) → Control α)

theorem run_askBy_inTime (h : w.wait r = 0 ∨ w.clock + w.wait r ≤ deadline) :
    w.run (.askBy deadline r next) = (w.reply r).2.run (next (some (w.reply r).1)) := by
  show (w.replyBy deadline r).2.run (next (w.replyBy deadline r).1) = _
  rw [replyBy_inTime h]

theorem run_askBy_late (h : ¬(w.wait r = 0 ∨ w.clock + w.wait r ≤ deadline)) :
    w.run (.askBy deadline r next) = ((w.begin r).advanceTo deadline).run (next none) := by
  show (w.replyBy deadline r).2.run (next (w.replyBy deadline r).1) = _
  rw [replyBy_late h]

end World

/-! ### The table and the stored nodes -/

namespace MemoryGateway

/-- A create fails and leaves the table, or the destination was free and has the new route. -/
theorem create_cases (g : MemoryGateway) (instanceId destination : String) :
    (∃ e, (g.create instanceId destination).1 = .error e) ∧
        (g.create instanceId destination).2.table = g.table ∨
      g.table.get? destination = none ∧
        (g.create instanceId destination).1 =
          .ok (if g.createReturnsNone then none else some (g.nextRoute instanceId destination)) ∧
        (g.create instanceId destination).2.table =
          g.table.insert destination (g.nextRoute instanceId destination) := by
  cases hf : g.failures.create with
  | cons e rest => simp [create, hf]
  | nil =>
    by_cases hrefused : destination ∈ g.refused
    · simp [create, hf, hrefused]
    · by_cases htaken : g.table.contains destination = true
      · simp [create, hf, hrefused, htaken]
      · have hfree : g.table.get? destination = none := by
          simpa [Table.contains] using htaken
        refine Or.inr ⟨hfree, ?_⟩
        simp [create, hf, hrefused, htaken, nextRoute]

theorem table_create (g : MemoryGateway) (instanceId destination : String) :
    (g.create instanceId destination).2.table = g.table ∨
      g.table.get? destination = none ∧
        (g.create instanceId destination).2.table =
          g.table.insert destination (g.nextRoute instanceId destination) := by
  rcases g.create_cases instanceId destination with ⟨-, hsame⟩ | ⟨hfree, -, hadded⟩
  · exact Or.inl hsame
  · exact Or.inr ⟨hfree, hadded⟩

theorem table_of_create_error {g : MemoryGateway} {instanceId destination : String} {e : RouteError}
    (h : (g.create instanceId destination).1 = .error e) :
    (g.create instanceId destination).2.table = g.table := by
  rcases g.create_cases instanceId destination with ⟨-, hsame⟩ | ⟨-, hok, -⟩
  · exact hsame
  · rw [hok] at h
    cases h

/-- Besides the table and the record of calls, a create only uses up its queued error. -/
theorem create_frame (g : MemoryGateway) (instanceId destination : String) :
    (g.create instanceId destination).2.failures =
        { g.failures with create := g.failures.create.tail } ∧
      (g.create instanceId destination).2.refused = g.refused ∧
      (g.create instanceId destination).2.deleted = g.deleted := by
  cases hf : g.failures.create with
  | cons e rest => simp [create, hf]
  | nil =>
    have hsame : g.failures = { g.failures with create := [].tail } := by rw [List.tail_nil, ← hf]
    simp only [create, hf]
    split
    · exact ⟨hsame, rfl, rfl⟩
    · split <;> exact ⟨hsame, rfl, rfl⟩

theorem find_eq_of_ok {g : MemoryGateway} {destination : String} {found : Option Route}
    (h : (g.find destination).1 = .ok found) : found = g.table.get? destination := by
  cases hf : g.failures.find with
  | cons e rest => simp [find, hf] at h
  | nil => simpa [find, hf] using h.symm

theorem table_find (g : MemoryGateway) (destination : String) :
    (g.find destination).2.table = g.table := by
  cases hf : g.failures.find <;> simp [find, hf]

theorem table_list (g : MemoryGateway) : g.list.2.table = g.table := by
  cases hf : g.failures.list <;> simp [list, hf]

theorem delete_cases (g : MemoryGateway) (destination : String) :
    (∃ e, (g.delete destination).1 = .error e) ∧ (g.delete destination).2.table = g.table ∨
      (g.delete destination).1 = .ok () ∧
        (g.delete destination).2.table = g.table.erase destination := by
  cases hf : g.failures.delete <;> simp [delete, hf]

theorem table_of_delete_error {g : MemoryGateway} {destination : String} {e : RouteError}
    (h : (g.delete destination).1 = .error e) : (g.delete destination).2.table = g.table := by
  rcases g.delete_cases destination with ⟨-, hsame⟩ | ⟨hok, -⟩
  · exact hsame
  · rw [hok] at h
    cases h

theorem deleted_delete (g : MemoryGateway) (destination : String) :
    (∃ e, (g.delete destination).1 = .error e) ∧ (g.delete destination).2.deleted = g.deleted ∨
      (g.delete destination).1 = .ok () ∧
        (g.delete destination).2.deleted = g.deleted ++ [destination] := by
  cases hf : g.failures.delete <;> simp [delete, hf]

theorem table_delete (g : MemoryGateway) (destination : String) :
    (g.delete destination).2.table = g.table ∧ (g.delete destination).1 ≠ .ok () ∨
      (g.delete destination).2.table = g.table.erase destination := by
  rcases g.delete_cases destination with ⟨⟨e, he⟩, hsame⟩ | ⟨-, herased⟩
  · exact Or.inl ⟨hsame, by simp [he]⟩
  · exact Or.inr herased

theorem list_eq_of_ok {g : MemoryGateway} {routes : List Route} (h : g.list.1 = .ok routes) :
    routes = g.table.values := by
  cases hf : g.failures.list with
  | cons e rest => simp [list, hf] at h
  | nil => simpa [list, hf, MemoryGateway.routes] using h.symm

theorem isDuplicate_duplicateError (g : MemoryGateway) (destination : String) :
    (g.duplicateError destination).isDuplicate = true := by
  have hoccurs : Search.occursIn "already exists" ("CIDR already exists for " ++ destination) =
      true := by
    refine Search.occurs_iff.2 ⟨"CIDR ".toList, (" for " ++ destination).toList, ?_⟩
    simp
  unfold duplicateError
  show (if g.duplicateAsMessage then _ else _ : RouteError).isDuplicate = true
  split
  · simp [RouteError.isDuplicate, RouteError.duplicateMarkers, hoccurs]
  · rfl

/-- A gateway that is filled with routes keeps each under its destination. -/
theorem keyedBy_ofRoutes (routes : List Route) :
    (ofRoutes routes).table.KeyedBy Route.destination := by
  suffices h : ∀ g : MemoryGateway, g.table.KeyedBy Route.destination →
      (routes.foldl insert g).table.KeyedBy Route.destination by
    refine h {} fun key r hr => ?_
    have hnone : (Table.empty : Table Route).get? key = some r := hr
    rw [Table.get?_empty] at hnone
    cases hnone
  induction routes with
  | nil => exact fun g hg => hg
  | cons r rest ih => exact fun g hg => ih (g.insert r) (hg.insert rfl)

end MemoryGateway

namespace NodeStore

variable {s : NodeStore}

theorem list_eq_of_ok {nodes : List Node} (h : s.list.1 = .ok nodes) : nodes = s.nodes.values := by
  cases hf : s.failures.list with
  | cons e rest => simp [list, hf] at h
  | nil => simpa [list, hf] using h.symm

theorem nodes_get (s : NodeStore) (name : String) : (s.get name).2.nodes = s.nodes := by
  cases hf : s.failures.get <;> simp [get, hf]

theorem nodes_list (s : NodeStore) : s.list.2.nodes = s.nodes := by
  cases hf : s.failures.list <;> simp [list, hf]

theorem get_eq_of_ok {name : String} {found : Option Node} (h : (s.get name).1 = .ok found) :
    found = s.nodes.get? name := by
  cases hf : s.failures.get with
  | cons e rest => simp [get, hf] at h
  | nil => simpa [get, hf] using h.symm

end NodeStore

namespace Control.Request

def isWrite : Control.Request → Bool
  | .createRoute _ _ => true
  | .deleteRoute _ => true
  | _ => false

/-- A call of the gateway. -/
def isGatewayCall : Control.Request → Bool
  | .createRoute _ _ | .findRoute _ | .listRoutes | .deleteRoute _ => true
  | _ => false

/-- A call of the gateway or of the store. -/
def isCall : Control.Request → Bool
  | .getNode _ | .listNodes | .patchNode _ _ _ => true
  | r => r.isGatewayCall

def created? : Control.Request → Option (String × String)
  | .createRoute i c => some (i, c)
  | _ => none

def deleted? : Control.Request → Option String
  | .deleteRoute c => some c
  | _ => none

def remembered? : Control.Request → Option String
  | .remember name _ => some name
  | _ => none

theorem created?_eq_some {r : Control.Request} {i c : String} :
    r.created? = some (i, c) ↔ r = .createRoute i c := by
  cases r <;> simp [created?]

theorem deleted?_eq_some {r : Control.Request} {c : String} :
    r.deleted? = some c ↔ r = .deleteRoute c := by
  cases r <;> simp [deleted?]

end Control.Request

def NodeEdit.KeepsNames (edit : NodeEdit) : Prop := ∀ now n, (edit now n).name = n.name

namespace World

structure Keyed (w : World) : Prop where
  routes : w.gateway.table.KeyedBy Route.destination
  nodes : w.store.nodes.KeyedBy Node.name

theorem table_effect {w : World} {r : Control.Request} (hr : r.isWrite = false) :
    (w.effect r).2.gateway.table = w.gateway.table := by
  cases r with
  | createRoute i c => cases hr
  | deleteRoute c => cases hr
  | findRoute c => exact w.gateway.table_find c
  | listRoutes => exact w.gateway.table_list
  | _ => rfl

theorem created_of_effect {w : World} {request : Control.Request} {destination : String} {r : Route}
    (hafter : (w.effect request).2.gateway.table.get? destination = some r)
    (hbefore : w.gateway.table.get? destination ≠ some r) :
    request = .createRoute r.instanceId destination := by
  cases request with
  | createRoute i c =>
    have hafter : (w.gateway.create i c).2.table.get? destination = some r := hafter
    rcases w.gateway.table_create i c with hsame | ⟨_, hinsert⟩
    · rw [hsame] at hafter
      exact absurd hafter hbefore
    · rw [hinsert, Table.get?_insert] at hafter
      split at hafter
      · next he =>
        cases hafter
        rw [he]
        rfl
      · exact absurd hafter hbefore
  | deleteRoute c =>
    have hafter : (w.gateway.delete c).2.table.get? destination = some r := hafter
    rcases w.gateway.table_delete c with ⟨hsame, _⟩ | herase
    · rw [hsame] at hafter
      exact absurd hafter hbefore
    · rw [herase, Table.get?_erase] at hafter
      split at hafter
      · cases hafter
      · exact absurd hafter hbefore
  | _ =>
    rw [table_effect (by rfl)] at hafter
    exact absurd hafter hbefore

/-- Only its deletion takes a route out of the table, or puts another one in its place. -/
theorem keeps_route {w : World} {q : Control.Request} {c : String} {r : Route}
    (hq : q ≠ .deleteRoute c) (hr : w.gateway.table.get? c = some r) :
    (w.effect q).2.gateway.table.get? c = some r := by
  cases q with
  | createRoute i c' =>
    show (w.gateway.create i c').2.table.get? c = some r
    rcases w.gateway.table_create i c' with hsame | ⟨hfree, hadded⟩
    · rw [hsame, hr]
    · rw [hadded, Table.get?_insert]
      split
      · next he =>
        rw [he, hr] at hfree
        cases hfree
      · exact hr
  | deleteRoute c' =>
    show (w.gateway.delete c').2.table.get? c = some r
    rcases w.gateway.table_delete c' with ⟨hsame, -⟩ | herased
    · rw [hsame, hr]
    · rw [herased, Table.get?_erase]
      split
      · next he => exact absurd (by rw [he]) hq
      · exact hr
  | _ =>
    rw [table_effect (by rfl)]
    exact hr

theorem routes_effect {w : World} (h : w.gateway.table.KeyedBy Route.destination)
    (r : Control.Request) : (w.effect r).2.gateway.table.KeyedBy Route.destination := by
  cases r with
  | createRoute i c =>
    rcases w.gateway.table_create i c with hsame | ⟨_, hinsert⟩
    · exact hsame.symm ▸ h
    · exact hinsert.symm ▸ h.insert rfl
  | deleteRoute c =>
    rcases w.gateway.table_delete c with ⟨hsame, _⟩ | herase
    · exact hsame.symm ▸ h
    · exact herase.symm ▸ h.erase c
  | _ =>
    rw [table_effect (by rfl)]
    exact h

theorem nodes_effect {w : World} {r : Control.Request}
    (hr : ∀ name edit scope, r ≠ .patchNode name edit scope) :
    (w.effect r).2.store.nodes = w.store.nodes := by
  cases r with
  | patchNode name edit scope => exact absurd rfl (hr name edit scope)
  | getNode name => exact w.store.nodes_get name
  | listNodes => exact w.store.nodes_list
  | _ => rfl

theorem get?_nodes_patch (w : World) (name : String) (edit : NodeEdit) (scope : PatchScope)
    (key : String) :
    (w.effect (.patchNode name edit scope)).2.store.nodes.get? key = w.store.nodes.get? key ∨
      key = name ∧ ∃ n, w.store.nodes.get? name = some n ∧
        (w.effect (.patchNode name edit scope)).2.store.nodes.get? key =
          some (edit w.date n) := by
  show (w.store.patch name (edit w.date)).2.nodes.get? key = _ ∨ key = name ∧ ∃ n, _ ∧
    (w.store.patch name (edit w.date)).2.nodes.get? key = _
  cases hf : w.store.failures.patch with
  | cons e rest => simp [NodeStore.patch, hf]
  | nil =>
    cases hn : w.store.nodes.get? name with
    | none => simp [NodeStore.patch, hf, hn]
    | some n =>
      by_cases he : name = key
      · subst he
        refine Or.inr ⟨rfl, n, rfl, ?_⟩
        simp [NodeStore.patch, hf, hn]
      · apply Or.inl
        simp [NodeStore.patch, hf, hn, Table.get?_insert, he]

theorem get?_nodes_effect {w : World} {r : Control.Request} {name : String}
    (hr : ∀ edit scope, r ≠ .patchNode name edit scope) :
    (w.effect r).2.store.nodes.get? name = w.store.nodes.get? name := by
  cases r with
  | patchNode other edit scope =>
    rcases get?_nodes_patch w other edit scope name with hsame | ⟨rfl, -⟩
    · exact hsame
    · exact absurd rfl (hr edit scope)
  | _ => rw [nodes_effect (by simp)]

theorem Keyed.effect {w : World} (h : w.Keyed) {r : Control.Request}
    (hr : ∀ name edit scope, r = .patchNode name edit scope → edit.KeepsNames) :
    (w.effect r).2.Keyed := by
  refine ⟨routes_effect h.routes r, ?_⟩
  cases r with
  | patchNode name edit scope =>
    intro key n hn
    rcases get?_nodes_patch w name edit scope key with hsame | ⟨rfl, m, hm, hpatched⟩
    · rw [hsame] at hn
      exact h.nodes key n hn
    · rw [hpatched] at hn
      cases hn
      rw [hr key edit scope rfl w.date m]
      exact h.nodes key m hm
  | _ =>
    rw [nodes_effect (by simp)]
    exact h.nodes

end World

end PodRoutes
