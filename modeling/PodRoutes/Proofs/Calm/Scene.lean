import PodRoutes.Control.Deadline
import PodRoutes.Proofs.World.Effect

/-!
# Calm surroundings

In a calm world no call fails and none takes time. A program that never pauses then sees no more of
its world than a scene: the table, the cache, the stored nodes and the clock, with the writes it has
asked for. `Comes p s a t` says that `p`, started in the scene `s`, ends with `a` in the scene `t`;
`Comes.run` carries this over to the world, and `Comes.within` says that deadlines do not matter.
-/

namespace PodRoutes

/-! ### Writes -/

def GatewayCall.isWrite : GatewayCall → Bool
  | .create _ _ => true
  | .delete _ => true
  | _ => false

def NodeCall.patched? : NodeCall → Option String
  | .patch name _ => some name
  | _ => none

def World.writes (w : World) : List GatewayCall :=
  (w.gatewayCalls.map Prod.snd).filter GatewayCall.isWrite

def World.patches (w : World) : List String := w.nodeCalls.filterMap NodeCall.patched?

/-! ### Scenes -/

/-- What a program sees of a calm world. -/
structure Scene where
  clock : Nat
  epoch : Instant
  table : Table Route
  made : Nat
  duplicateAsMessage : Bool
  createReturnsNone : Bool
  cache : RouteCache
  nodes : Table Node
  writes : List GatewayCall
  patches : List String

def World.scene (w : World) : Scene where
  clock := w.clock
  epoch := w.epoch
  table := w.gateway.table
  made := w.gateway.made
  duplicateAsMessage := w.gateway.duplicateAsMessage
  createReturnsNone := w.gateway.createReturnsNone
  cache := w.cache
  nodes := w.store.nodes
  writes := w.writes
  patches := w.patches

/-- No call fails and none takes time. -/
structure World.Calm (w : World) : Prop extends w.Faultless where
  latency : w.latency = {}

namespace Scene

def date (s : Scene) : Instant := s.epoch.addMillis s.clock

def nextRoute (s : Scene) (instanceId destination : String) : Route :=
  Route.named ("route-" ++ Decimal.text (s.made + 1)) destination instanceId

def refusal (s : Scene) (destination : String) : RouteError :=
  let message := "CIDR already exists for " ++ destination
  if s.duplicateAsMessage then .gateway message else .duplicateDestination destination message

def created (s : Scene) (instanceId destination : String) : Scene :=
  { s with
    table := s.table.insert destination (s.nextRoute instanceId destination)
    made := s.made + 1 }

def patched (s : Scene) (name : String) (edit : NodeEdit) : Scene :=
  match s.nodes.get? name with
  | none => s
  | some n => { s with nodes := s.nodes.insert name (edit s.date n) }

def begin (s : Scene) : Control.Request → Scene
  | .createRoute i c => { s with writes := s.writes ++ [.create i c] }
  | .deleteRoute c => { s with writes := s.writes ++ [.delete c] }
  | .patchNode name _ _ => { s with patches := s.patches ++ [name] }
  | _ => s

def effect (s : Scene) : (r : Control.Request) → Control.Reply r × Scene
  | .createRoute i c =>
    if s.table.contains c then (.error (s.refusal c), s)
    else (.ok (if s.createReturnsNone then none else some (s.nextRoute i c)), s.created i c)
  | .findRoute c => (.ok (s.table.get? c), s)
  | .listRoutes => (.ok s.table.values, s)
  | .deleteRoute c => (.ok (), { s with table := s.table.erase c })
  | .getNode name => (.ok (s.nodes.get? name), s)
  | .listNodes => (.ok s.nodes.values, s)
  | .patchNode name edit _ =>
    (if s.nodes.contains name then .ok () else .error (.nodeNotFound name), s.patched name edit)
  | .record _ => ((), s)
  | .cachedRoute name => (s.cache.get? name, s)
  | .remember name r => ((), { s with cache := (s.cache.setIfAbsent name r).1 })
  | .forget name => ((), { s with cache := (s.cache.remove name).1 })
  | .evict c => ((), { s with cache := (s.cache.evict c).1 })
  | .observe _ _ => ((), s)
  | .now => (s.clock, s)
  | .lock => ((), s)
  | .unlock => ((), s)
  | .pause _ => ((), s)
  | .draw => ((0 : Rat), s)

def reply (s : Scene) (r : Control.Request) : Control.Reply r × Scene := (s.begin r).effect r

end Scene

def Control.Request.isPrompt : Control.Request → Bool
  | .pause _ => false
  | .draw => false
  | _ => true

/-- The program ends with a result in a scene, and never pauses. -/
def Comes : Control α → Scene → α → Scene → Prop
  | .done a, s, b, t => a = b ∧ s = t
  | .ask r k, s, b, t => r.isPrompt = true ∧ Comes (k (s.reply r).1) (s.reply r).2 b t
  | .askBy _ r k, s, b, t =>
    r.isPrompt = true ∧ Comes (k (some (s.reply r).1)) (s.reply r).2 b t

/-! ### Worlds and scenes -/

namespace World

theorem wait_eq_zero {w : World} (hw : w.latency = {}) {r : Control.Request}
    (hr : r.isPrompt = true) : w.wait r = 0 := by
  cases r <;> simp_all [wait, Control.Request.isPrompt]

theorem scene_begin (w : World) (r : Control.Request) :
    ((w.begin r).advance 0).scene = w.scene.begin r := by
  cases r <;>
  simp [scene, begin, advance, noteGateway, noteNode, writes, patches, Scene.begin,
    GatewayCall.isWrite, NodeCall.patched?]

theorem latency_effect (w : World) (r : Control.Request) : (w.effect r).2.latency = w.latency := by
  cases r <;> rfl

theorem Calm.begin {w : World} (hw : w.Calm) (r : Control.Request) (millis : Nat) :
    ((w.begin r).advance millis).Calm := by
  obtain ⟨⟨hf, href, hs⟩, hl⟩ := hw
  cases r <;> exact ⟨⟨hf, href, hs⟩, hl⟩

theorem Calm.effect {w : World} (hw : w.Calm) (r : Control.Request) : (w.effect r).2.Calm :=
  ⟨hw.toFaultless.effect r, (latency_effect w r).trans hw.latency⟩

theorem effect_scene {w : World} (hw : w.Calm) {r : Control.Request} (hr : r.isPrompt = true) :
    (w.effect r).1 = (w.scene.effect r).1 ∧ (w.effect r).2.scene = (w.scene.effect r).2 := by
  obtain ⟨⟨hf, href, hs⟩, hl⟩ := hw
  cases r with
  | createRoute i c =>
    by_cases hc : w.gateway.table.contains c = true
    · have hc' : w.scene.table.contains c = true := hc
      simp only [World.effect, MemoryGateway.create_of_contains hf href hc, Scene.effect, hc',
        if_true]
      exact ⟨rfl, rfl⟩
    · rw [Bool.not_eq_true] at hc
      have hc' : w.scene.table.contains c = false := hc
      simp only [World.effect, MemoryGateway.create_of_free hf href hc, Scene.effect, hc',
        Bool.false_eq_true, if_false]
      exact ⟨rfl, rfl⟩
  | findRoute c =>
    simp only [World.effect, MemoryGateway.find_of_faultless hf]
    exact ⟨rfl, rfl⟩
  | listRoutes =>
    simp only [World.effect, MemoryGateway.list_of_faultless hf]
    exact ⟨rfl, rfl⟩
  | deleteRoute c =>
    simp only [World.effect, MemoryGateway.delete_of_faultless hf]
    exact ⟨rfl, rfl⟩
  | getNode name =>
    simp only [World.effect, NodeStore.get, hs]
    exact ⟨rfl, rfl⟩
  | listNodes =>
    simp only [World.effect, NodeStore.list, hs]
    exact ⟨rfl, rfl⟩
  | patchNode name edit scope =>
    have hscene : w.scene.nodes = w.store.nodes := rfl
    cases hn : w.store.nodes.get? name with
    | none =>
      simp only [World.effect, NodeStore.patch, hs, hn, Scene.effect, Scene.patched, hscene,
        Table.contains, Option.isSome_none, Bool.false_eq_true]
      exact ⟨rfl, trivial⟩
    | some n =>
      simp only [World.effect, NodeStore.patch, hs, hn, Scene.effect, Scene.patched, hscene,
        Table.contains, Option.isSome_some]
      exact ⟨rfl, rfl⟩
  | pause m => cases hr
  | draw => cases hr
  | _ => exact ⟨rfl, rfl⟩

theorem reply_scene {w : World} (hw : w.Calm) {r : Control.Request} (hr : r.isPrompt = true) :
    (w.reply r).1 = (w.scene.reply r).1 ∧ (w.reply r).2.scene = (w.scene.reply r).2 ∧
      (w.reply r).2.Calm := by
  have hbegin := hw.begin r 0
  have heffect := effect_scene hbegin hr
  rw [scene_begin] at heffect
  rw [reply, wait_eq_zero hw.latency hr]
  exact ⟨heffect.1, heffect.2, hbegin.effect r⟩

theorem replyBy_of_prompt {w : World} (hw : w.Calm) {r : Control.Request}
    (hr : r.isPrompt = true) (deadline : Nat) :
    w.replyBy deadline r = (some (w.reply r).1, (w.reply r).2) :=
  replyBy_inTime (Or.inl (wait_eq_zero hw.latency hr))

end World

/-! ### Programs in scenes -/

namespace Comes

variable {α β : Type} {s t u : Scene} {a : α} {b : β}

theorem done (a : α) (s : Scene) : Comes (.done a) s a s := ⟨rfl, rfl⟩

theorem run {p : Control α} {w : World} (h : Comes p w.scene a t) (hw : w.Calm) :
    (w.run p).1 = a ∧ (w.run p).2.scene = t ∧ (w.run p).2.Calm := by
  induction p generalizing w with
  | done b =>
    obtain ⟨rfl, rfl⟩ := h
    exact ⟨rfl, rfl, hw⟩
  | ask r k ih =>
    obtain ⟨hr, h⟩ := h
    obtain ⟨hx, hs, hc⟩ := World.reply_scene hw hr
    rw [← hx, ← hs] at h
    exact ih _ h hc
  | askBy d r k ih =>
    obtain ⟨hr, h⟩ := h
    obtain ⟨hx, hs, hc⟩ := World.reply_scene hw hr
    rw [← hx, ← hs] at h
    have hreply : World.handler.replyBy d r w = (some (w.reply r).1, (w.reply r).2) :=
      World.replyBy_of_prompt hw hr d
    rw [World.run, Program.run_askBy, hreply]
    exact ih _ h hc

theorem bind {p : Control α} {f : α → Control β} (hp : Comes p s a t) (hf : Comes (f a) t b u) :
    Comes (p >>= f) s b u := by
  induction p generalizing s with
  | done x =>
    obtain ⟨rfl, rfl⟩ := hp
    exact hf
  | ask r k ih => exact ⟨hp.1, ih _ hp.2⟩
  | askBy d r k ih => exact ⟨hp.1, ih _ hp.2⟩

theorem bounded {p : Control α} (h : Comes p s a t) (deadline : Nat) (held : Bool) :
    Comes (Control.bounded deadline held p) s (some a) t := by
  induction p generalizing s held with
  | done x =>
    obtain ⟨rfl, rfl⟩ := h
    exact done _ _
  | ask r k ih =>
    rw [Control.bounded]
    exact ⟨h.1, ih _ h.2 _⟩
  | askBy d r k ih =>
    rw [Control.bounded]
    split
    · exact ⟨h.1, ih _ h.2 _⟩
    · exact ⟨h.1, ih _ h.2 _⟩

theorem within {p : Control α} (h : Comes p s a t) (limit : Nat) :
    Comes (Control.within limit p) s (some a) t :=
  ⟨rfl, h.bounded _ _⟩

theorem locked {p : Control α} (h : Comes p s a t) : Comes (Control.locked p) s a t :=
  ⟨rfl, h.bind ⟨rfl, done _ _⟩⟩

end Comes

end PodRoutes
