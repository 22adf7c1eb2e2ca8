import PodRoutes.Proofs.Calm.Turn
import PodRoutes.Proofs.Protocol.Timeless
import PodRoutes.Proofs.World.Prompt

/-!
# Ensuring a route with a list at hand

A list of routes at hand saves a lookup and changes nothing else. A route that it shows is the one
in the table; for one that it misses, the create is refused and the lookup after the refusal shows
it. Either way the table decides, as `Scene.ensured` says (`Protocol.list_is_only_a_shortcut`).
-/

namespace PodRoutes

open Control

namespace Scene

/-- What ensuring a route comes to, told from the table: the route that is there, if it is the
instance's own, or else a new one. -/
def ensured (s : Scene) (instanceId destination : String) : Outcome Route × Table Route :=
  if destination = "" then (.error (.lookup destination (.invalidCidr .emptyQuery)), s.table)
  else match s.table.get? destination with
    | some r =>
      (if r.isOwnedBy instanceId then .ok r
        else .error (.ownedByOther destination r.instanceId instanceId), s.table)
    | none =>
      (.ok (s.nextRoute instanceId destination),
        s.table.insert destination (s.nextRoute instanceId destination))

variable {s : Scene} {i c : String} {r : Route}

theorem ensured_of_taken (hc : c ≠ "") (hr : s.table.get? c = some r) :
    s.ensured i c =
      (if r.isOwnedBy i then .ok r else .error (.ownedByOther c r.instanceId i), s.table) := by
  rw [ensured, if_neg hc, hr]

theorem ensured_of_free (hc : c ≠ "") (hfree : s.table.get? c = none) :
    s.ensured i c = (.ok (s.nextRoute i c), s.table.insert c (s.nextRoute i c)) := by
  rw [ensured, if_neg hc, hfree]

/-- A call that ends in this scene as the table has it. -/
def Ensures (s : Scene) (b : Backoff) (i c : String) (atHand : Option (List Route)) : Prop :=
  ∃ x t, Comes (Protocol.ensure b i c atHand) s x t ∧
    x.map EnsuredRoute.route = (s.ensured i c).1 ∧ t.table = (s.ensured i c).2

end Scene

/-! ### The lookup -/

/-- A route that a list out of the table shows is the one in the table. -/
theorem Table.get?_of_find? {table : Table Route} {listed : List Route} {c : String} {r : Route}
    (hkeyed : table.KeyedBy Route.destination) (hlisted : ∀ r ∈ listed, r ∈ table.values)
    (hr : Route.find? listed c = some r) : table.get? c = some r := by
  obtain ⟨key, hkey⟩ := mem_values_iff.1 (hlisted r (Route.mem_of_find? hr))
  rwa [← hkeyed key r hkey, Route.destination_of_find? hr] at hkey

namespace Comes

variable {s : Scene} {b : Backoff} {i c : String} {atHand : Option (List Route)}
  {listed : List Route}

/-- A list out of the table shows what the table has, or misses it. -/
theorem find_listed (hc : c ≠ "") (hs : s.table.KeyedBy Route.destination)
    (hlisted : ∀ r ∈ listed, r ∈ s.table.values) :
    Comes (Protocol.find c (some listed)) s (.ok (s.table.get? c)) s ∨
      Comes (Protocol.find c (some listed)) s (.ok none) s := by
  cases listed with
  | nil => exact Or.inl (find_table hc rfl s)
  | cons q rest =>
    have hfind := find_atHand hc q rest s
    cases hr : Route.find? (q :: rest) c with
    | none =>
      rw [hr] at hfind
      exact Or.inr hfind
    | some r =>
      rw [hr, ← Table.get?_of_find? hs hlisted hr] at hfind
      exact Or.inl hfind

/-! ### The call -/

/-- Whether the lookup shows the route in the table or misses it, the table decides. -/
theorem ensures_of_find (hb : 0 < b.steps) (hc : c ≠ "") (hs : s.table.KeyedBy Route.destination)
    (hfind : Comes (Protocol.find c atHand) s (.ok (s.table.get? c)) s ∨
      Comes (Protocol.find c atHand) s (.ok none) s) : s.Ensures b i c atHand := by
  cases hr : s.table.get? c with
  | none =>
    have hmissed : Comes (Protocol.find c atHand) s (.ok none) s := by
      rw [hr] at hfind
      exact hfind.elim id id
    have hfree : s.table.contains c = false := by
      rw [Table.contains, hr]
      rfl
    rw [Scene.Ensures, Scene.ensured_of_free hc hr]
    exact ⟨_, _, ensure_of_missed hmissed (createHeld hb hfree i), rfl, rfl⟩
  | some r =>
    rw [Scene.Ensures, Scene.ensured_of_taken hc hr]
    rcases hfind with hshown | hmissed
    · rw [hr] at hshown
      refine ⟨_, _, ensure_of_shown hshown (hs c r hr) i, ?_, rfl⟩
      split <;> rfl
    · refine ⟨_, _, ensure_of_missed hmissed (createHeld_of_taken hb hr i), ?_, rfl⟩
      dsimp only
      split <;> rfl

theorem ensures_of_empty (s : Scene) : s.Ensures b i "" atHand :=
  ⟨_, s, locked (done _ _), rfl, rfl⟩

end Comes

/-! ### The world -/

namespace World

variable {w : World} {b : Backoff} {i c : String}

/-- What the gateway has decides how the call ends, however long its calls take. -/
theorem run_ensure {atHand : Option (List Route)} (hf : w.gateway.failures = {})
    (hc : c ∉ w.gateway.refused)
    (hensures : ∀ s : Scene, s.table = w.gateway.table → s.Ensures b i c atHand) :
    (w.run (Protocol.ensure b i c atHand)).1.map EnsuredRoute.route = (w.scene.ensured i c).1 ∧
      (w.run (Protocol.ensure b i c atHand)).2.gateway.table = (w.scene.ensured i c).2 := by
  -- the same gateway in a world without latency
  let v : World := { epoch := w.epoch, gateway := w.gateway }
  have hprompt : v.Prompt := by
    refine ⟨rfl, ?_, rfl⟩
    show w.gateway.failures = { delete := w.gateway.failures.delete }
    rw [hf]
  have honly : Only (Request.Unrefused w.gateway.refused) (Protocol.ensure b i c atHand) := by
    refine Protocol.only_ensure.mono fun r hr => ?_
    cases r with
    | createRoute i' c' =>
      obtain ⟨-, rfl⟩ := hr
      exact hc
    | deleteRoute c' => exact hr
    | _ => trivial
  obtain ⟨x, t, hrun, hx, ht⟩ := hensures v.scene rfl
  obtain ⟨hresult, hscene⟩ := hrun.run_prompt honly hprompt
  obtain ⟨body, hbody, hagrees⟩ := Protocol.exists_ensure_locked b i c atHand
  obtain ⟨hsame, hgateway⟩ := hagrees.run_congr (v := w) (w := v) rfl
  rw [hbody, run_locked] at hresult hscene ⊢
  refine ⟨?_, ?_⟩
  · rw [hsame, hresult]
    exact hx
  · rw [hgateway]
    have htable := congrArg Scene.table hscene
    exact htable.trans ht

end World

/-- Two calls that ended alike: with the same route or the same error, and with the same table. -/
structure SameEnd (first second : Outcome EnsuredRoute × World) : Prop where
  result : first.1.map EnsuredRoute.route = second.1.map EnsuredRoute.route
  table : first.2.gateway.table = second.2.gateway.table

/-- A list out of the table saves a lookup and changes nothing else, whatever it misses and repeats:
with it and without it the call ends as the table has it. -/
theorem Protocol.list_is_only_a_shortcut (w : World) (b : Backoff) (i c : String)
    (listed : List Route) (hf : w.gateway.failures = {}) (hc : c ∉ w.gateway.refused)
    (hkeyed : w.gateway.table.KeyedBy Route.destination) (hb : 0 < b.steps)
    (hlisted : ∀ r ∈ listed, r ∈ w.gateway.table.values) :
    SameEnd (w.run (ensure b i c (some listed))) (w.run (ensure b i c none)) ∧
      (w.run (ensure b i c none)).1.map EnsuredRoute.route = (w.scene.ensured i c).1 ∧
      (w.run (ensure b i c none)).2.gateway.table = (w.scene.ensured i c).2 := by
  have hboth : ∀ atHand, atHand = none ∨ atHand = some listed → ∀ s : Scene,
      s.table = w.gateway.table → s.Ensures b i c atHand := by
    intro atHand hatHand s hs
    by_cases hempty : c = ""
    · subst hempty
      exact Comes.ensures_of_empty s
    · rw [← hs] at hkeyed hlisted
      refine Comes.ensures_of_find hb hempty hkeyed ?_
      rcases hatHand with rfl | rfl
      · exact Or.inl (Comes.find_table hempty rfl s)
      · exact Comes.find_listed hempty hkeyed hlisted
  obtain ⟨hx, hx'⟩ := World.run_ensure hf hc (hboth _ (Or.inr rfl))
  obtain ⟨hy, hy'⟩ := World.run_ensure hf hc (hboth _ (Or.inl rfl))
  exact ⟨⟨hx.trans hy.symm, hx'.trans hy'.symm⟩, hy, hy'⟩

/-! ### A list that misses the route -/

namespace Protocol

def knownRoute : Route := Route.named "r-1" "10.244.1.0/24" "i-1"

def otherRoute : Route := Route.named "r-2" "10.244.2.0/24" "i-2"

/-- A gateway with two routes that says in a plain message that a destination is taken. -/
def twoRoutes : World where
  epoch := ⟨0, 0⟩
  gateway := { MemoryGateway.ofRoutes [knownRoute, otherRoute] with duplicateAsMessage := true }

/-- The list shows only the other route, twice; the create is refused and the route adopted. -/
theorem missed_route_is_adopted :
    SameEnd (twoRoutes.run (ensure .standard "i-1" "10.244.1.0/24" (some [otherRoute, otherRoute])))
        (twoRoutes.run (ensure .standard "i-1" "10.244.1.0/24" none)) ∧
      (twoRoutes.run (ensure .standard "i-1" "10.244.1.0/24" none)).1.map EnsuredRoute.route =
        .ok knownRoute := by
  have hkeyed : twoRoutes.gateway.table.KeyedBy Route.destination :=
    MemoryGateway.keyedBy_ofRoutes [knownRoute, otherRoute]
  obtain ⟨hsame, hresult, -⟩ := list_is_only_a_shortcut twoRoutes .standard "i-1" "10.244.1.0/24"
    [otherRoute, otherRoute] rfl (by decide) hkeyed (by decide) (by decide)
  refine ⟨hsame, ?_⟩
  rw [hresult]
  rfl

end Protocol

end PodRoutes
