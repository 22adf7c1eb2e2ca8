import PodRoutes.Proofs.Cloud.Ids
import PodRoutes.Proofs.Cloud.InMemory
import PodRoutes.Proofs.Network.Disjoint
import PodRoutes.Proofs.Surroundings.Sheltered
import PodRoutes.Proofs.Surroundings.Together
import PodRoutes.Proofs.Surroundings.Truthful

/-!
# The default route

The controller over the cloud client. A listing hides the default route, a look for one destination
does not. So the default route is left alone as long as no node is shown whose pod network has
length zero (`default_route_is_left`), and with such a node it is cached and then deleted
(`Sample.default_route_is_deleted`).
-/

namespace PodRoutes

open Control

/-! ### Caches without a destination -/

namespace RouteCache

def Avoids (c : RouteCache) (d : String) : Prop :=
  ∀ name r, c.get? name = some r → r.destination ≠ d

namespace Avoids

variable {c : RouteCache} {d : String}

theorem empty (d : String) : Avoids Table.empty d := by
  intro name r hr
  rw [Table.get?_empty] at hr
  cases hr

theorem filter (h : c.Avoids d) (p : String → Route → Bool) : Avoids (c.filter p) d := by
  intro name r hr
  rw [Table.get?_filter, Option.filter_eq_some_iff] at hr
  exact h name r hr.1

theorem insertNew {r : Route} (h : c.Avoids d) (hr : r.destination ≠ d) (name : String) :
    Avoids (c.insertNew name r) d := by
  intro name' r' hr'
  rw [Table.get?_insertNew] at hr'
  split at hr'
  · cases hget : c.get? name with
    | none =>
      rw [hget] at hr'
      cases hr'
      exact hr
    | some known =>
      rw [hget] at hr'
      cases hr'
      exact h name _ hget
  · exact h name' r' hr'

end Avoids

end RouteCache

/-! ### Nodes in a network of length zero -/

theorem Network.text_default : (⟨⟨0, by decide⟩, 0, by decide⟩ : Network).text = "0.0.0.0/0" := by
  decide

theorem Node.DueTo.length_eq_zero {n : Node} (h : n.DueTo Cloud.Client.defaultRoute) :
    ∃ i network, n.due? = some (i, network) ∧ network.length = 0 := by
  obtain ⟨i, network, hdue, htext⟩ := h
  obtain rfl := Network.text_injective (htext.trans Network.text_default.symm)
  exact ⟨i, _, hdue, rfl⟩

def Control.Request.usesCache : Request → Bool
  | .cachedRoute _ | .remember _ _ | .forget _ | .evict _ => true
  | _ => false

namespace Cloud

open VpcApi (Serves LastingIds TakesAway)

/-- What the client does for a request of the controller. -/
def Client.serve? (c : Client) : (r : Request) → Option (Web (Reply r))
  | .createRoute instanceId destination => some (c.createRoute instanceId destination)
  | .findRoute destination => some (c.findRoute destination)
  | .listRoutes => some c.listRoutes
  | .deleteRoute destination => some (c.deleteRoute destination)
  | _ => none

/-- The cache of the controller, and the API behind its client with all turns of the client. -/
structure Site where
  api : VpcApi
  cache : RouteCache := Table.empty
  sent : List (Web.Turn VpcApi) := []

namespace Site

/-- The client asks the API, whose ids last, the cache does as it is told, and nodes, clock and lock
do anything. A request that is given up may leave the client anywhere in its run. -/
inductive Answers (c : Client) (S : Web.Service VpcApi) (D : VpcApi → VpcApi → Prop) :
    Surroundings Site
  | served {r : Request} {p : Web (Reply r)} {s : Site} {a : Reply r} {t : List (Web.Turn VpcApi)}
      {api : VpcApi} (client : c.serve? r = some p) (run : Web.Ends S D p s.api t a api)
      (ids : LastingIds (s.sent ++ t)) :
      Answers c S D r s (some a) { s with api, sent := s.sent ++ t }
  | givenUp {r : Request} {p : Web (Reply r)} {s : Site} {t : List (Web.Turn VpcApi)}
      {api : VpcApi} (client : c.serve? r = some p) (run : Web.Begins S D p s.api t api)
      (ids : LastingIds (s.sent ++ t)) :
      Answers c S D r s none { s with api, sent := s.sent ++ t }
  | cached (name : String) (s : Site) :
      Answers c S D (.cachedRoute name) s (some (s.cache.get? name)) s
  | remembered (name : String) (r : Route) (s : Site) :
      Answers c S D (.remember name r) s (some ())
        { s with cache := (s.cache.setIfAbsent name r).1 }
  | forgot (name : String) (s : Site) :
      Answers c S D (.forget name) s (some ()) { s with cache := (s.cache.remove name).1 }
  | evicted (destination : String) (s : Site) :
      Answers c S D (.evict destination) s (some ())
        { s with cache := (s.cache.evict destination).1 }
  | other (r : Request) (x : Option (Reply r)) (s : Site) (client : c.serve? r = none)
      (cache : r.usesCache = false) : Answers c S D r s x s

/-- The default route was not taken away, and no node's route is the default route. -/
structure Clear (u : Web.Url) (s : Site) : Prop where
  cache : s.cache.Avoids Client.defaultRoute
  sent : ∀ turn ∈ s.sent, ¬TakesAway u Client.defaultRoute turn

end Site

section

variable {c : Client} {u : Web.Url} {lag : Nat} {D : VpcApi → VpcApi → Prop}

namespace Client

variable {s s' : VpcApi} {t : List (Web.Turn VpcApi)} {r : Request} {p : Web (Reply r)} {d : String}

/-- Only a request about a destination takes a route to it away. -/
theorem not_takesAway (hu : Web.Url.parse c.config.endpoint = .ok u) (hp : c.serve? r = some p)
    (hr : r.Aloof d) (h : Web.Begins (Serves u lag) D p s t s') (hids : LastingIds t) :
    ∀ turn ∈ t, ¬TakesAway u d turn := by
  intro turn hturn htakes
  cases r with
  | createRoute i d' =>
    obtain rfl := Option.some.inj hp
    exact (h.asks (asks_createRoute hu _ _) turn hturn).not_takesAway htakes
  | findRoute d' =>
    obtain rfl := Option.some.inj hp
    exact (h.asks (asks_findRoute hu _) turn hturn).not_takesAway htakes
  | listRoutes =>
    obtain rfl := Option.some.inj hp
    exact (h.asks (asks_listRoutes hu) turn hturn).not_takesAway htakes
  | deleteRoute d' =>
    obtain rfl := Option.some.inj hp
    exact hr (takesAway_deleteRoute hu h hids hturn htakes).symm
  | _ => cases hp

/-- The default route is shown only to a request about it. -/
theorem shows_no_default {a : Reply r} (hu : Web.Url.parse c.config.endpoint = .ok u)
    (hp : c.serve? r = some p) (hr : r.Aloof defaultRoute)
    (h : Web.Ends (Serves u lag) D p s t a s') (hids : LastingIds t) :
    ∀ shown ∈ Exchange.routes ⟨r, some a⟩, shown.destination ≠ defaultRoute := by
  intro shown hshown
  cases r with
  | createRoute i d =>
    obtain rfl := Option.some.inj hp
    rcases a with e | _ | created
    · cases hshown
    · cases hshown
    · obtain rfl := List.mem_singleton.1 hshown
      rwa [createRoute_shows hu h hids]
  | findRoute d =>
    obtain rfl := Option.some.inj hp
    rcases a with e | _ | found
    · cases hshown
    · cases hshown
    · obtain rfl := List.mem_singleton.1 hshown
      obtain ⟨-, -, e, -, hd, rfl⟩ := findRoute_shows hu h
      rwa [← hd] at hr
  | listRoutes =>
    obtain rfl := Option.some.inj hp
    cases a with
    | error e => cases hshown
    | ok routes => exact listRoutes_hides h shown hshown
  | deleteRoute d => cases hshown
  | _ => cases hp

theorem routes_of_serve?_none {x : Option (Reply r)} (hp : c.serve? r = none)
    (hcache : r.usesCache = false) : Exchange.routes ⟨r, x⟩ = [] := by
  cases r with
  | createRoute | findRoute | listRoutes | deleteRoute => cases hp
  | cachedRoute | remember | forget | evict => cases hcache
  | _ => cases x <;> rfl

end Client

/-! ### What a step keeps -/

namespace Site

variable {s s' : Site} {r : Request} {x : Option (Reply r)}

theorem Clear.answers (hu : Web.Url.parse c.config.endpoint = .ok u) (hs : s.Clear u)
    (hr : r.Aloof Client.defaultRoute) (h : Answers c (Serves u lag) D r s x s') :
    s'.Clear u ∧ ∀ shown ∈ Exchange.routes ⟨r, x⟩, shown.destination ≠ Client.defaultRoute := by
  cases h with
  | served client run ids =>
    have hturns := Client.not_takesAway hu client hr run.begins ids.of_append
    exact ⟨⟨hs.cache, List.forall_mem_append.2 ⟨hs.sent, hturns⟩⟩,
      Client.shows_no_default hu client hr run ids.of_append⟩
  | givenUp client run ids =>
    have hturns := Client.not_takesAway hu client hr run ids.of_append
    refine ⟨⟨hs.cache, List.forall_mem_append.2 ⟨hs.sent, hturns⟩⟩, ?_⟩
    cases r <;> exact fun _ h => absurd h List.not_mem_nil
  | cached name =>
    refine ⟨hs, fun shown hshown => ?_⟩
    cases hget : s.cache.get? name with
    | none =>
      rw [hget] at hshown
      cases hshown
    | some known =>
      rw [hget] at hshown
      obtain rfl := List.mem_singleton.1 hshown
      exact hs.cache name _ hget
  | remembered name known =>
    exact ⟨⟨hs.cache.insertNew hr name, hs.sent⟩, fun _ h => absurd h List.not_mem_nil⟩
  | forgot name => exact ⟨⟨hs.cache.filter _, hs.sent⟩, fun _ h => absurd h List.not_mem_nil⟩
  | evicted d => exact ⟨⟨hs.cache.filter _, hs.sent⟩, fun _ h => absurd h List.not_mem_nil⟩
  | other r x s client cache =>
    rw [Client.routes_of_serve?_none client cache]
    exact ⟨hs, fun _ h => absurd h List.not_mem_nil⟩

/-! ### Two attempts -/

variable {S : Web.Service VpcApi} {b : Backoff} {t : List (Web.Turn VpcApi)} {api : VpcApi}

theorem updates (n : Node) (s : Site) :
    ∃ g, Ends (Answers c S D) (Reconcile.updateCondition n true) s g (.ok ()) s ∧
      ∀ x ∈ g, x.nodes = [] := by
  have hpatch : Answers c S D (.patchNode n.name (Node.setNetworkCondition true) .status) s
      (some (.ok ())) s := .other _ _ s rfl rfl
  rw [Reconcile.updateCondition]
  split
  · exact ⟨[], .done _ _, by simp⟩
  · exact ⟨_, .askThen hpatch (.done _ _), by simp [Exchange.nodes]⟩

theorem ensure_finds {i : String} {network : Network} {known : Route}
    (hname : known.destination = network.text) (howner : known.instanceId = i)
    (run : Web.Ends S D (c.findRoute network.text) s.api t (.ok (some known)) api)
    (ids : LastingIds (s.sent ++ t)) :
    ∃ h, Ends (Answers c S D) (Protocol.ensure b i network.text none) s h
        (.ok (.existing known)) { s with api, sent := s.sent ++ t } ∧ ∀ x ∈ h, x.nodes = [] := by
  have howned : known.isOwnedBy i = true := Route.isOwnedBy_iff.2 howner
  have hfind : Ends (Answers c S D) (Protocol.find network.text none) s
      [⟨.findRoute network.text, some (.ok (some known))⟩] (.ok (some known))
      { s with api, sent := s.sent ++ t } := by
    rw [Protocol.find_of_ne network.text_ne_empty]
    exact .askThen (.served rfl run ids) (.done _ _)
  have hkeep : Ends (Answers c S D) (Protocol.ensureAfter b i network.text (some known))
      { s with api, sent := s.sent ++ t } [] (.ok (.existing known))
      { s with api, sent := s.sent ++ t } := by
    rw [Protocol.ensureAfter_of_destination b i hname, if_pos howned]
    exact .done _ _
  exact ⟨_, .locked (.other .lock (some ()) s rfl rfl) (hfind.bind hkeep)
    (.other .unlock (some ()) _ rfl rfl), by simp [Exchange.nodes]⟩

theorem addRoute_finds {n : Node} {i : String} {network : Network} {known : Route}
    (hi : n.instanceId? = some i) (hname : known.destination = network.text)
    (howner : known.instanceId = i)
    (run : Web.Ends S D (c.findRoute network.text) s.api t (.ok (some known)) api)
    (ids : LastingIds (s.sent ++ t)) :
    ∃ h, Ends (Answers c S D) (Reconcile.addRoute b n network.text none) s h (.ok ())
        { api, cache := s.cache.insertNew n.name known, sent := s.sent ++ t } ∧
      ⟨.remember n.name known, some ()⟩ ∈ h ∧ ∀ x ∈ h, x.nodes = [] := by
  obtain ⟨h, hensure, hquiet⟩ := ensure_finds (b := b) hname howner run ids
  rw [Reconcile.addRoute, hi]
  refine ⟨_, .askThen (.other .now (some (0 : Nat)) s rfl rfl)
    (hensure.bind (.askThen (.remembered n.name known _) (.done _ _))), by simp, ?_⟩
  refine List.forall_mem_cons.2 ⟨rfl, List.forall_mem_append.2 ⟨hquiet, ?_⟩⟩
  exact List.forall_mem_singleton.2 rfl

/-- An attempt on a node whose route is there remembers the route. -/
theorem attempt_finds {n : Node} {i : String} {network : Network} {known : Route}
    (hdue : n.due? = some (i, network)) (hname : known.destination = network.text)
    (howner : known.instanceId = i)
    (run : Web.Ends S D (c.findRoute network.text) s.api t (.ok (some known)) api)
    (ids : LastingIds (s.sent ++ t)) :
    ∃ h, Ends (Answers c S D) (Job.program {} b { duty := .attempt n.name }) s h (some (.ok ()))
        { api, cache := s.cache.insertNew n.name known, sent := s.sent ++ t } ∧
      ⟨.remember n.name known, some ()⟩ ∈ h ∧ ∀ x ∈ h, ∀ m ∈ x.nodes, m = n := by
  obtain ⟨hskip, hnet, hi⟩ := Node.due?_eq_some.1 hdue
  obtain ⟨g, hadd, hmem, hquiet⟩ := addRoute_finds (b := b) hi hname howner run ids
  obtain ⟨g', hupdate, hquiet'⟩ := updates (c := c) (D := D) (S := S) n
    { api, cache := s.cache.insertNew n.name known, sent := s.sent ++ t }
  have hsync : Ends (Answers c S D) (Reconcile.syncNode b n none) s (g ++ g') (.ok ())
      { api, cache := s.cache.insertNew n.name known, sent := s.sent ++ t } := by
    rw [Reconcile.syncNode, hskip, hnet]
    exact hadd.bind hupdate
  have hattempt : Ends (Answers c S D) (Reconcile.reconcile {} b n.name) s _ (.ok ()) _ :=
    .askThen (.other (.getNode n.name) (some (.ok (some n))) s rfl rfl) (hsync.bind (.done _ _))
  refine ⟨_, hattempt.map, by simp [hmem], List.forall_mem_cons.2 ⟨?_, fun x hx m hm => ?_⟩⟩
  · exact fun m hm => List.mem_singleton.1 hm
  · have hnone : x.nodes = [] := by
      rw [List.append_nil] at hx
      exact (List.mem_append.1 hx).elim (hquiet x) (hquiet' x)
    rw [hnone] at hm
    cases hm

/-- An attempt on a node that is gone deletes the route that is remembered for it. -/
theorem attempt_deletes {name : String} {known : Route} (hget : s.cache.get? name = some known)
    (run : Web.Ends S D (c.deleteRoute known.destination) s.api t (.ok ()) api)
    (ids : LastingIds (s.sent ++ t)) :
    ∃ h, Ends (Answers c S D) (Job.program {} b { duty := .attempt name }) s h (some (.ok ()))
        { api, cache := s.cache.erase name, sent := s.sent ++ t } ∧ ∀ x ∈ h, x.nodes = [] := by
  have hdelete : Ends (Answers c S D) (Protocol.delete known.destination) s _ (.ok ())
      { s with api, sent := s.sent ++ t } :=
    .locked (.other .lock (some ()) s rfl rfl) (.askThen (.served rfl run ids) (.done _ _))
      (.other .unlock (some ()) _ rfl rfl)
  have hcached : Answers c S D (.cachedRoute name) s (some (some known)) s := hget ▸ .cached name s
  have hobserved : Answers c S D (.observe .delete 0) { s with api, sent := s.sent ++ t } (some ())
      { s with api, sent := s.sent ++ t } := .other _ _ _ rfl rfl
  have hremove : Ends (Answers c S D) (Reconcile.removeRoute name) s _ (.ok ())
      { api, cache := s.cache.erase name, sent := s.sent ++ t } :=
    .askThen hcached (.askThen (.other .now (some (0 : Nat)) s rfl rfl)
      (hdelete.bind (.askThen hobserved (.askThen (.forgot name _) (.done _ _)))))
  have hattempt : Ends (Answers c S D) (Reconcile.reconcile {} b name) s _ (.ok ()) _ :=
    .askThen (.other (.getNode name) (some (.ok none)) s rfl rfl) hremove
  exact ⟨_, hattempt.map, by simp [Exchange.nodes]⟩

/-- A node whose route is there is attempted, and once more when it is gone. -/
theorem attempts_follow {lag : Nat} {u : Web.Url} {n : Node} {i : String} {network : Network}
    {e : Entry} {api api' : VpcApi} (hu : Web.Url.parse c.config.endpoint = .ok u)
    (hdue : n.due? = some (i, network)) (hname : e.item.destination = network.text)
    (howner : e.item.toRoute.instanceId = i) (hlisted : e.item ∈ api.listed)
    (hfind : Web.Returns (Serves u lag) (c.findRoute e.item.destination) api
      (.ok (some e.item.toRoute)) api)
    (hdelete : Web.Returns (Serves u lag) (c.deleteRoute e.item.destination) api (.ok ()) api') :
    ∃ h left s, Together (Answers c (Serves u lag) Eq)
        (fun _ : Bool => Job.program {} b { duty := .attempt n.name }) { api } h left s ∧
      ⟨.remember n.name e.item.toRoute, some ()⟩ ∈ h ∧ (∀ x ∈ h, ∀ m ∈ x.nodes, m = n) ∧
      ∃ turn ∈ s.sent, TakesAway u e.item.destination turn := by
  obtain ⟨t₁, hfind⟩ := hfind
  obtain ⟨t₂, hdelete⟩ := hdelete
  obtain ⟨hroutes, turn, hturn, htakes⟩ :=
    Client.deleteRoute_takes hu hdelete ⟨e.item, hlisted, rfl⟩
  have hfound : ∀ turn ∈ t₁, VpcApi.routesAt turn ⊆ api.entries :=
    Client.routesAt_findRoute hu hfind
  obtain ⟨h₁, hrun₁, hmem, hshown⟩ := attempt_finds (b := b) (s := { api }) hdue hname howner
    (hname ▸ hfind) (.of_subset hfound)
  have hget : ((Table.empty : RouteCache).insertNew n.name e.item.toRoute).get? n.name =
      some e.item.toRoute := by
    rw [Table.get?_insertNew, if_pos rfl]
    rfl
  obtain ⟨h₂, hrun₂, hquiet⟩ := attempt_deletes (b := b)
    (s := { api, cache := Table.empty.insertNew n.name e.item.toRoute, sent := t₁ }) hget hdelete
    (.of_subset (List.forall_mem_append.2 ⟨hfound, hroutes⟩))
  have hother : Function.update (fun _ : Bool => Job.program {} b { duty := .attempt n.name }) false
      (.done (some (.ok ()))) true = Job.program {} b { duty := .attempt n.name } := by
    rw [Function.update_of_ne (by decide)]
  have hfirst : Together (Answers c (Serves u lag) Eq)
      (fun _ : Bool => Job.program {} b { duty := .attempt n.name }) { api } h₁ _ _ :=
    .of_ends (i := false) hrun₁ rfl
  refine ⟨h₁ ++ h₂, _, _, hfirst.append (Together.of_ends hrun₂ hother),
    List.mem_append_left _ hmem, ?_, turn, List.mem_append_right _ hturn, htakes⟩
  refine List.forall_mem_append.2 ⟨hshown, fun x hx m hm => ?_⟩
  rw [hquiet x hx] at hm
  cases hm

end Site

end

open Site in
/-- If no node is shown whose pod network has length zero, the controller does not delete the
default route, nor caches it, nor takes any part in it. -/
theorem default_route_is_left {ι : Type} [DecidableEq ι] {c : Client} {u : Web.Url} {lag : Nat}
    {D : VpcApi → VpcApi → Prop} {settings : Settings} {b : Backoff} {jobs : ι → Job}
    {api : VpcApi} {cache : RouteCache} {h : List Exchange}
    {left : ι → Control (Option (Outcome Unit))} {s : Site}
    (hu : Web.Url.parse c.config.endpoint = .ok u) (hcache : cache.Avoids Client.defaultRoute)
    (hrun : Together (Answers c (Serves u lag) D) (fun i => (jobs i).program settings b)
      { api, cache } h left s)
    (hnodes : ∀ x ∈ h, ∀ n ∈ x.nodes, ∀ i network, n.due? = some (i, network) →
      network.length ≠ 0) :
    (∀ turn ∈ s.sent, ¬TakesAway u Client.defaultRoute turn) ∧
      s.cache.Avoids Client.defaultRoute ∧
      ∀ x ∈ h, x.request.Aloof Client.defaultRoute ∧
        ∀ r ∈ x.routes, r.destination ≠ Client.defaultRoute := by
  have hshown : ∀ x ∈ h, ∀ n ∈ x.nodes, ¬n.DueTo Client.defaultRoute := by
    intro x hx n hn hdue
    obtain ⟨i, network, hdue, hlength⟩ := hdue.length_eq_zero
    exact hnodes x hx n hn i network hdue hlength
  have hstart : Clear u { api, cache } := ⟨hcache, fun _ hturn => absurd hturn List.not_mem_nil⟩
  obtain ⟨hend, hall⟩ := hrun.keeps (F := sheltered Client.defaultRoute)
    (fun r s x s' hr hn hs hx => ⟨⟨(hs.answers hu hr hx).2, hn⟩, (hs.answers hu hr hx).1⟩)
    (fun i => aloof_job (jobs i)) hstart hshown
  exact ⟨hend.sent, hend.cache, fun x hx => ⟨(hall x hx).1, (hall x hx).2.routes⟩⟩

namespace Sample

/-- The attempts on a node take its own route away, and the default route stays. -/
theorem own_route_is_deleted : ∃ u h left s,
    Together (Site.Answers client (Serves u 1000) Eq)
        (fun _ : Bool => Job.program {} .standard { duty := .attempt "n1" })
        { api := after.later 1000 } h left s ∧
      (∃ turn ∈ s.sent, TakesAway u "10.0.1.0/24" turn) ∧
      ∀ turn ∈ s.sent, ¬TakesAway u Client.defaultRoute turn := by
  obtain ⟨u, hu⟩ : ∃ u, Web.Url.parse client.config.endpoint = .ok u := ⟨_, rfl⟩
  have hdue : (Node.plain "n1" "10.0.1.7/24" "i-1").due? =
      some ("i-1", ⟨⟨167772416, by decide⟩, 24, by decide⟩) := by decide +kernel
  have hname : slow.item.destination =
      (⟨⟨167772416, by decide⟩, 24, by decide⟩ : Network).text := by decide +kernel
  have hlisted : slow.item ∈ (after.later 1000).listed := by decide
  have hfind : Web.Returns (Serves u 1000) (client.findRoute "10.0.1.0/24") (after.later 1000)
      (.ok (some slow.item.toRoute)) (after.later 1000) :=
    Client.findRoute_returns hu readable_slow (by decide)
  obtain ⟨h, left, s, hrun, -, hshown, htakes⟩ := Site.attempts_follow (b := .standard) (e := slow)
    hu hdue hname rfl hlisted hfind (delete_takes hu)
  refine ⟨u, h, left, s, hrun, htakes, (default_route_is_left hu (.empty _) hrun ?_).1⟩
  intro x hx n hn i network hnetwork
  rw [hshown x hx n hn, hdue] at hnetwork
  cases hnetwork
  decide

def wayOut : Entry := ⟨⟨"r-0", "", "", "0.0.0.0/0", ["i-1"]⟩, 0⟩

def withWayOut : VpcApi where
  entries := [wayOut]
  clock := 0
  ids_nodup := by decide
  destinations_nodup := by decide
  id_ne := by decide

def withoutRoutes : VpcApi where
  entries := []
  clock := 0
  ids_nodup := by decide
  destinations_nodup := by decide
  id_ne := by decide

/-- The default route is remembered for a node, and deleted when the node is gone. -/
theorem default_route_is_deleted : ∃ u h left s,
    Together (Site.Answers client (Serves u 0) Eq)
        (fun _ : Bool => Job.program {} .standard { duty := .attempt "n1" })
        { api := withWayOut } h left s ∧
      ⟨.remember "n1" wayOut.item.toRoute, some ()⟩ ∈ h ∧
      ∃ turn ∈ s.sent, TakesAway u Client.defaultRoute turn := by
  obtain ⟨u, hu⟩ : ∃ u, Web.Url.parse client.config.endpoint = .ok u := ⟨_, rfl⟩
  have hdue : (Node.plain "n1" "0.0.0.0/0" "i-1").due? =
      some ("i-1", ⟨⟨0, by decide⟩, 0, by decide⟩) := by decide +kernel
  have hname : wayOut.item.destination = (⟨⟨0, by decide⟩, 0, by decide⟩ : Network).text := by
    decide +kernel
  have hlisted : wayOut.item ∈ withWayOut.listed := by decide
  have hread : (Json.parse? ("\x7b\"RouteSet\":[\x7b\"RouteId\":\"r-0\"," ++
      "\"DestinationCidrBlock\":\"0.0.0.0/0\",\"NextHopset\":[\x7b\"GatewayId\":\"i-1\"\x7d]" ++
      "\x7d]\x7d")).bind RouteListing.ofJson? = some ⟨"", [wayOut.item]⟩ := by cbv
  have hfind : Web.Returns (Serves u 0) (client.findRoute "0.0.0.0/0") withWayOut
      (.ok (some wayOut.item.toRoute)) withWayOut := Client.findRoute_returns hu hread (by decide)
  have hdelete : Web.Returns (Serves u 0) (client.deleteRoute "0.0.0.0/0") withWayOut (.ok ())
      withoutRoutes := Client.deleteRoute_returns hu hfind ⟨by decide, rfl⟩
  obtain ⟨h, left, s, hrun, hmem, -, htakes⟩ := Site.attempts_follow (b := .standard) (e := wayOut)
    hu hdue hname rfl hlisted hfind hdelete
  exact ⟨u, h, left, s, hrun, hmem, htakes⟩

end Sample

end Cloud

end PodRoutes
