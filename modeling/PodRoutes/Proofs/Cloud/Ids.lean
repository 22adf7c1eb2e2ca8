import PodRoutes.Proofs.Cloud.Calls

/-!
# Routes by their ids

The client deletes a route by an id that it has just seen, while others may change the API between
any two of its requests. As long as an id does not pass from a route to one of another destination,
only a delete of its destination takes a route away (`Client.takesAway_deleteRoute`), and a create
gives back a route to its destination (`Client.createRoute_shows`).
-/

namespace PodRoutes.Cloud

open VpcApi (Carries Serves query)

namespace VpcApi

/-- The routes of the API before or after a turn. -/
def routesAt (turn : Web.Turn VpcApi) : List Entry := turn.before.entries ++ turn.after.entries

/-- No id stands for two destinations. -/
def LastingIds (t : List (Web.Turn VpcApi)) : Prop :=
  ∀ turn ∈ t, ∀ turn' ∈ t, ∀ e ∈ routesAt turn, ∀ e' ∈ routesAt turn',
    e.item.id = e'.item.id → e.item.destination = e'.item.destination

/-- The request asks a URL to delete the route with an id. -/
def AsksToDelete (u : Web.Url) (id : String) (request : Web.Request) : Prop :=
  ∃ r limit parameters, request = .send r limit ∧ r.method = .delete ∧ Carries u r parameters ∧
    parameters.lookup "Action" = some "DeleteRoute" ∧ parameters.lookup "RouteId" = some id

/-- The request asks to delete a route that the API has to a destination. -/
def TakesAway (u : Web.Url) (destination : String) (turn : Web.Turn VpcApi) : Prop :=
  ∃ e ∈ turn.before.entries, e.item.destination = destination ∧
    AsksToDelete u e.item.id turn.request

def DeletesNothing (request : Web.Request) : Prop :=
  ∀ r limit, request = .send r limit → r.method ≠ .delete

variable {u : Web.Url} {destination : String} {turn : Web.Turn VpcApi}
variable {t t' : List (Web.Turn VpcApi)}

theorem mem_before {e : Entry} (he : e ∈ turn.before.entries) : e ∈ routesAt turn :=
  List.mem_append_left _ he

theorem mem_after {e : Entry} (he : e ∈ turn.after.entries) : e ∈ routesAt turn :=
  List.mem_append_right _ he

theorem LastingIds.of_append (h : LastingIds (t ++ t')) : LastingIds t' :=
  fun turn hturn turn' hturn' =>
    h turn (List.mem_append_right t hturn) turn' (List.mem_append_right t hturn')

/-- So it is when all routes are among those of one moment. -/
theorem LastingIds.of_subset {s : VpcApi} (h : ∀ turn ∈ t, routesAt turn ⊆ s.entries) :
    LastingIds t := by
  intro turn hturn turn' hturn' e he e' he' hid
  rw [s.eq_of_id (h turn hturn he) (h turn' hturn' he') hid]

theorem DeletesNothing.not_takesAway (h : DeletesNothing turn.request) :
    ¬TakesAway u destination turn := by
  rintro ⟨e, -, -, r, limit, parameters, hr, hmethod, -⟩
  exact h r limit hr hmethod

end VpcApi

open VpcApi (LastingIds TakesAway DeletesNothing routesAt mem_before mem_after)

namespace Client

variable {c : Client} {u : Web.Url} {lag : Nat} {D : VpcApi → VpcApi → Prop} {s s' : VpcApi}
variable {t : List (Web.Turn VpcApi)} {method : Web.Method} {action : String}
variable {parameters : List (String × String)} {instanceId destination : String}

/-! ### Requests that delete nothing -/

theorem asks_send (hu : Web.Url.parse c.config.endpoint = .ok u) :
    Web.Asks (fun request => ∃ r limit, request = .send r limit ∧ r.method = method ∧
      Carries u r (query action parameters)) (c.send method action parameters) := by
  obtain ⟨r, hr, hasked⟩ := request_eq hu method action parameters
  rw [send, hr]
  refine Web.Asks.request ⟨r, _, rfl, hasked⟩ fun x => ?_
  cases x <;> exact .done _

theorem asks_call (hu : Web.Url.parse c.config.endpoint = .ok u) {decode : Json → Option α}
    (hm : method ≠ .delete) : Web.Asks DeletesNothing (c.call decode method action parameters) := by
  have hsend : Web.Asks DeletesNothing (c.send method action parameters) := by
    refine (asks_send hu).mono ?_
    rintro request ⟨r, limit, rfl, rfl, -⟩ r' limit' he
    cases he
    exact hm
  rw [call_eq]
  exact hsend.map

theorem asks_describe (hu : Web.Url.parse c.config.endpoint = .ok u) (destination : Option String) :
    Web.Asks DeletesNothing (c.describe destination) :=
  (asks_call hu (by decide)).map

theorem asks_findRoute (hu : Web.Url.parse c.config.endpoint = .ok u) (destination : String) :
    Web.Asks DeletesNothing (c.findRoute destination) :=
  (asks_describe hu _).map

theorem asks_listRoutes (hu : Web.Url.parse c.config.endpoint = .ok u) :
    Web.Asks DeletesNothing c.listRoutes :=
  (asks_describe hu _).map

theorem asks_pollRoute (hu : Web.Url.parse c.config.endpoint = .ok u) (id destination : String)
    (deadline left : Nat) : Web.Asks DeletesNothing (c.pollRoute id destination deadline left) := by
  induction left with
  | zero => exact .done _
  | succ left ih =>
    have hlook : Web.Asks DeletesNothing (c.describeId id) := (asks_call hu (by decide)).map
    have hagain : Web.Asks DeletesNothing (do
        let time ← Web.now
        if deadline < time + c.config.waitInterval * 1000 then
          return .error (.notVisible destination)
        else
          Web.pause (c.config.waitInterval * 1000)
          c.pollRoute id destination deadline left) := by
      refine Web.Asks.request nofun fun time => ?_
      split
      · exact .done _
      · exact Web.Asks.request nofun fun _ => ih
    rw [pollRoute]
    refine hlook.bind fun x => ?_
    rcases x with e | _ | item
    · exact hagain
    · exact hagain
    · exact .done _

theorem asks_createRoute (hu : Web.Url.parse c.config.endpoint = .ok u)
    (instanceId destination : String) :
    Web.Asks DeletesNothing (c.createRoute instanceId destination) := by
  refine (asks_call hu (by decide)).bind fun x => ?_
  cases x with
  | error e => exact .done _
  | ok created =>
    dsimp only
    split
    · exact .done _
    · exact (Web.Asks.request nofun fun start => asks_pollRoute hu _ _ _ _).map

/-! ### What the client gives back -/

theorem findRoute_shows (hu : Web.Url.parse c.config.endpoint = .ok u) {r : Route}
    (h : Web.Ends (Serves u lag) D (c.findRoute destination) s t (.ok (some r)) s') :
    ∃ look ∈ t, ∃ e ∈ look.before.entries, e.item.destination = destination ∧
      r = e.item.toRoute := by
  obtain ⟨look, hlooks, ⟨hnone, -⟩ | ⟨item, hitem, hd, hsome⟩⟩ := findRoute_asked hu h
  · cases hnone
  · cases hsome
    obtain ⟨e, he, -, rfl⟩ := VpcApi.mem_listed.1 hitem
    exact ⟨look, hlooks.turns ▸ List.mem_singleton_self look, e, he, hd, rfl⟩

/-- A listing is searched for the default route by the client itself. -/
theorem listRoutes_hides {routes : List Route} {S : Web.Service VpcApi}
    (h : Web.Ends S D c.listRoutes s t (.ok routes) s') :
    ∀ r ∈ routes, r.destination ≠ defaultRoute := by
  obtain ⟨b, -, hb⟩ := h.map_inv
  cases b with
  | error e => cases hb
  | ok items =>
    cases hb
    intro r hr
    obtain ⟨item, hitem, rfl⟩ := List.mem_map.1 hr
    exact of_decide_eq_true (List.mem_filter.1 hitem).2

theorem pollRoute_shows (hu : Web.Url.parse c.config.endpoint = .ok u) {id : String}
    {deadline left : Nat} {r : Route}
    (h : Web.Ends (Serves u lag) D (c.pollRoute id destination deadline left) s t (.ok r) s') :
    ∃ look ∈ t, ∃ e ∈ look.before.entries, e.item.id = id ∧ r = e.item.toRoute := by
  induction left generalizing s t with
  | zero =>
    obtain ⟨-, ha, -⟩ := h.done_inv
    cases ha
  | succ left ih =>
    rw [pollRoute] at h
    obtain ⟨t₁, x, s₁, t₂, hlook, hrest, rfl⟩ := h.bind_inv
    obtain ⟨look, hlooks, ⟨rfl, -⟩ | ⟨item, hitem, hid, rfl⟩⟩ := describeId_asked hu hlook
    · obtain ⟨time, s₂, s₃, t₃, -, -, hlate, rfl⟩ := hrest.request_inv
      split at hlate
      · obtain ⟨-, ha, -⟩ := hlate.done_inv
        cases ha
      · obtain ⟨_, s₄, s₅, t₄, -, -, hagain, rfl⟩ := hlate.request_inv
        obtain ⟨look', hlook', hseen⟩ := ih hagain
        exact ⟨look', by simp [hlook'], hseen⟩
    · obtain ⟨rfl, ha, -⟩ := hrest.done_inv
      cases ha
      obtain ⟨e, he, -, rfl⟩ := VpcApi.mem_listed.1 hitem
      exact ⟨look, by simp [hlooks.turns], e, he, hid, rfl⟩

/-- The new route is looked up by its id. -/
theorem createRoute_shows (hu : Web.Url.parse c.config.endpoint = .ok u) {r : Route}
    (h : Web.Ends (Serves u lag) D (c.createRoute instanceId destination) s t (.ok (some r)) s')
    (hids : LastingIds t) : r.destination = destination := by
  rcases createRoute_asked hu h with
    ⟨e, turn, t', s₁, b, hd, -, -, hentries, -, rfl, -, -, hawait, ha⟩ |
      ⟨e, turn, -, -, -, message, ha⟩
  · cases b with
    | error fault => cases ha
    | ok r' =>
      cases ha
      have he : e ∈ turn.after.entries := by
        rw [hentries]
        exact List.mem_cons_self
      obtain ⟨start, s₄, s₅, t₃, -, -, hpoll, rfl⟩ := hawait.request_inv
      obtain ⟨look, hlook, e', he', hid', rfl⟩ := pollRoute_shows hu hpoll
      rw [← hd]
      exact hids look (by simp [hlook]) turn List.mem_cons_self e' (mem_before he') e (mem_after he)
        hid'
  · cases ha

/-! ### What the client takes away -/

/-- A route is only taken away after a look that showed its id for the destination. -/
theorem takesAway_deleteRoute (hu : Web.Url.parse c.config.endpoint = .ok u)
    (h : Web.Begins (Serves u lag) D (c.deleteRoute destination) s t s') (hids : LastingIds t)
    {d : String} {turn : Web.Turn VpcApi} (hturn : turn ∈ t) (htakes : TakesAway u d turn) :
    d = destination := by
  obtain ⟨e', he', hd', request, limit, ps, hrequest, hmethod, hcarries, -, hid⟩ := id htakes
  rcases h.bind_inv with hfind | ⟨t₁, x, s₁, t₂, hfind, hrest, rfl⟩
  · exact absurd htakes ((hfind.asks (asks_findRoute hu _) turn hturn).not_takesAway)
  -- so the look is over, and the turn is of the second request
  have hlast : turn ∈ t₂ := by
    refine (List.mem_append.1 hturn).resolve_left fun hfirst => ?_
    exact (hfind.begins.asks (asks_findRoute hu _) turn hfirst).not_takesAway htakes
  rcases x with fault | _ | r
  · rw [hrest.done_inv] at hlast
    cases hlast
  · rw [hrest.done_inv] at hlast
    cases hlast
  · obtain ⟨look, hlook, e, he, hd, rfl⟩ := findRoute_shows hu hfind
    have hsent := hrest.asks (asks_send hu).map turn hlast
    obtain ⟨request', limit', hsame, -, hcarries'⟩ := hsent
    cases hrequest.symm.trans hsame
    cases hcarries.unique hcarries'
    have hsameId : e'.item.id = e.item.id := (Option.some.inj hid).symm
    rw [← hd', ← hd]
    exact hids turn hturn look (List.mem_append_left _ hlook) e' (mem_before he') e (mem_before he)
      hsameId

/-! ### Without others -/

theorem routesAt_findRoute (hu : Web.Url.parse c.config.endpoint = .ok u)
    {a : Outcome (Option Route)}
    (h : Web.Ends (Serves u lag) Eq (c.findRoute destination) s t a s') :
    ∀ turn ∈ t, routesAt turn ⊆ s.entries := by
  obtain ⟨look, hlooks, -⟩ := findRoute_asked hu h
  obtain rfl := hlooks.turns
  obtain ⟨rfl, -⟩ := hlooks.eq
  intro turn hturn e he
  obtain rfl := List.mem_singleton.1 hturn
  rwa [routesAt, hlooks.same, List.mem_append, or_self] at he

theorem deleteRoute_takes (hu : Web.Url.parse c.config.endpoint = .ok u) {a : Outcome Unit}
    (h : Web.Ends (Serves u lag) Eq (c.deleteRoute destination) s t a s')
    (hlisted : ∃ r ∈ s.listed, r.destination = destination) :
    (∀ turn ∈ t, routesAt turn ⊆ s.entries) ∧ ∃ turn ∈ t, TakesAway u destination turn := by
  obtain ⟨-, look, s₁, hlooks, hasked⟩ := deleteRoute_asked hu h
  obtain ⟨rfl, rfl⟩ := hlooks.eq
  rcases hasked with ⟨hnone, -, -⟩ |
    ⟨r, hr, hd, request, response, s₂, s₃, hrequest, rfl, hbefore, -, -, hentries⟩
  · obtain ⟨r, hr, hd⟩ := hlisted
    exact absurd hd (hnone r hr)
  · rw [Relation.reflTransGen_eq_self] at hbefore
    subst hbefore
    obtain ⟨e, he, -, rfl⟩ := VpcApi.mem_listed.1 hr
    refine ⟨List.forall_mem_cons.2 ⟨?_, List.forall_mem_singleton.2 ?_⟩, _,
      List.mem_cons_of_mem _ (List.mem_singleton_self _), e, he, hd, request, _, _, rfl,
      hrequest.1, hrequest.2, rfl, rfl⟩
    · intro e' he'
      rwa [routesAt, hlooks.same, List.mem_append, or_self] at he'
    · rw [routesAt, hentries]
      exact List.append_subset.2 ⟨List.Subset.refl _, List.filter_subset_self _⟩

end Client

end PodRoutes.Cloud
