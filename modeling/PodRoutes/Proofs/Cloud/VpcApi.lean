import Mathlib.Data.List.Nodup
import PodRoutes.Cloud.Client
import PodRoutes.Proofs.Web.Ends
import PodRoutes.Proofs.Web.Form

/-!
# An honest cloud API

The API keeps a set of routes with different ids and destinations. A listing shows the routes that
pass its filters; a create adds a route unless its destination is taken, and the new route is shown
from some later point of the clock on; a delete removes the route with an id. A request is carried
out at one point of the clock, and time may pass before it and after it (`Passes`).
-/

namespace PodRoutes.Cloud

open Relation (ReflTransGen)
open Web (HttpRequest HttpResponse)

/-- A route of the API, with the point of the clock from which listings show it. -/
structure Entry where
  item : RouteItem
  shownFrom : Nat
deriving DecidableEq

structure VpcApi where
  entries : List Entry
  clock : Nat
  ids_nodup : (entries.map fun e => e.item.id).Nodup
  destinations_nodup : (entries.map fun e => e.item.destination).Nodup
  id_ne : ∀ e ∈ entries, e.item.id ≠ ""

namespace VpcApi

def listed (s : VpcApi) : List RouteItem :=
  (s.entries.filter fun e => e.shownFrom ≤ s.clock).map Entry.item

def later (s : VpcApi) (millis : Nat) : VpcApi := { s with clock := s.clock + millis }

@[simp] theorem entries_later (s : VpcApi) (millis : Nat) : (s.later millis).entries = s.entries :=
  rfl

@[simp] theorem clock_later (s : VpcApi) (millis : Nat) :
    (s.later millis).clock = s.clock + millis := rfl

/-- Time passes, and the routes stay. -/
def Passes (s s' : VpcApi) : Prop := s'.entries = s.entries ∧ s.clock ≤ s'.clock

theorem Passes.refl (s : VpcApi) : Passes s s := ⟨rfl, Nat.le_refl _⟩

theorem Passes.trans {s s' s'' : VpcApi} (h : Passes s s') (h' : Passes s' s'') : Passes s s'' :=
  ⟨h'.1.trans h.1, Nat.le_trans h.2 h'.2⟩

theorem passes_of_eq (s s' : VpcApi) (h : s = s') : Passes s s' := h ▸ .refl s

theorem passes_later (s : VpcApi) (millis : Nat) : Passes s (s.later millis) :=
  ⟨rfl, Nat.le_add_right _ _⟩

theorem passes_of_drift {s s' : VpcApi} (h : ReflTransGen Passes s s') : Passes s s' := by
  induction h with
  | refl => exact .refl s
  | tail _ step ih => exact ih.trans step

theorem mem_listed {s : VpcApi} {r : RouteItem} :
    r ∈ s.listed ↔ ∃ e ∈ s.entries, e.shownFrom ≤ s.clock ∧ e.item = r := by
  simp [listed, and_assoc]

theorem eq_of_id (s : VpcApi) {e e' : Entry} (he : e ∈ s.entries) (he' : e' ∈ s.entries)
    (h : e.item.id = e'.item.id) : e = e' :=
  List.inj_on_of_nodup_map s.ids_nodup he he' h

theorem eq_of_destination (s : VpcApi) {e e' : Entry} (he : e ∈ s.entries) (he' : e' ∈ s.entries)
    (h : e.item.destination = e'.item.destination) : e = e' :=
  List.inj_on_of_nodup_map s.destinations_nodup he he' h

/-! ### Requests -/

/-- Whether a request asks a URL with these parameters. -/
def Carries (u : Web.Url) (r : HttpRequest) (parameters : List (String × String)) : Prop :=
  r.target = (u.addParameters parameters).text

theorem Carries.unique {u : Web.Url} {r : HttpRequest} {ps qs : List (String × String)}
    (hp : Carries u r ps) (hq : Carries u r qs) : ps = qs :=
  u.text_addParameters_injective (hp.symm.trans hq)

/-- The value of the filter with some name. A listing has at most three filters. -/
def filter? (parameters : List (String × String)) (name : String) : Option String :=
  ["Filter.1", "Filter.2", "Filter.3"].findSome? fun f =>
    if parameters.lookup (f ++ ".Name") = some name then parameters.lookup (f ++ ".Value.1")
    else none

/-- Whether a route passes the filters of a listing. -/
def passes (parameters : List (String × String)) (r : RouteItem) : Bool :=
  (filter? parameters "destination-cidr-block").all (· = r.destination) &&
    (parameters.lookup "RouteId.1").all (· = r.id)

/-! ### Answers -/

/-- How the API at a URL answers; a new route is shown after a lag at the latest. -/
inductive Serves (u : Web.Url) (lag : Nat) : Web.Service VpcApi
  | describe {r : HttpRequest} {limit : Option Nat} {parameters : List (String × String)}
      {s : VpcApi} {response : HttpResponse} {listing : RouteListing}
      (asked : r.method = .get ∧ Carries u r parameters)
      (action : parameters.lookup "Action" = some "DescribeRoutes")
      (status : Web.isSuccess response.status = true)
      (body : (Json.parse? response.body.read).bind RouteListing.ofJson? = some listing)
      (items : listing.items.Perm (s.listed.filter (passes parameters))) :
      Serves u lag (.send r limit) s (.ok response) s
  | create {r : HttpRequest} {limit : Option Nat} {parameters : List (String × String)}
      {s s' : VpcApi} {e : Entry} {response : HttpResponse} {created : CreatedRoute}
      (asked : r.method = .post ∧ Carries u r parameters)
      (action : parameters.lookup "Action" = some "CreateRoute")
      (destination : parameters.lookup "DestinationCidrBlock" = some e.item.destination)
      (owner : parameters.lookup "InstanceId" = e.item.nextHops.head?)
      (shown : e.shownFrom ≤ s.clock + lag)
      (effect : s'.entries = e :: s.entries ∧ s'.clock = s.clock)
      (status : Web.isSuccess response.status = true)
      (body : (Json.parse? response.body.read).bind CreatedRoute.ofJson? = some created)
      (id : created.routeId = e.item.id) :
      Serves u lag (.send r limit) s (.ok response) s'
  | refuse {r : HttpRequest} {limit : Option Nat} {parameters : List (String × String)}
      {s : VpcApi} {e : Entry} {response : HttpResponse} {refusal : ApiRefusal} {marker : String}
      (asked : r.method = .post ∧ Carries u r parameters)
      (action : parameters.lookup "Action" = some "CreateRoute")
      (taken : e ∈ s.entries)
      (destination : parameters.lookup "DestinationCidrBlock" = some e.item.destination)
      (status : Web.isSuccess response.status = false)
      (body : (Json.parse? response.body.read).bind ApiRefusal.ofJson? = some refusal)
      (duplicate : marker ∈ RouteError.duplicateMarkers)
      (message : Search.occursIn marker refusal.message = true) :
      Serves u lag (.send r limit) s (.ok response) s
  | delete {r : HttpRequest} {limit : Option Nat} {parameters : List (String × String)}
      {s s' : VpcApi} {id : String} {response : HttpResponse}
      (asked : r.method = .delete ∧ Carries u r parameters)
      (action : parameters.lookup "Action" = some "DeleteRoute")
      (route : parameters.lookup "RouteId" = some id)
      (effect : s'.entries = s.entries.filter (fun e => e.item.id ≠ id) ∧ s'.clock = s.clock)
      (status : Web.isSuccess response.status = true) :
      Serves u lag (.send r limit) s (.ok response) s'
  | pause (millis : Nat) (s : VpcApi) : Serves u lag (.pause millis) s () (s.later millis)
  | now (s : VpcApi) : Serves u lag .now s s.clock s

end VpcApi

end PodRoutes.Cloud
