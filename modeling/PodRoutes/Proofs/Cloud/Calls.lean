import Mathlib.Data.Nat.Basic
import PodRoutes.Proofs.Cloud.VpcApi

/-!
# The client against an honest API

What each call of the client asks an honest API, what it gives back for the answers, and what of
that is left when the API changes between its requests. A listing gives the routes that are shown in
the moment of its answer (`listRoutes_asked`), a create adds its route and waits for it
(`createRoute_asked`), and a delete takes away the route of its destination that it has seen
(`deleteRoute_asked`).
-/

namespace PodRoutes.Cloud

open Relation (ReflTransGen reflTransGen_eq_self)
open Web (HttpRequest HttpResponse Returns)

namespace VpcApi

/-! ### Parameters -/

def query (action : String) (parameters : List (String × String)) : List (String × String) :=
  ("Action", action) :: ("Version", Client.apiVersion) :: parameters

theorem passes_all (c : Client) (r : RouteItem) :
    passes (query "DescribeRoutes" (c.listingParameters none)) r = true := by
  simp [passes, filter?, query, Client.listingParameters, List.lookup_cons]

theorem passes_destination (c : Client) (d : String) (r : RouteItem) :
    passes (query "DescribeRoutes" (c.listingParameters (some d))) r =
      decide (r.destination = d) := by
  simp [passes, filter?, query, Client.listingParameters, List.lookup_cons, eq_comm]

theorem passes_id (id : String) (r : RouteItem) :
    passes (query "DescribeRoutes" [("RouteId.1", id)]) r = decide (r.id = id) := by
  simp [passes, filter?, query, List.lookup_cons, eq_comm]

end VpcApi

namespace Client

open VpcApi (Carries Serves query)

variable {c : Client} {u : Web.Url} {lag : Nat} {s s' : VpcApi} {t : List (Web.Turn VpcApi)}
variable {D : VpcApi → VpcApi → Prop}
variable {method : Web.Method} {action : String} {parameters : List (String × String)}

/-! ### Requests -/

theorem request_eq (hu : Web.Url.parse c.config.endpoint = .ok u) (method : Web.Method)
    (action : String) (parameters : List (String × String)) :
    ∃ r, c.request method action parameters = .ok r ∧ r.method = method ∧
      Carries u r (query action parameters) := by
  rw [request, hu]
  exact ⟨_, rfl, rfl, rfl⟩

/-- What the client makes of an answer. -/
def received (action : String) (response : HttpResponse) : Outcome String :=
  if Web.isSuccess response.status then .ok response.body.read
  else .error (refused action response.status response.body.read)

/-- What the client reads in a body. -/
def decoded (decode : Json → Option α) (action : String) : Outcome String → Outcome α
  | .error e => .error e
  | .ok body =>
    match (Json.parse? body).bind decode with
    | some a => .ok a
    | none => .error (unreadable action body)

theorem decoded_received {decode : Json → Option α} {response : HttpResponse} {a : α}
    (hstatus : Web.isSuccess response.status = true)
    (hbody : (Json.parse? response.body.read).bind decode = some a) :
    decoded decode action (received action response) = .ok a := by
  rw [received, if_pos hstatus, decoded, hbody]

theorem call_eq (decode : Json → Option α) :
    c.call decode method action parameters =
      (do return decoded decode action (← c.send method action parameters)) := by
  rw [call]
  congr
  funext x
  cases x with
  | error e => rfl
  | ok body =>
    dsimp only [decoded]
    cases (Json.parse? body).bind decode <;> rfl

/-- A call asks once. -/
theorem send_asked (hu : Web.Url.parse c.config.endpoint = .ok u) {a : Outcome String}
    (h : Web.Ends (Serves u lag) D (c.send method action parameters) s t a s') :
    ∃ r response s₁ s₂, r.method = method ∧ Carries u r (query action parameters) ∧
      Serves u lag (.send r (some c.requestLimit)) s₁ (.ok response) s₂ ∧
      ReflTransGen D s s₁ ∧ ReflTransGen D s₂ s' ∧
      t = [⟨.send r (some c.requestLimit), s₁, some (.ok response), s₂⟩] ∧
      a = received action response := by
  obtain ⟨r, hr, hmethod, hasked⟩ := request_eq hu method action parameters
  rw [send, hr] at h
  obtain ⟨x, s₁, s₂, t', hbefore, answer, rest, rfl⟩ := h.ask_inv
  have hx : ∃ response, x = .ok response := by
    cases answer <;> exact ⟨_, rfl⟩
  obtain ⟨response, rfl⟩ := hx
  obtain ⟨rfl, ha, hafter⟩ := rest.done_inv
  exact ⟨r, response, s₁, s₂, hmethod, hasked, answer, hbefore, hafter, rfl, ha.symm⟩

theorem call_asked (hu : Web.Url.parse c.config.endpoint = .ok u) {decode : Json → Option α}
    {a : Outcome α}
    (h : Web.Ends (Serves u lag) D (c.call decode method action parameters) s t a s') :
    ∃ r response s₁ s₂, r.method = method ∧ Carries u r (query action parameters) ∧
      Serves u lag (.send r (some c.requestLimit)) s₁ (.ok response) s₂ ∧
      ReflTransGen D s s₁ ∧ ReflTransGen D s₂ s' ∧
      t = [⟨.send r (some c.requestLimit), s₁, some (.ok response), s₂⟩] ∧
      a = decoded decode action (received action response) := by
  rw [call_eq] at h
  obtain ⟨b, hsend, rfl⟩ := h.map_inv
  obtain ⟨r, response, s₁, s₂, hmethod, hasked, answer, hbefore, hafter, rfl, rfl⟩ :=
    send_asked hu hsend
  exact ⟨r, response, s₁, s₂, hmethod, hasked, answer, hbefore, hafter, rfl, rfl⟩

theorem send_returns (hu : Web.Url.parse c.config.endpoint = .ok u) {response : HttpResponse}
    (answer : ∀ r : HttpRequest, r.method = method ∧ Carries u r (query action parameters) →
      Serves u lag (.send r (some c.requestLimit)) s (.ok response) s') :
    Returns (Serves u lag) (c.send method action parameters) s (received action response) s' := by
  obtain ⟨r, hr, hasked⟩ := request_eq hu method action parameters
  rw [send, hr]
  exact .request (answer r hasked) (.done _ _)

theorem call_returns (hu : Web.Url.parse c.config.endpoint = .ok u) {response : HttpResponse}
    (decode : Json → Option α)
    (answer : ∀ r : HttpRequest, r.method = method ∧ Carries u r (query action parameters) →
      Serves u lag (.send r (some c.requestLimit)) s (.ok response) s') :
    Returns (Serves u lag) (c.call decode method action parameters) s
      (decoded decode action (received action response)) s' := by
  rw [call_eq]
  exact (send_returns hu answer).map

/-! ### Listings -/

/-- A run of one turn that changes nothing. -/
structure Looks (D : VpcApi → VpcApi → Prop) (s : VpcApi) (t : List (Web.Turn VpcApi))
    (turn : Web.Turn VpcApi) (s' : VpcApi) : Prop where
  turns : t = [turn]
  sent : ∃ r limit, turn.request = .send r limit
  earlier : ReflTransGen D s turn.before
  same : turn.after = turn.before
  later : ReflTransGen D turn.before s'

theorem Looks.eq {turn : Web.Turn VpcApi} (h : Looks Eq s t turn s') :
    turn.before = s ∧ s' = s := by
  have hearlier := h.earlier
  have hlater := h.later
  rw [reflTransGen_eq_self] at hearlier hlater
  exact ⟨hearlier.symm, hlater.symm.trans hearlier.symm⟩

/-- A listing shows the routes of the moment in which it is answered. -/
theorem listing_asked (hu : Web.Url.parse c.config.endpoint = .ok u) {a : Outcome RouteListing}
    (h : Web.Ends (Serves u lag) D
      (c.call RouteListing.ofJson? .get "DescribeRoutes" parameters) s t a s') :
    ∃ turn listing, Looks D s t turn s' ∧ a = .ok listing ∧ listing.items.Perm
        (turn.before.listed.filter (VpcApi.passes (query "DescribeRoutes" parameters))) := by
  obtain ⟨r, response, s₁, s₂, hmethod, hasked, answer, hbefore, hafter, rfl, rfl⟩ :=
    call_asked hu h
  cases answer with
  | describe asked action status body items =>
    cases asked.2.unique hasked
    exact ⟨_, _, ⟨rfl, ⟨r, _, rfl⟩, hbefore, rfl, hafter⟩, decoded_received status body, items⟩
  | create asked => cases asked.1.symm.trans hmethod
  | refuse asked => cases asked.1.symm.trans hmethod
  | delete asked => cases asked.1.symm.trans hmethod

theorem listing_returns (hu : Web.Url.parse c.config.endpoint = .ok u) {text : String}
    {listing : RouteListing}
    (htext : (Json.parse? text).bind RouteListing.ofJson? = some listing)
    (hitems : listing.items.Perm
      (s.listed.filter (VpcApi.passes (query "DescribeRoutes" parameters)))) :
    Returns (Serves u lag) (c.call RouteListing.ofJson? .get "DescribeRoutes" parameters) s
      (.ok listing) s := by
  have hstatus : Web.isSuccess 200 = true := by decide
  have hserves : ∀ r : HttpRequest, r.method = .get ∧
      Carries u r (query "DescribeRoutes" parameters) →
        Serves u lag (.send r (some c.requestLimit)) s (.ok ⟨200, .text text⟩) s :=
    fun r hasked => .describe hasked rfl hstatus htext hitems
  have hread : decoded RouteListing.ofJson? "DescribeRoutes"
      (received "DescribeRoutes" ⟨200, .text text⟩) = .ok listing :=
    decoded_received hstatus htext
  rw [← hread]
  exact call_returns hu RouteListing.ofJson? hserves

/-- A search in a listing that was filtered by what is searched for. -/
theorem find?_of_perm {p : RouteItem → Bool} {items listed : List RouteItem}
    (h : items.Perm (listed.filter p)) :
    items.find? p = none ∧ (∀ r ∈ listed, p r = false) ∨
      ∃ r ∈ listed, p r = true ∧ items.find? p = some r := by
  cases hf : items.find? p with
  | none =>
    refine .inl ⟨rfl, fun r hr => ?_⟩
    by_contra hp
    have hmem := h.mem_iff.2 (List.mem_filter.2 ⟨hr, eq_true_of_ne_false hp⟩)
    exact List.find?_eq_none.1 hf r hmem (eq_true_of_ne_false hp)
  | some r =>
    have hmem := List.mem_filter.1 (h.mem_iff.1 (List.mem_of_find?_eq_some hf))
    exact .inr ⟨r, hmem.1, hmem.2, rfl⟩

theorem describe_asked (hu : Web.Url.parse c.config.endpoint = .ok u)
    {destination : Option String} {a : Outcome (List RouteItem)}
    (h : Web.Ends (Serves u lag) D (c.describe destination) s t a s') :
    ∃ turn items, Looks D s t turn s' ∧ a = .ok items ∧ items.Perm (turn.before.listed.filter
        (VpcApi.passes (query "DescribeRoutes" (c.listingParameters destination)))) := by
  obtain ⟨b, hcall, rfl⟩ := h.map_inv
  obtain ⟨turn, listing, hlooks, rfl, hitems⟩ := listing_asked hu hcall
  exact ⟨turn, listing.items, hlooks, rfl, hitems⟩

theorem findRoute_asked (hu : Web.Url.parse c.config.endpoint = .ok u) {destination : String}
    {a : Outcome (Option Route)}
    (h : Web.Ends (Serves u lag) D (c.findRoute destination) s t a s') :
    ∃ turn, Looks D s t turn s' ∧
      (a = .ok none ∧ (∀ r ∈ turn.before.listed, r.destination ≠ destination) ∨
        ∃ r ∈ turn.before.listed, r.destination = destination ∧ a = .ok (some r.toRoute)) := by
  obtain ⟨b, hdescribe, rfl⟩ := h.map_inv
  obtain ⟨turn, items, hlooks, rfl, hitems⟩ := describe_asked hu hdescribe
  rw [funext (VpcApi.passes_destination c destination)] at hitems
  refine ⟨turn, hlooks, ?_⟩
  rcases find?_of_perm hitems with ⟨hf, hnone⟩ | ⟨r, hr, hd, hf⟩
  · rw [Except.map, hf]
    exact .inl ⟨rfl, fun r hr => of_decide_eq_false (hnone r hr)⟩
  · rw [Except.map, hf]
    exact .inr ⟨r, hr, of_decide_eq_true hd, rfl⟩

theorem listRoutes_asked (hu : Web.Url.parse c.config.endpoint = .ok u) {a : Outcome (List Route)}
    (h : Web.Ends (Serves u lag) D c.listRoutes s t a s') :
    ∃ turn routes, Looks D s t turn s' ∧ a = .ok routes ∧ routes.Perm
      ((turn.before.listed.filter fun r => r.destination ≠ defaultRoute).map
        RouteItem.toRoute) := by
  obtain ⟨b, hdescribe, rfl⟩ := h.map_inv
  obtain ⟨turn, items, hlooks, rfl, hitems⟩ := describe_asked hu hdescribe
  rw [funext (VpcApi.passes_all c), List.filter_true] at hitems
  exact ⟨turn, _, hlooks, rfl, (hitems.filter _).map _⟩

theorem describeId_asked (hu : Web.Url.parse c.config.endpoint = .ok u) {id : String}
    {a : Outcome (Option RouteItem)}
    (h : Web.Ends (Serves u lag) D (c.describeId id) s t a s') :
    ∃ turn, Looks D s t turn s' ∧
      (a = .ok none ∧ (∀ r ∈ turn.before.listed, r.id ≠ id) ∨
        ∃ r ∈ turn.before.listed, r.id = id ∧ a = .ok (some r)) := by
  obtain ⟨b, hcall, rfl⟩ := h.map_inv
  obtain ⟨turn, listing, hlooks, rfl, hitems⟩ := listing_asked hu hcall
  rw [funext (VpcApi.passes_id id)] at hitems
  refine ⟨turn, hlooks, ?_⟩
  rcases find?_of_perm hitems with ⟨hf, hnone⟩ | ⟨r, hr, hid, hf⟩
  · rw [Except.map, hf]
    exact .inl ⟨rfl, fun r hr => of_decide_eq_false (hnone r hr)⟩
  · rw [Except.map, hf]
    exact .inr ⟨r, hr, of_decide_eq_true hid, rfl⟩

/-! ### Creating -/

theorem isDuplicate_refused {status : Nat} {body marker : String} {refusal : ApiRefusal}
    (hbody : (Json.parse? body).bind ApiRefusal.ofJson? = some refusal)
    (hmarker : marker ∈ RouteError.duplicateMarkers)
    (hmessage : Search.occursIn marker refusal.message = true) :
    (refused action status body).isDuplicate = true := by
  have hne : refusal.message ≠ "" := by
    intro hempty
    rw [hempty] at hmessage
    revert marker
    decide
  have htext : refusalText body = refusal.code ++ ": " ++ refusal.message := by
    rw [refusalText, hbody]
    exact if_pos (.inr hne)
  obtain ⟨before, after, hsplit⟩ := Search.occurs_iff.1 hmessage
  refine List.any_eq_true.2 ⟨marker, hmarker, Search.occurs_iff.2 ?_⟩
  refine ⟨(action ++ " failed with " ++ Web.statusText status ++ ": " ++
    (refusal.code ++ ": ")).toList ++ before, after, ?_⟩
  rw [htext]
  simp only [String.toList_append, hsplit, List.append_assoc]

/-- A create adds its route and waits for it, or the destination is taken. -/
theorem createRoute_asked (hu : Web.Url.parse c.config.endpoint = .ok u)
    {instanceId destination : String} {a : Outcome (Option Route)}
    (h : Web.Ends (Serves u lag) D (c.createRoute instanceId destination) s t a s') :
    (∃ e turn t' s₁ b, e.item.destination = destination ∧
        e.item.nextHops.head? = some instanceId ∧ e.shownFrom ≤ turn.before.clock + lag ∧
        turn.after.entries = e :: turn.before.entries ∧
        turn.after.clock = turn.before.clock ∧ t = turn :: t' ∧
        ReflTransGen D s turn.before ∧ ReflTransGen D turn.after s₁ ∧
        Web.Ends (Serves u lag) D (c.awaitRoute e.item.id destination) s₁ t' b s' ∧
        a = b.map some) ∨
      ∃ e turn, Looks D s t turn s' ∧ e ∈ turn.before.entries ∧
        e.item.destination = destination ∧
        ∃ message, a = .error (.duplicateDestination destination message) := by
  obtain ⟨t₁, x, s₁, t₂, hcall, hrest, rfl⟩ := h.bind_inv
  obtain ⟨r, response, s₂, s₃, hmethod, hasked, answer, hbefore, hafter, rfl, rfl⟩ :=
    call_asked hu hcall
  cases answer with
  | describe asked => cases asked.1.symm.trans hmethod
  | delete asked => cases asked.1.symm.trans hmethod
  | @create _ _ _ _ _ e _ created asked _ hdestination howner hshown effect status body hid =>
    cases asked.2.unique hasked
    have hd : destination = e.item.destination := Option.some.inj hdestination
    have he : e ∈ s₃.entries := by
      rw [effect.1]
      exact List.mem_cons_self
    rw [decoded_received status body] at hrest
    dsimp only at hrest
    rw [hid, if_neg (s₃.id_ne e he)] at hrest
    obtain ⟨b, hawait, rfl⟩ := hrest.map_inv
    exact .inl ⟨e, _, t₂, s₁, b, hd.symm, howner.symm, hshown, effect.1, effect.2, rfl, hbefore,
      hafter, hawait, rfl⟩
  | @refuse _ _ _ _ e _ refusal marker asked _ taken hdestination status body duplicate message =>
    cases asked.2.unique hasked
    have hd : destination = e.item.destination := Option.some.inj hdestination
    have hfail : ¬Web.isSuccess response.status = true := ne_true_of_eq_false status
    rw [received, if_neg hfail, decoded] at hrest
    dsimp only at hrest
    rw [if_pos (isDuplicate_refused body duplicate message)] at hrest
    obtain ⟨rfl, rfl, hlast⟩ := hrest.done_inv
    exact .inr ⟨e, _, ⟨rfl, ⟨r, _, rfl⟩, hbefore, rfl, hafter.trans hlast⟩, taken, hd.symm, _,
      rfl⟩

/-! ### Deleting -/

/-- A delete looks for the route of its destination, and asks for the delete of what it saw. -/
theorem deleteRoute_asked (hu : Web.Url.parse c.config.endpoint = .ok u) {destination : String}
    {a : Outcome Unit} (h : Web.Ends (Serves u lag) D (c.deleteRoute destination) s t a s') :
    a = .ok () ∧ ∃ look s₁, Looks D s [look] look s₁ ∧
      ((∀ r ∈ look.before.listed, r.destination ≠ destination) ∧ t = [look] ∧
          ReflTransGen D s₁ s' ∨
        ∃ r ∈ look.before.listed, r.destination = destination ∧ ∃ request response s₂ s₃,
          (request.method = .delete ∧
            Carries u request (query "DeleteRoute" [("RouteId", r.id)])) ∧
          t = [look, ⟨.send request (some c.requestLimit), s₂, some (.ok response), s₃⟩] ∧
          ReflTransGen D s₁ s₂ ∧ ReflTransGen D s₃ s' ∧ s₃.clock = s₂.clock ∧
          s₃.entries = s₂.entries.filter fun e => e.item.id ≠ r.id) := by
  obtain ⟨t₁, x, s₁, t₂, hfind, hrest, rfl⟩ := h.bind_inv
  obtain ⟨look, hlooks, ⟨rfl, hnone⟩ | ⟨r, hr, hd, rfl⟩⟩ := findRoute_asked hu hfind
  · obtain ⟨rfl, rfl, hdrift⟩ := hrest.done_inv
    obtain rfl := hlooks.turns
    exact ⟨rfl, look, s₁, hlooks, .inl ⟨hnone, rfl, hdrift⟩⟩
  · obtain ⟨b, hsend, rfl⟩ := hrest.map_inv
    obtain ⟨request, response, s₂, s₃, hmethod, hasked, answer, hbefore, hafter, rfl, rfl⟩ :=
      send_asked hu hsend
    cases answer with
    | describe asked => cases asked.1.symm.trans hmethod
    | create asked => cases asked.1.symm.trans hmethod
    | refuse asked => cases asked.1.symm.trans hmethod
    | delete asked _ hid effect status =>
      cases asked.2.unique hasked
      cases Option.some.inj hid
      rw [received, if_pos status]
      obtain rfl := hlooks.turns
      exact ⟨rfl, look, s₁, hlooks, .inr ⟨r, hr, hd, request, response, s₂, s₃,
        ⟨hmethod, hasked⟩, rfl, hbefore, hafter, effect.2, effect.1⟩⟩

/-! ### Runs from the texts of the answers -/

theorem describe_returns (hu : Web.Url.parse c.config.endpoint = .ok u)
    {destination : Option String} {text : String} {listing : RouteListing}
    (htext : (Json.parse? text).bind RouteListing.ofJson? = some listing)
    (hitems : listing.items.Perm (s.listed.filter
      (VpcApi.passes (query "DescribeRoutes" (c.listingParameters destination))))) :
    Returns (Serves u lag) (c.describe destination) s (.ok listing.items) s :=
  (listing_returns hu htext hitems).map

theorem listRoutes_returns (hu : Web.Url.parse c.config.endpoint = .ok u) {text : String}
    {listing : RouteListing}
    (htext : (Json.parse? text).bind RouteListing.ofJson? = some listing)
    (hitems : listing.items.Perm s.listed) :
    Returns (Serves u lag) c.listRoutes s (.ok ((listing.items.filter fun r =>
      r.destination ≠ defaultRoute).map RouteItem.toRoute)) s := by
  refine (describe_returns hu htext ?_).map
  rwa [funext (VpcApi.passes_all c), List.filter_true]

theorem findRoute_returns (hu : Web.Url.parse c.config.endpoint = .ok u)
    {text destination : String} {listing : RouteListing}
    (htext : (Json.parse? text).bind RouteListing.ofJson? = some listing)
    (hitems : listing.items.Perm (s.listed.filter fun r => r.destination = destination)) :
    Returns (Serves u lag) (c.findRoute destination) s (.ok ((listing.items.find? fun r =>
      r.destination = destination).map RouteItem.toRoute)) s := by
  refine (describe_returns hu htext ?_).map
  rwa [funext (VpcApi.passes_destination c destination)]

theorem describeId_returns (hu : Web.Url.parse c.config.endpoint = .ok u) {text id : String}
    {listing : RouteListing}
    (htext : (Json.parse? text).bind RouteListing.ofJson? = some listing)
    (hitems : listing.items.Perm (s.listed.filter fun r => r.id = id)) :
    Returns (Serves u lag) (c.describeId id) s (.ok (listing.items.find? fun r => r.id = id))
      s := by
  refine (listing_returns hu htext ?_).map
  rwa [funext (VpcApi.passes_id id)]

theorem pollRoute_returns_seen {id destination : String} {deadline left : Nat} {r : RouteItem}
    (look : Returns (Serves u lag) (c.describeId id) s (.ok (some r)) s) :
    Returns (Serves u lag) (c.pollRoute id destination deadline (left + 1)) s (.ok r.toRoute) s :=
  look.bind (.done _ _)

theorem pollRoute_returns_later {id destination : String} {deadline left : Nat} {a : Outcome Route}
    (look : Returns (Serves u lag) (c.describeId id) s (.ok none) s)
    (hdeadline : ¬deadline < s.clock + c.config.waitInterval * 1000)
    (rest : Returns (Serves u lag) (c.pollRoute id destination deadline left)
      (s.later (c.config.waitInterval * 1000)) a s') :
    Returns (Serves u lag) (c.pollRoute id destination deadline (left + 1)) s a s' := by
  refine look.bind (.request (.now s) ?_)
  rw [if_neg hdeadline]
  exact .request (.pause _ s) rest

theorem pollRoute_returns_missed {id destination : String} {deadline left : Nat}
    (look : Returns (Serves u lag) (c.describeId id) s (.ok none) s)
    (hdeadline : deadline < s.clock + c.config.waitInterval * 1000) :
    Returns (Serves u lag) (c.pollRoute id destination deadline (left + 1)) s
      (.error (.notVisible destination)) s := by
  refine look.bind (.request (.now s) ?_)
  rw [if_pos hdeadline]
  exact .done _ _

theorem createRoute_returns_created (hu : Web.Url.parse c.config.endpoint = .ok u)
    {s₁ : VpcApi} {e : Entry} {text instanceId destination requestId : String} {a : Outcome Route}
    (htext : (Json.parse? text).bind CreatedRoute.ofJson? = some ⟨requestId, e.item.id⟩)
    (hd : e.item.destination = destination) (howner : e.item.nextHops.head? = some instanceId)
    (hshown : e.shownFrom ≤ s.clock + lag)
    (heffect : s₁.entries = e :: s.entries ∧ s₁.clock = s.clock)
    (wait : Returns (Serves u lag) (c.awaitRoute e.item.id destination) s₁ a s') :
    Returns (Serves u lag) (c.createRoute instanceId destination) s (a.map some) s' := by
  have hstatus : Web.isSuccess 200 = true := by decide
  have hserves : ∀ r : HttpRequest, r.method = .post ∧
      Carries u r (query "CreateRoute" (c.createParameters instanceId destination)) →
        Serves u lag (.send r (some c.requestLimit)) s (.ok ⟨200, .text text⟩) s₁ :=
    fun r hasked => .create hasked rfl (congrArg some hd.symm) howner.symm hshown heffect hstatus
      htext rfl
  have hread : decoded CreatedRoute.ofJson? "CreateRoute"
      (received "CreateRoute" ⟨200, .text text⟩) = .ok ⟨requestId, e.item.id⟩ :=
    decoded_received hstatus htext
  have hcall := call_returns hu CreatedRoute.ofJson? hserves
  rw [hread] at hcall
  have he : e ∈ s₁.entries := by
    rw [heffect.1]
    exact List.mem_cons_self
  refine hcall.bind ?_
  dsimp only
  rw [if_neg (s₁.id_ne e he)]
  exact wait.map

theorem createRoute_returns_taken (hu : Web.Url.parse c.config.endpoint = .ok u)
    {e : Entry} (he : e ∈ s.entries) {status : Nat} {text marker instanceId destination : String}
    {refusal : ApiRefusal} (hstatus : Web.isSuccess status = false)
    (htext : (Json.parse? text).bind ApiRefusal.ofJson? = some refusal)
    (hmarker : marker ∈ RouteError.duplicateMarkers)
    (hmessage : Search.occursIn marker refusal.message = true)
    (hd : e.item.destination = destination) :
    ∃ message, Returns (Serves u lag) (c.createRoute instanceId destination) s
      (.error (.duplicateDestination destination message)) s := by
  have hserves : ∀ r : HttpRequest, r.method = .post ∧
      Carries u r (query "CreateRoute" (c.createParameters instanceId destination)) →
        Serves u lag (.send r (some c.requestLimit)) s (.ok ⟨status, .text text⟩) s :=
    fun r hasked => .refuse hasked rfl he (congrArg some hd.symm) hstatus htext hmarker hmessage
  have hread : decoded CreatedRoute.ofJson? "CreateRoute"
      (received "CreateRoute" ⟨status, .text text⟩) =
        .error (refused "CreateRoute" status text) := by
    have hfail : ¬Web.isSuccess status = true := ne_true_of_eq_false hstatus
    rw [received, if_neg hfail]
    rfl
  have hcall := call_returns hu CreatedRoute.ofJson? hserves
  rw [hread] at hcall
  refine ⟨(refused "CreateRoute" status text).message, hcall.bind ?_⟩
  dsimp only
  rw [if_pos (isDuplicate_refused htext hmarker hmessage)]
  exact .done _ _

theorem deleteRoute_returns (hu : Web.Url.parse c.config.endpoint = .ok u) {destination : String}
    {r : Route} (hfind : Returns (Serves u lag) (c.findRoute destination) s (.ok (some r)) s)
    (heffect : s'.entries = s.entries.filter (fun e => e.item.id ≠ r.id) ∧ s'.clock = s.clock) :
    Returns (Serves u lag) (c.deleteRoute destination) s (.ok ()) s' := by
  have hstatus : Web.isSuccess 200 = true := by decide
  have hserves : ∀ request : HttpRequest, request.method = .delete ∧
      Carries u request (query "DeleteRoute" [("RouteId", r.id)]) →
        Serves u lag (.send request (some c.requestLimit)) s (.ok ⟨200, .text ""⟩) s' :=
    fun request hasked => .delete hasked rfl rfl heffect hstatus
  have hread : received "DeleteRoute" ⟨200, .text ""⟩ = .ok "" := if_pos hstatus
  have hsend := send_returns hu hserves
  rw [hread] at hsend
  exact hfind.bind hsend.map

end Client

end PodRoutes.Cloud
