import PodRoutes.Proofs.Interleaving.NodeRequests
import PodRoutes.Proofs.Surroundings.Meets

/-!
# Dropping conflicts when deletes fail

The listings may be anything, and any of the deletes may fail; of the surroundings nothing is known
but what they do to the cache. The conflict step then tries each listed route in conflict with an
included node once, in the order of the listing. The list handed on and the cache lose exactly the
routes to the destinations that were deleted (`conflicts_are_dropped`).
-/

namespace PodRoutes

open Control

/-! ### Surroundings with a cache -/

def Control.Request.onCache (c : RouteCache) : Request → RouteCache
  | .remember name r => (c.setIfAbsent name r).1
  | .forget name => (c.remove name).1
  | .evict destination => (c.evict destination).1
  | _ => c

/-- Surroundings of which nothing is known but what they do to the cache. A request that is given
up does nothing to it. -/
def caching : Surroundings RouteCache := fun r c x c' =>
  match r, x with
  | .cachedRoute name, some found => found = c.get? name ∧ c' = c
  | r, some _ => c' = r.onCache c
  | _, none => c' = c

/-! ### What the step is to do -/

/-- The route conflicts with a stored node that is not excluded. -/
def InConflict (stored : List Node) (r : Route) : Prop :=
  ∃ n ∈ stored, n.isExcluded = false ∧ Reconcile.conflictsWithNode r n = true

instance (stored : List Node) (r : Route) : Decidable (InConflict stored r) :=
  inferInstanceAs (Decidable (∃ n ∈ stored, _))

/-- An attempt to delete a listed route, and what came of it. -/
structure Removal where
  route : Route
  outcome : Outcome Unit

namespace Removal

def exchanges (x : Removal) : List Exchange :=
  [⟨.lock, some ()⟩, ⟨.deleteRoute x.route.destination, some x.outcome⟩, ⟨.unlock, some ()⟩] ++
    if x.outcome.isOk then [⟨.evict x.route.destination, some ()⟩] else []

/-- The destinations that were deleted. -/
def deleted (removals : List Removal) : List String :=
  (removals.filter fun x => x.outcome.isOk).map fun x => x.route.destination

end Removal

/-- The step went through: it tried the listed routes in conflict and handed on the others, and
those that it could not delete. -/
structure ConflictsDropped (stored : List Node) (listed : List Route) (removals : List Removal)
    (c : RouteCache) (t : List Exchange) (result : Outcome (List Node × List Route))
    (c' : RouteCache) : Prop where
  tried : removals.map Removal.route = listed.filter fun r => InConflict stored r
  asked : t = ⟨.listNodes, some (.ok stored)⟩ :: ⟨.listRoutes, some (.ok listed)⟩ ::
    removals.flatMap Removal.exchanges
  handedOn : result = .ok (stored.filter fun n => !n.isExcluded,
    listed.filter fun r => r.destination ∉ Removal.deleted removals)
  kept : c' = c.filter fun _ r => r.destination ∉ Removal.deleted removals

/-- The step ended with a listing that failed. -/
def ListingFailed (e : RouteError) (t : List Exchange) : Prop :=
  t = [⟨.listNodes, some (.error e)⟩] ∨
    ∃ stored, t = [⟨.listNodes, some (.ok stored)⟩, ⟨.listRoutes, some (.error e)⟩]

/-- One of some exchanges is a listing that failed. -/
def HasFailedListing (e : RouteError) (t : List Exchange) : Prop :=
  ⟨.listNodes, some (.error e)⟩ ∈ t ∨ ⟨.listRoutes, some (.error e)⟩ ∈ t

/-- A request that only lists, or looks at the clock, or measures. -/
def Control.Request.OnlyLooks : Request → Prop
  | .listNodes | .listRoutes | .now | .observe _ _ => True
  | _ => False

/-! ### The loop -/

theorem inConflict_iff {stored : List Node} {r : Route} :
    InConflict stored r ↔
      Reconcile.conflictsWithAny (stored.filter fun n => !n.isExcluded) r = true := by
  simp only [InConflict, Reconcile.conflictsWithAny, List.any_eq_true, List.mem_filter,
    Bool.not_eq_true', and_assoc]

theorem without_filter (c : RouteCache) (destination : String) (gone : List String) :
    (RouteCache.without c destination).filter (fun _ r => r.destination ∉ gone) =
      c.filter fun _ r => r.destination ∉ destination :: gone := by
  refine Table.ext_get? fun key => ?_
  simp only [RouteCache.without, Table.get?_filter, Option.filter_filter]
  congr 1
  funext r
  simp [not_or]

theorem filter_filter_destination (listed : List Route) (destination : String)
    (gone : List String) :
    (listed.filter fun r => r.destination ≠ destination).filter (fun r => r.destination ∉ gone) =
      listed.filter fun r => r.destination ∉ destination :: gone := by
  rw [List.filter_filter]
  refine List.filter_congr fun r _ => ?_
  simp [not_or, Bool.and_comm]

theorem filter_not_mem_nil (c : RouteCache) :
    c.filter (fun _ r => r.destination ∉ ([] : List String)) = c := by
  refine Table.ext_get? fun key => ?_
  rw [Table.get?_filter]
  cases c.get? key with
  | none => rfl
  | some r => simp [Option.filter]

theorem ends_delete_iff {c c' : RouteCache} {destination : String} {t : List Exchange}
    {x : Outcome Unit} : Ends caching (Protocol.delete destination) c t x c' ↔
      c' = c ∧ t = [⟨.lock, some ()⟩, ⟨.deleteRoute destination, some x⟩, ⟨.unlock, some ()⟩] := by
  constructor
  · intro h
    obtain ⟨c₁, t', c₂, hlock, hdelete, hunlock, rfl⟩ := h.locked_inv
    cases hdelete with
    | ask answer rest =>
      cases rest
      obtain rfl : c₁ = c := hlock
      obtain rfl : c₂ = c₁ := answer
      exact ⟨hunlock, rfl⟩
  · rintro ⟨rfl, rfl⟩
    have hlock : caching .lock c' (some ()) c' := rfl
    have hdelete : caching (.deleteRoute destination) c' (some x) c' := rfl
    have hunlock : caching .unlock c' (some ()) c' := rfl
    exact .ask hlock (.ask hdelete (.ask hunlock (.done x c')))

/-- What the loop does: one try for each route, and after a success the destination is gone. -/
theorem ends_deleteConflicting_iff {routes listed left : List Route} {c c' : RouteCache}
    {t : List Exchange} :
    Ends caching (Reconcile.deleteConflicting routes listed) c t left c' ↔
      ∃ removals : List Removal, removals.map Removal.route = routes ∧
        t = removals.flatMap Removal.exchanges ∧
        left = listed.filter (fun r => r.destination ∉ Removal.deleted removals) ∧
        c' = c.filter fun _ r => r.destination ∉ Removal.deleted removals := by
  induction routes generalizing listed c t with
  | nil =>
    constructor
    · intro h
      cases h
      refine ⟨[], rfl, rfl, (List.filter_eq_self.2 fun r _ => ?_).symm,
        (filter_not_mem_nil c').symm⟩
      simp [Removal.deleted]
    · rintro ⟨removals, hroutes, rfl, rfl, rfl⟩
      obtain rfl := List.map_eq_nil_iff.1 hroutes
      have hlisted : listed.filter (fun r => r.destination ∉ Removal.deleted []) = listed :=
        List.filter_eq_self.2 fun r _ => by simp [Removal.deleted]
      have hc : c.filter (fun _ r => r.destination ∉ Removal.deleted []) = c :=
        filter_not_mem_nil c
      rw [hlisted, hc]
      exact .done listed c
  | cons route rest ih =>
    constructor
    · intro h
      obtain ⟨t₁, x, c₁, t₂, hdelete, hrest, rfl⟩ := Ends.bind_inv h
      obtain ⟨rfl, rfl⟩ := ends_delete_iff.1 hdelete
      cases x with
      | error e =>
        obtain ⟨removals, rfl, rfl, rfl, rfl⟩ := ih.1 hrest
        exact ⟨⟨route, .error e⟩ :: removals, rfl, rfl, rfl, rfl⟩
      | ok u =>
        obtain ⟨y, c₂, t₃, hevict, hloop, rfl⟩ := Ends.ask_inv hrest
        obtain rfl : c₂ = RouteCache.without c₁ route.destination := hevict
        obtain ⟨removals, rfl, rfl, rfl, rfl⟩ := ih.1 hloop
        refine ⟨⟨route, .ok u⟩ :: removals, rfl, rfl, ?_, ?_⟩
        · exact filter_filter_destination listed route.destination _
        · exact without_filter c₁ route.destination _
    · rintro ⟨removals, hroutes, rfl, rfl, rfl⟩
      obtain ⟨⟨r, x⟩, removals, rfl, rfl, rfl⟩ := List.map_eq_cons_iff.1 hroutes
      have hdelete : Ends caching (Protocol.delete r.destination) c _ x c :=
        ends_delete_iff.2 ⟨rfl, rfl⟩
      refine hdelete.bind ?_
      cases x with
      | error e => exact ih.2 ⟨removals, rfl, rfl, rfl, rfl⟩
      | ok u =>
        have hevict : caching (.evict r.destination) c (some ())
            (RouteCache.without c r.destination) := rfl
        refine .ask hevict (ih.2 ⟨removals, rfl, rfl, ?_, ?_⟩)
        · exact (filter_filter_destination listed r.destination _).symm
        · exact (without_filter c r.destination _).symm

/-! ### The step -/

theorem filter_inConflict (stored : List Node) (listed : List Route) :
    listed.filter (fun r => InConflict stored r) =
      listed.filter (Reconcile.conflictsWithAny (stored.filter fun n => !n.isExcluded)) :=
  List.filter_congr fun r _ => by simp [inConflict_iff]

theorem ends_dropConflicts_iff {c c' : RouteCache} {t : List Exchange}
    {result : Outcome (List Node × List Route)} :
    Ends caching Reconcile.dropConflicts c t result c' ↔
      (∃ e, ListingFailed e t ∧ result = .error e ∧ c' = c) ∨
        ∃ stored listed removals, ConflictsDropped stored listed removals c t result c' := by
  constructor
  · intro hrun
    obtain ⟨x, c₁, t₁, hnodes, hafter, rfl⟩ := hrun.ask_inv
    obtain rfl : c₁ = c := hnodes
    rcases x with e | stored
    · cases hafter
      exact .inl ⟨e, .inl rfl, rfl, rfl⟩
    obtain ⟨y, c₂, t₂, hroutes, hrest, rfl⟩ := Ends.ask_inv hafter
    obtain rfl : c₂ = c₁ := hroutes
    rcases y with e | listed
    · cases hrest
      exact .inl ⟨e, .inr ⟨stored, rfl⟩, rfl, rfl⟩
    obtain ⟨left, hloop, rfl⟩ := Ends.map_inv hrest
    obtain ⟨removals, htried, rfl, rfl, rfl⟩ := ends_deleteConflicting_iff.1 hloop
    exact .inr ⟨stored, listed, removals, htried.trans (filter_inConflict stored listed).symm,
      rfl, rfl, rfl⟩
  · have hnodes (x : Outcome (List Node)) : caching .listNodes c (some x) c := rfl
    have hroutes (x : Outcome (List Route)) : caching .listRoutes c (some x) c := rfl
    rintro (⟨e, rfl | ⟨stored, rfl⟩, rfl, rfl⟩ |
      ⟨stored, listed, removals, htried, rfl, rfl, rfl⟩)
    · exact .ask (hnodes _) (.done _ _)
    · exact .ask (hnodes _) (.ask (hroutes _) (.done _ _))
    · have hloop : Ends caching (Reconcile.deleteConflicting (listed.filter
          (Reconcile.conflictsWithAny (stored.filter fun n => !n.isExcluded))) listed) c _ _ _ :=
        ends_deleteConflicting_iff.2
          ⟨removals, htried.trans (filter_inConflict stored listed), rfl, rfl, rfl⟩
      exact .ask (hnodes _) (.ask (hroutes _) hloop.map)

/-! ### The pass -/

/-- A request that lists nothing. -/
def Control.Request.ListsNothing (r : Request) : Prop := r ≠ .listNodes ∧ r ≠ .listRoutes

theorem Node.MayAsk.listsNothing {n : Node} {r : Request} (h : n.MayAsk r) : r.ListsNothing := by
  constructor
  · rintro rfl
    exact h
  · rintro rfl
    exact h

theorem Only.listsNothing_deleteConflicting {routes listed : List Route} :
    Only Request.ListsNothing (Reconcile.deleteConflicting routes listed) := by
  induction routes generalizing listed with
  | nil => exact Only.done _
  | cons route rest ih =>
    have hdelete : Only Request.ListsNothing (Protocol.delete route.destination) :=
      Only.locked (Only.ask ⟨nofun, nofun⟩) ⟨nofun, nofun⟩ ⟨nofun, nofun⟩
    refine Only.bind hdelete fun x => ?_
    cases x with
    | error e => exact ih
    | ok u => exact Only.askThen ⟨nofun, nofun⟩ fun _ => ih

/-- The requests of a run are those that the program may ask for. -/
theorem Only.ends {α : Type} {R : Request → Prop} {E : Surroundings RouteCache} {p : Control α}
    {c c' : RouteCache} {t : List Exchange} {a : α} (h : Only R p) (he : Ends E p c t a c') :
    ∀ y ∈ t, R y.request :=
  (Meets.of_only (I := fun _ => True) h (fun _ _ _ _ _ _ _ => trivial) (fun _ _ _ hr => hr)
    trivial : Meets E (fun _ r => R r) (fun _ _ => True) p c).requests he

theorem Only.listsNothing_step (stored : List Node) (listed : List Route) :
    Only Request.ListsNothing (do
      let left ← Reconcile.deleteConflicting (listed.filter
        (Reconcile.conflictsWithAny (stored.filter fun n => !n.isExcluded))) listed
      return (.ok (stored.filter fun n => !n.isExcluded, left) :
        Outcome (List Node × List Route))) :=
  Only.bind Only.listsNothing_deleteConflicting fun _ => Only.done _

theorem HasFailedListing.of_cons {e : RouteError} {y : Exchange} {t : List Exchange}
    (h : HasFailedListing e (y :: t)) (hnodes : y ≠ ⟨.listNodes, some (.error e)⟩)
    (hroutes : y ≠ ⟨.listRoutes, some (.error e)⟩) : HasFailedListing e t := by
  rcases h with h | h
  · exact .inl ((List.mem_cons.1 h).resolve_left hnodes.symm)
  · exact .inr ((List.mem_cons.1 h).resolve_left hroutes.symm)

theorem hasFailedListing_append {e : RouteError} {t u : List Exchange} :
    HasFailedListing e (t ++ u) ↔ HasFailedListing e t ∨ HasFailedListing e u := by
  simp only [HasFailedListing, List.mem_append]
  exact or_or_or_comm

theorem not_hasFailedListing {e : RouteError} {t : List Exchange}
    (h : ∀ y ∈ t, y.request.ListsNothing) : ¬HasFailedListing e t := by
  rintro (hmem | hmem)
  · exact (h _ hmem).1 rfl
  · exact (h _ hmem).2 rfl

/-- A listing that fails ends the listings and deletes of a pass, under whatever deadline. -/
theorem failed_within {e : RouteError} {limit : Nat} {c c' : RouteCache} {t : List Exchange}
    {o : Option (Outcome (List Node × List Route))}
    (h : Ends caching (Control.within limit Reconcile.dropConflicts) c t o c')
    (hfailed : HasFailedListing e t) :
    o = some (.error e) ∧ c' = c ∧ ∀ y ∈ t, y.request.OnlyLooks := by
  obtain ⟨start, c₁, t₁, hnow, hbounded, rfl⟩ := h.ask_inv
  obtain rfl : c₁ = c := hnow
  obtain ⟨x, c₂, t₂, hnodes, rfl, hlate, hlisted⟩ := Ends.bounded_inv hbounded
  replace hfailed := hfailed.of_cons nofun nofun
  rcases x with _ | e₁ | stored
  · obtain rfl : c₂ = c₁ := hnodes
    cases hlate rfl
    simp [HasFailedListing] at hfailed
  · obtain rfl : c₂ = c₁ := hnodes
    cases hlisted _ rfl
    rcases hfailed with hmem | hmem
    · cases List.mem_singleton.1 hmem
      simp [Request.OnlyLooks]
    · cases List.mem_singleton.1 hmem
  · obtain rfl : c₂ = c₁ := hnodes
    obtain ⟨y, c₃, t₃, hroutes, rfl, hlate', hdeletes⟩ := Ends.bounded_inv (hlisted _ rfl)
    replace hfailed := hfailed.of_cons nofun nofun
    rcases y with _ | e₁ | listed
    · obtain rfl : c₃ = c₂ := hroutes
      cases hlate' rfl
      simp [HasFailedListing] at hfailed
    · obtain rfl : c₃ = c₂ := hroutes
      cases hdeletes _ rfl
      rcases hfailed with hmem | hmem
      · cases List.mem_singleton.1 hmem
      · cases List.mem_singleton.1 hmem
        simp [Request.OnlyLooks]
    · replace hfailed := hfailed.of_cons nofun nofun
      have hquiet := Only.listsNothing_step stored listed
      exact absurd hfailed (not_hasFailedListing
        ((hquiet.bounded ⟨nofun, nofun⟩ _ _).ends (hdeletes _ rfl)))

theorem listsNothing_after {settings : Settings} {b : Backoff} {c c' : RouteCache}
    {t : List Exchange} {x : Outcome Unit} {o : Option (Outcome (List Node × List Route))}
    (h : Ends caching (match o with
      | none => return .error (.internal .listingTimedOut)
      | some (.error e) => return .error e
      | some (.ok (nodes, routes)) => do
        Reconcile.syncNodes settings b routes nodes
        return .ok ()) c t x c') : ∀ y ∈ t, y.request.ListsNothing := by
  rcases o with _ | e | ⟨nodes, routes⟩
  · cases h
    simp
  · cases h
    simp
  · have hnodes : Only Request.ListsNothing (Reconcile.syncNodes settings b routes nodes) := by
      refine Only.syncNodes.mono ?_
      rintro r ⟨n, -, hr⟩
      exact hr.listsNothing
    exact (Only.bind hnodes fun _ => Only.done _).ends h

/-- If a listing fails, its error is the result of the pass, and nothing is changed. -/
theorem failed_pass {e : RouteError} {settings : Settings} {b : Backoff} {c c' : RouteCache}
    {t : List Exchange} {x : Outcome Unit}
    (h : Ends caching (Reconcile.reconcileAll settings b) c t x c')
    (hfailed : HasFailedListing e t) :
    x = .error e ∧ c' = c ∧ ∀ y ∈ t, y.request.OnlyLooks := by
  unfold Reconcile.reconcileAll at h
  split at h
  · obtain ⟨start, c₁, t₁, hnow, hsync, rfl⟩ := h.ask_inv
    obtain rfl : c₁ = c := hnow
    replace hfailed := hfailed.of_cons nofun nofun
    obtain ⟨t₂, result, c₂, t₃, hroutes, hend, rfl⟩ := hsync.bind_inv
    obtain ⟨u, c₃, t₄, hobserve, hdone, rfl⟩ := hend.ask_inv
    obtain rfl : c₃ = c₂ := hobserve
    cases hdone
    obtain ⟨t₅, o, c₄, t₆, hwithin, hafter, rfl⟩ := hroutes.bind_inv
    have hlater := not_hasFailedListing (e := e) (listsNothing_after hafter)
    have hobserved : ¬HasFailedListing e [⟨.observe .reconcile start, some u⟩] :=
      not_hasFailedListing (by simp [Request.ListsNothing])
    have hearly : HasFailedListing e t₅ := by
      simpa [hasFailedListing_append, hlater, hobserved] using hfailed
    obtain ⟨rfl, rfl, hlooks⟩ := failed_within hwithin hearly
    cases hafter
    refine ⟨rfl, rfl, List.forall_mem_cons.2 ⟨trivial, List.forall_mem_append.2 ⟨?_, ?_⟩⟩⟩
    · rwa [List.append_nil]
    · exact List.forall_mem_singleton.2 trivial
  · cases h
    simp [HasFailedListing] at hfailed

/-- The conflict step tries each listed route in conflict with an included node once and in order,
and no other; what it cannot delete stays in the list and in the cache. A listing that fails is the
result of the step and of the pass, and then nothing is deleted, created, patched or forgotten. -/
theorem conflicts_are_dropped (c : RouteCache) :
    (∀ t result c', Ends caching Reconcile.dropConflicts c t result c' ↔
      (∃ e, ListingFailed e t ∧ result = .error e ∧ c' = c) ∨
        ∃ stored listed removals, ConflictsDropped stored listed removals c t result c') ∧
    ∀ settings b t x c', Ends caching (Reconcile.reconcileAll settings b) c t x c' →
      ∀ e, HasFailedListing e t → x = .error e ∧ c' = c ∧ ∀ y ∈ t, y.request.OnlyLooks :=
  ⟨fun _ _ _ => ends_dropConflicts_iff, fun _ _ _ _ _ h _ hfailed => failed_pass h hfailed⟩

/-! ### A listing with repetitions -/

def splitNode : Node := Node.plain "n1" "10.244.1.0/24" "i-1"

/-- Two routes to the pod network, of which one is the node's own, one to half of it, and one with a
destination that cannot be read. -/
def splitListing : List Route :=
  [.named "r-1" "10.244.1.0/24" "i-2", .named "r-2" "10.244.1.128/25" "i-1",
    .named "r-3" "10.244.1.0/24" "i-1", .named "r-4" "somewhere" "i-1"]

def splitCache : RouteCache :=
  .ofList [("n1", .named "r-3" "10.244.1.0/24" "i-1"), ("n2", .named "r-2" "10.244.1.128/25" "i-1")]

def splitRemovals : List Removal :=
  [⟨.named "r-1" "10.244.1.0/24" "i-2", .ok ()⟩,
    ⟨.named "r-2" "10.244.1.128/25" "i-1", .error (.gateway "503")⟩]

def refusedListing : List Exchange :=
  [⟨.now, some (0 : Nat)⟩, ⟨.now, some (0 : Nat)⟩, ⟨.listNodes, some (.error (.gateway "503"))⟩,
    ⟨.observe .reconcile 0, some ()⟩]

theorem ends_refusedListing : Ends caching (Reconcile.reconcileAll {} .standard) splitCache
    refusedListing (.error (.gateway "503")) splitCache := by
  have hnow : caching .now splitCache (some (0 : Nat)) splitCache := rfl
  have hnodes : caching .listNodes splitCache (some (.error (.gateway "503"))) splitCache := rfl
  have hobserve : caching (.observe .reconcile 0) splitCache (some ()) splitCache := rfl
  have hlistings : Ends caching (Control.within 120000 Reconcile.dropConflicts) splitCache _ _ _ :=
    .ask hnow (Ends.bounded_ask hnodes (.done _ _))
  have hroutes : Ends caching (Reconcile.syncRoutes {} .standard) splitCache _ _ _ :=
    hlistings.bind (.done _ _)
  exact .ask hnow (hroutes.bind (.ask hobserve (.done _ _)))

theorem split_listing_is_dropped :
    Ends caching Reconcile.dropConflicts splitCache
        (⟨.listNodes, some (.ok [splitNode])⟩ :: ⟨.listRoutes, some (.ok splitListing)⟩ ::
          splitRemovals.flatMap Removal.exchanges)
        (.ok ([splitNode], [.named "r-2" "10.244.1.128/25" "i-1", .named "r-4" "somewhere" "i-1"]))
        (.ofList [("n2", .named "r-2" "10.244.1.128/25" "i-1")]) ∧
      ∀ y ∈ refusedListing, y.request.OnlyLooks := by
  constructor
  · refine ((conflicts_are_dropped splitCache).1 _ _ _).2
      (.inr ⟨[splitNode], splitListing, splitRemovals, ?_, rfl, ?_, ?_⟩)
    · decide +kernel
    · have hnodes : [splitNode].filter (fun n => !n.isExcluded) = [splitNode] := by decide +kernel
      have hroutes : splitListing.filter
          (fun r => r.destination ∉ Removal.deleted splitRemovals) =
          [.named "r-2" "10.244.1.128/25" "i-1", .named "r-4" "somewhere" "i-1"] := by
        decide +kernel
      rw [hnodes, hroutes]
    · decide +kernel
  · exact ((conflicts_are_dropped splitCache).2 _ _ _ _ _ ends_refusedListing
      (.gateway "503") (.inl (by simp [refusedListing]))).2.2

end PodRoutes
