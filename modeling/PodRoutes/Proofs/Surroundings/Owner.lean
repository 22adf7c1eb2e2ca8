import PodRoutes.Proofs.Surroundings.Changing
import PodRoutes.Proofs.World.History

/-!
# Who has a destination

Once a call has given back the route of an instance to a destination, the table keeps that route
until it is deleted: no later call replaces it, creates it again or gives it to another instance,
whatever errors the gateway is made to report (`owner_keeps_route`).
-/

namespace PodRoutes

open Control Protocol

/-! ### Calls one after another -/

/-- A call that was made, with its exchanges and its result, and the world after it. -/
structure CallRecord where
  call : Call
  exchanges : List Exchange
  result : Outcome CallResult
  after : World

def Calls (E : Surroundings World) (b : Backoff) : World → List CallRecord → Prop
  | _, [] => True
  | w, k :: rest =>
    Ends E (k.call.program b) w k.exchanges k.result k.after ∧ Calls E b k.after rest

theorem exists_calls {D : World → World → Prop} (hD : ∀ v w, World.SameGateway v w → D v w)
    (b : Backoff) (calls : List Call) (w : World) :
    ∃ records, Calls (World.changing D) b w records ∧ records.map CallRecord.call = calls := by
  induction calls generalizing w with
  | nil => exact ⟨[], trivial, rfl⟩
  | cons call rest ih =>
    obtain ⟨t, hends⟩ := World.ends_run hD (call.program b) w
    obtain ⟨records, hcalls, hmap⟩ := ih (w.run (call.program b)).2
    exact ⟨⟨call, t, _, _⟩ :: records, ⟨hends, hcalls⟩, by rw [List.map_cons, hmap]⟩

def Protocol.CallResult.route? : CallResult → Option Route
  | route r => some r
  | ensured r => some r.route
  | _ => none

/-- The route of an instance is in the table, and a call for its destination leaves it to it. -/
structure CallRecord.Upholds (k : CallRecord) (i c : String) (r : Route) : Prop where
  entry : k.after.gateway.table.get? c = some r
  ensured : ∀ j, k.call = .ensure j c none → (∀ y ∈ k.exchanges, y.request.created? = none) ∧
    ((∃ e, k.result = .error (.lookup c e)) ∨
      k.result = if j = i then .ok (.ensured (.existing r)) else .error (.ownedByOther c i j))
  created : ∀ j, k.call = .create j c → ∀ x, k.result = .ok x → j = i ∧ x = .route r

/-! ### One call -/

section Call

variable {b : Backoff} {i j c : String} {r : Route} {v w : World} {t : List Exchange} {call : Call}

theorem Protocol.Call.MayAsk.ne_delete (hcall : call ≠ .delete c) {q : Request}
    (h : call.MayAsk q) : q ≠ .deleteRoute c := by
  rintro rfl
  cases call with
  | create i c' => exact h
  | ensure i c' atHand => exact h
  | find c' atHand => cases h
  | list => cases h
  | delete c' =>
    rcases h with h | h | h
    · cases h
      exact hcall rfl
    · cases h
    · cases h

theorem call_keeps_route {x : Outcome CallResult} (hcall : call ≠ .delete c)
    (hr : v.gateway.table.get? c = some r)
    (he : Ends (World.changing World.SameTable) (call.program b) v t x w) :
    w.gateway.table.get? c = some r := by
  have hmeets : Meets (World.changing World.SameTable) (fun _ _ => True)
      (fun w _ => w.gateway.table.get? c = some r) (call.program b) v := by
    refine Meets.of_only call.only_program ?_ (fun _ _ _ _ => trivial) hr
    intro q v x w hq hr hx
    obtain ⟨u, hu, hhonest⟩ := hx
    have hr : u.gateway.table.get? c = some r := by rw [hu, hr]
    rcases hhonest.after_eq with hw | hw
    · obtain rfl : w = u := hw
      exact hr
    · obtain rfl : w = (u.effect q).2 := hw
      exact World.keeps_route (hq.ne_delete hcall) hr
  exact hmeets.ends he

theorem call_keeps_keyed {x : Outcome CallResult}
    (hv : v.gateway.table.KeyedBy Route.destination)
    (he : Ends (World.changing World.SameTable) (call.program b) v t x w) :
    w.gateway.table.KeyedBy Route.destination := by
  have hmeets : Meets (World.changing World.SameTable) (fun _ _ => True)
      (fun w _ => w.gateway.table.KeyedBy Route.destination) (call.program b) v := by
    refine Meets.of_only (Only.any _) ?_ (fun _ _ _ _ => trivial) hv
    intro q v x w _ hv hx
    obtain ⟨u, hu, hhonest⟩ := hx
    have hkeyed : u.gateway.table.KeyedBy Route.destination := by
      rw [hu]
      exact hv
    rcases hhonest.after_eq with hw | hw
    · obtain rfl : w = u := hw
      exact hkeyed
    · obtain rfl : w = (u.effect q).2 := hw
      exact World.routes_effect hkeyed q
  exact hmeets.ends he

/-- A call that gives back a route has found it in the table, and its instance owns it. -/
theorem call_gives_route {x : CallResult} (hcall : call = .create i c ∨ call = .ensure i c none)
    (hx : x.route? = some r)
    (he : Ends (World.changing World.SameTable) (call.program b) v t (.ok x) w) :
    w.gateway.table.get? c = some r ∧ r.instanceId = i := by
  rcases hcall with rfl | rfl
  · obtain ⟨y, hcreate, hy⟩ := Ends.map_inv he
    have hplaces := World.truthful_changing.meets_create.ends hcreate
    cases y with
    | error e => cases hy
    | ok q =>
      cases hy
      cases hx
      exact hplaces.entry r rfl
  · obtain ⟨y, hensure, hy⟩ := Ends.map_inv he
    have hplaces := World.truthful_changing.meets_ensure.ends hensure
    cases y with
    | error e => cases hy
    | ok q =>
      cases hy
      cases hx
      exact hplaces.entry q.route rfl

theorem call_upholds {x : Outcome CallResult} (hcall : call ≠ .delete c) (hi : r.instanceId = i)
    (hd : r.destination = c) (hr : v.gateway.table.get? c = some r)
    (he : Ends (World.changing World.SameTable) (call.program b) v t x w) :
    CallRecord.Upholds ⟨call, t, x, w⟩ i c r := by
  have hentry : w.gateway.table.get? c = some r := call_keeps_route hcall hr he
  refine ⟨hentry, ?_, ?_⟩
  · rintro j rfl
    obtain ⟨y, hensure, rfl⟩ := Ends.map_inv he
    obtain ⟨hreports, -⟩ := World.truthful_changing.ensure_of_taken hr hd hensure
    refine ⟨hreports.creates, ?_⟩
    rcases hreports.answer with hy | ⟨⟨e, hy⟩, -⟩
    · right
      by_cases hj : j = i
      · have howned : r.isOwnedBy j = true := by simp [Route.isOwnedBy_iff, hi, hj]
        rw [if_pos howned] at hy
        rw [hy, if_pos hj]
        rfl
      · have hother : ¬r.isOwnedBy j = true := by simp [Route.isOwnedBy_iff, hi, Ne.symm hj]
        rw [if_neg hother, hi] at hy
        rw [hy, if_neg hj]
        rfl
    · left
      exact ⟨e, by rw [hy]; rfl⟩
  · rintro j rfl y rfl
    have hroute : ∃ q, y = .route q := by
      obtain ⟨o, -, ho⟩ := Ends.map_inv he
      cases o with
      | error e => cases ho
      | ok q =>
        cases ho
        exact ⟨q, rfl⟩
    obtain ⟨q, rfl⟩ := hroute
    obtain ⟨hq, howner⟩ := call_gives_route (Or.inl rfl) rfl he
    rw [hentry] at hq
    cases hq
    exact ⟨howner.symm.trans hi, rfl⟩

end Call

/-! ### Any number of calls -/

theorem calls_uphold {b : Backoff} {i c : String} {r : Route} {w : World}
    {records : List CallRecord} (hi : r.instanceId = i) (hd : r.destination = c)
    (hr : w.gateway.table.get? c = some r)
    (hcalls : Calls (World.changing World.SameTable) b w records)
    (hkept : ∀ k ∈ records, k.call ≠ .delete c) : ∀ k ∈ records, k.Upholds i c r := by
  induction records generalizing w with
  | nil => simp
  | cons k rest ih =>
    obtain ⟨hends, hrest⟩ := hcalls
    obtain ⟨hk, hkeptRest⟩ := List.forall_mem_cons.1 hkept
    have hupholds : k.Upholds i c r := call_upholds hk hi hd hr hends
    exact List.forall_mem_cons.2 ⟨hupholds, ih hupholds.entry hrest hkeptRest⟩

/-- A destination whose route a call gave back is created no more and keeps its owner, as long as
it is not deleted. -/
theorem owner_keeps_route {b : Backoff} {i c : String} {first : Call} {w w₁ : World}
    {t : List Exchange} {x : CallResult} {r : Route} {later : List CallRecord}
    (hkeyed : w.gateway.table.KeyedBy Route.destination)
    (hfirst : first = .create i c ∨ first = .ensure i c none)
    (hrun : Ends (World.changing World.SameTable) (first.program b) w t (.ok x) w₁)
    (hr : x.route? = some r) (hlater : Calls (World.changing World.SameTable) b w₁ later)
    (hkept : ∀ k ∈ later, k.call ≠ .delete c) :
    r.instanceId = i ∧ w₁.gateway.table.get? c = some r ∧ ∀ k ∈ later, k.Upholds i c r := by
  obtain ⟨hentry, howner⟩ := call_gives_route hfirst hr hrun
  have hd : r.destination = c := call_keeps_keyed hkeyed hrun c r hentry
  exact ⟨howner, hentry, calls_uphold howner hd hentry hlater hkept⟩

/-- The gateway gives no route back, and has the route of another node already. -/
def sharedWorld : World where
  epoch := ⟨0, 0⟩
  gateway := { MemoryGateway.ofRoutes [Route.named "r-2" "10.244.2.0/24" "i-2"] with
    createReturnsNone := true
    failures.create := [.gateway "503"] }

def sharedRoute : Route := Route.named "route-1" "10.244.1.0/24" "i-1"

/-- The owner and another instance ask for the destination again, and another route is deleted. -/
def laterCalls : List Call :=
  [.ensure "i-1" "10.244.1.0/24" none, .ensure "i-2" "10.244.1.0/24" none,
    .create "i-2" "10.244.1.0/24", .delete "10.244.2.0/24"]

theorem shared_destination_keeps_route : ∃ later,
    Calls (World.changing World.SameTable) .standard
      (sharedWorld.run ((Call.create "i-1" "10.244.1.0/24").program .standard)).2 later ∧
    later.map CallRecord.call = laterCalls ∧
    ∀ k ∈ later, k.Upholds "i-1" "10.244.1.0/24" sharedRoute := by
  have hD : ∀ v w, World.SameGateway v w → World.SameTable v w := fun _ _ h => h.sameTable
  have hfirst : (sharedWorld.run ((Call.create "i-1" "10.244.1.0/24").program .standard)).1 =
      .ok (.route sharedRoute) := by decide +kernel
  obtain ⟨t, hrun⟩ := World.ends_run hD ((Call.create "i-1" "10.244.1.0/24").program .standard)
    sharedWorld
  rw [hfirst] at hrun
  obtain ⟨later, hlater, hmap⟩ := exists_calls hD .standard laterCalls
    (sharedWorld.run ((Call.create "i-1" "10.244.1.0/24").program .standard)).2
  have hkept : ∀ k ∈ later, k.call ≠ .delete "10.244.1.0/24" := by
    intro k hk
    have hmem : k.call ∈ laterCalls := by
      rw [← hmap]
      exact List.mem_map_of_mem hk
    have hall : ∀ call ∈ laterCalls, call ≠ .delete "10.244.1.0/24" := by decide
    exact hall k.call hmem
  have hkeyed := MemoryGateway.keyedBy_ofRoutes [Route.named "r-2" "10.244.2.0/24" "i-2"]
  have hupholds := owner_keeps_route (w := sharedWorld) hkeyed (Or.inl rfl) hrun rfl hlater hkept
  exact ⟨later, hlater, hmap, hupholds.2.2⟩

end PodRoutes
