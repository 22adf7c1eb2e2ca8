import Mathlib
import PodRoutes.Proofs.Cloud.Calls

/-!
# Waiting for a new route

After a create the client looks for its route in listings until one shows it. It waits an interval
after each reply, and gives up when another wait would end after the deadline. No look starts after
the deadline and each starts an interval after the end of the one before, which bounds their number
however long the replies take (`awaitRoute_keeps_time`).
-/

namespace PodRoutes.Cloud

open Web (HttpRequest HttpResponse)

/-! ### Replies that take time -/

/-- The replies to the requests of a client, one after another, and the milliseconds each takes. -/
structure TimedReplies where
  reply : Nat → Except TransportFault HttpResponse
  delay : Nat → Nat

/-- The time, the number of requests that were replied to, and what was asked at which time. -/
structure Stopwatch where
  clock : Nat
  replies : Nat := 0
  asked : List (Nat × Web.Request) := []

namespace Stopwatch

def sent (w : Stopwatch) (r : HttpRequest) (limit : Option Nat) (delay : Nat) : Stopwatch where
  clock := w.clock + delay
  replies := w.replies + 1
  asked := w.asked ++ [(w.clock, .send r limit)]

def paused (w : Stopwatch) (millis : Nat) : Stopwatch :=
  { w with clock := w.clock + millis, asked := w.asked ++ [(w.clock, .pause millis)] }

end Stopwatch

namespace TimedReplies

def answer (script : TimedReplies) :
    (r : Web.Request) → Stopwatch → Web.Reply r × Stopwatch
  | .send r limit, w => (script.reply w.replies, w.sent r limit (script.delay w.replies))
  | .pause millis, w => ((), w.paused millis)
  | .now, w => (w.clock, w)
  | .date, w => ((⟨0, 0⟩ : Instant).addMillis w.clock, w)

/-- A service that keeps to a script; reading the clock takes no time. -/
def handler (script : TimedReplies) : Program.Handler Web.interface Stopwatch where
  reply r w := script.answer r w
  replyBy _ r w :=
    let (x, w) := script.answer r w
    (some x, w)

end TimedReplies

/-- The first item with an id that a reply lists; a failure or an unreadable body lists nothing. -/
def itemIn (id : String) : Except TransportFault HttpResponse → Option RouteItem
  | .error _ => none
  | .ok response =>
    if Web.isSuccess response.status then
      match (Json.parse? response.body.read).bind RouteListing.ofJson? with
      | some listing => listing.items.find? fun item => item.id = id
      | none => none
    else none

theorem Config.waitInterval_pos {text : String} {c : Config} (h : parse text = .ok c) :
    0 < c.waitInterval := by
  rw [parse] at h
  split at h
  · cases h
  · next read _ =>
    cases hproblem : read.problem? with
    | some problem =>
      rw [hproblem] at h
      cases h
    | none =>
      rw [hproblem] at h
      cases h
      rw [problem?] at hproblem
      grind

namespace Client

variable {c : Client} {script : TimedReplies} {id destination : String} {start : Nat}

/-! ### The looks of a wait -/

/-- The request of a look; without a readable endpoint there is none. -/
def lookRequest (c : Client) (id : String) : Except TransportFault HttpRequest :=
  c.request .get "DescribeRoutes" [("RouteId.1", id)]

section Looks

variable (c : Client) (script : TimedReplies) (id destination : String) (start : Nat)

/-- What a look finds. -/
def seenAt (k : Nat) : Option RouteItem :=
  match c.lookRequest id with
  | .error _ => none
  | .ok _ => itemIn id (script.reply k)

/-- How long a look takes. -/
def lookMillis (k : Nat) : Nat :=
  match c.lookRequest id with
  | .error _ => 0
  | .ok _ => script.delay k

def intervalMillis : Nat := c.config.waitInterval * 1000

def timeoutMillis : Nat := c.config.waitTimeout * 1000

/-- The start of a look, an interval after the end of the one before. -/
def lookStart : Nat → Nat
  | 0 => start
  | k + 1 => lookStart k + c.lookMillis script id k + c.intervalMillis

def lookEnd (k : Nat) : Nat := c.lookStart script id start k + c.lookMillis script id k

def lookAsked (k : Nat) : List (Nat × Web.Request) :=
  match c.lookRequest id with
  | .error _ => []
  | .ok r => [(c.lookStart script id start k, .send r (some c.requestLimit))]

/-- What is asked up to the start of a look. -/
def askedBefore (k : Nat) : List (Nat × Web.Request) :=
  (List.range k).flatMap fun j => c.lookAsked script id start j ++
    [(c.lookEnd script id start j, .pause c.intervalMillis)]

/-- Whether another look follows a look. -/
def GoesOn (k : Nat) : Prop :=
  c.seenAt script id k = none ∧
    c.lookEnd script id start k + c.intervalMillis ≤ start + c.timeoutMillis

/-- What the wait gives when no look follows. -/
def Concludes (k : Nat) (a : Outcome Route) : Prop :=
  (∃ item, c.seenAt script id k = some item ∧ a = .ok item.toRoute) ∨
    (c.seenAt script id k = none ∧
      start + c.timeoutMillis < c.lookEnd script id start k + c.intervalMillis ∧
      a = .error (.notVisible destination))

theorem start_add_le_lookStart (k : Nat) :
    start + k * c.intervalMillis ≤ c.lookStart script id start k := by
  induction k with
  | zero => simp [lookStart]
  | succ k ih =>
    rw [lookStart, Nat.succ_mul]
    omega

theorem lookStart_of_quick (hquick : ∀ k, c.lookMillis script id k = 0) (k : Nat) :
    c.lookStart script id start k = start + k * c.intervalMillis := by
  induction k with
  | zero => simp [lookStart]
  | succ k ih =>
    rw [lookStart, ih, hquick, Nat.succ_mul]
    omega

end Looks

theorem askedBefore_succ (k : Nat) :
    c.askedBefore script id start (k + 1) = c.askedBefore script id start k ++
      (c.lookAsked script id start k ++
        [(c.lookEnd script id start k, .pause c.intervalMillis)]) := by
  simp [askedBefore, List.range_succ]

/-- A wait that ends with a look: how many looks came before it, what it gives and when. -/
structure Waited (c : Client) (script : TimedReplies) (id destination : String)
    (start further : Nat) (a : Outcome Route) (w : Stopwatch) : Prop where
  /-- There is a first look, and at most so many further ones. -/
  further_le : further ≤ c.config.waitTimeout / c.config.waitInterval
  onward : ∀ k < further, c.GoesOn script id start k
  begun : ∀ k ≤ further, c.lookStart script id start k ≤ start + c.timeoutMillis
  result : c.Concludes script id destination start further a
  asked : w.asked = c.askedBefore script id start further ++ c.lookAsked script id start further
  ended : w.clock = c.lookEnd script id start further
  /-- Replies that come at once and never show the route are awaited as often as fits. -/
  immediate : (∀ k, c.lookMillis script id k = 0 ∧ c.seenAt script id k = none) →
    further = c.config.waitTimeout / c.config.waitInterval

/-! ### One look -/

/-- What a look came to, whether it failed or found nothing. -/
def found : Outcome (Option RouteItem) → Option RouteItem
  | .error _ => none
  | .ok item => item

/-- The service after a look. -/
def looked (c : Client) (script : TimedReplies) (id : String) (w : Stopwatch) : Stopwatch :=
  match c.lookRequest id with
  | .error _ => w
  | .ok r => w.sent r (some c.requestLimit) (script.delay w.replies)

theorem run_send {method : Web.Method} {action : String} {parameters : List (String × String)}
    {r : HttpRequest} (hr : c.request method action parameters = .ok r) (w : Stopwatch) :
    (c.send method action parameters).run script.handler w =
      (match script.reply w.replies with
        | .error fault => .error (.transport fault)
        | .ok response => received action response,
      w.sent r (some c.requestLimit) (script.delay w.replies)) := by
  have hsent : (Web.send r (some c.requestLimit)).run script.handler w =
      (script.reply w.replies, w.sent r (some c.requestLimit) (script.delay w.replies)) := rfl
  rw [send, hr]
  dsimp only
  rw [Program.run_bind, hsent]
  cases script.reply w.replies <;> rfl

theorem run_describeId (script : TimedReplies) {w : Stopwatch} {k : Nat}
    (hk : ∀ r, c.lookRequest id = .ok r → w.replies = k) :
    ∃ x, (c.describeId id).run script.handler w = (x, c.looked script id w) ∧
      found x = c.seenAt script id k := by
  rw [describeId, call_eq, Program.run_bind, Program.run_bind, looked, seenAt]
  cases hr : c.lookRequest id with
  | error fault =>
    rw [lookRequest] at hr
    rw [send, hr]
    exact ⟨_, rfl, rfl⟩
  | ok r =>
    obtain rfl := hk r hr
    rw [lookRequest] at hr
    rw [run_send hr]
    refine ⟨_, rfl, ?_⟩
    cases script.reply w.replies with
    | error fault => rfl
    | ok response =>
      dsimp only [itemIn, received]
      split
      · dsimp only [decoded]
        cases (Json.parse? response.body.read).bind RouteListing.ofJson? <;> rfl
      · rfl

/-- A look gives the route, or is the last one, or is followed by a pause and further looks. -/
theorem run_pollRoute_succ {w : Stopwatch} {k : Nat}
    (hk : ∀ r, c.lookRequest id = .ok r → w.replies = k) (destination : String)
    (deadline left : Nat) :
    (c.pollRoute id destination deadline (left + 1)).run script.handler w =
      match c.seenAt script id k with
      | some item => (.ok item.toRoute, c.looked script id w)
      | none =>
        if deadline < (c.looked script id w).clock + c.intervalMillis then
          (.error (.notVisible destination), c.looked script id w)
        else (c.pollRoute id destination deadline left).run script.handler
          ((c.looked script id w).paused c.intervalMillis) := by
  obtain ⟨x, hrun, hfound⟩ := run_describeId script hk
  have hwait : ∀ v : Stopwatch, Program.run script.handler
      (Web.now >>= fun time =>
        if deadline < time + c.config.waitInterval * 1000 then
          return .error (.notVisible destination)
        else do
          Web.pause (c.config.waitInterval * 1000)
          c.pollRoute id destination deadline left) v =
      if deadline < v.clock + c.intervalMillis then (.error (.notVisible destination), v)
      else (c.pollRoute id destination deadline left).run script.handler
        (v.paused c.intervalMillis) := by
    intro v
    have hnow : Web.now.run script.handler v = (v.clock, v) := rfl
    rw [Program.run_bind, hnow]
    by_cases hover : deadline < v.clock + c.intervalMillis
    · have hover' : deadline < v.clock + c.config.waitInterval * 1000 := hover
      rw [if_pos hover, if_pos hover']
      rfl
    · have hover' : ¬ deadline < v.clock + c.config.waitInterval * 1000 := hover
      rw [if_neg hover, if_neg hover', Program.run_bind]
      rfl
  rw [pollRoute, Program.run_bind, hrun, ← hfound]
  rcases x with e | _ | item
  · exact hwait _
  · exact hwait _
  · rfl

/-! ### All looks -/

/-- What is known at the start of a look. -/
structure Begins (c : Client) (script : TimedReplies) (id : String) (start k : Nat)
    (w : Stopwatch) : Prop where
  clock : w.clock = c.lookStart script id start k
  asked : w.asked = c.askedBefore script id start k
  replies : ∀ r, c.lookRequest id = .ok r → w.replies = k

theorem Begins.looked {k : Nat} {w : Stopwatch} (h : c.Begins script id start k w) :
    (c.looked script id w).clock = c.lookEnd script id start k ∧
      (c.looked script id w).asked =
        c.askedBefore script id start k ++ c.lookAsked script id start k := by
  rw [Client.looked, lookEnd, lookAsked, lookMillis]
  cases hr : c.lookRequest id with
  | error fault => simp [h.clock, h.asked]
  | ok r => simp [Stopwatch.sent, h.clock, h.asked, h.replies r hr]

theorem Begins.next {k : Nat} {w : Stopwatch} (h : c.Begins script id start k w) :
    c.Begins script id start (k + 1) ((c.looked script id w).paused c.intervalMillis) := by
  obtain ⟨hclock, hasked⟩ := h.looked
  constructor
  case clock =>
    rw [Stopwatch.paused, hclock]
    rfl
  case asked =>
    rw [Stopwatch.paused, hclock, hasked, askedBefore_succ, List.append_assoc]
  case replies =>
    intro r hr
    rw [Stopwatch.paused, Client.looked, hr]
    exact congrArg (· + 1) (h.replies r hr)

/-- A wait that ends with a given look. -/
structure EndsWith (c : Client) (script : TimedReplies) (id destination : String)
    (start n : Nat) (a : Outcome Route) (w : Stopwatch) : Prop where
  begun : c.lookStart script id start n ≤ start + c.timeoutMillis
  result : c.Concludes script id destination start n a
  asked : w.asked = c.askedBefore script id start n ++ c.lookAsked script id start n
  ended : w.clock = c.lookEnd script id start n

/-- The looks from some look on, as long as the bound on their number is beyond the deadline. -/
theorem pollRoute_stops {k left : Nat} {w : Stopwatch} (h : c.Begins script id start k w)
    (hbegun : c.lookStart script id start k ≤ start + c.timeoutMillis)
    (hleft : start + c.timeoutMillis < c.lookStart script id start k + left * c.intervalMillis) :
    ∃ n ≥ k, (∀ j, k ≤ j → j < n → c.GoesOn script id start j) ∧
      c.EndsWith script id destination start n
        ((c.pollRoute id destination (start + c.timeoutMillis) left).run script.handler w).1
        ((c.pollRoute id destination (start + c.timeoutMillis) left).run script.handler w).2 := by
  induction left generalizing k w with
  | zero =>
    rw [Nat.zero_mul] at hleft
    omega
  | succ left ih =>
    obtain ⟨hclock, hasked⟩ := h.looked
    have hnone : ∀ j, k ≤ j → j < k → c.GoesOn script id start j := fun j _ _ => by omega
    rw [run_pollRoute_succ h.replies, hclock]
    cases hseen : c.seenAt script id k with
    | some item =>
      exact ⟨k, Nat.le_refl k, hnone, hbegun, .inl ⟨item, hseen, rfl⟩, hasked, hclock⟩
    | none =>
      dsimp only
      split
      · next hover =>
        exact ⟨k, Nat.le_refl k, hnone, hbegun, .inr ⟨hseen, hover, rfl⟩, hasked, hclock⟩
      · next hmore =>
        have hnext : c.lookStart script id start (k + 1) =
            c.lookEnd script id start k + c.intervalMillis := rfl
        have hlater : c.lookStart script id start k ≤ c.lookEnd script id start k :=
          Nat.le_add_right _ _
        rw [Nat.succ_mul] at hleft
        obtain ⟨n, hkn, honward, hends⟩ := ih h.next (by omega) (by omega)
        refine ⟨n, Nat.le_of_succ_le hkn, ?_, hends⟩
        intro j hkj hjn
        rcases Nat.eq_or_lt_of_le hkj with rfl | hlt
        · exact ⟨hseen, Nat.le_of_not_lt hmore⟩
        · exact honward j hlt hjn

theorem EndsWith.waited {further : Nat} {a : Outcome Route} {w : Stopwatch}
    (h : c.EndsWith script id destination start further a w)
    (hinterval : 0 < c.config.waitInterval)
    (honward : ∀ k < further, c.GoesOn script id start k) :
    c.Waited script id destination start further a w where
  further_le := by
    have hroom := c.start_add_le_lookStart script id start further
    have hlast := h.begun
    rw [intervalMillis, ← Nat.mul_assoc] at hroom
    rw [timeoutMillis] at hlast
    rw [Nat.le_div_iff_mul_le hinterval]
    omega
  onward := honward
  begun k hk := by
    rcases Nat.eq_or_lt_of_le hk with rfl | hlt
    · exact h.begun
    · have hlater : c.lookStart script id start k ≤ c.lookEnd script id start k :=
        Nat.le_add_right _ _
      have hroom := (honward k hlt).2
      omega
  result := h.result
  asked := h.asked
  ended := h.ended
  immediate hquick := by
    have hlast := h.begun
    rcases h.result with ⟨item, hseen, -⟩ | ⟨-, hover, -⟩
    · rw [(hquick further).2] at hseen
      cases hseen
    · have hstart := c.lookStart_of_quick script id start (fun k => (hquick k).1) further
      rw [lookEnd, (hquick further).1, Nat.add_zero, hstart, intervalMillis, timeoutMillis,
        ← Nat.mul_assoc] at hover
      rw [hstart, intervalMillis, timeoutMillis, ← Nat.mul_assoc] at hlast
      exact (Nat.div_eq_of_lt_le (by omega) (by rw [Nat.succ_mul]; omega)).symm

theorem run_awaitRoute (w : Stopwatch) :
    (c.awaitRoute id destination).run script.handler w =
      (c.pollRoute id destination (w.clock + c.timeoutMillis)
        (c.config.waitTimeout / c.config.waitInterval + 1)).run script.handler w := by
  have hnow : Web.now.run script.handler w = (w.clock, w) := rfl
  rw [awaitRoute, Program.run_bind, hnow, timeoutMillis]

/-- The wait ends with a look, whatever the replies are and however long they take: the looks keep
their distance and the deadline, and the route is given up only when no more time is left. -/
theorem awaitRoute_keeps_time (c : Client) (text : String) (h : Config.parse text = .ok c.config)
    (script : TimedReplies) (id destination : String) (start : Nat) :
    ∃ further, c.Waited script id destination start further
      ((c.awaitRoute id destination).run script.handler { clock := start }).1
      ((c.awaitRoute id destination).run script.handler { clock := start }).2 := by
  have hinterval := Config.waitInterval_pos h
  have hbegins : c.Begins script id start 0 { clock := start } := ⟨rfl, rfl, fun _ _ => rfl⟩
  have hbegun : c.lookStart script id start 0 ≤ start + c.timeoutMillis := Nat.le_add_right _ _
  have hleft : start + c.timeoutMillis < c.lookStart script id start 0 +
      (c.config.waitTimeout / c.config.waitInterval + 1) * c.intervalMillis := by
    have hwhole := Nat.lt_div_mul_add (a := c.config.waitTimeout) hinterval
    rw [lookStart, intervalMillis, timeoutMillis, ← Nat.mul_assoc, Nat.succ_mul]
    omega
  obtain ⟨n, -, honward, hends⟩ := pollRoute_stops hbegins hbegun hleft
  rw [run_awaitRoute]
  exact ⟨n, hends.waited hinterval fun k hk => honward k (Nat.zero_le k) hk⟩

/-! ### A route that is seen at the third look -/

def patient : Client where
  config := {
    endpoint := "http://[::1]", vpcId := "vpc-1", region := "", clusterId := ""
    headers := Table.empty, securityToken := none
    waitTimeout := 7, waitInterval := 2, requestTimeout := 30 }
  headers := Table.empty

def newItem : RouteItem := ⟨"r-1", "", "", "10.0.1.0/24", ["i-1"]⟩

/-- A connection that is closed, a body that is no listing, and then the route. -/
def thirdTime : TimedReplies where
  reply
    | 0 => .error .closed
    | 1 => .ok ⟨200, .text "soon"⟩
    | _ => .ok ⟨200, .text ("\x7b\"RouteSet\":[\x7b\"RouteId\":\"r-1\"," ++
        "\"DestinationCidrBlock\":\"10.0.1.0/24\",\"NextHopset\":[\x7b\"GatewayId\":\"i-1\"\x7d]" ++
        "\x7d]\x7d")⟩
  delay
    | 0 => 1000
    | 1 => 500
    | _ => 250

def patientText : String :=
  "\x7b\"network_endpoint\":\"http://[::1]\",\"vpc_id\":\"vpc-1\"," ++
    "\"wait_timeout_seconds\":7,\"wait_interval_seconds\":2\x7d"

theorem parse_patientText : Config.parse patientText = .ok patient.config := by
  have hread : (Json.parse? patientText).bind Config.ofJson? = some patient.config := by cbv
  have hproblem : patient.config.problem? = none := by decide
  rw [Config.parse, hread]
  dsimp only
  rw [hproblem]

theorem seenAt_thirdTime :
    patient.seenAt thirdTime "r-1" 0 = none ∧ patient.seenAt thirdTime "r-1" 1 = none ∧
      patient.seenAt thirdTime "r-1" 2 = some newItem := by
  obtain ⟨r, hr⟩ : ∃ r, patient.lookRequest "r-1" = .ok r := ⟨_, rfl⟩
  have hbody : itemIn "r-1" (thirdTime.reply 1) = none := by cbv
  have hlisted : itemIn "r-1" (thirdTime.reply 2) = some newItem := by cbv
  rw [seenAt, seenAt, seenAt, hr]
  exact ⟨rfl, hbody, hlisted⟩

/-- The looks start at 0, 3000 and 5500. -/
theorem lookEnd_thirdTime :
    patient.lookEnd thirdTime "r-1" 0 0 = 1000 ∧ patient.lookEnd thirdTime "r-1" 0 1 = 3500 ∧
      patient.lookEnd thirdTime "r-1" 0 2 = 5750 := by
  obtain ⟨r, hr⟩ : ∃ r, patient.lookRequest "r-1" = .ok r := ⟨_, rfl⟩
  have hmillis : ∀ k, patient.lookMillis thirdTime "r-1" k = thirdTime.delay k := by
    intro k
    rw [lookMillis, hr]
  have hinterval : patient.intervalMillis = 2000 := rfl
  simp only [lookEnd, lookStart, hmillis, hinterval]
  decide

theorem awaitRoute_at_third_look :
    Config.parse patientText = .ok patient.config ∧
      ((patient.awaitRoute "r-1" "10.0.1.0/24").run thirdTime.handler { clock := 0 }).1 =
        .ok newItem.toRoute ∧
      ((patient.awaitRoute "r-1" "10.0.1.0/24").run thirdTime.handler { clock := 0 }).2.clock =
        5750 := by
  obtain ⟨further, hwaited⟩ :=
    awaitRoute_keeps_time patient _ parse_patientText thirdTime "r-1" "10.0.1.0/24" 0
  obtain ⟨hseen₀, hseen₁, hseen₂⟩ := seenAt_thirdTime
  obtain ⟨hend₀, hend₁, hend₂⟩ := lookEnd_thirdTime
  have htimeout : patient.timeoutMillis = 7000 ∧ patient.intervalMillis = 2000 := ⟨rfl, rfl⟩
  have hfew : further ≤ 2 := by
    by_contra hmany
    have hnone := (hwaited.onward 2 (by omega)).1
    rw [hseen₂] at hnone
    cases hnone
  have hresult := hwaited.result
  have hended := hwaited.ended
  refine ⟨parse_patientText, ?_⟩
  rw [Concludes] at hresult
  interval_cases further
  case «0» =>
    simp only [hseen₀] at hresult
    grind
  case «1» =>
    simp only [hseen₁] at hresult
    grind
  case «2» =>
    simp only [hseen₂] at hresult
    grind

end Client

end PodRoutes.Cloud
