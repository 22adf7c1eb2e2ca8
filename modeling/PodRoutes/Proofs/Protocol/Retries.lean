import Mathlib
import PodRoutes.Proofs.Surroundings.Meets
import PodRoutes.Protocol.Basic

/-!
# The attempts of a create

What a create asks and how it ends is told by the replies it gets. A reply decides it if it is a
success or says that the destination is taken; then at most one lookup settles what that means.
After any other reply comes a pause, longer by the factor each time, and the next attempt, as long
as one is left (`createHeld_retries`, for every sequence of replies).
-/

namespace PodRoutes

open Control

/-! ### Scripted replies -/

/-- What a gateway replies to the creates, one after another, and to a lookup. -/
structure ReplyScript where
  creates : Nat → Outcome (Option Route)
  found : Outcome (Option Route)

/-- Surroundings that keep to a script; the state is the number of creates so far. -/
def ReplyScript.surroundings (script : ReplyScript) : Surroundings Nat
  | .createRoute _ _ => fun n x n' => x = some (script.creates n) ∧ n' = n + 1
  | .findRoute _ => fun n x n' => x = some script.found ∧ n' = n
  | _ => fun n _ n' => n' = n

theorem ReplyScript.responsive (script : ReplyScript) : script.surroundings.Responsive := by
  intro r n
  cases r with
  | createRoute i c => exact ⟨script.creates n, n + 1, rfl, rfl⟩
  | findRoute c => exact ⟨script.found, n, rfl, rfl⟩
  | _ => exact ⟨Classical.choice (Reply.nonempty _), n, rfl⟩

namespace Protocol

/-! ### What is expected -/

/-- Whether a reply to a create ends the attempts. -/
def decides : Outcome (Option Route) → Bool
  | .ok _ => true
  | .error e => e.isDuplicate

/-- A deciding reply is followed by a lookup unless it brings the route. -/
def lookupsAfter (destination : String) : Outcome (Option Route) → List Request
  | .ok (some _) => []
  | _ => [.findRoute destination]

/-- What a deciding reply comes to, given what the lookup says. -/
def settled (instanceId destination : String) (found : Outcome (Option Route)) :
    Outcome (Option Route) → Outcome Route
  | .ok (some r) => .ok r
  | .ok none =>
    match found with
    | .ok (some r) => .ok r
    | .ok none => .error (.notVisible destination)
    | .error e => .error e
  | .error refusal =>
    match found with
    | .ok (some r) =>
      if r.instanceId = instanceId then .ok r
      else .error (.ownedByOther destination r.instanceId instanceId)
    | _ => .error refusal

/-- A first create, and a number of further ones, each after its pause. -/
def attemptRequests (b : Backoff) (instanceId destination : String) (delay : Rat) (further : Nat) :
    List Request :=
  .createRoute instanceId destination :: (List.range further).flatMap fun n =>
    [.pause (delay * b.factor ^ n), .createRoute instanceId destination]

theorem attemptRequests_succ (b : Backoff) (i c : String) (delay : Rat) (further : Nat) :
    attemptRequests b i c delay (further + 1) =
      .createRoute i c :: .pause delay :: attemptRequests b i c (delay * b.factor) further := by
  have hpauses : ∀ n, delay * b.factor ^ (n + 1) = delay * b.factor * b.factor ^ n := by
    intro n
    rw [pow_succ', mul_assoc]
  simp only [attemptRequests, List.range_succ_eq_map, List.flatMap_cons, List.flatMap_map,
    hpauses, pow_zero, mul_one]
  rfl

/-- What a create asks and how it ends, for a script of replies. -/
structure Retries (b : Backoff) (script : ReplyScript) (i c : String) (t : List Exchange)
    (x : Outcome Route) : Prop where
  /-- The first reply that decides ends the attempts. -/
  decided : ∀ k < b.steps, decides (script.creates k) = true →
    (∀ j < k, decides (script.creates j) = false) →
      t.map Exchange.request =
        attemptRequests b i c b.duration k ++ lookupsAfter c (script.creates k) ∧
      x = settled i c script.found (script.creates k)
  /-- Where none decides, all attempts are made, and the last error stands. -/
  exhausted : 0 < b.steps → (∀ j < b.steps, decides (script.creates j) = false) →
    t.map Exchange.request = attemptRequests b i c b.duration (b.steps - 1) ∧
      ∃ e, script.creates (b.steps - 1) = .error e ∧ x = .error e
  idle : b.steps = 0 → t = [] ∧ x = .error (.internal (.noCreateAttempt c))

/-! ### One attempt -/

theorem rest_of_no_jitter {b : Backoff} (h : b.jitter = 0) (delay : Rat) :
    b.rest delay = pause delay := by
  rw [Backoff.rest, h]
  rfl

section Attempts

variable {b : Backoff} {script : ReplyScript} {i c : String} {left n n' : Nat} {delay : Rat}
  {last : RouteError} {t : List Exchange} {x : Outcome Route}

theorem ends_adopt {refusal : RouteError}
    (h : Ends script.surroundings (adopt i c refusal) n t x n') :
    t.map Exchange.request = [.findRoute c] ∧
      x = settled i c script.found (.error refusal) := by
  obtain ⟨y, m, t', ⟨hy, -⟩, hrest, rfl⟩ := Ends.ask_inv h
  cases hy
  clear h
  generalize script.found = found at hrest ⊢
  rcases found with e | _ | r
  · cases hrest
    exact ⟨rfl, rfl⟩
  · cases hrest
    exact ⟨rfl, rfl⟩
  · cases hrest
    simp [settled, Route.isOwnedBy]

theorem ends_lookUpCreated (h : Ends script.surroundings (lookUpCreated c) n t x n') :
    t.map Exchange.request = [.findRoute c] ∧ x = settled i c script.found (.ok none) := by
  obtain ⟨y, m, t', ⟨hy, -⟩, hrest, rfl⟩ := Ends.ask_inv h
  cases hy
  clear h
  generalize script.found = found at hrest ⊢
  rcases found with e | _ | r <;>
  · cases hrest
    exact ⟨rfl, rfl⟩

theorem ends_of_decides (hdecides : decides (script.creates n) = true)
    (h : Ends script.surroundings (attempts b i c (left + 1) delay last) n t x n') :
    t.map Exchange.request = .createRoute i c :: lookupsAfter c (script.creates n) ∧
      x = settled i c script.found (script.creates n) := by
  rw [attempts] at h
  obtain ⟨y, m, t', ⟨hy, -⟩, hrest, rfl⟩ := Ends.ask_inv h
  cases hy
  generalize script.creates n = y at hdecides hrest ⊢
  rcases y with e | _ | r
  · have hduplicate : e.isDuplicate = true := hdecides
    have hrest : Ends script.surroundings (if e.isDuplicate then adopt i c e else _) m t' x n' :=
      hrest
    rw [if_pos hduplicate] at hrest
    obtain ⟨hrequests, hx⟩ := ends_adopt hrest
    exact ⟨congrArg (Request.createRoute i c :: ·) hrequests, hx⟩
  · obtain ⟨hrequests, hx⟩ := ends_lookUpCreated (i := i) hrest
    exact ⟨congrArg (Request.createRoute i c :: ·) hrequests, hx⟩
  · cases hrest
    exact ⟨rfl, rfl⟩

/-- A reply that does not decide is an error; it is the result if no attempt is left, and otherwise
followed by a pause and the next attempt. -/
theorem ends_of_not_decides (hjitter : b.jitter = 0) (hopen : decides (script.creates n) = false)
    (h : Ends script.surroundings (attempts b i c (left + 1) delay last) n t x n') :
    ∃ e, script.creates n = .error e ∧
      (left = 0 → t.map Exchange.request = [.createRoute i c] ∧ x = .error e) ∧
      (0 < left → ∃ t', t.map Exchange.request =
          .createRoute i c :: .pause delay :: t'.map Exchange.request ∧
        Ends script.surroundings (attempts b i c left (delay * b.factor) e) (n + 1) t' x n') := by
  rw [attempts] at h
  obtain ⟨y, m, t', ⟨hy, rfl⟩, hrest, rfl⟩ := Ends.ask_inv h
  cases hy
  generalize script.creates n = y at hopen hrest ⊢
  rcases y with e | o
  · have hrest : Ends script.surroundings (if e.isDuplicate then _ else _) (n + 1) t' x n' := hrest
    have hother : ¬e.isDuplicate = true := by
      simpa [decides] using hopen
    rw [if_neg hother] at hrest
    refine ⟨e, rfl, ?_, ?_⟩
    · rintro rfl
      rw [if_pos rfl] at hrest
      cases hrest
      exact ⟨rfl, rfl⟩
    · intro hleft
      rw [if_neg (by omega), rest_of_no_jitter hjitter] at hrest
      obtain ⟨z, m, t'', hm, hnext, rfl⟩ := Ends.ask_inv hrest
      obtain rfl : m = n + 1 := hm
      exact ⟨t'', rfl, hnext⟩
  · cases hopen

/-! ### All attempts -/

theorem ends_decided (hjitter : b.jitter = 0) {k : Nat} (hk : k < left)
    (hdecides : decides (script.creates (n + k)) = true)
    (hopen : ∀ j < k, decides (script.creates (n + j)) = false)
    (h : Ends script.surroundings (attempts b i c left delay last) n t x n') :
    t.map Exchange.request =
        attemptRequests b i c delay k ++ lookupsAfter c (script.creates (n + k)) ∧
      x = settled i c script.found (script.creates (n + k)) := by
  obtain ⟨further, rfl⟩ := Nat.exists_eq_add_one.2 (Nat.zero_lt_of_lt hk)
  -- on the attempts before the one that decides; the state counts the creates made so far
  induction k generalizing further n delay last t with
  | zero => exact ends_of_decides hdecides h
  | succ k ih =>
    obtain ⟨e, -, -, hmore⟩ := ends_of_not_decides hjitter (hopen 0 (by omega)) h
    obtain ⟨t', hrequests, hrest⟩ := hmore (by omega)
    have hnext : ∀ j, n + (j + 1) = n + 1 + j := fun j => by omega
    rw [hnext] at hdecides ⊢
    obtain ⟨more, rfl⟩ := Nat.exists_eq_add_one.2 (show 0 < further by omega)
    obtain ⟨hlater, hx⟩ := ih hdecides (fun j hj => hnext j ▸ hopen (j + 1) (by omega)) more
      (by omega) hrest
    refine ⟨?_, hx⟩
    rw [hrequests, hlater, attemptRequests_succ]
    rfl

theorem ends_exhausted (hjitter : b.jitter = 0)
    (hopen : ∀ j ≤ left, decides (script.creates (n + j)) = false)
    (h : Ends script.surroundings (attempts b i c (left + 1) delay last) n t x n') :
    t.map Exchange.request = attemptRequests b i c delay left ∧
      ∃ e, script.creates (n + left) = .error e ∧ x = .error e := by
  induction left generalizing n delay last t with
  | zero =>
    obtain ⟨e, he, hlast, -⟩ := ends_of_not_decides hjitter (hopen 0 (Nat.le_refl 0)) h
    obtain ⟨hrequests, hx⟩ := hlast rfl
    exact ⟨hrequests, e, he, hx⟩
  | succ left ih =>
    obtain ⟨e, -, -, hmore⟩ := ends_of_not_decides hjitter (hopen 0 (by omega)) h
    obtain ⟨t', hrequests, hrest⟩ := hmore (by omega)
    have hnext : ∀ j, n + (j + 1) = n + 1 + j := fun j => by omega
    obtain ⟨hlater, e', he', hx⟩ := ih (fun j hj => hnext j ▸ hopen (j + 1) (by omega)) hrest
    refine ⟨?_, e', hnext left ▸ he', hx⟩
    rw [hrequests, hlater, attemptRequests_succ]

end Attempts

/-- However many attempts there are and whatever the gateway replies, a create asks what its replies
call for, pauses as the backoff says, and ends as its last reply and the lookup have it. -/
theorem createHeld_retries (b : Backoff) (script : ReplyScript) (i c : String)
    (hjitter : b.jitter = 0) :
    (∃ t x n, Ends script.surroundings (createHeld b i c) 0 t x n) ∧
      ∀ t x n, Ends script.surroundings (createHeld b i c) 0 t x n → Retries b script i c t x := by
  refine ⟨script.responsive.exists_ends _ _, fun t x n h => ?_⟩
  have hzero : ∀ k, 0 + k = k := Nat.zero_add
  constructor
  case decided =>
    intro k hk hdecides hopen
    have hrun := ends_decided (n := 0) hjitter hk (by rwa [hzero])
      (fun j hj => by rw [hzero]; exact hopen j hj) h
    rwa [hzero] at hrun
  case exhausted =>
    intro hsteps hopen
    obtain ⟨left, hleft⟩ := Nat.exists_eq_add_one.2 hsteps
    rw [createHeld, hleft] at h
    have hrun := ends_exhausted hjitter
      (fun j hj => by rw [hzero]; exact hopen j (by omega)) h
    rw [hleft]
    rwa [hzero] at hrun
  case idle =>
    intro hsteps
    rw [createHeld, hsteps] at h
    cases h
    exact ⟨rfl, rfl⟩

/-! ### A refusal at the third attempt -/

def fiveAttempts : Backoff := { steps := 5, duration := 1000, factor := 2, jitter := 0 }

def ownRoute : Route := Route.named "r-1" "10.244.1.0/24" "i-1"

/-- Two creates go unanswered; the third is refused, since the first had taken effect. -/
def lateRefusal : ReplyScript where
  creates n := if n < 2 then .error (.transport .timedOut) else .error (.gateway "already exists")
  found := .ok (some ownRoute)

theorem createHeld_adopts_at_third_attempt :
    fiveAttempts.jitter = 0 ∧ ∀ t x n,
      Ends lateRefusal.surroundings (createHeld fiveAttempts "i-1" "10.244.1.0/24") 0 t x n →
        t.map Exchange.request =
            [.createRoute "i-1" "10.244.1.0/24", .pause 1000,
              .createRoute "i-1" "10.244.1.0/24", .pause 2000,
              .createRoute "i-1" "10.244.1.0/24", .findRoute "10.244.1.0/24"] ∧
          x = .ok ownRoute := by
  refine ⟨rfl, fun t x n h => ?_⟩
  have hretries :=
    (createHeld_retries fiveAttempts lateRefusal "i-1" "10.244.1.0/24" rfl).2 t x n h
  obtain ⟨hrequests, hx⟩ := hretries.decided 2 (by decide) (by decide) (by decide)
  refine ⟨?_, ?_⟩
  · rw [hrequests]
    simp [attemptRequests, lookupsAfter, lateRefusal, fiveAttempts, List.range_succ]
    norm_num
  · rw [hx]
    rfl

end Protocol

end PodRoutes
