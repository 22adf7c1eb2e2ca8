import Mathlib.Data.List.Induction
import PodRoutes.Proofs.Node.Condition

/-!
# Setting the network condition again and again

The reader of a condition and its writer choose among several conditions of one type. They choose
the same one, and after it has been written they choose it again, although writing changes the
heartbeat that the choice goes by. So a row of settings writes one place over and over, and comes to
the same as its last setting alone (`settings_are_seen`).
-/

namespace PodRoutes

/-! ### The choice of a condition -/

/-- The condition at a position is the one of its type that counts: no other of the type has a
later heartbeat, and none behind it has the same. A missing heartbeat is the earliest. -/
structure Condition.Counts (type : String) (l : List Condition) (i : Nat) (d : Condition) :
    Prop where
  here : l[i]? = some d
  ofType : d.type = type
  latest : ∀ (j : Nat) (c : Condition), l[j]? = some c → c.type = type →
    heartbeatBefore d.heartbeat c.heartbeat = false
  last : ∀ (j : Nat) (c : Condition), i < j → l[j]? = some c → c.type = type →
    heartbeatBefore c.heartbeat d.heartbeat = true

theorem heartbeatBefore_of_not_of_before {a b c : Option Instant}
    (hab : heartbeatBefore a b = false) (hac : heartbeatBefore a c = true) :
    heartbeatBefore b c = true := by
  rcases a with _ | x <;> rcases b with _ | y <;> rcases c with _ | z <;>
  simp only [heartbeatBefore, decide_eq_true_eq, decide_eq_false_iff_not, Instant.lt_iff,
    Bool.true_eq_false, Bool.false_eq_true] at hab hac ⊢
  omega

theorem before_of_behind {type : String} {l : List Condition} {i : Nat} {d : Condition}
    (h : latestCondition? type l = some (i, d)) {j : Nat} {c : Condition} (hj : i < j)
    (hc : l[j]? = some c) (hty : c.type = type) :
    heartbeatBefore c.heartbeat d.heartbeat = true := by
  induction l generalizing i j with
  | nil => simp [latestCondition?] at h
  | cons e rest ih =>
    obtain ⟨j, rfl⟩ := Nat.exists_eq_add_one.2 (Nat.zero_lt_of_lt hj)
    rw [List.getElem?_cons_succ] at hc
    rw [latestCondition?] at h
    cases hr : latestCondition? type rest with
    | none => exact absurd hty (latestCondition?_eq_none.1 hr c (List.mem_of_getElem? hc))
    | some x =>
      obtain ⟨k, f⟩ := x
      simp only [hr] at h
      by_cases he : e.type = type ∧ heartbeatBefore f.heartbeat e.heartbeat = true
      · -- the head counts, so it is later than what counts in the rest, and with it than all there
        simp only [if_pos he, Option.some.injEq, Prod.mk.injEq] at h
        obtain ⟨rfl, rfl⟩ := h
        have hrest := (latestCondition?_eq_some hr).2.2 c (List.mem_of_getElem? hc) hty
        exact heartbeatBefore_of_not_of_before hrest he.2
      · simp only [if_neg he, Option.some.injEq, Prod.mk.injEq] at h
        obtain ⟨rfl, rfl⟩ := h
        exact ih hr (by omega) hc

theorem counts_of_latestCondition? {type : String} {l : List Condition} {i : Nat} {d : Condition}
    (h : latestCondition? type l = some (i, d)) : Condition.Counts type l i d := by
  obtain ⟨hi, hty, hle⟩ := latestCondition?_eq_some h
  exact ⟨hi, hty, fun j c hc => hle c (List.mem_of_getElem? hc),
    fun j c hj hc => before_of_behind h hj hc⟩

namespace Node

/-! ### The place that is written -/

theorem placeNetworkCondition_eq (routeCreated : Bool) (now : Instant) (l : List Condition) :
    placeNetworkCondition routeCreated now l =
      l.take (networkPlace l) ++
        networkCondition routeCreated now :: l.drop (networkPlace l + 1) := by
  rw [placeNetworkCondition, networkPlace]
  cases hl : latestCondition? networkUnavailableType l with
  | none => simp
  | some x =>
    exact List.set_eq_take_append_cons_drop.trans (if_pos (lt_length_of_latestCondition? hl))

theorem networkPlace_le (l : List Condition) : networkPlace l ≤ l.length := by
  rw [networkPlace]
  cases hl : latestCondition? networkUnavailableType l with
  | none => exact Nat.le_refl _
  | some x =>
    exact Nat.le_of_lt (lt_length_of_latestCondition? hl)

theorem type_ne_of_networkPlace_eq {l : List Condition} (h : networkPlace l = l.length) :
    ∀ c ∈ l, c.type ≠ networkUnavailableType := by
  rw [networkPlace] at h
  cases hl : latestCondition? networkUnavailableType l with
  | none => exact latestCondition?_eq_none.1 hl
  | some x =>
    rw [hl] at h
    exact absurd h (Nat.ne_of_lt (lt_length_of_latestCondition? hl))

/-- The reader looks at the place that would be written. -/
theorem findCondition?_eq_getElem? (l : List Condition) :
    findCondition? l networkUnavailableType = l[networkPlace l]? := by
  rw [findCondition?, networkPlace]
  cases hl : latestCondition? networkUnavailableType l with
  | none => simp
  | some x => simp [(latestCondition?_eq_some hl).1]

theorem counts_networkPlace {l : List Condition} {d : Condition}
    (h : l[networkPlace l]? = some d) :
    Condition.Counts networkUnavailableType l (networkPlace l) d := by
  rw [networkPlace] at h ⊢
  cases hl : latestCondition? networkUnavailableType l with
  | none => simp [hl] at h
  | some x =>
    obtain ⟨i, e⟩ := x
    have hcounts := counts_of_latestCondition? hl
    simp only [hl, hcounts.here, Option.some.injEq] at h
    exact h ▸ hcounts

variable {n : Node} {routeCreated : Bool} {now : Instant}

theorem networkPlace_placeNetworkCondition {l : List Condition}
    (h : l.countP (Condition.isAhead now) ≤ 1) :
    networkPlace (placeNetworkCondition routeCreated now l) = networkPlace l := by
  rw [networkPlace, latestCondition?_placeNetworkCondition h]

/-! ### Two settings -/

theorem placeNetworkCondition_placeNetworkCondition {l : List Condition}
    (h : l.countP (Condition.isAhead now) ≤ 1) (again : Bool) (later : Instant) :
    placeNetworkCondition again later (placeNetworkCondition routeCreated now l) =
      placeNetworkCondition again later l := by
  have hlength : (l.take (networkPlace l)).length = networkPlace l :=
    List.length_take_of_le (networkPlace_le l)
  have hrest : (l.take (networkPlace l)).drop (networkPlace l + 1) = [] :=
    List.drop_eq_nil_of_le (by omega)
  rw [placeNetworkCondition_eq again, networkPlace_placeNetworkCondition h,
    placeNetworkCondition_eq routeCreated, placeNetworkCondition_eq again,
    List.take_left' hlength, List.drop_append, hlength, hrest]
  simp

/-- Of two settings only the second one is left. -/
theorem setNetworkCondition_setNetworkCondition
    (h : n.conditions.countP (Condition.isAhead now) ≤ 1) (again : Bool) (later : Instant) :
    setNetworkCondition again later (setNetworkCondition routeCreated now n) =
      setNetworkCondition again later n := by
  rw [conditions_eq] at h
  simp only [setNetworkCondition, Option.getD_some,
    placeNetworkCondition_placeNetworkCondition h]

/-! ### A row of settings -/

/-- Settings of the network condition one after another, each at its time. -/
def setAll (settings : List (Bool × Instant)) (n : Node) : Node :=
  settings.foldl (fun m setting => setNetworkCondition setting.1 setting.2 m) n

theorem setAll_concat (before : List (Bool × Instant)) (routeCreated : Bool) (now : Instant)
    (n : Node) :
    setAll (before ++ [(routeCreated, now)]) n =
      setNetworkCondition routeCreated now (setAll before n) := by
  simp [setAll]

/-- A row of settings comes to the same as its last one alone. -/
theorem setAll_eq_last {before : List (Bool × Instant)}
    (hahead : ∀ setting ∈ before, n.conditions.countP (Condition.isAhead setting.2) ≤ 1) :
    setAll (before ++ [(routeCreated, now)]) n = setNetworkCondition routeCreated now n := by
  induction before using List.reverseRecOn generalizing routeCreated now with
  | nil => rfl
  | append_singleton before setting ih =>
    have hbefore : ∀ s ∈ before, n.conditions.countP (Condition.isAhead s.2) ≤ 1 := fun s hs =>
      hahead s (List.mem_append_left _ hs)
    have hsetting := hahead setting (List.mem_append_right _ List.mem_cons_self)
    rw [setAll_concat, ih hbefore, setNetworkCondition_setNetworkCondition hsetting]

/-- What a setting does to a node `m` that began as `n`, at one place of the conditions. -/
structure SetAt (n m m' : Node) (place : Nat) (routeCreated : Bool) (now : Instant) : Prop where
  current : m'.networkConditionIsCurrent routeCreated = true
  notOther : m'.networkConditionIsCurrent (!routeCreated) = false
  /-- The reader would have chosen the condition at the place, or none if there is none. -/
  chosen : m.condition? networkUnavailableType = m.conditions[place]?
  counts : ∀ d, m.conditions[place]? = some d →
    Condition.Counts networkUnavailableType m.conditions place d
  rewritten : m'.conditions = m.conditions.take place ++
    networkCondition routeCreated now :: m.conditions.drop (place + 1)
  /-- Of all settings so far this one is left, and all other conditions are those of the start. -/
  overall : m'.conditions = n.conditions.take place ++
    networkCondition routeCreated now :: n.conditions.drop (place + 1)
  others : m' = { n with status := some { n.status.getD {} with conditions := some m'.conditions } }

theorem setAt_of_conditions {m : Node} {place : Nat}
    (hplace : networkPlace m.conditions = place) (hstart : networkPlace n.conditions = place)
    (hahead : n.conditions.countP (Condition.isAhead now) ≤ 1)
    (hset : setNetworkCondition routeCreated now m = setNetworkCondition routeCreated now n) :
    SetAt n m (setNetworkCondition routeCreated now m) place routeCreated now := by
  subst hplace
  have hnew : (setNetworkCondition routeCreated now m).condition? networkUnavailableType =
      some (networkCondition routeCreated now) := by
    rw [hset, condition?, conditions_setNetworkCondition,
      findCondition?_placeNetworkCondition hahead]
  constructor
  case current => simp [networkConditionIsCurrent, hnew, networkCondition]
  case notOther =>
    cases routeCreated <;> simp [networkConditionIsCurrent, hnew, networkCondition, networkStatus]
  case chosen => exact findCondition?_eq_getElem? m.conditions
  case counts => exact fun d hd => counts_networkPlace hd
  case rewritten => rw [conditions_setNetworkCondition, placeNetworkCondition_eq]
  case overall =>
    rw [hset, conditions_setNetworkCondition, placeNetworkCondition_eq, hstart]
  case others =>
    rw [hset]
    rfl

/-- Whatever settings follow one another in time: each is seen by the reader, each writes the
condition that the reader would have chosen, all of them write one place, which is behind the
conditions of the start only if there was no network condition, and they write nothing else. -/
theorem settings_are_seen (n : Node) {settings : List (Bool × Instant)}
    (hclock : settings.Pairwise fun s later => s.2 ≤ later.2)
    (hahead : ∀ first ∈ settings.head?,
      n.conditions.countP (Condition.isAhead first.2) ≤ 1) :
    ∃ place ≤ n.conditions.length,
      (place = n.conditions.length → ∀ c ∈ n.conditions, c.type ≠ networkUnavailableType) ∧
      ∀ before routeCreated now after, settings = before ++ (routeCreated, now) :: after →
        SetAt n (setAll before n) (setAll (before ++ [(routeCreated, now)]) n) place
          routeCreated now := by
  have hall : ∀ s ∈ settings, n.conditions.countP (Condition.isAhead s.2) ≤ 1 := by
    cases settings with
    | nil => exact fun s hs => absurd hs List.not_mem_nil
    | cons first rest =>
      have hfirst := hahead first rfl
      rintro s (_ | ⟨_, hs⟩)
      · exact hfirst
      · have hle := (List.pairwise_cons.1 hclock).1 s hs
        exact Nat.le_trans (List.countP_mono_left fun c _ => Condition.isAhead_of_later hle) hfirst
  refine ⟨networkPlace n.conditions, networkPlace_le _, type_ne_of_networkPlace_eq, ?_⟩
  rintro before routeCreated now after rfl
  have hnow := hall (routeCreated, now) (by simp)
  have hbefore : ∀ s ∈ before, n.conditions.countP (Condition.isAhead s.2) ≤ 1 := fun s hs =>
    hall s (List.mem_append_left _ hs)
  have hset : setNetworkCondition routeCreated now (setAll before n) =
      setNetworkCondition routeCreated now n := by
    rw [← setAll_concat, setAll_eq_last hbefore]
  rw [setAll_concat]
  refine setAt_of_conditions ?_ rfl hnow hset
  -- before the first setting the place is that of the start, and no setting moves it
  rcases List.eq_nil_or_concat before with rfl | ⟨earlier, last, rfl⟩
  · rfl
  · have hearlier : ∀ s ∈ earlier, n.conditions.countP (Condition.isAhead s.2) ≤ 1 := fun s hs =>
      hbefore s (by simp [hs])
    have hlast := hbefore last (by simp)
    rw [List.concat_eq_append, setAll_eq_last hearlier, conditions_setNetworkCondition,
      networkPlace_placeNetworkCondition hlast]

/-! ### A node with three network conditions -/

def undated : Condition := { type := networkUnavailableType, status := "True" }

def ready : Condition := { type := readyType, status := "True", heartbeat := some ⟨900, 0⟩ }

def stale : Condition :=
  { type := networkUnavailableType, status := "False", heartbeat := some ⟨100, 0⟩ }

/-- The network condition that counts is dated ahead of the first setting. -/
def crowded : Node where
  status := some {
    conditions := some [undated, ready,
      { type := networkUnavailableType, status := "Unknown", heartbeat := some ⟨300, 0⟩ }, stale] }

def threeSettings : List (Bool × Instant) :=
  [(true, ⟨200, 0⟩), (false, ⟨200, 0⟩), (true, ⟨250, 0⟩)]

theorem crowded_settings_are_seen :
    (threeSettings.Pairwise fun s later => s.2 ≤ later.2) ∧
      (∀ first ∈ threeSettings.head?,
        crowded.conditions.countP (Condition.isAhead first.2) ≤ 1) ∧
      SetAt crowded (setAll (threeSettings.take 2) crowded) (setAll threeSettings crowded) 2
        true ⟨250, 0⟩ ∧
      (setAll threeSettings crowded).conditions =
        [undated, ready, networkCondition true ⟨250, 0⟩, stale] := by
  have hclock : threeSettings.Pairwise fun s later => s.2 ≤ later.2 := by decide
  have hahead : ∀ first ∈ threeSettings.head?,
      crowded.conditions.countP (Condition.isAhead first.2) ≤ 1 := by
    decide
  obtain ⟨place, hle, -, hsettings⟩ := settings_are_seen crowded hclock hahead
  have hplace : place = 2 := by
    have hchosen := (hsettings [] true ⟨200, 0⟩ _ rfl).chosen
    have hcases : place = 0 ∨ place = 1 ∨ place = 2 ∨ place = 3 ∨ place = 4 := by
      have hlength : crowded.conditions.length = 4 := rfl
      omega
    rcases hcases with rfl | rfl | rfl | rfl | rfl
    · exact absurd hchosen (by decide)
    · exact absurd hchosen (by decide)
    · rfl
    · exact absurd hchosen (by decide)
    · exact absurd hchosen (by decide)
  subst hplace
  have hlast := hsettings (threeSettings.take 2) true ⟨250, 0⟩ [] rfl
  exact ⟨hclock, hahead, hlast, hlast.overall⟩

end Node

end PodRoutes
