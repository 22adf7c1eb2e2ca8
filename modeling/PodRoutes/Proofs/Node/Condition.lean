import PodRoutes.Node.Eligibility

/-!
# Setting the network condition

A condition that is set now counts afterwards, provided that no more than one network condition is
dated now or later. Nothing but the conditions changes, and of these only network conditions.
-/

namespace PodRoutes

/-! ### The condition that counts -/

theorem heartbeatBefore_asymm {a b : Option Instant} (h : heartbeatBefore a b = true) :
    heartbeatBefore b a = false := by
  cases a with
  | none => cases b <;> simp_all [heartbeatBefore]
  | some x =>
    cases b with
    | none => simp [heartbeatBefore] at h
    | some y =>
      simp only [heartbeatBefore, decide_eq_true_eq, decide_eq_false_iff_not] at h ⊢
      rw [Instant.lt_iff] at h ⊢
      omega

theorem heartbeatBefore_irrefl (a : Option Instant) : heartbeatBefore a a = false := by
  rw [Bool.eq_false_iff]
  intro h
  rw [heartbeatBefore_asymm h] at h
  cases h

theorem heartbeatBefore_of_before_of_not {a b c : Option Instant}
    (hab : heartbeatBefore a b = true) (hcb : heartbeatBefore c b = false) :
    heartbeatBefore a c = true := by
  rcases a with _ | x <;> rcases b with _ | y <;> rcases c with _ | z <;>
  simp only [heartbeatBefore, decide_eq_true_eq, decide_eq_false_iff_not, Instant.lt_iff,
    Bool.true_eq_false, Bool.false_eq_true] at hab hcb ⊢
  omega

theorem latestCondition?_eq_none {type : String} {l : List Condition} :
    latestCondition? type l = none ↔ ∀ c ∈ l, c.type ≠ type := by
  induction l with
  | nil => simp [latestCondition?]
  | cons c rest ih =>
    rw [latestCondition?, List.forall_mem_cons]
    cases hr : latestCondition? type rest with
    | none =>
      have hrest := ih.1 hr
      by_cases hc : c.type = type
      · simp [hc]
      · simpa [hc] using hrest
    | some x =>
      have hrest : ¬∀ c ∈ rest, c.type ≠ type := fun hn => by simp [ih.2 hn] at hr
      by_cases hc : c.type = type ∧ heartbeatBefore x.2.heartbeat c.heartbeat = true <;>
      simp [hc, hrest]

theorem latestCondition?_eq_some {type : String} {l : List Condition} {i : Nat} {d : Condition}
    (h : latestCondition? type l = some (i, d)) :
    l[i]? = some d ∧ d.type = type ∧
      ∀ c ∈ l, c.type = type → heartbeatBefore d.heartbeat c.heartbeat = false := by
  induction l generalizing i d with
  | nil => simp [latestCondition?] at h
  | cons c rest ih =>
    rw [latestCondition?] at h
    cases hr : latestCondition? type rest with
    | none =>
      simp only [hr, Option.ite_none_right_eq_some, Option.some.injEq, Prod.mk.injEq] at h
      obtain ⟨hc, rfl, rfl⟩ := h
      refine ⟨rfl, hc, ?_⟩
      intro e he hty
      rcases List.mem_cons.1 he with rfl | he
      · exact heartbeatBefore_irrefl _
      · exact absurd hty (latestCondition?_eq_none.1 hr e he)
    | some x =>
      obtain ⟨k, e⟩ := x
      obtain ⟨hk, hety, hle⟩ := ih hr
      simp only [hr] at h
      by_cases hc : c.type = type ∧ heartbeatBefore e.heartbeat c.heartbeat = true
      · simp only [if_pos hc, Option.some.injEq, Prod.mk.injEq] at h
        obtain ⟨rfl, rfl⟩ := h
        refine ⟨rfl, hc.1, ?_⟩
        intro a ha hty
        rcases List.mem_cons.1 ha with rfl | ha
        · exact heartbeatBefore_irrefl _
        · rw [Bool.eq_false_iff]
          intro hca
          have := heartbeatBefore_of_before_of_not hc.2 (heartbeatBefore_asymm hca)
          rw [hle a ha hty] at this
          cases this
      · simp only [if_neg hc, Option.some.injEq, Prod.mk.injEq] at h
        obtain ⟨rfl, rfl⟩ := h
        refine ⟨by simpa using hk, hety, ?_⟩
        intro a ha hty
        rcases List.mem_cons.1 ha with rfl | ha
        · rw [Bool.eq_false_iff]
          exact fun hb => hc ⟨hty, hb⟩
        · exact hle a ha hty

theorem lt_length_of_latestCondition? {type : String} {l : List Condition} {i : Nat}
    {d : Condition} (h : latestCondition? type l = some (i, d)) : i < l.length :=
  (List.getElem?_eq_some_iff.1 (latestCondition?_eq_some h).1).1

theorem latestCondition?_of_newest {type : String} {l : List Condition} {i : Nat} {d : Condition}
    (hi : l[i]? = some d) (hty : d.type = type)
    (hold : ∀ j c, j ≠ i → l[j]? = some c → c.type = type →
      heartbeatBefore c.heartbeat d.heartbeat = true) :
    latestCondition? type l = some (i, d) := by
  induction l generalizing i with
  | nil => simp at hi
  | cons c rest ih =>
    rw [latestCondition?]
    cases i with
    | zero =>
      obtain rfl : c = d := by simpa using hi
      cases hr : latestCondition? type rest with
      | none => simp [hty]
      | some x =>
        obtain ⟨k, e⟩ := x
        obtain ⟨hk, hety, _⟩ := latestCondition?_eq_some hr
        have he := hold (k + 1) e (by omega) (by simpa using hk) hety
        simp [hty, he]
    | succ i =>
      have hr : latestCondition? type rest = some (i, d) := by
        apply ih (by simpa using hi)
        intro j c hj hc
        exact hold (j + 1) c (by omega) (by simpa using hc)
      have hc : ¬(c.type = type ∧ heartbeatBefore d.heartbeat c.heartbeat = true) := by
        rintro ⟨hcty, hb⟩
        have := hold 0 c (by omega) (by simp) hcty
        rw [heartbeatBefore_asymm this] at hb
        cases hb
      simp [hr, hc]

/-! ### Other types -/

theorem findCondition?_cons_of_ne {type : String} {c : Condition} (hc : c.type ≠ type)
    (l : List Condition) : findCondition? (c :: l) type = findCondition? l type := by
  cases hr : latestCondition? type l <;> simp [findCondition?, latestCondition?, hr, hc]

theorem findCondition?_cons_congr {type : String} {l m : List Condition}
    (h : findCondition? l type = findCondition? m type) (c : Condition) :
    findCondition? (c :: l) type = findCondition? (c :: m) type := by
  simp only [findCondition?, latestCondition?] at h ⊢
  cases hl : latestCondition? type l <;> cases hm : latestCondition? type m <;>
  simp only [hl, hm, Option.map_some, Option.map_none, Option.some.injEq, reduceCtorEq] at h ⊢
  rw [h]
  split <;> simp

theorem findCondition?_set_of_ne {type : String} {l : List Condition} {i : Nat} {d c : Condition}
    (hi : l[i]? = some d) (hd : d.type ≠ type) (hc : c.type ≠ type) :
    findCondition? (l.set i c) type = findCondition? l type := by
  induction l generalizing i with
  | nil => rfl
  | cons e rest ih =>
    cases i with
    | zero =>
      obtain rfl : e = d := by simpa using hi
      rw [List.set_cons_zero, findCondition?_cons_of_ne hc, findCondition?_cons_of_ne hd]
    | succ i =>
      rw [List.set_cons_succ]
      exact findCondition?_cons_congr (ih (by simpa using hi)) e

theorem findCondition?_append_of_ne {type : String} {c : Condition} (hc : c.type ≠ type)
    (l : List Condition) : findCondition? (l ++ [c]) type = findCondition? l type := by
  induction l with
  | nil => exact findCondition?_cons_of_ne hc []
  | cons e rest ih => exact findCondition?_cons_congr ih e

/-! ### Setting the condition -/

/-- A network condition that is dated at some point or later. -/
def Condition.isAhead (now : Instant) (c : Condition) : Bool :=
  c.type = Node.networkUnavailableType && !heartbeatBefore c.heartbeat (some now)

theorem Condition.isAhead_of_later {now later : Instant} (hlater : now ≤ later) {c : Condition}
    (h : c.isAhead later = true) : c.isAhead now = true := by
  simp only [isAhead, Bool.and_eq_true, Bool.not_eq_true', decide_eq_true_eq] at h ⊢
  obtain ⟨htype, hnot⟩ := h
  refine ⟨htype, ?_⟩
  cases hc : c.heartbeat with
  | none => simp [hc, heartbeatBefore] at hnot
  | some x =>
    simp only [hc, heartbeatBefore, decide_eq_false_iff_not, Instant.not_lt_iff] at hnot ⊢
    rw [Instant.le_iff] at hlater hnot ⊢
    omega

theorem eq_of_countP_le_one {α : Type} {p : α → Bool} {l : List α} {i j : Nat} {a b : α}
    (h : l.countP p ≤ 1) (hi : l[i]? = some a) (hj : l[j]? = some b) (ha : p a = true)
    (hb : p b = true) : i = j := by
  induction l generalizing i j with
  | nil => simp at hi
  | cons c rest ih =>
    cases hc : p c with
    | true =>
      rw [List.countP_cons_of_pos hc] at h
      have hnone : ∀ x ∈ rest, ¬p x = true := List.countP_eq_zero.1 (by omega)
      cases i with
      | succ i => exact absurd ha (hnone a (List.mem_of_getElem? (by simpa using hi)))
      | zero =>
        cases j with
        | succ j => exact absurd hb (hnone b (List.mem_of_getElem? (by simpa using hj)))
        | zero => rfl
    | false =>
      have hneg : ¬p c = true := by simp [hc]
      rw [List.countP_cons_of_neg hneg] at h
      cases i with
      | zero => simp_all
      | succ i =>
        cases j with
        | zero => simp_all
        | succ j => exact congrArg (· + 1) (ih h (by simpa using hi) (by simpa using hj))

namespace Node

/-- The position at which the network condition is set: that of the one that counts, or the end. -/
def networkPlace (conditions : List Condition) : Nat :=
  match latestCondition? networkUnavailableType conditions with
  | some (i, _) => i
  | none => conditions.length

/-- The condition that is set counts, unless others are dated ahead of it. -/
theorem latestCondition?_placeNetworkCondition {l : List Condition} {now : Instant}
    (h : l.countP (Condition.isAhead now) ≤ 1) (routeCreated : Bool) :
    latestCondition? networkUnavailableType (placeNetworkCondition routeCreated now l) =
      some (networkPlace l, networkCondition routeCreated now) := by
  rw [placeNetworkCondition, networkPlace]
  cases hl : latestCondition? networkUnavailableType l with
  | none =>
    dsimp only
    refine latestCondition?_of_newest (by simp) rfl ?_
    intro j c hj hc hty
    have hlt : j < l.length := by
      have := (List.getElem?_eq_some_iff.1 hc).1
      simp at this
      omega
    rw [List.getElem?_append_left hlt] at hc
    exact absurd hty (latestCondition?_eq_none.1 hl c (List.mem_of_getElem? hc))
  | some x =>
    obtain ⟨i, d⟩ := x
    obtain ⟨hi, hty, hnewest⟩ := latestCondition?_eq_some hl
    have hlt := lt_length_of_latestCondition? hl
    dsimp only
    refine latestCondition?_of_newest (by simp [hlt]) rfl ?_
    intro j c hj hc hcty
    rw [List.getElem?_set_ne (fun e => hj e.symm)] at hc
    -- one that is not older would be ahead, and with it the one that counted
    refine Decidable.byContradiction fun hcn => hj ?_
    have hcn : heartbeatBefore c.heartbeat (some now) = false := by
      simpa [networkCondition] using hcn
    have hdn : heartbeatBefore d.heartbeat (some now) = false := by
      rw [Bool.eq_false_iff]
      intro hd
      have := heartbeatBefore_of_before_of_not hd hcn
      rw [hnewest c (List.mem_of_getElem? hc) hcty] at this
      cases this
    have hcahead : c.isAhead now = true := by simp [Condition.isAhead, hcty, hcn]
    have hdahead : d.isAhead now = true := by simp [Condition.isAhead, hty, hdn]
    exact eq_of_countP_le_one h hc hi hcahead hdahead

theorem findCondition?_placeNetworkCondition {l : List Condition} {now : Instant}
    (h : l.countP (Condition.isAhead now) ≤ 1) (routeCreated : Bool) :
    findCondition? (placeNetworkCondition routeCreated now l) networkUnavailableType =
      some (networkCondition routeCreated now) := by
  rw [findCondition?, latestCondition?_placeNetworkCondition h]
  rfl

theorem findCondition?_placeNetworkCondition_of_ne {type : String}
    (hty : networkUnavailableType ≠ type) (routeCreated : Bool) (now : Instant)
    (l : List Condition) :
    findCondition? (placeNetworkCondition routeCreated now l) type = findCondition? l type := by
  rw [placeNetworkCondition]
  cases hl : latestCondition? networkUnavailableType l with
  | none => exact findCondition?_append_of_ne hty l
  | some x =>
    obtain ⟨hi, hd, _⟩ := latestCondition?_eq_some hl
    exact findCondition?_set_of_ne hi (hd ▸ hty) hty

variable (n : Node) (routeCreated : Bool) (now : Instant)

theorem conditions_eq : n.conditions = (n.status.getD {}).conditions.getD [] := by
  cases hs : n.status <;> simp [conditions, hs]

theorem conditions_setNetworkCondition :
    (setNetworkCondition routeCreated now n).conditions =
      placeNetworkCondition routeCreated now n.conditions := by
  simp [conditions_eq, setNetworkCondition]

def marked : Node :=
  if n.networkConditionIsCurrent routeCreated then n else setNetworkCondition routeCreated now n

@[simp] theorem metadata_marked : (n.marked routeCreated now).metadata = n.metadata := by
  rw [marked]
  split <;> rfl

@[simp] theorem spec_marked : (n.marked routeCreated now).spec = n.spec := by
  rw [marked]
  split <;> rfl

@[simp] theorem name_marked : (n.marked routeCreated now).name = n.name := by
  simp [name]

theorem networkConditionIsCurrent_marked {n : Node} {now : Instant}
    (h : n.conditions.countP (Condition.isAhead now) ≤ 1) (routeCreated : Bool) :
    (n.marked routeCreated now).networkConditionIsCurrent routeCreated = true := by
  rw [marked]
  split
  · assumption
  · rw [networkConditionIsCurrent, condition?, conditions_setNetworkCondition,
      findCondition?_placeNetworkCondition h]
    simp [networkCondition]

theorem status_of_networkConditionIsCurrent {n : Node} {routeCreated : Bool}
    (h : n.networkConditionIsCurrent routeCreated = true) :
    (n.condition? networkUnavailableType).map Condition.status =
      some (networkStatus routeCreated) := by
  rw [networkConditionIsCurrent] at h
  cases hc : n.condition? networkUnavailableType with
  | none => simp [hc] at h
  | some c => simpa [hc] using h

theorem isReadyUnknown_marked : (n.marked routeCreated now).isReadyUnknown = n.isReadyUnknown := by
  rw [marked]
  split
  · rfl
  · rw [isReadyUnknown, condition?, conditions_setNetworkCondition,
      findCondition?_placeNetworkCondition_of_ne (by decide)]
    rfl

end Node

end PodRoutes
