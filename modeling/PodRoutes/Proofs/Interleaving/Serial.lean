import Mathlib.Data.List.Basic
import Mathlib.Data.List.Nodup
import PodRoutes.Proofs.Interleaving.Play
import PodRoutes.Proofs.Protocol.Timeless

/-!
# One call after another

Calls of the protocol that run side by side are served in the order in which they asked for the
lock. The gateway calls of one of them are never mixed with those of another, and all results and
the gateway are those of the calls when each runs alone after the one before
(`calls_are_served_in_turn`).
-/

namespace PodRoutes

open Control

/-! ### Programs that hold the lock -/

/-- The results of programs that run alone one after another, and the world after them. -/
def World.runInTurn {α : Type} (w : World) : List (Control α) → List α × World
  | [] => ([], w)
  | p :: rest =>
    let (a, w) := w.run p
    let (as, w) := w.runInTurn rest
    (a :: as, w)

theorem World.runInTurn_snoc {α : Type} (w : World) (l : List (Control α)) (p : Control α) :
    w.runInTurn (l ++ [p]) =
      ((w.runInTurn l).1 ++ [((w.runInTurn l).2.run p).1], ((w.runInTurn l).2.run p).2) := by
  induction l generalizing w with
  | nil => rfl
  | cons q rest ih => simp only [List.cons_append, runInTurn, ih]

/-- The end of a program that holds the lock. -/
def Control.release {α : Type} (a : α) : Control α := do
  unlock
  return a

theorem Control.release_ne_done {α : Type} (p : Control α) (a : α) : p >>= release ≠ .done a := by
  cases p <;> exact nofun

namespace Takes

variable {α : Type} {p q : Control α} {r : Request} {x : Option (Reply r)}

theorem done_elim {a : α} (h : Takes (.done a) r x q) : False := by
  cases h

theorem locked_inv (h : Takes (Control.locked p) r x q) :
    r = .lock ∧ x.isSome = true ∧ q = p >>= release := by
  cases h with
  | ask r next x => exact ⟨rfl, rfl, rfl⟩

theorem release_inv (h : Takes (p >>= release) r x q) :
    (∃ a, p = .done a ∧ r = .unlock ∧ x.isSome = true ∧ q = .done a) ∨
      ∃ p', Takes p r x p' ∧ q = p' >>= release := by
  cases p with
  | done a =>
    left
    cases h with
    | ask r next x => exact ⟨a, rfl, rfl, rfl, rfl⟩
  | ask r next =>
    right
    cases h with
    | ask r next x => exact ⟨_, .ask _ _ x, rfl⟩
  | askBy deadline r next =>
    right
    cases h with
    | inTime deadline r next x => exact ⟨_, .inTime deadline _ _ x, rfl⟩
    | late deadline r next => exact ⟨_, .late deadline _ _, rfl⟩

end Takes

/-! ### The order of service -/

def Answer.grants (a : Answer) : Bool :=
  match a.request, a.reply with
  | .lock, some _ => true
  | _, _ => false

theorem Answer.grants_of_ne {a : Answer} (h : a.request ≠ .lock) : a.grants = false := by
  obtain ⟨r, x, v, w⟩ := a
  cases r with
  | lock => exact absurd rfl h
  | _ => cases x <;> rfl

theorem Answer.grants_of_none (r : Request) (v w : World) : grants ⟨r, none, v, w⟩ = false := by
  cases r <;> rfl

section

variable {ι α : Type} {h : List (Moment ι)} {i : ι} {a : Answer}

/-- The programs that got the lock, in that order. -/
def granted (h : List (Moment ι)) : List ι :=
  h.filterMap fun
    | .act i a => if a.grants then some i else none
    | .drift _ _ => none

def gatewayCalls (h : List (Moment ι)) : List (ι × Answer) :=
  h.filterMap fun
    | .act i a => if a.request.isGatewayCall then some (i, a) else none
    | .drift _ _ => none

/-- The programs that asked for the lock: those that got it and then those that wait. -/
def asked (h : List (Moment ι)) (c : Crew ι α) : List ι := granted h ++ c.queue

theorem granted_snoc_act (hg : a.grants = false) : granted (h ++ [.act i a]) = granted h := by
  simp [granted, hg]

theorem granted_snoc_grant (hg : a.grants = true) :
    granted (h ++ [.act i a]) = granted h ++ [i] := by
  simp [granted, hg]

theorem granted_snoc_drift (v w : World) : granted (h ++ [.drift v w]) = granted h := by
  simp [granted]

theorem asked_snoc_act {d e : Crew ι α} (hg : a.grants = false) (hqueue : e.queue = d.queue) :
    asked (h ++ [.act i a]) e = asked h d := by
  rw [asked, asked, granted_snoc_act hg, hqueue]

theorem gatewayCalls_snoc_call (ha : a.request.isGatewayCall = true) :
    gatewayCalls (h ++ [.act i a]) = gatewayCalls h ++ [(i, a)] := by
  simp [gatewayCalls, ha]

theorem gatewayCalls_snoc_act (ha : a.request.isGatewayCall = false) :
    gatewayCalls (h ++ [.act i a]) = gatewayCalls h := by
  simp [gatewayCalls, ha]

theorem gatewayCalls_snoc_drift (v w : World) :
    gatewayCalls (h ++ [.drift v w]) = gatewayCalls h := by
  simp [gatewayCalls]

end

/-- The gateway calls of one program after those of another, in an order of the programs. -/
def InBlocks {ι : Type} [DecidableEq ι] (order : List ι) (calls : List (ι × Answer)) : Prop :=
  calls = order.flatMap fun i => calls.filter fun call => call.1 = i

namespace InBlocks

variable {ι : Type} [DecidableEq ι] {order : List ι} {calls : List (ι × Answer)} {i : ι}

theorem mem (h : InBlocks order calls) {call : ι × Answer} (hc : call ∈ calls) :
    call.1 ∈ order := by
  rw [h, List.mem_flatMap] at hc
  obtain ⟨i, hi, hcall⟩ := hc
  have he : call.1 = i := by simpa using (List.mem_filter.1 hcall).2
  rw [he]
  exact hi

theorem filter_eq_nil (h : InBlocks order calls) (hi : i ∉ order) :
    (calls.filter fun call => call.1 = i) = [] := by
  rw [List.filter_eq_nil_iff]
  intro call hc he
  have he : call.1 = i := by simpa using he
  rw [← he] at hi
  exact hi (h.mem hc)

theorem append (h : InBlocks order calls) {more : List ι} (hm : ∀ i ∈ more, i ∉ order) :
    InBlocks (order ++ more) calls := by
  have hnil : (more.flatMap fun i => calls.filter fun call => call.1 = i) = [] := by
    rw [List.flatMap_eq_nil_iff]
    intro i hi
    exact h.filter_eq_nil (hm i hi)
  rw [InBlocks, List.flatMap_append, hnil, List.append_nil]
  exact h

theorem snoc (h : InBlocks (order ++ [i]) calls) (hi : i ∉ order) (a : Answer) :
    InBlocks (order ++ [i]) (calls ++ [(i, a)]) := by
  have hothers : (order.flatMap fun j => (calls ++ [(i, a)]).filter fun call => call.1 = j) =
      order.flatMap fun j => calls.filter fun call => call.1 = j := by
    refine List.flatMap_congr fun j hj => ?_
    have hne : ¬i = j := by
      rintro rfl
      exact hi hj
    simp [List.filter_append, hne]
  have hown : ((calls ++ [(i, a)]).filter fun call => call.1 = i) =
      (calls.filter fun call => call.1 = i) ++ [(i, a)] := by
    simp [List.filter_append]
  rw [InBlocks, List.flatMap_append, List.flatMap_singleton] at h ⊢
  rw [hothers, hown, ← List.append_assoc, ← h]

end InBlocks

/-! ### Service in turn -/

namespace Crew

section

variable {ι α : Type} {c d e : Crew ι α} {order : List ι} {i : ι}

/-- Every program holds the lock from its start to its end, and what it does to the gateway does
not depend on the time that passes. -/
structure Exclusive (c : Crew ι α) : Prop where
  holder : c.holder = none
  queue : c.queue = []
  locked : ∀ i, ∃ body, c.left i = Control.locked body ∧ Agrees body body

/-- The programs have ended as they end when they run alone one after another. -/
def Served (c : Crew ι α) (order : List ι) (d : Crew ι α) : Prop :=
  order.map d.left = (c.world.runInTurn (order.map c.left)).1.map .done

/-- A free lock means that the gateway is as the programs leave it one after another. The holder
of the lock, the last of them, goes on to end as it does alone after the others. -/
inductive Serving (c d : Crew ι α) : Option ι → List ι → Prop
  | free {order : List ι} (served : Served c order d)
    (gateway : d.world.gateway = (c.world.runInTurn (order.map c.left)).2.gateway) :
    Serving c d none order
  | held {order : List ι} {i : ι} {p : Control α} (served : Served c order d)
    (left : d.left i = p >>= release)
    (ends : EndsAs (c.world.runInTurn (order.map c.left)).2 (c.left i) p d.world) :
    Serving c d (some i) (order ++ [i])

theorem Served.done_of_mem (hs : Served c order d) (hi : i ∈ order) : ∃ a, d.left i = .done a := by
  have hmem : d.left i ∈ (c.world.runInTurn (order.map c.left)).1.map Program.done := by
    rw [← hs]
    exact List.mem_map_of_mem hi
  obtain ⟨a, -, ha⟩ := List.mem_map.1 hmem
  exact ⟨a, ha.symm⟩

theorem Served.congr (hs : Served c order d) (he : ∀ j ∈ order, e.left j = d.left j) :
    Served c order e := by
  rw [Served, List.map_congr_left he]
  exact hs

theorem Served.snoc (hs : Served c order d)
    (hi : d.left i = .done ((c.world.runInTurn (order.map c.left)).2.run (c.left i)).1) :
    Served c (order ++ [i]) d := by
  have horder : order.map d.left = _ := hs
  rw [Served, List.map_append, horder, List.map_append, List.map_singleton, List.map_singleton,
    World.runInTurn_snoc, List.map_append, hi]
  rfl

/-- A program that got the lock has ended or holds it. -/
theorem Serving.done_or_held {holder : Option ι} (hs : Serving c d holder order) (hi : i ∈ order) :
    (∃ a, d.left i = .done a) ∨ holder = some i := by
  cases hs with
  | free served gateway => exact Or.inl (served.done_of_mem hi)
  | held served left ends =>
    rcases List.mem_append.1 hi with hi | hi
    · exact Or.inl (served.done_of_mem hi)
    · obtain rfl := List.mem_singleton.1 hi
      exact Or.inr rfl

theorem Serving.congr {holder : Option ι} (hs : Serving c d holder order)
    (hleft : e.left = d.left) (hgateway : e.world.gateway = d.world.gateway) :
    Serving c e holder order := by
  cases hs with
  | free served gateway =>
    exact .free (served.congr fun j _ => congrFun hleft j) (hgateway.trans gateway)
  | held served left ends =>
    refine .held (served.congr fun j _ => congrFun hleft j) ((congrFun hleft _).trans left) ?_
    refine ends.transfer (fun _ hr => hr) (fun a ha => ⟨ha.1, hgateway.trans ha.2⟩) ?_
    intro r x w hx
    obtain ⟨u, hu, hhonest⟩ := hx
    exact ⟨u, hu.trans hgateway, hhonest⟩

end

variable {ι α : Type} [DecidableEq ι] {c d e : Crew ι α} {h g : List (Moment ι)} {m : Moment ι}
  {i : ι}

theorem Step.left_of_not_mem {a : Answer} (hstep : Step d (.act i a) e) {order : List ι}
    (hi : i ∉ order) : ∀ j ∈ order, e.left j = d.left j := by
  intro j hj
  refine hstep.left_of_ne ?_
  rintro rfl
  exact hi hj

/-- What holds at every moment of a run. -/
structure Serial (c : Crew ι α) (h : List (Moment ι)) (d : Crew ι α) : Prop where
  untouched : ∀ i, i ∉ granted h → d.left i = c.left i
  once : (asked h d).Nodup
  apart : InBlocks (granted h) (gatewayCalls h)
  serving : Serving c d d.holder (granted h)

namespace Serial

theorem start (hc : c.Exclusive) : Serial c [] c := by
  have hqueue := hc.queue
  refine ⟨fun _ _ => rfl, by simp [asked, granted, hqueue], rfl, ?_⟩
  rw [hc.holder]
  exact .free rfl rfl

theorem not_mem_queue (hs : Serial c h d) (hi : i ∈ granted h) : i ∉ d.queue := fun hq =>
  (List.nodup_append.1 hs.once).2.2 i hi i hq rfl

theorem not_mem_of_last (hs : Serial c h d) {order : List ι} (horder : granted h = order ++ [i]) :
    i ∉ order := by
  have honce := (List.nodup_append.1 hs.once).1
  rw [horder] at honce
  intro hi
  exact (List.nodup_append.1 honce).2.2 i hi i (List.mem_singleton_self i) rfl

theorem mem_granted (hs : Serial c h d) (hc : c.Exclusive) {r : Request} {x : Option (Reply r)}
    {p : Control α} (ht : Takes (d.left i) r x p) (hr : r ≠ .lock ∨ x = none) : i ∈ granted h := by
  by_contra hi
  -- one that has not had the lock has not begun, and the lock is the first that it asks for
  obtain ⟨body, hbody, -⟩ := hc.locked i
  rw [hs.untouched i hi, hbody] at ht
  obtain ⟨hlock, hsome, -⟩ := ht.locked_inv
  rcases hr with hr | rfl
  · exact hr hlock
  · cases hsome

theorem erase_queue (hs : Serial c h d) (hc : c.Exclusive) {r : Request} {p : Control α}
    (ht : Takes (d.left i) r none p) : d.queue.erase i = d.queue :=
  List.erase_of_not_mem (hs.not_mem_queue (hs.mem_granted hc ht (Or.inr rfl)))

/-- A program that goes on after it got the lock still holds it. -/
theorem exists_held (hs : Serial c h d) {r : Request} {x : Option (Reply r)} {p : Control α}
    (ht : Takes (d.left i) r x p) (hi : i ∈ granted h) :
    ∃ order q, granted h = order ++ [i] ∧ d.holder = some i ∧ Served c order d ∧
      d.left i = q >>= release ∧
      EndsAs (c.world.runInTurn (order.map c.left)).2 (c.left i) q d.world := by
  have hserving := hs.serving
  rcases hserving.done_or_held hi with ⟨a, ha⟩ | hheld
  · rw [ha] at ht
    exact ht.done_elim.elim
  · rw [hheld] at hserving
    generalize horder : granted h = order at hserving
    cases hserving with
    | held served left ends => exact ⟨_, _, rfl, hheld, served, left, ends⟩

theorem not_mem_granted (hs : Serial c h d) {x : Option (Reply .lock)} {p : Control α}
    (ht : Takes (d.left i) .lock x p) : i ∉ granted h := by
  intro hi
  obtain ⟨order, q, -, -, -, hleft, hends⟩ := hs.exists_held ht hi
  rw [hleft] at ht
  rcases ht.release_inv with ⟨a, -, hunlock, -⟩ | ⟨p', htakes, -⟩
  · cases hunlock
  · exact (hends.asks htakes).1 rfl

/-! ### Steps

The holder of the lock goes on and keeps it (`goOn`), or returns it at its end (`unlock`); the first
in the queue gets it (`grant`); or nobody goes on (`drift`).
-/

section

variable {a : Answer} (hs : Serial c h d) (hstep : Step d (.act i a) e)

include hs hstep

theorem untouched_act (hgranted : granted (h ++ [.act i a]) = granted h ++ [i] ∨
    granted (h ++ [.act i a]) = granted h ∧ i ∈ granted h) :
    ∀ j, j ∉ granted (h ++ [.act i a]) → e.left j = c.left j := by
  intro j hj
  have hcases : j ∉ granted h ∧ j ≠ i := by
    rcases hgranted with hgranted | ⟨hgranted, hi⟩
    · rw [hgranted] at hj
      simpa using hj
    · rw [hgranted] at hj
      exact ⟨hj, fun he => hj (he ▸ hi)⟩
  exact (hstep.left_of_ne hcases.2).trans (hs.untouched j hcases.1)

theorem goOn (hi : i ∈ granted h) (hgrants : a.grants = false) (hunlock : a.request ≠ .unlock)
    (hholder : e.holder = d.holder) (hqueue : e.queue = d.queue) :
    Serial c (h ++ [.act i a]) e := by
  obtain ⟨order, q, horder, hheld, hserved, hleft, hends⟩ := hs.exists_held hstep.takes hi
  have hlast : i ∉ order := hs.not_mem_of_last horder
  have hsame : granted (h ++ [.act i a]) = granted h := granted_snoc_act hgrants
  have htakes := hstep.takes
  rw [hleft] at htakes
  rcases htakes.release_inv with ⟨x, -, hrequest, -⟩ | ⟨q', hq', hp⟩
  · exact absurd hrequest hunlock
  refine ⟨hs.untouched_act hstep (Or.inr ⟨hsame, hi⟩), ?_, ?_, ?_⟩
  · rw [asked, hsame, hqueue]
    exact hs.once
  · have hapart := hs.apart
    rw [hsame]
    rw [horder] at hapart ⊢
    cases hcall : a.request.isGatewayCall with
    | true =>
      rw [gatewayCalls_snoc_call hcall]
      exact hapart.snoc hlast a
    | false =>
      rw [gatewayCalls_snoc_act hcall]
      exact hapart
  · have hothers := hstep.left_of_not_mem hlast
    have hanswer : World.changing World.SameGateway a.request d.world a.reply e.world := by
      refine ⟨d.world, rfl, ?_⟩
      rw [← hstep.before_eq, ← hstep.after_eq]
      exact hstep.honest
    rw [hsame, horder, hholder, hheld]
    exact .held (hserved.congr hothers) hp (hends.takes hq' hanswer)

theorem unlock (hi : i ∈ granted h) (hunlock : a.request = .unlock) (hholder : e.holder = none)
    (hqueue : e.queue = d.queue) (hworld : e.world = d.world) :
    Serial c (h ++ [.act i a]) e := by
  obtain ⟨order, q, horder, hheld, hserved, hleft, hends⟩ := hs.exists_held hstep.takes hi
  have hlast : i ∉ order := hs.not_mem_of_last horder
  have hsame : granted (h ++ [.act i a]) = granted h :=
    granted_snoc_act (Answer.grants_of_ne (by rw [hunlock]; exact nofun))
  have htakes := hstep.takes
  rw [hleft] at htakes
  rcases htakes.release_inv with ⟨x, rfl, -, -, hp⟩ | ⟨q', hq', -⟩
  swap
  · exact absurd hunlock (hends.asks hq').2
  obtain ⟨rfl, hgateway⟩ := hends
  refine ⟨hs.untouched_act hstep (Or.inr ⟨hsame, hi⟩), ?_, ?_, ?_⟩
  · rw [asked, hsame, hqueue]
    exact hs.once
  · rw [hsame, gatewayCalls_snoc_act (by rw [hunlock]; rfl)]
    exact hs.apart
  · have hothers := hstep.left_of_not_mem hlast
    rw [hsame, horder, hholder]
    refine .free ((hserved.congr hothers).snoc hp) ?_
    rw [List.map_append, List.map_singleton, World.runInTurn_snoc, hworld]
    exact hgateway

theorem grant (hc : c.Exclusive) {rest : List ι} (hgrants : a.grants = true)
    (hfree : d.holder = none) (hfirst : d.queue = i :: rest) (hholder : e.holder = some i)
    (hqueue : e.queue = rest) (hworld : e.world = d.world) :
    Serial c (h ++ [.act i a]) e := by
  have hmore : granted (h ++ [.act i a]) = granted h ++ [i] := granted_snoc_grant hgrants
  have hnew : i ∉ granted h := fun hi => hs.not_mem_queue hi (by simp [hfirst])
  have hcall : a.request.isGatewayCall = false := by
    obtain ⟨r, x, v, w⟩ := a
    cases r with
    | lock => rfl
    | _ => cases x <;> cases hgrants
  obtain ⟨body, hbody, hagrees⟩ := hc.locked i
  have htakes := hstep.takes
  rw [hs.untouched i hnew, hbody] at htakes
  obtain ⟨-, -, hleft⟩ := htakes.locked_inv
  have hserving := hs.serving
  rw [hfree] at hserving
  refine ⟨hs.untouched_act hstep (Or.inl hmore), ?_, ?_, ?_⟩
  · have honce := hs.once
    rw [asked, hfirst] at honce
    rw [asked, hmore, hqueue, List.append_assoc]
    exact honce
  · rw [hmore, gatewayCalls_snoc_act hcall]
    refine hs.apart.append fun j hj => ?_
    obtain rfl := List.mem_singleton.1 hj
    exact hnew
  · rw [hmore, hholder]
    generalize horder : granted h = order at hserving hnew
    cases hserving with
    | free served gateway =>
      have hothers := hstep.left_of_not_mem hnew
      have hsame : e.world.gateway = (c.world.runInTurn (order.map c.left)).2.gateway := by
        rw [hworld]
        exact gateway
      refine .held (served.congr hothers) hleft ?_
      -- the new holder finds the gateway as it does alone, so it will end as it does alone
      rw [EndsAs, hbody, World.run_locked]
      exact hagrees e.world (c.world.runInTurn (order.map c.left)).2 hsame

end

theorem drift (hs : Serial c h d) {v w : World} (hstep : Step d (.drift v w) e)
    (hholder : e.holder = d.holder) (hgateway : e.world.gateway = d.world.gateway)
    (honce : (asked h e).Nodup) : Serial c (h ++ [.drift v w]) e := by
  have hleft : e.left = d.left := hstep.left_of_drift
  refine ⟨?_, ?_, ?_, ?_⟩
  · rw [granted_snoc_drift, hleft]
    exact hs.untouched
  · rw [asked, granted_snoc_drift]
    exact honce
  · rw [granted_snoc_drift, gatewayCalls_snoc_drift]
    exact hs.apart
  · rw [granted_snoc_drift, hholder]
    exact hs.serving.congr hleft hgateway

theorem step (hs : Serial c h d) (hc : c.Exclusive) (hstep : Step d m e) :
    Serial c (h ++ [m]) e := by
  have hmove := hstep
  cases hstep with
  | answer takes notLock notUnlock effect =>
    have hi := hs.mem_granted hc takes (Or.inl notLock)
    exact hs.goOn hmove hi (Answer.grants_of_ne notLock) notUnlock rfl rfl
  | unlock takes =>
    have hi := hs.mem_granted hc takes (Or.inl nofun)
    exact hs.unlock hmove hi rfl rfl rfl rfl
  | @giveUp i r p takes notUnlock =>
    have hi := hs.mem_granted hc takes (Or.inr rfl)
    exact hs.goOn hmove hi (Answer.grants_of_none r d.world d.world) notUnlock rfl
      (hs.erase_queue hc takes)
  | @stand i p takes new =>
    have hnew : i ∉ granted h := hs.not_mem_granted takes
    refine hs.drift hmove rfl rfl ?_
    show (granted h ++ (d.queue ++ [i])).Nodup
    rw [← List.append_assoc, List.nodup_append]
    refine ⟨hs.once, List.nodup_singleton i, ?_⟩
    rintro j hj k hk rfl
    obtain rfl := List.mem_singleton.1 hk
    rcases List.mem_append.1 hj with hj | hj
    · exact hnew hj
    · exact new hj
  | grant free first takes => exact hs.grant hmove hc rfl free first rfl rfl rfl
  | drift drifts => exact hs.drift hmove rfl drifts.gateway hs.once

theorem asked_step (hs : Serial c h d) (hc : c.Exclusive) (hstep : Step d m e) :
    ∃ more, asked (h ++ [m]) e = asked h d ++ more := by
  cases hstep with
  | answer takes notLock notUnlock effect =>
    refine ⟨[], (asked_snoc_act ?_ ?_).trans (List.append_nil _).symm⟩
    · exact Answer.grants_of_ne notLock
    · rfl
  | unlock takes =>
    refine ⟨[], (asked_snoc_act ?_ ?_).trans (List.append_nil _).symm⟩
    · rfl
    · rfl
  | giveUp takes notUnlock =>
    refine ⟨[], (asked_snoc_act ?_ ?_).trans (List.append_nil _).symm⟩
    · exact Answer.grants_of_none _ _ _
    · exact hs.erase_queue hc takes
  | @stand i p takes new =>
    refine ⟨[i], ?_⟩
    rw [asked, asked, granted_snoc_drift, List.append_assoc]
  | @grant i rest p free first takes =>
    refine ⟨[], ?_⟩
    rw [asked, asked, granted_snoc_grant rfl, first, List.append_nil, List.append_assoc,
      List.singleton_append]
  | drift drifts =>
    refine ⟨[], ?_⟩
    rw [asked, asked, granted_snoc_drift, List.append_nil]

theorem holder_of_call (hs : Serial c h d) (hc : c.Exclusive) {r : Request}
    (hr : d.asked? i = some r) (hcall : r.isGatewayCall = true) : d.holder = some i := by
  have hlock : r ≠ .lock := by
    rintro rfl
    cases hcall
  obtain ⟨⟨r', next⟩, hnext, rfl⟩ := Option.map_eq_some_iff.1 hr
  have htakes := Takes.of_next? hnext (d.world.effect r').1
  obtain ⟨order, q, -, hheld, -⟩ :=
    hs.exists_held htakes (hs.mem_granted hc htakes (Or.inl hlock))
  exact hheld

/-! ### What has been served -/

theorem mem_granted_of_done (hs : Serial c h d) (hc : c.Exclusive) {a : α}
    (hdone : d.left i = .done a) : i ∈ granted h := by
  by_contra hi
  obtain ⟨body, hbody, -⟩ := hc.locked i
  rw [hs.untouched i hi, hbody] at hdone
  cases hdone

theorem exists_served (hs : Serial c h d) (hc : c.Exclusive) :
    ∃ order, order <+: asked h d ∧ Served c order d ∧ ∀ i a, d.left i = .done a → i ∈ order := by
  have hmem : ∀ i a, d.left i = .done a → i ∈ granted h := fun i a => hs.mem_granted_of_done hc
  have hserving := hs.serving
  rw [asked]
  generalize granted h = order at hserving hmem
  generalize d.holder = holder at hserving
  cases hserving with
  | free served gateway => exact ⟨order, List.prefix_append _ _, served, hmem⟩
  | @held order i p served left ends =>
    refine ⟨order, ?_, served, fun j a hj => ?_⟩
    · rw [List.append_assoc]
      exact List.prefix_append _ _
    · rcases List.mem_append.1 (hmem j a hj) with hmem | hlast
      · exact hmem
      · obtain rfl := List.mem_singleton.1 hlast
        rw [left] at hj
        exact (release_ne_done p a hj).elim

/-- When all that asked have ended, they have ended as they do one after another. -/
theorem served (hs : Serial c h d) (hc : c.Exclusive)
    (hdone : ∀ i ∈ asked h d, ∃ a, d.left i = .done a) :
    Served c (asked h d) d ∧
      d.world.gateway = (c.world.runInTurn ((asked h d).map c.left)).2.gateway := by
  have hempty : d.queue = [] := by
    rw [List.eq_nil_iff_forall_not_mem]
    intro i hi
    obtain ⟨a, ha⟩ := hdone i (List.mem_append_right _ hi)
    exact hs.not_mem_queue (hs.mem_granted_of_done hc ha) hi
  have hasked : asked h d = granted h := by rw [asked, hempty, List.append_nil]
  have hserving := hs.serving
  rw [hasked] at hdone ⊢
  generalize granted h = order at hserving hdone
  generalize d.holder = holder at hserving
  cases hserving with
  | free served gateway => exact ⟨served, gateway⟩
  | @held order i p served left ends =>
    obtain ⟨a, ha⟩ := hdone i (by simp)
    rw [left] at ha
    exact (release_ne_done p a ha).elim

end Serial

theorem Run.serial (hr : Run c h d) (hc : c.Exclusive) : Serial c h d := by
  induction hr with
  | nil => exact Serial.start hc
  | snoc run step ih => exact ih.step hc step

theorem Run.asked_prefix {g₁ g₂ : List (Moment ι)} (h₁ : Run c g₁ d) (h₂ : Run d g₂ e)
    (hc : c.Exclusive) : asked g₁ d <+: asked (g₁ ++ g₂) e := by
  induction h₂ with
  | nil => exact ⟨[], by simp⟩
  | snoc run step ih =>
    obtain ⟨more, hmore⟩ := ((h₁.append run).serial hc).asked_step hc step
    rw [← List.append_assoc]
    exact ih.trans ⟨more, hmore.symm⟩

/-! ### Every program comes to its end -/

theorem Step.done_stays (hstep : Step d m e) {a : α} (hdone : d.left i = .done a) :
    e.left i = .done a := by
  cases m with
  | act j b =>
    by_cases hj : i = j
    · subst hj
      have htakes := hstep.takes
      rw [hdone] at htakes
      exact htakes.done_elim.elim
    · rw [hstep.left_of_ne hj]
      exact hdone
  | drift v w =>
    rw [hstep.left_of_drift]
    exact hdone

theorem Run.done_stays (hr : Run d h e) {a : α} (hdone : d.left i = .done a) :
    e.left i = .done a := by
  induction hr with
  | nil => exact hdone
  | snoc run step ih => exact step.done_stays ih

theorem exists_answer {r : Request} {p : Control α}
    (ht : Takes (d.left i) r (some (d.world.effect r).1) p) (hlock : r ≠ .lock)
    (hunlock : r ≠ .unlock) : ∃ m e, Step d m e ∧ e.left i = p ∧ e.queue = d.queue ∧
      World.changing World.SameGateway r d.world (some (d.world.effect r).1) e.world :=
  ⟨_, _, .answer ht hlock hunlock rfl, by simp [goOn], rfl, d.world, rfl, rfl⟩

/-- A program with the lock can go on until it returns the lock. -/
theorem exists_release {w : World} {q p : Control α} (hleft : d.left i = p >>= release)
    (hends : EndsAs w q p d.world) :
    ∃ g e a, Run d g e ∧ e.left i = .done a ∧ e.holder = none ∧ e.queue = d.queue := by
  -- by what is left of the program: each answer comes at once, and keeps what `EndsAs` promises
  induction p generalizing d with
  | done a =>
    have htakes : Takes (d.left i) .unlock (some ()) (.done a) := by
      rw [hleft]
      exact .ask _ _ _
    exact ⟨_, _, a, Run.single (.unlock htakes), by simp [goOn], rfl, rfl⟩
  | ask r next ih =>
    have htakes : Takes (d.left i) r (some (d.world.effect r).1)
        (next (d.world.effect r).1 >>= release) := by
      rw [hleft]
      exact .ask _ _ _
    obtain ⟨m, d', hstep, hleft', hqueue', hanswer⟩ :=
      exists_answer htakes hends.1.1 hends.1.2
    obtain ⟨g, e, a, hrun, hdone, hfree, hqueue⟩ := ih _ hleft' (hends.2 _ _ hanswer)
    exact ⟨_, e, a, (Run.single hstep).append hrun, hdone, hfree, hqueue.trans hqueue'⟩
  | askBy deadline r next ih =>
    have htakes : Takes (d.left i) r (some (d.world.effect r).1)
        (next (some (d.world.effect r).1) >>= release) := by
      rw [hleft]
      exact .inTime _ _ _ _
    obtain ⟨m, d', hstep, hleft', hqueue', hanswer⟩ :=
      exists_answer htakes hends.1.1 hends.1.2
    obtain ⟨g, e, a, hrun, hdone, hfree, hqueue⟩ := ih _ hleft' (hends.2 _ _ hanswer)
    exact ⟨_, e, a, (Run.single hstep).append hrun, hdone, hfree, hqueue.trans hqueue'⟩

theorem Serial.exists_free (hs : Serial c h d) :
    ∃ g e, Run d g e ∧ e.holder = none ∧ e.queue = d.queue := by
  have hserving := hs.serving
  generalize granted h = order at hserving
  cases hheld : d.holder with
  | none => exact ⟨[], d, .nil d, hheld, rfl⟩
  | some i =>
    rw [hheld] at hserving
    cases hserving with
    | held served left ends =>
      obtain ⟨g, e, a, hrun, -, hfree, hqueue⟩ := exists_release left ends
      exact ⟨g, e, hrun, hfree, hqueue⟩

theorem Serial.takes_lock (hs : Serial c h d) (hc : c.Exclusive) (hi : i ∉ granted h) :
    ∃ p, Takes (d.left i) .lock (some ()) p := by
  obtain ⟨body, hbody, -⟩ := hc.locked i
  rw [hs.untouched i hi, hbody]
  exact ⟨_, .ask _ _ _⟩

theorem Run.exists_idle (hr : Run c h d) (hc : c.Exclusive) :
    ∃ g e, Run d g e ∧ e.holder = none ∧ e.queue = [] := by
  -- by the queue: the holder ends, and the first that waits is the next holder
  generalize hqueue : d.queue = queue
  induction queue generalizing h d with
  | nil =>
    obtain ⟨g, e, hrun, hfree, he⟩ := (hr.serial hc).exists_free
    exact ⟨g, e, hrun, hfree, he.trans hqueue⟩
  | cons i rest ih =>
    obtain ⟨g, e, hrun, hfree, he⟩ := (hr.serial hc).exists_free
    have hserial := (hr.append hrun).serial hc
    have hfirst : e.queue = i :: rest := he.trans hqueue
    have hnew : i ∉ granted (h ++ g) := fun hi => hserial.not_mem_queue hi (by simp [hfirst])
    obtain ⟨p, htakes⟩ := hserial.takes_lock hc hnew
    have hgrant := Run.single (Step.grant hfree hfirst htakes)
    obtain ⟨g', e', hrun', hidle, hempty⟩ := ih ((hr.append hrun).append hgrant) rfl
    exact ⟨_, e', (hrun.append hgrant).append hrun', hidle, hempty⟩

theorem Run.exists_done_of_asked (hr : Run c h d) (hc : c.Exclusive) (hi : i ∈ asked h d) :
    ∃ g e a, Run d g e ∧ e.left i = .done a := by
  obtain ⟨g, e, hrun, hfree, hempty⟩ := hr.exists_idle hc
  have hserial := (hr.append hrun).serial hc
  have hgranted : i ∈ granted (h ++ g) := by
    have hasked := (hr.asked_prefix hrun hc).subset hi
    rw [asked, hempty, List.append_nil] at hasked
    exact hasked
  rcases hserial.serving.done_or_held hgranted with ⟨a, ha⟩ | hheld
  · exact ⟨g, e, a, hrun, ha⟩
  · rw [hfree] at hheld
    cases hheld

theorem Run.exists_done (hr : Run c h d) (hc : c.Exclusive) (i : ι) :
    ∃ g e a, Run d g e ∧ e.left i = .done a := by
  by_cases hi : i ∈ asked h d
  · exact hr.exists_done_of_asked hc hi
  · obtain ⟨p, htakes⟩ := (hr.serial hc).takes_lock hc fun h => hi (List.mem_append_left _ h)
    have hstand := Run.single (Step.stand htakes fun h => hi (List.mem_append_right _ h))
    have hasked : i ∈ asked (h ++ [.drift d.world d.world])
        { d with queue := d.queue ++ [i] } := by simp [asked]
    obtain ⟨g, e, a, hrun, ha⟩ := (hr.append hstand).exists_done_of_asked hc hasked
    exact ⟨_, e, a, hstand.append hrun, ha⟩

theorem Run.exists_all_done (hr : Run c h d) (hc : c.Exclusive) (l : List ι) :
    ∃ g e, Run d g e ∧ ∀ i ∈ l, ∃ a, e.left i = .done a := by
  induction l with
  | nil => exact ⟨[], d, .nil d, by simp⟩
  | cons i rest ih =>
    obtain ⟨g, e, hrun, hdone⟩ := ih
    obtain ⟨g', e', a, hrun', ha⟩ := (hr.append hrun).exists_done hc i
    refine ⟨g ++ g', e', hrun.append hrun', List.forall_mem_cons.2 ⟨⟨a, ha⟩, fun j hj => ?_⟩⟩
    obtain ⟨x, hx⟩ := hdone j hj
    exact ⟨x, hrun'.done_stays hx⟩

/-- The programs are served in the order in which they asked for the lock. -/
structure ServedInTurn (c : Crew ι α) (h : List (Moment ι)) (d : Crew ι α) : Prop where
  once : (asked h d).Nodup
  /-- Who has asked before stands before in the list. -/
  inOrder : ∀ g₁ g₂ e, h = g₁ ++ g₂ → Run c g₁ e → Run e g₂ d → asked g₁ e <+: asked h d
  /-- A program that is about to call the gateway, or waits for its answer, holds the lock. -/
  exclusive : ∀ i r, d.asked? i = some r → r.isGatewayCall = true → d.holder = some i
  apart : InBlocks (asked h d) (gatewayCalls h)
  /-- Those that have ended are the first that asked, and ended as they do one after another. -/
  served : ∃ order, order <+: asked h d ∧ Served c order d ∧
    ∀ i a, d.left i = .done a → i ∈ order
  /-- When all have ended, the gateway is as they leave it one after another. -/
  whole : (∀ i ∈ asked h d, ∃ a, d.left i = .done a) → Served c (asked h d) d ∧
    d.world.gateway = (c.world.runInTurn ((asked h d).map c.left)).2.gateway
  /-- However far a run is, the programs can still all end. -/
  ends : ∀ l : List ι, ∃ g e, Run d g e ∧ ∀ i ∈ l, ∃ a, e.left i = .done a

theorem Run.servedInTurn (hr : Run c h d) (hc : c.Exclusive) : ServedInTurn c h d where
  once := (hr.serial hc).once
  inOrder := by
    rintro g₁ g₂ e rfl h₁ h₂
    exact h₁.asked_prefix h₂ hc
  exclusive i r hr' hcall := (hr.serial hc).holder_of_call hc hr' hcall
  apart := (hr.serial hc).apart.append fun i hi hg => (hr.serial hc).not_mem_queue hg hi
  served := (hr.serial hc).exists_served hc
  whole := (hr.serial hc).served hc
  ends l := hr.exists_all_done hc l

end Crew

/-! ### Calls of the protocol -/

open Protocol

/-- Calls before any of them has begun. -/
def callCrew {ι : Type} (b : Backoff) (calls : ι → Call) (w : World) :
    Crew ι (Outcome CallResult) where
  world := w
  left i := (calls i).program b

open Crew in
/-- Creates, ensures and deletes that run side by side have the results, and leave the gateway, that
they have and leave one after another in the order in which they asked for the lock. -/
theorem calls_are_served_in_turn {ι : Type} [DecidableEq ι] {b : Backoff} {calls : ι → Call}
    {w : World} {h : List (Moment ι)} {d : Crew ι (Outcome CallResult)}
    (hordered : ∀ i, (calls i).isOrdered = true) (hrun : Run (callCrew b calls w) h d) :
    ServedInTurn (callCrew b calls w) h d := by
  have hexclusive : (callCrew b calls w).Exclusive :=
    ⟨rfl, rfl, fun i => Call.exists_locked b (hordered i)⟩
  exact hrun.servedInTurn hexclusive

def contendedWorld : World where
  epoch := ⟨0, 0⟩
  gateway := { MemoryGateway.ofRoutes [Route.named "r-2" "10.244.2.0/24" "i-2"] with
    failures.create := [.gateway "503"] }

/-- Two instances want one destination, and a route is deleted. -/
def contendedCrew : Crew (Fin 3) (Outcome CallResult) :=
  callCrew .standard
    (fun
      | 0 => .create "i-0" "10.244.1.0/24"
      | 1 => .ensure "i-1" "10.244.1.0/24" none
      | 2 => .delete "10.244.2.0/24")
    contendedWorld

def contendedTurns : List (Turn (Fin 3)) :=
  (List.replicate 20 [.act 1, .act 2, .act 0]).flatten

open Crew in
theorem contended_calls_are_served :
    ServedInTurn contendedCrew (contendedCrew.play contendedTurns).1
        (contendedCrew.play contendedTurns).2 ∧
      asked (contendedCrew.play contendedTurns).1 (contendedCrew.play contendedTurns).2 =
        [1, 2, 0] ∧
      (∀ i, (Control.result? ((contendedCrew.play contendedTurns).2.left i)).isSome = true) ∧
      (contendedCrew.play contendedTurns).2.world.gateway.table.values =
        [Route.named "route-1" "10.244.1.0/24" "i-1"] := by
  refine ⟨calls_are_served_in_turn ?_ (Run.play contendedCrew contendedTurns), ?_, ?_, ?_⟩
  · decide
  · decide +kernel
  · decide +kernel
  · decide +kernel

end PodRoutes
