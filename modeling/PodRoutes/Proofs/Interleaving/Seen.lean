import PodRoutes.Node.Eligibility
import PodRoutes.Proofs.Interleaving.Lock

/-!
# What a program has seen

A program sees nodes in a listing or by a look at one name, and routes in a listing. From then on it
works on what it saw, whatever becomes of the store and the table.
-/

namespace PodRoutes

open Control

variable {t g : List Answer} {a : Answer} {n : Node} {nodes : List Node} {routes : List Route}

/-! ### Nodes -/

/-- The nodes that an answer shows, without those that a pass leaves out. -/
def Answer.shown? : Answer → Option (List Node)
  | ⟨.listNodes, some (.ok nodes), _, _⟩ => some (nodes.filter fun n => !n.isExcluded)
  | ⟨.getNode _, some (.ok (some n)), _, _⟩ => some [n]
  | _ => none

/-- The nodes in the first answer that shows some. -/
def seenNodes (t : List Answer) : List Node := (t.findSome? Answer.shown?).getD []

theorem seenNodes_of_first (h : t.findSome? Answer.shown? = some nodes) : seenNodes t = nodes := by
  rw [seenNodes, h]
  rfl

theorem first_append (g : List Answer) (h : t.findSome? Answer.shown? = some nodes) :
    (t ++ g).findSome? Answer.shown? = some nodes := by
  rw [List.findSome?_append, h]
  rfl

theorem first_snoc_of_unseen (ht : ∀ a ∈ t, a.shown? = none) (ha : a.shown? = some nodes) :
    (t ++ [a]).findSome? Answer.shown? = some nodes := by
  rw [List.findSome?_append, List.findSome?_eq_none_iff.2 ht]
  simp [ha]

theorem unseen_snoc (ht : ∀ a ∈ t, a.shown? = none) (ha : a.shown? = none) :
    ∀ b ∈ t ++ [a], b.shown? = none := Answer.forall_mem_snoc ht ha

theorem seenNodes_append (g : List Answer) (h : t.findSome? Answer.shown? = some nodes) :
    seenNodes (t ++ g) = nodes := seenNodes_of_first (first_append g h)

theorem first_of_mem_seenNodes (h : n ∈ seenNodes t) :
    t.findSome? Answer.shown? = some (seenNodes t) := by
  unfold seenNodes at h ⊢
  cases hfirst : t.findSome? Answer.shown? with
  | none => simp [hfirst] at h
  | some nodes => rfl

theorem mem_seenNodes_append (g : List Answer) (h : n ∈ seenNodes t) : n ∈ seenNodes (t ++ g) := by
  rw [seenNodes_append g (first_of_mem_seenNodes h)]
  exact h

theorem mem_seenNodes_append_inv (h : n ∈ seenNodes (t ++ g)) : n ∈ seenNodes t ∨
    ∃ a ∈ g, ∃ nodes, a.shown? = some nodes ∧ n ∈ nodes := by
  have hfirst := first_of_mem_seenNodes h
  rw [List.findSome?_append] at hfirst
  cases ht : t.findSome? Answer.shown? with
  | some nodes =>
    rw [ht] at hfirst
    rw [seenNodes_of_first ht, Option.some.inj hfirst]
    exact Or.inl h
  | none =>
    rw [ht] at hfirst
    obtain ⟨a, ha, hshown⟩ := List.exists_of_findSome?_eq_some hfirst
    exact Or.inr ⟨a, ha, _, hshown, h⟩

theorem mem_seenNodes_of_snoc (ha : a.shown? = none) (h : n ∈ seenNodes (t ++ [a])) :
    n ∈ seenNodes t := by
  rcases mem_seenNodes_append_inv h with h | ⟨b, hb, nodes, hshown, -⟩
  · exact h
  · rw [List.mem_singleton.1 hb, ha] at hshown
    cases hshown

namespace Answer.Honest

theorem shown_cases (h : a.Honest) (hs : a.shown? = some nodes) :
    nodes = a.before.store.nodes.values.filter (fun n => !n.isExcluded) ∨
      ∃ name n, a.before.store.nodes.get? name = some n ∧ nodes = [n] := by
  obtain ⟨r, x, v, w⟩ := a
  unfold shown? at hs
  split at hs
  · next stored before after hanswer =>
    cases hanswer
    cases hs
    have heffect : v.effect .listNodes = (.ok stored, w) := h
    have hstored := NodeStore.list_eq_of_ok (congrArg Prod.fst heffect)
    exact Or.inl (congrArg _ hstored)
  · next name n before after hanswer =>
    cases hanswer
    cases hs
    have heffect : v.effect (.getNode name) = (.ok (some n), w) := h
    exact Or.inr ⟨name, n, (NodeStore.get_eq_of_ok (congrArg Prod.fst heffect)).symm, rfl⟩
  · cases hs

theorem shown_stored (h : a.Honest) (hk : a.before.Keyed) (hs : a.shown? = some nodes)
    (hn : n ∈ nodes) : a.before.store.nodes.get? n.name = some n := by
  rcases h.shown_cases hs with rfl | ⟨name, m, hm, rfl⟩
  · exact hk.nodes.get?_of_mem (List.mem_filter.1 hn).1
  · obtain rfl := List.mem_singleton.1 hn
    have hname := hk.nodes name n hm
    rw [hname]
    exact hm

theorem shown_pairwise (h : a.Honest) (hk : a.before.Keyed) (hs : a.shown? = some nodes) :
    nodes.Pairwise fun m n => m.name ≠ n.name := by
  rcases h.shown_cases hs with rfl | ⟨name, m, hm, rfl⟩
  · exact hk.nodes.pairwise_values.filter _
  · exact List.pairwise_singleton _ _

end Answer.Honest

/-! ### Routes -/

def Answer.routes? : Answer → Option (List Route)
  | ⟨.listRoutes, some (.ok routes), _, _⟩ => some routes
  | _ => none

def listedRoutes (t : List Answer) : List Route := (t.findSome? Answer.routes?).getD []

theorem exists_listing_of_mem {q : Route} (h : q ∈ listedRoutes t) :
    ∃ a ∈ t, ∃ routes, a.routes? = some routes ∧ q ∈ routes := by
  rw [listedRoutes] at h
  cases hfirst : t.findSome? Answer.routes? with
  | none => simp [hfirst] at h
  | some routes =>
    obtain ⟨a, ha, hroutes⟩ := List.exists_of_findSome?_eq_some hfirst
    exact ⟨a, ha, routes, hroutes, by simpa [hfirst] using h⟩

theorem Answer.isWrite_of_routes? (h : a.routes? = some routes) : a.request.isWrite = false := by
  unfold Answer.routes? at h
  split at h
  · rfl
  · cases h

theorem Answer.Honest.routes_eq (h : a.Honest) (hr : a.routes? = some routes) :
    routes = a.before.gateway.table.values := by
  obtain ⟨r, x, v, w⟩ := a
  unfold Answer.routes? at hr
  split at hr
  · next hanswer =>
    cases hanswer
    cases hr
    have heffect : v.effect .listRoutes = (.ok routes, w) := h
    exact MemoryGateway.list_eq_of_ok (congrArg Prod.fst heffect)
  · cases hr

theorem Answer.Honest.created (h : a.Honest) {c : String} {r : Route}
    (hafter : a.after.gateway.table.get? c = some r)
    (hbefore : a.before.gateway.table.get? c ≠ some r) :
    a.request = .createRoute r.instanceId c := by
  rcases h.after_eq with he | he
  · rw [he] at hafter
    exact absurd hafter hbefore
  · rw [he] at hafter
    exact World.created_of_effect hafter hbefore

end PodRoutes
