import PodRoutes.Table

/-!
# Tables whose values carry their keys

Routes are kept by destination and nodes by name, so the key of an entry can be read off its value.
Then different entries have different keys, and a search through the values is a lookup.
-/

namespace PodRoutes.Table

variable {α : Type} {f : α → String} {t : Table α} {key : String} {v : α}

/-- Every value stands under the key that the function reads off it. -/
def KeyedBy (f : α → String) (t : Table α) : Prop :=
  ∀ key v, t.get? key = some v → f v = key

theorem keyedBy_iff : t.KeyedBy f ↔ ∀ e ∈ t.entries, f e.2 = e.1 := by
  constructor
  · intro h e he
    exact h e.1 e.2 (get?_eq_some_iff.2 he)
  · intro h key v hv
    exact h (key, v) (get?_eq_some_iff.1 hv)

instance (f : α → String) (t : Table α) : Decidable (t.KeyedBy f) :=
  decidable_of_iff _ keyedBy_iff.symm

namespace KeyedBy

theorem insert (h : t.KeyedBy f) (hk : f v = key) : (t.insert key v).KeyedBy f := by
  intro key' v' hv
  rw [get?_insert] at hv
  split at hv
  · next he =>
    cases hv
    rw [hk, he]
  · exact h key' v' hv

theorem filter (h : t.KeyedBy f) (p : String → α → Bool) : (t.filter p).KeyedBy f := by
  intro key' v' hv
  rw [get?_filter] at hv
  exact h key' v' (Option.eq_some_of_filter_eq_some hv)

theorem erase (h : t.KeyedBy f) (key : String) : (t.erase key).KeyedBy f := h.filter _

theorem mem_values_iff (h : t.KeyedBy f) : v ∈ t.values ↔ t.get? (f v) = some v := by
  rw [Table.mem_values_iff]
  constructor
  · rintro ⟨key, hv⟩
    rw [h key v hv]
    exact hv
  · intro hv
    exact ⟨f v, hv⟩

theorem get?_of_mem (h : t.KeyedBy f) (hv : v ∈ t.values) : t.get? (f v) = some v :=
  h.mem_values_iff.1 hv

theorem mem_of_get? (hv : t.get? key = some v) : v ∈ t.values :=
  Table.mem_values_iff.2 ⟨key, hv⟩

theorem eq_of_mem (h : t.KeyedBy f) {u : α} (hu : u ∈ t.values) (hv : v ∈ t.values)
    (he : f u = f v) : u = v := by
  have h1 := h.get?_of_mem hu
  rw [he, h.get?_of_mem hv] at h1
  exact (Option.some.inj h1).symm

theorem pairwise_values (h : t.KeyedBy f) : t.values.Pairwise fun u v => f u ≠ f v := by
  rw [values, List.pairwise_map]
  apply t.sorted.imp_of_mem
  intro a b ha hb hlt he
  rw [keyedBy_iff.1 h a ha, keyedBy_iff.1 h b hb] at he
  rw [he] at hlt
  exact String.lt_irrefl _ hlt

theorem keys_eq (h : t.KeyedBy f) : t.keys = t.values.map f := by
  rw [keys, values, List.map_map]
  exact List.map_congr_left fun e he => (keyedBy_iff.1 h e he).symm

theorem values_erase (h : t.KeyedBy f) (key : String) :
    (t.erase key).values = t.values.filter fun v => f v ≠ key := by
  have he : (t.erase key).entries = t.entries.filter fun e => f e.2 ≠ key := by
    apply List.filter_congr
    intro e he
    rw [keyedBy_iff.1 h e he]
  rw [values, he, values, List.filter_map]
  rfl

theorem find?_values (h : t.KeyedBy f) (key : String) :
    (t.values.find? fun v => f v = key) = t.get? key := by
  cases hg : t.get? key with
  | none =>
    rw [List.find?_eq_none]
    intro v hv he
    have := h.get?_of_mem hv
    rw [of_decide_eq_true he, hg] at this
    cases this
  | some v =>
    cases hf : t.values.find? fun v => f v = key with
    | none =>
      rw [List.find?_eq_none] at hf
      exact absurd (decide_eq_true (h key v hg)) (hf v (mem_of_get? hg))
    | some u =>
      have hu := List.mem_of_find?_eq_some hf
      have hk : f u = key := by simpa using List.find?_some hf
      rw [h.eq_of_mem hu (mem_of_get? hg) (hk.trans (h key v hg).symm)]

end KeyedBy

end PodRoutes.Table
