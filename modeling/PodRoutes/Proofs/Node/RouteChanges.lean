import Mathlib.Tactic.ByContra
import PodRoutes.Node.PodNetwork
import PodRoutes.Proofs.Node.Updates

/-!
# Updates that change a node's route

The route of a node goes from its pod network to its instance. An update that changes one of them
gets through the filter, with one exception: ids that differ through the id annotations alone. Where
ids come from provider ids, annotations are not looked at; where they come from annotations, only an
annotation that was not there before counts, and not a rewritten or removed one
(`admits_of_route_change`).
-/

namespace PodRoutes

namespace Node

variable {m n : Node}

/-! ### What a route depends on -/

theorem SameIdentity.ipv4PodNetwork_eq (h : m.SameIdentity n) :
    m.ipv4PodNetwork = n.ipv4PodNetwork := by
  have hcidrs : ∀ k : Node, k.podCidrs =
      ((k.spec.getD {}).podCidrs.getD [] ++ (k.spec.getD {}).podCidr.toList).filter (· ≠ "") := by
    intro k
    cases hs : k.spec <;> simp [Node.podCidrs, hs]
  rw [ipv4PodNetwork, ipv4PodNetwork, hcidrs m, hcidrs n, h.podCidrs, h.podCidr]

theorem SameIdentity.providerId?_eq (h : m.SameIdentity n) : m.providerId? = n.providerId? := by
  have hprovider : ∀ k : Node, k.spec.bind NodeSpec.providerId = (k.spec.getD {}).providerId := by
    intro k
    cases hs : k.spec <;> simp
  rw [providerId?, providerId?, hprovider m, hprovider n, h.providerId]

/-- With the same identity it is the id annotations that tell two instances apart. -/
theorem SameIdentity.annotation_ne (h : m.SameIdentity n) (hid : m.instanceId? ≠ n.instanceId?) :
    ∃ key ∈ idKeys, m.annotations.get? key ≠ n.annotations.get? key := by
  by_contra hsame
  have hkeys : ∀ key ∈ idKeys, m.annotations.get? key = n.annotations.get? key := by
    intro key hkey
    by_contra hne
    exact hsame ⟨key, hkey, hne⟩
  have hlegacy := hkeys legacyIdKey (by simp [idKeys])
  have hcurrent := hkeys idKey (by simp [idKeys])
  apply hid
  rw [instanceId?, instanceId?, instanceSource?, instanceSource?, hlegacy, hcurrent,
    h.providerId?_eq]

end Node

namespace UpdateFilter

variable {f : UpdateFilter} {old new : Node}

/-! ### Ids that the filter does not compare -/

/-- Two versions differ in nothing that the filter compares, but in an id annotation. Behind the
gate that annotation was rewritten or removed, for none is on the new version only. -/
structure DifferInAnnotations (f : UpdateFilter) (old new : Node) : Prop where
  identity : old.SameIdentity new
  annotation : ∃ key ∈ Node.idKeys, old.annotations.get? key ≠ new.annotations.get? key
  nothingNew : f.annotatedOnly = true → old.BringsNoIdKey new

theorem DifferInAnnotations.admits_eq_false (h : f.DifferInAnnotations old new) :
    f.admits old new = false :=
  admits_eq_false_iff.2 (.inr ⟨h.identity, h.nothingNew⟩)

/-- With the gate open, every update that changes the pod network of a node is let through, and one
that changes its instance is, exactly unless the ids differ in annotations that are not compared. -/
theorem admits_of_route_change (f : UpdateFilter) (old new : Node)
    (hgate : f.annotatedOnly = true → new.isAnnotated = true) :
    (old.ipv4PodNetwork ≠ new.ipv4PodNetwork → f.admits old new = true) ∧
      (old.instanceId? ≠ new.instanceId? →
        (f.admits old new = true ↔ ¬f.DifferInAnnotations old new)) := by
  cases hadmits : f.admits old new with
  | true =>
    refine ⟨fun _ => rfl, fun _ => iff_of_true rfl ?_⟩
    intro hdiffer
    rw [hdiffer.admits_eq_false] at hadmits
    cases hadmits
  | false =>
    rcases admits_eq_false_iff.1 hadmits with ⟨hopen, hbare⟩ | ⟨hsame, hkeys⟩
    · rw [hgate hopen] at hbare
      cases hbare
    · refine ⟨fun hne => absurd hsame.ipv4PodNetwork_eq hne, fun hne => ?_⟩
      have hdiffer : f.DifferInAnnotations old new := ⟨hsame, hsame.annotation_ne hne, hkeys⟩
      exact iff_of_false Bool.false_ne_true (not_not_intro hdiffer)

/-! ### A node with ids in several places -/

/-- A node with a provider id and the given annotations. -/
def worker (annotations : List (String × String)) : Node where
  metadata := {
    name := some "n1", uid := some "u1", annotations := some (Table.ofList annotations) }
  spec := some { podCidr := some "10.244.1.0/24", providerId := some "i-p" }

/-- The older annotation comes in front of the current one and changes the id. -/
theorem overriding_id_is_admitted :
    ((⟨true⟩ : UpdateFilter).annotatedOnly = true →
        (worker [(Node.idKey, "i-a"), (Node.legacyIdKey, "i-b")]).isAnnotated = true) ∧
      (worker [(Node.idKey, "i-a")]).instanceId? = some "i-a" ∧
      (worker [(Node.idKey, "i-a"), (Node.legacyIdKey, "i-b")]).instanceId? = some "i-b" ∧
      (⟨true⟩ : UpdateFilter).admits (worker [(Node.idKey, "i-a")])
        (worker [(Node.idKey, "i-a"), (Node.legacyIdKey, "i-b")]) = true := by
  have hgate : (⟨true⟩ : UpdateFilter).annotatedOnly = true →
      (worker [(Node.idKey, "i-a"), (Node.legacyIdKey, "i-b")]).isAnnotated = true := by
    decide
  have hne : (worker [(Node.idKey, "i-a")]).instanceId? ≠
      (worker [(Node.idKey, "i-a"), (Node.legacyIdKey, "i-b")]).instanceId? := by
    decide
  refine ⟨hgate, by decide, by decide, ?_⟩
  apply ((admits_of_route_change _ _ _ hgate).2 hne).2
  -- the older annotation is new, which the filter does look at
  intro hdiffer
  have hkey := hdiffer.nothingNew rfl Node.legacyIdKey (by decide) (by decide)
  exact absurd hkey (by decide)

/-- Where ids come from provider ids, an annotation that overrides the provider id is not looked at;
where they come from annotations, a rewritten one is not. -/
theorem annotation_change_is_held_back :
    ((⟨false⟩ : UpdateFilter).admits (worker []) (worker [(Node.idKey, "i-a")]) = false ∧
        (worker []).instanceId? = some "i-p" ∧
        (worker [(Node.idKey, "i-a")]).instanceId? = some "i-a") ∧
      (worker [(Node.idKey, "i-b")]).isAnnotated = true ∧
      (⟨true⟩ : UpdateFilter).admits (worker [(Node.idKey, "i-a")]) (worker [(Node.idKey, "i-b")]) =
        false ∧
      (worker [(Node.idKey, "i-b")]).instanceId? = some "i-b" := by
  decide

end UpdateFilter

end PodRoutes
