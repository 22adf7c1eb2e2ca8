import PodRoutes.Node.UpdateFilter

/-!
# Updates that are held back

What an update that the filter holds back has left as it was. The filter compares a version only
with the one right before it, so what counts is that this adds up: a version covers another if no
reconcile is needed on the way from the one to the other (`UpdateFilter.Covers.heldBack`).
-/

namespace PodRoutes

namespace Node

/-! ### Identities -/

/-- Two versions of a node agree in uid, pod networks and provider id. -/
structure SameIdentity (m n : Node) : Prop where
  uid : m.metadata.uid = n.metadata.uid
  podCidr : (m.spec.getD {}).podCidr = (n.spec.getD {}).podCidr
  podCidrs : (m.spec.getD {}).podCidrs = (n.spec.getD {}).podCidrs
  providerId : (m.spec.getD {}).providerId = (n.spec.getD {}).providerId

theorem SameIdentity.refl (n : Node) : n.SameIdentity n := ⟨rfl, rfl, rfl, rfl⟩

theorem SameIdentity.trans {l m n : Node} (h : l.SameIdentity m) (h' : m.SameIdentity n) :
    l.SameIdentity n :=
  ⟨h.uid.trans h'.uid, h.podCidr.trans h'.podCidr, h.podCidrs.trans h'.podCidrs,
    h.providerId.trans h'.providerId⟩

/-! ### Annotations with an instance id -/

def idKeys : List String := [legacyIdKey, idKey]

theorem isAnnotated_iff {n : Node} :
    n.isAnnotated = true ↔ ∃ key ∈ idKeys, n.annotations.contains key = true := by
  simp [isAnnotated, idKeys]

/-- Each instance id annotation of a version was on the one before already. -/
def BringsNoIdKey (old new : Node) : Prop :=
  ∀ key ∈ idKeys, new.annotations.contains key = true → old.annotations.contains key = true

theorem BringsNoIdKey.refl (n : Node) : n.BringsNoIdKey n := fun _ _ h => h

theorem BringsNoIdKey.trans {l m n : Node} (h : l.BringsNoIdKey m) (h' : m.BringsNoIdKey n) :
    l.BringsNoIdKey n := by
  intro key hkey hn
  exact h key hkey (h' key hkey hn)

theorem BringsNoIdKey.isAnnotated {old new : Node} (h : old.BringsNoIdKey new)
    (hnew : new.isAnnotated = true) : old.isAnnotated = true := by
  obtain ⟨key, hkey, hn⟩ := isAnnotated_iff.1 hnew
  exact isAnnotated_iff.2 ⟨key, hkey, h key hkey hn⟩

theorem bringsNoIdKey_of_not_annotated {old new : Node} (h : new.isAnnotated = false) :
    old.BringsNoIdKey new := by
  intro key hkey hn
  rw [isAnnotated_iff.2 ⟨key, hkey, hn⟩] at h
  cases h

end Node

namespace UpdateFilter

variable {f : UpdateFilter} {old new : Node}

/-! ### What the filter compares -/

theorem identityChanged_eq_false_iff :
    identityChanged old new = false ↔ old.SameIdentity new := by
  constructor
  · intro h
    simp only [identityChanged, Bool.or_eq_false_iff, decide_eq_false_iff_not, ne_eq,
      Decidable.not_not] at h
    obtain ⟨⟨⟨huid, hcidr⟩, hprovider⟩, hcidrs⟩ := h
    exact ⟨huid, hcidr, hcidrs, hprovider⟩
  · intro h
    simp [identityChanged, h.uid, h.podCidr, h.podCidrs, h.providerId]

theorem idKeyAppeared_eq_false_iff :
    idKeyAppeared old new = false ↔ old.BringsNoIdKey new := by
  simp [idKeyAppeared, Node.BringsNoIdKey, Node.idKeys]

/-- Behind the gate of a missing annotation nothing is looked at. -/
theorem admits_eq_false_iff :
    f.admits old new = false ↔
      f.annotatedOnly = true ∧ new.isAnnotated = false ∨
        old.SameIdentity new ∧ (f.annotatedOnly = true → old.BringsNoIdKey new) := by
  rw [← identityChanged_eq_false_iff, ← idKeyAppeared_eq_false_iff, admits]
  cases f.annotatedOnly with
  | false => simp
  | true => cases new.isAnnotated <;> simp [and_comm]

theorem admits_self (f : UpdateFilter) (n : Node) : f.admits n n = false :=
  admits_eq_false_iff.2 (Or.inr ⟨.refl n, fun _ => .refl n⟩)

/-! ### Versions that need no reconcile of their own -/

/-- After a reconcile for the first version the second one needs none, unless it is behind the
gate of a missing annotation. -/
structure Covers (f : UpdateFilter) (v w : Node) : Prop where
  identity : f.annotatedOnly = false ∨ w.isAnnotated = true → v.SameIdentity w
  idKeys : f.annotatedOnly = true → v.BringsNoIdKey w

theorem Covers.refl (f : UpdateFilter) (v : Node) : f.Covers v v :=
  ⟨fun _ => .refl v, fun _ => .refl v⟩

/-- A version that is held back is covered by what covered the one before it. -/
theorem Covers.heldBack {v : Node} (h : f.Covers v old) (hheld : f.admits old new = false) :
    f.Covers v new := by
  rcases admits_eq_false_iff.1 hheld with ⟨hgate, hbare⟩ | ⟨hsame, hkeys⟩
  · refine ⟨?_, fun _ => Node.bringsNoIdKey_of_not_annotated hbare⟩
    rintro (hopen | hannotated)
    · rw [hgate] at hopen
      cases hopen
    · rw [hbare] at hannotated
      cases hannotated
  · refine ⟨fun hopen => ?_, fun hgate => (h.idKeys hgate).trans (hkeys hgate)⟩
    have hbefore : f.annotatedOnly = false ∨ old.isAnnotated = true := by
      cases hgate : f.annotatedOnly with
      | false => exact Or.inl rfl
      | true =>
        -- no key appeared, so the version before was not behind the gate either
        rcases hopen with hopen | hannotated
        · rw [hgate] at hopen
          cases hopen
        · exact Or.inr ((hkeys hgate).isAnnotated hannotated)
    exact (h.identity hbefore).trans hsame

end UpdateFilter

end PodRoutes
