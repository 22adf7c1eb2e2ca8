import PodRoutes.Network.Overlap

/-!
# Disjoint pod networks

Networks without a common address are written differently, and a route to one of them does not
conflict with a node in the other. A node conflicts with no route of its own.
-/

namespace PodRoutes.Network

def Disjoint (m n : Network) : Prop := ∀ x, ¬(m.contains x = true ∧ n.contains x = true)

theorem contains_first (n : Network) : n.contains n.first = true := by
  have hp := n.size_pos
  rw [contains_iff]
  refine ⟨Nat.le_refl _, ?_⟩
  simp only [first, last]
  omega

theorem text_ne_empty (n : Network) : n.text ≠ "" := by
  intro h
  have hlen := congrArg String.toList h
  simp [text, write] at hlen

theorem disjoint_iff {m n : Network} :
    Disjoint m n ↔ m.last.value < n.first.value ∨ n.last.value < m.first.value := by
  have hm := contains_iff.1 m.contains_first
  have hn := contains_iff.1 n.contains_first
  constructor
  · intro h
    have h1 := h n.first
    have h2 := h m.first
    rw [contains_iff, contains_iff] at h1 h2
    omega
  · intro h x
    rw [contains_iff, contains_iff]
    omega

instance (m n : Network) : Decidable (Disjoint m n) := decidable_of_iff _ disjoint_iff.symm

namespace Disjoint

variable {m n : Network}

theorem text_ne (h : Disjoint m n) : m.text ≠ n.text := by
  intro he
  have hmn := text_injective he
  subst hmn
  exact h m.first ⟨m.contains_first, m.contains_first⟩

end Disjoint

/-! ### Routes to pod networks -/

variable {m n : Network} {r : Route}

theorem conflicts_of_text_eq (h : n.text = r.destination) (instanceId : Option String) :
    conflicts n r instanceId = decide (some r.instanceId ≠ instanceId) := by
  have hp : parse r.destination = .ok n := h ▸ parse_text n
  by_cases ho : some r.instanceId = instanceId <;>
  simp [conflicts, verdict, overlap, hp, h, ho, Verdict.isConflict]

theorem conflicts_of_text_ne (h : n.text ≠ r.destination) (instanceId : Option String) :
    conflicts n r instanceId = true ↔ ∃ inner, parse r.destination = .ok inner ∧
      n.contains inner.first = true ∧ n.contains inner.last = true := by
  cases hp : parse r.destination with
  | error fault => simp [conflicts, verdict, overlap, hp]
  | ok inner =>
    cases hf : n.contains inner.first <;> cases hl : n.contains inner.last <;>
    simp [conflicts, verdict, overlap, hp, h, hf, hl, Verdict.isConflict]

theorem Disjoint.conflicts_eq_false (h : Disjoint m n) (hr : r.destination = n.text)
    (instanceId : Option String) : conflicts m r instanceId = false := by
  rw [Bool.eq_false_iff]
  intro hc
  have hne : m.text ≠ r.destination := fun he => h.text_ne (he.trans hr)
  obtain ⟨inner, hp, hfirst, _⟩ := (conflicts_of_text_ne hne instanceId).1 hc
  rw [hr, parse_text] at hp
  obtain rfl := Except.ok.inj hp
  exact h n.first ⟨hfirst, n.contains_first⟩

end PodRoutes.Network
