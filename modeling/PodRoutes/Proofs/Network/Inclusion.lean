import Mathlib.Algebra.Group.Nat.Defs
import Mathlib.Logic.Basic
import PodRoutes.Proofs.Network.Disjoint

/-!
# Destinations inside a pod network

A destination is compared with a pod network by its lowest and its highest address, under masks of
32 bits. That compares all of its addresses: one network lies within another as soon as its two ends
do, and networks that share an address are nested. So a route conflicts with a node exactly if its
destination lies within the node's pod network and is not written like it, or is written like it and
the route is not the node's (`overlap_is_inclusion`).
-/

namespace PodRoutes

/-! ### Words -/

/-- An address as a word of 32 bits. -/
def Address.bits (x : Address) : BitVec 32 := BitVec.ofNat 32 x.value

@[simp] theorem Address.toNat_bits (x : Address) : x.bits.toNat = x.value :=
  Nat.mod_eq_of_lt x.value_lt

namespace Network

variable {m n : Network} {x : Address}

/-- The word with ones at the bits that the members of a network share. -/
def mask (n : Network) : BitVec 32 := BitVec.allOnes 32 <<< (32 - n.length)

theorem toNat_and_mask (w : BitVec 32) (n : Network) :
    (w &&& n.mask).toNat = w.toNat / n.size * n.size := by
  have hshifts : w &&& n.mask = w >>> (32 - n.length) <<< (32 - n.length) := by
    rw [mask]
    ext i hi
    rw [BitVec.getElem_and, BitVec.getElem_shiftLeft, BitVec.getElem_shiftLeft]
    by_cases hlow : i < 32 - n.length
    · simp [hlow]
    · have hback : 32 - n.length + (i - (32 - n.length)) = i := by omega
      rw [BitVec.getElem_allOnes, BitVec.getElem_ushiftRight, hback,
        BitVec.getLsbD_eq_getElem hi, decide_eq_false hlow]
      simp
  have hle : w.toNat / n.size * n.size < 2 ^ 32 :=
    Nat.lt_of_le_of_lt (Nat.div_mul_le_self _ _) w.isLt
  rw [hshifts, BitVec.toNat_shiftLeft, BitVec.toNat_ushiftRight, Nat.shiftRight_eq_div_pow,
    Nat.shiftLeft_eq, ← Nat.one_shiftLeft]
  exact Nat.mod_eq_of_lt hle

theorem bits_first (n : Network) : n.first.bits = n.address.bits &&& n.mask := by
  apply BitVec.eq_of_toNat_eq
  rw [toNat_and_mask, Address.toNat_bits, Address.toNat_bits]
  rfl

theorem toNat_not_mask (n : Network) : (~~~n.mask).toNat = n.size - 1 := by
  have hpos := n.size_pos
  have hmul := n.size_mul
  have hmask : n.mask.toNat = 4294967295 / n.size * n.size := by
    have h := toNat_and_mask (BitVec.allOnes 32) n
    rwa [BitVec.allOnes_and] at h
  have hquot : 4294967295 / n.size = 1 <<< n.length - 1 := by
    rw [Nat.div_eq_iff hpos, Nat.sub_mul, hmul]
    omega
  rw [hquot, Nat.sub_mul, hmul] at hmask
  have hle := n.base_add_size_le
  rw [BitVec.toNat_not, hmask]
  omega

theorem bits_last (n : Network) : n.last.bits = n.first.bits ||| ~~~n.mask := by
  have hpos := n.size_pos
  have hapart : n.first.bits &&& ~~~n.mask = 0#32 := by
    rw [bits_first, BitVec.and_assoc, BitVec.and_not_self]
    exact BitVec.and_zero
  apply BitVec.eq_of_toNat_eq
  rw [← BitVec.add_eq_or_of_and_eq_zero _ _ hapart, BitVec.toNat_add_of_and_eq_zero hapart,
    toNat_not_mask, Address.toNat_bits, Address.toNat_bits]
  simp only [first, last]
  omega

/-- An address belongs to a network if it has the same bits under the mask. -/
theorem contains_iff_bits :
    n.contains x = true ↔ x.bits &&& n.mask = n.address.bits &&& n.mask := by
  rw [BitVec.toNat_eq, toNat_and_mask, toNat_and_mask, Address.toNat_bits, Address.toNat_bits,
    Nat.mul_left_inj (Nat.ne_of_gt n.size_pos), contains, decide_eq_true_eq]

/-! ### Networks in networks -/

def Within (m n : Network) : Prop := ∀ x, m.contains x = true → n.contains x = true

theorem contains_last (n : Network) : n.contains n.last = true := by
  have hfirst := contains_iff.1 n.contains_first
  exact contains_iff.2 ⟨hfirst.2, Nat.le_refl _⟩

/-- A network lies in another if its two ends do. -/
theorem within_iff_ends :
    m.Within n ↔ n.contains m.first = true ∧ n.contains m.last = true := by
  constructor
  · intro h
    exact ⟨h _ m.contains_first, h _ m.contains_last⟩
  · rintro ⟨hfirst, hlast⟩ x hx
    rw [contains_iff] at hfirst hlast hx ⊢
    omega

theorem size_eq_mul (h : n.length ≤ m.length) :
    n.size = m.size * 2 ^ (m.length - n.length) := by
  have hm := m.length_le
  have hsum : 32 - n.length = 32 - m.length + (m.length - n.length) := by omega
  rw [size, size, Nat.one_shiftLeft, Nat.one_shiftLeft, hsum, Nat.pow_add]

/-- Of two networks with a common address the one with more shared bits lies in the other. -/
theorem within_of_common (h : n.length ≤ m.length) (hm : m.contains x = true)
    (hn : n.contains x = true) : m.Within n := by
  intro y hy
  simp only [contains, decide_eq_true_eq, size_eq_mul h, ← Nat.div_div_eq_div_mul] at hm hn hy ⊢
  rw [hy, ← hm, hn]

theorem disjoint_or_nested (m n : Network) : Disjoint m n ∨ m.Within n ∨ n.Within m := by
  by_cases hapart : Disjoint m n
  · exact .inl hapart
  · obtain ⟨x, hx⟩ := not_forall.1 hapart
    obtain ⟨hm, hn⟩ := not_not.1 hx
    rcases Nat.le_total n.length m.length with hle | hle
    · exact .inr (.inl (within_of_common hle hm hn))
    · exact .inr (.inr (within_of_common hle hn hm))

/-! ### The test of a destination -/

/-- Whether the two ends of a network lie in another, worked out on words: the lower end has what
the mask leaves of the address, the upper end has all bits behind the mask in addition. -/
def endsWithin (m n : Network) : Bool :=
  let low := m.address.bits &&& m.mask
  low &&& n.mask = n.address.bits &&& n.mask ∧
    (low ||| ~~~m.mask) &&& n.mask = n.address.bits &&& n.mask

theorem endsWithin_eq (m n : Network) :
    m.endsWithin n = (n.contains m.first && n.contains m.last) := by
  rw [Bool.eq_iff_iff, Bool.and_eq_true, contains_iff_bits, contains_iff_bits, bits_last,
    bits_first, endsWithin, decide_eq_true_eq]

theorem endsWithin_iff : m.endsWithin n = true ↔ m.Within n := by
  rw [endsWithin_eq, Bool.and_eq_true, within_iff_ends]

variable {destination : String}

theorem overlap_of_unreadable {fault : NetworkFault} (h : parse destination = .error fault)
    (n : Network) : overlap (some n) destination =
      .error (.invalidCidr (.routeUnreadable destination fault)) := by
  simp [overlap, h]

theorem overlap_text (n : Network) : overlap (some n) n.text = .ok ⟨true, false⟩ := by
  simp [overlap, parse_text]

theorem overlap_of_text_ne (h : parse destination = .ok m) (hne : destination ≠ n.text) :
    overlap (some n) destination = .ok ⟨false, m.endsWithin n⟩ := by
  simp [overlap, h, hne.symm, endsWithin_eq]

theorem conflicts_iff_verdict {r : Route} {instanceId : Option String} :
    conflicts n r instanceId = true ↔
      ∃ v, verdict (some n) r instanceId = .ok v ∧ v.isConflict = true := by
  rw [conflicts]
  cases verdict (some n) r instanceId <;> simp

/-- How a destination compares with a pod network, and when a route to it is in conflict. -/
structure Compared (n : Network) (destination : String) : Prop where
  same : destination = n.text → overlap (some n) destination = .ok ⟨true, false⟩
  ends : ∀ m, parse destination = .ok m → destination ≠ n.text →
    overlap (some n) destination = .ok ⟨false, m.endsWithin n⟩
  inside : ∀ m, parse destination = .ok m → destination ≠ n.text → m.Within n →
    overlap (some n) destination = .ok ⟨false, true⟩
  /-- A destination that is not inside is apart from the pod network or goes beyond it. -/
  outside : ∀ m, parse destination = .ok m → destination ≠ n.text → ¬m.Within n →
    overlap (some n) destination = .ok ⟨false, false⟩ ∧
      (Disjoint m n ∨ n.Within m ∧ ∃ x, m.contains x = true ∧ n.contains x = false)
  unreadable : ∀ fault, parse destination = .error fault →
    overlap (some n) destination = .error (.invalidCidr (.routeUnreadable destination fault))
  conflict : ∀ (r : Route) (instanceId : Option String), r.destination = destination →
    ((∃ v, verdict (some n) r instanceId = .ok v ∧ v.isConflict = true) ↔
      (destination ≠ n.text ∧ ∃ m, parse destination = .ok m ∧ m.Within n) ∨
        (destination = n.text ∧ instanceId ≠ some r.instanceId))
  noConflict : ∀ (r : Route) (instanceId : Option String) (fault : NetworkFault),
    r.destination = destination → parse destination = .error fault →
      verdict (some n) r instanceId =
          .error (.invalidCidr (.routeUnreadable destination fault)) ∧
        conflicts n r instanceId = false

/-- Comparing a destination by its two ends compares all of its addresses, for every pod network and
every text. -/
theorem overlap_is_inclusion (n : Network) (destination : String) : Compared n destination := by
  constructor
  case same =>
    rintro rfl
    exact overlap_text n
  case ends => exact fun m hparse hne => overlap_of_text_ne hparse hne
  case inside =>
    intro m hparse hne hwithin
    rw [overlap_of_text_ne hparse hne, endsWithin_iff.2 hwithin]
  case outside =>
    intro m hparse hne hwithin
    have hends : m.endsWithin n = false := by
      rwa [Bool.eq_false_iff, ne_eq, endsWithin_iff]
    refine ⟨by rw [overlap_of_text_ne hparse hne, hends], ?_⟩
    rcases disjoint_or_nested m n with hapart | hin | hout
    · exact .inl hapart
    · exact absurd hin hwithin
    · obtain ⟨x, hx⟩ := not_forall.1 hwithin
      obtain ⟨hm, hn⟩ := Classical.not_imp.1 hx
      exact .inr ⟨hout, x, hm, Bool.eq_false_iff.2 hn⟩
  case unreadable => exact fun fault hparse => overlap_of_unreadable hparse n
  case conflict =>
    rintro r instanceId rfl
    rw [← conflicts_iff_verdict]
    by_cases hsame : r.destination = n.text
    · rw [conflicts_of_text_eq hsame.symm, decide_eq_true_eq, ne_comm]
      simp [hsame]
    · rw [conflicts_of_text_ne (Ne.symm hsame)]
      simp [hsame, within_iff_ends]
  case noConflict =>
    rintro r instanceId fault rfl hparse
    have hverdict : verdict (some n) r instanceId =
        .error (.invalidCidr (.routeUnreadable r.destination fault)) := by
      rw [verdict, overlap_of_unreadable hparse]
    refine ⟨hverdict, ?_⟩
    rw [conflicts, hverdict]

-- the pod network itself, written with a netmask, lies inside and is not the same
example : (canonicalOf "10.244.1.0/24").bind
    (fun n => overlap (some n) "10.244.1.9/255.255.255.0") = .ok ⟨false, true⟩ := by
  cbv

end Network

end PodRoutes
