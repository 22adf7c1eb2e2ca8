import PodRoutes.Node.PodNetwork
import PodRoutes.Proofs.Network.Families

/-!
# Choosing the pod network

The entries are looked at in turn. Those of the second family are passed over, and the first other
one decides (`ipv4PodNetwork_decided`): it is the network of the node in canonical form, or an error
that names it.
-/

namespace PodRoutes.Node

variable {before after texts : List String} {text : String}

/-! ### Single entries -/

theorem firstIpv4_cons_ipv6 (h : IsIpv6 text) : firstIpv4 (text :: texts) = firstIpv4 texts := by
  obtain ⟨x, l, h6⟩ := h
  simp [firstIpv4, Cidr.parse?_v6_iff.2 h6]

theorem firstIpv4_cons_ipv4 (h : IsIpv4 text) :
    firstIpv4 (text :: texts) = (Network.canonicalOf text).map some := by
  obtain ⟨x, l, h4⟩ := h
  obtain ⟨hl, hparse⟩ := Network.parse_of_spells h4
  simp [firstIpv4, Cidr.parse?_v4_iff.2 hparse]

theorem firstIpv4_cons_unreadable (h4 : ¬IsIpv4 text) (h6 : ¬IsIpv6 text) :
    firstIpv4 (text :: texts) = .error (.invalidCidr (.onNodeSpec text)) := by
  simp [firstIpv4, Cidr.parse?_eq_none_iff.2 ⟨h4, h6⟩]

theorem exists_canonicalOf (h : IsIpv4 text) :
    ∃ network, Network.canonicalOf text = .ok network := by
  obtain ⟨x, l, h4⟩ := h
  obtain ⟨hl, hparse⟩ := Network.parse_of_spells h4
  exact ⟨_, Network.canonicalOf_eq_ok_iff.2 ⟨_, hparse, rfl⟩⟩

theorem isIpv4_of_canonicalOf {network : Network} (h : Network.canonicalOf text = .ok network) :
    IsIpv4 text := by
  obtain ⟨-, x, h4, -⟩ := Network.canonicalOf_eq_ok_iff_spells.1 h
  exact ⟨x, network.length, h4⟩

/-! ### Rows of entries -/

theorem firstIpv4_append (h : ∀ s ∈ before, IsIpv6 s) :
    firstIpv4 (before ++ texts) = firstIpv4 texts := by
  induction before with
  | nil => rfl
  | cons s before ih =>
    rw [List.forall_mem_cons] at h
    rw [List.cons_append, firstIpv4_cons_ipv6 h.1, ih h.2]

theorem firstIpv4_of_ipv6 (h : ∀ s ∈ texts, IsIpv6 s) : firstIpv4 texts = .ok none := by
  have hall : firstIpv4 (texts ++ []) = firstIpv4 [] := firstIpv4_append h
  rwa [List.append_nil] at hall

/-- Either all entries are of the second family, or there is a first one that is not. -/
theorem ipv6_or_first_other (texts : List String) :
    (∀ s ∈ texts, IsIpv6 s) ∨ ∃ before text after, texts = before ++ text :: after ∧
      (∀ s ∈ before, IsIpv6 s) ∧ ¬IsIpv6 text := by
  induction texts with
  | nil => simp
  | cons s texts ih =>
    by_cases hs : IsIpv6 s
    · rcases ih with h | ⟨before, text, after, rfl, hbefore, htext⟩
      · exact .inl (List.forall_mem_cons.2 ⟨hs, h⟩)
      · exact .inr ⟨s :: before, text, after, rfl, List.forall_mem_cons.2 ⟨hs, hbefore⟩, htext⟩
    · exact .inr ⟨[], s, texts, rfl, by simp, hs⟩

/-- An entry that is not passed over hides what comes after it. -/
theorem firstIpv4_hides (before after : List String) (h : ¬IsIpv6 text) :
    firstIpv4 (before ++ text :: after) = firstIpv4 (before ++ [text]) := by
  induction before with
  | nil =>
    by_cases h4 : IsIpv4 text
    · rw [List.nil_append, List.nil_append, firstIpv4_cons_ipv4 h4, firstIpv4_cons_ipv4 h4]
    · rw [List.nil_append, List.nil_append, firstIpv4_cons_unreadable h4 h,
        firstIpv4_cons_unreadable h4 h]
  | cons s before ih =>
    rw [List.cons_append, List.cons_append, firstIpv4, firstIpv4, ih]

/-! ### The three answers -/

theorem firstIpv4_cases (texts : List String) :
    (∀ s ∈ texts, IsIpv6 s) ∧ firstIpv4 texts = .ok none ∨
      ∃ before text after, texts = before ++ text :: after ∧ (∀ s ∈ before, IsIpv6 s) ∧
        ((∃ network, Network.canonicalOf text = .ok network ∧
            firstIpv4 texts = .ok (some network)) ∨
          ¬IsIpv4 text ∧ ¬IsIpv6 text ∧
            firstIpv4 texts = .error (.invalidCidr (.onNodeSpec text))) := by
  rcases ipv6_or_first_other texts with hall | ⟨before, text, after, rfl, hbefore, h6⟩
  · exact .inl ⟨hall, firstIpv4_of_ipv6 hall⟩
  · refine .inr ⟨before, text, after, rfl, hbefore, ?_⟩
    rw [firstIpv4_append hbefore]
    by_cases h4 : IsIpv4 text
    · obtain ⟨network, hnetwork⟩ := exists_canonicalOf h4
      rw [firstIpv4_cons_ipv4 h4, hnetwork]
      exact .inl ⟨network, rfl, rfl⟩
    · exact .inr ⟨h4, h6, firstIpv4_cons_unreadable h4 h6⟩

theorem firstIpv4_eq_none_iff : firstIpv4 texts = .ok none ↔ ∀ s ∈ texts, IsIpv6 s := by
  refine ⟨fun h => ?_, firstIpv4_of_ipv6⟩
  rcases firstIpv4_cases texts with
    ⟨hall, -⟩ | ⟨_, _, _, -, -, ⟨network, -, hsome⟩ | ⟨-, -, herror⟩⟩
  · exact hall
  · rw [hsome] at h
    cases h
  · rw [herror] at h
    cases h

theorem firstIpv4_eq_some_iff {network : Network} : firstIpv4 texts = .ok (some network) ↔
    ∃ before text after, texts = before ++ text :: after ∧ (∀ s ∈ before, IsIpv6 s) ∧
      Network.canonicalOf text = .ok network := by
  constructor
  · intro h
    rcases firstIpv4_cases texts with
      ⟨-, hnone⟩ | ⟨before, text, after, htexts, hbefore, ⟨chosen, hchosen, hsome⟩ | ⟨-, -, herror⟩⟩
    · rw [hnone] at h
      cases h
    · rw [hsome] at h
      cases h
      exact ⟨before, text, after, htexts, hbefore, hchosen⟩
    · rw [herror] at h
      cases h
  · rintro ⟨before, text, after, rfl, hbefore, hnetwork⟩
    rw [firstIpv4_append hbefore, firstIpv4_cons_ipv4 (isIpv4_of_canonicalOf hnetwork), hnetwork]
    rfl

theorem firstIpv4_eq_error_iff {e : RouteError} : firstIpv4 texts = .error e ↔
    ∃ before text after, texts = before ++ text :: after ∧ (∀ s ∈ before, IsIpv6 s) ∧
      ¬IsIpv4 text ∧ ¬IsIpv6 text ∧ e = .invalidCidr (.onNodeSpec text) := by
  constructor
  · intro h
    rcases firstIpv4_cases texts with
      ⟨-, hnone⟩ | ⟨before, text, after, htexts, hbefore, ⟨network, -, hsome⟩ | ⟨h4, h6, herror⟩⟩
    · rw [hnone] at h
      cases h
    · rw [hsome] at h
      cases h
    · rw [herror] at h
      cases h
      exact ⟨before, text, after, htexts, hbefore, h4, h6, rfl⟩
  · rintro ⟨before, text, after, rfl, hbefore, h4, h6, rfl⟩
    rw [firstIpv4_append hbefore, firstIpv4_cons_unreadable h4 h6]

theorem podCidrs_eq (n : Node) : n.podCidrs =
    ((n.spec.bind NodeSpec.podCidrs).getD []).filter (· ≠ "") ++
      (n.spec.bind NodeSpec.podCidr).toList.filter (· ≠ "") := by
  rw [podCidrs]
  cases n.spec with
  | none => rfl
  | some spec => exact List.filter_append ..

/-- The entries are the texts of the list that are not empty and then the single text if it is not
empty. The first of them that is no IPv6 network decides: where it is no network at all the answer
is an error with its text, and otherwise it is the IPv4 network that the entry spells, with its host
bits cleared. Both readers of networks agree about what is IPv4. -/
theorem ipv4PodNetwork_decided (n : Node) :
    (n.podCidrs = ((n.spec.bind NodeSpec.podCidrs).getD []).filter (· ≠ "") ++
      (n.spec.bind NodeSpec.podCidr).toList.filter (· ≠ "")) ∧
    (∀ e, n.ipv4PodNetwork = .error e ↔
      ∃ before text after, n.podCidrs = before ++ text :: after ∧ (∀ s ∈ before, IsIpv6 s) ∧
        ¬IsIpv4 text ∧ ¬IsIpv6 text ∧ e = .invalidCidr (.onNodeSpec text) ∧
          e.message = "Invalid CIDR: " ++ ("invalid pod cidr on node spec: " ++ text)) ∧
    (n.ipv4PodNetwork = .ok none ↔ ∀ s ∈ n.podCidrs, IsIpv6 s) ∧
    (∀ network, n.ipv4PodNetwork = .ok (some network) ↔
      ∃ before text after x, n.podCidrs = before ++ text :: after ∧ (∀ s ∈ before, IsIpv6 s) ∧
        Network.Spells text x network.length ∧ network.contains x = true ∧
          network.HostBitsClear) ∧
    (∀ (m : Node) before text after after', n.podCidrs = before ++ text :: after →
      m.podCidrs = before ++ text :: after' → ¬IsIpv6 text →
        n.ipv4PodNetwork = m.ipv4PodNetwork) ∧
    ∀ s network, (∃ m, Cidr.parse? s = some (.v4 m) ∧ m.canonical = network) ↔
      Network.canonicalOf s = .ok network := by
  refine ⟨n.podCidrs_eq, fun e => ?_, firstIpv4_eq_none_iff, fun network => ?_, ?_, ?_⟩
  · rw [ipv4PodNetwork, firstIpv4_eq_error_iff]
    constructor
    · rintro ⟨before, text, after, htexts, hbefore, h4, h6, rfl⟩
      exact ⟨before, text, after, htexts, hbefore, h4, h6, rfl, rfl⟩
    · rintro ⟨before, text, after, htexts, hbefore, h4, h6, rfl, -⟩
      exact ⟨before, text, after, htexts, hbefore, h4, h6, rfl⟩
  · rw [ipv4PodNetwork, firstIpv4_eq_some_iff]
    constructor
    · rintro ⟨before, text, after, htexts, hbefore, hnetwork⟩
      obtain ⟨hclear, x, hx, hmember⟩ := Network.canonicalOf_eq_ok_iff_spells.1 hnetwork
      exact ⟨before, text, after, x, htexts, hbefore, hx, hmember, hclear⟩
    · rintro ⟨before, text, after, x, htexts, hbefore, hx, hmember, hclear⟩
      exact ⟨before, text, after, htexts, hbefore,
        Network.canonicalOf_eq_ok_iff_spells.2 ⟨hclear, x, hx, hmember⟩⟩
  · intro m before text after after' hn hm h6
    rw [ipv4PodNetwork, ipv4PodNetwork, hn, hm, firstIpv4_hides before after h6,
      firstIpv4_hides before after' h6]
  · intro s network
    simp only [Cidr.parse?_v4_iff, Network.canonicalOf_eq_ok_iff]

def mixedNode : Node where
  spec := some {
    podCidrs := some ["fd00::/64", "", "10.244.1.9/24", "10.244.300.0/24"]
    podCidr := some "10.1.0.0/16" }

def unreadableNode : Node where
  spec := some { podCidrs := some ["fd00::/64", "10.244.300.0/24"], podCidr := some "10.1.0.0/16" }

/-- The entry after an IPv6 network is chosen; where it cannot be read a later network does not
help. -/
theorem mixedNode_decided :
    mixedNode.ipv4PodNetwork = .ok (some ⟨.ofOctets 10 244 1 0, 24, by decide⟩) ∧
      unreadableNode.ipv4PodNetwork = .error (.invalidCidr (.onNodeSpec "10.244.300.0/24")) := by
  have h6 : Cidr.parse? "fd00::/64" = some (.v6 ⟨[0xfd00, 0, 0, 0, 0, 0, 0, 0], rfl⟩ 64) := by
    decide +kernel
  have hfirst : ∀ s ∈ ["fd00::/64"], IsIpv6 s := by
    simp only [List.mem_singleton, forall_eq]
    exact ⟨_, _, Cidr.parse?_v6_iff.1 h6⟩
  constructor
  · have h4 : Network.canonicalOf "10.244.1.9/24" =
        .ok ⟨.ofOctets 10 244 1 0, 24, by decide⟩ := by decide +kernel
    obtain ⟨hclear, x, hx, hmember⟩ := Network.canonicalOf_eq_ok_iff_spells.1 h4
    exact ((ipv4PodNetwork_decided mixedNode).2.2.2.1 _).2
      ⟨_, _, _, x, rfl, hfirst, hx, hmember, hclear⟩
  · have hnone : Cidr.parse? "10.244.300.0/24" = none := by decide +kernel
    obtain ⟨hno4, hno6⟩ := Cidr.parse?_eq_none_iff.1 hnone
    exact ((ipv4PodNetwork_decided unreadableNode).2.1 _).2
      ⟨_, _, _, rfl, hfirst, hno4, hno6, rfl, rfl⟩

end PodRoutes.Node
