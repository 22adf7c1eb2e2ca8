import PodRoutes.Proofs.Network.Inclusion
import PodRoutes.Proofs.Text.Decimal

/-!
# Spellings of a network

An address has one dotted form. After it may stand a slash with a number of leading bits, which may
have a plus sign and leading zeros, or with a netmask; nothing else is read (`parse_eq_ok_iff`). All
spellings of a network come down to one text, which names it among the networks: two spellings give
the same text exactly if they give the same addresses (`texts_name_networks`).
-/

namespace PodRoutes

/-! ### Dotted addresses -/

namespace Address

theorem octet?_eq_some_iff {cs : List Char} {n : Fin 256} :
    octet? cs = some n ↔ cs = Decimal.write n.val := by
  constructor
  · intro h
    obtain ⟨m, -, h⟩ := Option.bind_eq_some_iff.1 h
    split at h
    · split at h
      · next hwrite =>
        cases h
        exact hwrite.symm
      · cases h
    · cases h
  · rintro rfl
    exact octet?_write n.isLt

theorem write_ofOctets (a b c d : Fin 256) :
    (ofOctets a b c d).write = Fields.join '.' [Decimal.write a.val, Decimal.write b.val,
      Decimal.write c.val, Decimal.write d.val] := by
  have ha : (ofOctets a b c d).octet 24 = a.val := by simp only [octet, ofOctets]; omega
  have hb : (ofOctets a b c d).octet 16 = b.val := by simp only [octet, ofOctets]; omega
  have hc : (ofOctets a b c d).octet 8 = c.val := by simp only [octet, ofOctets]; omega
  have hd : (ofOctets a b c d).octet 0 = d.val := by simp only [octet, ofOctets]; omega
  rw [write, ha, hb, hc, hd]

/-- The reader takes the dotted form that is written and no other. -/
theorem parse?_eq_some_iff {cs : List Char} {x : Address} : parse? cs = some x ↔ cs = x.write := by
  constructor
  · intro h
    rw [parse?] at h
    split at h
    · next p q r s hfields =>
      simp only [Option.bind_eq_bind, Option.bind_eq_some_iff, Option.some.injEq] at h
      obtain ⟨a, ha, b, hb, c, hc, d, hd, rfl⟩ := h
      rw [octet?_eq_some_iff] at ha hb hc hd
      rw [write_ofOctets, ← ha, ← hb, ← hc, ← hd, ← hfields, Fields.join_fields]
    · cases h
  · rintro rfl
    exact parse?_write x

theorem mem_write {x : Address} {c : Char} (h : c ∈ x.write) : c.isDigit = true ∨ c = '.' := by
  simp only [write, Fields.join, List.mem_append, List.mem_cons] at h
  rcases h with h | rfl | h | rfl | h | rfl | h
  · exact .inl (Decimal.isDigit_of_mem_write h)
  · exact .inr rfl
  · exact .inl (Decimal.isDigit_of_mem_write h)
  · exact .inr rfl
  · exact .inl (Decimal.isDigit_of_mem_write h)
  · exact .inr rfl
  · exact .inl (Decimal.isDigit_of_mem_write h)

theorem dot_mem_write (x : Address) : '.' ∈ x.write := by
  simp [write, Fields.join]

end Address

namespace Network

/-! ### Numbers of leading bits -/

/-- A number of bits up to a limit, with any zeros in front of it and perhaps a plus sign. -/
def IsLength (limit : Nat) (cs : List Char) (l : Nat) : Prop :=
  l ≤ limit ∧ ∃ width, cs = Decimal.padded width l ∨ cs = '+' :: Decimal.padded width l

/-- The first bits of the address are ones and the others zeros. -/
def IsMask (mask : Address) (l : Nat) : Prop :=
  l ≤ 32 ∧ mask.bits = BitVec.allOnes 32 <<< (32 - l)

theorem lengthUpTo?_eq_some_iff {limit : Nat} {cs : List Char} {l : Nat} :
    lengthUpTo? limit cs = some l ↔ IsLength limit cs l := by
  rw [lengthUpTo?, Option.filter_eq_some_iff, Decimal.readPlus?_eq_some_iff, decide_eq_true_eq,
    IsLength, and_comm]

theorem IsLength.not_mem {limit : Nat} {cs : List Char} {l : Nat} {c : Char}
    (h : IsLength limit cs l) (hdigit : c.isDigit = false) (hplus : c ≠ '+') : c ∉ cs := by
  have hpadded : ∀ width, c ∉ Decimal.padded width l := by
    intro width hc
    rw [Decimal.isDigit_of_mem_padded hc] at hdigit
    cases hdigit
  obtain ⟨-, width, rfl | rfl⟩ := h
  · exact hpadded width
  · rw [List.mem_cons, not_or]
    exact ⟨hplus, hpadded width⟩

theorem toNat_mask (n : Network) : n.mask.toNat + n.size = 4294967296 := by
  have hnot := n.toNat_not_mask
  have hlt : n.mask.toNat < 4294967296 := n.mask.isLt
  have hpos := n.size_pos
  rw [BitVec.toNat_not] at hnot
  omega

theorem isMask_iff {mask : Address} {l : Nat} :
    IsMask mask l ↔ l < 33 ∧ mask.value + 1 <<< (32 - l) = 4294967296 := by
  rw [IsMask, Nat.lt_succ_iff]
  refine and_congr_right fun hl => ?_
  have hmask : (BitVec.allOnes 32 <<< (32 - l)).toNat + 1 <<< (32 - l) = 4294967296 :=
    toNat_mask ⟨mask, l, hl⟩
  rw [BitVec.toNat_eq, Address.toNat_bits]
  omega

/-- The size of a network says how many leading bits it has. -/
theorem eq_of_size_eq {k l : Nat} (hk : k ≤ 32) (hl : l ≤ 32)
    (h : 1 <<< (32 - k) = 1 <<< (32 - l)) : k = l := by
  rw [Nat.one_shiftLeft, Nat.one_shiftLeft, Nat.pow_right_inj (by decide)] at h
  omega

theorem IsMask.unique {mask : Address} {k l : Nat} (hk : IsMask mask k) (hl : IsMask mask l) :
    k = l := by
  have hkmask := (isMask_iff.1 hk).2
  have hlmask := (isMask_iff.1 hl).2
  exact eq_of_size_eq hk.1 hl.1 (by omega)

theorem lengthOfMask?_eq_some_iff {mask : Address} {l : Nat} :
    lengthOfMask? mask = some l ↔ IsMask mask l := by
  have hfound : ∀ k, lengthOfMask? mask = some k → IsMask mask k := by
    intro k h
    have hk : k < 33 := List.mem_range.1 (List.mem_of_find?_eq_some h)
    exact isMask_iff.2 ⟨hk, by simpa using List.find?_some h⟩
  refine ⟨hfound l, fun hl => ?_⟩
  cases h : lengthOfMask? mask with
  | none =>
    obtain ⟨hl, hmask⟩ := isMask_iff.1 hl
    have hnone := List.find?_eq_none.1 h l (List.mem_range.2 hl)
    exact absurd hmask (by simpa using hnone)
  | some k => rw [(hfound k h).unique hl]

theorem length?_eq_some_iff {cs : List Char} {l : Nat} :
    length? cs = some l ↔ IsLength 32 cs l ∨ ∃ mask : Address, cs = mask.write ∧ IsMask mask l := by
  rw [length?]
  cases h : Address.parse? cs with
  | some mask =>
    obtain rfl := Address.parse?_eq_some_iff.1 h
    have hnumeral : ¬IsLength 32 mask.write l := fun hl =>
      hl.not_mem (by decide) (by decide) mask.dot_mem_write
    rw [lengthOfMask?_eq_some_iff]
    constructor
    · exact fun hl => .inr ⟨mask, rfl, hl⟩
    · rintro (hl | ⟨other, hwrite, hl⟩)
      · exact absurd hl hnumeral
      · rw [hwrite, Address.parse?_write] at h
        cases h
        exact hl
  | none =>
    rw [lengthUpTo?_eq_some_iff]
    refine ⟨.inl, ?_⟩
    rintro (hl | ⟨mask, rfl, -⟩)
    · exact hl
    · rw [Address.parse?_write] at h
      cases h

theorem le_of_length? {cs : List Char} {l : Nat} (h : length? cs = some l) : l ≤ 32 := by
  rcases length?_eq_some_iff.1 h with hl | ⟨mask, -, hl⟩
  · exact hl.1
  · exact hl.1

/-! ### Networks -/

/-- The text spells an address with a number of leading bits. -/
inductive Spells : String → Address → Nat → Prop
  | alone (x : Address) : Spells x.text x 32
  | numeral (x : Address) {cs : List Char} {l : Nat} (length : IsLength 32 cs l) :
    Spells (String.ofList (x.write ++ '/' :: cs)) x l
  | netmask (x : Address) {mask : Address} {l : Nat} (length : IsMask mask l) :
    Spells (String.ofList (x.write ++ '/' :: mask.write)) x l

theorem slash_not_mem_of_length? {cs : List Char} {l : Nat} (h : length? cs = some l) :
    '/' ∉ cs := by
  rcases length?_eq_some_iff.1 h with hl | ⟨mask, rfl, -⟩
  · exact hl.not_mem (by decide) (by decide)
  · exact mask.slash_not_mem_write

theorem parse_text_address (x : Address) : parse x.text = .ok ⟨x, 32, Nat.le_refl 32⟩ := by
  simp [parse, Address.text, Fields.cut_eq_of_not_mem x.slash_not_mem_write, Address.parse?_write]

theorem parse_of_length? (x : Address) {cs : List Char} {l : Nat} (h : length? cs = some l) :
    parse (String.ofList (x.write ++ '/' :: cs)) = .ok ⟨x, l, le_of_length? h⟩ := by
  simp [parse, Fields.cut_append_cons _ x.slash_not_mem_write, Address.parse?_write,
    slash_not_mem_of_length? h, h, le_of_length? h]

theorem parse_of_spells {s : String} {x : Address} {l : Nat} (h : Spells s x l) :
    ∃ hl, parse s = .ok ⟨x, l, hl⟩ := by
  cases h with
  | alone => exact ⟨_, parse_text_address x⟩
  | numeral _ hlength => exact ⟨_, parse_of_length? x (length?_eq_some_iff.2 (.inl hlength))⟩
  | netmask _ hmask =>
    exact ⟨_, parse_of_length? x (length?_eq_some_iff.2 (.inr ⟨_, rfl, hmask⟩))⟩

theorem spells_of_length? (x : Address) {cs : List Char} {l : Nat} (h : length? cs = some l) :
    Spells (String.ofList (x.write ++ '/' :: cs)) x l := by
  rcases length?_eq_some_iff.1 h with hl | ⟨mask, rfl, hl⟩
  · exact .numeral x hl
  · exact .netmask x hl

/-- Spellings are read, and nothing else. -/
theorem parse_eq_ok_iff {s : String} {n : Network} :
    parse s = .ok n ↔ Spells s n.address n.length := by
  constructor
  · intro h
    cases hcut : Fields.cut '/' s.toList with
    | mk before after =>
    simp only [parse, hcut] at h
    split at h
    · cases h
    split at h
    · cases h
    · next x hx =>
      obtain rfl := Address.parse?_eq_some_iff.1 hx
      cases after with
      | none =>
        cases h
        have hs : s = x.text := by
          rw [Address.text, ← (Fields.cut_eq_none_iff.1 hcut).1, String.ofList_toList]
        rw [hs]
        exact .alone x
      | some cs =>
        have hs : s = String.ofList (x.write ++ '/' :: cs) := by
          rw [← (Fields.cut_eq_some_iff.1 hcut).1, String.ofList_toList]
        dsimp only at h
        split at h
        · cases h
        · next l hl =>
          split at h
          · cases h
            rw [hs]
            exact spells_of_length? x hl
          · cases h
  · intro h
    obtain ⟨hl, hparse⟩ := parse_of_spells h
    exact hparse

/-! ### Canonical networks -/

def HostBitsClear (n : Network) : Prop := ∀ i < 32 - n.length, n.address.value.testBit i = false

theorem hostBitsClear_iff {n : Network} : n.HostBitsClear ↔ n.address.value % n.size = 0 := by
  rw [size, Nat.one_shiftLeft]
  constructor
  · intro h
    apply Nat.eq_of_testBit_eq
    intro i
    rw [Nat.testBit_mod_two_pow, Nat.zero_testBit]
    by_cases hi : i < 32 - n.length
    · rw [h i hi, Bool.and_false]
    · rw [decide_eq_false hi, Bool.false_and]
  · intro h i hi
    have hbit := congrArg (fun k => k.testBit i) h
    simpa [Nat.testBit_mod_two_pow, hi] using hbit

theorem hostBitsClear_canonical (n : Network) : n.canonical.HostBitsClear := by
  rw [hostBitsClear_iff, size_canonical]
  exact Nat.mul_mod_left _ _

/-- A network with clear host bits is the canonical one of any of its members. -/
theorem canonical_eq_of_contains {n : Network} {x : Address} (h : n.HostBitsClear)
    (hx : n.contains x = true) : (⟨x, n.length, n.length_le⟩ : Network).canonical = n := by
  have hbase := Nat.div_mul_cancel (Nat.dvd_of_mod_eq_zero (hostBitsClear_iff.1 h))
  have hquot : x.value / n.size = n.address.value / n.size := by simpa [contains] using hx
  have haddress : (⟨x, n.length, n.length_le⟩ : Network).first = n.address := by
    apply Address.ext_value
    change x.value / n.size * n.size = n.address.value
    rw [hquot, hbase]
  rw [canonical, haddress]

theorem contains_address (n : Network) : n.contains n.address = true := by
  simp [contains]

theorem canonicalOf_eq_ok_iff {s : String} {n : Network} :
    canonicalOf s = .ok n ↔ ∃ m, parse s = .ok m ∧ m.canonical = n := by
  rw [canonicalOf, parseCanonical]
  cases parse s <;> simp [Except.map]

theorem hostBitsClear_of_canonicalOf {s : String} {n : Network} (h : canonicalOf s = .ok n) :
    n.HostBitsClear := by
  obtain ⟨m, -, rfl⟩ := canonicalOf_eq_ok_iff.1 h
  exact m.hostBitsClear_canonical

theorem canonicalOf_text {n : Network} (h : n.HostBitsClear) : canonicalOf n.text = .ok n :=
  canonicalOf_eq_ok_iff.2
    ⟨n, parse_text n, canonical_eq_of_contains h n.contains_address⟩

theorem canonicalOf_eq_ok_iff_spells {s : String} {n : Network} : canonicalOf s = .ok n ↔
    n.HostBitsClear ∧ ∃ x, Spells s x n.length ∧ n.contains x = true := by
  constructor
  · intro h
    refine ⟨hostBitsClear_of_canonicalOf h, ?_⟩
    obtain ⟨m, hparse, rfl⟩ := canonicalOf_eq_ok_iff.1 h
    exact ⟨m.address, parse_eq_ok_iff.1 hparse, by simp [contains_address]⟩
  · rintro ⟨hclear, x, hspells, hx⟩
    obtain ⟨hl, hparse⟩ := parse_of_spells hspells
    exact canonicalOf_eq_ok_iff.2 ⟨_, hparse, canonical_eq_of_contains hclear hx⟩

/-- Of canonical networks each has members of its own. -/
theorem eq_of_contains_eq {m n : Network} (hm : m.HostBitsClear) (hn : n.HostBitsClear)
    (h : ∀ x, m.contains x = n.contains x) : m = n := by
  have hmfirst := contains_iff.1 ((h m.first).symm.trans m.contains_first)
  have hmlast := contains_iff.1 ((h m.last).symm.trans m.contains_last)
  have hnfirst := contains_iff.1 ((h n.first).trans n.contains_first)
  have hnlast := contains_iff.1 ((h n.last).trans n.contains_last)
  have hsize : m.size = n.size := by
    have hmpos := m.size_pos
    have hnpos := n.size_pos
    simp only [first, last] at hmfirst hmlast hnfirst hnlast
    omega
  have hlength : m.length = n.length := eq_of_size_eq m.length_le n.length_le hsize
  have hmember : n.contains m.address = true := by rw [← h, contains_address]
  have hcanonical := canonical_eq_of_contains hn hmember
  rw [← canonical_eq_of_contains hm m.contains_address, ← hcanonical]
  simp only [hlength]

/-- Canonical texts are names of networks: a canonical network is read from its text, what is read
from a spelling is the canonical network around the address that is spelled, with its number of
leading bits, and of two spellings the texts are equal exactly if the members are. -/
theorem texts_name_networks :
    (∀ n : Network, n.HostBitsClear → canonicalOf n.text = .ok n) ∧
      (∀ s n, canonicalOf s = .ok n ↔
        n.HostBitsClear ∧ ∃ x, Spells s x n.length ∧ n.contains x = true) ∧
      (∀ s n, canonicalOf s = .ok n → canonicalOf n.text = .ok n) ∧
      ∀ s t m n, canonicalOf s = .ok m → canonicalOf t = .ok n →
        (m.text = n.text ↔ ∀ x, m.contains x = n.contains x) := by
  refine ⟨fun n => canonicalOf_text, fun s n => canonicalOf_eq_ok_iff_spells, ?_, ?_⟩
  · intro s n h
    exact canonicalOf_text (hostBitsClear_of_canonicalOf h)
  · intro s t m n hs ht
    constructor
    · intro htext x
      rw [text_injective htext]
    · intro hmembers
      rw [eq_of_contains_eq (hostBitsClear_of_canonicalOf hs) (hostBitsClear_of_canonicalOf ht)
        hmembers]

/-- Two spellings of one network have its text; the lower half of it has another one. -/
theorem spellings_share_text :
    ∃ network half, canonicalOf "10.244.1.7/+024" = .ok network ∧
      canonicalOf "10.244.1.9/255.255.255.0" = .ok network ∧
      canonicalOf "10.244.1.127/025" = .ok half ∧
      canonicalOf "10.244.1.0/24" = .ok network ∧
      ¬∀ x, network.contains x = half.contains x := by
  let network : Network := ⟨.ofOctets 10 244 1 0, 24, by decide⟩
  let half : Network := ⟨.ofOctets 10 244 1 0, 25, by decide⟩
  have hplus : canonicalOf "10.244.1.7/+024" = .ok network := by decide +kernel
  have hmask : canonicalOf "10.244.1.9/255.255.255.0" = .ok network := by decide +kernel
  have hhalf : canonicalOf "10.244.1.127/025" = .ok half := by decide +kernel
  have htext : network.text = "10.244.1.0/24" := by decide +kernel
  have hother : half.text = "10.244.1.0/25" := by decide +kernel
  obtain ⟨-, -, hagain, hsame⟩ := texts_name_networks
  refine ⟨network, half, hplus, hmask, hhalf, htext ▸ hagain _ _ hplus, fun hmembers => ?_⟩
  have hequal := (hsame _ _ _ _ hmask hhalf).2 hmembers
  rw [htext, hother] at hequal
  exact absurd hequal (by decide)

end Network

end PodRoutes
