import PodRoutes.Network.Ipv6
import PodRoutes.Proofs.Network.Spelling

/-!
# Texts of the two families

An IPv6 address is spelled by its eight groups between colons, with a double colon for a row of
zero groups, and its last two groups may be a dotted IPv4 address. The reader takes these spellings
(`Ipv6.parse?_eq_some_iff`). Each of them has a colon, and no IPv4 network has one; so no text
belongs to both families, and it does not matter which of them is tried first
(`Cidr.parse?_v6_iff`).
-/

namespace PodRoutes

theorem Hexadecimal.isSome_digit?_of_mem {cs : List Char} {n : Nat} {c : Char}
    (h : number? cs = some n) (hc : c ∈ cs) : (digit? c).isSome = true := by
  rw [number?] at h
  generalize (0 : Nat) = start at h
  induction cs generalizing start with
  | nil => cases hc
  | cons d ds ih =>
    rw [List.foldlM_cons, Option.bind_eq_bind, Option.bind_eq_some_iff] at h
    obtain ⟨next, hnext, hrest⟩ := h
    rcases List.mem_cons.1 hc with rfl | hc
    · obtain ⟨digit, hdigit, -⟩ := Option.map_eq_some_iff.1 hnext
      rw [hdigit]
      rfl
    · exact ih hc next hrest

theorem Hexadecimal.isSome_digit?_of_isDigit {c : Char} (h : c.isDigit = true) :
    (digit? c).isSome = true := by
  simp [digit?, h]

namespace Ipv6

/-! ### Groups -/

structure IsGroup (part : List Char) (g : Fin 65536) : Prop where
  nonempty : part ≠ []
  short : part.length ≤ 4
  number : Hexadecimal.number? part = some g.val

theorem group?_eq_some_iff {part : List Char} {g : Fin 65536} :
    group? part = some g ↔ IsGroup part g := by
  constructor
  · intro h
    rw [group?] at h
    split at h
    · cases h
    · next hlength =>
      simp only [Bool.or_eq_true, List.isEmpty_iff, decide_eq_true_eq, not_or, Nat.not_lt]
        at hlength
      obtain ⟨n, hn, h⟩ := Option.bind_eq_some_iff.1 h
      split at h
      · cases h
        exact ⟨hlength.1, hlength.2, hn⟩
      · cases h
  · rintro ⟨hne, hlength, hnumber⟩
    have hfits : ¬4 < part.length := Nat.not_lt.2 hlength
    simp [group?, hne, hfits, hnumber]

/-- The parts between the colons of a text and the groups that they stand for; where it is allowed
the last part may be a dotted IPv4 address. -/
inductive Parts : Bool → List (List Char) → List (Fin 65536) → Prop
  | nil (dotted : Bool) : Parts dotted [] []
  | group {dotted : Bool} {part : List Char} {g : Fin 65536} {parts : List (List Char)}
    {gs : List (Fin 65536)} (first : IsGroup part g) (rest : Parts dotted parts gs) :
    Parts dotted (part :: parts) (g :: gs)
  | address (x : Address) : Parts true [x.write] (ofAddress x)

theorem Parts.single_iff {dotted : Bool} {part : List Char} {gs : List (Fin 65536)} :
    Parts dotted [part] gs ↔ (∃ g, IsGroup part g ∧ gs = [g]) ∨
      dotted = true ∧ ∃ x : Address, part = x.write ∧ gs = ofAddress x := by
  constructor
  · intro h
    cases h with
    | group hfirst hrest =>
      cases hrest
      exact .inl ⟨_, hfirst, rfl⟩
    | address x => exact .inr ⟨rfl, x, rfl, rfl⟩
  · rintro (⟨g, hg, rfl⟩ | ⟨rfl, x, rfl, rfl⟩)
    · exact .group hg (.nil dotted)
    · exact .address x

theorem Parts.cons_cons_iff {dotted : Bool} {part next : List Char} {rest : List (List Char)}
    {gs : List (Fin 65536)} : Parts dotted (part :: next :: rest) gs ↔
      ∃ g gs', IsGroup part g ∧ Parts dotted (next :: rest) gs' ∧ gs = g :: gs' := by
  constructor
  · intro h
    cases h with
    | group hfirst hrest => exact ⟨_, _, hfirst, hrest, rfl⟩
  · rintro ⟨g, gs', hfirst, hrest, rfl⟩
    exact .group hfirst hrest

theorem IsGroup.dot_not_mem {part : List Char} {g : Fin 65536} (h : IsGroup part g) :
    '.' ∉ part := fun hdot =>
  absurd (Hexadecimal.isSome_digit?_of_mem h.number hdot) (by decide)

theorem IsGroup.parse?_address {part : List Char} {g : Fin 65536} (h : IsGroup part g) :
    Address.parse? part = none := by
  cases hparse : Address.parse? part with
  | none => rfl
  | some x =>
    rw [Address.parse?_eq_some_iff.1 hparse] at h
    exact absurd x.dot_mem_write h.dot_not_mem

theorem groups?_single {dotted : Bool} {part : List Char} {gs : List (Fin 65536)} :
    groups? dotted [part] = some gs ↔ Parts dotted [part] gs := by
  rw [Parts.single_iff]
  cases hparse : Address.parse? part with
  | none =>
    have hread : groups? dotted [part] = (group? part).map ([·]) := by
      cases dotted <;> simp [groups?, hparse]
    have haddress : ¬(dotted = true ∧ ∃ x : Address, part = x.write ∧ gs = ofAddress x) := by
      rintro ⟨-, x, rfl, -⟩
      rw [Address.parse?_write] at hparse
      cases hparse
    rw [hread, or_iff_left haddress]
    simp only [Option.map_eq_some_iff, group?_eq_some_iff, eq_comm (a := gs)]
  | some x =>
    have hgroup : ∀ g, ¬IsGroup part g := by
      intro g hg
      rw [hg.parse?_address] at hparse
      cases hparse
    have hnone : group? part = none := by
      cases hg : group? part with
      | none => rfl
      | some g => exact absurd (group?_eq_some_iff.1 hg) (hgroup g)
    cases dotted with
    | false => simp [groups?, hnone, hgroup]
    | true =>
      have hread : groups? true [part] = some (ofAddress x) := by simp [groups?, hparse]
      rw [hread]
      constructor
      · intro h
        cases h
        exact .inr ⟨rfl, x, Address.parse?_eq_some_iff.1 hparse, rfl⟩
      · rintro (⟨g, hg, -⟩ | ⟨-, y, hy, rfl⟩)
        · exact absurd hg (hgroup g)
        · rw [hy, Address.parse?_write] at hparse
          cases hparse
          rfl

theorem groups?_eq_some_iff {dotted : Bool} {parts : List (List Char)} {gs : List (Fin 65536)} :
    groups? dotted parts = some gs ↔ Parts dotted parts gs := by
  induction parts generalizing gs with
  | nil =>
    constructor
    · intro h
      cases h
      exact .nil dotted
    · intro h
      cases h
      rfl
  | cons part rest ih =>
    cases rest with
    | nil => exact groups?_single
    | cons next rest =>
      have hread : groups? dotted (part :: next :: rest) =
          (group? part).bind fun g => (groups? dotted (next :: rest)).map (g :: ·) := by
        rw [groups?]
        · cases groups? dotted (next :: rest) <;> rfl
        · nofun
      simp only [hread, Parts.cons_cons_iff, Option.bind_eq_some_iff, Option.map_eq_some_iff,
        group?_eq_some_iff, ih, ← exists_and_left, eq_comm (a := gs)]

/-! ### Characters -/

/-- A part is not empty and has hexadecimal digits and dots only. -/
def IsPart (part : List Char) : Prop :=
  part ≠ [] ∧ ∀ c ∈ part, (Hexadecimal.digit? c).isSome = true ∨ c = '.'

theorem IsPart.colon_not_mem {part : List Char} (h : IsPart part) : ':' ∉ part := by
  intro hcolon
  rcases h.2 ':' hcolon with hc | hc <;> exact absurd hc (by decide)

theorem isPart_write (x : Address) : IsPart x.write := by
  refine ⟨List.ne_nil_of_mem x.dot_mem_write, fun c hc => ?_⟩
  exact (Address.mem_write hc).imp_left Hexadecimal.isSome_digit?_of_isDigit

theorem Parts.isPart {dotted : Bool} {parts : List (List Char)} {gs : List (Fin 65536)}
    (h : Parts dotted parts gs) : ∀ part ∈ parts, IsPart part := by
  induction h with
  | nil => simp
  | group first rest ih =>
    refine List.forall_mem_cons.2 ⟨⟨first.nonempty, fun c hc => ?_⟩, ih⟩
    exact .inl (Hexadecimal.isSome_digit?_of_mem first.number hc)
  | address x => simpa using isPart_write x

theorem Parts.fields_join {dotted : Bool} {parts : List (List Char)} {gs : List (Fin 65536)}
    (h : Parts dotted parts gs) (hne : parts ≠ []) :
    Fields.fields ':' (Fields.join ':' parts) = parts :=
  Fields.fields_join hne fun part hpart => (h.isPart part hpart).colon_not_mem

theorem mem_join {parts : List (List Char)} {c : Char} (h : ∀ part ∈ parts, IsPart part)
    (hc : c ∈ Fields.join ':' parts) :
    (Hexadecimal.digit? c).isSome = true ∨ c = '.' ∨ c = ':' := by
  induction parts with
  | nil => cases hc
  | cons part rest ih =>
    obtain ⟨hpart, hrest⟩ := List.forall_mem_cons.1 h
    have hfirst : c ∈ part → (Hexadecimal.digit? c).isSome = true ∨ c = '.' ∨ c = ':' := by
      intro hc
      rcases hpart.2 c hc with hd | hd
      · exact .inl hd
      · exact .inr (.inl hd)
    cases rest with
    | nil => exact hfirst hc
    | cons next rest =>
      simp only [Fields.join, List.mem_append, List.mem_cons] at hc
      rcases hc with hc | rfl | hc
      · exact hfirst hc
      · exact .inr (.inr rfl)
      · exact ih hrest hc

/-! ### The double colon -/

theorem cutDouble_append {part : List Char} (h : ':' ∉ part) (cs : List Char) :
    cutDouble (part ++ cs) = (part ++ (cutDouble cs).1, (cutDouble cs).2) := by
  induction part with
  | nil => rfl
  | cons c part ih =>
    simp only [List.mem_cons, not_or] at h
    have hc : c ≠ ':' := Ne.symm h.1
    rw [List.cons_append, cutDouble, ih h.2]
    · rfl
    · intro _ heq _
      exact hc heq

theorem cutDouble_colon {cs : List Char} (h : cs.head? ≠ some ':') :
    cutDouble (':' :: cs) = (':' :: (cutDouble cs).1, (cutDouble cs).2) := by
  rw [cutDouble]
  rintro rest - rfl
  exact h rfl

theorem cutDouble_join {parts : List (List Char)} (h : ∀ part ∈ parts, IsPart part)
    (cs : List Char) : cutDouble (Fields.join ':' parts ++ cs) =
      (Fields.join ':' parts ++ (cutDouble cs).1, (cutDouble cs).2) := by
  induction parts with
  | nil => rfl
  | cons part rest ih =>
    obtain ⟨hpart, hrest⟩ := List.forall_mem_cons.1 h
    cases rest with
    | nil => exact cutDouble_append hpart.colon_not_mem cs
    | cons next rest =>
      have hhead : (Fields.join ':' (next :: rest) ++ cs).head? ≠ some ':' := by
        have hnext := hrest next (List.mem_cons_self ..)
        obtain ⟨hne, hchars⟩ := hnext
        cases next with
        | nil => exact absurd rfl hne
        | cons c next =>
          have hc : c ≠ ':' := by
            rintro rfl
            rcases hchars ':' (List.mem_cons_self ..) with hd | hd <;> exact absurd hd (by decide)
          cases rest <;> simpa [Fields.join] using hc
      simp only [Fields.join, List.append_assoc, List.cons_append,
        cutDouble_append hpart.colon_not_mem, cutDouble_colon hhead, ih hrest]

theorem eq_of_cutDouble {cs before after : List Char} (h : cutDouble cs = (before, some after)) :
    cs = before ++ ':' :: ':' :: after := by
  induction cs generalizing before with
  | nil => cases h
  | cons c cs ih =>
    rw [cutDouble.eq_def] at h
    split at h
    · cases h
    · next hcs =>
      cases h
      exact hcs
    · next d ds _ hcs =>
      cases hcs
      cases hcut : cutDouble cs with
      | mk front rest =>
        rw [hcut] at h
        cases h
        rw [ih hcut]
        rfl

/-! ### Addresses -/

/-- The text spells an IPv6 address. -/
inductive Spells : List Char → Ipv6 → Prop
  | full {parts : List (List Char)} {x : Ipv6} (groups : Parts true parts x.groups) :
    Spells (Fields.join ':' parts) x
  | short {high low : List (List Char)} {hs ls : List (Fin 65536)} {x : Ipv6}
    (left : Parts false high hs) (right : Parts true low ls) (room : hs.length + ls.length < 8)
    (groups : x.groups = hs ++ List.replicate (8 - hs.length - ls.length) 0 ++ ls) :
    Spells (Fields.join ':' high ++ ':' :: ':' :: Fields.join ':' low) x

theorem ofGroups?_eq_some_iff {gs : List (Fin 65536)} {x : Ipv6} :
    ofGroups? gs = some x ↔ x.groups = gs := by
  constructor
  · intro h
    rw [ofGroups?] at h
    split at h
    · cases h
      rfl
    · cases h
  · rintro rfl
    simp [ofGroups?, x.length_groups]

theorem side?_eq_some_iff {dotted : Bool} {cs : List Char} {gs : List (Fin 65536)} :
    side? dotted cs = some gs ↔ ∃ parts, Parts dotted parts gs ∧ cs = Fields.join ':' parts := by
  constructor
  · intro h
    rw [side?] at h
    split at h
    · next hempty =>
      cases h
      exact ⟨[], .nil dotted, by simpa [Fields.join] using hempty⟩
    · exact ⟨_, groups?_eq_some_iff.1 h, (Fields.join_fields ':' cs).symm⟩
  · rintro ⟨parts, hparts, rfl⟩
    by_cases hne : parts = []
    · subst hne
      cases hparts
      rfl
    · have hjoin : Fields.join ':' parts ≠ [] := by
        intro hempty
        have hfields := hparts.fields_join hne
        rw [hempty] at hfields
        have hpart := hparts.isPart [] (by simp [← hfields, Fields.fields])
        exact hpart.1 rfl
      rw [side?, if_neg (by simpa using hjoin), hparts.fields_join hne]
      exact groups?_eq_some_iff.2 hparts

/-- Spellings are read, and nothing else. -/
theorem parse?_eq_some_iff {cs : List Char} {x : Ipv6} : parse? cs = some x ↔ Spells cs x := by
  constructor
  · intro h
    rw [parse?] at h
    split at h
    · obtain ⟨gs, hgs, hx⟩ := Option.bind_eq_some_iff.1 h
      obtain rfl := ofGroups?_eq_some_iff.1 hx
      rw [← Fields.join_fields ':' cs]
      exact .full (groups?_eq_some_iff.1 hgs)
    · next before after hcut =>
      obtain ⟨hs, hleft, hrest⟩ := Option.bind_eq_some_iff.1 h
      obtain ⟨ls, hright, hall⟩ := Option.bind_eq_some_iff.1 hrest
      obtain ⟨high, hhigh, rfl⟩ := side?_eq_some_iff.1 hleft
      obtain ⟨low, hlow, rfl⟩ := side?_eq_some_iff.1 hright
      split at hall
      · next hroom =>
        rw [eq_of_cutDouble hcut]
        exact .short hhigh hlow hroom (ofGroups?_eq_some_iff.1 hall)
      · cases hall
  · intro h
    cases h with
    | full hparts =>
      rename_i parts
      have hne : parts ≠ [] := by
        rintro rfl
        have hlength := x.length_groups
        cases hgs : x.groups with
        | nil => simp [hgs] at hlength
        | cons g gs =>
          rw [hgs] at hparts
          cases hparts
      have hcut : cutDouble (Fields.join ':' parts) = (Fields.join ':' parts, none) := by
        have hjoin := cutDouble_join hparts.isPart []
        simpa [cutDouble] using hjoin
      rw [parse?, hcut]
      simp [hparts.fields_join hne, groups?_eq_some_iff.2 hparts, ofGroups?_eq_some_iff]
    | short hhigh hlow hroom hgroups =>
      rename_i high low hs ls
      have hcut : cutDouble (Fields.join ':' high ++ ':' :: ':' :: Fields.join ':' low) =
          (Fields.join ':' high, some (Fields.join ':' low)) := by
        rw [cutDouble_join hhigh.isPart]
        simp [cutDouble]
      rw [parse?, hcut]
      simp only [side?_eq_some_iff.2 ⟨_, hhigh, rfl⟩, side?_eq_some_iff.2 ⟨_, hlow, rfl⟩,
        Option.bind_eq_bind, Option.bind_some, if_pos hroom]
      exact ofGroups?_eq_some_iff.2 hgroups

theorem Spells.mem {cs : List Char} {x : Ipv6} {c : Char} (h : Spells cs x) (hc : c ∈ cs) :
    (Hexadecimal.digit? c).isSome = true ∨ c = '.' ∨ c = ':' := by
  cases h with
  | full hparts => exact mem_join hparts.isPart hc
  | short hhigh hlow =>
    simp only [List.mem_append, List.mem_cons] at hc
    rcases hc with hc | rfl | rfl | hc
    · exact mem_join hhigh.isPart hc
    · exact .inr (.inr rfl)
    · exact .inr (.inr rfl)
    · exact mem_join hlow.isPart hc

theorem Spells.slash_not_mem {cs : List Char} {x : Ipv6} (h : Spells cs x) : '/' ∉ cs := by
  intro hslash
  rcases h.mem hslash with hc | hc | hc <;> exact absurd hc (by decide)

/-- One part stands for two groups at most, and there are eight of them. -/
theorem Spells.colon_mem {cs : List Char} {x : Ipv6} (h : Spells cs x) : ':' ∈ cs := by
  have hlength := x.length_groups
  cases h with
  | full hparts =>
    rename_i parts
    cases parts with
    | nil =>
      generalize x.groups = gs at hparts hlength
      cases hparts
      cases hlength
    | cons part rest =>
      cases rest with
      | nil =>
        rcases Parts.single_iff.1 hparts with ⟨g, -, hgs⟩ | ⟨-, y, -, hgs⟩
        · rw [hgs] at hlength
          cases hlength
        · rw [hgs] at hlength
          cases hlength
      | cons next rest => simp [Fields.join]
  | short => simp

/-! ### Networks -/

/-- The text spells an IPv6 address with a number of leading bits. -/
inductive SpellsNetwork : String → Ipv6 → Nat → Prop
  | alone {cs : List Char} {x : Ipv6} (address : Spells cs x) :
    SpellsNetwork (String.ofList cs) x 128
  | numeral {cs ds : List Char} {x : Ipv6} {l : Nat} (address : Spells cs x)
    (length : Network.IsLength 128 ds l) : SpellsNetwork (String.ofList (cs ++ '/' :: ds)) x l

theorem network?_eq_some_iff {s : String} {c : Cidr} :
    network? s = some c ↔ ∃ x l, c = .v6 x l ∧ SpellsNetwork s x l := by
  constructor
  · intro h
    cases hcut : Fields.cut '/' s.toList with
    | mk before after =>
    simp only [network?, hcut] at h
    split at h
    · cases h
    obtain ⟨x, hx, h⟩ := Option.bind_eq_some_iff.1 h
    have hspells := parse?_eq_some_iff.1 hx
    cases after with
    | none =>
      cases h
      have hs : s = String.ofList before := by
        rw [← (Fields.cut_eq_none_iff.1 hcut).1, String.ofList_toList]
      rw [hs]
      exact ⟨x, 128, rfl, .alone hspells⟩
    | some ds =>
      obtain ⟨l, hl, h⟩ := Option.bind_eq_some_iff.1 h
      cases h
      have hs : s = String.ofList (before ++ '/' :: ds) := by
        rw [← (Fields.cut_eq_some_iff.1 hcut).1, String.ofList_toList]
      rw [hs]
      exact ⟨x, l, rfl, .numeral hspells (Network.lengthUpTo?_eq_some_iff.1 hl)⟩
  · rintro ⟨x, l, rfl, hspells⟩
    cases hspells with
    | alone hx =>
      simp [network?, Fields.cut_eq_of_not_mem hx.slash_not_mem, parse?_eq_some_iff.2 hx]
    | @numeral _ ds _ _ hx hl =>
      have hslash : '/' ∉ ds := hl.not_mem (by decide) (by decide)
      simp [network?, Fields.cut_append_cons _ hx.slash_not_mem, parse?_eq_some_iff.2 hx, hslash,
        Network.lengthUpTo?_eq_some_iff.2 hl]

theorem SpellsNetwork.colon_mem {s : String} {x : Ipv6} {l : Nat} (h : SpellsNetwork s x l) :
    ':' ∈ s.toList := by
  cases h with
  | alone hx => simpa using hx.colon_mem
  | numeral hx => simpa using .inl hx.colon_mem

end Ipv6

theorem Network.Spells.colon_not_mem {s : String} {x : Address} {l : Nat}
    (h : Network.Spells s x l) : ':' ∉ s.toList := by
  have hwrite : ∀ y : Address, ':' ∉ y.write := fun y hc => (Ipv6.isPart_write y).colon_not_mem hc
  cases h with
  | alone => simpa [Address.text] using hwrite x
  | @numeral _ cs _ hl =>
    have hlength : ':' ∉ cs := hl.not_mem (by decide) (by decide)
    simp [hwrite, hlength]
  | netmask => simp [hwrite]

/-! ### Either family -/

def IsIpv4 (s : String) : Prop := ∃ x l, Network.Spells s x l

def IsIpv6 (s : String) : Prop := ∃ x l, Ipv6.SpellsNetwork s x l

theorem IsIpv6.not_isIpv4 {s : String} (h : IsIpv6 s) : ¬IsIpv4 s := by
  obtain ⟨x, l, h6⟩ := h
  rintro ⟨y, k, h4⟩
  exact h4.colon_not_mem h6.colon_mem

namespace Cidr

theorem parse?_v4_iff {s : String} {n : Network} :
    parse? s = some (.v4 n) ↔ Network.parse s = .ok n := by
  rw [parse?]
  cases Network.parse s with
  | ok m => simp
  | error fault =>
    refine ⟨fun h => ?_, nofun⟩
    obtain ⟨x, l, hc, -⟩ := Ipv6.network?_eq_some_iff.1 h
    cases hc

theorem parse?_v6_iff {s : String} {x : Ipv6} {l : Nat} :
    parse? s = some (.v6 x l) ↔ Ipv6.SpellsNetwork s x l := by
  rw [parse?]
  cases hparse : Network.parse s with
  | ok n =>
    refine ⟨nofun, fun h6 => ?_⟩
    exact absurd ⟨_, _, Network.parse_eq_ok_iff.1 hparse⟩ (IsIpv6.not_isIpv4 ⟨x, l, h6⟩)
  | error fault =>
    change Ipv6.network? s = some (.v6 x l) ↔ _
    simp [Ipv6.network?_eq_some_iff]

theorem parse?_eq_none_iff {s : String} : parse? s = none ↔ ¬IsIpv4 s ∧ ¬IsIpv6 s := by
  constructor
  · intro h
    constructor
    · rintro ⟨x, l, h4⟩
      obtain ⟨hl, hparse⟩ := Network.parse_of_spells h4
      rw [parse?_v4_iff.2 hparse] at h
      cases h
    · rintro ⟨x, l, h6⟩
      rw [parse?_v6_iff.2 h6] at h
      cases h
  · rintro ⟨h4, h6⟩
    cases hparse : parse? s with
    | none => rfl
    | some c =>
      cases c with
      | v4 n => exact absurd ⟨_, _, Network.parse_eq_ok_iff.1 (parse?_v4_iff.1 hparse)⟩ h4
      | v6 x l => exact absurd ⟨x, l, parse?_v6_iff.1 hparse⟩ h6

end Cidr

end PodRoutes
