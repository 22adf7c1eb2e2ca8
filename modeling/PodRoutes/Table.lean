/-!
# Finite maps with text keys

A map is its list of entries in increasing order of the keys, so two maps with the same lookups
are equal (`Table.ext_get?`) and a listing is always in key order (the order of code points, which
is that of UTF-8 bytes). The lemmas say what each operation does to the lookups; later proofs cite
them and do not open the operations.
-/

namespace PodRoutes

/-- A finite map from texts to values, listed in increasing order of its keys. -/
structure Table (α : Type) where
  entries : List (String × α)
  sorted : entries.Pairwise fun a b => a.1 < b.1
deriving DecidableEq

namespace Table

variable {α β : Type}

/-! ### Entry lists -/

def lookup (key : String) : List (String × α) → Option α
  | [] => none
  | (k, v) :: rest => if k = key then some v else lookup key rest

/-- Puts a value into a sorted entry list, in place of an older one for the same key. -/
def place (key : String) (value : α) : List (String × α) → List (String × α)
  | [] => [(key, value)]
  | (k, v) :: rest =>
    if key < k then (key, value) :: (k, v) :: rest
    else if key = k then (key, value) :: rest
    else (k, v) :: place key value rest

theorem mem_place {key : String} {value : α} {e : String × α} {l : List (String × α)}
    (h : e ∈ place key value l) : e = (key, value) ∨ e ∈ l := by
  induction l with
  | nil => exact Or.inl (by simpa [place] using h)
  | cons hd tl ih =>
    obtain ⟨k, v⟩ := hd
    rw [place] at h
    split at h
    · simpa using h
    · split at h
      · simp only [List.mem_cons] at h ⊢
        rcases h with h | h
        · exact Or.inl h
        · exact Or.inr (Or.inr h)
      · simp only [List.mem_cons] at h ⊢
        rcases h with h | h
        · exact Or.inr (Or.inl h)
        · exact (ih h).imp id Or.inr

theorem place_sorted {key : String} {value : α} {l : List (String × α)}
    (h : l.Pairwise fun a b => a.1 < b.1) :
    (place key value l).Pairwise fun a b => a.1 < b.1 := by
  induction l with
  | nil => simp [place]
  | cons hd tl ih =>
    obtain ⟨k, v⟩ := hd
    rw [List.pairwise_cons] at h
    rw [place]
    split
    · next hlt =>
      refine List.pairwise_cons.2 ⟨fun e he => ?_, List.pairwise_cons.2 h⟩
      rcases List.mem_cons.1 he with rfl | he
      · exact hlt
      · exact String.lt_trans hlt (h.1 e he)
    · next hge =>
      split
      · next heq =>
        subst heq
        exact List.pairwise_cons.2 ⟨h.1, h.2⟩
      · next hne =>
        refine List.pairwise_cons.2 ⟨fun e he => ?_, ih h.2⟩
        rcases mem_place he with rfl | he
        · refine Decidable.byContradiction fun hn => hne ?_
          exact String.le_antisymm (String.not_lt.1 hn) (String.not_lt.1 hge)
        · exact h.1 e he

theorem lookup_place (key key' : String) (value : α) (l : List (String × α)) :
    lookup key' (place key value l) = if key = key' then some value else lookup key' l := by
  induction l with
  | nil => simp [place, lookup]
  | cons hd tl ih =>
    obtain ⟨k, v⟩ := hd
    rw [place]
    split
    · simp [lookup]
    · split
      · next heq => subst heq; by_cases h : key = key' <;> simp [lookup, h]
      · next hne =>
        by_cases h : k = key'
        · subst h; simp [lookup, hne]
        · simp [lookup, h, ih]

theorem lookup_eq_none_of_forall_lt {key : String} {l : List (String × α)}
    (h : ∀ e ∈ l, key < e.1) : lookup key l = none := by
  induction l with
  | nil => rfl
  | cons hd tl ih =>
    obtain ⟨k, v⟩ := hd
    have hk : k ≠ key := by
      rintro rfl
      exact String.lt_irrefl _ (h (k, v) (by simp))
    simp [lookup, hk, ih fun e he => h e (by simp [he])]

theorem lookup_eq_some_iff {key : String} {value : α} {l : List (String × α)}
    (h : l.Pairwise fun a b => a.1 < b.1) :
    lookup key l = some value ↔ (key, value) ∈ l := by
  induction l with
  | nil => simp [lookup]
  | cons hd tl ih =>
    obtain ⟨k, v⟩ := hd
    rw [List.pairwise_cons] at h
    by_cases hk : k = key
    · subst hk
      constructor
      · intro hv
        simp only [lookup, if_pos, Option.some.injEq] at hv
        simp [hv]
      · intro hm
        rcases List.mem_cons.1 hm with hm | hm
        · have : value = v := by simpa using congrArg Prod.snd hm
          simp [lookup, this]
        · exact absurd (h.1 _ hm) (String.lt_irrefl _)
    · have hk' : ¬key = k := fun e => hk e.symm
      simp [lookup, hk, hk', ih h.2]

theorem lookup_filter (p : String × α → Bool) (key : String) {l : List (String × α)}
    (h : l.Pairwise fun a b => a.1 < b.1) :
    lookup key (l.filter p) = (lookup key l).filter fun v => p (key, v) := by
  induction l with
  | nil => rfl
  | cons hd tl ih =>
    obtain ⟨k, v⟩ := hd
    rw [List.pairwise_cons] at h
    by_cases hk : k = key
    · subst hk
      have hnone : lookup k tl = none := lookup_eq_none_of_forall_lt h.1
      cases hp : p (k, v)
      · simp [hp, lookup, ih h.2, hnone, Option.filter]
      · simp [hp, lookup, Option.filter]
    · cases hp : p (k, v) <;> simp [hp, lookup, hk, ih h.2]

/-! ### Operations -/

def empty : Table α := ⟨[], List.Pairwise.nil⟩

instance : EmptyCollection (Table α) := ⟨empty⟩

instance : Inhabited (Table α) := ⟨empty⟩

def get? (t : Table α) (key : String) : Option α := lookup key t.entries

def contains (t : Table α) (key : String) : Bool := (t.get? key).isSome

def insert (t : Table α) (key : String) (value : α) : Table α :=
  ⟨place key value t.entries, place_sorted t.sorted⟩

/-- Gives a key a value unless it has one. -/
def insertNew (t : Table α) (key : String) (value : α) : Table α :=
  if t.contains key then t else t.insert key value

def filter (t : Table α) (p : String → α → Bool) : Table α :=
  ⟨t.entries.filter fun e => p e.1 e.2, t.sorted.filter _⟩

def erase (t : Table α) (key : String) : Table α := t.filter fun k _ => k ≠ key

/-- The entries of a list as a map; of entries with the same key the last one counts. -/
def ofList (l : List (String × α)) : Table α := l.foldl (fun t e => t.insert e.1 e.2) empty

def keys (t : Table α) : List String := t.entries.map Prod.fst

def values (t : Table α) : List α := t.entries.map Prod.snd

def size (t : Table α) : Nat := t.entries.length

/-! ### Lookups after an operation -/

@[simp] theorem get?_empty (key : String) : (empty : Table α).get? key = none := rfl

theorem get?_insert (t : Table α) (key key' : String) (value : α) :
    (t.insert key value).get? key' = if key = key' then some value else t.get? key' :=
  lookup_place key key' value t.entries

@[simp] theorem get?_insert_self (t : Table α) (key : String) (value : α) :
    (t.insert key value).get? key = some value := by simp [get?_insert]

theorem get?_filter (t : Table α) (p : String → α → Bool) (key : String) :
    (t.filter p).get? key = (t.get? key).filter (p key) :=
  lookup_filter _ key t.sorted

theorem get?_erase (t : Table α) (key key' : String) :
    (t.erase key).get? key' = if key = key' then none else t.get? key' := by
  rw [erase, get?_filter]
  by_cases h : key = key'
  · subst h
    cases t.get? key <;> simp [Option.filter]
  · have h' : ¬key' = key := fun e => h e.symm
    cases t.get? key' <;> simp [Option.filter, h, h']

theorem get?_insertNew (t : Table α) (key key' : String) (value : α) :
    (t.insertNew key value).get? key' =
      if key = key' then some ((t.get? key).getD value) else t.get? key' := by
  cases hv : t.get? key with
  | none =>
    have hc : t.contains key = false := by simp [contains, hv]
    simp [insertNew, hc, get?_insert]
  | some v =>
    have hc : t.contains key = true := by simp [contains, hv]
    by_cases hk : key = key'
    · subst hk; simp [insertNew, hc, hv]
    · simp [insertNew, hc, hk]

theorem get?_eq_some_iff {t : Table α} {key : String} {value : α} :
    t.get? key = some value ↔ (key, value) ∈ t.entries :=
  lookup_eq_some_iff t.sorted

theorem mem_values_iff {t : Table α} {value : α} :
    value ∈ t.values ↔ ∃ key, t.get? key = some value := by
  simp [values, get?_eq_some_iff]

theorem mem_keys_iff {t : Table α} {key : String} :
    key ∈ t.keys ↔ ∃ value, t.get? key = some value := by
  simp [keys, get?_eq_some_iff]

/-! ### Equality -/

theorem entries_ext : ∀ {l m : List (String × α)},
    l.Pairwise (fun a b => a.1 < b.1) → m.Pairwise (fun a b => a.1 < b.1) →
    (∀ e, e ∈ l ↔ e ∈ m) → l = m
  | [], [], _, _, _ => rfl
  | [], b :: m, _, _, h => absurd ((h b).2 (by simp)) (by simp)
  | a :: l, [], _, _, h => absurd ((h a).1 (by simp)) (by simp)
  | a :: l, b :: m, hl, hm, h => by
    rw [List.pairwise_cons] at hl hm
    have hab : a = b := by
      rcases List.mem_cons.1 ((h a).1 (by simp)) with e | ha
      · exact e
      · rcases List.mem_cons.1 ((h b).2 (by simp)) with e | hb
        · exact e.symm
        · exact absurd (String.lt_trans (hm.1 a ha) (hl.1 b hb)) (String.lt_irrefl _)
    subst hab
    have htail : ∀ e, e ∈ l ↔ e ∈ m := fun e => by
      have := h e
      simp only [List.mem_cons] at this
      constructor
      · intro he
        rcases this.1 (Or.inr he) with e' | he'
        · exact absurd (e' ▸ hl.1 e he) (String.lt_irrefl _)
        · exact he'
      · intro he
        rcases this.2 (Or.inr he) with e' | he'
        · exact absurd (e' ▸ hm.1 e he) (String.lt_irrefl _)
        · exact he'
    rw [entries_ext hl.2 hm.2 htail]

theorem ext_get? {t u : Table α} (h : ∀ key, t.get? key = u.get? key) : t = u := by
  obtain ⟨l, hl⟩ := t
  obtain ⟨m, hm⟩ := u
  have : l = m := entries_ext hl hm fun ⟨k, v⟩ => by
    rw [← lookup_eq_some_iff hl, ← lookup_eq_some_iff hm]
    have := h k
    simp only [get?] at this
    rw [this]
  subst this
  rfl

end Table

end PodRoutes
