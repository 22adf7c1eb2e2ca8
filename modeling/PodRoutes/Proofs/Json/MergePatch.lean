import PodRoutes.Json.Record

/-!
# Merge patches

A merge patch that is an object changes the members that it names, `null` taking them away, and
any other patch takes the place of what is patched (RFC 7396). Of repeated keys the last value is
patched. A member that is not named stays (`valuesAt_mergePatch_of_not_mem`), and one that is named
has one value, which is the old one patched (`valuesAt_mergePatch_of_mem`).
-/

namespace PodRoutes.Json

/-! ### Members by key -/

def pairs : Json → List (Option String × Json)
  | .object ms => ms
  | _ => []

def valuesIn (key : Option String) (ms : List (Option String × Json)) : List Json :=
  (ms.filter fun m => m.1 = key).map Prod.snd

/-- The value of a key that counts; nothing is the same as `null`. -/
def valueIn (key : Option String) (ms : List (Option String × Json)) : Json :=
  (valuesIn key ms).getLast?.getD .null

def valuesAt (key : String) (j : Json) : List Json := valuesIn (some key) j.pairs

def valueAt (key : String) (j : Json) : Json := valueIn (some key) j.pairs

/-- Two documents with the same members but for some keys. -/
def SameBut (keys : List String) (j j' : Json) : Prop :=
  ∀ key, key ∉ keys → valuesAt key j' = valuesAt key j

theorem SameBut.mono {keys keys' : List String} {j j' : Json} (h : SameBut keys j j')
    (hsub : keys ⊆ keys') : SameBut keys' j j' := fun key hkey => h key fun hmem => hkey (hsub hmem)

theorem SameBut.refl (keys : List String) (j : Json) : SameBut keys j j := fun _ _ => rfl

theorem SameBut.trans {keys : List String} {j j' j'' : Json} (h : SameBut keys j j')
    (h' : SameBut keys j' j'') : SameBut keys j j'' :=
  fun key hkey => (h' key hkey).trans (h key hkey)

theorem valueAt_of_single {key : String} {j value : Json} (h : valuesAt key j = [value]) :
    valueAt key j = value := by
  rw [valueAt, valueIn, ← valuesAt, h]
  rfl

theorem valueAt_congr {key : String} {j j' : Json} (h : valuesAt key j' = valuesAt key j) :
    valueAt key j' = valueAt key j := by
  rw [valueAt, valueIn, ← valuesAt, h, valuesAt, ← valueIn, ← valueAt]

/-! ### Patching -/

def put (key : Option String) (value : Json) (ms : List (Option String × Json)) :
    List (Option String × Json) :=
  ms.filter (fun m => m.1 ≠ key) ++ [(key, value)]

mutual

def mergePatch (target : Json) : Json → Json
  | .object patch => .object (mergeMembers target.pairs patch)
  | .null => .null
  | .bool b => .bool b
  | .number n => .number n
  | .string s => .string s
  | .array items => .array items

def mergeMembers (ms : List (Option String × Json)) :
    List (Option String × Json) → List (Option String × Json)
  | [] => ms
  | (key, .null) :: rest => mergeMembers (ms.filter fun m => m.1 ≠ key) rest
  | (key, value) :: rest => mergeMembers (put key (mergePatch (valueIn key ms) value) ms) rest

end

@[simp] theorem pairs_mergePatch (target : Json) (patch : List (Option String × Json)) :
    (mergePatch target (.object patch)).pairs = mergeMembers target.pairs patch := rfl

theorem valuesIn_filter_ne {key other : Option String} (h : other ≠ key)
    (ms : List (Option String × Json)) :
    valuesIn other (ms.filter fun m => m.1 ≠ key) = valuesIn other ms := by
  rw [valuesIn, valuesIn, List.filter_filter]
  congr 2
  funext m
  by_cases hm : m.1 = other
  · simp [hm, h]
  · simp [hm]

theorem valuesIn_filter_self (key : Option String) (ms : List (Option String × Json)) :
    valuesIn key (ms.filter fun m => m.1 ≠ key) = [] := by
  rw [valuesIn, List.filter_filter, List.map_eq_nil_iff, List.filter_eq_nil_iff]
  intro m _
  simp

theorem valuesIn_put_of_ne {key other : Option String} (h : other ≠ key) (value : Json)
    (ms : List (Option String × Json)) :
    valuesIn other (put key value ms) = valuesIn other ms := by
  rw [put, valuesIn, List.filter_append, List.map_append, ← valuesIn, valuesIn_filter_ne h]
  simp [h.symm]

theorem valuesIn_put_self (key : Option String) (value : Json) (ms : List (Option String × Json)) :
    valuesIn key (put key value ms) = [value] := by
  rw [put, valuesIn, List.filter_append, List.map_append, ← valuesIn, valuesIn_filter_self]
  simp

theorem text_ne_null (s : String) : Json.text s ≠ .null := nofun

theorem record_ne_null (ps : List (String × Json)) : Json.record ps ≠ .null := nofun

theorem mergePatch_text (target : Json) (s : String) : mergePatch target (.text s) = .text s :=
  rfl

theorem mergePatch_ne_null (target : Json) {v : Json} (h : v ≠ .null) :
    mergePatch target v ≠ .null := by
  cases v with
  | null => exact absurd rfl h
  | object patch => nofun
  | _ => exact h

/-- Whether a value is neither an object nor `null`. -/
def isLeaf : Json → Bool
  | .null | .object _ => false
  | _ => true

theorem ne_null_of_isLeaf {v : Json} (h : v.isLeaf = true) : v ≠ .null := by
  rintro rfl
  cases h

theorem mergePatch_of_isLeaf {v : Json} (h : v.isLeaf = true) (target : Json) :
    mergePatch target v = v := by
  cases v with
  | object patch => cases h
  | _ => rfl

/-! ### What a patch does to a member -/

theorem mergeMembers_null (key : Option String) (ms rest : List (Option String × Json)) :
    mergeMembers ms ((key, .null) :: rest) =
      mergeMembers (ms.filter fun m => m.1 ≠ key) rest := by
  rw [mergeMembers]

theorem mergeMembers_value (key : Option String) {value : Json} (h : value ≠ .null)
    (ms rest : List (Option String × Json)) :
    mergeMembers ms ((key, value) :: rest) =
      mergeMembers (put key (mergePatch (valueIn key ms) value) ms) rest :=
  mergeMembers.eq_3 ms key value rest h

theorem valuesIn_mergeMembers_of_not_mem {key : Option String}
    {ms patch : List (Option String × Json)} (h : key ∉ patch.map Prod.fst) :
    valuesIn key (mergeMembers ms patch) = valuesIn key ms := by
  induction patch generalizing ms with
  | nil => rw [mergeMembers]
  | cons m rest ih =>
    obtain ⟨name, value⟩ := m
    rw [List.map_cons, List.mem_cons, not_or] at h
    by_cases hvalue : value = .null
    · rw [hvalue, mergeMembers_null, ih h.2, valuesIn_filter_ne h.1]
    · rw [mergeMembers_value name hvalue, ih h.2, valuesIn_put_of_ne h.1]

theorem valuesIn_mergeMembers_of_mem {key : Option String} {value : Json}
    {ms patch : List (Option String × Json)} (hkeys : (patch.map Prod.fst).Nodup)
    (h : (key, value) ∈ patch) (hvalue : value ≠ .null) :
    valuesIn key (mergeMembers ms patch) = [mergePatch (valueIn key ms) value] := by
  induction patch generalizing ms with
  | nil => cases h
  | cons m rest ih =>
    obtain ⟨name, other⟩ := m
    rw [List.map_cons, List.nodup_cons] at hkeys
    rcases List.mem_cons.1 h with hm | hm
    · obtain ⟨rfl, rfl⟩ := Prod.mk.injEq .. ▸ hm
      rw [mergeMembers_value key hvalue, valuesIn_mergeMembers_of_not_mem hkeys.1,
        valuesIn_put_self]
    · have hne : key ≠ name := by
        rintro rfl
        exact hkeys.1 (List.mem_map.2 ⟨_, hm, rfl⟩)
      by_cases hother : other = .null
      · rw [hother, mergeMembers_null, ih hkeys.2 hm, valueIn, valuesIn_filter_ne hne, ← valueIn]
      · rw [mergeMembers_value name hother, ih hkeys.2 hm, valueIn, valuesIn_put_of_ne hne,
          ← valueIn]

variable {key : String} {ps : List (String × Json)}

theorem map_fst_record (ps : List (String × Json)) :
    (ps.map fun m => (some m.1, m.2)).map Prod.fst = (ps.map Prod.fst).map some := by
  rw [List.map_map, List.map_map]
  rfl

theorem valuesAt_mergePatch_of_not_mem (h : key ∉ ps.map Prod.fst) (target : Json) :
    valuesAt key (mergePatch target (.record ps)) = valuesAt key target := by
  refine valuesIn_mergeMembers_of_not_mem ?_
  rw [map_fst_record]
  simpa using h

theorem valuesAt_mergePatch_of_mem (hkeys : (ps.map Prod.fst).Nodup) {value : Json}
    (h : (key, value) ∈ ps) (hvalue : value ≠ .null) (target : Json) :
    valuesAt key (mergePatch target (.record ps)) = [mergePatch (valueAt key target) value] := by
  refine valuesIn_mergeMembers_of_mem ?_ (List.mem_map_of_mem h) hvalue
  rw [map_fst_record]
  exact List.Pairwise.map some (fun _ _ hne h => hne (Option.some.inj h)) hkeys

/-- The members that a patch does not name stay. -/
theorem sameBut_mergePatch (target : Json) (ps : List (String × Json)) :
    SameBut (ps.map Prod.fst) target (mergePatch target (.record ps)) :=
  fun _ h => valuesAt_mergePatch_of_not_mem h target

/-! ### Records stay records -/

/-- What can be read as a record is an object with texts for keys. -/
theorem members?_eq_some {j : Json} {ms : List (String × Json)} :
    j.members? = some ms ↔ j = .record ms := by
  constructor
  · intro h
    cases j with
    | object pairs =>
      rw [members?] at h
      rw [record]
      congr 1
      induction pairs generalizing ms with
      | nil =>
        cases h
        rfl
      | cons m rest ih =>
        obtain ⟨key, value⟩ := m
        rw [List.mapM_cons, Option.bind_eq_bind, Option.bind_eq_some_iff] at h
        obtain ⟨first, hfirst, h⟩ := h
        rw [Option.bind_eq_bind, Option.bind_eq_some_iff] at h
        obtain ⟨others, hothers, h⟩ := h
        obtain ⟨text, rfl, rfl⟩ := Option.map_eq_some_iff.1 hfirst
        cases h
        rw [List.map_cons, ← ih hothers]
    | _ => cases h
  · rintro rfl
    rw [record, members?]
    induction ms with
    | nil => rfl
    | cons m rest ih =>
      rw [List.map_cons, List.mapM_cons, ih]
      rfl

theorem exists_record {j : Json} {pairs : List (Option String × Json)} (hj : j = .object pairs)
    (h : ∀ m ∈ pairs, m.1.isSome) : ∃ ms, j = .record ms := by
  subst hj
  induction pairs with
  | nil => exact ⟨[], rfl⟩
  | cons m rest ih =>
    obtain ⟨others, hothers⟩ := ih fun m hm => h m (List.mem_cons_of_mem _ hm)
    obtain ⟨key, hkey⟩ := Option.isSome_iff_exists.1 (h m (List.mem_cons_self ..))
    refine ⟨(key, m.2) :: others, ?_⟩
    rw [record] at hothers ⊢
    rw [List.map_cons, ← Json.object.inj hothers, ← hkey]

theorem isSome_of_mem_record {ms : List (String × Json)} :
    ∀ m ∈ (record ms).pairs, m.1.isSome := by
  intro m hm
  obtain ⟨x, -, rfl⟩ := List.mem_map.1 hm
  rfl

theorem isSome_of_mem_mergeMembers {ms patch : List (Option String × Json)}
    (hms : ∀ m ∈ ms, m.1.isSome) (hpatch : ∀ m ∈ patch, m.1.isSome) :
    ∀ m ∈ mergeMembers ms patch, m.1.isSome := by
  induction patch generalizing ms with
  | nil => rwa [mergeMembers]
  | cons m rest ih =>
    obtain ⟨key, value⟩ := m
    have hrest : ∀ m ∈ rest, m.1.isSome := fun m hm => hpatch m (List.mem_cons_of_mem _ hm)
    have hkept : ∀ m ∈ ms.filter fun m => m.1 ≠ key, m.1.isSome :=
      fun m hm => hms m (List.mem_filter.1 hm).1
    by_cases hvalue : value = .null
    · rw [hvalue, mergeMembers_null]
      exact ih hkept hrest
    · rw [mergeMembers_value key hvalue]
      refine ih (fun m hm => ?_) hrest
      rcases List.mem_append.1 hm with hm | hm
      · exact hkept m hm
      · rw [List.mem_singleton.1 hm]
        exact hpatch (key, value) (List.mem_cons_self ..)

theorem exists_record_mergePatch (ms ps : List (String × Json)) :
    ∃ ms', mergePatch (.record ms) (.record ps) = .record ms' :=
  exists_record rfl (isSome_of_mem_mergeMembers isSome_of_mem_record isSome_of_mem_record)

/-! ### Reading members -/

theorem valuesAt_record (key : String) (ms : List (String × Json)) :
    valuesAt key (.record ms) = (ms.filter fun m => m.1 = key).map Prod.snd := by
  rw [valuesAt, valuesIn, record, pairs, List.filter_map, List.map_map]
  simp [Function.comp_def]

variable {α : Type} {name : String} {read : Json → Option α} {j j' : Json} {o : Option α}

/-- What is read of a member, of whose values the last one counts. -/
def readAt (name : String) (read : Json → Option α) (j : Json) : Option (Option α) :=
  ((valuesAt name j).mapM (nullable? read)).map fun given => given.getLast?.join

theorem optional?_eq (name : String) (read : Json → Option α) (ms : List (String × Json)) :
    optional? name read ms = readAt name read (.record ms) := by
  rw [readAt, valuesAt_record, List.mapM_map, optional?]
  exact (Option.map_eq_bind ..).symm

theorem nullable?_of_ne_null (h : j ≠ .null) : nullable? read j = (read j).map some := by
  unfold nullable?
  split
  · exact absurd rfl h
  · rfl

theorem read_of_nullable? {a : α} (h : nullable? read j = some (some a)) : read j = some a := by
  unfold nullable? at h
  split at h
  · cases h
  · obtain ⟨_, hread, heq⟩ := Option.map_eq_some_iff.1 h
    cases heq
    exact hread

/-- What is read of a member depends on its values alone. -/
theorem readAt_congr (h : valuesAt name j' = valuesAt name j) (read : Json → Option α) :
    readAt name read j' = readAt name read j := by
  rw [readAt, readAt, h]

theorem readAt_of_single {value : Json} (h : valuesAt name j = [value]) (read : Json → Option α) :
    readAt name read j = nullable? read value := by
  rw [readAt, h]
  cases hvalue : nullable? read value <;> simp [hvalue]

theorem getLast?_of_mapM {β : Type} {f : Json → Option β} {l : List Json} {given : List β}
    (h : l.mapM f = some given) : l.getLast?.map f = given.getLast?.map some := by
  induction l generalizing given with
  | nil =>
    cases h
    rfl
  | cons j rest ih =>
    rw [List.mapM_cons, Option.bind_eq_bind, Option.bind_eq_some_iff] at h
    obtain ⟨first, hfirst, h⟩ := h
    rw [Option.bind_eq_bind, Option.bind_eq_some_iff] at h
    obtain ⟨others, hothers, h⟩ := h
    cases h
    cases rest with
    | nil =>
      cases hothers
      exact congrArg some hfirst
    | cons next rest =>
      have hlast := ih hothers
      cases others with
      | nil => simp [List.mapM_cons, Option.bind_eq_some_iff] at hothers
      | cons other others => rw [List.getLast?_cons_cons, List.getLast?_cons_cons, hlast]

/-- Of the values of a member the last one is read. -/
theorem nullable?_valueAt (h : readAt name read j = some o) :
    nullable? read (valueAt name j) = some o := by
  rw [readAt, Option.map_eq_some_iff] at h
  obtain ⟨given, hgiven, rfl⟩ := h
  have hlast := getLast?_of_mapM hgiven
  rw [valueAt, valueIn, ← valuesAt]
  cases hvalue : (valuesAt name j).getLast? with
  | none =>
    rw [hvalue, Option.map_none, eq_comm, Option.map_eq_none_iff] at hlast
    rw [hlast]
    rfl
  | some value =>
    rw [hvalue, Option.map_some, eq_comm, Option.map_eq_some_iff] at hlast
    obtain ⟨o, ho, hread⟩ := hlast
    rw [ho, Option.getD_some, ← hread]
    rfl

end PodRoutes.Json
