import Mathlib.Data.List.Nodup
import PodRoutes.Json.Shape
import PodRoutes.Proofs.Json.MergePatch
import PodRoutes.Proofs.Time.Text

/-!
# Writing back what was read in a shape

A value that is patched with what was read of it reads as before (`Settled.merged`), and in every
object that its shape declares the members that are not declared stay as they were
(`sameBut_within`). Both are shown shape by shape, from what a patch does to one declared member.
-/

namespace PodRoutes

theorem Table.get?_ofList {α : Type} (l : List (String × α)) (key : String) :
    (Table.ofList l).get? key = ((l.filter fun e => e.1 = key).map Prod.snd).getLast? := by
  induction l using List.reverseRecOn with
  | nil => rfl
  | append_singleton l e ih =>
    have hlast : Table.ofList (l ++ [e]) = (Table.ofList l).insert e.1 e.2 := by
      simp [Table.ofList, List.foldl_append]
    rw [hlast, Table.get?_insert, ih]
    by_cases hkey : e.1 = key <;> simp [hkey, List.filter_append]

namespace Json

/-! ### Members of records -/

variable {ms ms' ps values : List (String × Json)} {name : String} {j v : Json}

theorem valuesAt_of_not_mem (h : name ∉ ms.map Prod.fst) : valuesAt name (.record ms) = [] := by
  have hnone : (ms.filter fun m => m.1 = name) = [] := by
    rw [List.filter_eq_nil_iff]
    intro m hm
    have hne : m.1 ≠ name := fun he => h (List.mem_map.2 ⟨m, hm, he⟩)
    simpa using hne
  rw [valuesAt_record, hnone, List.map_nil]

theorem valuesAt_of_mem (hkeys : (ms.map Prod.fst).Nodup) (h : (name, v) ∈ ms) :
    valuesAt name (.record ms) = [v] := by
  induction ms with
  | nil => cases h
  | cons m rest ih =>
    rw [List.map_cons, List.nodup_cons] at hkeys
    rw [valuesAt_record, List.filter_cons]
    rcases List.mem_cons.1 h with hm | hm
    · have hrest := valuesAt_of_not_mem hkeys.1
      rw [valuesAt_record] at hrest
      subst hm
      simp [hrest]
    · have hne : m.1 ≠ name := by
        rintro rfl
        exact hkeys.1 (List.mem_map.2 ⟨_, hm, rfl⟩)
      have hrest := ih hkeys.2 hm
      rw [valuesAt_record] at hrest
      simp [hne, hrest]

/-! ### Maps of texts -/

theorem mapM_text {l : List (String × String)} :
    (ms.mapM fun m => m.2.text?.map (m.1, ·)) = some l ↔
      ms = l.map fun e => (e.1, Json.text e.2) := by
  have htext : ∀ {j : Json} {s : String}, j.text? = some s ↔ j = Json.text s := by
    intro j s
    cases j <;> simp [text?, Json.text]
  induction ms generalizing l with
  | nil => cases l <;> simp
  | cons m rest ih =>
    obtain ⟨key, value⟩ := m
    simp only [List.mapM_cons, Option.bind_eq_bind, Option.bind_eq_some_iff,
      Option.map_eq_some_iff, htext]
    constructor
    · rintro ⟨e, ⟨s, rfl, rfl⟩, others, hothers, h⟩
      cases h
      rw [List.map_cons, ← ih.1 hothers]
    · intro h
      cases l with
      | nil => cases h
      | cons e l =>
        rw [List.map_cons, List.cons.injEq] at h
        cases h.1
        exact ⟨e, ⟨e.2, rfl, rfl⟩, l, ih.2 h.2, rfl⟩

/-- The members of an object of texts, by key. -/
theorem getLast?_valuesAt_texts (l : List (String × String)) (key : String) :
    (valuesAt key (.record (l.map fun e => (e.1, Json.text e.2)))).getLast? =
      ((Table.ofList l).get? key).map Json.text := by
  rw [valuesAt_record, Table.get?_ofList, ← List.getLast?_map, List.filter_map, List.map_map,
    List.map_map]
  rfl

theorem exists_texts (h : ∀ m ∈ ms, ∃ s, m.2 = Json.text s) :
    ∃ l : List (String × String), ms = l.map fun e => (e.1, Json.text e.2) := by
  induction ms with
  | nil => exact ⟨[], rfl⟩
  | cons m rest ih =>
    obtain ⟨l, rfl⟩ := ih fun m hm => h m (List.mem_cons_of_mem _ hm)
    obtain ⟨s, hs⟩ := h m List.mem_cons_self
    exact ⟨(m.1, s) :: l, by rw [List.map_cons, ← hs]⟩

/-- A map of texts is read of an object of texts, in which of each key the last text counts. -/
theorem table?_eq_some_iff {t : Table String} :
    table? text? (.record ms) = some t ↔ (∀ m ∈ ms, ∃ s, m.2 = Json.text s) ∧
      ∀ key, (valuesAt key (.record ms)).getLast? = (t.get? key).map Json.text := by
  rw [table?, members?_eq_some.2 rfl, Option.bind_eq_bind, Option.bind_some, Option.bind_eq_bind,
    Option.bind_eq_some_iff]
  simp only [mapM_text, Option.some.injEq]
  constructor
  · rintro ⟨l, rfl, rfl⟩
    refine ⟨fun m hm => ?_, getLast?_valuesAt_texts l⟩
    obtain ⟨e, -, rfl⟩ := List.mem_map.1 hm
    exact ⟨e.2, rfl⟩
  · rintro ⟨htexts, hkeys⟩
    obtain ⟨l, rfl⟩ := exists_texts htexts
    refine ⟨l, rfl, Table.ext_get? fun key => ?_⟩
    have hsame := (getLast?_valuesAt_texts l key).symm.trans (hkeys key)
    exact Option.map_injective (fun _ _ h => by cases h; rfl) hsame

/-- The members of a written map. -/
def tableMembers (t : Table String) : List (String × Json) :=
  t.entries.map fun e => (e.1, Json.text e.2)

theorem nodup_tableMembers (t : Table String) : ((tableMembers t).map Prod.fst).Nodup := by
  have hne : t.entries.Pairwise fun a b => a.1 ≠ b.1 := by
    refine t.sorted.imp fun hlt he => ?_
    rw [he] at hlt
    exact String.lt_irrefl _ hlt
  rw [tableMembers, List.map_map]
  exact List.pairwise_map.2 hne

theorem mem_tableMembers {t : Table String} {key : String} {v : Json} :
    (key, v) ∈ tableMembers t ↔ ∃ s, t.get? key = some s ∧ v = Json.text s := by
  simp only [tableMembers, List.mem_map, Prod.mk.injEq, Table.get?_eq_some_iff]
  constructor
  · rintro ⟨e, he, rfl, rfl⟩
    exact ⟨e.2, he, rfl⟩
  · rintro ⟨s, hs, rfl⟩
    exact ⟨(key, s), hs, rfl, rfl⟩

theorem not_mem_tableMembers {t : Table String} {key : String} (h : t.get? key = none) :
    key ∉ (tableMembers t).map Prod.fst := by
  intro hmem
  obtain ⟨m, hm, rfl⟩ := List.mem_map.1 hmem
  obtain ⟨s, hs, -⟩ := mem_tableMembers.1 hm
  cases h.symm.trans hs

namespace Shape

/-! ### What is written reads as it was read -/

/-- What a reader gives is read of itself, and of every value that it was read of and patches. -/
structure Settled (read : Json → Option Json) : Prop where
  ne_null : ∀ {j v}, read j = some v → v ≠ .null
  again : ∀ {j v}, read j = some v → read v = some v
  merged : ∀ {j v}, read j = some v → read (mergePatch j v) = some v

theorem settled_of_leaf {read : Json → Option Json}
    (h : ∀ j v, read j = some v → v.isLeaf = true ∧ read v = some v) : Settled read where
  ne_null hread := ne_null_of_isLeaf (h _ _ hread).1
  again hread := (h _ _ hread).2
  merged hread := by
    obtain ⟨hleaf, hagain⟩ := h _ _ hread
    rw [mergePatch_of_isLeaf hleaf, hagain]

theorem settled_text : Settled (normal? .text) := by
  refine settled_of_leaf fun j v h => ?_
  obtain ⟨s, -, rfl⟩ := Option.map_eq_some_iff.1 h
  exact ⟨rfl, rfl⟩

theorem settled_flag : Settled (normal? .flag) := by
  refine settled_of_leaf fun j v h => ?_
  obtain ⟨b, -, rfl⟩ := Option.map_eq_some_iff.1 h
  exact ⟨rfl, rfl⟩

theorem int64?_integer {j : Json} {n : Int} (h : j.int64? = some n) :
    (Json.integer n).int64? = some n := by
  cases j with
  | number numeral =>
    obtain ⟨negative, whole, fraction, exponent⟩ := numeral
    simp only [int64?, Numeral.toNat?, Json.integer, Numeral.ofNat] at h ⊢
    grind
  | _ => cases h

theorem settled_integer (bits : Nat) : Settled (normal? (.integer bits)) := by
  refine settled_of_leaf fun j v h => ?_
  obtain ⟨n, hn, rfl⟩ := Option.map_eq_some_iff.1 h
  obtain ⟨hread, hfits⟩ := Option.filter_eq_some_iff.1 hn
  refine ⟨rfl, ?_⟩
  rw [normal?, int64?_integer hread, Option.filter_some, if_pos hfits, Option.map_some]

theorem settled_time : Settled (normal? .time) := by
  refine settled_of_leaf fun j v h => ?_
  obtain ⟨x, hx, rfl⟩ := Option.map_eq_some_iff.1 h
  obtain ⟨s, -, hs⟩ := Option.bind_eq_some_iff.1 hx
  have hagain := Instant.parse?_text (Instant.kept_of_parse? hs)
  have htext : text? x.toJson = some x.text := rfl
  refine ⟨rfl, ?_⟩
  rw [normal?, Instant.ofJson?, htext, Option.bind_some, hagain, Option.map_some, Instant.toJson,
    Instant.text_wholeSeconds, ← Instant.toJson]

/-- Where each key has the text of a map and no other, the map is read. -/
theorem table?_of_values {t : Table String} {j : Json} (hj : j = .record ms)
    (h : ∀ key, valuesAt key j = ((t.get? key).map Json.text).toList) :
    table? text? j = some t := by
  subst hj
  refine table?_eq_some_iff.2 ⟨fun m hm => ?_, fun key => ?_⟩
  · have hmem : m.2 ∈ valuesAt m.1 (.record ms) := by
      rw [valuesAt_record]
      exact List.mem_map_of_mem (List.mem_filter.2 ⟨hm, by simp⟩)
    rw [h] at hmem
    obtain ⟨s, -, hs⟩ := Option.map_eq_some_iff.1 (Option.mem_toList.1 hmem)
    exact ⟨s, hs.symm⟩
  · rw [h]
    cases t.get? key <;> rfl

theorem settled_texts : Settled (normal? .texts) := by
  have hmembers : ∀ {j v : Json}, normal? .texts j = some v → ∃ ms t, j = .record ms ∧
      v = .record (tableMembers t) ∧ table? text? (.record ms) = some t := by
    intro j v h
    obtain ⟨t, ht, rfl⟩ := Option.map_eq_some_iff.1 h
    obtain ⟨ms, hms, -⟩ := Option.bind_eq_some_iff.1 ht
    exact ⟨ms, t, members?_eq_some.1 hms, rfl, members?_eq_some.1 hms ▸ ht⟩
  constructor
  · intro j v h
    obtain ⟨ms, t, -, rfl, -⟩ := hmembers h
    exact record_ne_null _
  · intro j v h
    obtain ⟨ms, t, -, rfl, -⟩ := hmembers h
    have hread : table? text? (.record (tableMembers t)) = some t := by
      refine table?_of_values rfl fun key => ?_
      cases ht : t.get? key with
      | none => exact valuesAt_of_not_mem (not_mem_tableMembers ht)
      | some s => exact valuesAt_of_mem (nodup_tableMembers t) (mem_tableMembers.2 ⟨s, ht, rfl⟩)
    rw [normal?, hread]
    rfl
  · intro j v h
    obtain ⟨ms, t, rfl, rfl, hread⟩ := hmembers h
    obtain ⟨ms', hms'⟩ := exists_record_mergePatch ms (tableMembers t)
    have hmerged : table? text? (mergePatch (.record ms) (.record (tableMembers t))) = some t := by
      refine table?_of_values hms' fun key => ?_
      cases ht : t.get? key with
      | none =>
        have hlast := (table?_eq_some_iff.1 hread).2 key
        rw [ht, Option.map_none, List.getLast?_eq_none_iff] at hlast
        rw [valuesAt_mergePatch_of_not_mem (not_mem_tableMembers ht), hlast]
        rfl
      | some s =>
        rw [valuesAt_mergePatch_of_mem (nodup_tableMembers t) (mem_tableMembers.2 ⟨s, ht, rfl⟩)
          (text_ne_null s)]
        rfl
    rw [normal?, hmerged]
    rfl

theorem mapM_again {read : Json → Option Json} (h : Settled read) {given items : List Json}
    (hitems : given.mapM read = some items) : items.mapM read = some items := by
  induction given generalizing items with
  | nil =>
    cases hitems
    rfl
  | cons first rest ih =>
    simp only [List.mapM_cons, Option.bind_eq_bind, Option.bind_eq_some_iff] at hitems
    obtain ⟨v, hv, others, hothers, heq⟩ := hitems
    cases heq
    have hrest := ih hothers
    simp [List.mapM_cons, h.again hv, hrest]

theorem settled_list {item : Shape} (h : Settled item.normal?) :
    Settled (normal? (.list item)) := by
  refine settled_of_leaf fun j v hread => ?_
  obtain ⟨items, hitems, rfl⟩ := Option.map_eq_some_iff.1 hread
  refine ⟨rfl, ?_⟩
  cases j with
  | array given => rw [normal?, list?, mapM_again h hitems, Option.map_some]
  | _ => cases hitems

/-! ### Declared members -/

variable {fields : List Field} {default : Option Json} {shape : Shape}

theorem fieldsIn?_cons {rest : List Field} :
    fieldsIn? ((name, default, shape) :: rest) ms = some values ↔
      ∃ given others, readAt name shape.normal? (.record ms) = some given ∧
        fieldsIn? rest ms = some others ∧
        values = ((given <|> default).map fun v => (name, v)).toList ++ others := by
  simp only [fieldsIn?, optional?_eq, Option.bind_eq_bind, Option.bind_eq_some_iff,
    Option.pure_def, Option.some.injEq, eq_comm (b := values), exists_and_left]

theorem names_of_fieldsIn? (h : fieldsIn? fields ms = some values) :
    (values.map Prod.fst).Sublist (fields.map Prod.fst) := by
  induction fields generalizing values with
  | nil =>
    cases h
    exact .slnil
  | cons field rest ih =>
    obtain ⟨name, default, shape⟩ := field
    obtain ⟨given, others, -, hothers, rfl⟩ := fieldsIn?_cons.1 h
    cases given <|> default with
    | none => exact (ih hothers).cons _
    | some v => exact (ih hothers).cons_cons _

/-- What is read of the members decides what is read of all. -/
theorem fieldsIn?_of_reads (h : fieldsIn? fields ms = some values)
    (hread : ∀ name default shape, (name, default, shape) ∈ fields → ∀ given,
      readAt name shape.normal? (.record ms) = some given → ∃ given',
        readAt name shape.normal? (.record ms') = some given' ∧
          (given' <|> default) = (given <|> default)) :
    fieldsIn? fields ms' = some values := by
  induction fields generalizing values with
  | nil => exact h
  | cons field rest ih =>
    obtain ⟨name, default, shape⟩ := field
    obtain ⟨given, others, hgiven, hothers, rfl⟩ := fieldsIn?_cons.1 h
    obtain ⟨given', hgiven', hsame⟩ := hread name default shape List.mem_cons_self given hgiven
    have hrest := ih hothers fun name default shape hmem =>
      hread name default shape (List.mem_cons_of_mem _ hmem)
    exact fieldsIn?_cons.2 ⟨given', others, hgiven', hrest, by rw [hsame]⟩

/-- The value of a declared member is what was read of it, or what stands for a missing one. -/
theorem mem_of_fieldsIn? (hnames : (fields.map Prod.fst).Nodup)
    (h : fieldsIn? fields ms = some values) (hmem : (name, default, shape) ∈ fields) :
    ∃ given, readAt name shape.normal? (.record ms) = some given ∧
      ∀ v, (name, v) ∈ values ↔ (given <|> default) = some v := by
  induction fields generalizing values with
  | nil => cases hmem
  | cons field rest ih =>
    obtain ⟨first, firstDefault, firstShape⟩ := field
    obtain ⟨given, others, hgiven, hothers, rfl⟩ := fieldsIn?_cons.1 h
    rw [List.map_cons, List.nodup_cons] at hnames
    have hkeys := (names_of_fieldsIn? hothers).subset
    rcases List.mem_cons.1 hmem with heq | hrest
    · cases heq
      refine ⟨given, hgiven, fun v => ?_⟩
      have hnot : (name, v) ∉ others := fun hv => hnames.1 (hkeys (List.mem_map_of_mem hv))
      simp [hnot, eq_comm]
    · obtain ⟨given', hgiven', hvalues⟩ := ih hnames.2 hothers hrest
      refine ⟨given', hgiven', fun v => ?_⟩
      have hne : name ≠ first := by
        rintro rfl
        exact hnames.1 (List.mem_map.2 ⟨_, hrest, rfl⟩)
      rw [List.mem_append, ← hvalues]
      simp [Ne.symm hne]

/-! ### Patches that carry declared members -/

/-- Values that stand for missing members read as themselves and take the place of anything. -/
structure Stands (shape : Shape) (d : Json) : Prop where
  leaf : d.isLeaf = true
  again : shape.normal? d = some d

/-- A patch with these values for the declared members, and perhaps with other members. -/
structure Carries (fields : List Field) (values ps : List (String × Json)) : Prop where
  keys : (ps.map Prod.fst).Nodup
  values_subset : values ⊆ ps
  others : ∀ m ∈ ps, m.1 ∈ fields.map Prod.fst → m ∈ values

theorem carries_self (hnames : (fields.map Prod.fst).Nodup)
    (h : fieldsIn? fields ms = some values) : Carries fields values values where
  keys := hnames.sublist (names_of_fieldsIn? h)
  values_subset := List.Subset.refl _
  others _ hm _ := hm

/-- A written value reads as itself, alone and in the place of what it was read of. -/
theorem reads_of_given {given : Option Json} (hshape : Settled shape.normal?)
    (hdefault : ∀ d ∈ default, Stands shape d)
    (hgiven : nullable? shape.normal? j = some given) (hv : (given <|> default) = some v) :
    nullable? shape.normal? v = some (some v) ∧
      nullable? shape.normal? (mergePatch j v) = some (some v) ∧ v ≠ .null := by
  cases given with
  | none =>
    have hstands := hdefault v hv
    have hne := ne_null_of_isLeaf hstands.leaf
    have hread : nullable? shape.normal? v = some (some v) := by
      rw [nullable?_of_ne_null hne, hstands.again, Option.map_some]
    rw [mergePatch_of_isLeaf hstands.leaf]
    exact ⟨hread, hread, hne⟩
  | some w =>
    cases hv
    have hread := read_of_nullable? hgiven
    have hne := hshape.ne_null hread
    refine ⟨?_, ?_, hne⟩
    · rw [nullable?_of_ne_null hne, hshape.again hread, Option.map_some]
    · rw [nullable?_of_ne_null (mergePatch_ne_null j hne), hshape.merged hread, Option.map_some]

section

variable (hnames : (fields.map Prod.fst).Nodup) (h : fieldsIn? fields ms = some values)
include hnames h

/-- What a patch does to a declared member. -/
theorem valuesAt_carried (hps : Carries fields values ps)
    (hmem : (name, default, shape) ∈ fields) (hshape : Settled shape.normal?)
    (hdefault : ∀ d ∈ default, Stands shape d) :
    ∃ given, readAt name shape.normal? (.record ms) = some given ∧
      ((given <|> default) = none ∧
          valuesAt name (mergePatch (.record ms) (.record ps)) = valuesAt name (.record ms) ∨
        ∃ v, (given <|> default) = some v ∧
          valuesAt name (mergePatch (.record ms) (.record ps)) =
            [mergePatch (valueAt name (.record ms)) v]) := by
  obtain ⟨given, hgiven, hvalues⟩ := mem_of_fieldsIn? hnames h hmem
  refine ⟨given, hgiven, ?_⟩
  cases hv : given <|> default with
  | none =>
    refine .inl ⟨rfl, valuesAt_mergePatch_of_not_mem (fun hps' => ?_) _⟩
    obtain ⟨m, hm, rfl⟩ := List.mem_map.1 hps'
    have hvalue := (hvalues m.2).1 (hps.others m hm (List.mem_map_of_mem hmem))
    cases hvalue.symm.trans hv
  | some v =>
    have hne := (reads_of_given hshape hdefault (nullable?_valueAt hgiven) hv).2.2
    refine .inr ⟨v, rfl, valuesAt_mergePatch_of_mem hps.keys ?_ hne _⟩
    exact hps.values_subset ((hvalues v).2 hv)

variable (hfields : ∀ name default shape, (name, default, shape) ∈ fields →
  Settled shape.normal? ∧ ∀ d ∈ default, Stands shape d)
include hfields

theorem fieldsIn?_mergePatch (hps : Carries fields values ps)
    (hms' : mergePatch (.record ms) (.record ps) = .record ms') :
    fieldsIn? fields ms' = some values := by
  refine fieldsIn?_of_reads h fun name default shape hmem given hgiven => ?_
  obtain ⟨hshape, hdefault⟩ := hfields name default shape hmem
  obtain ⟨_, hgiven', hcarried⟩ := valuesAt_carried hnames h hps hmem hshape hdefault
  cases hgiven'.symm.trans hgiven
  rw [hms'] at hcarried
  rcases hcarried with ⟨-, hsame⟩ | ⟨v, hv, hone⟩
  · exact ⟨given, by rw [readAt_congr hsame, hgiven], rfl⟩
  · have hread := (reads_of_given hshape hdefault (nullable?_valueAt hgiven) hv).2.1
    exact ⟨some v, by rw [readAt_of_single hone, hread], by rw [hv]; rfl⟩

theorem fieldsIn?_again : fieldsIn? fields values = some values := by
  refine fieldsIn?_of_reads h fun name default shape hmem given hgiven => ?_
  obtain ⟨hshape, hdefault⟩ := hfields name default shape hmem
  obtain ⟨_, hgiven', hvalues⟩ := mem_of_fieldsIn? hnames h hmem
  cases hgiven'.symm.trans hgiven
  cases hv : given <|> default with
  | none =>
    have hnot : name ∉ values.map Prod.fst := by
      intro hvalue
      obtain ⟨m, hm, rfl⟩ := List.mem_map.1 hvalue
      cases ((hvalues m.2).1 hm).symm.trans hv
    refine ⟨none, ?_, ?_⟩
    · rw [readAt, valuesAt_of_not_mem hnot]
      rfl
    · cases given with
      | none => exact hv
      | some w => cases hv
  | some v =>
    have hone := valuesAt_of_mem (hnames.sublist (names_of_fieldsIn? h)) ((hvalues v).2 hv)
    have hread := (reads_of_given hshape hdefault (nullable?_valueAt hgiven) hv).1
    exact ⟨some v, by rw [readAt_of_single hone, hread], rfl⟩

end

theorem normal?_record_iff : normal? (.record fields) j = some v ↔
    ∃ ms values, j = .record ms ∧ fieldsIn? fields ms = some values ∧ v = .record values := by
  simp only [normal?, Option.bind_eq_bind, Option.bind_eq_some_iff, Option.pure_def,
    Option.some.injEq, members?_eq_some, eq_comm (b := v)]
  constructor
  · rintro ⟨ms, hms, values, hvalues, hv⟩
    exact ⟨ms, values, hms, hvalues, hv⟩
  · rintro ⟨ms, values, hms, hvalues, hv⟩
    exact ⟨ms, hms, values, hvalues, hv⟩

theorem settled_record (hnames : (fields.map Prod.fst).Nodup)
    (hfields : ∀ name default shape, (name, default, shape) ∈ fields →
      Settled shape.normal? ∧ ∀ d ∈ default, Stands shape d) :
    Settled (normal? (.record fields)) := by
  constructor
  · intro j v h
    obtain ⟨ms, values, -, -, rfl⟩ := normal?_record_iff.1 h
    exact record_ne_null _
  · intro j v h
    obtain ⟨ms, values, -, hvalues, rfl⟩ := normal?_record_iff.1 h
    have hagain := fieldsIn?_again hnames hvalues hfields
    exact normal?_record_iff.2 ⟨values, values, rfl, hagain, rfl⟩
  · intro j v h
    obtain ⟨ms, values, rfl, hvalues, rfl⟩ := normal?_record_iff.1 h
    obtain ⟨ms', hms'⟩ := exists_record_mergePatch ms values
    have hmerged := fieldsIn?_mergePatch hnames hvalues hfields (carries_self hnames hvalues) hms'
    exact normal?_record_iff.2 ⟨ms', values, hms', hmerged, rfl⟩

/-! ### Regular shapes -/

mutual

/-- Whether declared members have different names, and what stands for a missing one is in order. -/
def isRegular : Shape → Bool
  | .list item => item.isRegular
  | .record fields => (fields.map Prod.fst).Nodup && areRegular fields
  | _ => true

def areRegular : List Field → Bool
  | [] => true
  | (_, default, shape) :: rest =>
    (default.all fun d => d.isLeaf && shape.normal? d = some d) && shape.isRegular &&
      areRegular rest

end

theorem isRegular_of_mem (h : areRegular fields = true) (hmem : (name, default, shape) ∈ fields) :
    shape.isRegular = true := by
  induction fields with
  | nil => cases hmem
  | cons field rest ih =>
    simp only [areRegular, Bool.and_eq_true] at h
    rcases List.mem_cons.1 hmem with heq | hrest
    · cases heq
      exact h.1.2
    · exact ih h.2 hrest

mutual

theorem settled : ∀ {shape : Shape}, shape.isRegular = true → Settled shape.normal?
  | .text, _ => settled_text
  | .flag, _ => settled_flag
  | .integer bits, _ => settled_integer bits
  | .time, _ => settled_time
  | .texts, _ => settled_texts
  | .list item, h => settled_list (settled (by simpa [isRegular] using h))
  | .record fields, h => by
    simp only [isRegular, Bool.and_eq_true, decide_eq_true_eq] at h
    exact settled_record h.1 (settled_fields h.2)

theorem settled_fields : ∀ {fields : List Field}, areRegular fields = true →
    ∀ name default shape, (name, default, shape) ∈ fields →
      Settled shape.normal? ∧ ∀ d ∈ default, Stands shape d
  | [], _, _, _, _, hmem => absurd hmem List.not_mem_nil
  | (_, default, shape) :: rest, h, name, _, _, hmem => by
    simp only [areRegular, Bool.and_eq_true] at h
    rcases List.mem_cons.1 hmem with heq | hrest
    · cases heq
      refine ⟨settled h.1.2, fun d hd => ?_⟩
      have hstands := h.1.1
      rw [Option.mem_def.1 hd] at hstands
      simp only [Option.all_some, Bool.and_eq_true, decide_eq_true_eq] at hstands
      exact ⟨hstands.1, hstands.2⟩
    · exact settled_fields h.2 _ _ _ hrest

end

/-! ### Members that are not declared -/

/-- The value at the end of a path of keys. -/
def within (path : List String) (j : Json) : Json :=
  path.foldl (fun j key => valueAt key j) j

/-- Under a path of declared members there is an object with these declared members. -/
inductive Declares : Shape → List String → List String → Prop
  | here {fields : List Field} : Declares (.record fields) [] (fields.map Prod.fst)
  | under {fields : List Field} {name : String} {default : Option Json} {shape : Shape}
      {path names : List String} (field : (name, default, shape) ∈ fields)
      (rest : Declares shape path names) : Declares (.record fields) (name :: path) names

theorem not_stands_record {d : Json} : ¬Stands (.record fields) d := by
  rintro ⟨hleaf, hagain⟩
  obtain ⟨ms, values, -, -, rfl⟩ := normal?_record_iff.1 hagain
  cases hleaf

variable {path names : List String}

/-- In the objects under a declared member, a patch leaves what is not declared there. -/
theorem sameBut_under (hregular : (record fields).isRegular = true)
    (h : fieldsIn? fields ms = some values) (hps : Carries fields values ps)
    (hmem : (name, default, shape) ∈ fields) (hdeclares : Declares shape path names)
    (hshape : ∀ {j v : Json}, shape.normal? j = some v →
      SameBut names (within path j) (within path (mergePatch j v))) :
    SameBut names (within path (valueAt name (.record ms)))
      (within path (valueAt name (mergePatch (.record ms) (.record ps)))) := by
  simp only [isRegular, Bool.and_eq_true, decide_eq_true_eq] at hregular
  obtain ⟨hsettled, hdefault⟩ := settled_fields hregular.2 _ _ _ hmem
  obtain ⟨given, hgiven, ⟨-, hsame⟩ | ⟨v, hv, hone⟩⟩ :=
    valuesAt_carried hregular.1 h hps hmem hsettled hdefault
  · rw [valueAt_congr hsame]
    exact .refl _ _
  · rw [valueAt_of_single hone]
    cases given with
    | none =>
      cases hdeclares <;> exact absurd (hdefault v hv) not_stands_record
    | some w =>
      cases hv
      have hread := nullable?_valueAt hgiven
      exact hshape (read_of_nullable? hread)

theorem sameBut_within (hdeclares : Declares shape path names) (hregular : shape.isRegular = true)
    (h : shape.normal? j = some v) :
    SameBut names (within path j) (within path (mergePatch j v)) := by
  induction hdeclares generalizing j v with
  | here =>
    obtain ⟨ms, values, -, hvalues, rfl⟩ := normal?_record_iff.1 h
    exact (sameBut_mergePatch j values).mono (names_of_fieldsIn? hvalues).subset
  | under field rest ih =>
    obtain ⟨ms, values, rfl, hvalues, rfl⟩ := normal?_record_iff.1 h
    have hrecord := hregular
    simp only [isRegular, Bool.and_eq_true, decide_eq_true_eq] at hrecord
    refine sameBut_under hregular hvalues (carries_self hrecord.1 hvalues) field rest ?_
    exact fun hread => ih (isRegular_of_mem hrecord.2 field) hread

end Shape

end Json

end PodRoutes
