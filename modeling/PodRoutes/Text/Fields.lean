/-!
# Cutting texts at a separator

A text is cut at the first separator (`cut`) or at every one (`fields`). Joining the fields with
the separator gives the text back (`join_fields`).
-/

namespace PodRoutes.Fields

/-! ### The first separator -/

/-- The part before the first separator, and the part after it if there is one. -/
def cut (sep : Char) : List Char → List Char × Option (List Char)
  | [] => ([], none)
  | c :: cs =>
    if c = sep then ([], some cs) else
      let (before, after) := cut sep cs
      (c :: before, after)

theorem cut_eq_of_not_mem {sep : Char} {cs : List Char} (h : sep ∉ cs) :
    cut sep cs = (cs, none) := by
  induction cs with
  | nil => rfl
  | cons c cs ih =>
    simp only [List.mem_cons, not_or] at h
    have hc : ¬c = sep := fun e => h.1 e.symm
    simp [cut, hc, ih h.2]

theorem cut_append_cons {sep : Char} {before : List Char} (after : List Char)
    (h : sep ∉ before) : cut sep (before ++ sep :: after) = (before, some after) := by
  induction before with
  | nil => simp [cut]
  | cons c cs ih =>
    simp only [List.mem_cons, not_or] at h
    have hc : ¬c = sep := fun e => h.1 e.symm
    simp [cut, hc, ih h.2]

theorem cut_eq_none_iff {sep : Char} {cs before : List Char} :
    cut sep cs = (before, none) ↔ cs = before ∧ sep ∉ before := by
  constructor
  · intro h
    induction cs generalizing before with
    | nil =>
      cases h
      simp
    | cons c cs ih =>
      rw [cut] at h
      split at h
      · cases h
      · next hc =>
        cases hcut : cut sep cs with
        | mk front after =>
          rw [hcut] at h
          cases h
          obtain ⟨rfl, hfront⟩ := ih hcut
          simp [Ne.symm hc, hfront]
  · rintro ⟨rfl, h⟩
    exact cut_eq_of_not_mem h

theorem cut_eq_some_iff {sep : Char} {cs before after : List Char} :
    cut sep cs = (before, some after) ↔ cs = before ++ sep :: after ∧ sep ∉ before := by
  constructor
  · intro h
    induction cs generalizing before with
    | nil => cases h
    | cons c cs ih =>
      rw [cut] at h
      split at h
      · next hc =>
        cases h
        simp [hc]
      · next hc =>
        cases hcut : cut sep cs with
        | mk front rest =>
          rw [hcut] at h
          cases h
          obtain ⟨rfl, hfront⟩ := ih hcut
          simp [Ne.symm hc, hfront]
  · rintro ⟨rfl, h⟩
    exact cut_append_cons after h

/-! ### Every separator -/

/-- The parts between the separators; a text without a separator is one part. -/
def fields (sep : Char) : List Char → List (List Char)
  | [] => [[]]
  | c :: cs =>
    if c = sep then [] :: fields sep cs else
      match fields sep cs with
      | [] => [[c]]
      | first :: rest => (c :: first) :: rest

def join (sep : Char) : List (List Char) → List Char
  | [] => []
  | [part] => part
  | part :: rest => part ++ sep :: join sep rest

theorem fields_ne_nil (sep : Char) (cs : List Char) : fields sep cs ≠ [] := by
  cases cs with
  | nil => simp [fields]
  | cons c cs =>
    rw [fields]
    split
    · simp
    · split <;> simp

theorem join_fields (sep : Char) (cs : List Char) : join sep (fields sep cs) = cs := by
  induction cs with
  | nil => rfl
  | cons c cs ih =>
    rw [fields]
    split
    · next h =>
      subst h
      cases hf : fields c cs with
      | nil => exact absurd hf (fields_ne_nil c cs)
      | cons first rest => rw [hf] at ih; simp [join, ih]
    · cases hf : fields sep cs with
      | nil => exact absurd hf (fields_ne_nil sep cs)
      | cons first rest =>
        rw [hf] at ih
        cases rest with
        | nil => simp only [join] at ih ⊢; rw [ih]
        | cons second rest => simp only [join, List.cons_append] at ih ⊢; rw [ih]

theorem fields_eq_of_not_mem {sep : Char} {cs : List Char} (h : sep ∉ cs) :
    fields sep cs = [cs] := by
  induction cs with
  | nil => rfl
  | cons c cs ih =>
    simp only [List.mem_cons, not_or] at h
    have hc : ¬c = sep := fun e => h.1 e.symm
    simp [fields, hc, ih h.2]

theorem fields_append_cons {sep : Char} {part : List Char} (rest : List Char) (h : sep ∉ part) :
    fields sep (part ++ sep :: rest) = part :: fields sep rest := by
  induction part with
  | nil => simp [fields]
  | cons c cs ih =>
    simp only [List.mem_cons, not_or] at h
    have hc : ¬c = sep := fun e => h.1 e.symm
    simp [fields, hc, ih h.2]

theorem fields_join {sep : Char} {parts : List (List Char)} (hne : parts ≠ [])
    (h : ∀ part ∈ parts, sep ∉ part) : fields sep (join sep parts) = parts := by
  induction parts with
  | nil => exact absurd rfl hne
  | cons part rest ih =>
    have hpart := h part (List.mem_cons_self ..)
    cases rest with
    | nil => exact fields_eq_of_not_mem hpart
    | cons next rest =>
      have hrest := ih (by simp) fun p hp => h p (List.mem_cons_of_mem _ hp)
      rw [join, fields_append_cons _ hpart, hrest]
      simp

end PodRoutes.Fields
