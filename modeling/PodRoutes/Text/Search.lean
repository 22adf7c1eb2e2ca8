/-!
# Searching a text
-/

namespace PodRoutes.Search

def occurs (pattern : List Char) : List Char → Bool
  | [] => pattern.isEmpty
  | c :: cs => pattern.isPrefixOf (c :: cs) || occurs pattern cs

def occursIn (pattern text : String) : Bool := occurs pattern.toList text.toList

theorem occurs_iff {pattern cs : List Char} :
    occurs pattern cs = true ↔ ∃ before after, cs = before ++ pattern ++ after := by
  induction cs with
  | nil =>
    simp only [occurs, List.isEmpty_iff]
    constructor
    · rintro rfl
      exact ⟨[], [], rfl⟩
    · rintro ⟨b, a, h⟩
      have h' := h.symm
      simp only [List.append_eq_nil_iff] at h'
      exact h'.1.2
  | cons c cs ih =>
    simp only [occurs, Bool.or_eq_true, ih, List.isPrefixOf_iff_prefix]
    constructor
    · rintro (⟨a, h⟩ | ⟨b, a, h⟩)
      · exact ⟨[], a, by simp [h]⟩
      · exact ⟨c :: b, a, by simp [h]⟩
    · rintro ⟨b, a, h⟩
      cases b with
      | nil => exact Or.inl ⟨a, by simpa using h.symm⟩
      | cons d b =>
        refine Or.inr ⟨b, a, ?_⟩
        simp only [List.cons_append, List.cons.injEq] at h
        exact h.2

end PodRoutes.Search
