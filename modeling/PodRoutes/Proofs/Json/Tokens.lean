import PodRoutes.Json.Reader
import PodRoutes.Proofs.Text.Decimal

/-!
# Blanks, literals and numerals

The tokens of JSON as relations between a text and what it stands for. The readers of the tokens
take exactly these texts: what they take off the front of a text is a token (`of_pieces`,
`of_unsigned`), and a token is taken off whole (`pieces_append`, `unsigned_append`).
-/

namespace PodRoutes.Json

/-! ### Blanks -/

def Blanks (cs : List Char) : Prop := ∀ c ∈ cs, isBlank c = true

theorem Blanks.append {cs ds : List Char} (hcs : Blanks cs) (hds : Blanks ds) :
    Blanks (cs ++ ds) := by
  intro c hc
  rcases List.mem_append.1 hc with hc | hc
  · exact hcs c hc
  · exact hds c hc

theorem skipBlanks_append {blanks : List Char} (h : Blanks blanks) (cs : List Char) :
    skipBlanks (blanks ++ cs) = skipBlanks cs := by
  induction blanks with
  | nil => rfl
  | cons c blanks ih =>
    rw [Blanks, List.forall_mem_cons] at h
    rw [List.cons_append, skipBlanks, if_pos h.1, ih h.2]

theorem skipBlanks_cons {c : Char} (h : isBlank c = false) (cs : List Char) :
    skipBlanks (c :: cs) = c :: cs := by
  simp [skipBlanks, h]

theorem exists_blanks (cs : List Char) :
    ∃ blanks, Blanks blanks ∧ cs = blanks ++ skipBlanks cs := by
  induction cs with
  | nil => exact ⟨[], by simp [Blanks], rfl⟩
  | cons c cs ih =>
    obtain ⟨blanks, hblanks, hcs⟩ := ih
    rw [skipBlanks]
    split
    · next hc =>
      refine ⟨c :: blanks, List.forall_mem_cons.2 ⟨hc, hblanks⟩, ?_⟩
      rw [List.cons_append, ← hcs]
    · exact ⟨[], by simp [Blanks], rfl⟩

theorem skipBlanks_skipBlanks (cs : List Char) : skipBlanks (skipBlanks cs) = skipBlanks cs := by
  obtain ⟨blanks, hblanks, hcs⟩ := exists_blanks cs
  rw [← skipBlanks_append hblanks, ← hcs]

/-! ### String literals -/

/-- A piece of a literal: a character that may stand for itself, an escape, or the number of a
character or of half a character. -/
inductive PieceText : List Char → Piece → Prop
  | plain {c : Char} (quote : c ≠ '"') (backslash : c ≠ '\\') (printed : 32 ≤ c.toNat) :
    PieceText [c] (.char c)
  | escape {e c : Char} (h : escaped? e = some c) : PieceText ['\\', e] (.char c)
  | unit {a b c d : Char} {n : Nat} (h : Hexadecimal.number? [a, b, c, d] = some n) :
    PieceText ['\\', 'u', a, b, c, d] (.ofUnit n)

inductive PiecesText : List Char → List Piece → Prop
  | nil : PiecesText [] []
  | cons {cs ds : List Char} {p : Piece} {ps : List Piece} (first : PieceText cs p)
    (rest : PiecesText ds ps) : PiecesText (cs ++ ds) (p :: ps)

/-- The characters that pieces come to, with high and low halves in pairs. -/
inductive Paired : List Piece → List Char → Prop
  | nil : Paired [] []
  | char {ps : List Piece} {cs : List Char} (c : Char) (rest : Paired ps cs) :
    Paired (.char c :: ps) (c :: cs)
  | pair {ps : List Piece} {cs : List Char} {high low : Nat} {c : Char}
    (h : pair? high low = some c) (rest : Paired ps cs) :
    Paired (.half high :: .half low :: ps) (c :: cs)

/-- The text is a literal, which stands for no text where a half has no other half. -/
inductive LiteralText : List Char → Option String → Prop
  | text {body : List Char} {ps : List Piece} {s : String} (pieces : PiecesText body ps)
    (paired : Paired ps s.toList) : LiteralText ('"' :: (body ++ ['"'])) (some s)
  | broken {body : List Char} {ps : List Piece} (pieces : PiecesText body ps)
    (unpaired : ∀ cs, ¬Paired ps cs) : LiteralText ('"' :: (body ++ ['"'])) none

theorem pieces_append {body : List Char} {ps : List Piece} (h : PiecesText body ps)
    (rest : List Char) : pieces (body ++ '"' :: rest) = some (ps, rest) := by
  induction h with
  | nil => simp [pieces]
  | cons first _ ih =>
    cases first with
    | plain hquote hbackslash hprinted =>
      simp [pieces, hbackslash, Nat.not_lt.2 hprinted, ih]
    | @escape e c he =>
      have hu : e ≠ 'u' := by
        rintro rfl
        cases he
      simp [pieces, hu, he, ih]
    | unit hn => simp [pieces, hn, ih]

theorem of_pieces {cs rest : List Char} {ps : List Piece} (h : pieces cs = some (ps, rest)) :
    ∃ body, PiecesText body ps ∧ cs = body ++ '"' :: rest := by
  fun_induction pieces cs generalizing ps with
  | case1 => cases h
  | case2 rest =>
    cases h
    exact ⟨[], .nil, rfl⟩
  | case3 a b c d tail ih =>
    obtain ⟨n, hn, h⟩ := Option.bind_eq_some_iff.1 h
    obtain ⟨⟨qs, after⟩, hqs, h⟩ := Option.bind_eq_some_iff.1 h
    cases h
    obtain ⟨body, hbody, rfl⟩ := ih hqs
    exact ⟨_, .cons (.unit hn) hbody, rfl⟩
  | case4 e tail _ ih =>
    obtain ⟨c, hc, h⟩ := Option.bind_eq_some_iff.1 h
    obtain ⟨⟨qs, after⟩, hqs, h⟩ := Option.bind_eq_some_iff.1 h
    cases h
    obtain ⟨body, hbody, rfl⟩ := ih hqs
    exact ⟨_, .cons (.escape hc) hbody, rfl⟩
  | case5 => cases h
  | case6 c tail hquote _ _ hplain ih =>
    obtain ⟨⟨qs, after⟩, hqs, h⟩ := Option.bind_eq_some_iff.1 h
    cases h
    obtain ⟨body, hbody, rfl⟩ := ih hqs
    rw [not_or, Nat.not_lt] at hplain
    exact ⟨_, .cons (.plain hquote hplain.1 hplain.2) hbody, rfl⟩

theorem assemble_eq_some_iff {ps : List Piece} {cs : List Char} :
    assemble ps = some cs ↔ Paired ps cs := by
  constructor
  · intro h
    fun_induction assemble ps generalizing cs with
    | case1 =>
      cases h
      exact .nil
    | case2 c ps ih =>
      obtain ⟨ds, hds, rfl⟩ := Option.map_eq_some_iff.1 h
      exact .char c (ih hds)
    | case3 high low ps ih =>
      obtain ⟨c, hc, h⟩ := Option.bind_eq_some_iff.1 h
      obtain ⟨ds, hds, rfl⟩ := Option.map_eq_some_iff.1 h
      exact .pair hc (ih hds)
    | case4 => cases h
  · intro h
    induction h with
    | nil => rfl
    | char c _ ih => simp [assemble, ih]
    | pair hc _ ih => simp [assemble, hc, ih]

theorem literal_append {cs : List Char} {s : Option String} (h : LiteralText ('"' :: cs) s)
    (rest : List Char) : literal (cs ++ rest) = some (s, rest) := by
  cases h with
  | text hpieces hpaired =>
    simp [literal, pieces_append hpieces, assemble_eq_some_iff.2 hpaired]
  | @broken body ps hpieces hunpaired =>
    have hnone : assemble ps = none := by
      cases hps : assemble ps with
      | none => rfl
      | some cs => exact absurd (assemble_eq_some_iff.1 hps) (hunpaired cs)
    simp [literal, pieces_append hpieces, hnone]

theorem of_literal {cs rest : List Char} {s : Option String} (h : literal cs = some (s, rest)) :
    ∃ body, LiteralText ('"' :: body) s ∧ cs = body ++ rest := by
  obtain ⟨⟨ps, after⟩, hpieces, h⟩ := Option.bind_eq_some_iff.1 h
  cases h
  obtain ⟨body, hbody, rfl⟩ := of_pieces hpieces
  refine ⟨body ++ ['"'], ?_, by simp⟩
  cases hps : assemble ps with
  | none =>
    refine .broken hbody fun cs hpaired => ?_
    rw [assemble_eq_some_iff.2 hpaired] at hps
    cases hps
  | some cs => exact .text hbody (by simpa using assemble_eq_some_iff.1 hps)

/-! ### Numerals -/

def Digits (ds : List Char) : Prop := ds ≠ [] ∧ ds.all Char.isDigit = true

inductive FractionText : List Char → List Char → Prop
  | none : FractionText [] []
  | point {ds : List Char} (digits : Digits ds) : FractionText ('.' :: ds) ds

inductive ExponentText : List Char → Option Int → Prop
  | none : ExponentText [] none
  | plain {mark : Char} {ds : List Char} (letter : mark = 'e' ∨ mark = 'E') (digits : Digits ds) :
    ExponentText (mark :: ds) (some (Decimal.value ds))
  | plus {mark : Char} {ds : List Char} (letter : mark = 'e' ∨ mark = 'E') (digits : Digits ds) :
    ExponentText (mark :: '+' :: ds) (some (Decimal.value ds))
  | minus {mark : Char} {ds : List Char} (letter : mark = 'e' ∨ mark = 'E') (digits : Digits ds) :
    ExponentText (mark :: '-' :: ds) (some (-Decimal.value ds))

inductive UnsignedText (negative : Bool) : List Char → Numeral → Prop
  | mk {f fraction e : List Char} {power : Option Int} (whole : Nat)
    (point : FractionText f fraction) (exponent : ExponentText e power) :
    UnsignedText negative (Decimal.write whole ++ (f ++ e)) ⟨negative, whole, fraction, power⟩

inductive NumeralText : List Char → Numeral → Prop
  | plain {cs : List Char} {n : Numeral} (h : UnsignedText false cs n) : NumeralText cs n
  | minus {cs : List Char} {n : Numeral} (h : UnsignedText true cs n) : NumeralText ('-' :: cs) n

/-- A numeral that stands in front of the text is at its end there. -/
def Ends (rest : List Char) : Prop :=
  ∀ c, rest.head? = some c → c.isDigit = false ∧ c ≠ '.' ∧ c ≠ 'e' ∧ c ≠ 'E'

theorem spanDigits_append {ds rest : List Char} (hds : ds.all Char.isDigit = true)
    (hrest : ∀ c, rest.head? = some c → c.isDigit = false) :
    spanDigits (ds ++ rest) = (ds, rest) := by
  induction ds with
  | nil =>
    cases rest with
    | nil => rfl
    | cons c rest => simp [spanDigits, hrest c rfl]
  | cons d ds ih =>
    rw [List.all_cons, Bool.and_eq_true] at hds
    simp [spanDigits, hds.1, ih hds.2]

theorem of_spanDigits {cs ds rest : List Char} (h : spanDigits cs = (ds, rest)) :
    ds.all Char.isDigit = true ∧ cs = ds ++ rest := by
  induction cs generalizing ds with
  | nil =>
    cases h
    exact ⟨rfl, rfl⟩
  | cons c cs ih =>
    rw [spanDigits] at h
    split at h
    · next hc =>
      cases hspan : spanDigits cs with
      | mk digits tail =>
        rw [hspan] at h
        cases h
        obtain ⟨hdigits, rfl⟩ := ih hspan
        simp [hc, hdigits]
    · cases h
      exact ⟨rfl, rfl⟩

theorem fraction_append {f ds rest : List Char} (h : FractionText f ds)
    (hrest : ∀ c, rest.head? = some c → c.isDigit = false ∧ c ≠ '.') :
    fraction (f ++ rest) = some (ds, rest) := by
  cases h with
  | none =>
    cases rest with
    | nil => rfl
    | cons c rest => simp [fraction, (hrest c rfl).2]
  | point hds =>
    have hspan := spanDigits_append hds.2 fun c hc => (hrest c hc).1
    simp [fraction, hspan, hds.1]

theorem of_fraction {cs ds rest : List Char} (h : fraction cs = some (ds, rest)) :
    ∃ f, FractionText f ds ∧ cs = f ++ rest := by
  rw [fraction.eq_def] at h
  split at h
  · next tail =>
    cases hspan : spanDigits tail with
    | mk digits after =>
      obtain ⟨hdigits, rfl⟩ := of_spanDigits hspan
      simp only [hspan] at h
      split at h
      · cases h
      · next hne =>
        cases h
        exact ⟨_, .point ⟨by simpa using hne, hdigits⟩, rfl⟩
  · cases h
    exact ⟨[], .none, rfl⟩

theorem FractionText.head {f ds rest : List Char} (h : FractionText f ds)
    (hrest : ∀ c, rest.head? = some c → c.isDigit = false) :
    ∀ c, (f ++ rest).head? = some c → c.isDigit = false := by
  cases h with
  | none => exact hrest
  | point =>
    rintro _ ⟨⟩
    rfl

theorem exponentDigits_append {ds rest : List Char} (negative : Bool) (hds : Digits ds)
    (hrest : ∀ c, rest.head? = some c → c.isDigit = false) :
    exponentDigits negative (ds ++ rest) =
      some (some (if negative then -(Decimal.value ds : Int) else Decimal.value ds), rest) := by
  simp [exponentDigits, spanDigits_append hds.2 hrest, hds.1]

theorem of_exponentDigits {negative : Bool} {cs rest : List Char} {power : Option Int}
    (h : exponentDigits negative cs = some (power, rest)) : ∃ ds, Digits ds ∧ cs = ds ++ rest ∧
      power = some (if negative then -(Decimal.value ds : Int) else Decimal.value ds) := by
  cases hspan : spanDigits cs with
  | mk ds after =>
    obtain ⟨hdigits, rfl⟩ := of_spanDigits hspan
    simp only [exponentDigits, hspan] at h
    split at h
    · cases h
    · next hne =>
      cases h
      exact ⟨ds, ⟨by simpa using hne, hdigits⟩, rfl, rfl⟩

theorem exponent_append {e rest : List Char} {power : Option Int} (h : ExponentText e power)
    (hrest : Ends rest) : exponent (e ++ rest) = some (power, rest) := by
  have hdigit : ∀ c, rest.head? = some c → c.isDigit = false := fun c hc => (hrest c hc).1
  cases h with
  | none =>
    cases rest with
    | nil => rfl
    | cons c rest =>
      obtain ⟨-, -, he, hE⟩ := hrest c rfl
      simp [exponent, he, hE]
  | @plain mark ds hmark hds =>
    have hread := exponentDigits_append false hds hdigit
    obtain ⟨d, ds, rfl⟩ := List.exists_cons_of_ne_nil hds.1
    have hd : d.isDigit = true := List.all_eq_true.1 hds.2 d (List.mem_cons_self ..)
    rw [List.cons_append, exponent.eq_def]
    dsimp only
    rw [if_pos hmark]
    split
    · next heq =>
      cases heq
      exact absurd hd (by decide)
    · next heq =>
      cases heq
      exact absurd hd (by decide)
    · exact hread
  | plus hmark hds => simp [exponent, hmark, exponentDigits_append false hds hdigit]
  | minus hmark hds => simp [exponent, hmark, exponentDigits_append true hds hdigit]

theorem of_exponent {cs rest : List Char} {power : Option Int}
    (h : exponent cs = some (power, rest)) : ∃ e, ExponentText e power ∧ cs = e ++ rest := by
  cases cs with
  | nil =>
    cases h
    exact ⟨[], .none, rfl⟩
  | cons c cs =>
    rw [exponent.eq_def] at h
    dsimp only at h
    split at h
    · next hmark =>
      split at h
      · obtain ⟨ds, hds, rfl, rfl⟩ := of_exponentDigits h
        exact ⟨_, .plus hmark hds, rfl⟩
      · obtain ⟨ds, hds, rfl, rfl⟩ := of_exponentDigits h
        exact ⟨_, .minus hmark hds, rfl⟩
      · obtain ⟨ds, hds, rfl, rfl⟩ := of_exponentDigits h
        exact ⟨_, .plain hmark hds, rfl⟩
    · cases h
      exact ⟨[], .none, rfl⟩

theorem ExponentText.head {e rest : List Char} {power : Option Int} (h : ExponentText e power)
    (hrest : Ends rest) : ∀ c, (e ++ rest).head? = some c → c.isDigit = false ∧ c ≠ '.' := by
  have hletter : ∀ mark : Char, mark = 'e' ∨ mark = 'E' → mark.isDigit = false ∧ mark ≠ '.' := by
    rintro _ (rfl | rfl) <;> decide
  cases h with
  | none => exact fun c hc => ⟨(hrest c hc).1, (hrest c hc).2.1⟩
  | plain hmark | plus hmark | minus hmark =>
    rintro _ ⟨⟩
    exact hletter _ hmark

theorem unsigned_append {negative : Bool} {cs rest : List Char} {n : Numeral}
    (h : UnsignedText negative cs n) (hrest : Ends rest) :
    unsigned negative (cs ++ rest) = some (.number n, rest) := by
  obtain ⟨whole, hpoint, hexponent⟩ := h
  rename_i f fraction e power
  have hafter : ∀ c, (e ++ rest).head? = some c → c.isDigit = false ∧ c ≠ '.' :=
    hexponent.head hrest
  have hpointed : ∀ c, (f ++ (e ++ rest)).head? = some c → c.isDigit = false :=
    hpoint.head fun c hc => (hafter c hc).1
  have hlead : ¬((Decimal.write whole).isEmpty = true ∨
      (Decimal.write whole).head? = some '0' ∧ (Decimal.write whole).length ≠ 1) := by
    rintro (hempty | ⟨hzero, hlength⟩)
    · exact Decimal.write_ne_nil whole (List.isEmpty_iff.1 hempty)
    · exact hlength (Decimal.length_write_of_head hzero)
  rw [List.append_assoc, List.append_assoc, unsigned,
    spanDigits_append (Decimal.all_isDigit_write whole) hpointed]
  dsimp only
  rw [if_neg hlead, fraction_append hpoint hafter]
  simp [exponent_append hexponent hrest, Decimal.value_write]

theorem of_unsigned {negative : Bool} {cs rest : List Char} {v : Json}
    (h : unsigned negative cs = some (v, rest)) :
    ∃ body n, UnsignedText negative body n ∧ v = .number n ∧ cs = body ++ rest := by
  cases hspan : spanDigits cs with
  | mk ds after =>
    obtain ⟨hdigits, rfl⟩ := of_spanDigits hspan
    simp only [unsigned, hspan] at h
    split at h
    · cases h
    · next hlead =>
      obtain ⟨⟨fraction, middle⟩, hpoint, h⟩ := Option.bind_eq_some_iff.1 h
      obtain ⟨⟨power, tail⟩, hexponent, h⟩ := Option.bind_eq_some_iff.1 h
      cases h
      obtain ⟨f, hf, rfl⟩ := of_fraction hpoint
      obtain ⟨e, he, rfl⟩ := of_exponent hexponent
      rw [not_or, not_and_not_right] at hlead
      have hwhole : Decimal.write (Decimal.value ds) = ds :=
        Decimal.write_value (by simpa using hlead.1) hdigits hlead.2
      have hbody : UnsignedText negative (Decimal.write (Decimal.value ds) ++ (f ++ e)) _ :=
        .mk (Decimal.value ds) hf he
      rw [hwhole] at hbody
      exact ⟨_, _, hbody, rfl, by simp⟩

end PodRoutes.Json
