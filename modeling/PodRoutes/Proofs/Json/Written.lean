import PodRoutes.Proofs.Json.Grammar

/-!
# Reading what is written

The writer spells a document by the grammar, and so its text is read as the document again
(`parse?_render`). A numeral is spelled if its fraction is a row of digits; nothing else is asked.
-/

namespace PodRoutes.Json

/-! ### Tokens -/

theorem pieceText_escape (c : Char) : PieceText (escape c) (.char c) := by
  rw [escape]
  iterate 7
    split
    · next hc =>
      subst hc
      exact .escape rfl
  split
  · next hlow =>
    have hunit : Piece.ofUnit c.toNat = .char c := by
      rw [Piece.ofUnit, if_neg (by omega), Char.ofNat_toNat]
    rw [← hunit]
    exact .unit (Hexadecimal.number?_fourDigits (by omega))
  · next hquote hbackslash _ _ _ _ _ hlow => exact .plain hquote hbackslash (Nat.not_lt.1 hlow)

theorem piecesText_escapeAll (cs : List Char) : PiecesText (escapeAll cs) (cs.map .char) := by
  induction cs with
  | nil => exact .nil
  | cons c cs ih => exact .cons (pieceText_escape c) ih

theorem paired_char (cs : List Char) : Paired (cs.map .char) cs := by
  induction cs with
  | nil => exact .nil
  | cons c cs ih => exact .char c ih

theorem literalText_writeString (s : Option String) : LiteralText (writeString s) s := by
  cases s with
  | some s => exact .text (piecesText_escapeAll s.toList) (paired_char s.toList)
  | none =>
    have hunit : PieceText "\\ud800".toList (.ofUnit 0xD800) := .unit (by decide)
    exact .broken (.cons hunit .nil) nofun

theorem fractionText_write {ds : List Char} (h : ds.all Char.isDigit = true) :
    FractionText (if ds.isEmpty then [] else '.' :: ds) ds := by
  cases ds with
  | nil => exact .none
  | cons d ds => exact .point ⟨by simp, h⟩

theorem digits_write (n : Nat) : Digits (Decimal.write n) :=
  ⟨Decimal.write_ne_nil n, Decimal.all_isDigit_write n⟩

theorem exponentText_ofNat (e : Nat) :
    ExponentText ('e' :: Decimal.write e) (some (.ofNat e)) := by
  have hplain := ExponentText.plain (.inl rfl) (digits_write e)
  rwa [Decimal.value_write] at hplain

theorem exponentText_negSucc (e : Nat) :
    ExponentText ('e' :: '-' :: Decimal.write (e + 1)) (some (.negSucc e)) := by
  have hminus := ExponentText.minus (.inl rfl) (digits_write (e + 1))
  rwa [Decimal.value_write] at hminus

theorem numeralText_write {n : Numeral} (h : n.fraction.all Char.isDigit = true) :
    NumeralText n.write n := by
  obtain ⟨negative, whole, fraction, power⟩ := n
  have hpoint := fractionText_write h
  suffices hunsigned : UnsignedText negative (Numeral.write ⟨false, whole, fraction, power⟩)
      ⟨negative, whole, fraction, power⟩ by
    cases negative with
    | false => exact .plain hunsigned
    | true => exact .minus hunsigned
  rw [Numeral.write, List.append_assoc]
  rcases power with _ | e | e
  · exact .mk whole hpoint .none
  · exact .mk whole hpoint (exponentText_ofNat e)
  · exact .mk whole hpoint (exponentText_negSucc e)

/-! ### Documents -/

mutual

/-- The fractions of all numerals are rows of digits. -/
def Writable : Json → Prop
  | .number n => n.fraction.all Char.isDigit = true
  | .array vs => WritableItems vs
  | .object ms => WritableMembers ms
  | _ => True

def WritableItems : List Json → Prop
  | [] => True
  | v :: vs => Writable v ∧ WritableItems vs

def WritableMembers : List (Option String × Json) → Prop
  | [] => True
  | (_, v) :: ms => Writable v ∧ WritableMembers ms

end

theorem blanks_nil : Blanks [] := nofun

theorem document_of_spells {cs : List Char} {v : Json} (h : Spells cs v) : Document cs v := by
  have hdocument := Document.mk blanks_nil h blanks_nil
  rwa [List.nil_append, List.append_nil] at hdocument

theorem member_of_spells (key : Option String) {cs : List Char} {v : Json} (h : Spells cs v) :
    Member (writeString key ++ ':' :: cs) (key, v) :=
  .mk blanks_nil (literalText_writeString key) blanks_nil (document_of_spells h)

mutual

theorem spells_write : ∀ v : Json, Writable v → Spells v.write v
  | .null, _ => .nullWord
  | .bool true, _ => .trueWord
  | .bool false, _ => .falseWord
  | .number _, h => .number (numeralText_write h)
  | .string s, _ => .string (literalText_writeString s)
  | .array [], _ => .noItems blanks_nil
  | .array (v :: vs), h => .array (items_write (v :: vs) (List.cons_ne_nil v vs) h)
  | .object [], _ => .noMembers blanks_nil
  | .object (m :: ms), h => .object (members_write (m :: ms) (List.cons_ne_nil m ms) h)

theorem items_write : ∀ vs : List Json, vs ≠ [] → WritableItems vs → Items (writeItems vs) vs
  | [], hne, _ => absurd rfl hne
  | [v], _, h => .last (document_of_spells (spells_write v h.1))
  | v :: w :: vs, _, h => .cons (document_of_spells (spells_write v h.1))
    (items_write (w :: vs) (List.cons_ne_nil w vs) h.2)

theorem members_write : ∀ ms : List (Option String × Json), ms ≠ [] → WritableMembers ms →
    Members (writeMembers ms) ms
  | [], hne, _ => absurd rfl hne
  | [(key, v)], _, h => .last (member_of_spells key (spells_write v h.1))
  | (key, v) :: m :: ms, _, h => by
    have hfirst := member_of_spells key (spells_write v h.1)
    have hrow := Members.cons hfirst (members_write (m :: ms) (List.cons_ne_nil m ms) h.2)
    simpa [writeMembers] using hrow

end

theorem parse?_render {v : Json} (h : Writable v) : parse? v.render = some v := by
  rw [parse?_eq_some_iff, render, String.toList_ofList]
  exact document_of_spells (spells_write v h)

end PodRoutes.Json
