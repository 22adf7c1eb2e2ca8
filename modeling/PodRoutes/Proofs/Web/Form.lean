import Mathlib.Data.List.Basic
import PodRoutes.Text.Fields
import PodRoutes.Web.Url

/-!
# Forms can be read back

Undoing the escapes of an encoded text gives the bytes of the text (`Form.percentDecode_encode`),
and no separator is left in it. So different parameters have different forms
(`Form.write_injective`), and at one URL they make different targets
(`Url.text_addParameters_injective`).
-/

namespace PodRoutes

theorem Hexadecimal.digit?_upperDigit (n : Nat) : digit? (upperDigit n) = some (n % 16) := by
  have h : ∀ d : Fin 16, digit? (Nat.digitChar d.val).toUpper = some d.val := by decide
  exact h ⟨n % 16, Nat.mod_lt _ (by decide)⟩

namespace Web

/-! ### Bytes of a text -/

theorem toList_toByteArray (bytes : List UInt8) : bytes.toByteArray.toList = bytes := by
  have loop : ∀ (n i : Nat) (done : List UInt8), bytes.length - i = n →
      ByteArray.toList.loop bytes.toByteArray i done = done.reverse ++ bytes.drop i := by
    intro n
    induction n with
    | zero =>
      intro i done hn
      rw [ByteArray.toList.loop, if_neg (by rw [List.size_toByteArray]; omega),
        List.drop_eq_nil_of_le (by omega), List.append_nil]
    | succ n ih =>
      intro i done hn
      have hi : i < bytes.length := by omega
      have hget : bytes.toByteArray.get! i = bytes[i] := by
        rw [ByteArray.get!, List.data_toByteArray]
        simp [hi]
      rw [ByteArray.toList.loop, if_pos (by rw [List.size_toByteArray]; exact hi),
        ih (i + 1) _ (by omega), hget, List.drop_eq_getElem_cons hi, List.reverse_cons,
        List.append_assoc, List.singleton_append]
  exact loop _ 0 [] rfl

theorem bytesOf_eq (c : Char) : bytesOf c = String.utf8EncodeChar c := by
  rw [bytesOf, String.toUTF8, String.toByteArray_singleton, List.utf8Encode, toList_toByteArray,
    List.flatMap_singleton]

theorem flatMap_bytesOf_injective {s t : String}
    (h : s.toList.flatMap bytesOf = t.toList.flatMap bytesOf) : s = t := by
  have bytes : ∀ s : String, (s.toList.flatMap bytesOf).toByteArray = s.toByteArray := by
    intro s
    rw [funext bytesOf_eq]
    exact String.utf8Encode_toList
  rw [← String.toByteArray_inj, ← bytes, ← bytes, h]

/-! ### Escapes -/

theorem Url.percentDecode_escapeByte (b : UInt8) (rest : List Char) :
    percentDecode (escapeByte b ++ rest) = b :: percentDecode rest := by
  have hb : 16 * (b.toNat / 16 % 16) + b.toNat % 16 = b.toNat := by
    have := b.toNat_lt
    omega
  simp only [escapeByte, List.cons_append, List.nil_append]
  rw [percentDecode]
  simp only [Hexadecimal.digit?_upperDigit, hb, UInt8.ofNat_toNat]

theorem Url.percentDecode_cons {c : Char} (h : c ≠ '%') (rest : List Char) :
    percentDecode (c :: rest) = bytesOf c ++ percentDecode rest := by
  rw [percentDecode]
  rintro a b rest' rfl
  exact absurd rfl h

theorem Url.percentDecode_escapeBytes (bytes : List UInt8) (rest : List Char) :
    percentDecode (bytes.flatMap escapeByte ++ rest) = bytes ++ percentDecode rest := by
  induction bytes with
  | nil => rfl
  | cons b bytes ih =>
    rw [List.flatMap_cons, List.append_assoc, percentDecode_escapeByte, ih, List.cons_append]

namespace Form

/-- The text with its plus signs read as blanks. -/
def blanks (cs : List Char) : List Char := cs.map fun c => if c = '+' then ' ' else c

def encodeChar (c : Char) : List Char :=
  if c = ' ' then ['+'] else if isPlain c then [c] else escapeChar c

theorem isPlain_upperDigit (n : Nat) : isPlain (Hexadecimal.upperDigit n) = true := by
  have h : ∀ d : Fin 16, isPlain (Nat.digitChar d.val).toUpper = true := by decide
  exact h ⟨n % 16, Nat.mod_lt _ (by decide)⟩

theorem ne_of_isPlain {c d : Char} (hc : isPlain c = true) (hd : isPlain d = false) : c ≠ d := by
  rintro rfl
  rw [hc] at hd
  cases hd

theorem mem_escapeByte {b : UInt8} {c : Char} (h : c ∈ escapeByte b) :
    c = '%' ∨ isPlain c = true := by
  simp only [escapeByte, List.mem_cons, List.not_mem_nil, or_false] at h
  rcases h with rfl | rfl | rfl
  · exact .inl rfl
  · exact .inr (isPlain_upperDigit _)
  · exact .inr (isPlain_upperDigit _)

theorem mem_encode {s : String} {c : Char} (h : c ∈ encode s) :
    c = '+' ∨ c = '%' ∨ isPlain c = true := by
  obtain ⟨d, -, hd⟩ := List.mem_flatMap.1 h
  split at hd
  · exact .inl (List.mem_singleton.1 hd)
  · split at hd
    · next hplain => exact .inr (.inr (List.mem_singleton.1 hd ▸ hplain))
    · obtain ⟨b, -, hb⟩ := List.mem_flatMap.1 hd
      exact .inr (mem_escapeByte hb)

theorem not_mem_encode {sep : Char} (hplus : sep ≠ '+') (hpercent : sep ≠ '%')
    (hplain : isPlain sep = false) (s : String) : sep ∉ encode s := by
  intro h
  rcases mem_encode h with h | h | h
  · exact hplus h
  · exact hpercent h
  · exact ne_of_isPlain h hplain rfl

theorem blanks_escapeBytes (bytes : List UInt8) :
    blanks (bytes.flatMap escapeByte) = bytes.flatMap escapeByte := by
  refine (List.map_congr_left fun c hc => ?_).trans (List.map_id _)
  obtain ⟨b, -, hb⟩ := List.mem_flatMap.1 hc
  refine if_neg fun he => ?_
  rcases mem_escapeByte hb with h | h
  · exact absurd (h.symm.trans he) (by decide)
  · exact ne_of_isPlain h (by decide) he

theorem percentDecode_encodeChar (c : Char) (rest : List Char) :
    Url.percentDecode (blanks (encodeChar c) ++ rest) = bytesOf c ++ Url.percentDecode rest := by
  rw [encodeChar]
  split
  · next hblank =>
    rw [hblank]
    exact Url.percentDecode_cons (by decide) rest
  · split
    · next hplain =>
      have hc : blanks [c] = [c] := by
        rw [blanks, List.map_singleton, if_neg (ne_of_isPlain hplain (by decide))]
      rw [hc]
      exact Url.percentDecode_cons (ne_of_isPlain hplain (by decide)) rest
    · rw [escapeChar, blanks_escapeBytes, Url.percentDecode_escapeBytes]

theorem percentDecode_encode (s : String) :
    Url.percentDecode (blanks (encode s)) = s.toList.flatMap bytesOf := by
  suffices h : ∀ cs : List Char,
      Url.percentDecode (blanks (cs.flatMap encodeChar)) = cs.flatMap bytesOf from h s.toList
  intro cs
  induction cs with
  | nil =>
    rw [List.flatMap_nil, List.flatMap_nil, blanks, List.map_nil, Url.percentDecode]
  | cons c cs ih =>
    rw [List.flatMap_cons, blanks, List.map_append, ← blanks, percentDecode_encodeChar, ← blanks,
      ih, List.flatMap_cons]

theorem encode_injective {s t : String} (h : encode s = encode t) : s = t := by
  apply flatMap_bytesOf_injective
  rw [← percentDecode_encode, ← percentDecode_encode, h]

/-! ### Pairs and forms -/

theorem writePair_injective : Function.Injective writePair := by
  intro p q h
  have hcut := congrArg (Fields.cut '=') h
  rw [writePair, writePair,
    Fields.cut_append_cons _ (not_mem_encode (by decide) (by decide) (by decide) p.1),
    Fields.cut_append_cons _ (not_mem_encode (by decide) (by decide) (by decide) q.1)] at hcut
  obtain ⟨hname, hvalue⟩ := Prod.mk.inj hcut
  exact Prod.ext (encode_injective hname) (encode_injective (Option.some.inj hvalue))

theorem not_mem_writePair (p : String × String) : '&' ∉ writePair p := by
  have hencode : ∀ s : String, '&' ∉ encode s :=
    not_mem_encode (by decide) (by decide) (by decide)
  rw [writePair, List.mem_append, List.mem_cons]
  rintro (h | h | h)
  · exact hencode _ h
  · exact absurd h (by decide)
  · exact hencode _ h

theorem fields_write (p : String × String) (rest : List (String × String)) :
    Fields.fields '&' (write (p :: rest)) = (p :: rest).map writePair := by
  induction rest generalizing p with
  | nil => exact Fields.fields_eq_of_not_mem (not_mem_writePair p)
  | cons q rest ih =>
    rw [write, Fields.fields_append_cons _ (not_mem_writePair p), ih, List.map_cons,
      List.map_cons, List.map_cons]
    exact List.cons_ne_nil _ _

theorem write_cons_ne_nil (p : String × String) (rest : List (String × String)) :
    write (p :: rest) ≠ [] := by
  intro h
  have hfields := fields_write p rest
  rw [h, Fields.fields, List.map_cons] at hfields
  have hpair : writePair p = [] := (List.cons.inj hfields).1.symm
  rw [writePair] at hpair
  exact List.append_ne_nil_of_right_ne_nil _ (List.cons_ne_nil _ _) hpair

theorem write_injective : Function.Injective write := by
  intro ps qs h
  cases ps with
  | nil =>
    cases qs with
    | nil => rfl
    | cons q qs => exact absurd h.symm (write_cons_ne_nil q qs)
  | cons p ps =>
    cases qs with
    | nil => exact absurd h (write_cons_ne_nil p ps)
    | cons q qs =>
      have hfields := congrArg (Fields.fields '&') h
      rw [fields_write, fields_write] at hfields
      exact List.map_injective_iff.2 writePair_injective hfields

end Form

/-! ### Targets -/

/-- The target of a request says which parameters were added to a URL. -/
theorem Url.text_addParameters_injective (u : Url) :
    Function.Injective fun parameters => (u.addParameters parameters).text := by
  intro ps qs h
  have hwrite := List.append_cancel_left (String.ofList_injective h)
  have hquery := (List.cons.inj hwrite).2
  apply Form.write_injective
  split at hquery
  · exact hquery
  · exact (List.cons.inj (List.append_cancel_left hquery)).2

end Web

end PodRoutes
