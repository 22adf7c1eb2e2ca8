import PodRoutes.Proofs.Json.Tokens

/-!
# The grammar of JSON

A text spells a document by the rules of the grammar, with blanks between the tokens. The reader
takes a text exactly if it spells a document, and gives that document (`parse?_eq_some_iff`). It
takes what is spelled off the front of a text whatever follows (`reads`), and what it takes off is
spelled (`spelt`); both are shown by induction on the bound of the recursion, which a text of the
given length does not reach.
-/

namespace PodRoutes.Json

mutual

/-- The text is a value with no blanks around it. -/
inductive Spells : List Char → Json → Prop
  | nullWord : Spells "null".toList .null
  | trueWord : Spells "true".toList (.bool true)
  | falseWord : Spells "false".toList (.bool false)
  | number {cs : List Char} {n : Numeral} (h : NumeralText cs n) : Spells cs (.number n)
  | string {cs : List Char} {s : Option String} (h : LiteralText cs s) : Spells cs (.string s)
  | noItems {cs : List Char} (h : Blanks cs) : Spells ('[' :: (cs ++ [']'])) (.array [])
  | array {cs : List Char} {vs : List Json} (h : Items cs vs) :
    Spells ('[' :: (cs ++ [']'])) (.array vs)
  | noMembers {cs : List Char} (h : Blanks cs) : Spells ('{' :: (cs ++ ['}'])) (.object [])
  | object {cs : List Char} {ms : List (Option String × Json)} (h : Members cs ms) :
    Spells ('{' :: (cs ++ ['}'])) (.object ms)

/-- The text is a value with blanks around it. -/
inductive Document : List Char → Json → Prop
  | mk {before cs after : List Char} {v : Json} (front : Blanks before) (value : Spells cs v)
    (back : Blanks after) : Document (before ++ (cs ++ after)) v

/-- The text is a row of values with commas between them. -/
inductive Items : List Char → List Json → Prop
  | last {cs : List Char} {v : Json} (h : Document cs v) : Items cs [v]
  | cons {cs ds : List Char} {v : Json} {vs : List Json} (first : Document cs v)
    (rest : Items ds vs) : Items (cs ++ ',' :: ds) (v :: vs)

/-- The text is a key and a value with a colon between them. -/
inductive Member : List Char → Option String × Json → Prop
  | mk {before key after cs : List Char} {s : Option String} {v : Json} (front : Blanks before)
    (literal : LiteralText key s) (back : Blanks after) (value : Document cs v) :
    Member (before ++ (key ++ (after ++ ':' :: cs))) (s, v)

/-- The text is a row of members with commas between them. -/
inductive Members : List Char → List (Option String × Json) → Prop
  | last {cs : List Char} {m : Option String × Json} (h : Member cs m) : Members cs [m]
  | cons {cs ds : List Char} {m : Option String × Json} {ms : List (Option String × Json)}
    (first : Member cs m) (rest : Members ds ms) : Members (cs ++ ',' :: ds) (m :: ms)

end

variable {fuel : Nat}

/-! ### What is read is spelled -/

def SpeltValues (fuel : Nat) : Prop :=
  ∀ {cs v rest}, value fuel cs = some (v, rest) →
    ∃ before core, Blanks before ∧ Spells core v ∧ cs = before ++ (core ++ rest)

def SpeltItems (fuel : Nat) : Prop :=
  ∀ {cs vs rest}, items fuel cs = some (vs, rest) → ∃ body, Items body vs ∧ cs = body ++ ']' :: rest

def SpeltMembers (fuel : Nat) : Prop :=
  ∀ {cs ms rest}, members fuel cs = some (ms, rest) →
    ∃ body, Members body ms ∧ cs = body ++ '}' :: rest

theorem Document.blanks_append {blanks cs : List Char} {v : Json} (h : Document cs v)
    (hblanks : Blanks blanks) : Document (blanks ++ cs) v := by
  obtain ⟨hbefore, hv, hafter⟩ := h
  rw [← List.append_assoc]
  exact .mk (hblanks.append hbefore) hv hafter

theorem Items.blanks_append {blanks cs : List Char} {vs : List Json} (h : Items cs vs)
    (hblanks : Blanks blanks) : Items (blanks ++ cs) vs := by
  cases h with
  | last hv => exact .last (hv.blanks_append hblanks)
  | cons hv hvs =>
    rw [← List.append_assoc]
    exact .cons (hv.blanks_append hblanks) hvs

theorem Member.blanks_append {blanks cs : List Char} {m : Option String × Json} (h : Member cs m)
    (hblanks : Blanks blanks) : Member (blanks ++ cs) m := by
  obtain ⟨hbefore, hkey, hafter, hv⟩ := h
  rw [← List.append_assoc]
  exact .mk (hblanks.append hbefore) hkey hafter hv

theorem Members.blanks_append {blanks cs : List Char} {ms : List (Option String × Json)}
    (h : Members cs ms) (hblanks : Blanks blanks) : Members (blanks ++ cs) ms := by
  cases h with
  | last hm => exact .last (hm.blanks_append hblanks)
  | cons hm hms =>
    rw [← List.append_assoc]
    exact .cons (hm.blanks_append hblanks) hms

/-- A value that has been read and the blanks behind it. -/
theorem SpeltValues.document (hv : SpeltValues fuel) {cs rest : List Char} {v : Json}
    (h : value fuel cs = some (v, rest)) :
    ∃ body, Document body v ∧ cs = body ++ skipBlanks rest := by
  obtain ⟨before, core, hbefore, hcore, rfl⟩ := hv h
  obtain ⟨after, hafter, hrest⟩ := exists_blanks rest
  refine ⟨_, .mk hbefore hcore hafter, ?_⟩
  rw [List.append_assoc, List.append_assoc, ← hrest]

theorem SpeltValues.succ (hitems : SpeltItems fuel) (hmembers : SpeltMembers fuel) :
    SpeltValues (fuel + 1) := by
  intro cs v rest h
  obtain ⟨before, hbefore, hcs⟩ := exists_blanks cs
  refine ⟨before, ?_⟩
  suffices ∃ core, Spells core v ∧ skipBlanks cs = core ++ rest by
    obtain ⟨core, hcore, hskip⟩ := this
    exact ⟨core, hbefore, hcore, by rw [← hskip, ← hcs]⟩
  rw [value] at h
  split at h
  · next hskip =>
    cases h
    exact ⟨_, .nullWord, hskip⟩
  · next hskip =>
    cases h
    exact ⟨_, .trueWord, hskip⟩
  · next hskip =>
    cases h
    exact ⟨_, .falseWord, hskip⟩
  · next hskip =>
    obtain ⟨⟨s, after⟩, hliteral, h⟩ := Option.map_eq_some_iff.1 h
    cases h
    obtain ⟨body, hbody, rfl⟩ := of_literal hliteral
    exact ⟨_, .string hbody, hskip⟩
  · next tail hskip =>
    obtain ⟨blanks, hblanks, htail⟩ := exists_blanks tail
    split at h
    · next hclose =>
      cases h
      refine ⟨_, .noItems hblanks, ?_⟩
      rw [hskip, htail, hclose]
      simp
    · obtain ⟨⟨vs, after⟩, hread, h⟩ := Option.map_eq_some_iff.1 h
      cases h
      obtain ⟨body, hbody, hmore⟩ := hitems hread
      refine ⟨_, .array (hbody.blanks_append hblanks), ?_⟩
      rw [hskip, htail, hmore]
      simp
  · next tail hskip =>
    obtain ⟨blanks, hblanks, htail⟩ := exists_blanks tail
    split at h
    · next hclose =>
      cases h
      refine ⟨_, .noMembers hblanks, ?_⟩
      rw [hskip, htail, hclose]
      simp
    · obtain ⟨⟨ms, after⟩, hread, h⟩ := Option.map_eq_some_iff.1 h
      cases h
      obtain ⟨body, hbody, hmore⟩ := hmembers hread
      refine ⟨_, .object (hbody.blanks_append hblanks), ?_⟩
      rw [hskip, htail, hmore]
      simp
  · next hskip =>
    obtain ⟨body, n, hbody, rfl, rfl⟩ := of_unsigned h
    exact ⟨_, .number (.minus hbody), hskip⟩
  · obtain ⟨body, n, hbody, rfl, hskip⟩ := of_unsigned h
    exact ⟨_, .number (.plain hbody), hskip⟩

theorem SpeltItems.succ (hv : SpeltValues fuel) (hitems : SpeltItems fuel) :
    SpeltItems (fuel + 1) := by
  intro cs vs rest h
  obtain ⟨⟨v, after⟩, hvalue, hstep⟩ := Option.bind_eq_some_iff.1 h
  obtain ⟨body, hbody, hcs⟩ := hv.document hvalue
  dsimp only at hstep
  split at hstep
  · next hclose =>
    cases hstep
    exact ⟨body, .last hbody, by rw [hcs, hclose]⟩
  · next hcomma =>
    obtain ⟨⟨others, tail⟩, hread, hstep⟩ := Option.bind_eq_some_iff.1 hstep
    cases hstep
    obtain ⟨row, hrow, hmore⟩ := hitems hread
    exact ⟨_, .cons hbody hrow, by simp [hcs, hcomma, hmore]⟩
  · cases hstep

theorem SpeltMembers.succ (hv : SpeltValues fuel) (hmembers : SpeltMembers fuel) :
    SpeltMembers (fuel + 1) := by
  intro cs ms rest h
  obtain ⟨before, hbefore, hcs⟩ := exists_blanks cs
  rw [members] at h
  split at h
  · next hquote =>
    obtain ⟨⟨key, after⟩, hkey, hstep⟩ := Option.bind_eq_some_iff.1 h
    obtain ⟨literal, hliteral, htail⟩ := of_literal hkey
    obtain ⟨between, hbetween, hafter⟩ := exists_blanks after
    dsimp only at hstep
    split at hstep
    · next hcolon =>
      obtain ⟨⟨v, tail⟩, hvalue, hstep⟩ := Option.bind_eq_some_iff.1 hstep
      obtain ⟨body, hbody, hmore⟩ := hv.document hvalue
      have hmember := Member.mk hbefore hliteral hbetween hbody
      rw [hquote, htail, hafter, hcolon, hmore] at hcs
      dsimp only at hstep
      split at hstep
      · next hclose =>
        cases hstep
        exact ⟨_, .last hmember, by simp [hcs, hclose]⟩
      · next hcomma =>
        obtain ⟨⟨others, tail⟩, hread, hstep⟩ := Option.bind_eq_some_iff.1 hstep
        cases hstep
        obtain ⟨row, hrow, hmore⟩ := hmembers hread
        exact ⟨_, .cons hmember hrow, by simp [hcs, hcomma, hmore]⟩
      · cases hstep
    · cases hstep
  · cases h

theorem spelt (fuel : Nat) : SpeltValues fuel ∧ SpeltItems fuel ∧ SpeltMembers fuel := by
  induction fuel with
  | zero => exact ⟨nofun, nofun, nofun⟩
  | succ fuel ih =>
    obtain ⟨hvalues, hitems, hmembers⟩ := ih
    exact ⟨SpeltValues.succ hitems hmembers, SpeltItems.succ hvalues hitems,
      SpeltMembers.succ hvalues hmembers⟩

/-! ### What is spelled is read -/

def ReadsValues (fuel : Nat) : Prop :=
  ∀ {cs v rest}, Spells cs v → 2 * cs.length ≤ fuel → Ends rest →
    value fuel (cs ++ rest) = some (v, rest)

def ReadsItems (fuel : Nat) : Prop :=
  ∀ {cs vs} rest, Items cs vs → 2 * cs.length + 1 ≤ fuel →
    items fuel (cs ++ ']' :: rest) = some (vs, rest)

def ReadsMembers (fuel : Nat) : Prop :=
  ∀ {cs ms} rest, Members cs ms → 2 * cs.length + 1 ≤ fuel →
    members fuel (cs ++ '}' :: rest) = some (ms, rest)

theorem value_blanks_append {blanks : List Char} (h : Blanks blanks) (cs : List Char) :
    value fuel (blanks ++ cs) = value fuel cs := by
  cases fuel with
  | zero => rfl
  | succ fuel => rw [value, value, skipBlanks_append h]

theorem value_skipBlanks (cs : List Char) : value fuel (skipBlanks cs) = value fuel cs := by
  cases fuel with
  | zero => rfl
  | succ fuel => rw [value, value, skipBlanks_skipBlanks]

theorem items_skipBlanks (cs : List Char) : items fuel (skipBlanks cs) = items fuel cs := by
  cases fuel with
  | zero => rfl
  | succ fuel => rw [items, items, value_skipBlanks]

theorem members_skipBlanks (cs : List Char) : members fuel (skipBlanks cs) = members fuel cs := by
  cases fuel with
  | zero => rfl
  | succ fuel => rw [members, members, skipBlanks_skipBlanks]

theorem ends_cons {c : Char} (h : c.isDigit = false ∧ c ≠ '.' ∧ c ≠ 'e' ∧ c ≠ 'E')
    (rest : List Char) : Ends (c :: rest) := by
  rintro _ ⟨⟩
  exact h

theorem Ends.blanks_append {blanks rest : List Char} (h : Ends rest) (hblanks : Blanks blanks) :
    Ends (blanks ++ rest) := by
  cases blanks with
  | nil => exact h
  | cons c blanks =>
    have hc := hblanks c (List.mem_cons_self ..)
    simp only [isBlank, Bool.or_eq_true, decide_eq_true_eq] at hc
    refine ends_cons ?_ _
    rcases hc with ((rfl | rfl) | rfl) | rfl <;> decide

/-! #### First characters -/

theorem exists_head_write (n : Nat) : ∃ c cs, Decimal.write n = c :: cs ∧ c.isDigit = true := by
  obtain ⟨c, cs, h⟩ := List.exists_cons_of_ne_nil (Decimal.write_ne_nil n)
  exact ⟨c, cs, h, Decimal.isDigit_of_mem_write (h ▸ List.mem_cons_self ..)⟩

theorem not_blank_of_isDigit {c : Char} (h : c.isDigit = true) : isBlank c = false ∧ c ≠ ']' := by
  constructor
  · rw [Bool.eq_false_iff]
    intro hblank
    simp only [isBlank, Bool.or_eq_true, decide_eq_true_eq] at hblank
    rcases hblank with ((rfl | rfl) | rfl) | rfl <;> exact absurd h (by decide)
  · rintro rfl
    exact absurd h (by decide)

theorem Spells.head {cs : List Char} {v : Json} (h : Spells cs v) :
    ∃ c tail, cs = c :: tail ∧ isBlank c = false ∧ c ≠ ']' := by
  cases h with
  | number hn =>
    cases hn with
    | plain hunsigned =>
      obtain ⟨whole, -, -⟩ := hunsigned
      obtain ⟨c, ds, hwrite, hc⟩ := exists_head_write whole
      exact ⟨c, _, by rw [hwrite]; rfl, not_blank_of_isDigit hc⟩
    | minus => exact ⟨_, _, rfl, by decide⟩
  | string hs => cases hs <;> exact ⟨_, _, rfl, by decide⟩
  | _ => exact ⟨_, _, rfl, by decide⟩

theorem skipBlanks_spells {cs : List Char} {v : Json} (h : Spells cs v) (rest : List Char) :
    skipBlanks (cs ++ rest) = cs ++ rest := by
  obtain ⟨c, tail, rfl, hc, -⟩ := h.head
  exact skipBlanks_cons hc _

theorem Document.head {cs : List Char} {v : Json} (h : Document cs v) (rest : List Char) :
    ∃ c tail, skipBlanks (cs ++ rest) = c :: tail ∧ c ≠ ']' := by
  obtain ⟨hbefore, hv, -⟩ := h
  obtain ⟨c, tail, rfl, hc, hclose⟩ := hv.head
  rw [List.append_assoc, skipBlanks_append hbefore]
  exact ⟨c, _, skipBlanks_cons hc _, hclose⟩

theorem Items.head {cs : List Char} {vs : List Json} (h : Items cs vs) (rest : List Char) :
    ∃ c tail, skipBlanks (cs ++ rest) = c :: tail ∧ c ≠ ']' := by
  cases h with
  | last hv => exact hv.head rest
  | cons hv =>
    rw [List.append_assoc]
    exact hv.head _

theorem Member.head {cs : List Char} {m : Option String × Json} (h : Member cs m)
    (rest : List Char) : ∃ tail, skipBlanks (cs ++ rest) = '"' :: tail := by
  obtain ⟨hbefore, hkey, -, -⟩ := h
  rw [List.append_assoc, skipBlanks_append hbefore]
  cases hkey <;> exact ⟨_, skipBlanks_cons (by decide) _⟩

theorem Members.head {cs : List Char} {ms : List (Option String × Json)} (h : Members cs ms)
    (rest : List Char) : ∃ tail, skipBlanks (cs ++ rest) = '"' :: tail := by
  cases h with
  | last hm => exact hm.head rest
  | cons hm =>
    rw [List.append_assoc]
    exact hm.head _

/-! #### Steps of the reader -/

theorem value_array {cs tail : List Char} {c : Char} (h : skipBlanks cs = c :: tail)
    (hc : c ≠ ']') : value (fuel + 1) ('[' :: cs) =
      (items fuel cs).map fun (vs, after) => (.array vs, after) := by
  have hopen : skipBlanks ('[' :: cs) = '[' :: cs := skipBlanks_cons (by decide) cs
  rw [← items_skipBlanks cs]
  simp [value, hopen, h, hc]

theorem value_object {cs tail : List Char} (h : skipBlanks cs = '"' :: tail) :
    value (fuel + 1) ('{' :: cs) =
      (members fuel cs).map fun (ms, after) => (.object ms, after) := by
  have hopen : skipBlanks ('{' :: cs) = '{' :: cs := skipBlanks_cons (by decide) cs
  rw [← members_skipBlanks cs]
  simp [value, hopen, h]

theorem value_unsigned {cs rest : List Char} {n : Numeral} (h : UnsignedText false cs n)
    (hrest : Ends rest) : value (fuel + 1) (cs ++ rest) = some (.number n, rest) := by
  rw [← unsigned_append h hrest, value, skipBlanks_spells (.number (.plain h))]
  obtain ⟨whole, -, -⟩ := h
  obtain ⟨c, ds, hwrite, hc⟩ := exists_head_write whole
  simp only [hwrite, List.cons_append]
  split
  all_goals try rfl
  all_goals
    next heq =>
      rw [(List.cons.inj heq).1] at hc
      exact absurd hc (by decide)

theorem value_literal {cs : List Char} {s : Option String} (h : LiteralText cs s)
    (rest : List Char) : value (fuel + 1) (cs ++ rest) = some (.string s, rest) := by
  obtain ⟨tail, rfl⟩ : ∃ tail, cs = '"' :: tail := by
    cases h <;> exact ⟨_, rfl⟩
  have hskip := skipBlanks_spells (.string h) rest
  rw [List.cons_append] at hskip
  simp [value, hskip, literal_append h]

theorem value_minus {cs rest : List Char} {n : Numeral} (h : UnsignedText true cs n)
    (hrest : Ends rest) : value (fuel + 1) ('-' :: (cs ++ rest)) = some (.number n, rest) := by
  have hskip : skipBlanks ('-' :: (cs ++ rest)) = '-' :: (cs ++ rest) :=
    skipBlanks_cons (by decide) _
  simp [value, hskip, unsigned_append h hrest]

theorem ReadsValues.document (hv : ReadsValues fuel) {cs rest : List Char} {v : Json}
    (h : Document cs v) (hfuel : 2 * cs.length ≤ fuel) (hrest : Ends rest) :
    ∃ after, value fuel (cs ++ rest) = some (v, after) ∧ skipBlanks after = skipBlanks rest := by
  obtain ⟨hbefore, hcore, hafter⟩ := h
  rename_i before core after
  simp only [List.length_append] at hfuel
  refine ⟨after ++ rest, ?_, skipBlanks_append hafter rest⟩
  rw [List.append_assoc, value_blanks_append hbefore, List.append_assoc]
  exact hv hcore (by omega) (hrest.blanks_append hafter)

theorem ReadsValues.succ (hitems : ReadsItems fuel) (hmembers : ReadsMembers fuel) :
    ReadsValues (fuel + 1) := by
  intro cs v rest h hfuel hrest
  cases h with
  | nullWord => simp [value, skipBlanks, isBlank]
  | trueWord => simp [value, skipBlanks, isBlank]
  | falseWord => simp [value, skipBlanks, isBlank]
  | number hn =>
    cases hn with
    | plain hunsigned => exact value_unsigned hunsigned hrest
    | minus hunsigned => exact value_minus hunsigned hrest
  | string hs => exact value_literal hs rest
  | noItems hblanks =>
    simp [value, skipBlanks, isBlank, skipBlanks_append hblanks]
  | array hvs =>
    simp only [List.length_cons, List.length_append] at hfuel
    obtain ⟨c, tail, hskip, hc⟩ := hvs.head (']' :: rest)
    rw [List.cons_append, List.append_assoc, List.singleton_append, value_array hskip hc,
      hitems rest hvs (by omega)]
    rfl
  | noMembers hblanks =>
    simp [value, skipBlanks, isBlank, skipBlanks_append hblanks]
  | object hms =>
    simp only [List.length_cons, List.length_append] at hfuel
    obtain ⟨tail, hskip⟩ := hms.head ('}' :: rest)
    rw [List.cons_append, List.append_assoc, List.singleton_append, value_object hskip,
      hmembers rest hms (by omega)]
    rfl

theorem ReadsItems.succ (hv : ReadsValues fuel) (hitems : ReadsItems fuel) :
    ReadsItems (fuel + 1) := by
  intro cs vs rest h hfuel
  cases h with
  | last hfirst =>
    have hends : Ends (']' :: rest) := ends_cons (by decide) rest
    obtain ⟨after, hvalue, hskip⟩ := hv.document hfirst (by omega) hends
    simp [items, hvalue, hskip, skipBlanks, isBlank]
  | @cons _ more _ _ hfirst hothers =>
    have hends : Ends (',' :: (more ++ ']' :: rest)) := ends_cons (by decide) _
    simp only [List.length_append, List.length_cons] at hfuel
    obtain ⟨after, hvalue, hskip⟩ := hv.document hfirst (by omega) hends
    have hread := hitems rest hothers (by omega)
    simp [items, hvalue, hskip, skipBlanks, isBlank, hread]

theorem ReadsValues.member (hv : ReadsValues fuel) {cs rest : List Char}
    {m : Option String × Json} (h : Member cs m) (hfuel : 2 * cs.length ≤ fuel)
    (hrest : Ends rest) : ∃ tail between more after, skipBlanks (cs ++ rest) = '"' :: tail ∧
      literal tail = some (m.1, between) ∧ skipBlanks between = ':' :: more ∧
        value fuel more = some (m.2, after) ∧ skipBlanks after = skipBlanks rest := by
  obtain ⟨hbefore, hkey, hbetween, hdocument⟩ := h
  rename_i before key between document s v
  obtain ⟨tail, rfl⟩ : ∃ tail, key = '"' :: tail := by
    cases hkey <;> exact ⟨_, rfl⟩
  simp only [List.length_append, List.length_cons] at hfuel
  obtain ⟨after, hvalue, hskip⟩ := hv.document hdocument (by omega) hrest
  refine ⟨tail ++ (between ++ ':' :: (document ++ rest)), _, document ++ rest, after, ?_,
    literal_append hkey _, ?_, hvalue, hskip⟩
  · rw [List.append_assoc, skipBlanks_append hbefore]
    simp [skipBlanks, isBlank]
  · rw [skipBlanks_append hbetween]
    exact skipBlanks_cons (by decide) _

theorem ReadsMembers.succ (hv : ReadsValues fuel) (hmembers : ReadsMembers fuel) :
    ReadsMembers (fuel + 1) := by
  intro cs ms rest h hfuel
  cases h with
  | last hfirst =>
    have hends : Ends ('}' :: rest) := ends_cons (by decide) rest
    obtain ⟨tail, between, more, after, hquote, hkey, hcolon, hvalue, hskip⟩ :=
      hv.member hfirst (by omega) hends
    simp [members, hquote, hkey, hcolon, hvalue, hskip, skipBlanks, isBlank]
  | @cons _ others _ _ hfirst hothers =>
    have hends : Ends (',' :: (others ++ '}' :: rest)) := ends_cons (by decide) _
    simp only [List.length_append, List.length_cons] at hfuel
    obtain ⟨tail, between, more, after, hquote, hkey, hcolon, hvalue, hskip⟩ :=
      hv.member hfirst (by omega) hends
    have hread := hmembers rest hothers (by omega)
    simp [members, hquote, hkey, hcolon, hvalue, hskip, skipBlanks, isBlank, hread]

theorem reads (fuel : Nat) : ReadsValues fuel ∧ ReadsItems fuel ∧ ReadsMembers fuel := by
  induction fuel with
  | zero =>
    refine ⟨fun h hfuel => ?_, fun _ _ hfuel => ?_, fun _ _ hfuel => ?_⟩
    · obtain ⟨c, tail, rfl, -, -⟩ := h.head
      simp at hfuel
    · omega
    · omega
  | succ fuel ih =>
    obtain ⟨hvalues, hitems, hmembers⟩ := ih
    exact ⟨ReadsValues.succ hitems hmembers, ReadsItems.succ hvalues hitems,
      ReadsMembers.succ hvalues hmembers⟩

/-- The reader takes a text exactly if the grammar has it, and gives what it spells. -/
theorem parse?_eq_some_iff {s : String} {v : Json} : parse? s = some v ↔ Document s.toList v := by
  rw [parse?]
  constructor
  · intro h
    split at h
    · next w rest hvalue =>
      split at h
      · next hempty =>
        cases h
        obtain ⟨hvalues, -, -⟩ := spelt (2 * s.toList.length + 2)
        obtain ⟨body, hbody, hs⟩ := hvalues.document hvalue
        rw [List.isEmpty_iff.1 hempty, List.append_nil] at hs
        rw [hs]
        exact hbody
      · cases h
    · cases h
  · intro h
    have hends : Ends [] := nofun
    obtain ⟨hvalues, -, -⟩ := reads (2 * s.toList.length + 2)
    obtain ⟨after, hvalue, hskip⟩ := hvalues.document h (by omega) hends
    rw [List.append_nil] at hvalue
    rw [hvalue]
    simp [hskip, skipBlanks]

end PodRoutes.Json
