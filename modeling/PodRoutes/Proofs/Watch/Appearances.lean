import Mathlib.Data.List.Nodup
import PodRoutes.Proofs.Node.Updates
import PodRoutes.Proofs.Table.Keyed
import PodRoutes.Watch

/-!
# Appearing and disappearing nodes

What one event does to one name is said once (`WatchState.handle_cases`): nothing, or its node is
shown, or it is gone. From this come the facts about whole runs: a name that came into the map or
went out of it was given, and a relist makes the map what it lists, whatever was there before
(`watch_loses_nothing`).
-/

namespace PodRoutes

/-- The node that an event shows. -/
def WatchEvent.shown? : WatchEvent → Option Node
  | .listed node => some node
  | .applied node => some node
  | _ => none

namespace WatchState

variable {f : UpdateFilter} {s : WatchState} {e : WatchEvent} {n : Node} {name : String}

/-! ### One event -/

theorem handle_of_shown (h : e.shown? = some n) : s.handle f e = s.apply f n := by
  cases e <;> cases h <;> rfl

theorem get?_apply (f : UpdateFilter) (s : WatchState) (n : Node) (name : String) :
    (s.apply f n).1.seen.get? name = if n.name = name then some n else s.seen.get? name :=
  Table.get?_insert _ _ _ _

theorem mem_apply :
    name ∈ (s.apply f n).2 ↔
      n.name = name ∧ ∀ old, s.seen.get? name = some old → f.admits old n = true := by
  rw [apply]
  by_cases hname : n.name = name
  · subst hname
    cases s.seen.get? n.name with
    | none => simp
    | some old => cases hadmits : f.admits old n <;> simp [hadmits]
  · have hother : ¬name = n.name := fun he => hname he.symm
    simp only [hname, false_and, iff_false]
    split <;> simp [hother]

theorem mem_vanished :
    name ∈ s.vanished ↔ s.seen.contains name = true ∧ name ∉ s.shown := by
  simp [vanished, Table.mem_keys_iff, Table.contains, Option.isSome_iff_exists]

theorem nodup_vanished (s : WatchState) : s.vanished.Nodup := by
  apply List.Nodup.filter
  rw [Table.keys, List.Nodup, List.pairwise_map]
  apply s.seen.sorted.imp
  intro a b hlt he
  rw [he] at hlt
  exact String.lt_irrefl _ hlt

/-- What an event does to a name: nothing, or it shows a node with the name, or the node is gone. -/
theorem handle_cases (f : UpdateFilter) (s : WatchState) (e : WatchEvent) (name : String) :
    ((s.handle f e).1.seen.get? name = s.seen.get? name ∧ name ∉ (s.handle f e).2) ∨
    (∃ n, e.shown? = some n ∧ n.name = name ∧ (s.handle f e).1.seen.get? name = some n ∧
      (name ∈ (s.handle f e).2 ↔
        ∀ old, s.seen.get? name = some old → f.admits old n = true)) ∨
    (e.shown? = none ∧ (s.handle f e).1.seen.get? name = none ∧ name ∈ (s.handle f e).2) := by
  cases hshown : e.shown? with
  | some n =>
    rw [handle_of_shown hshown, get?_apply, mem_apply]
    by_cases hname : n.name = name
    · exact Or.inr (Or.inl ⟨n, rfl, hname, if_pos hname, by simp [hname]⟩)
    · exact Or.inl ⟨if_neg hname, by simp [hname]⟩
  | none =>
    cases e with
    | listed n => cases hshown
    | applied n => cases hshown
    | relist => exact Or.inl ⟨rfl, by simp [handle]⟩
    | deleted n =>
      have hget : (s.handle f (.deleted n)).1.seen.get? name =
          if n.name = name then none else s.seen.get? name := Table.get?_erase _ _ _
      rw [hget]
      by_cases hname : n.name = name
      · exact Or.inr (Or.inr ⟨rfl, if_pos hname, by simp [handle, hname]⟩)
      · exact Or.inl ⟨if_neg hname, by simp [handle, Ne.symm hname]⟩
    | relistDone =>
      have hget : (s.handle f .relistDone).1.seen.get? name =
          (s.seen.get? name).filter fun _ => s.shown.contains name := Table.get?_filter _ _ _
      have hnames : name ∈ (s.handle f .relistDone).2 ↔
          s.seen.contains name = true ∧ name ∉ s.shown := mem_vanished
      rw [hget, hnames, Table.contains]
      by_cases hmem : name ∈ s.shown
      · cases s.seen.get? name <;> simp [hmem]
      · cases s.seen.get? name <;> simp [hmem]

theorem mem_handle_of_changed
    (h : (s.handle f e).1.seen.contains name ≠ s.seen.contains name) :
    name ∈ (s.handle f e).2 := by
  rcases handle_cases f s e name with ⟨hsame, -⟩ | ⟨n, -, -, hnow, hgiven⟩ | ⟨-, -, hgiven⟩
  · exact absurd (by rw [Table.contains, hsame, Table.contains]) h
  · have hbefore : s.seen.get? name = none := by
      cases hb : s.seen.get? name with
      | none => rfl
      | some old => exact absurd (by simp [Table.contains, hnow, hb]) h
    exact hgiven.2 (by simp [hbefore])
  · exact hgiven

theorem admits_of_mem_handle {old new : Node} (hbefore : s.seen.get? name = some old)
    (hafter : (s.handle f e).1.seen.get? name = some new) (hgiven : name ∈ (s.handle f e).2) :
    f.admits old new = true := by
  rcases handle_cases f s e name with ⟨-, hnot⟩ | ⟨n, -, -, hnow, hiff⟩ | ⟨-, hgone, -⟩
  · exact absurd hgiven hnot
  · rw [hnow] at hafter
    cases hafter
    exact hiff.1 hgiven old hbefore
  · rw [hgone] at hafter
    cases hafter

theorem keyed_handle (h : s.seen.KeyedBy Node.name) (f : UpdateFilter) (e : WatchEvent) :
    (s.handle f e).1.seen.KeyedBy Node.name := by
  intro name n hn
  rcases handle_cases f s e name with ⟨hsame, -⟩ | ⟨m, -, hm, hnow, -⟩ | ⟨-, hgone, -⟩
  · rw [hsame] at hn
    exact h name n hn
  · rw [hnow] at hn
    cases hn
    exact hm
  · rw [hgone] at hn
    cases hn

/-! ### Runs of events -/

theorem handleAll_append (f : UpdateFilter) (s : WatchState) (es later : List WatchEvent) :
    s.handleAll f (es ++ later) =
      (((s.handleAll f es).1.handleAll f later).1,
        (s.handleAll f es).2 ++ ((s.handleAll f es).1.handleAll f later).2) := by
  induction es generalizing s with
  | nil => rfl
  | cons e rest ih => simp [handleAll, ih]

theorem keyed_handleAll (h : s.seen.KeyedBy Node.name) (f : UpdateFilter)
    (es : List WatchEvent) : (s.handleAll f es).1.seen.KeyedBy Node.name := by
  induction es generalizing s with
  | nil => exact h
  | cons e rest ih => exact ih (keyed_handle h f e)

theorem mem_handleAll_of_changed {es : List WatchEvent}
    (h : (s.handleAll f es).1.seen.contains name ≠ s.seen.contains name) :
    name ∈ (s.handleAll f es).2 := by
  induction es generalizing s with
  | nil => exact absurd rfl h
  | cons e rest ih =>
    show name ∈ (s.handle f e).2 ++ ((s.handle f e).1.handleAll f rest).2
    rw [List.mem_append]
    -- it was given by the first event that made a difference
    by_cases hfirst : (s.handle f e).1.seen.contains name = s.seen.contains name
    · right
      apply ih
      rw [hfirst]
      exact h
    · exact Or.inl (mem_handle_of_changed hfirst)

/-! ### Relists -/

/-- The state after the beginning of a relist and the objects that it lists. -/
def listing (f : UpdateFilter) (s : WatchState) (nodes : List Node) : WatchState :=
  (s.handleAll f (.relist :: nodes.map .listed)).1

theorem handleAll_ofList (f : UpdateFilter) (s : WatchState) (nodes : List Node) :
    s.handleAll f (WatchEvent.ofList nodes) =
      (((s.listing f nodes).handle f .relistDone).1,
        (s.handleAll f (.relist :: nodes.map .listed)).2 ++ (s.listing f nodes).vanished) := by
  rw [WatchEvent.ofList, ← List.cons_append, handleAll_append]
  simp [handleAll, handle, listing]

theorem shown_listed (f : UpdateFilter) (s : WatchState) (nodes : List Node) :
    name ∈ (s.handleAll f (nodes.map .listed)).1.shown ↔
      name ∈ nodes.map Node.name ∨ name ∈ s.shown := by
  induction nodes generalizing s with
  | nil => simp [handleAll]
  | cons n rest ih =>
    show name ∈ ((s.apply f n).1.handleAll f (rest.map .listed)).1.shown ↔ _
    rw [ih]
    simp only [apply, List.mem_cons, List.map_cons]
    grind

/-- The last object that was listed for a name counts, or else the one before the relist. -/
theorem get?_listed (f : UpdateFilter) (s : WatchState) (nodes : List Node) (name : String) :
    (s.handleAll f (nodes.map .listed)).1.seen.get? name =
      (nodes.reverse.find? fun n => n.name = name).or (s.seen.get? name) := by
  induction nodes generalizing s with
  | nil => rfl
  | cons n rest ih =>
    show ((s.apply f n).1.handleAll f (rest.map .listed)).1.seen.get? name = _
    rw [ih, get?_apply, List.reverse_cons, List.find?_append, Option.or_assoc]
    by_cases hname : n.name = name <;> simp [hname]

theorem mem_shown_listing {nodes : List Node} :
    name ∈ (s.listing f nodes).shown ↔ name ∈ nodes.map Node.name := by
  show name ∈ (({ s with shown := [] } : WatchState).handleAll f (nodes.map .listed)).1.shown ↔ _
  rw [shown_listed]
  simp

theorem get?_listing (f : UpdateFilter) (s : WatchState) (nodes : List Node) (name : String) :
    (s.listing f nodes).seen.get? name =
      (nodes.reverse.find? fun n => n.name = name).or (s.seen.get? name) :=
  get?_listed f { s with shown := [] } nodes name

theorem isSome_lastListed {nodes : List Node} :
    (nodes.reverse.find? fun n => n.name = name).isSome = true ↔ name ∈ nodes.map Node.name := by
  simp

theorem get?_relisted (f : UpdateFilter) (s : WatchState) (nodes : List Node) (name : String) :
    (s.handleAll f (WatchEvent.ofList nodes)).1.seen.get? name =
      nodes.reverse.find? fun n => n.name = name := by
  rw [handleAll_ofList]
  show ((s.listing f nodes).seen.filter fun name _ => (s.listing f nodes).shown.contains name).get?
    name = _
  rw [Table.get?_filter, get?_listing]
  cases hlast : nodes.reverse.find? fun n => n.name = name with
  | some n =>
    have hmem : name ∈ (s.listing f nodes).shown := mem_shown_listing.2 (by
      rw [← isSome_lastListed, hlast]
      rfl)
    simp [hmem]
  | none =>
    have hmem : name ∉ (s.listing f nodes).shown := by
      rw [mem_shown_listing, ← isSome_lastListed, hlast]
      simp
    cases hold : s.seen.get? name <;> simp [hmem]

theorem mem_vanished_listing {nodes : List Node} :
    name ∈ (s.listing f nodes).vanished ↔
      s.seen.contains name = true ∧ name ∉ nodes.map Node.name := by
  rw [mem_vanished, mem_shown_listing, Table.contains, get?_listing, Table.contains]
  constructor
  · rintro ⟨hsome, hnot⟩
    have hnone : (nodes.reverse.find? fun n => n.name = name) = none := by
      rw [← Option.not_isSome_iff_eq_none, isSome_lastListed]
      exact hnot
    rw [hnone] at hsome
    exact ⟨hsome, hnot⟩
  · rintro ⟨hsome, hnot⟩
    refine ⟨?_, hnot⟩
    rw [Option.isSome_or, hsome, Bool.or_true]

/-! ### Relists that show nothing new -/

theorem handleAll_listed_of_seen {nodes : List Node}
    (h : ∀ n ∈ nodes, s.seen.get? n.name = some n) :
    (s.handleAll f (nodes.map .listed)).1.seen = s.seen ∧
      (s.handleAll f (nodes.map .listed)).2 = [] := by
  induction nodes generalizing s with
  | nil => exact ⟨rfl, rfl⟩
  | cons n rest ih =>
    have hn : s.seen.get? n.name = some n := h n List.mem_cons_self
    have hsame : (s.apply f n).1.seen = s.seen := by
      apply Table.ext_get?
      intro name
      rw [get?_apply]
      split
      · next he => rw [← he, hn]
      · rfl
    -- an object that replaces itself is no update that the filter lets through
    have hquiet : (s.apply f n).2 = [] := by simp [apply, hn, UpdateFilter.admits_self]
    have hrest : ∀ m ∈ rest, (s.apply f n).1.seen.get? m.name = some m := by
      intro m hm
      rw [hsame]
      exact h m (List.mem_cons_of_mem n hm)
    obtain ⟨hseen, hnames⟩ := ih hrest
    constructor
    · show ((s.apply f n).1.handleAll f (rest.map .listed)).1.seen = s.seen
      rw [hseen, hsame]
    · show (s.apply f n).2 ++ ((s.apply f n).1.handleAll f (rest.map .listed)).2 = []
      rw [hquiet, hnames]
      rfl

theorem handleAll_ofList_of_seen (hkeyed : s.seen.KeyedBy Node.name) {nodes : List Node}
    (h : ∀ n, n ∈ nodes ↔ n ∈ s.seen.values) :
    (s.handleAll f (WatchEvent.ofList nodes)).1.seen = s.seen ∧
      (s.handleAll f (WatchEvent.ofList nodes)).2 = [] := by
  have hlisted : ∀ n ∈ nodes, s.seen.get? n.name = some n := fun n hn =>
    hkeyed.get?_of_mem ((h n).1 hn)
  have hshows : ∀ name, s.seen.contains name = true → name ∈ nodes.map Node.name := by
    intro name hname
    obtain ⟨n, hn⟩ := Option.isSome_iff_exists.1 hname
    exact List.mem_map.2 ⟨n, (h n).2 (Table.KeyedBy.mem_of_get? hn), hkeyed name n hn⟩
  have hvanished : (s.listing f nodes).vanished = [] := by
    rw [List.eq_nil_iff_forall_not_mem]
    intro name hname
    obtain ⟨hseen, hnot⟩ := mem_vanished_listing.1 hname
    exact hnot (hshows name hseen)
  constructor
  · apply Table.ext_get?
    intro name
    rw [get?_relisted]
    cases hlast : nodes.reverse.find? fun n => n.name = name with
    | some n =>
      have hn : n ∈ nodes := List.mem_reverse.1 (List.mem_of_find?_eq_some hlast)
      have hname : n.name = name := by simpa using List.find?_some hlast
      rw [← hname, hlisted n hn]
    | none =>
      have hnot : name ∉ nodes.map Node.name := by
        rw [← isSome_lastListed, hlast]
        simp
      cases hseen : s.seen.get? name with
      | none => rfl
      | some n => exact absurd (hshows name (by simp [Table.contains, hseen])) hnot
  · have hquiet : (s.handleAll f (.relist :: nodes.map .listed)).2 = [] :=
      (handleAll_listed_of_seen (s := { s with shown := [] }) hlisted).2
    rw [handleAll_ofList, hquiet, hvanished]
    rfl

theorem mem_shown_relisted {nodes : List Node} :
    name ∈ (s.handleAll f (WatchEvent.ofList nodes)).1.shown ↔ name ∈ nodes.map Node.name := by
  rw [handleAll_ofList]
  exact mem_shown_listing

/-! ### What the watch gives -/

/-- What a state says of the events to come. -/
structure LosesNothing (f : UpdateFilter) (s : WatchState) : Prop where
  /-- A name that comes into the map or goes out of it is given by that event. -/
  changed : ∀ e name, (s.handle f e).1.seen.contains name ≠ s.seen.contains name →
    name ∈ (s.handle f e).2
  /-- So over any stretch of events, what has come or gone was given on the way. -/
  changedSince : ∀ later name,
    (s.handleAll f later).1.seen.contains name ≠ s.seen.contains name →
      name ∈ (s.handleAll f later).2
  /-- A name that stays in the map is given only for an update that the filter lets through. -/
  admitted : ∀ e name old new, s.seen.get? name = some old →
    (s.handle f e).1.seen.get? name = some new → name ∈ (s.handle f e).2 →
      f.admits old new = true
  /-- A relist makes the map what it lists; of objects with the same name the last one counts. -/
  relisted : ∀ nodes name, (s.handleAll f (WatchEvent.ofList nodes)).1.seen.get? name =
    nodes.reverse.find? fun n => n.name = name
  /-- The end of a relist gives each name that it no longer showed, once, and no other. -/
  vanished : ∀ nodes name, ((s.listing f nodes).handle f .relistDone).2.count name =
    if s.seen.contains name = true ∧ name ∉ nodes.map Node.name then 1 else 0
  /-- A relist of the objects in the map gives no name and changes nothing; it leaves the names in
  the map as the ones shown. -/
  idle : ∀ nodes, (∀ n, n ∈ nodes ↔ n ∈ s.seen.values) →
    (s.handleAll f (WatchEvent.ofList nodes)).2 = [] ∧
      (s.handleAll f (WatchEvent.ofList nodes)).1.seen = s.seen ∧
      ∀ name, name ∈ (s.handleAll f (WatchEvent.ofList nodes)).1.shown ↔
        s.seen.contains name = true

/-- Whatever events came before, no appearance and no disappearance of a node is lost. -/
theorem watch_loses_nothing (f : UpdateFilter) (before : List WatchEvent) :
    LosesNothing f (({} : WatchState).handleAll f before).1 := by
  have hempty : ({} : WatchState).seen.KeyedBy Node.name := by
    intro name n hn
    cases hn
  have hkeyed := keyed_handleAll hempty f before
  generalize (({} : WatchState).handleAll f before).1 = s at hkeyed
  refine ⟨fun _ _ h => mem_handle_of_changed h, fun _ _ h => mem_handleAll_of_changed h,
    fun _ _ _ _ hold hnew h => admits_of_mem_handle hold hnew h, get?_relisted f s, ?_, ?_⟩
  · intro nodes name
    show (s.listing f nodes).vanished.count name = _
    split
    · next h =>
      exact List.count_eq_one_of_mem (nodup_vanished _) (mem_vanished_listing.2 h)
    · next h =>
      rw [List.count_eq_zero, mem_vanished_listing]
      exact h
  · intro nodes h
    obtain ⟨hseen, hnames⟩ := handleAll_ofList_of_seen (f := f) hkeyed h
    refine ⟨hnames, hseen, fun name => ?_⟩
    have hafter := get?_relisted f s nodes name
    rw [hseen] at hafter
    rw [mem_shown_relisted, ← isSome_lastListed, Table.contains, hafter]

end WatchState

end PodRoutes
