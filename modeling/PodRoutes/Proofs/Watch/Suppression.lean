import Mathlib.Data.List.Induction
import PodRoutes.Proofs.Watch.Appearances

/-!
# Updates that were not given

The watch compares an update only with the version right before it, and it takes that version in
also when it gives no name. What was given last for a node covers the version in the map all the
same, however many updates were held back in between (`given_version_covers`).
-/

namespace PodRoutes

namespace WatchState

variable {f : UpdateFilter} {s : WatchState} {e : WatchEvent} {v w : Node} {name : String}

/-! ### What was given last -/

/-- The events of a run, each with the names that it gave. -/
def trace (f : UpdateFilter) (s : WatchState) : List WatchEvent → List (WatchEvent × List String)
  | [] => []
  | e :: rest => (e, (s.handle f e).2) :: (s.handle f e).1.trace f rest

theorem trace_append (f : UpdateFilter) (s : WatchState) (es later : List WatchEvent) :
    s.trace f (es ++ later) = s.trace f es ++ (s.handleAll f es).1.trace f later := by
  induction es generalizing s with
  | nil => rfl
  | cons e rest ih => simp [trace, handleAll, ih]

/-- The node that an event shows, if it gives the name. -/
def givenNode? (name : String) (x : WatchEvent × List String) : Option Node :=
  if name ∈ x.2 then x.1.shown? else none

/-- The node shown by the last event that shows a node and gives the name. -/
def lastGiven? (f : UpdateFilter) (es : List WatchEvent) (name : String) : Option Node :=
  ((({} : WatchState).trace f es).filterMap (givenNode? name)).getLast?

/-! ### One more event -/

theorem lastGiven?_snoc (f : UpdateFilter) (es : List WatchEvent) (e : WatchEvent)
    (name : String) :
    lastGiven? f (es ++ [e]) name =
      (givenNode? name (e, ((({} : WatchState).handleAll f es).1.handle f e).2)).or
        (lastGiven? f es name) := by
  rw [lastGiven?, lastGiven?, trace_append, List.filterMap_append, List.getLast?_append]
  congr 1
  show (List.filterMap _ [_]).getLast? = _
  cases hg : givenNode? name (e, ((({} : WatchState).handleAll f es).1.handle f e).2) <;>
    simp [hg]

theorem handleAll_snoc (f : UpdateFilter) (s : WatchState) (es : List WatchEvent)
    (e : WatchEvent) :
    (s.handleAll f (es ++ [e])).1 = ((s.handleAll f es).1.handle f e).1 := by
  rw [handleAll_append]
  rfl

/-- If a version in the map is covered, so is the one after the next event, by what was given for
that event if it was given. -/
theorem covers_handle (f : UpdateFilter) (s : WatchState) (e : WatchEvent) {last : Option Node}
    (hlast : ∀ u, s.seen.get? name = some u → ∃ v, last = some v ∧ v.name = name ∧ f.Covers v u)
    (hw : (s.handle f e).1.seen.get? name = some w) :
    ∃ v, (givenNode? name (e, (s.handle f e).2)).or last = some v ∧ v.name = name ∧
      f.Covers v w := by
  rcases handle_cases f s e name with ⟨hsame, hnot⟩ | ⟨n, hshown, hn, hnow, hgiven⟩ | ⟨-, hgone, -⟩
  · -- nothing happens to the name
    rw [hsame] at hw
    obtain ⟨v, hv, hname, hcovers⟩ := hlast w hw
    exact ⟨v, by simp [givenNode?, hnot, hv], hname, hcovers⟩
  · obtain rfl : n = w := by simpa [hnow] using hw
    by_cases hmem : name ∈ (s.handle f e).2
    · exact ⟨n, by simp [givenNode?, hmem, hshown], hn, .refl f n⟩
    · -- held back, so there was a version before it
      have hold : ∃ old, s.seen.get? name = some old ∧ f.admits old n = false := by
        rw [hgiven] at hmem
        simpa using hmem
      obtain ⟨old, hbefore, hheld⟩ := hold
      obtain ⟨v, hv, hname, hcovers⟩ := hlast old hbefore
      exact ⟨v, by simp [givenNode?, hmem, hv], hname, hcovers.heldBack hheld⟩
  · rw [hgone] at hw
    cases hw

/-! ### A whole run -/

theorem lastGiven?_covers (f : UpdateFilter) (es : List WatchEvent) (name : String) :
    ∀ w, (({} : WatchState).handleAll f es).1.seen.get? name = some w →
      ∃ v, lastGiven? f es name = some v ∧ v.name = name ∧ f.Covers v w := by
  -- on the last event, since what counts is the version given last
  induction es using List.reverseRecOn with
  | nil =>
    intro w hw
    cases hw
  | append_singleton es e ih =>
    intro w hw
    rw [handleAll_snoc] at hw
    rw [lastGiven?_snoc]
    exact covers_handle f _ e ih hw

/-- For every node in the map, the version that was given last agrees with the one in the map:
behind no gate in identity, and always in having each of its instance id annotations. -/
theorem given_version_covers (f : UpdateFilter) (es : List WatchEvent) (name : String) (w : Node)
    (hw : (({} : WatchState).handleAll f es).1.seen.get? name = some w) :
    ∃ v, lastGiven? f es name = some v ∧ v.name = name ∧
      (f.annotatedOnly = false ∨ w.isAnnotated = true → v.SameIdentity w) ∧
      (f.annotatedOnly = true → ∀ key ∈ Node.idKeys,
        w.annotations.contains key = true → v.annotations.contains key = true) := by
  obtain ⟨v, hv, hname, hcovers⟩ := lastGiven?_covers f es name w hw
  exact ⟨v, hv, hname, hcovers.identity, hcovers.idKeys⟩

def annotated (providerId : String) (keys : List String) : Node where
  metadata :=
    { name := some "n1", annotations := some (Table.ofList (keys.map fun key => (key, "i-1"))) }
  spec := some { podCidr := some "10.244.1.0/24", providerId := some providerId }

/-- The provider id changes behind the gate of the missing annotation; the node is given again when
an annotation comes back, and a relist then gives nothing. -/
def gatedRun : List WatchEvent :=
  [.applied (annotated "p-1" [Node.idKey]), .applied (annotated "p-2" []),
    .applied (annotated "p-2" [Node.legacyIdKey])] ++
    WatchEvent.ofList [annotated "p-2" [Node.legacyIdKey]]

theorem gated_change_is_given :
    (({} : WatchState).handleAll ⟨true⟩ gatedRun).2 = ["n1", "n1"] ∧
      ∃ v, lastGiven? ⟨true⟩ gatedRun "n1" = some v ∧
        v.SameIdentity (annotated "p-2" [Node.legacyIdKey]) := by
  have hseen : (({} : WatchState).handleAll ⟨true⟩ gatedRun).1.seen.get? "n1" =
      some (annotated "p-2" [Node.legacyIdKey]) := by decide +kernel
  obtain ⟨v, hv, -, hsame, -⟩ := given_version_covers ⟨true⟩ gatedRun "n1" _ hseen
  exact ⟨by decide +kernel, v, hv, hsame (Or.inr (by decide +kernel))⟩

end WatchState

end PodRoutes
