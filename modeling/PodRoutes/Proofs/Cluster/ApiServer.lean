import PodRoutes.Proofs.Node.Patched
import PodRoutes.Proofs.Web.Ends

/-!
# A server that keeps a node

The server keeps the document of one node, and gives every document that is written a version that
it never gave before. It takes a patch that names no version or the one that the node has, and any
request may fail without an effect; the answer to a patch that was taken may be lost. Others may
write what they like in between, or remove the node. Hence a document is known by its version
(`Recalls.served`, `Recalls.drifts`).
-/

namespace PodRoutes

open Json

namespace Cluster

/-- The version that a document or a patch names. -/
def version? (doc : Json) : Option String :=
  (valueAt "resourceVersion" (valueAt "metadata" doc)).text?

/-- A document with a patch and a new version. -/
def patched (doc patch : Json) (version : String) : Json :=
  mergePatch (mergePatch doc patch) (Node.versionPatch version)

/-- The node under a name, with all the versions that were given so far. -/
structure ApiServer where
  node : Option Json
  given : List String
  named : ∀ doc ∈ node, ∃ version ∈ given, version? doc = some version

namespace ApiServer

/-! ### What others do -/

inductive Written : ApiServer → ApiServer → Prop
  | stored {s s' : ApiServer} {doc : Json} {version : String} (fresh : version ∉ s.given)
      (named : version? doc = some version) (node : s'.node = some doc)
      (given : s'.given = version :: s.given) : Written s s'
  | removed {s s' : ApiServer} (node : s'.node = none) (given : s'.given = s.given) : Written s s'

/-! ### What it answers -/

def Failed (x : Except TransportFault Web.HttpResponse) : Prop :=
  ∀ response, x = .ok response → isFailure response.status = true

def Shows (response : Web.HttpResponse) (doc : Json) : Prop :=
  isFailure response.status = false ∧ Json.parse? response.body.read = some doc

/-- Whether a target is that of the node or of its status. -/
def Addressed (name target : String) : Prop :=
  nodeTarget? name "" = some target ∨ nodeTarget? name "/status" = some target

inductive Serves (name : String) : Web.Service ApiServer
  /-- A request that is refused, a patch of another version with 409, or that gets no answer. -/
  | failed {request : Web.HttpRequest} {limit : Option Nat} {s : ApiServer}
      {x : Except TransportFault Web.HttpResponse} (failure : Failed x) :
      Serves name (.send request limit) s x s
  | shown {request : Web.HttpRequest} {limit : Option Nat} {s : ApiServer} {doc : Json}
      {response : Web.HttpResponse} (method : request.method = .get)
      (target : nodeTarget? name "" = some request.target) (node : s.node = some doc)
      (shows_doc : Shows response doc) : Serves name (.send request limit) s (.ok response) s
  | taken {request : Web.HttpRequest} {limit : Option Nat} {s s' : ApiServer} {doc patch : Json}
      {version : String} {x : Except TransportFault Web.HttpResponse}
      (method : request.method = .patch) (target : Addressed name request.target)
      (body : request.body = some patch) (node : s.node = some doc)
      (current : ∀ v, version? patch = some v → version? doc = some v)
      (fresh : version ∉ s.given) (after : s'.node = some (patched doc patch version))
      (given : s'.given = version :: s.given)
      (shows_doc : ∀ response, x = .ok response → Shows response (patched doc patch version)) :
      Serves name (.send request limit) s x s'
  | elsewhere {request : Web.HttpRequest} {limit : Option Nat} {s : ApiServer}
      {x : Except TransportFault Web.HttpResponse} (target : ¬Addressed name request.target) :
      Serves name (.send request limit) s x s
  | paused (millis : Nat) (s : ApiServer) : Serves name (.pause millis) s () s
  | now (s : ApiServer) (x : Nat) : Serves name .now s x s
  | date (s : ApiServer) (x : Instant) (kept : x.Kept) : Serves name .date s x s

/-! ### A version stands for a document -/

/-- The document is the only one that ever has its version. -/
structure Recalls (doc : Json) (version : String) (s : ApiServer) : Prop where
  given : version ∈ s.given
  only : ∀ d ∈ s.node, version? d = some version → d = doc

variable {name : String} {doc : Json} {version : String} {s s' : ApiServer}

theorem version?_patched (doc patch : Json) (version : String) :
    version? (patched doc patch version) = some version := by
  rw [version?, patched, valueAt_of_single (Node.valuesAt_metadata_versionPatch _ version),
    valueAt_of_single (valuesAt_versioned _ version)]
  rfl

/-- A document that is new has another version. -/
theorem Recalls.renewed (h : Recalls doc version s) {d : Json} {v : String} (fresh : v ∉ s.given)
    (hd : version? d = some v) (hnode : s'.node = some d) (hgiven : s'.given = v :: s.given) :
    Recalls doc version s' := by
  refine ⟨hgiven ▸ List.mem_cons_of_mem _ h.given, fun d' hd' hversion => ?_⟩
  obtain rfl : d = d' := Option.some.inj (hnode.symm.trans hd')
  obtain rfl : v = version := Option.some.inj (hd.symm.trans hversion)
  exact absurd h.given fresh

theorem Recalls.written (h : Recalls doc version s) (hs : Written s s') :
    Recalls doc version s' := by
  cases hs with
  | stored fresh named node given => exact h.renewed fresh named node given
  | removed node given => exact ⟨given ▸ h.given, by simp [node]⟩

theorem Recalls.drifts (h : Recalls doc version s) (hs : Relation.ReflTransGen Written s s') :
    Recalls doc version s' := by
  induction hs with
  | refl => exact h
  | tail _ step ih => exact ih.written step

theorem Recalls.served (h : Recalls doc version s) {r : Web.Request} {x : Web.Reply r}
    (hs : Serves name r s x s') : Recalls doc version s' := by
  cases hs with
  | taken _ _ _ _ _ fresh after given => exact h.renewed fresh (version?_patched ..) after given
  | failed | shown | elsewhere | paused | now | date => exact h

theorem recalls_of_node (h : s.node = some doc) (hversion : version? doc = some version) :
    Recalls doc version s := by
  obtain ⟨v, hv, hdoc⟩ := s.named doc h
  obtain rfl : v = version := Option.some.inj (hdoc.symm.trans hversion)
  exact ⟨hv, fun d hd _ => Option.some.inj (hd.symm.trans h)⟩

end ApiServer

end Cluster

end PodRoutes
