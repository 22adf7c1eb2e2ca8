import Mathlib
import PodRoutes.Proofs.Cluster.ApiServer
import PodRoutes.Proofs.Json.Written
import PodRoutes.Reconcile.Node

/-!
# Updates of the network condition

The network condition of a node is set by attempts to read the node, change it and patch its status.
A patch that the server takes replaces the very document that was read, whatever others wrote
before, between and after (`attempt_of_ends`): the node is then read with the conditions that it
had, the network condition set, and with everything else as it was, and what its type does not
declare has stayed as well (`Updated`), but for members of the items of a list, which is replaced as
a whole (`undeclared_member_is_lost`). An attempt that ends in a conflict is followed by another
one, which reads the node again; there are at most three, and every other end is the end of the
update.
-/

namespace PodRoutes

/-- The node with the times of its conditions in whole seconds. -/
def Node.wholeSeconds (n : Node) : Node :=
  { n with
    status := n.status.map fun s =>
      { s with conditions := s.conditions.map fun cs => cs.map Condition.wholeSeconds } }

def Node.withVersion (version : String) (n : Node) : Node :=
  { n with metadata := { n.metadata with resourceVersion := some version } }

namespace Cluster

open Json
open ApiServer (Written Serves)
open Relation (ReflTransGen)

/-! ### One attempt -/

/-- What is read of the answer to a request for a node. -/
def answered (x : Except TransportFault Web.HttpResponse) : Except ClusterFault Node :=
  match x with
  | .ok response => read Node.ofJson? response
  | .error _ => .error .badRequest

/-- The network condition was set. Nothing else that is read of a node has changed, and nothing that
its type does not declare, outside of lists. -/
def Updated (routeCreated : Bool) (now : Instant) (before after : Json) : Prop :=
  OthersKept before after ∧ ∃ n version, Node.ofJson? before = some n ∧
    Node.ofJson? after =
      some ((n.setNetworkCondition routeCreated now).wholeSeconds.withVersion version)

/-- The patch of the status that an attempt sends after it read a node. -/
def updateRequest (routeCreated : Bool) (now : Instant) (n : Node) (target : String) :
    Web.HttpRequest :=
  patchRequest target
    (statusPatch n.metadata.resourceVersion (n.setNetworkCondition routeCreated now))

/-- How an attempt to set the network condition of a node may go. -/
inductive Attempt (name : String) (routeCreated : Bool) :
    List (Web.Turn ApiServer) → Outcome Unit → Prop
  | unaddressed (h : nodeTarget? name "" = none) :
      Attempt name routeCreated [] (.error (.cluster .badRequest))
  | unread {target : String} {s : ApiServer} {x : Except TransportFault Web.HttpResponse}
      {fault : ClusterFault} (fetched : nodeTarget? name "" = some target)
      (reply : answered x = .error fault) :
      Attempt name routeCreated [⟨.send (getRequest target) none, s, some x, s⟩]
        (.error (if fault.isNotFound then .nodeNotFound name else .cluster fault))
  /-- The node says already what it should, or its patch cannot be sent. -/
  | unsent {target : String} {s s₁ : ApiServer} {x : Except TransportFault Web.HttpResponse}
      {n : Node} {now : Instant} {a : Outcome Unit} (fetched : nodeTarget? name "" = some target)
      (reply : answered x = .ok n)
      (result : n.setNetworkCondition routeCreated now = n ∧ a = .ok () ∨
        nodeTarget? name "/status" = none ∧ a = .error (.cluster .badRequest)) :
      Attempt name routeCreated [⟨.send (getRequest target) none, s, some x, s⟩,
        ⟨.date, s₁, some now, s₁⟩] a
  | refused {target statusTarget : String} {s s₁ s₂ : ApiServer}
      {x y : Except TransportFault Web.HttpResponse} {n : Node} {now : Instant}
      {fault : ClusterFault} (fetched : nodeTarget? name "" = some target)
      (reply : answered x = .ok n) (sent : nodeTarget? name "/status" = some statusTarget)
      (refusal : answered y = .error fault) :
      Attempt name routeCreated [⟨.send (getRequest target) none, s, some x, s⟩,
        ⟨.date, s₁, some now, s₁⟩,
        ⟨.send (updateRequest routeCreated now n statusTarget) none, s₂, some y, s₂⟩]
        (.error (.cluster fault))
  /-- The document that is replaced is the one that was read. -/
  | taken {target statusTarget : String} {s s₁ s₂ s₃ : ApiServer} {doc after : Json}
      {x y : Except TransportFault Web.HttpResponse} {n : Node} {now : Instant}
      {a : Outcome Unit} (fetched : nodeTarget? name "" = some target)
      (reply : answered x = .ok n) (read_doc : s.node = some doc)
      (sent : nodeTarget? name "/status" = some statusTarget)
      (replaced : s₂.node = some doc) (stored : s₃.node = some after)
      (updated : Updated routeCreated now doc after)
      (result : a = .ok () ∨ ∃ fault, y = .error fault ∧ a = .error (.cluster .badRequest)) :
      Attempt name routeCreated [⟨.send (getRequest target) none, s, some x, s⟩,
        ⟨.date, s₁, some now, s₁⟩,
        ⟨.send (updateRequest routeCreated now n statusTarget) none, s₂, some y, s₃⟩] a

/-! ### The requests of an attempt -/

section

variable {name : String} {routeCreated : Bool} {s s' : ApiServer} {t : List (Web.Turn ApiServer)}

/-- A client and a server with others writing in between. -/
abbrev Ends {α : Type} (name : String) (p : Web α) (s : ApiServer)
    (t : List (Web.Turn ApiServer)) (a : α) (s' : ApiServer) : Prop :=
  Web.Ends (Serves name) Written p s t a s'

theorem ends_ask {β : Type} {r : Web.HttpRequest} {f : Except ClusterFault Node → Web β} {b : β}
    (h : Ends name (ask Node.ofJson? r >>= f) s t b s') :
    ∃ x s₁ s₂ t', ReflTransGen Written s s₁ ∧ Serves name (.send r none) s₁ x s₂ ∧
      Ends name (f (answered x)) s₂ t' b s' ∧ t = ⟨.send r none, s₁, some x, s₂⟩ :: t' := by
  obtain ⟨x, s₁, s₂, t', hdrift, answer, rest, rfl⟩ := Web.Ends.ask_inv h
  refine ⟨x, s₁, s₂, t', hdrift, answer, ?_, rfl⟩
  cases x <;> exact rest

/-- What a client makes of the answer to its request for a node. -/
theorem ends_fetch {β : Type} {f : Except ClusterFault (Option Node) → Web β} {b : β}
    (h : Ends name (fetch name >>= f) s t b s') :
    (nodeTarget? name "" = none ∧ Ends name (f (.error .badRequest)) s t b s') ∨
      ∃ target x s₁ s₂ t', nodeTarget? name "" = some target ∧ ReflTransGen Written s s₁ ∧
        Serves name (.send (getRequest target) none) s₁ x s₂ ∧
        t = ⟨.send (getRequest target) none, s₁, some x, s₂⟩ :: t' ∧
        ((∃ n, answered x = .ok n ∧ Ends name (f (.ok (some n))) s₂ t' b s') ∨
          ∃ fault, answered x = .error fault ∧
            Ends name (f (if fault.isNotFound then .ok none else .error fault)) s₂ t' b s') := by
  rw [fetch] at h
  cases htarget : nodeTarget? name "" with
  | none =>
    rw [htarget] at h
    exact .inl ⟨rfl, h⟩
  | some target =>
    rw [htarget] at h
    simp only [bind_assoc] at h
    obtain ⟨x, s₁, s₂, t', hdrift, answer, rest, rfl⟩ := ends_ask h
    refine .inr ⟨target, x, s₁, s₂, t', rfl, hdrift, answer, rfl, ?_⟩
    cases hx : answered x with
    | ok n =>
      rw [hx] at rest
      exact .inl ⟨n, rfl, rest⟩
    | error fault =>
      rw [hx] at rest
      exact .inr ⟨fault, rfl, rest⟩

theorem ends_date {β : Type} {f : Instant → Web β} {b : β}
    (h : Ends name (Web.date >>= f) s t b s') :
    ∃ now s₁ t', now.Kept ∧ ReflTransGen Written s s₁ ∧ t = ⟨.date, s₁, some now, s₁⟩ :: t' ∧
      Ends name (f now) s₁ t' b s' := by
  obtain ⟨now, s₁, s₂, t', hdrift, answer, rest, rfl⟩ := Web.Ends.ask_inv h
  cases answer with
  | date _ _ kept => exact ⟨now, s₁, t', kept, hdrift, rfl, rest⟩

theorem ends_writeStatus {β : Type} {version : Option String} {n : Node}
    {f : Except ClusterFault Unit → Web β} {b : β}
    (h : Ends name (writeBack name .status version n >>= f) s t b s') :
    (nodeTarget? name "/status" = none ∧ Ends name (f (.error .badRequest)) s t b s') ∨
      ∃ target y s₁ s₂ t', nodeTarget? name "/status" = some target ∧
        ReflTransGen Written s s₁ ∧
        Serves name (.send (patchRequest target (statusPatch version n)) none) s₁ y s₂ ∧
        t = ⟨.send (patchRequest target (statusPatch version n)) none, s₁, some y, s₂⟩ :: t' ∧
        Ends name (f ((answered y).map fun _ => ())) s₂ t' b s' := by
  have hwrite : writeBack name .status version n =
      (do return (← write name "/status" (statusPatch version n)).map fun _ => ()) := rfl
  rw [hwrite, write] at h
  cases htarget : nodeTarget? name "/status" with
  | none =>
    rw [htarget] at h
    exact .inl ⟨rfl, h⟩
  | some target =>
    rw [htarget] at h
    simp only [bind_assoc] at h
    obtain ⟨y, s₁, s₂, t', hdrift, answer, rest, rfl⟩ := ends_ask h
    refine .inr ⟨target, y, s₁, s₂, t', rfl, hdrift, answer, rfl, ?_⟩
    cases hy : answered y <;> simpa [hy, Except.map] using rest

theorem answered_of_failed {x : Except TransportFault Web.HttpResponse}
    (h : ApiServer.Failed x) : ∃ fault, answered x = .error fault := by
  cases x with
  | error fault => exact ⟨_, rfl⟩
  | ok response =>
    refine ⟨refusal response.status response.body.read, ?_⟩
    rw [answered, read, if_pos (h response rfl)]

theorem answered_of_shows {response : Web.HttpResponse} {doc : Json}
    (h : ApiServer.Shows response doc) :
    answered (.ok response) = match Node.ofJson? doc with
      | some n => .ok n
      | none => .error .unreadable := by
  rw [answered, read, if_neg (by simp [h.1]), h.2, Option.bind_some]
  cases Node.ofJson? doc <;> rfl

theorem served_fetch {target : String} {s₁ s₂ : ApiServer}
    {x : Except TransportFault Web.HttpResponse} (htarget : nodeTarget? name "" = some target)
    (h : Serves name (.send (getRequest target) none) s₁ x s₂) :
    s₂ = s₁ ∧ ∀ n, answered x = .ok n → ∃ doc, s₁.node = some doc ∧ Node.ofJson? doc = some n := by
  cases h with
  | failed failure =>
    obtain ⟨fault, hfault⟩ := answered_of_failed failure
    exact ⟨rfl, fun n hn => by simp [hfault] at hn⟩
  | @shown _ _ _ doc response _ _ node shows_doc =>
    refine ⟨rfl, fun n hn => ⟨doc, node, ?_⟩⟩
    rw [answered_of_shows shows_doc] at hn
    cases hdoc : Node.ofJson? doc with
    | none => simp [hdoc] at hn
    | some n' =>
      rw [hdoc] at hn
      exact congrArg some (Except.ok.inj hn)
  | taken method => cases method
  | elsewhere other => exact absurd (.inl htarget) other

/-! ### A patch that is taken -/

theorem kept_placeNetworkCondition {now : Instant} (hnow : now.Kept) {l : List Condition}
    (h : ∀ c ∈ l, c.Kept) : ∀ c ∈ Node.placeNetworkCondition routeCreated now l, c.Kept := by
  have hnew : (Node.networkCondition routeCreated now).Kept := by
    constructor <;>
    · intro x hx
      cases hx
      exact hnow
  intro c hc
  rw [Node.placeNetworkCondition] at hc
  split at hc
  · rcases List.mem_or_eq_of_mem_set hc with hc | rfl
    · exact h c hc
    · exact hnew
  · rcases List.mem_append.1 hc with hc | hc
    · exact h c hc
    · rw [List.mem_singleton.1 hc]
      exact hnew

theorem updated_of_patched (routeCreated : Bool) {doc : Json} {n : Node} {now : Instant}
    {version : String} (hdoc : Node.ofJson? doc = some n)
    (hversion : n.metadata.resourceVersion = some version) (hnow : now.Kept) (given : String) :
    Updated routeCreated now doc (patched doc (statusPatch n.metadata.resourceVersion
      (n.setNetworkCondition routeCreated now)) given) := by
  let cs := Node.placeNetworkCondition routeCreated now ((n.status.getD {}).conditions.getD [])
  have hpatch : statusPatch n.metadata.resourceVersion (n.setNetworkCondition routeCreated now) =
      n.conditionsPatch version cs := by
    rw [hversion]
    rfl
  have hkept : ∀ c ∈ cs, c.Kept := by
    refine kept_placeNetworkCondition hnow fun c hc => Node.kept_conditions hdoc c ?_
    cases hs : n.status with
    | none => simp [hs] at hc
    | some status => simpa [Node.conditions, hs] using hc
  have hmerged := Node.ofJson?_conditionsPatch version hdoc hkept
  rw [hpatch, patched]
  refine ⟨(Node.othersKept_conditionsPatch version cs hdoc).trans
    (Node.othersKept_versionPatch _ given), n, given, hdoc, ?_⟩
  rw [Node.ofJson?_versionPatch hmerged given]
  rfl

theorem version?_statusPatch (version : String) (n : Node) :
    version? (statusPatch (some version) n) = some version := rfl

theorem served_patch {target : String} {s₂ s₃ : ApiServer} {doc : Json} {n : Node}
    {now : Instant} {y : Except TransportFault Web.HttpResponse}
    (htarget : nodeTarget? name "/status" = some target) (hdoc : Node.ofJson? doc = some n)
    {version : String} (hrecalls : ApiServer.Recalls doc version s₂)
    (hversion : n.metadata.resourceVersion = some version) (hnow : now.Kept)
    (h : Serves name (.send (updateRequest routeCreated now n target) none) s₂ y s₃) :
    (s₃ = s₂ ∧ ∃ fault, answered y = .error fault) ∨
      ∃ after, s₂.node = some doc ∧ s₃.node = some after ∧
        Updated routeCreated now doc after ∧
        ((∃ n', answered y = .ok n') ∨ ∃ fault, y = .error fault) := by
  cases h with
  | failed failure => exact .inl ⟨rfl, answered_of_failed failure⟩
  | shown method => cases method
  | elsewhere other => exact absurd (.inr htarget) other
  | @taken _ _ _ _ before patch given _ _ _ body node current _ after _ shows_doc =>
    refine .inr ⟨patched before patch given, ?_⟩
    cases body
    -- the version that the patch names is that of the document that was read
    have hcurrent : version? before = some version := by
      refine current version ?_
      rw [hversion]
      exact version?_statusPatch version _
    obtain rfl : before = doc := hrecalls.only before node hcurrent
    have hupdated := updated_of_patched routeCreated hdoc hversion hnow given
    refine ⟨node, after, hupdated, ?_⟩
    cases y with
    | error fault => exact .inr ⟨fault, rfl⟩
    | ok response =>
      obtain ⟨-, _, _, -, hafter⟩ := hupdated
      have hread := answered_of_shows (shows_doc response rfl)
      rw [hafter] at hread
      exact .inl ⟨_, hread⟩

/-! ### Attempts -/

theorem exists_version {s : ApiServer} {doc : Json} {n : Node} (h : s.node = some doc)
    (hdoc : Node.ofJson? doc = some n) :
    ∃ version, n.metadata.resourceVersion = some version ∧ version? doc = some version := by
  obtain ⟨version, -, hversion⟩ := s.named doc h
  exact ⟨version, (Node.resourceVersion_of_ofJson? hdoc).trans hversion, hversion⟩

theorem attempt_of_ends {a : Outcome Unit}
    (h : Ends name (patchNode name (Node.setNetworkCondition routeCreated) .status) s t a s') :
    Attempt name routeCreated t a := by
  rcases ends_fetch h with ⟨htarget, rest⟩ | ⟨target, x, s₁, s₂, t', htarget, -, answer, rfl, rest⟩
  · obtain ⟨rfl, rfl, -⟩ := Web.Ends.done_inv rest
    exact .unaddressed htarget
  obtain ⟨rfl, hread⟩ := served_fetch htarget answer
  rcases rest with ⟨n, hn, rest⟩ | ⟨fault, hfault, rest⟩
  · obtain ⟨now, s₃, t', hnow, hdrift, rfl, hdated⟩ := ends_date rest
    by_cases hsame : n.setNetworkCondition routeCreated now = n
    · rw [if_pos hsame] at hdated
      obtain ⟨rfl, rfl, -⟩ := Web.Ends.done_inv hdated
      exact .unsent htarget hn (.inl ⟨hsame, rfl⟩)
    rw [if_neg hsame] at hdated
    rcases ends_writeStatus hdated with
      ⟨hlong, hend⟩ | ⟨statusTarget, y, s₄, s₅, t', hstatus, hlater, answer, rfl, hend⟩
    · obtain ⟨rfl, rfl, -⟩ := Web.Ends.done_inv hend
      exact .unsent htarget hn (.inr ⟨hlong, rfl⟩)
    obtain ⟨rfl, ha, -⟩ := Web.Ends.done_inv hend
    obtain ⟨doc, hnode, hdoc⟩ := hread n hn
    obtain ⟨version, hversion, hnamed⟩ := exists_version hnode hdoc
    have hrecalls : ApiServer.Recalls doc version s₄ :=
      ((ApiServer.recalls_of_node hnode hnamed).drifts hdrift).drifts hlater
    rcases served_patch hstatus hdoc hrecalls hversion hnow answer with
      ⟨rfl, fault, hfault⟩ | ⟨after, hbefore, hafter, hupdated, hreply⟩
    · rw [hfault] at ha
      subst ha
      exact .refused htarget hn hstatus hfault
    · refine .taken htarget hn hnode hstatus hbefore hafter hupdated ?_
      rcases hreply with ⟨n', hn'⟩ | ⟨fault, rfl⟩
      · rw [hn'] at ha
        exact .inl ha.symm
      · exact .inr ⟨fault, rfl, ha.symm⟩
  · have hend : t' = [] ∧ a = .error (if fault.isNotFound then .nodeNotFound name
        else .cluster fault) := by
      cases hmissing : fault.isNotFound with
      | true =>
        rw [hmissing] at rest
        obtain ⟨ht, ha, -⟩ := Web.Ends.done_inv rest
        exact ⟨ht, ha.symm⟩
      | false =>
        rw [hmissing] at rest
        obtain ⟨ht, ha, -⟩ := Web.Ends.done_inv rest
        exact ⟨ht, ha.symm⟩
    obtain ⟨rfl, rfl⟩ := hend
    exact .unread htarget hfault

end

/-! ### The whole update -/

/-- The requests of the controller about nodes, carried out over the server's API. -/
def client (others : (r : Control.Request) → Web (Control.Reply r)) :
    (r : Control.Request) → Web (Control.Reply r)
  | .getNode name => getNode name
  | .listNodes => listNodes
  | .patchNode name edit scope => patchNode name edit scope
  | r => others r

/-- At most so many attempts: after a conflict the next one, and otherwise the end. -/
inductive Attempts (name : String) (routeCreated : Bool) :
    Nat → List (Web.Turn ApiServer) → Outcome Unit → Prop
  | decided {left : Nat} {t : List (Web.Turn ApiServer)} {a : Outcome Unit}
      (attempt : Attempt name routeCreated t a)
      (settled : ∀ e, a = .error e → e.isConflict = false) :
      Attempts name routeCreated (left + 1) t a
  | again {left : Nat} {t t' : List (Web.Turn ApiServer)} {e : RouteError} {a : Outcome Unit}
      (attempt : Attempt name routeCreated t (.error e)) (conflict : e.isConflict = true)
      (rest : Attempts name routeCreated left t' a) :
      Attempts name routeCreated (left + 1) (t ++ t') a
  | exhausted {t : List (Web.Turn ApiServer)} {e : RouteError}
      (attempt : Attempt name routeCreated t (.error e)) (conflict : e.isConflict = true) :
      Attempts name routeCreated 1 t (.error e)

/-- A turn in which a patch took the place of the document that it was computed from. -/
def Replaces (routeCreated : Bool) (turn : Web.Turn ApiServer) : Prop :=
  ∃ before now after, turn.before.node = some before ∧ turn.after.node = some after ∧
    Updated routeCreated now before after

section

variable {name : String} {routeCreated : Bool} {s s' : ApiServer} {t : List (Web.Turn ApiServer)}
  {a : Outcome Unit} {others : (r : Control.Request) → Web (Control.Reply r)}

/-- The first attempt decides, or it ends in a conflict and the rest follows. -/
theorem ends_patchCondition {left : Nat} {last : RouteError}
    (h : Ends name ((Reconcile.patchCondition name routeCreated (left + 1) last).over
      (client others)) s t a s') :
    (Attempt name routeCreated t a ∧ ∀ e, a = .error e → e.isConflict = false) ∨
      ∃ t₁ e s₁ t₂, t = t₁ ++ t₂ ∧ Attempt name routeCreated t₁ (.error e) ∧
        e.isConflict = true ∧ Ends name ((Reconcile.patchCondition name routeCreated left e).over
          (client others)) s₁ t₂ a s' := by
  obtain ⟨t₁, x, s₁, t₂, hpatch, hrest, rfl⟩ := Web.Ends.bind_inv h
  have hfirst := attempt_of_ends hpatch
  cases x with
  | ok _ =>
    obtain ⟨rfl, rfl, -⟩ := Web.Ends.done_inv hrest
    rw [List.append_nil]
    exact .inl ⟨hfirst, nofun⟩
  | error e =>
    change Ends name ((if e.isConflict = true then Reconcile.patchCondition name routeCreated left e
      else .done (.error e)).over (client others)) s₁ t₂ a s' at hrest
    cases hconflict : e.isConflict with
    | true =>
      rw [hconflict, if_pos rfl] at hrest
      exact .inr ⟨t₁, e, s₁, t₂, rfl, hfirst, hconflict, hrest⟩
    | false =>
      rw [hconflict, if_neg nofun] at hrest
      obtain ⟨rfl, rfl, -⟩ := Web.Ends.done_inv hrest
      rw [List.append_nil]
      refine .inl ⟨hfirst, ?_⟩
      rintro e' ⟨⟩
      exact hconflict

theorem attempts_of_ends {left : Nat} {last : RouteError}
    (h : Ends name ((Reconcile.patchCondition name routeCreated (left + 1) last).over
      (client others)) s t a s') : Attempts name routeCreated (left + 1) t a := by
  induction left generalizing s t last with
  | zero =>
    rcases ends_patchCondition h with ⟨hfirst, hsettled⟩ | ⟨t₁, e, s₁, t₂, rfl, hfirst, he, hrest⟩
    · exact .decided hfirst hsettled
    · obtain ⟨rfl, rfl, -⟩ := Web.Ends.done_inv hrest
      rw [List.append_nil]
      exact .exhausted hfirst he
  | succ left ih =>
    rcases ends_patchCondition h with ⟨hfirst, hsettled⟩ | ⟨t₁, e, s₁, t₂, rfl, hfirst, he, hrest⟩
    · exact .decided hfirst hsettled
    · exact .again hfirst he (ih hrest)

theorem Attempt.unchanged_or_replaces (h : Attempt name routeCreated t a) :
    ∀ turn ∈ t, turn.after = turn.before ∨ Replaces routeCreated turn := by
  cases h with
  | unaddressed | unread | unsent | refused => simp
  | taken fetched reply read_doc sent replaced stored updated result =>
    simp only [List.forall_mem_cons, List.not_mem_nil, false_imp_iff, implies_true, and_true,
      true_or, true_and]
    exact .inr ⟨_, _, _, replaced, stored, updated⟩

theorem Attempts.unchanged_or_replaces {left : Nat} (h : Attempts name routeCreated left t a) :
    ∀ turn ∈ t, turn.after = turn.before ∨ Replaces routeCreated turn := by
  induction h with
  | decided attempt => exact attempt.unchanged_or_replaces
  | exhausted attempt => exact attempt.unchanged_or_replaces
  | again attempt conflict rest ih =>
    intro turn hturn
    rcases List.mem_append.1 hturn with hturn | hturn
    · exact attempt.unchanged_or_replaces turn hturn
    · exact ih turn hturn

/-- **An update of the network condition loses nothing of what others write.** Whatever they write
and whenever, the update changes the node only by patches that are taken, each of which replaces the
document that it was computed from; it makes at most three attempts, of which each reads the node
first, and goes on only after a conflict. -/
theorem status_updates_lose_nothing (others : (r : Control.Request) → Web (Control.Reply r))
    (node : Node) (routeCreated : Bool) {s s' : ApiServer} {t : List (Web.Turn ApiServer)}
    {a : Outcome Unit} (h : Web.Ends (Serves node.name) Written
      ((Reconcile.updateCondition node routeCreated).over (client others)) s t a s') :
    (∀ turn ∈ t, turn.after = turn.before ∨ Replaces routeCreated turn) ∧
      ((node.networkConditionIsCurrent routeCreated = true ∧ t = [] ∧ a = .ok ()) ∨
        Attempts node.name routeCreated 3 t a) := by
  rw [Reconcile.updateCondition] at h
  split at h
  · rename_i hcurrent
    obtain ⟨rfl, rfl, -⟩ := Web.Ends.done_inv h
    exact ⟨by simp, .inl ⟨hcurrent, rfl, rfl⟩⟩
  · have hattempts := attempts_of_ends h
    exact ⟨hattempts.unchanged_or_replaces, .inr hattempts⟩

/-! ### A run with a conflict -/

theorem ends_of_ask {name : String} {s s' : ApiServer} {r : Web.HttpRequest}
    {x : Except TransportFault Web.HttpResponse} (h : Serves name (.send r none) s x s') :
    Ends name (ask Node.ofJson? r) s [⟨.send r none, s, some x, s'⟩] (answered x) s' :=
  .ask h (by cases x <;> exact .done _ _)

theorem ends_of_date {name : String} (s : ApiServer) {now : Instant} (h : now.Kept) :
    Ends name Web.date s [⟨.date, s, some now, s⟩] now s :=
  .ask (.date s now h) (.done now s)

theorem ends_of_sent {name : String} {routeCreated : Bool} {target statusTarget : String}
    {s s₁ s₂ : ApiServer} {x y : Except TransportFault Web.HttpResponse} {n : Node} {now : Instant}
    (htarget : nodeTarget? name "" = some target)
    (hstatus : nodeTarget? name "/status" = some statusTarget) (hx : answered x = .ok n)
    (hread : Serves name (.send (getRequest target) none) s x s) (hnow : now.Kept)
    (hnew : n.setNetworkCondition routeCreated now ≠ n) (hdrift : ReflTransGen Written s s₁)
    (hsent : Serves name (.send (updateRequest routeCreated now n statusTarget) none) s₁ y s₂) :
    Ends name (patchNode name (Node.setNetworkCondition routeCreated) .status) s
      [⟨.send (getRequest target) none, s, some x, s⟩, ⟨.date, s, some now, s⟩,
        ⟨.send (updateRequest routeCreated now n statusTarget) none, s₁, some y, s₂⟩]
      (((answered y).map fun _ => ()).mapError .cluster) s₂ := by
  have hfetch : Ends name (fetch name) s [⟨.send (getRequest target) none, s, some x, s⟩]
      (.ok (some n)) s := by
    rw [fetch, htarget]
    have hask := ends_of_ask hread
    rw [hx] at hask
    exact hask.bind (.done _ s)
  have hsend : Ends name (writeBack name .status n.metadata.resourceVersion
      (n.setNetworkCondition routeCreated now)) s₁
      [⟨.send (updateRequest routeCreated now n statusTarget) none, s₁, some y, s₂⟩]
      ((answered y).map fun _ => ()) s₂ := by
    have hwrite : writeBack name .status n.metadata.resourceVersion
        (n.setNetworkCondition routeCreated now) = (do
          let version ← write name "/status"
            (statusPatch n.metadata.resourceVersion (n.setNetworkCondition routeCreated now))
          return version.map fun _ => ()) := rfl
    have hmap : Except.map (fun _ => ()) (Except.map (fun n => n.metadata.resourceVersion)
        (answered y)) = (answered y).map fun _ => () := by cases answered y <;> rfl
    rw [hwrite, write, hstatus, ← hmap]
    exact (ends_of_ask hsent).map.map
  have hrest : Ends name (if n.setNetworkCondition routeCreated now = n then .done (.ok ()) else do
      return (← writeBack name .status n.metadata.resourceVersion
        (n.setNetworkCondition routeCreated now)).mapError RouteError.cluster) s
      [⟨.send (updateRequest routeCreated now n statusTarget) none, s₁, some y, s₂⟩]
      (((answered y).map fun _ => ()).mapError .cluster) s₂ := by
    rw [if_neg hnew]
    exact .drifts hdrift hsend.map
  exact hfetch.bind ((ends_of_date s hnow).bind hrest)

theorem ends_again {left : Nat} {last e : RouteError} {s₁ : ApiServer}
    {t' : List (Web.Turn ApiServer)} (he : e.isConflict = true)
    (h : Ends name (patchNode name (Node.setNetworkCondition routeCreated) .status) s t
      (.error e) s₁)
    (hrest : Ends name ((Reconcile.patchCondition name routeCreated left e).over
      (client others)) s₁ t' a s') :
    Ends name ((Reconcile.patchCondition name routeCreated (left + 1) last).over
      (client others)) s (t ++ t') a s' := by
  refine h.bind ?_
  change Ends name ((if e.isConflict = true then Reconcile.patchCondition name routeCreated left e
      else .done (.error e)).over (client others)) s₁ t' a s'
  rwa [if_pos he]

theorem ends_settled {left : Nat} {last e : RouteError} (he : e.isConflict = false)
    (h : Ends name (patchNode name (Node.setNetworkCondition routeCreated) .status) s t
      (.error e) s') :
    Ends name ((Reconcile.patchCondition name routeCreated (left + 1) last).over
      (client others)) s t (.error e) s' := by
  have hend : Ends name ((if e.isConflict = true then
      Reconcile.patchCondition name routeCreated left e else .done (.error e)).over
      (client others)) s' [] (.error e) s' := by
    rw [he, if_neg nofun]
    exact .done _ s'
  rw [← List.append_nil t]
  exact h.bind hend

end

def idle : (r : Control.Request) → Web (Control.Reply r)
  | .createRoute _ _ | .findRoute _ | .getNode _ => .done (.ok none)
  | .listRoutes | .listNodes => .done (.ok [])
  | .deleteRoute _ | .patchNode _ _ _ => .done (.ok ())
  | .cachedRoute _ => .done none
  | .record _ | .remember _ _ | .forget _ | .evict _ | .observe _ _ => .done ()
  | .lock | .unlock | .pause _ => .done ()
  | .now => .done Nat.zero
  | .draw => .done (0 : Rat)

/-! The node is read, others report that it is ready and where it is, and the patch is refused. The
second attempt reads what they wrote, and its patch is taken, though the answer is lost. -/

def workerNode : Node := { metadata := { name := some "n1" } }

def silentNode : Node := { metadata := { resourceVersion := some "1" } }

def silentDoc : Json := .record [("metadata", versioned "1")]

def silentText : String := "\x7b\"metadata\":\x7b\"resourceVersion\":\"1\"\x7d\x7d"

def workerAddress : Json :=
  .record [("address", .text "10.0.0.1"), ("type", .text "InternalIP")]

def readyNode : Node where
  metadata := { resourceVersion := some "2" }
  status := some {
    conditions := some [{ type := "Ready", status := "True" }]
    others := [("addresses", .array [workerAddress])] }

def readyItem : Json := .record [("status", .text "True"), ("type", .text "Ready")]

def readyDoc : Json :=
  .record [("metadata", versioned "2"), ("status", .record [
    ("addresses", .array [workerAddress]),
    ("conditions", .array [readyItem])])]

def readyText : String :=
  "\x7b\"metadata\":\x7b\"resourceVersion\":\"2\"\x7d,\"status\":\x7b" ++
    "\"addresses\":[\x7b\"address\":\"10.0.0.1\",\"type\":\"InternalIP\"\x7d]," ++
    "\"conditions\":[\x7b\"status\":\"True\",\"type\":\"Ready\"\x7d]\x7d\x7d"

def updateTime : Instant := ⟨1714979289, 500000000⟩

def connectedDoc : Json :=
  patched readyDoc (statusPatch (some "2") (readyNode.setNetworkCondition true updateTime)) "3"

def silentServer : ApiServer :=
  ⟨some silentDoc, ["1"], fun _ h => ⟨"1", by simp, by cases h; cbv⟩⟩

def readyServer : ApiServer :=
  ⟨some readyDoc, ["2", "1"], fun _ h => ⟨"2", by simp, by cases h; cbv⟩⟩

def connectedServer : ApiServer :=
  ⟨some connectedDoc, ["3", "2", "1"], fun _ h =>
    ⟨"3", by simp, by cases h; exact ApiServer.version?_patched ..⟩⟩

theorem kept_updateTime : updateTime.Kept := ⟨by decide, by decide, by decide⟩

theorem shows_silentDoc : ApiServer.Shows ⟨200, .text silentText⟩ silentDoc :=
  ⟨by decide, by rw [Web.Body.read]; cbv⟩

theorem shows_readyDoc : ApiServer.Shows ⟨200, .text readyText⟩ readyDoc :=
  ⟨by decide, by rw [Web.Body.read]; cbv⟩

theorem ofJson?_silentDoc : Node.ofJson? silentDoc = some silentNode := by cbv

theorem ofJson?_readyDoc : Node.ofJson? readyDoc = some readyNode := by cbv

theorem answered_silent : answered (.ok ⟨200, .text silentText⟩) = .ok silentNode := by
  rw [answered_of_shows shows_silentDoc, ofJson?_silentDoc]

theorem answered_ready : answered (.ok ⟨200, .text readyText⟩) = .ok readyNode := by
  rw [answered_of_shows shows_readyDoc, ofJson?_readyDoc]

theorem answered_conflict : answered (.ok ⟨409, .text ""⟩) =
    .error (.refused 409 "Failed to parse error data" "") := by cbv

theorem nodeTarget?_worker : nodeTarget? workerNode.name "" = some "/api/v1/nodes/n1" := by cbv

theorem nodeTarget?_workerStatus :
    nodeTarget? workerNode.name "/status" = some "/api/v1/nodes/n1/status" := by cbv

theorem written_ready : Written silentServer readyServer :=
  .stored (by simp [silentServer]) (by cbv) (rfl : readyServer.node = some readyDoc)
    (rfl : readyServer.given = "2" :: silentServer.given)

/-- The first attempt, which others get ahead of. -/
theorem ends_conflict : ∃ t, Ends workerNode.name
    (patchNode workerNode.name (Node.setNetworkCondition true) .status) silentServer t
    (.error (.cluster (.refused 409 "Failed to parse error data" ""))) readyServer := by
  have hread : Serves workerNode.name (.send (getRequest "/api/v1/nodes/n1") none) silentServer
      (.ok ⟨200, .text silentText⟩) silentServer :=
    .shown rfl nodeTarget?_worker rfl shows_silentDoc
  have hrefused : Serves workerNode.name (.send (updateRequest true updateTime silentNode
      "/api/v1/nodes/n1/status") none) readyServer (.ok ⟨409, .text ""⟩) readyServer :=
    .failed fun response h => by cases h; decide
  have hsent := ends_of_sent nodeTarget?_worker nodeTarget?_workerStatus answered_silent hread
    kept_updateTime (by simp [Node.setNetworkCondition, silentNode]) (.single written_ready)
    hrefused
  rw [answered_conflict] at hsent
  exact ⟨_, hsent⟩

/-- The second attempt, of which only the answer is lost. -/
theorem ends_lostReply : ∃ t, Ends workerNode.name
    (patchNode workerNode.name (Node.setNetworkCondition true) .status) readyServer t
    (.error (.cluster .badRequest)) connectedServer := by
  have hread : Serves workerNode.name (.send (getRequest "/api/v1/nodes/n1") none) readyServer
      (.ok ⟨200, .text readyText⟩) readyServer :=
    .shown rfl nodeTarget?_worker rfl shows_readyDoc
  have hversion : version? readyDoc = some "2" := by cbv
  have htaken : Serves workerNode.name (.send (updateRequest true updateTime readyNode
      "/api/v1/nodes/n1/status") none) readyServer (.error .closed) connectedServer :=
    .taken rfl (.inr nodeTarget?_workerStatus) rfl (rfl : readyServer.node = some readyDoc)
      (fun v h => hversion.trans ((version?_statusPatch "2" _).symm.trans h))
      (by simp [readyServer]) (rfl : connectedServer.node = some connectedDoc)
      (rfl : connectedServer.given = "3" :: readyServer.given) nofun
  exact ⟨_, ends_of_sent nodeTarget?_worker nodeTarget?_workerStatus answered_ready hread
    kept_updateTime (by simp [Node.setNetworkCondition, readyNode, Node.placeNetworkCondition,
      latestCondition?, Node.networkUnavailableType]) .refl htaken⟩

theorem ends_contended : ∃ t, Ends workerNode.name
    ((Reconcile.updateCondition workerNode true).over (client idle)) silentServer t
    (.error (.cluster .badRequest)) connectedServer := by
  obtain ⟨t₁, hconflict⟩ := ends_conflict
  obtain ⟨t₂, hlost⟩ := ends_lostReply
  have hnotCurrent : workerNode.networkConditionIsCurrent true = false := by decide
  refine ⟨t₁ ++ t₂, ?_⟩
  rw [Reconcile.updateCondition, hnotCurrent, if_neg (by decide)]
  exact ends_again (by decide) hconflict (ends_settled (by decide) hlost)

theorem contended_update_loses_nothing : ∃ t, Web.Ends (Serves workerNode.name) Written
    ((Reconcile.updateCondition workerNode true).over (client idle)) silentServer t
      (.error (.cluster .badRequest)) connectedServer ∧
    (∀ turn ∈ t, turn.after = turn.before ∨ Replaces true turn) ∧
      ((workerNode.networkConditionIsCurrent true = true ∧ t = [] ∧
          (.error (.cluster .badRequest) : Outcome Unit) = .ok ()) ∨
        Attempts workerNode.name true 3 t (.error (.cluster .badRequest))) := by
  obtain ⟨t, ht⟩ := ends_contended
  exact ⟨t, ht, status_updates_lose_nothing idle workerNode true ht⟩

/-! ### A member that the type does not declare

A list is replaced as a whole, by what the type of its items declares. -/

def conditionItems (doc : Json) : List Json :=
  match valueAt "conditions" (valueAt "status" doc) with
  | .array items => items
  | _ => []

def taggedItem : Json :=
  .record [("observedGeneration", .nat 3), ("status", .text "True"), ("type", .text "Ready")]

def taggedDoc : Json :=
  .record [("metadata", versioned "1"), ("status", .record [("conditions", .array [taggedItem])])]

def taggedText : String :=
  "\x7b\"metadata\":\x7b\"resourceVersion\":\"1\"\x7d,\"status\":\x7b\"conditions\":[\x7b" ++
    "\"observedGeneration\":3,\"status\":\"True\",\"type\":\"Ready\"\x7d]\x7d\x7d"

def taggedNode : Node where
  metadata := { resourceVersion := some "1" }
  status := some { conditions := some [{ type := "Ready", status := "True" }] }

def untaggedDoc : Json :=
  .record [("status", .record [("conditions", .array [readyItem,
    .record [("lastHeartbeatTime", .text "2024-05-06T07:08:09Z"),
      ("lastTransitionTime", .text "2024-05-06T07:08:09Z"),
      ("message", .text "RouteController created a route"), ("reason", .text "RouteCreated"),
      ("status", .text "False"), ("type", .text "NetworkUnavailable")]])]),
    ("metadata", versioned "2")]

theorem patched_taggedDoc : patched taggedDoc (statusPatch (some "1")
    (taggedNode.setNetworkCondition true updateTime)) "2" = untaggedDoc := by
  decide +kernel

def taggedServer : ApiServer :=
  ⟨some taggedDoc, ["1"], fun _ h => ⟨"1", by simp, by cases h; cbv⟩⟩

def untaggedServer : ApiServer :=
  ⟨some untaggedDoc, ["2", "1"], fun _ h => ⟨"2", by simp, by cases h; cbv⟩⟩

theorem shows_taggedDoc : ApiServer.Shows ⟨200, .text taggedText⟩ taggedDoc :=
  ⟨by decide, by rw [Web.Body.read]; cbv⟩

theorem shows_untaggedDoc : ApiServer.Shows ⟨200, .text untaggedDoc.render⟩ untaggedDoc := by
  refine ⟨by decide, ?_⟩
  rw [Web.Body.read, parse?_render]
  simp [untaggedDoc, readyItem, versioned, record, text, Writable, WritableMembers, WritableItems]

theorem answered_tagged : answered (.ok ⟨200, .text taggedText⟩) = .ok taggedNode := by
  have hdoc : Node.ofJson? taggedDoc = some taggedNode := by cbv
  rw [answered_of_shows shows_taggedDoc, hdoc]

theorem answered_untagged : ∃ n, answered (.ok ⟨200, .text untaggedDoc.render⟩) = .ok n := by
  have hdoc : (Node.ofJson? untaggedDoc).isSome = true := by cbv
  obtain ⟨n, hn⟩ := Option.isSome_iff_exists.1 hdoc
  exact ⟨n, by rw [answered_of_shows shows_untaggedDoc, hn]⟩

/-- The only attempt, whose patch is taken. -/
theorem ends_untagged : ∃ t, Ends workerNode.name
    (patchNode workerNode.name (Node.setNetworkCondition true) .status) taggedServer t (.ok ())
    untaggedServer := by
  have hread : Serves workerNode.name (.send (getRequest "/api/v1/nodes/n1") none) taggedServer
      (.ok ⟨200, .text taggedText⟩) taggedServer :=
    .shown rfl nodeTarget?_worker rfl shows_taggedDoc
  have hversion : version? taggedDoc = some "1" := by cbv
  have htaken : Serves workerNode.name (.send (updateRequest true updateTime taggedNode
      "/api/v1/nodes/n1/status") none) taggedServer (.ok ⟨200, .text untaggedDoc.render⟩)
      untaggedServer := by
    have hshows : ApiServer.Shows ⟨200, .text untaggedDoc.render⟩ (patched taggedDoc
        (statusPatch (some "1") (taggedNode.setNetworkCondition true updateTime)) "2") := by
      rw [patched_taggedDoc]
      exact shows_untaggedDoc
    exact .taken rfl (.inr nodeTarget?_workerStatus) rfl (rfl : taggedServer.node = some taggedDoc)
      (fun v h => hversion.trans ((version?_statusPatch "1" _).symm.trans h))
      (by simp [taggedServer]) (congrArg some patched_taggedDoc.symm)
      (rfl : untaggedServer.given = "2" :: taggedServer.given)
      (fun _ h => by cases h; exact hshows)
  have hsent := ends_of_sent nodeTarget?_worker nodeTarget?_workerStatus answered_tagged hread
    kept_updateTime (by simp [Node.setNetworkCondition, taggedNode, Node.placeNetworkCondition,
      latestCondition?, Node.networkUnavailableType]) .refl htaken
  obtain ⟨n, hn⟩ := answered_untagged
  rw [hn] at hsent
  exact ⟨_, hsent⟩

/-- What others gave the condition of a node is gone when another condition of it is set. -/
theorem undeclared_member_is_lost : ∃ t, Web.Ends (Serves workerNode.name) Written
      ((Reconcile.updateCondition workerNode true).over (client idle)) taggedServer t (.ok ())
      untaggedServer ∧
    taggedServer.node = some taggedDoc ∧ taggedItem ∈ conditionItems taggedDoc ∧
    untaggedServer.node = some untaggedDoc ∧
    ∀ item ∈ conditionItems untaggedDoc, valuesAt "observedGeneration" item = [] := by
  obtain ⟨t, hend⟩ := ends_untagged
  have hnotCurrent : workerNode.networkConditionIsCurrent true = false := by decide
  refine ⟨t, ?_, rfl, by decide, rfl, by decide +kernel⟩
  rw [Reconcile.updateCondition, hnotCurrent, if_neg (by decide), ← List.append_nil t]
  exact hend.bind (.done _ _)

end Cluster

end PodRoutes
