import PodRoutes.Cluster.Nodes
import PodRoutes.Proofs.Json.Shape

/-!
# A node that was patched

The patch of a status writes all members of the status that were read. Where it replaces what it was
made from, it is read as that node with the new conditions and its times in whole seconds
(`Node.ofJson?_conditionsPatch`), and what no type declares is as it was (`OthersKept`).
-/

namespace PodRoutes

open Json

/-! ### Parts that are present -/

variable {α β : Type} {name : String}

theorem Json.members?_record (ms : List (String × Json)) : (Json.record ms).members? = some ms :=
  members?_eq_some.2 rfl

theorem Json.valuesAt_present (key : String) (ms : List (String × Option Json)) :
    valuesAt key (.present ms) = (ms.filter fun m => m.1 = key).filterMap Prod.snd := by
  rw [present, valuesAt_record]
  induction ms with
  | nil => rfl
  | cons m rest ih =>
    obtain ⟨name, value⟩ := m
    cases value with
    | none => by_cases hname : name = key <;> simp_all
    | some j => by_cases hname : name = key <;> simp_all

/-- A member that was written if it was there is read if it is there. -/
theorem Json.readAt_of_toList {j : Json} {read : Json → Option β} {f : α → Json} {g : α → β}
    {o : Option α} (h : valuesAt name j = (o.map f).toList)
    (hread : ∀ a ∈ o, nullable? read (f a) = some (some (g a))) :
    readAt name read j = some (o.map g) := by
  cases o with
  | none =>
    rw [readAt, h]
    rfl
  | some a =>
    rw [readAt_of_single h]
    exact hread a rfl

/-- What was patched with an object is one. -/
theorem Json.nullable?_mergePatch (read : Json → Option α) (target : Json)
    (ps : List (String × Json)) : nullable? read (mergePatch target (.record ps)) =
      (read (mergePatch target (.record ps))).map some := rfl

theorem Json.nullable?_text (read : Json → Option α) (s : String) :
    nullable? read (.text s) = (read (.text s)).map some := rfl

/-! ### Conditions -/

theorem Instant.ofJson?_toJson {x : Instant} (h : x.Kept) :
    ofJson? x.toJson = some x.wholeSeconds := by
  have htext : text? x.toJson = some x.text := rfl
  rw [ofJson?, htext, Option.bind_some, parse?_text h]

namespace Condition

def wholeSeconds (c : Condition) : Condition :=
  { c with
    heartbeat := c.heartbeat.map Instant.wholeSeconds
    transition := c.transition.map Instant.wholeSeconds }

/-- The times of a condition are kept ones. -/
structure Kept (c : Condition) : Prop where
  heartbeat : ∀ x ∈ c.heartbeat, x.Kept
  transition : ∀ x ∈ c.transition, x.Kept

/-- The members of a written condition. -/
def members (c : Condition) : List (String × Json) :=
  [("lastHeartbeatTime", c.heartbeat.map Instant.toJson),
    ("lastTransitionTime", c.transition.map Instant.toJson), ("message", c.message.map .text),
    ("reason", c.reason.map .text), ("status", some (.text c.status)),
    ("type", some (.text c.type))].filterMap fun m => m.2.map fun v => (m.1, v)

theorem valuesAt_members (c : Condition) :
    valuesAt "type" (.record c.members) = ((some c.type).map Json.text).toList ∧
      valuesAt "status" (.record c.members) = ((some c.status).map Json.text).toList ∧
      valuesAt "reason" (.record c.members) = (c.reason.map Json.text).toList ∧
      valuesAt "message" (.record c.members) = (c.message.map Json.text).toList ∧
      valuesAt "lastHeartbeatTime" (.record c.members) =
        (c.heartbeat.map Instant.toJson).toList ∧
      valuesAt "lastTransitionTime" (.record c.members) =
        (c.transition.map Instant.toJson).toList := by
  obtain ⟨type, status, reason, message, heartbeat, transition⟩ := c
  refine ⟨?_, ?_, ?_, ?_, ?_, ?_⟩ <;> rw [members, ← present, valuesAt_present]
  · simp
  · simp
  · cases reason <;> simp
  · cases message <;> simp
  · cases heartbeat <;> simp
  · cases transition <;> simp

theorem ofJson?_toJson {c : Condition} (h : c.Kept) : ofJson? c.toJson = some c.wholeSeconds := by
  have htext : ∀ {o : Option String}, ∀ s ∈ o, nullable? text? (.text s) = some (some s) :=
    fun _ _ => rfl
  have htime : ∀ {o : Option Instant}, (∀ x ∈ o, x.Kept) → ∀ x ∈ o,
      nullable? Instant.ofJson? x.toJson = some (some x.wholeSeconds) := by
    intro o ho x hx
    have hread := Instant.ofJson?_toJson (ho x hx)
    rw [Instant.toJson] at hread ⊢
    rw [nullable?_text, hread, Option.map_some]
  obtain ⟨htype, hstatus, hreason, hmessage, hheartbeat, htransition⟩ := valuesAt_members c
  have hmembers : c.toJson = .record c.members := by rw [toJson, present, members]
  rw [ofJson?, hmembers, members?_record]
  simp only [optional?_eq, Option.bind_eq_bind, Option.bind_some, readAt_of_toList htype htext,
    readAt_of_toList hstatus htext, readAt_of_toList hreason htext,
    readAt_of_toList hmessage htext, readAt_of_toList hheartbeat (htime h.heartbeat),
    readAt_of_toList htransition (htime h.transition)]
  simp [wholeSeconds]

theorem kept_of_readAt {name : String} {j : Json} {o : Option Instant}
    (h : readAt name Instant.ofJson? j = some o) : ∀ x ∈ o, x.Kept := by
  intro x hx
  cases Option.mem_def.1 hx
  have hread := nullable?_valueAt h
  unfold nullable? at hread
  split at hread
  · cases hread
  · obtain ⟨y, hy, heq⟩ := Option.map_eq_some_iff.1 hread
    cases heq
    obtain ⟨s, -, hs⟩ := Option.bind_eq_some_iff.1 hy
    exact Instant.kept_of_parse? hs

theorem kept_of_ofJson? {j : Json} {c : Condition} (h : ofJson? j = some c) : c.Kept := by
  simp only [ofJson?, optional?_eq, Option.bind_eq_bind, Option.bind_eq_some_iff] at h
  obtain ⟨ms, -, type, -, status, -, reason, -, message, -, heartbeat, hheartbeat, transition,
    htransition, h⟩ := h
  cases h
  exact ⟨kept_of_readAt hheartbeat, kept_of_readAt htransition⟩

end Condition

/-! ### Parts of a node -/

/-- The members of a part of a node, which are none where the part is missing. -/
theorem Json.exists_members {read : Json → Option α} {default : α} {j : Json} {o : Option α}
    (h : nullable? read j = some o) (hempty : read (.record []) = some default)
    (hrecord : ∀ j a, read j = some a → ∃ ms, j = .record ms) :
    ∃ ms, j.pairs = (Json.record ms).pairs ∧ read (.record ms) = some (o.getD default) := by
  unfold nullable? at h
  split at h
  · cases h
    exact ⟨[], rfl, hempty⟩
  · obtain ⟨a, ha, rfl⟩ := Option.map_eq_some_iff.1 h
    obtain ⟨ms, rfl⟩ := hrecord _ a ha
    exact ⟨ms, rfl, ha⟩

theorem Json.mergePatch_congr {j j' : Json} (h : j.pairs = j'.pairs) (ps : List (String × Json)) :
    mergePatch j (.record ps) = mergePatch j' (.record ps) := by
  rw [record, mergePatch, mergePatch, h]

/-- The patch of metadata that names a version. -/
def versioned (version : String) : Json := .record [("resourceVersion", .text version)]

theorem valuesAt_versioned (j : Json) (version : String) :
    valuesAt "resourceVersion" (mergePatch j (versioned version)) = [.text version] := by
  rw [versioned, valuesAt_mergePatch_of_mem (by simp) (List.mem_singleton_self _)
    (text_ne_null version), mergePatch_text]

namespace Metadata

theorem exists_record_of_ofJson? (j : Json) (m : Metadata) (h : ofJson? j = some m) :
    ∃ ms, j = .record ms := by
  rw [ofJson?, Option.bind_eq_bind, Option.bind_eq_some_iff] at h
  obtain ⟨ms, hms, -⟩ := h
  exact ⟨ms, members?_eq_some.1 hms⟩

theorem ofJson?_versioned {j : Json} {o : Option Metadata} (h : nullable? ofJson? j = some o)
    (version : String) : ofJson? (mergePatch j (versioned version)) =
      some { o.getD {} with resourceVersion := some version } := by
  have hempty : ofJson? (.record []) = some {} := rfl
  obtain ⟨ms, hpairs, hread⟩ := exists_members h hempty exists_record_of_ofJson?
  obtain ⟨ms', hms'⟩ := exists_record_mergePatch ms [("resourceVersion", .text version)]
  have hnamed : valuesAt "resourceVersion" (.record ms') = [.text version] :=
    hms' ▸ valuesAt_versioned (.record ms) version
  have hothers : ∀ key, key ≠ "resourceVersion" →
      valuesAt key (.record ms') = valuesAt key (.record ms) := by
    intro key hkey
    rw [← hms']
    exact valuesAt_mergePatch_of_not_mem (by simpa using hkey) _
  rw [versioned, mergePatch_congr hpairs, hms']
  simp only [ofJson?, members?_record, optional?_eq, Option.bind_eq_bind, Option.bind_some,
    Option.bind_eq_some_iff] at hread ⊢
  obtain ⟨name, hname, generateName, hgenerate, uid, huid, old, -, labels, hlabels, annotations,
    hannotations, deletion, hdeletion, heq⟩ := hread
  rw [← Option.some.inj heq]
  refine ⟨name, ?_, generateName, ?_, uid, ?_, some version, ?_, labels, ?_, annotations, ?_,
    deletion, ?_, rfl⟩
  · rw [readAt_congr (hothers _ (by decide)), hname]
  · rw [readAt_congr (hothers _ (by decide)), hgenerate]
  · rw [readAt_congr (hothers _ (by decide)), huid]
  · rw [readAt_of_single hnamed]
    rfl
  · rw [readAt_congr (hothers _ (by decide)), hlabels]
  · rw [readAt_congr (hothers _ (by decide)), hannotations]
  · rw [readAt_congr (hothers _ (by decide)), hdeletion]

end Metadata

namespace NodeStatus

theorem exists_record_of_ofJson? (j : Json) (s : NodeStatus) (h : ofJson? j = some s) :
    ∃ ms, j = .record ms := by
  rw [ofJson?, Option.bind_eq_bind, Option.bind_eq_some_iff] at h
  obtain ⟨ms, hms, -⟩ := h
  exact ⟨ms, members?_eq_some.1 hms⟩

theorem list?_conditions {cs : List Condition} (h : ∀ c ∈ cs, c.Kept) :
    list? Condition.ofJson? (.array (cs.map Condition.toJson)) =
      some (cs.map Condition.wholeSeconds) := by
  rw [list?, List.mapM_map]
  induction cs with
  | nil => rfl
  | cons c rest ih =>
    rw [List.mapM_cons, Function.comp_apply,
      Condition.ofJson?_toJson (h c (List.mem_cons_self ..)),
      ih fun c hc => h c (List.mem_cons_of_mem _ hc)]
    rfl

theorem kept_of_mapM {items : List Json} {cs : List Condition}
    (h : items.mapM Condition.ofJson? = some cs) : ∀ c ∈ cs, c.Kept := by
  induction items generalizing cs with
  | nil =>
    cases h
    simp
  | cons item rest ih =>
    rw [List.mapM_cons, Option.bind_eq_bind, Option.bind_eq_some_iff] at h
    obtain ⟨c, hc, h⟩ := h
    rw [Option.bind_eq_bind, Option.bind_eq_some_iff] at h
    obtain ⟨others, hothers, h⟩ := h
    cases h
    exact List.forall_mem_cons.2 ⟨Condition.kept_of_ofJson? hc, ih hothers⟩

theorem kept_of_list? {j : Json} {cs : List Condition}
    (h : nullable? (list? Condition.ofJson?) j = some (some cs)) : ∀ c ∈ cs, c.Kept := by
  unfold nullable? at h
  split at h
  · cases h
  rw [Option.map_eq_some_iff] at h
  obtain ⟨_, hread, heq⟩ := h
  cases heq
  unfold list? at hread
  split at hread
  · exact kept_of_mapM hread
  · cases hread

theorem ofJson?_eq_some {ms : List (String × Json)} {s : NodeStatus} :
    ofJson? (.record ms) = some s ↔
      readAt "conditions" (list? Condition.ofJson?) (.record ms) = some s.conditions ∧
        readAt "phase" text? (.record ms) = some s.phase ∧
        Shape.fieldsIn? carried ms = some s.others := by
  obtain ⟨conditions, phase, others⟩ := s
  simp only [ofJson?, members?_record, optional?_eq, Option.bind_eq_bind, Option.bind_some,
    Option.bind_eq_some_iff, Option.some.injEq, NodeStatus.mk.injEq]
  constructor
  · rintro ⟨cs, hcs, p, hp, values, hvalues, rfl, rfl, rfl⟩
    exact ⟨hcs, hp, hvalues⟩
  · rintro ⟨hcs, hp, hvalues⟩
    exact ⟨conditions, hcs, phase, hp, others, hvalues, rfl, rfl, rfl⟩

/-! The members that are carried along have shapes of their own. -/

theorem isRegular_carried : (Shape.record carried).isRegular = true := by decide

theorem nodup_carried : (carried.map Prod.fst).Nodup := by decide

theorem settled_carried : ∀ name default shape, (name, default, shape) ∈ carried →
    Shape.Settled shape.normal? ∧ ∀ d ∈ default, Shape.Stands shape d :=
  Shape.settled_fields (by decide)

/-- The members of a written status with conditions. -/
def members (cs : List Condition) (s : NodeStatus) : List (String × Json) :=
  ("conditions", .array (cs.map Condition.toJson)) ::
    (s.phase.map fun p => ("phase", Json.text p)).toList ++ s.others

theorem toJson_eq (cs : List Condition) (s : NodeStatus) :
    toJson { s with conditions := some cs } = .record (members cs s) := by
  obtain ⟨conditions, phase, others⟩ := s
  cases phase <;> simp [toJson, present, members, List.filterMap_map]

/-- The names that the type of a status declares. -/
def declared : List String := "conditions" :: "phase" :: carried.map Prod.fst

section

variable {ms values : List (String × Json)} (hvalues : Shape.fieldsIn? carried ms = some values)
include hvalues

theorem names_members (cs : List Condition) {s : NodeStatus} (hs : s.others = values) :
    ((members cs s).map Prod.fst).Sublist declared := by
  have hothers := Shape.names_of_fieldsIn? hvalues
  rw [members, hs]
  cases s.phase with
  | none => exact (hothers.cons _).cons_cons _
  | some p => exact (hothers.cons_cons _).cons_cons _

theorem carries_members (cs : List Condition) {s : NodeStatus} (hs : s.others = values) :
    Shape.Carries carried values (members cs s) where
  keys := (show declared.Nodup by decide).sublist (names_members hvalues cs hs)
  values_subset m hm := by
    rw [members, hs]
    exact List.mem_append_right _ hm
  others m hm hname := by
    rw [members, hs, List.mem_append] at hm
    refine hm.resolve_left fun hfirst => ?_
    have hnames : m.1 = "conditions" ∨ m.1 = "phase" := by
      cases hp : s.phase <;> simp [hp] at hfirst <;> grind
    have hapart : "conditions" ∉ carried.map Prod.fst ∧ "phase" ∉ carried.map Prod.fst := by decide
    rcases hnames with heq | heq
    · exact hapart.1 (heq ▸ hname)
    · exact hapart.2 (heq ▸ hname)

end

theorem ofJson?_patched {j : Json} {o : Option NodeStatus} (h : nullable? ofJson? j = some o)
    {cs : List Condition} (hcs : ∀ c ∈ cs, c.Kept) :
    ofJson? (mergePatch j (toJson { o.getD {} with conditions := some cs })) =
      some { o.getD {} with conditions := some (cs.map Condition.wholeSeconds) } := by
  have hempty : ofJson? (.record []) = some {} := rfl
  obtain ⟨ms, hpairs, hread⟩ := exists_members h hempty exists_record_of_ofJson?
  generalize o.getD {} = s at hread ⊢
  obtain ⟨-, hphase, hothers⟩ := ofJson?_eq_some.1 hread
  obtain ⟨ms', hms'⟩ := exists_record_mergePatch ms (members cs s)
  have hcarries := carries_members hothers cs rfl
  have hconditions : valuesAt "conditions" (.record ms') =
      [.array (cs.map Condition.toJson)] := by
    rw [← hms']
    exact valuesAt_mergePatch_of_mem hcarries.keys (List.mem_cons_self ..) nofun _
  rw [toJson_eq, mergePatch_congr hpairs, hms']
  refine ofJson?_eq_some.2 ⟨?_, ?_, ?_⟩
  · rw [readAt_of_single hconditions]
    exact congrArg (Option.map some) (list?_conditions hcs)
  · cases hp : s.phase with
    | none =>
      have hother : "phase" ∉ s.others.map Prod.fst := fun hmem =>
        absurd ((Shape.names_of_fieldsIn? hothers).subset hmem) (by decide)
      have hnot : "phase" ∉ (members cs s).map Prod.fst := by simpa [members, hp] using hother
      have hsame : valuesAt "phase" (.record ms') = valuesAt "phase" (.record ms) := by
        rw [← hms']
        exact valuesAt_mergePatch_of_not_mem hnot _
      rw [readAt_congr hsame, hphase, hp]
    | some p =>
      have hmem : ("phase", Json.text p) ∈ members cs s := by simp [members, hp]
      have hone : valuesAt "phase" (.record ms') = [.text p] := by
        rw [← hms', valuesAt_mergePatch_of_mem hcarries.keys hmem (text_ne_null p),
          mergePatch_text]
      rw [readAt_of_single hone]
      rfl
  · exact Shape.fieldsIn?_mergePatch nodup_carried hothers settled_carried hcarries hms'

end NodeStatus

/-! ### Nodes -/

theorem isOfKind_congr {kind : String} {ms ms' : List (String × Json)}
    (h : SameBut ["metadata", "status"] (.record ms) (.record ms')) :
    isOfKind kind ms' = isOfKind kind ms := by
  have hsaid : ∀ name, name ∉ ["metadata", "status"] → ∀ expected : String,
      ((ms'.filter fun m => m.1 = name).all fun m => m.2.text? = some expected) =
        (ms.filter fun m => m.1 = name).all fun m => m.2.text? = some expected := by
    intro name hname expected
    have hvalues := h name hname
    rw [valuesAt_record, valuesAt_record] at hvalues
    have hall := congrArg (List.all · fun j => decide (j.text? = some expected)) hvalues
    simpa only [List.all_map, Function.comp_def] using hall
  simp only [isOfKind, hsaid "apiVersion" (by simp), hsaid "kind" (by simp)]

/-- All members of a node are as they were, but for its version and what the type of its status
declares, in the status itself and in the objects that it has for members. -/
structure OthersKept (before after : Json) : Prop where
  node : SameBut ["metadata", "status"] before after
  metadata : SameBut ["resourceVersion"] (valueAt "metadata" before) (valueAt "metadata" after)
  status : SameBut NodeStatus.declared (valueAt "status" before) (valueAt "status" after)
  parts : ∀ name default shape, (name, default, shape) ∈ NodeStatus.carried →
    ∀ path names, Shape.Declares shape path names →
      SameBut names (Shape.within path (valueAt name (valueAt "status" before)))
        (Shape.within path (valueAt name (valueAt "status" after)))

theorem OthersKept.trans {before between after : Json} (h : OthersKept before between)
    (h' : OthersKept between after) : OthersKept before after where
  node := h.node.trans h'.node
  metadata := h.metadata.trans h'.metadata
  status := h.status.trans h'.status
  parts name default shape hmem path names hdeclares :=
    (h.parts name default shape hmem path names hdeclares).trans
      (h'.parts name default shape hmem path names hdeclares)

namespace Node

variable {before after : Json} {n : Node}

theorem exists_record_of_ofJson? (h : ofJson? before = some n) : ∃ ms, before = .record ms := by
  rw [ofJson?, Option.bind_eq_bind, Option.bind_eq_some_iff] at h
  obtain ⟨ms, hms, -⟩ := h
  exact ⟨ms, members?_eq_some.1 hms⟩

theorem ofJson?_eq_some {ms : List (String × Json)} : ofJson? (.record ms) = some n ↔
    isOfKind "Node" ms = true ∧
      (∃ m, readAt "metadata" Metadata.ofJson? (.record ms) = some m ∧ m.getD {} = n.metadata) ∧
      readAt "spec" NodeSpec.ofJson? (.record ms) = some n.spec ∧
      readAt "status" NodeStatus.ofJson? (.record ms) = some n.status := by
  obtain ⟨metadata, spec, status⟩ := n
  simp only [ofJson?, members?_record, optional?_eq, Option.bind_eq_bind, Option.bind_some]
  split
  · rename_i hkind
    simp only [hkind, true_and, Option.bind_eq_some_iff, Option.some.injEq, Node.mk.injEq]
    constructor
    · rintro ⟨m, hm, s, hs, t, ht, rfl, rfl, rfl⟩
      exact ⟨⟨m, hm, rfl⟩, hs, ht⟩
    · rintro ⟨⟨m, hm, rfl⟩, hs, ht⟩
      exact ⟨m, hm, spec, hs, status, ht, rfl, rfl, rfl⟩
  · rename_i hkind
    simp [hkind]

/-- A node is read with new metadata and status where only those are new. -/
theorem ofJson?_of_parts (h : ofJson? before = some n) {ms : List (String × Json)}
    (hafter : after = .record ms) (hsame : SameBut ["metadata", "status"] before after)
    {j : Json} {m : Metadata} (hj : valuesAt "metadata" after = [j])
    (hm : nullable? Metadata.ofJson? j = some (some m)) {s : Option NodeStatus}
    (hs : readAt "status" NodeStatus.ofJson? after = some s) :
    ofJson? after = some { n with metadata := m, status := s } := by
  obtain ⟨old, rfl⟩ := exists_record_of_ofJson? h
  subst hafter
  obtain ⟨hkind, -, hspec, -⟩ := ofJson?_eq_some.1 h
  refine ofJson?_eq_some.2 ⟨?_, ⟨some m, ?_, rfl⟩, ?_, hs⟩
  · rw [isOfKind_congr hsame, hkind]
  · rw [readAt_of_single hj, hm]
  · rw [readAt_congr (hsame "spec" (by simp)), hspec]

theorem nullable?_metadata (h : ofJson? before = some n) :
    ∃ m, nullable? Metadata.ofJson? (valueAt "metadata" before) = some m ∧
      m.getD {} = n.metadata := by
  obtain ⟨ms, rfl⟩ := exists_record_of_ofJson? h
  obtain ⟨-, ⟨m, hm, heq⟩, -, -⟩ := ofJson?_eq_some.1 h
  exact ⟨m, nullable?_valueAt hm, heq⟩

theorem resourceVersion_of_ofJson? (h : ofJson? before = some n) :
    n.metadata.resourceVersion =
      (valueAt "resourceVersion" (valueAt "metadata" before)).text? := by
  obtain ⟨m, hm, heq⟩ := nullable?_metadata h
  obtain ⟨ms, hpairs, hms⟩ := exists_members hm
    (show Metadata.ofJson? (.record []) = some {} from rfl) Metadata.exists_record_of_ofJson?
  rw [heq] at hms
  simp only [Metadata.ofJson?, members?_record, optional?_eq, Option.bind_eq_bind,
    Option.bind_some, Option.bind_eq_some_iff] at hms
  obtain ⟨_, -, _, -, _, -, version, hversion, _, -, _, -, _, -, hmetadata⟩ := hms
  have hread := nullable?_valueAt hversion
  rw [valueAt, ← hpairs, ← valueAt] at hread
  rw [← Option.some.inj hmetadata]
  unfold nullable? at hread
  split at hread
  · cases hread
    simp_all [text?]
  · obtain ⟨v, hv, rfl⟩ := Option.map_eq_some_iff.1 hread
    exact hv.symm

theorem nullable?_status (h : ofJson? before = some n) :
    nullable? NodeStatus.ofJson? (valueAt "status" before) = some n.status := by
  obtain ⟨ms, rfl⟩ := exists_record_of_ofJson? h
  exact nullable?_valueAt (ofJson?_eq_some.1 h).2.2.2

/-- The members of the status that a node was read with. -/
theorem exists_status_members (h : ofJson? before = some n) :
    ∃ ms, (valueAt "status" before).pairs = (Json.record ms).pairs ∧
      NodeStatus.ofJson? (.record ms) = some (n.status.getD {}) :=
  exists_members (nullable?_status h) rfl NodeStatus.exists_record_of_ofJson?

/-- The conditions that a node was read with have kept times. -/
theorem kept_conditions (h : ofJson? before = some n) : ∀ c ∈ n.conditions, c.Kept := by
  intro c hc
  obtain ⟨ms, -, hread⟩ := exists_status_members h
  have hconditions := nullable?_valueAt (NodeStatus.ofJson?_eq_some.1 hread).1
  obtain ⟨cs, hcs, hmem⟩ : ∃ cs, (n.status.getD {}).conditions = some cs ∧ c ∈ cs := by
    rw [conditions] at hc
    cases hs : n.status with
    | none => simp [hs] at hc
    | some s =>
      cases hcs : s.conditions with
      | none => simp [hs, hcs] at hc
      | some cs => exact ⟨cs, hcs, by simpa [hs, hcs] using hc⟩
  rw [hcs] at hconditions
  exact NodeStatus.kept_of_list? hconditions c hmem

/-! ### Patches of the status -/

/-- The patch that gives a node a version. -/
def versionPatch (version : String) : Json := .record [("metadata", versioned version)]

/-- Patching the version and perhaps the status changes nothing else. -/
theorem ofJson?_mergePatch (h : ofJson? before = some n) (version : String)
    {rest : List (String × Json)}
    (hkeys : ((("metadata", versioned version) :: rest).map Prod.fst).Nodup)
    (hrest : rest.map Prod.fst ⊆ ["status"]) {s : Option NodeStatus}
    (hafter : mergePatch before (.record (("metadata", versioned version) :: rest)) = after)
    (hs : readAt "status" NodeStatus.ofJson? after = some s) :
    ofJson? after =
      some ⟨{ n.metadata with resourceVersion := some version }, n.spec, s⟩ := by
  obtain ⟨ms, rfl⟩ := exists_record_of_ofJson? h
  obtain ⟨ms', hms'⟩ := exists_record_mergePatch ms (("metadata", versioned version) :: rest)
  obtain ⟨m, hm, heq⟩ := nullable?_metadata h
  have hmetadata := Metadata.ofJson?_versioned hm version
  have hone : valuesAt "metadata" after =
      [mergePatch (valueAt "metadata" (.record ms)) (versioned version)] := by
    rw [← hafter]
    exact valuesAt_mergePatch_of_mem hkeys (List.mem_cons_self ..) (record_ne_null _) _
  have hsame : SameBut ["metadata", "status"] (.record ms) after := by
    rw [← hafter]
    exact (sameBut_mergePatch _ _).mono (List.cons_subset_cons _ hrest)
  rw [heq] at hmetadata
  refine ofJson?_of_parts h (hafter.symm.trans hms') hsame hone ?_ hs
  rw [versioned, nullable?_mergePatch, ← versioned, hmetadata, Option.map_some]

theorem ofJson?_versionPatch (h : ofJson? before = some n) (version : String) :
    ofJson? (mergePatch before (versionPatch version)) =
      some { n with metadata := { n.metadata with resourceVersion := some version } } := by
  obtain ⟨ms, rfl⟩ := exists_record_of_ofJson? h
  have hsame : SameBut ["metadata"] (.record ms)
      (mergePatch (.record ms) (versionPatch version)) :=
    sameBut_mergePatch _ [("metadata", versioned version)]
  refine ofJson?_mergePatch h version (by simp) (by simp) rfl ?_
  rw [readAt_congr (hsame "status" (by simp))]
  exact (ofJson?_eq_some.1 h).2.2.2

theorem valuesAt_metadata_versionPatch (d : Json) (version : String) :
    valuesAt "metadata" (mergePatch d (versionPatch version)) =
      [mergePatch (valueAt "metadata" d) (versioned version)] :=
  valuesAt_mergePatch_of_mem (by simp) (List.mem_cons_self ..)
    (show versioned version ≠ .null from record_ne_null _) d

theorem othersKept_versionPatch (d : Json) (version : String) :
    OthersKept d (mergePatch d (versionPatch version)) := by
  have hsame : SameBut ["metadata"] d (mergePatch d (versionPatch version)) :=
    sameBut_mergePatch d [("metadata", versioned version)]
  have hstatus := valueAt_congr (hsame "status" (by simp))
  refine ⟨hsame.mono (by simp), ?_, ?_, ?_⟩
  · rw [valueAt_of_single (valuesAt_metadata_versionPatch d version)]
    exact sameBut_mergePatch _ [("resourceVersion", .text version)]
  · rw [hstatus]
    exact .refl _ _
  · intro name default shape _ path names _
    rw [hstatus]
    exact .refl _ _

section

variable (version : String) (cs : List Condition)

/-- The patch of a node with new conditions. -/
def conditionsPatch (n : Node) : Json :=
  Cluster.statusPatch (some version)
    { n with status := some { n.status.getD {} with conditions := some cs } }

theorem conditionsPatch_eq (n : Node) : n.conditionsPatch version cs =
    .record [("metadata", versioned version),
      ("status", .record (NodeStatus.members cs (n.status.getD {})))] := by
  rw [← NodeStatus.toJson_eq]
  rfl

theorem valuesAt_status_conditionsPatch (n : Node) (d : Json) :
    valuesAt "status" (mergePatch d (n.conditionsPatch version cs)) =
      [mergePatch (valueAt "status" d)
        (.record (NodeStatus.members cs (n.status.getD {})))] := by
  rw [conditionsPatch_eq]
  exact valuesAt_mergePatch_of_mem (by simp)
    (List.mem_cons_of_mem _ (List.mem_singleton_self _)) (record_ne_null _) d

theorem othersKept_conditionsPatch (h : ofJson? before = some n) :
    OthersKept before (mergePatch before (n.conditionsPatch version cs)) := by
  have hsame : SameBut ["metadata", "status"] before
      (mergePatch before (n.conditionsPatch version cs)) := by
    rw [conditionsPatch_eq]
    exact (sameBut_mergePatch before _).mono (by simp)
  have hone : valuesAt "metadata" (mergePatch before (n.conditionsPatch version cs)) =
      [mergePatch (valueAt "metadata" before) (versioned version)] := by
    rw [conditionsPatch_eq]
    exact valuesAt_mergePatch_of_mem (by simp) (List.mem_cons_self ..)
      (show versioned version ≠ .null from record_ne_null _) before
  obtain ⟨ms, hpairs, hread⟩ := exists_status_members h
  have hothers := (NodeStatus.ofJson?_eq_some.1 hread).2.2
  have hstatus := valueAt_of_single (valuesAt_status_conditionsPatch version cs n before)
  refine ⟨hsame, ?_, ?_, fun name default shape hmem path names hdeclares => ?_⟩
  · rw [valueAt_of_single hone]
    exact sameBut_mergePatch _ [("resourceVersion", .text version)]
  · rw [hstatus]
    exact (sameBut_mergePatch _ _).mono (NodeStatus.names_members hothers cs rfl).subset
  · rw [hstatus, mergePatch_congr hpairs, valueAt, hpairs, ← valueAt]
    have hregular := Shape.isRegular_of_mem (by decide) hmem
    exact Shape.sameBut_under NodeStatus.isRegular_carried hothers
      (NodeStatus.carries_members hothers cs rfl) hmem hdeclares
      fun hread => Shape.sameBut_within hdeclares hregular hread

/-- What is read of a node whose status was patched with new conditions. -/
theorem ofJson?_conditionsPatch (h : ofJson? before = some n) {cs : List Condition}
    (hcs : ∀ c ∈ cs, c.Kept) :
    ofJson? (mergePatch before (n.conditionsPatch version cs)) =
      some {
        metadata := { n.metadata with resourceVersion := some version }
        spec := n.spec
        status := some { n.status.getD {} with
          conditions := some (cs.map Condition.wholeSeconds) } } := by
  have hstatus := NodeStatus.ofJson?_patched (nullable?_status h) hcs
  rw [NodeStatus.toJson_eq] at hstatus
  have hone := valuesAt_status_conditionsPatch version cs n before
  rw [conditionsPatch_eq] at hone ⊢
  refine ofJson?_mergePatch h version (by simp) (by simp) rfl ?_
  rw [readAt_of_single hone, nullable?_mergePatch, hstatus, Option.map_some]

end

end Node

end PodRoutes
