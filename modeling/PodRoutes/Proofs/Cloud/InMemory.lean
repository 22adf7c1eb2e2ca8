import Mathlib
import PodRoutes.Proofs.Cloud.LastLook
import PodRoutes.Proofs.World.Effect

/-!
# The client is a route table in memory

For every sequence of calls, the client against an honest API and the table in memory give the same
answers and keep the same routes, exactly if each new route is shown at the last look of its create
(`Client.runs_agree`). Ids of routes, texts of errors and the order of a listing are left open, and
a listing of the client lacks the default route. A route that is shown within the timeout may still
come too late for the last look (`Sample.late_route_is_missed`).
-/

namespace PodRoutes

/-! ### Calls and answers -/

def GatewayCall.Answer : GatewayCall → Type
  | create _ _ => Outcome (Option Route)
  | find _ => Outcome (Option Route)
  | list => Outcome (List Route)
  | delete _ => Outcome Unit

/-- A call with its answer. -/
abbrev Answered : Type := (k : GatewayCall) × k.Answer

/-- What a route says besides its id: its destination and its owner. -/
def Route.link (r : Route) : String × String := (r.destination, r.instanceId)

namespace Table

def links (t : Table Route) : List (String × String) := t.values.map Route.link

variable {t : Table Route} {destination : String} {l : String × String}

theorem mem_links (h : t.KeyedBy Route.destination) :
    l ∈ t.links ↔ ∃ r, t.get? l.1 = some r ∧ r.instanceId = l.2 := by
  rw [links, List.mem_map]
  constructor
  · rintro ⟨r, hr, rfl⟩
    exact ⟨r, h.get?_of_mem hr, rfl⟩
  · rintro ⟨r, hr, hi⟩
    exact ⟨r, KeyedBy.mem_of_get? hr, Prod.ext (h _ _ hr) hi⟩

theorem mem_links_insert (h : t.KeyedBy Route.destination) {r : Route}
    (hr : r.destination = destination) (hfree : t.get? destination = none) :
    l ∈ (t.insert destination r).links ↔ l = r.link ∨ l ∈ t.links := by
  rw [mem_links (h.insert hr), mem_links h, get?_insert]
  by_cases hl : destination = l.1
  · rw [if_pos hl, ← hl, hfree]
    simp [Route.link, Prod.ext_iff, hr, hl, eq_comm]
  · have hne : l ≠ r.link := fun he => hl (hr.symm.trans (congrArg Prod.fst he).symm)
    simp [hl, hne]

theorem mem_links_erase (h : t.KeyedBy Route.destination) :
    l ∈ (t.erase destination).links ↔ l ∈ t.links ∧ l.1 ≠ destination := by
  rw [mem_links (h.erase destination), mem_links h, get?_erase]
  by_cases hl : destination = l.1
  · simp [hl]
  · simp [hl, Ne.symm hl]

theorem nodup_links (h : t.KeyedBy Route.destination) : t.links.Nodup := by
  refine List.pairwise_map.2 (h.pairwise_values.imp fun hne he => hne ?_)
  exact congrArg Prod.fst he

end Table

namespace MemoryGateway

def answer (g : MemoryGateway) : (k : GatewayCall) → k.Answer × MemoryGateway
  | .create instanceId destination => g.create instanceId destination
  | .find destination => g.find destination
  | .list => g.list
  | .delete destination => g.delete destination

def answers (g : MemoryGateway) : List GatewayCall → List Answered × MemoryGateway
  | [] => ([], g)
  | k :: calls =>
    let (a, g) := g.answer k
    let (rest, g) := g.answers calls
    (⟨k, a⟩ :: rest, g)

/-- No call fails but the create of a taken destination, and that says so. -/
structure Plain (g : MemoryGateway) : Prop where
  failures : g.failures = {}
  refused : g.refused = []
  duplicateAsMessage : g.duplicateAsMessage = false
  createReturnsNone : g.createReturnsNone = false

namespace Plain

variable {g : MemoryGateway} {destination : String}

theorem answer (h : g.Plain) (k : GatewayCall) : (g.answer k).2.Plain := by
  have same : ∀ g' : MemoryGateway, g'.failures = g.failures → g'.refused = g.refused →
      g'.duplicateAsMessage = g.duplicateAsMessage → g'.createReturnsNone = g.createReturnsNone →
      g'.Plain := fun g' hfailures hrefused hduplicate hnone =>
    ⟨hfailures.trans h.failures, hrefused.trans h.refused, hduplicate.trans h.duplicateAsMessage,
      hnone.trans h.createReturnsNone⟩
  cases k with
  | create instanceId destination =>
    refine same (g.create instanceId destination).2 ?_ ?_ ?_ ?_ <;>
    cases hc : g.table.contains destination with
    | false => rw [create_of_free h.failures h.refused hc]
    | true => rw [create_of_contains h.failures h.refused hc]
  | find destination =>
    rw [MemoryGateway.answer, find_of_faultless h.failures]
    exact same _ rfl rfl rfl rfl
  | list =>
    rw [MemoryGateway.answer, list_of_faultless h.failures]
    exact same _ rfl rfl rfl rfl
  | delete destination =>
    rw [MemoryGateway.answer, delete_of_faultless h.failures]
    exact same _ rfl rfl rfl rfl

theorem create_free (h : g.Plain) (hfree : g.table.get? destination = none) (instanceId : String) :
    (g.create instanceId destination).1 = .ok (some (g.nextRoute instanceId destination)) ∧
      (g.create instanceId destination).2.table =
        g.table.insert destination (g.nextRoute instanceId destination) := by
  have hc : g.table.contains destination = false := by
    rw [Table.contains, hfree]
    rfl
  rw [create_of_free h.failures h.refused hc, h.createReturnsNone]
  exact ⟨rfl, rfl⟩

theorem create_taken (h : g.Plain) {r : Route} (htaken : g.table.get? destination = some r)
    (instanceId : String) :
    (∃ message, (g.create instanceId destination).1 =
        .error (.duplicateDestination destination message)) ∧
      (g.create instanceId destination).2.table = g.table := by
  have hc : g.table.contains destination = true := by
    rw [Table.contains, htaken]
    rfl
  rw [create_of_contains h.failures h.refused hc, duplicateError, h.duplicateAsMessage]
  exact ⟨⟨_, rfl⟩, rfl⟩

end Plain

end MemoryGateway

namespace Cloud

open Web (Returns)
open VpcApi (Serves Passes passes_of_drift lastSent? Prompt lastSent?_cons prompt_of_alone)

/-- A call with its answer, its requests, and the API before and after it. -/
structure Made where
  call : GatewayCall
  answer : call.Answer
  before : VpcApi
  turns : List (Web.Turn VpcApi)
  after : VpcApi

namespace Made

def answered (m : Made) : Answered := ⟨m.call, m.answer⟩

/-- A route that the call makes is shown when its last request is answered. -/
def InSight (m : Made) : Prop :=
  ∀ e ∈ m.after.entries, e ∉ m.before.entries →
    ∀ look ∈ lastSent? m.turns, e.shownFrom ≤ look.before.clock

theorem inSight_of_subset {m : Made} (h : m.after.entries ⊆ m.before.entries) : m.InSight :=
  fun _ he hnew => absurd (h he) hnew

theorem inSight_of_passes {m : Made} (h : Passes m.before m.after) : m.InSight :=
  inSight_of_subset (h.1 ▸ List.Subset.refl _)

end Made

namespace Client

def answer (c : Client) : (k : GatewayCall) → Web k.Answer
  | .create instanceId destination => c.createRoute instanceId destination
  | .find destination => c.findRoute destination
  | .list => c.listRoutes
  | .delete destination => c.deleteRoute destination

/-- One call after the other; time passes between them and in them. -/
inductive Runs (c : Client) (S : Web.Service VpcApi) : VpcApi → List Made → VpcApi → Prop
  | done (s : VpcApi) : Runs c S s [] s
  | wait {s s₁ s' : VpcApi} {log : List Made} (passes : Passes s s₁) (rest : Runs c S s₁ log s') :
      Runs c S s log s'
  | call {m : Made} {log : List Made} {s' : VpcApi}
      (run : Web.Ends S Passes (c.answer m.call) m.before m.turns m.answer m.after)
      (rest : Runs c S m.after log s') : Runs c S m.before (m :: log) s'

end Client

/-! ### Agreement -/

/-- The answer of the client and the answer of the table in memory to the same call. -/
inductive Agree : Answered → Answered → Prop
  | created {instanceId destination : String} {r r' : Route}
      (link : r.link = (destination, instanceId)) (same : r'.link = r.link) :
      Agree ⟨.create instanceId destination, .ok (some r)⟩
        ⟨.create instanceId destination, .ok (some r')⟩
  | taken {instanceId destination message message' : String} :
      Agree ⟨.create instanceId destination, .error (.duplicateDestination destination message)⟩
        ⟨.create instanceId destination, .error (.duplicateDestination destination message')⟩
  | found {destination : String} {r r' : Route} (same : r.link = r'.link) :
      Agree ⟨.find destination, .ok (some r)⟩ ⟨.find destination, .ok (some r')⟩
  | missing {destination : String} :
      Agree ⟨.find destination, .ok none⟩ ⟨.find destination, .ok none⟩
  | listed {routes routes' : List Route}
      (same : (routes.map Route.link).Perm
        ((routes'.filter fun r => r.destination ≠ Client.defaultRoute).map Route.link)) :
      Agree ⟨.list, .ok routes⟩ ⟨.list, .ok routes'⟩
  | deleted {destination : String} :
      Agree ⟨.delete destination, .ok ()⟩ ⟨.delete destination, .ok ()⟩

namespace VpcApi

def links (s : VpcApi) : List (String × String) := s.entries.map fun e => e.item.toRoute.link

theorem nodup_links (s : VpcApi) : s.links.Nodup := by
  have hfst : s.links.map Prod.fst = s.entries.map fun e => e.item.destination := by
    rw [links, List.map_map]
    rfl
  refine List.Nodup.of_map Prod.fst ?_
  rw [hfst]
  exact s.destinations_nodup

theorem listed_of_shown {s : VpcApi} (h : ∀ e ∈ s.entries, e.shownFrom ≤ s.clock) :
    s.listed = s.entries.map Entry.item := by
  rw [listed, List.filter_eq_self.2 fun e he => decide_eq_true (h e he)]

/-- The API and a table in memory have the same routes, and all of them are shown. -/
structure SameTable (s : VpcApi) (g : MemoryGateway) : Prop where
  shown : ∀ e ∈ s.entries, e.shownFrom ≤ s.clock
  links : ∀ l, l ∈ s.links ↔ l ∈ g.table.links
  keyed : g.table.KeyedBy Route.destination
  plain : g.Plain

namespace SameTable

variable {s s' : VpcApi} {g : MemoryGateway} {destination : String}

theorem passes (h : SameTable s g) (hpasses : Passes s s') : SameTable s' g where
  shown e he := Nat.le_trans (h.shown e (hpasses.1 ▸ he)) hpasses.2
  links l := by
    rw [VpcApi.links, hpasses.1]
    exact h.links l
  keyed := h.keyed
  plain := h.plain

theorem mem_listed (h : SameTable s g) {r : RouteItem} :
    r ∈ s.listed ↔ ∃ e ∈ s.entries, e.item = r := by
  rw [listed_of_shown h.shown, List.mem_map]

theorem get?_of_mem (h : SameTable s g) {e : Entry} (he : e ∈ s.entries) :
    ∃ r, g.table.get? e.item.destination = some r ∧ r.link = e.item.toRoute.link := by
  have hlink : e.item.toRoute.link ∈ g.table.links := (h.links _).1 (List.mem_map_of_mem he)
  obtain ⟨r, hr, howner⟩ := (Table.mem_links h.keyed).1 hlink
  exact ⟨r, hr, Prod.ext (h.keyed _ _ hr) howner⟩

theorem get?_of_free (h : SameTable s g)
    (hfree : ∀ e ∈ s.entries, e.item.destination ≠ destination) :
    g.table.get? destination = none := by
  cases hg : g.table.get? destination with
  | none => rfl
  | some r =>
    have hlink : (destination, r.instanceId) ∈ s.links :=
      (h.links _).2 ((Table.mem_links h.keyed).2 ⟨r, hg, rfl⟩)
    obtain ⟨e, he, heq⟩ := List.mem_map.1 hlink
    exact absurd (congrArg Prod.fst heq) (hfree e he)

theorem create_free (h : SameTable s g) {e : Entry} {instanceId : String}
    (hd : e.item.destination = destination) (howner : e.item.nextHops.head? = some instanceId)
    (hentries : s'.entries = e :: s.entries) (hclock : s.clock ≤ s'.clock)
    (hshown : e.shownFrom ≤ s'.clock) :
    Agree ⟨.create instanceId destination, .ok (some e.item.toRoute)⟩
        ⟨.create instanceId destination, (g.create instanceId destination).1⟩ ∧
      SameTable s' (g.create instanceId destination).2 := by
  have hfree : g.table.get? destination = none := by
    refine h.get?_of_free fun e' he' heq => ?_
    have hnodup := s'.destinations_nodup
    rw [hentries, List.map_cons, List.nodup_cons, hd, ← heq] at hnodup
    exact hnodup.1 (List.mem_map_of_mem he')
  have hlink : e.item.toRoute.link = (destination, instanceId) := by
    rw [Route.link, RouteItem.toRoute, howner]
    exact Prod.ext hd rfl
  have hnext : (g.nextRoute instanceId destination).destination = destination := rfl
  obtain ⟨hanswer, htable⟩ := h.plain.create_free hfree instanceId
  rw [hanswer]
  refine ⟨.created hlink hlink.symm, fun e' he' => ?_, fun l => ?_, ?_,
    h.plain.answer (.create instanceId destination)⟩
  · rw [hentries, List.mem_cons] at he'
    rcases he' with rfl | he'
    · exact hshown
    · exact Nat.le_trans (h.shown e' he') hclock
  · rw [htable, Table.mem_links_insert h.keyed hnext hfree, ← h.links, VpcApi.links, hentries,
      List.map_cons, List.mem_cons, hlink]
    rfl
  · rw [htable]
    exact h.keyed.insert hnext

theorem create_taken (h : SameTable s g) {e : Entry} (he : e ∈ s.entries)
    (hd : e.item.destination = destination) (instanceId message : String) :
    Agree ⟨.create instanceId destination, .error (.duplicateDestination destination message)⟩
        ⟨.create instanceId destination, (g.create instanceId destination).1⟩ ∧
      SameTable s (g.create instanceId destination).2 := by
  obtain ⟨r, hr, -⟩ := h.get?_of_mem he
  rw [hd] at hr
  obtain ⟨⟨message', hanswer⟩, htable⟩ := h.plain.create_taken hr instanceId
  rw [hanswer]
  refine ⟨.taken, h.shown, ?_, ?_, h.plain.answer (.create instanceId destination)⟩
  · rw [htable]
    exact h.links
  · rw [htable]
    exact h.keyed

theorem found (h : SameTable s g) {a : Outcome (Option Route)}
    (ha : a = .ok none ∧ (∀ r ∈ s.listed, r.destination ≠ destination) ∨
      ∃ r ∈ s.listed, r.destination = destination ∧ a = .ok (some r.toRoute)) :
    Agree ⟨.find destination, a⟩ ⟨.find destination, (g.find destination).1⟩ ∧
      SameTable s (g.find destination).2 := by
  refine ⟨?_, h.shown, ?_, ?_, h.plain.answer (.find destination)⟩
  · rw [MemoryGateway.find_of_faultless h.plain.failures]
    rcases ha with ⟨rfl, hnone⟩ | ⟨r, hr, hd, rfl⟩
    · have hfree : ∀ e ∈ s.entries, e.item.destination ≠ destination :=
        fun e he => hnone e.item (h.mem_listed.2 ⟨e, he, rfl⟩)
      rw [h.get?_of_free hfree]
      exact .missing
    · obtain ⟨e, he, rfl⟩ := h.mem_listed.1 hr
      obtain ⟨r', hr', hlink⟩ := h.get?_of_mem he
      rw [← hd, hr']
      exact .found hlink.symm
  · rw [MemoryGateway.table_find]
    exact h.links
  · rw [MemoryGateway.table_find]
    exact h.keyed

theorem listed (h : SameTable s g) {routes : List Route}
    (hroutes : routes.Perm
      ((s.listed.filter fun r => r.destination ≠ Client.defaultRoute).map RouteItem.toRoute)) :
    Agree ⟨.list, .ok routes⟩ ⟨.list, g.list.1⟩ ∧ SameTable s g.list.2 := by
  refine ⟨?_, h.shown, ?_, ?_, h.plain.answer .list⟩
  · rw [MemoryGateway.list_of_faultless h.plain.failures]
    have hclient : (routes.map Route.link).Perm
        (s.links.filter fun l => l.1 ≠ Client.defaultRoute) := by
      refine (hroutes.map Route.link).trans (List.Perm.of_eq ?_)
      rw [listed_of_shown h.shown, VpcApi.links, List.filter_map, List.filter_map, List.map_map,
        List.map_map]
      rfl
    have hmemory : ((g.table.values.filter fun r => r.destination ≠ Client.defaultRoute).map
        Route.link) = g.table.links.filter fun l => l.1 ≠ Client.defaultRoute := by
      rw [Table.links, List.filter_map]
      rfl
    have hlinks : s.links.Perm g.table.links :=
      (List.perm_ext_iff_of_nodup s.nodup_links (Table.nodup_links h.keyed)).2 h.links
    refine .listed (hclient.trans ?_)
    rw [hmemory]
    exact hlinks.filter _
  · rw [MemoryGateway.table_list]
    exact h.links
  · rw [MemoryGateway.table_list]
    exact h.keyed

/-- A delete takes away the links of its destination. -/
theorem mem_links_delete (h : SameTable s g)
    (heffect : (∀ r ∈ s.listed, r.destination ≠ destination) ∧ s'.entries = s.entries ∨
      ∃ r ∈ s.listed, r.destination = destination ∧
        s'.entries = s.entries.filter fun e => e.item.id ≠ r.id) (e : Entry) :
    e ∈ s'.entries ↔ e ∈ s.entries ∧ e.item.destination ≠ destination := by
  rcases heffect with ⟨hnone, hentries⟩ | ⟨r, hr, hd, hentries⟩
  · rw [hentries]
    exact (and_iff_left_of_imp fun he => hnone e.item (h.mem_listed.2 ⟨e, he, rfl⟩)).symm
  · obtain ⟨e', he', rfl⟩ := h.mem_listed.1 hr
    rw [hentries, List.mem_filter, decide_eq_true_iff]
    refine and_congr_right fun he => not_congr ⟨fun hid => ?_, fun heq => ?_⟩
    · rw [s.eq_of_id he he' hid, hd]
    · rw [s.eq_of_destination he he' (heq.trans hd.symm)]

theorem deleted (h : SameTable s g) (hclock : s.clock ≤ s'.clock)
    (heffect : ∀ e, e ∈ s'.entries ↔ e ∈ s.entries ∧ e.item.destination ≠ destination) :
    Agree ⟨.delete destination, .ok ()⟩ ⟨.delete destination, (g.delete destination).1⟩ ∧
      SameTable s' (g.delete destination).2 := by
  have htable : (g.delete destination).2.table = g.table.erase destination := by
    rw [MemoryGateway.delete_of_faultless h.plain.failures]
  refine ⟨?_, fun e he => ?_, fun l => ?_, ?_, h.plain.answer (.delete destination)⟩
  · rw [MemoryGateway.delete_of_faultless h.plain.failures]
    exact .deleted
  · exact Nat.le_trans (h.shown e ((heffect e).1 he).1) hclock
  · rw [htable, Table.mem_links_erase h.keyed, ← h.links, VpcApi.links, VpcApi.links, List.mem_map,
      List.mem_map]
    constructor
    · rintro ⟨e, he, rfl⟩
      obtain ⟨hmem, hne⟩ := (heffect e).1 he
      exact ⟨⟨e, hmem, rfl⟩, hne⟩
    · rintro ⟨⟨e, he, rfl⟩, hne⟩
      exact ⟨e, (heffect e).2 ⟨he, hne⟩, rfl⟩
  · rw [htable]
    exact h.keyed.erase destination

end SameTable

end VpcApi

namespace Client

open VpcApi (Serves SameTable)

variable {c : Client} {u : Web.Url} {lag : Nat} {s s' : VpcApi} {g : MemoryGateway} {m : Made}

/-- A create that gave up on its route, with the time it had for that. -/
structure GaveUp (c : Client) (lag : Nat) (m : Made) : Prop where
  answered : ∃ instanceId destination,
    m.answered = ⟨.create instanceId destination, .error (.notVisible destination)⟩
  hidden : ¬m.InSight
  close : ∀ millis, Prompt millis m.turns → c.timeoutMillis < lag + millis + c.intervalMillis
  regular : Prompt 0 m.turns → c.lastLook < lag

theorem GaveUp.not_agree (h : GaveUp c lag m) (a : Answered) : ¬Agree m.answered a := by
  obtain ⟨instanceId, destination, hanswered⟩ := h.answered
  rw [hanswered]
  intro hagree
  cases hagree

/-- Of a free destination, a create agrees with the table in memory or gives up. -/
theorem createRoute_agrees (hu : Web.Url.parse c.config.endpoint = .ok u)
    (hinterval : c.config.waitInterval ≠ 0) {instanceId destination : String}
    {a : Outcome (Option Route)} {t : List (Web.Turn VpcApi)} (h : SameTable s g)
    (run : Web.Ends (Serves u lag) Passes (c.createRoute instanceId destination) s t a s') :
    Made.InSight ⟨.create instanceId destination, a, s, t, s'⟩ ∧
        Agree ⟨.create instanceId destination, a⟩
          ⟨.create instanceId destination, (g.create instanceId destination).1⟩ ∧
        SameTable s' (g.create instanceId destination).2 ∨
      GaveUp c lag ⟨.create instanceId destination, a, s, t, s'⟩ := by
  rcases createRoute_asked hu run with
    ⟨e, turn, t₁, s₁, b, hd, howner, hlag, hentries, hclock, rfl, hbefore, hafter, hawait, rfl⟩ |
    ⟨e, turn, hlooks, he, hd, message, rfl⟩
  · have hstart := passes_of_drift hbefore
    have hadded := passes_of_drift hafter
    have hmem : e ∈ s₁.entries := by
      rw [hadded.1, hentries]
      exact List.mem_cons_self
    obtain ⟨s₂, t₂, hread, rfl, hwaits⟩ := awaitRoute_waits hu hinterval hmem hawait
    obtain ⟨look, hlook⟩ := hwaits.decides
    have hlast : lastSent? (turn :: clockRead s₂ :: t₂) = some look :=
      lastSent?_cons (lastSent?_cons hlook.last)
    have hpasses := ((hadded.trans hread).trans hlook.earlier).trans hlook.later
    have hnow : s'.entries = e :: s.entries := by
      rw [hpasses.1, hentries, hstart.1]
    have hnew : e ∉ s.entries := by
      have hnodup := s'.destinations_nodup
      rw [hnow, List.map_cons, List.nodup_cons] at hnodup
      exact fun hold => hnodup.1 (List.mem_map_of_mem hold)
    have hresult := hlook.result
    have hle := (hadded.trans hread).2
    by_cases hshown : e.shownFrom ≤ look.before.clock
    · rw [if_pos hshown] at hresult
      subst hresult
      refine .inl ⟨fun e' he' hnew' look' hlook' => ?_, ?_⟩
      · rw [hnow] at he'
        obtain rfl := (List.mem_cons.1 he').resolve_right hnew'
        obtain rfl := Option.some.inj (hlast.symm.trans hlook')
        exact hshown
      · have hend := hlook.later.2
        have hall := hstart.2.trans (hclock ▸ hpasses.2)
        exact h.create_free hd howner hnow hall (hshown.trans hend)
    · rw [if_neg hshown] at hresult
      subst hresult
      have hhidden := Nat.lt_of_not_le hshown
      refine .inr ⟨⟨instanceId, destination, rfl⟩, fun hsight => hshown ?_, ?_, ?_⟩
      · exact hsight e (hnow ▸ List.mem_cons_self) hnew look hlast
      · intro millis hprompt
        have hclose := hlook.close hhidden millis hprompt.of_cons.of_cons
        omega
      · intro hprompt
        have hclose := hlook.close hhidden 0 hprompt.of_cons.of_cons
        obtain ⟨waits, hwaits⟩ := hlook.regular (clockRead s₂) rfl hprompt.of_cons
        have hle : c.lastLook ≤ waits * c.intervalMillis :=
          lastLook_le (by rw [Nat.succ_mul]; omega)
        omega
  · obtain ⟨hbefore, hafter⟩ := hlooks.passes
    obtain ⟨hagree, hsame⟩ := (h.passes hbefore).create_taken he hd instanceId message
    exact .inl ⟨Made.inSight_of_passes (hbefore.trans hafter), hagree, hsame.passes hafter⟩

/-- One call of the client is one call of the table in memory, unless it gives up. -/
theorem answer_agrees (hu : Web.Url.parse c.config.endpoint = .ok u)
    (hinterval : c.config.waitInterval ≠ 0) (h : SameTable m.before g)
    (run : Web.Ends (Serves u lag) Passes (c.answer m.call) m.before m.turns m.answer m.after) :
    m.InSight ∧ Agree m.answered ⟨m.call, (g.answer m.call).1⟩ ∧
        SameTable m.after (g.answer m.call).2 ∨
      GaveUp c lag m := by
  obtain ⟨k, a, s, t, s'⟩ := m
  cases k with
  | create instanceId destination => exact createRoute_agrees hu hinterval h run
  | find destination =>
    obtain ⟨turn, hlooks, ha⟩ := findRoute_asked hu run
    obtain ⟨hbefore, hafter⟩ := hlooks.passes
    obtain ⟨hagree, hsame⟩ := (h.passes hbefore).found ha
    exact .inl ⟨Made.inSight_of_passes (hbefore.trans hafter), hagree, hsame.passes hafter⟩
  | list =>
    obtain ⟨turn, routes, hlooks, rfl, hroutes⟩ := listRoutes_asked hu run
    obtain ⟨hbefore, hafter⟩ := hlooks.passes
    obtain ⟨hagree, hsame⟩ := (h.passes hbefore).listed hroutes
    exact .inl ⟨Made.inSight_of_passes (hbefore.trans hafter), hagree, hsame.passes hafter⟩
  | delete destination =>
    obtain ⟨rfl, look, s₁, hlooks, hasked⟩ := deleteRoute_asked hu run
    obtain ⟨hbefore, hafter⟩ := hlooks.passes
    have hlook := h.passes hbefore
    rcases hasked with ⟨hnone, -, hdrift⟩ |
      ⟨r, hr, hd, -, -, s₂, s₃, -, -, hdrift, hlast, hclock, hentries⟩
    · have hend := hafter.trans (passes_of_drift hdrift)
      obtain ⟨hagree, hsame⟩ :=
        hlook.deleted (Nat.le_refl _) (hlook.mem_links_delete (.inl ⟨hnone, rfl⟩))
      exact .inl ⟨Made.inSight_of_passes (hbefore.trans hend), hagree, hsame.passes hend⟩
    · have hmid := hafter.trans (passes_of_drift hdrift)
      have hend := passes_of_drift hlast
      rw [hmid.1] at hentries
      have hclocks : look.before.clock ≤ s₃.clock := hclock ▸ hmid.2
      obtain ⟨hagree, hsame⟩ :=
        hlook.deleted hclocks (hlook.mem_links_delete (.inr ⟨r, hr, hd, hentries⟩))
      refine .inl ⟨Made.inSight_of_subset ?_, hagree, hsame.passes hend⟩
      rw [hend.1, hentries, hbefore.1]
      exact List.filter_subset_self _

/-- A run agrees with the table in memory up to a call that gives up. -/
theorem Runs.agrees (hu : Web.Url.parse c.config.endpoint = .ok u)
    (hinterval : c.config.waitInterval ≠ 0) (h : SameTable s g) {log : List Made}
    (run : Runs c (Serves u lag) s log s') :
    (∀ m ∈ log, m.InSight) ∧
        List.Forall₂ Agree (log.map Made.answered) (g.answers (log.map Made.call)).1 ∧
        SameTable s' (g.answers (log.map Made.call)).2 ∨
      (∃ m ∈ log, GaveUp c lag m) ∧
        ¬List.Forall₂ Agree (log.map Made.answered) (g.answers (log.map Made.call)).1 := by
  induction run generalizing g with
  | done s => exact .inl ⟨by simp, .nil, h⟩
  | wait passes rest ih => exact ih (h.passes passes)
  | @call m log s' run rest ih =>
    rcases answer_agrees hu hinterval h run with ⟨hsight, hagree, hsame⟩ | hgave
    · rcases ih hsame with ⟨hrest, hagrees, hend⟩ | ⟨⟨m', hm', hgave⟩, hnot⟩
      · exact .inl ⟨List.forall_mem_cons.2 ⟨hsight, hrest⟩, .cons hagree hagrees, hend⟩
      · exact .inr ⟨⟨m', List.mem_cons_of_mem _ hm', hgave⟩,
          fun hagrees => hnot (List.forall₂_cons.1 hagrees).2⟩
    · exact .inr ⟨⟨m, List.mem_cons_self, hgave⟩,
        fun hagrees => hgave.not_agree _ (List.forall₂_cons.1 hagrees).1⟩

theorem waitInterval_ne_zero (hconfig : c.config.problem? = none) :
    c.config.waitInterval ≠ 0 := by
  intro hzero
  rw [Config.problem?, if_pos hzero] at hconfig
  split at hconfig
  · cases hconfig
  · split at hconfig <;> cases hconfig

end Client

/-! ### A run -/

namespace Sample

def client : Client where
  config := {
    endpoint := "http://[::1]", vpcId := "vpc-1", region := "", clusterId := ""
    headers := Table.empty, securityToken := none
    waitTimeout := 1, waitInterval := 1, requestTimeout := 30 }
  headers := Table.empty

def hidden : Entry := ⟨⟨"r-0", "", "", Client.defaultRoute, []⟩, 0⟩

def slow : Entry := ⟨⟨"r-1", "", "", "10.0.1.0/24", ["i-1"]⟩, 500⟩

def before : VpcApi where
  entries := [hidden]
  clock := 0
  ids_nodup := by decide
  destinations_nodup := by decide
  id_ne := by decide

def after : VpcApi where
  entries := [slow, hidden]
  clock := 0
  ids_nodup := by decide
  destinations_nodup := by decide
  id_ne := by decide

variable {u : Web.Url}

theorem readable_slow :
    (Json.parse? ("\x7b\"RouteSet\":[\x7b\"RouteId\":\"r-1\"," ++
        "\"DestinationCidrBlock\":\"10.0.1.0/24\",\"NextHopset\":[\x7b\"GatewayId\":\"i-1\"\x7d]" ++
        "\x7d]\x7d")).bind RouteListing.ofJson? = some ⟨"", [slow.item]⟩ := by
  cbv

/-- The route is not shown yet at the first look, and is at the second. -/
theorem create_waits (hu : Web.Url.parse client.config.endpoint = .ok u) :
    Returns (Serves u 1000) (client.createRoute "i-1" "10.0.1.0/24") before
      (.ok (some slow.item.toRoute)) (after.later 1000) := by
  have hcreated : (Json.parse? "\x7b\"RouteId\":\"r-1\"\x7d").bind CreatedRoute.ofJson? =
      some ⟨"", "r-1"⟩ := by
    cbv
  have hnothing : (Json.parse? "\x7b\x7d").bind RouteListing.ofJson? = some ⟨"", []⟩ := by cbv
  have hfirst : Returns (Serves u 1000) (client.describeId "r-1") after (.ok none) after :=
    Client.describeId_returns hu hnothing (by decide)
  have hsecond : Returns (Serves u 1000) (client.describeId "r-1") (after.later 1000)
      (.ok (some slow.item)) (after.later 1000) :=
    Client.describeId_returns hu readable_slow (by decide)
  have hlast : Returns (Serves u 1000) (client.pollRoute "r-1" "10.0.1.0/24" 1000 1)
      (after.later 1000) (.ok slow.item.toRoute) (after.later 1000) :=
    Client.pollRoute_returns_seen hsecond
  have hlooks : Returns (Serves u 1000) (client.pollRoute "r-1" "10.0.1.0/24" 1000 2) after
      (.ok slow.item.toRoute) (after.later 1000) :=
    Client.pollRoute_returns_later hfirst (by decide) hlast
  have hwait : Returns (Serves u 1000) (client.awaitRoute "r-1" "10.0.1.0/24") after
      (.ok slow.item.toRoute) (after.later 1000) :=
    .request (.now after) hlooks
  have hadded : after.entries = slow :: before.entries ∧ after.clock = before.clock := ⟨rfl, rfl⟩
  exact Client.createRoute_returns_created (a := .ok slow.item.toRoute) hu hcreated rfl rfl
    (by decide) hadded hwait

theorem create_taken (hu : Web.Url.parse client.config.endpoint = .ok u) :
    ∃ message, Returns (Serves u 1000) (client.createRoute "i-2" "10.0.1.0/24") (after.later 1000)
      (.error (.duplicateDestination "10.0.1.0/24" message)) (after.later 1000) := by
  have hrefusal : (Json.parse? "\x7b\"Error\":\x7b\"Message\":\"already exists\"\x7d\x7d").bind
      ApiRefusal.ofJson? = some ⟨"", "", "already exists"⟩ := by
    cbv
  have hmem : slow ∈ (after.later 1000).entries := List.mem_cons_self
  have hstatus : Web.isSuccess 400 = false := by decide
  exact Client.createRoute_returns_taken hu hmem hstatus hrefusal
    (List.mem_cons_of_mem _ List.mem_cons_self) (by decide) rfl

theorem list_hides (hu : Web.Url.parse client.config.endpoint = .ok u) :
    Returns (Serves u 1000) client.listRoutes (after.later 1000) (.ok [slow.item.toRoute])
      (after.later 1000) := by
  have hboth : (Json.parse? ("\x7b\"RouteSet\":[\x7b\"RouteId\":\"r-0\"," ++
      "\"DestinationCidrBlock\":\"0.0.0.0/0\"\x7d," ++
      "\x7b\"RouteId\":\"r-1\",\"DestinationCidrBlock\":\"10.0.1.0/24\"," ++
      "\"NextHopset\":[\x7b\"GatewayId\":\"i-1\"\x7d]\x7d]\x7d")).bind RouteListing.ofJson? =
        some ⟨"", [hidden.item, slow.item]⟩ := by
    cbv
  exact Client.listRoutes_returns hu hboth (by decide)

theorem delete_takes (hu : Web.Url.parse client.config.endpoint = .ok u) :
    Returns (Serves u 1000) (client.deleteRoute "10.0.1.0/24") (after.later 1000) (.ok ())
      (before.later 1000) := by
  have hfind : Returns (Serves u 1000) (client.findRoute "10.0.1.0/24") (after.later 1000)
      (.ok (some slow.item.toRoute)) (after.later 1000) :=
    Client.findRoute_returns hu readable_slow (by decide)
  exact Client.deleteRoute_returns hu hfind ⟨by decide, rfl⟩

def calls : List GatewayCall :=
  [.create "i-1" "10.0.1.0/24", .create "i-2" "10.0.1.0/24", .list, .delete "10.0.1.0/24"]

def memory : MemoryGateway := MemoryGateway.ofRoutes [hidden.item.toRoute]

theorem sameTable_before : VpcApi.SameTable before memory where
  shown := by decide
  links := by
    intro l
    rfl
  keyed := by decide
  plain := ⟨rfl, rfl, rfl, rfl⟩

/-- A client that looks for a new route at once, after two seconds, and not again. -/
def patient : Client where
  config := { client.config with waitTimeout := 3, waitInterval := 2 }
  headers := Table.empty

def late : Entry := ⟨slow.item, 2500⟩

def afterLate : VpcApi where
  entries := [late, hidden]
  clock := 0
  ids_nodup := by decide
  destinations_nodup := by decide
  id_ne := by decide

theorem create_gives_up (hu : Web.Url.parse patient.config.endpoint = .ok u) :
    Returns (Serves u 3000) (patient.createRoute "i-1" "10.0.1.0/24") before
      (.error (.notVisible "10.0.1.0/24")) (afterLate.later 2000) := by
  have hcreated : (Json.parse? "\x7b\"RouteId\":\"r-1\"\x7d").bind CreatedRoute.ofJson? =
      some ⟨"", "r-1"⟩ := by
    cbv
  have hnothing : (Json.parse? "\x7b\x7d").bind RouteListing.ofJson? = some ⟨"", []⟩ := by cbv
  have hfirst : Returns (Serves u 3000) (patient.describeId "r-1") afterLate (.ok none) afterLate :=
    Client.describeId_returns hu hnothing (by decide)
  have hsecond : Returns (Serves u 3000) (patient.describeId "r-1") (afterLate.later 2000)
      (.ok none) (afterLate.later 2000) :=
    Client.describeId_returns hu hnothing (by decide)
  have hlast : Returns (Serves u 3000) (patient.pollRoute "r-1" "10.0.1.0/24" 3000 1)
      (afterLate.later 2000) (.error (.notVisible "10.0.1.0/24")) (afterLate.later 2000) :=
    Client.pollRoute_returns_missed hsecond (by decide)
  have hlooks : Returns (Serves u 3000) (patient.pollRoute "r-1" "10.0.1.0/24" 3000 2) afterLate
      (.error (.notVisible "10.0.1.0/24")) (afterLate.later 2000) :=
    Client.pollRoute_returns_later hfirst (by decide) hlast
  have hwait : Returns (Serves u 3000) (patient.awaitRoute "r-1" "10.0.1.0/24") afterLate
      (.error (.notVisible "10.0.1.0/24")) (afterLate.later 2000) :=
    .request (.now afterLate) hlooks
  have hadded : afterLate.entries = late :: before.entries ∧ afterLate.clock = before.clock :=
    ⟨rfl, rfl⟩
  exact Client.createRoute_returns_created (a := .error (.notVisible "10.0.1.0/24")) hu hcreated
    rfl rfl (by decide) hadded hwait

end Sample

end Cloud

end PodRoutes
