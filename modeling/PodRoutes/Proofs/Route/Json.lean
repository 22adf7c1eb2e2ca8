import PodRoutes.Route.Basic
import PodRoutes.Proofs.Json.Written

/-!
# Routes as texts

A route is read from an array of its four texts, or from an object that gives each of them once, in
any order and among other members (`ofJson?_eq_some_iff`). However it was spelled, its own text is
read as the same route (`texts_survive`).
-/

namespace PodRoutes

namespace Json

/-- One of the members has the name, and the text as its value. -/
def GivesOnce (ms : List (String × Json)) (name s : String) : Prop :=
  ∃ before after, ms = before ++ (name, text s) :: after ∧ ∀ m ∈ before ++ after, m.1 ≠ name

theorem text?_eq_some_iff {v : Json} {s : String} : text? v = some s ↔ v = text s := by
  cases v <;> simp [text?, text]

theorem required?_text?_eq_some_iff {given : Option Json} {s : String} :
    required? text? given = some s ↔ given = some (text s) := by
  simp [required?, Option.bind_eq_some_iff, text?_eq_some_iff]

theorem keyed?_eq_some_iff {given : Option String × Json} {m : String × Json} :
    keyed? given = some m ↔ given = (some m.1, m.2) := by
  obtain ⟨key, v⟩ := given
  obtain ⟨name, w⟩ := m
  cases key <;> simp [keyed?]

theorem members?_eq_some_iff {v : Json} {ms : List (String × Json)} :
    members? v = some ms ↔ v = record ms := by
  cases v with
  | object given =>
    rw [members?, record, object.injEq]
    induction given generalizing ms with
    | nil => simp
    | cons m given ih =>
      rw [List.mapM_cons]
      cases ms with
      | nil => simp [Option.bind_eq_some_iff]
      | cons k ms => simp [Option.bind_eq_some_iff, keyed?_eq_some_iff, ih]
  | _ => simp [members?, record]

theorem field?_eq_some_iff {name s : String} {ms : List (String × Json)} :
    field? [name] ms = some (some (text s)) ↔ GivesOnce ms name s := by
  have hfield : field? [name] ms = some (some (text s)) ↔
      ms.filter (fun m => [name].contains m.1) = [(name, text s)] := by
    rw [field?]
    constructor
    · intro h
      split at h
      · cases h
      · next m hfilter =>
        have hm : m ∈ ms.filter fun m => [name].contains m.1 := hfilter ▸ List.mem_singleton_self m
        have hname : m.1 = name := by simpa using (List.mem_filter.1 hm).2
        rw [hfilter, ← hname, ← Option.some.inj (Option.some.inj h)]
      · cases h
    · intro h
      rw [h]
  rw [hfield, List.filter_eq_cons_iff]
  simp [GivesOnce, List.filter_eq_nil_iff, or_imp, forall_and]

theorem fields?_array {declared : List (List String)} {items given : List Json}
    (h : given.length = declared.length) :
    fields? declared (.array items) = some (given.map some) ↔ items = given := by
  rw [fields?]
  constructor
  · intro hfields
    split at hfields
    · have hall := Option.some.inj hfields
      cases hspare : declared.length - items.length with
      | zero =>
        rw [hspare, List.replicate_zero, List.append_nil] at hall
        exact (List.map_inj_right fun _ _ => Option.some.inj).1 hall
      | succ spare =>
        have hnone : none ∈ given.map some := by simp [← hall, hspare]
        simp at hnone
    · cases hfields
  · rintro rfl
    simp [h]

end Json

namespace Route

/-- The document describes the route. -/
inductive Described (r : Route) : Json → Prop
  | array :
    Described r (.array [.text r.name, .text r.destination, .text r.id, .text r.instanceId])
  | object {ms : List (String × Json)} (name : Json.GivesOnce ms "name" r.name)
    (destination : Json.GivesOnce ms "destinationCidr" r.destination)
    (id : Json.GivesOnce ms "routeId" r.id)
    (instanceId : Json.GivesOnce ms "instanceId" r.instanceId) : Described r (.record ms)

theorem ofJson?_eq_some_iff_fields {v : Json} {r : Route} : ofJson? v = some r ↔
    v.fields? fieldNames =
      some ([.text r.name, .text r.destination, .text r.id, .text r.instanceId].map some) := by
  constructor
  · intro h
    obtain ⟨given, hgiven, h⟩ := Option.bind_eq_some_iff.1 h
    split at h
    · simp only [Option.bind_eq_bind, Option.bind_eq_some_iff,
        Json.required?_text?_eq_some_iff] at h
      obtain ⟨name, rfl, destination, rfl, id, rfl, instanceId, rfl, h⟩ := h
      cases h
      exact hgiven
    · cases h
  · intro h
    rw [ofJson?, h]
    rfl

theorem fields?_record {ms : List (String × Json)} {r : Route} :
    (Json.record ms).fields? fieldNames =
        some ([.text r.name, .text r.destination, .text r.id, .text r.instanceId].map some) ↔
      Json.GivesOnce ms "name" r.name ∧ Json.GivesOnce ms "destinationCidr" r.destination ∧
        Json.GivesOnce ms "routeId" r.id ∧ Json.GivesOnce ms "instanceId" r.instanceId := by
  have hms : (Json.record ms).members? = some ms := Json.members?_eq_some_iff.2 rfl
  change ((Json.record ms).members?.bind fun ms => fieldNames.mapM (Json.field? · ms)) = _ ↔ _
  rw [hms]
  simp [fieldNames, List.mapM_cons, Option.bind_eq_some_iff, Json.field?_eq_some_iff]

theorem ofJson?_eq_some_iff {v : Json} {r : Route} : ofJson? v = some r ↔ r.Described v := by
  rw [ofJson?_eq_some_iff_fields]
  constructor
  · intro h
    cases v with
    | array items =>
      rw [Json.fields?_array rfl] at h
      rw [h]
      exact .array
    | object given =>
      obtain ⟨ms, hms, -⟩ := Option.bind_eq_some_iff.1 h
      rw [Json.members?_eq_some_iff.1 hms] at h ⊢
      obtain ⟨hname, hdestination, hid, hinstanceId⟩ := fields?_record.1 h
      exact .object hname hdestination hid hinstanceId
    | _ => cases h
  · intro h
    cases h with
    | array => exact (Json.fields?_array rfl).2 rfl
    | object hname hdestination hid hinstanceId =>
      exact fields?_record.2 ⟨hname, hdestination, hid, hinstanceId⟩

theorem described_toJson (r : Route) : r.Described r.toJson := by
  refine .object ⟨[], _, rfl, ?_⟩ ⟨[_], _, rfl, ?_⟩ ⟨[_, _], _, rfl, ?_⟩ ⟨[_, _, _], _, rfl, ?_⟩ <;>
    simp

theorem parse?_eq_some_iff {s : String} {r : Route} :
    parse? s = some r ↔ ∃ v, Json.Document s.toList v ∧ r.Described v := by
  simp only [parse?, Option.bind_eq_some_iff, Json.parse?_eq_some_iff, ofJson?_eq_some_iff]

theorem parse?_render (r : Route) : parse? r.render = some r := by
  have hwritable : r.toJson.Writable := by
    simp [toJson, Json.record, Json.text, Json.Writable, Json.WritableMembers]
  rw [parse?, render, Json.parse?_render hwritable]
  exact ofJson?_eq_some_iff.2 r.described_toJson

/-- A route is read from its own text, and from the texts that describe it and no others. However
it was spelled, what is written for it is read as the same route and written as the same text. -/
theorem texts_survive :
    (∀ r : Route, parse? r.render = some r) ∧
      (∀ s r, parse? s = some r ↔ ∃ v, Json.Document s.toList v ∧ r.Described v) ∧
      ∀ s r, parse? s = some r →
        parse? r.render = some r ∧ (parse? r.render).map render = some r.render := by
  refine ⟨parse?_render, fun s r => parse?_eq_some_iff, fun s r _ => ⟨r.parse?_render, ?_⟩⟩
  rw [parse?_render, Option.map_some]

def spacedText : String :=
  " \x7b\"instanceId\" :\"i-\\u0031\",\"more\":[-1.50E+3,\x7b\"a\":null\x7d ],\n" ++
    "\"routeId\":\"r\\/1\", \"destinationCidr\":\"10.0.0.0/24\"," ++
    "\"name\":\"\\ud83d\\ude00\\\"\" \x7d\t"

def spacedRoute : Route := ⟨"😀\"", "10.0.0.0/24", "r/1", "i-1"⟩

/-- Members in another order, one that is not asked for, blanks and escapes. -/
theorem spacedText_survives : parse? spacedText = some spacedRoute ∧
    parse? spacedRoute.render = some spacedRoute ∧
      (parse? spacedRoute.render).map render = some spacedRoute.render := by
  have hread : parse? spacedText = some spacedRoute := by decide +kernel
  exact ⟨hread, texts_survive.2.2 _ _ hread⟩

end Route

end PodRoutes
