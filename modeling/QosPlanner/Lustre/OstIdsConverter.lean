import QosPlanner.Map.InsertAll
import QosPlanner.Lustre.LfsOsts
import QosPlanner.Lustre.LocalLustre

/-!
# The uuids of the OSTs

`OstIdsConverter` (`src/common/OstIdsConverter.cpp`) maps the ids of OSTs to their uuids, from
a cache that is read anew from `lfs osts` whenever an id is not in it. The uuids come from
the parser, so they consist of letters, digits, `_` and `-`; none of these is special in the
pattern that a uuid later becomes part of.
-/

namespace QosPlanner
set_option autoImplicit false

open Lustre

/-- `id_to_uuid_[r.number] = r.uuid` for each OST, in order. -/
def uuidsOf (ostList : List GetOstsResults) : Std.ExtTreeMap String String :=
  ostList.foldl (fun idToUuid r => idToUuid.insert r.number r.uuid) ∅

/-- A uuid that the parser lets through. -/
def IsUuid (uuid : String) : Prop := uuid.toList ≠ [] ∧ uuid.toList.all uuidChar = true

/-- An id has the uuid of the last OST that is listed with it. -/
theorem getElem?_uuidsOf (ostList : List GetOstsResults) (id : String) :
    (uuidsOf ostList)[id]? = (Map.lastWith (·.number) ostList id).map (·.uuid) := by
  have filled := Map.getElem?_insertAll (·.number) (·.uuid) (∅ : Std.ExtTreeMap String String) ostList id
  rw [Std.ExtTreeMap.getElem?_empty, Option.or_none] at filled
  exact filled

/-- An entry comes from an OST of the list. -/
theorem of_uuidsOf_eq_some {ostList : List GetOstsResults} {id uuid : String}
    (stored : (uuidsOf ostList)[id]? = some uuid) : ∃ r ∈ ostList, r.number = id ∧ r.uuid = uuid := by
  rw [getElem?_uuidsOf] at stored
  obtain ⟨r, last, rfl⟩ := Option.map_eq_some_iff.1 stored
  obtain ⟨listed, same⟩ := Map.of_lastWith_eq_some last
  exact ⟨r, listed, same, rfl⟩

theorem uuidsOf_eq_none {ostList : List GetOstsResults} {id : String} (absent : ∀ r ∈ ostList, r.number ≠ id) :
    (uuidsOf ostList)[id]? = none := by
  rw [getElem?_uuidsOf, Map.lastWith_eq_none.2 absent, Option.map_none]

theorem isOst_of_mem_getOstList {popen : String → CommandOutcome} {path : String} {r : GetOstsResults}
    (listed : r ∈ (LocalLustre.getOstList popen path []).2) : IsOst r := by
  rw [LocalLustre.getOstList] at listed
  split at listed
  · cases listed
  · obtain ⟨line, -, read⟩ := List.mem_filterMap.1 (by simpa [parseOstsFromLfsOsts] using listed)
    exact (lfsOstsLine_eq_some_iff.1 read).1

/-- `OstIdsConverter`, by its `id_to_uuid_`. -/
structure OstIdsConverter where
  idToUuid : Std.ExtTreeMap String String
  uuids : ∀ id uuid : String, idToUuid[id]? = some uuid → IsUuid uuid

namespace OstIdsConverter

def empty : OstIdsConverter := ⟨∅, fun _ _ stored => by simp at stored⟩

/-- `UpdateCache`: the cache after the call. -/
def updateCache (converter : OstIdsConverter) (popen : String → CommandOutcome) : OstIdsConverter :=
  if (LocalLustre.getOstList popen "" []).1 then
    ⟨uuidsOf (LocalLustre.getOstList popen "" []).2, fun id uuid stored => by
      obtain ⟨r, listed, -, rfl⟩ := of_uuidsOf_eq_some stored
      exact ⟨(isOst_of_mem_getOstList listed).some_char, (isOst_of_mem_getOstList listed).uuid⟩⟩
  else converter

/-- `ToUUID`: the result, and the cache after the call. -/
def toUUID (converter : OstIdsConverter) (popen : String → CommandOutcome) (id : String) : String × OstIdsConverter :=
  match converter.idToUuid[id]? with
  | some uuid => (uuid, converter)
  | none =>
    let converter := converter.updateCache popen
    match converter.idToUuid[id]? with
    | some uuid => (uuid, converter)
    | none => ("", converter)

/-! ## Ids that are not listed -/

/-- The id is in the OST list that `lfs osts` prints. -/
def Lists (popen : String → CommandOutcome) (id : String) : Prop :=
  ∃ r ∈ (LocalLustre.getOstList popen "" []).2, r.number = id

/-- The uuid that is cached for the id, or the empty one. -/
def cachedUuid (converter : OstIdsConverter) (id : String) : String := (converter.idToUuid[id]?).getD ""

variable {popen : String → CommandOutcome} {id : String} (converter : OstIdsConverter)

/-- It has no characters that are special in a pattern. -/
theorem cachedUuid_plain : converter.cachedUuid id = "" ∨ IsUuid (converter.cachedUuid id) := by
  rw [cachedUuid]
  cases cached : converter.idToUuid[id]? with
  | some uuid => exact Or.inr (converter.uuids id uuid cached)
  | none => exact Or.inl rfl

@[simp] theorem cachedUuid_empty : empty.cachedUuid id = "" := by
  simp [cachedUuid, empty]

/-- An update brings in the list, in which the id is not, or changes nothing. -/
theorem cachedUuid_updateCache (absent : ¬ Lists popen id) :
    ((LocalLustre.getOstList popen "" []).1 = true ∧ (converter.updateCache popen).idToUuid[id]? = none) ∨
      ((LocalLustre.getOstList popen "" []).1 = false ∧ converter.updateCache popen = converter) := by
  cases started : (LocalLustre.getOstList popen "" []).1 with
  | true =>
    refine Or.inl ⟨rfl, ?_⟩
    rw [updateCache, if_pos started]
    exact uuidsOf_eq_none fun r listed same => absent ⟨r, listed, same⟩
  | false => exact Or.inr ⟨rfl, by rw [updateCache, if_neg (by simp [started])]⟩

/-- **An id that is not listed** has the uuid cached for it, or the empty one. -/
theorem toUUID_fst (absent : ¬ Lists popen id) : (converter.toUUID popen id).1 = converter.cachedUuid id := by
  rw [toUUID, cachedUuid]
  cases found : converter.idToUuid[id]? with
  | some uuid => rfl
  | none =>
    have still : (converter.updateCache popen).idToUuid[id]? = none := by
      rcases converter.cachedUuid_updateCache absent with ⟨-, dropped⟩ | ⟨-, same⟩
      · exact dropped
      · rw [same, found]
    simp [still]

/-- The lookup of an id that is not cached updates the cache. -/
theorem toUUID_snd_of_miss {other : String} (uncached : converter.idToUuid[other]? = none) :
    (converter.toUUID popen other).2 = converter.updateCache popen := by
  simp only [toUUID, uncached]
  split <;> rfl

/-- If the list can be read, such a lookup drops the uuid of an id that is not in it. -/
theorem cachedUuid_toUUID_of_miss (absent : ¬ Lists popen id) (started : (LocalLustre.getOstList popen "" []).1 = true)
    {other : String} (uncached : converter.idToUuid[other]? = none) :
    (converter.toUUID popen other).2.cachedUuid id = "" := by
  rw [converter.toUUID_snd_of_miss uncached, cachedUuid]
  rcases converter.cachedUuid_updateCache absent with ⟨-, dropped⟩ | ⟨notStarted, -⟩
  · rw [dropped]
    rfl
  · rw [started] at notStarted
    cases notStarted

/-- Whatever is looked up, its cached uuid stays or, if the list can be read, is dropped. -/
theorem toUUID_snd (absent : ¬ Lists popen id) (other : String) :
    (converter.toUUID popen other).2.cachedUuid id = converter.cachedUuid id ∨
      ((LocalLustre.getOstList popen "" []).1 = true ∧ (converter.toUUID popen other).2.cachedUuid id = "") := by
  cases found : converter.idToUuid[other]? with
  | some uuid =>
    have hit : converter.toUUID popen other = (uuid, converter) := by rw [toUUID, found]
    rw [hit]
    exact Or.inl rfl
  | none =>
    rcases converter.cachedUuid_updateCache absent with ⟨started, -⟩ | ⟨-, same⟩
    · exact Or.inr ⟨started, converter.cachedUuid_toUUID_of_miss absent started found⟩
    · rw [converter.toUUID_snd_of_miss found, same]
      exact Or.inl rfl

end OstIdsConverter

end QosPlanner
