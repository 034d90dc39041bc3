import QosPlanner.Run.Always
import QosPlanner.Lustre.LocalLustre

/-!
# The address cache

`OstIpsCache` (`src/common/OstIpsCache.cpp`) keeps the address that `GetIPOfOst` has found
for a uuid. That function returns false only if its command could not be started; if the
command ran and no line of its output matches, it returns true and leaves the address
empty. `GetIp` then keeps the empty address, and does not ask again.

What the pattern for a uuid captures in a line is a parameter throughout: nothing here
depends on it. (A uuid that is no pattern makes `std::regex` throw, and `GetIp` with it.)
-/

namespace QosPlanner
set_option autoImplicit false

/-- `OstIpsCache`, by its `uuid_to_ip_cache_`. -/
structure OstIpsCache where
  uuidToIpCache : Std.ExtTreeMap String String

variable (matchLine : List Char → List Char → Option String)

/-- `OstIpsCache::GetIp`: the result, and the cache after the call. -/
def OstIpsCache.getIp (cache : OstIpsCache) (popen : String → CommandOutcome) (uuid : String) : String × OstIpsCache :=
  match cache.uuidToIpCache[uuid]? with
  | some ip => (ip, cache)
  | none =>
    match LocalLustre.getIPOfOst matchLine popen uuid "" with
    | (false, _) => ("", cache)
    | (true, ip) => (ip, ⟨cache.uuidToIpCache.insert uuid ip⟩)

/-! ## Lookups -/

/-- How a lookup ends: there was no process, no line of the output matched, or one did. -/
inductive LookupResult where
  | notStarted
  | noAddress
  | address (ip : String)
  deriving DecidableEq, Repr

/-- The result of a lookup that left `ip` in the string it was given. -/
def LookupResult.ofIp (ip : String) : LookupResult := if ip = "" then .noAddress else .address ip

/-- The lookup of a uuid. -/
def lookupResult (popen : String → CommandOutcome) (uuid : String) : LookupResult :=
  match LocalLustre.getIPOfOst matchLine popen uuid "" with
  | (false, _) => .notStarted
  | (true, ip) => .ofIp ip

/-- A cache, and the lookups that were made for it. -/
structure CacheHistory where
  cache : OstIpsCache
  /-- Ghost: the uuid and the result of each lookup. -/
  lookups : List (String × LookupResult)

/-- A call of `GetIp`, with what commands print during the call. -/
structure GetIpCall where
  uuid : String
  popen : String → CommandOutcome

namespace CacheHistory

def start : CacheHistory := ⟨⟨∅⟩, []⟩

/-- What `GetIp` returns. -/
def result (h : CacheHistory) (call : GetIpCall) : String := (h.cache.getIp matchLine call.popen call.uuid).1

/-- One call of `GetIp`. A lookup is made if the uuid is not in the cache. -/
def apply (h : CacheHistory) (call : GetIpCall) : CacheHistory where
  cache := (h.cache.getIp matchLine call.popen call.uuid).2
  lookups :=
    if call.uuid ∈ h.cache.uuidToIpCache then h.lookups
    else h.lookups ++ [(call.uuid, lookupResult matchLine call.popen call.uuid)]

/-- An empty result comes from a lookup that was made in this very call and found no address;
any other was found by some lookup for the same uuid. -/
def AnswersFromLookups (h : CacheHistory) (call : GetIpCall) : Prop :=
  (h.result matchLine call = "" → ∃ found, (h.apply matchLine call).lookups = h.lookups ++ [(call.uuid, found)] ∧
    ∀ ip, found ≠ .address ip) ∧
  (h.result matchLine call ≠ "" →
    (call.uuid, .address (h.result matchLine call)) ∈ (h.apply matchLine call).lookups)

/-- No earlier lookup for the uuid has run without finding an address. -/
def NoMissBefore (h : CacheHistory) (call : GetIpCall) : Prop := (call.uuid, .noAddress) ∉ h.lookups

/-- The cache keeps what the lookups have found, and also that they have found nothing. -/
structure Keeps (h : CacheHistory) : Prop where
  empty : ∀ uuid, h.cache.uuidToIpCache[uuid]? = some "" ↔ (uuid, .noAddress) ∈ h.lookups
  address : ∀ uuid ip, h.cache.uuidToIpCache[uuid]? = some ip → ip ≠ "" → (uuid, .address ip) ∈ h.lookups

/-! ## One call -/

variable {matchLine}

/-- A uuid in the cache. -/
theorem getIp_hit {h : CacheHistory} {call : GetIpCall} {ip : String}
    (hit : h.cache.uuidToIpCache[call.uuid]? = some ip) :
    h.result matchLine call = ip ∧ h.apply matchLine call = h := by
  have member : call.uuid ∈ h.cache.uuidToIpCache := by
    rw [Std.ExtTreeMap.mem_iff_isSome_getElem?, hit]
    rfl
  simp only [result, apply, OstIpsCache.getIp, hit, member, if_true, and_self]

/-- A uuid that has to be looked up. -/
theorem getIp_miss {h : CacheHistory} {call : GetIpCall} (miss : h.cache.uuidToIpCache[call.uuid]? = none) :
    (h.result matchLine call = "" ∧ h.apply matchLine call = ⟨h.cache, h.lookups ++ [(call.uuid, .notStarted)]⟩) ∨
    ∃ ip, h.result matchLine call = ip ∧ h.apply matchLine call =
      ⟨⟨h.cache.uuidToIpCache.insert call.uuid ip⟩, h.lookups ++ [(call.uuid, .ofIp ip)]⟩ := by
  have absent : call.uuid ∉ h.cache.uuidToIpCache := by simpa using miss
  simp only [result, apply, OstIpsCache.getIp, miss, absent, if_false, lookupResult]
  rcases LocalLustre.getIPOfOst matchLine call.popen call.uuid "" with ⟨success, ip⟩
  cases success with
  | false => exact Or.inl ⟨rfl, rfl⟩
  | true => exact Or.inr ⟨ip, rfl, rfl⟩

/-- A command that could not be started leaves the cache as it is. -/
theorem Keeps.notStarted {h : CacheHistory} (keeps : h.Keeps) (uuid : String) :
    Keeps ⟨h.cache, h.lookups ++ [(uuid, .notStarted)]⟩ where
  empty other := by simp [keeps.empty]
  address other ip stored nonempty := List.mem_append_left _ (keeps.address other ip stored nonempty)

/-- What a command printed is kept, be it an address or none. -/
theorem Keeps.learn {h : CacheHistory} (keeps : h.Keeps) {uuid : String}
    (miss : h.cache.uuidToIpCache[uuid]? = none) (ip : String) :
    Keeps ⟨⟨h.cache.uuidToIpCache.insert uuid ip⟩, h.lookups ++ [(uuid, .ofIp ip)]⟩ where
  empty other := by
    simp only [Std.ExtTreeMap.getElem?_insert, Std.compare_eq_iff_eq, List.mem_append, List.mem_singleton,
      Prod.mk.injEq]
    by_cases same : uuid = other
    · subst same
      have unknown : (uuid, LookupResult.noAddress) ∉ h.lookups := by
        rw [← keeps.empty, miss]
        exact fun stored => by cases stored
      rw [if_pos rfl, Option.some.injEq, LookupResult.ofIp]
      split <;> simp_all
    · rw [if_neg same, keeps.empty]
      exact ⟨Or.inl, fun either => either.resolve_right fun last => same last.1.symm⟩
  address other address stored nonempty := by
    simp only [Std.ExtTreeMap.getElem?_insert, Std.compare_eq_iff_eq] at stored
    split at stored
    · rename_i same
      cases stored
      exact List.mem_append_right _ (by simp [same, LookupResult.ofIp, nonempty])
    · exact List.mem_append_left _ (keeps.address other address stored nonempty)

/-- **One call** keeps the cache and the lookups in step. -/
theorem keeps_apply (h : CacheHistory) (call : GetIpCall) (keeps : h.Keeps) : (h.apply matchLine call).Keeps := by
  cases found : h.cache.uuidToIpCache[call.uuid]? with
  | some ip =>
    rw [(getIp_hit found).2]
    exact keeps
  | none =>
    rcases getIp_miss found with ⟨-, after⟩ | ⟨ip, -, after⟩ <;> rw [after]
    · exact keeps.notStarted call.uuid
    · exact keeps.learn found ip

/-- It answers from lookups iff no lookup for the uuid has failed to find an address before. -/
theorem answersFromLookups_iff (h : CacheHistory) (call : GetIpCall) (keeps : h.Keeps) :
    h.AnswersFromLookups matchLine call ↔ h.NoMissBefore call := by
  rw [NoMissBefore, ← keeps.empty, AnswersFromLookups]
  cases found : h.cache.uuidToIpCache[call.uuid]? with
  | some ip =>
    obtain ⟨answer, same⟩ := getIp_hit found
    rw [answer, same, Option.some.injEq]
    constructor
    · rintro ⟨from_lookup, -⟩ empty
      obtain ⟨_, made, -⟩ := from_lookup empty
      simpa using congrArg List.length made
    · exact fun nonempty => ⟨fun empty => absurd empty nonempty, keeps.address call.uuid ip found⟩
  | none =>
    refine iff_of_true ?_ (fun same => by cases same)
    rcases getIp_miss found with ⟨answer, after⟩ | ⟨ip, answer, after⟩ <;> rw [answer, after]
    · exact ⟨fun _ => ⟨_, rfl, fun _ same => by cases same⟩, fun nonempty => absurd rfl nonempty⟩
    · refine ⟨fun empty => ⟨_, rfl, fun _ same => ?_⟩, fun nonempty => by simp [LookupResult.ofIp, nonempty]⟩
      rw [LookupResult.ofIp, if_pos empty] at same
      cases same

end CacheHistory

open CacheHistory

/-- **Runs of `GetIp`.** All results come from lookups as they should iff no uuid is asked for
again after a lookup for it has run without finding an address. -/
theorem failures_not_remembered_iff (calls : List GetIpCall) :
    Run.EachStep (apply matchLine) (AnswersFromLookups matchLine) start calls ↔
      Run.EachStep (apply matchLine) NoMissBefore start calls :=
  Run.eachStep_iff keeps_apply answersFromLookups_iff
    (show start.Keeps from ⟨by simp [start], by simp [start]⟩)

/-- The command for OST 0 prints nothing. -/
def outage : GetIpCall := ⟨"lustre-OST0000_UUID", fun _ => .ended 1 ""⟩

/-- It prints the address. -/
def recovered : GetIpCall :=
  ⟨"lustre-OST0000_UUID", fun _ => .ended 0 "osc.lustre-OST0000-osc-ffff.ost_conn_uuid=10.0.0.1@tcp\n"⟩

/-- After an outage, a call that could find the address returns the empty string, without a
lookup. -/
theorem outage_remembered :
    lookupResult Lustre.getParamOscLine recovered.popen recovered.uuid = .address "10.0.0.1" ∧
      ¬ Run.EachStep (apply Lustre.getParamOscLine) (AnswersFromLookups Lustre.getParamOscLine) start
        [outage, recovered] := by
  refine ⟨by decide +kernel, fun each => ?_⟩
  have second : AnswersFromLookups Lustre.getParamOscLine (start.apply Lustre.getParamOscLine outage) recovered :=
    each.2.1
  have empty : (start.apply Lustre.getParamOscLine outage).result Lustre.getParamOscLine recovered = "" := by
    decide +kernel
  have no_lookup : ((start.apply Lustre.getParamOscLine outage).apply Lustre.getParamOscLine recovered).lookups =
      (start.apply Lustre.getParamOscLine outage).lookups := by
    decide +kernel
  obtain ⟨_, made, -⟩ := second.1 empty
  rw [no_lookup] at made
  simpa using congrArg List.length made

end QosPlanner
