import QosPlanner.Rules.Rates
import QosPlanner.Lustre.OstIpsCache
import QosPlanner.Lustre.OstIdsConverter

/-!
# The lookups of the rule manager

`RuleManager::SetRules` (`src/common/RuleManager.cpp`) with the two caches it is given in the
server: `determineOstIps` asks the `OstIdsConverter` for the uuid of an OST and the
`OstIpsCache` for the address of this uuid, and both caches keep what they have learnt. The
uuid may be the empty one.

What the commands print is given for each OST of the list, and separately for its two
lookups, since it can change in between. If the addresses found are those that a
`RemoteEnv` answers, the call is the `RuleManager.setRules` of that environment
(`setRulesCached_eq_setRules`).
-/

namespace QosPlanner
set_option autoImplicit false

/-- `ost_id_converter_` and `ost_ip_cache_` -/
structure OstCaches where
  ostIdConverter : OstIdsConverter
  ostIpCache : OstIpsCache

/-- An OST of the list, and what commands print while its uuid and its address are looked up. -/
structure OstLookup where
  id : Ost
  uuidPopen : String → CommandOutcome
  addressPopen : String → CommandOutcome

namespace OstCaches

/-- `GetIp(ToUUID(id))`: the address, and the caches after the call. -/
def getIp (caches : OstCaches) (lookup : OstLookup) : String × OstCaches :=
  let (uuid, ostIdConverter) := caches.ostIdConverter.toUUID lookup.uuidPopen lookup.id
  let (ip, ostIpCache) := caches.ostIpCache.getIp Lustre.getParamOscLine lookup.addressPopen uuid
  (ip, ⟨ostIdConverter, ostIpCache⟩)

/-- `determineOstIps`; `none` is a false result. -/
def determineOstIps (caches : OstCaches) : List OstLookup → Option (List String) × OstCaches
  | [] => (some [], caches)
  | lookup :: lookups =>
    let (ip, caches) := caches.getIp lookup
    if ip.isEmpty then (none, caches)
    else
      let (ostIps, caches) := caches.determineOstIps lookups
      (ostIps.map (ip :: ·), caches)

end OstCaches

namespace RuleManager

/-- `SetRules` from the addresses on. -/
def setRulesAt (m : RuleManager) (env : RemoteEnv) (ostIps : List String) (ostIds : List Ost) (jobid : JobId)
    (minThroughputMbs : UInt32) : Bool × RuleManager × List RemoteCall :=
  let (ossToMbsMap, uniqueOstIps) := computeOssToMBsAndCountUnique minThroughputMbs ostIps
  let ruleName := lustreTbfRulePostfix ++ jobid
  let (success, calls) := setRulesAsync env ossToMbsMap jobid ruleName
  if !success then (false, m, calls)
  else (true, ⟨m.activeRules.insert jobid ⟨ruleName, uniqueOstIps, ostIds, minThroughputMbs⟩⟩, calls)

/-- `SetRules` with its caches: the result, and the caches after the call. Of the environment,
only the answers of the servers are used. -/
def setRulesCached (m : RuleManager) (env : RemoteEnv) (caches : OstCaches) (lookups : List OstLookup)
    (jobid : JobId) (minThroughputMbs : UInt32) : (Bool × RuleManager × List RemoteCall) × OstCaches :=
  if lookups.isEmpty || jobid ∈ m.activeRules then ((false, m, []), caches)
  else
    match caches.determineOstIps lookups with
    | (none, caches) => ((false, m, []), caches)
    | (some ostIps, caches) =>
      (m.setRulesAt env ostIps (lookups.map OstLookup.id) jobid minThroughputMbs, caches)

variable (m : RuleManager) (env : RemoteEnv) (caches : OstCaches)

theorem setRules_eq (ostIds : List Ost) (jobid : JobId) (mbs : UInt32) :
    m.setRules env ostIds jobid mbs =
      if ostIds.isEmpty || jobid ∈ m.activeRules then (false, m, [])
      else
        match determineOstIps env ostIds with
        | none => (false, m, [])
        | some ostIps => m.setRulesAt env ostIps ostIds jobid mbs := by
  rfl

/-- **The caches give an environment its answers.** -/
theorem setRulesCached_eq_setRules {lookups : List OstLookup}
    (answers : (caches.determineOstIps lookups).1 = determineOstIps env (lookups.map OstLookup.id))
    (jobid : JobId) (mbs : UInt32) :
    (m.setRulesCached env caches lookups jobid mbs).1 =
      m.setRules env (lookups.map OstLookup.id) jobid mbs := by
  rw [setRules_eq, setRulesCached, List.isEmpty_map, ← answers]
  split
  · rfl
  · rcases caches.determineOstIps lookups with ⟨_ | ostIps, after⟩
    · rfl
    · rfl

variable {caches}

/-- An OST without an address: nothing is sent. -/
theorem setRulesCached_unsent {lookups : List OstLookup} (unknown : (caches.determineOstIps lookups).1 = none)
    (jobid : JobId) (mbs : UInt32) : (m.setRulesCached env caches lookups jobid mbs).1 = (false, m, []) := by
  rw [setRulesCached]
  split
  · rfl
  · rcases found : caches.determineOstIps lookups with ⟨_ | ostIps, after⟩
    · rfl
    · rw [found] at unknown
      cases unknown

variable {m env}

/-- Addresses for all OSTs: each address is sent a rule. -/
theorem setRulesCached_sent {lookups : List OstLookup} {ostIps : List String}
    (found : (caches.determineOstIps lookups).1 = some ostIps) {jobid : JobId} (unset : jobid ∉ m.activeRules)
    (mbs : UInt32) {ip : String} (member : ip ∈ ostIps) :
    .setRule ip jobid (lustreTbfRulePostfix ++ jobid) (ossRate mbs ostIps ip) ∈
      (m.setRulesCached env caches lookups jobid mbs).1.2.2 := by
  have sends : ¬ (lookups.isEmpty || decide (jobid ∈ m.activeRules)) = true := by
    cases lookups with
    | nil =>
      cases found
      cases member
    | cons lookup lookups => simp [unset]
  have entry := (computeOssToMBsAndCountUnique_rates mbs ostIps).mem_entries.2 ⟨member, rfl⟩
  have sent : .setRule ip jobid (lustreTbfRulePostfix ++ jobid) (ossRate mbs ostIps ip) ∈
      (setRulesAsync env (computeOssToMBsAndCountUnique mbs ostIps).1 jobid (lustreTbfRulePostfix ++ jobid)).2 :=
    setRule_mem_setRulesAsync.2 ⟨entry, rfl, rfl⟩
  rw [setRulesCached, if_neg sends]
  rcases eq : caches.determineOstIps lookups with ⟨_ | ips, after⟩
  · rw [eq] at found
    cases found
  · rw [eq] at found
    cases found
    simp only [setRulesAt]
    split
    · exact sent
    · exact sent

end RuleManager

/-! ## Addresses -/

namespace OstCaches

variable (caches : OstCaches)

theorem getIp_fst (lookup : OstLookup) :
    (caches.getIp lookup).1 = (caches.ostIpCache.getIp Lustre.getParamOscLine lookup.addressPopen
      (caches.ostIdConverter.toUUID lookup.uuidPopen lookup.id).1).1 := rfl

theorem getIp_snd (lookup : OstLookup) :
    (caches.getIp lookup).2 = ⟨(caches.ostIdConverter.toUUID lookup.uuidPopen lookup.id).2,
      (caches.ostIpCache.getIp Lustre.getParamOscLine lookup.addressPopen
        (caches.ostIdConverter.toUUID lookup.uuidPopen lookup.id).1).2⟩ := rfl

@[simp] theorem determineOstIps_nil : caches.determineOstIps [] = (some [], caches) := rfl

/-- A lookup that fails ends the loop. -/
theorem determineOstIps_cons_of_empty {lookup : OstLookup} (empty : (caches.getIp lookup).1 = "")
    (lookups : List OstLookup) :
    caches.determineOstIps (lookup :: lookups) = (none, (caches.getIp lookup).2) := by
  simp [determineOstIps, empty]

/-- One that succeeds leaves its caches to the rest. -/
theorem determineOstIps_cons {lookup : OstLookup} (found : (caches.getIp lookup).1 ≠ "")
    (lookups : List OstLookup) :
    (caches.determineOstIps (lookup :: lookups)).1 =
      ((caches.getIp lookup).2.determineOstIps lookups).1.map ((caches.getIp lookup).1 :: ·) := by
  simp [determineOstIps, found]

end OstCaches

end QosPlanner
