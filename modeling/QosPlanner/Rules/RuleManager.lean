import QosPlanner.Schedule.Job

/-!
# The rule manager

`RuleManager` (`src/common/RuleManager.cpp`) sets the bandwidth rules of a job on every
OSS that serves one of its OSTs, and remembers the jobs it set rules for. The lookups
and the remote commands are answered from outside: a `RemoteEnv` holds the answers
given during one call. The calls sent to the servers are part of the result.
-/

namespace QosPlanner
set_option autoImplicit false

/-- What the OST lookups and the remote rule commands answer. -/
structure RemoteEnv where
  /-- `OstIdsConverter::ToUUID` -/
  toUUID : Ost → String
  /-- `OstIpsCache::GetIp`; empty when there is no address. -/
  getIp : String → String
  /-- `RuleSetter::SetRule`: OSS address, job id, rule name, rate. -/
  setRule : String → JobId → String → UInt32 → Bool
  /-- `RuleSetter::RemoveRule`: OSS address, rule name, job id. -/
  removeRule : String → String → JobId → Bool
  deriving Inhabited

/-- A command sent to an OSS. -/
inductive RemoteCall where
  | setRule (ip : String) (jobid : JobId) (ruleName : String) (mbs : UInt32)
  | removeRule (ip : String) (ruleName : String) (jobid : JobId)
  deriving DecidableEq, Repr

/-- `RuleManager::RuleDefinition`. -/
structure RuleDefinition where
  ruleName : String
  ostIps : List String
  /-- Ghost: the OST ids the rule was set for. -/
  ostIds : List Ost
  /-- Ghost: the throughput the rule was set for. -/
  minThroughputMbs : UInt32
  deriving DecidableEq, Repr

/-- `RuleManager`, by its `active_rules_`. -/
structure RuleManager where
  activeRules : Std.ExtTreeMap JobId RuleDefinition

/-- `lustre_tbf_rule_postfix_` -/
def lustreTbfRulePostfix : String := "_qosp"

/-- The type of `oss_to_mbs_map`. -/
abbrev OssToMbs := Std.ExtTreeMap String UInt32

/-- `determineOstIps`; `none` is a false result. -/
def determineOstIps (env : RemoteEnv) : List Ost → Option (List String)
  | [] => some []
  | id :: ostIds =>
    let ip := env.getIp (env.toUUID id)
    if ip.isEmpty then none else (determineOstIps env ostIds).map (ip :: ·)

/-- The body of the loop of `computeOssToMBsAndCountUnique`. -/
def countOss (minThroughputMbs : UInt32) (counted : OssToMbs × List String) (ip : String) :
    OssToMbs × List String :=
  match counted.1[ip]? with
  | some mbs => (counted.1.insert ip (mbs + minThroughputMbs), counted.2)
  | none => (counted.1.insert ip minThroughputMbs, counted.2 ++ [ip])

/-- `computeOssToMBsAndCountUnique`: the rate for each OSS, and each OSS once. -/
def computeOssToMBsAndCountUnique (minThroughputMbs : UInt32) (ostIps : List String) :
    OssToMbs × List String :=
  ostIps.foldl (countOss minThroughputMbs) (∅, [])

/-- `SetRulesAsync`: one `SetRule` for each entry, then the clean-up, which takes the
entries whose `SetRule` failed. -/
def setRulesAsync (env : RemoteEnv) (ostIpToCountMap : OssToMbs) (jobid : JobId) (ruleName : String) :
    Bool × List RemoteCall :=
  let entries := ostIpToCountMap.toList
  let cleanupTasks := entries.filter fun entry => !env.setRule entry.1 jobid ruleName entry.2
  (cleanupTasks.isEmpty,
    entries.map (fun entry => .setRule entry.1 jobid ruleName entry.2) ++
      cleanupTasks.map fun entry => .removeRule entry.1 ruleName jobid)

namespace RuleManager

/-- A manager without rules. -/
def empty : RuleManager := ⟨∅⟩

/-- `SetRules`. -/
def setRules (m : RuleManager) (env : RemoteEnv) (ostIds : List Ost) (jobid : JobId)
    (minThroughputMbs : UInt32) : Bool × RuleManager × List RemoteCall :=
  if ostIds.isEmpty || jobid ∈ m.activeRules then (false, m, [])
  else
    match determineOstIps env ostIds with
    | none => (false, m, [])
    | some ostIps =>
      let (ossToMbsMap, uniqueOstIps) := computeOssToMBsAndCountUnique minThroughputMbs ostIps
      let ruleName := lustreTbfRulePostfix ++ jobid
      let (success, calls) := setRulesAsync env ossToMbsMap jobid ruleName
      if !success then (false, m, calls)
      else (true, ⟨m.activeRules.insert jobid ⟨ruleName, uniqueOstIps, ostIds, minThroughputMbs⟩⟩, calls)

/-- `RemoveRules`; the answers of the servers are not looked at. -/
def removeRules (m : RuleManager) (jobid : JobId) : Bool × RuleManager × List RemoteCall :=
  match m.activeRules[jobid]? with
  | none => (false, m, [])
  | some rule =>
    (true, ⟨m.activeRules.erase jobid⟩, rule.ostIps.map fun ip => .removeRule ip rule.ruleName jobid)

/-- The rule of a job. -/
def ruleOf (m : RuleManager) (jobid : JobId) : Option RuleDefinition := m.activeRules[jobid]?

end RuleManager

/-! ## When rules can be set -/

/-- The job has OSTs, each has an address, and every server accepts its rule. -/
structure CanSetRules (env : RemoteEnv) (ostIds : List Ost) (jobid : JobId) (mbs : UInt32) : Prop where
  some_ost : ostIds ≠ []
  addresses : ∀ id ∈ ostIds, env.getIp (env.toUUID id) ≠ ""
  accepted : ∀ entry ∈ (computeOssToMBsAndCountUnique mbs
      (ostIds.map fun id => env.getIp (env.toUUID id))).1.toList,
    env.setRule entry.1 jobid (lustreTbfRulePostfix ++ jobid) entry.2 = true

instance (env : RemoteEnv) (ostIds : List Ost) (jobid : JobId) (mbs : UInt32) :
    Decidable (CanSetRules env ostIds jobid mbs) :=
  decidable_of_iff (_ ∧ _ ∧ _) ⟨fun ⟨some_ost, addresses, accepted⟩ => ⟨some_ost, addresses, accepted⟩,
    fun can => ⟨can.some_ost, can.addresses, can.accepted⟩⟩

theorem determineOstIps_eq_some {env : RemoteEnv} {ostIds : List Ost}
    (addresses : ∀ id ∈ ostIds, env.getIp (env.toUUID id) ≠ "") :
    determineOstIps env ostIds = some (ostIds.map fun id => env.getIp (env.toUUID id)) := by
  induction ostIds with
  | nil => rfl
  | cons id rest ih =>
    have here : (env.getIp (env.toUUID id)).isEmpty = false := by
      simpa using addresses id List.mem_cons_self
    simp [determineOstIps, here, ih fun id member => addresses id (List.mem_cons_of_mem _ member)]

theorem determineOstIps_eq_none {env : RemoteEnv} {ostIds : List Ost} {id : Ost}
    (member : id ∈ ostIds) (unknown : env.getIp (env.toUUID id) = "") :
    determineOstIps env ostIds = none := by
  induction ostIds with
  | nil => cases member
  | cons first rest ih =>
    rcases List.mem_cons.1 member with rfl | later
    · simp [determineOstIps, unknown]
    · simp [determineOstIps, ih later]

/-- The clean-up list is empty exactly if every server accepted. -/
theorem setRulesAsync_fst (env : RemoteEnv) (ostIpToCountMap : OssToMbs) (jobid : JobId) (ruleName : String) :
    (setRulesAsync env ostIpToCountMap jobid ruleName).1 = true ↔
      ∀ entry ∈ ostIpToCountMap.toList, env.setRule entry.1 jobid ruleName entry.2 = true := by
  simp [setRulesAsync]

namespace RuleManager

variable (m : RuleManager) (env : RemoteEnv)

/-- **What `SetRules` does to `active_rules_`.** It succeeds exactly for a job without a
rule whose rules can be set, and then stores one rule; otherwise nothing changes. -/
theorem setRules_cases (ostIds : List Ost) (jobid : JobId) (mbs : UInt32) :
    (jobid ∉ m.activeRules ∧ CanSetRules env ostIds jobid mbs ∧
      ∃ (rule : RuleDefinition) (calls : List RemoteCall),
        rule.ostIds = ostIds ∧ rule.minThroughputMbs = mbs ∧
        m.setRules env ostIds jobid mbs = (true, ⟨m.activeRules.insert jobid rule⟩, calls)) ∨
    (¬ (jobid ∉ m.activeRules ∧ CanSetRules env ostIds jobid mbs) ∧
      ∃ calls : List RemoteCall, m.setRules env ostIds jobid mbs = (false, m, calls)) := by
  by_cases refused : (ostIds.isEmpty || decide (jobid ∈ m.activeRules)) = true
  · refine Or.inr ⟨?_, [], by rw [setRules, if_pos refused]⟩
    rintro ⟨unset, can⟩
    have := can.some_ost
    simp_all
  · by_cases addresses : ∀ id ∈ ostIds, env.getIp (env.toUUID id) ≠ ""
    · have ips := determineOstIps_eq_some addresses
      have unset : jobid ∉ m.activeRules := by simp_all
      have some_ost : ostIds ≠ [] := by rintro rfl; simp at refused
      have accepted := setRulesAsync_fst env
        (computeOssToMBsAndCountUnique mbs (ostIds.map fun id => env.getIp (env.toUUID id))).1
        jobid (lustreTbfRulePostfix ++ jobid)
      simp only [setRules, if_neg refused, ips]
      rcases sent : setRulesAsync env _ jobid (lustreTbfRulePostfix ++ jobid) with ⟨success, calls⟩
      rw [sent] at accepted
      cases success with
      | true =>
        exact Or.inl ⟨unset, ⟨some_ost, addresses, accepted.1 rfl⟩, ⟨_, _, ostIds, mbs⟩, calls, rfl, rfl, rfl⟩
      | false =>
        refine Or.inr ⟨fun both => ?_, calls, rfl⟩
        cases accepted.2 both.2.accepted
    · simp only [not_forall, not_not] at addresses
      obtain ⟨id, member, unknown⟩ := addresses
      refine Or.inr ⟨fun both => both.2.addresses id member unknown, [], ?_⟩
      simp only [setRules, if_neg refused, determineOstIps_eq_none member unknown]

@[simp] theorem ruleOf_empty (id : JobId) : empty.ruleOf id = none := by simp [ruleOf, empty]

/-- `RemoveRules` leaves the job without a rule, whatever it returns. -/
@[simp] theorem removeRules_activeRules (jobid : JobId) :
    (m.removeRules jobid).2.1.activeRules = m.activeRules.erase jobid := by
  unfold removeRules
  split
  · rename_i absent
    apply Std.ExtTreeMap.ext_getElem?
    intro k
    rw [Std.ExtTreeMap.getElem?_erase]
    split
    · rename_i same; rw [← Std.LawfulEqCmp.eq_of_compare same, absent]
    · rfl
  · rfl

theorem ruleOf_removeRules (jobid id : JobId) :
    (m.removeRules jobid).2.1.ruleOf id = if jobid = id then none else m.ruleOf id := by
  simp only [ruleOf, removeRules_activeRules, Std.ExtTreeMap.getElem?_erase, Std.compare_eq_iff_eq]

theorem ruleOf_insert (jobid id : JobId) (rule : RuleDefinition) :
    (⟨m.activeRules.insert jobid rule⟩ : RuleManager).ruleOf id =
      if jobid = id then some rule else m.ruleOf id := by
  simp only [ruleOf, Std.ExtTreeMap.getElem?_insert, Std.compare_eq_iff_eq]

theorem ruleOf_eq_none (id : JobId) : m.ruleOf id = none ↔ id ∉ m.activeRules := by
  simp [ruleOf]

end RuleManager

end QosPlanner
