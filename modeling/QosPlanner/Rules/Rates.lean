import QosPlanner.Rules.RuleManager

/-!
# Which rules a job gets

`computeOssToMBsAndCountUnique` (`src/common/RuleManager.cpp`) walks the addresses of the
OSTs of a job with two accumulators: a map from each OSS to its rate, from which the rules
are set, and a list of the OSSs in the order they were first met, from which they are
removed. Both are determined by how often an address occurs (`OssRates`), so the two list
the same OSSs.
-/

namespace QosPlanner
set_option autoImplicit false

/-- The rate of an OSS: the throughput of the job once for each OST it serves. -/
def ossRate (minThroughputMbs : UInt32) (ostIps : List String) (ip : String) : UInt32 :=
  UInt32.ofNat (minThroughputMbs.toNat * ostIps.count ip)

theorem ossRate_toNat {minThroughputMbs : UInt32} {ostIps : List String}
    (fits : ostIps.length * minThroughputMbs.toNat < 2 ^ 32) (ip : String) :
    (ossRate minThroughputMbs ostIps ip).toNat = minThroughputMbs.toNat * ostIps.count ip := by
  have bounded : minThroughputMbs.toNat * ostIps.count ip ≤ ostIps.length * minThroughputMbs.toNat := by
    rw [Nat.mul_comm]
    exact Nat.mul_le_mul_right _ List.count_le_length
  rw [ossRate, UInt32.toNat_ofNat']
  exact Nat.mod_eq_of_lt (by omega)

/-- What the loop has accumulated after the addresses `ostIps`. -/
structure OssRates (minThroughputMbs : UInt32) (ostIps : List String) (counted : OssToMbs × List String) :
    Prop where
  rate : ∀ ip, counted.1[ip]? = if ip ∈ ostIps then some (ossRate minThroughputMbs ostIps ip) else none
  once : counted.2.Nodup
  same : ∀ ip, ip ∈ counted.2 ↔ ip ∈ ostIps

/-- The rate of an OSS after one more address. -/
theorem ossRate_snoc (minThroughputMbs : UInt32) (ostIps : List String) (ip other : String) :
    ossRate minThroughputMbs (ostIps ++ [ip]) other =
      if ip = other then ossRate minThroughputMbs ostIps ip + minThroughputMbs
      else ossRate minThroughputMbs ostIps other := by
  apply UInt32.toNat_inj.1
  by_cases same : ip = other
  · subst same
    have counted : (ostIps ++ [ip]).count ip = ostIps.count ip + 1 := by simp
    simp [ossRate, counted, Nat.mul_add, UInt32.toNat_add]
  · have counted : (ostIps ++ [ip]).count other = ostIps.count other := by simp [same]
    simp [ossRate, counted, same]

/-- One turn of the loop. -/
theorem OssRates.snoc {minThroughputMbs : UInt32} {ostIps : List String} {counted : OssToMbs × List String}
    (rates : OssRates minThroughputMbs ostIps counted) (ip : String) :
    OssRates minThroughputMbs (ostIps ++ [ip]) (countOss minThroughputMbs counted ip) := by
  have found := rates.rate ip
  by_cases known : ip ∈ ostIps
  · rw [if_pos known] at found
    simp only [countOss, found]
    refine ⟨fun other => ?_, rates.once, fun other => ?_⟩
    · rw [Std.ExtTreeMap.getElem?_insert, ossRate_snoc]
      by_cases same : ip = other
      · simp [same]
      · simp [same, rates.rate other, Ne.symm same]
    · rw [rates.same, List.mem_append, List.mem_singleton]
      refine ⟨Or.inl, fun member => member.elim id fun last => last ▸ known⟩
  · rw [if_neg known] at found
    simp only [countOss, found]
    refine ⟨fun other => ?_, ?_, fun other => ?_⟩
    · rw [Std.ExtTreeMap.getElem?_insert, ossRate_snoc]
      by_cases same : ip = other
      · subst same
        have first : ossRate minThroughputMbs ostIps ip = 0 := by
          simp [ossRate, List.count_eq_zero.2 known]
        simp [first]
      · simp [same, rates.rate other, Ne.symm same]
    · rw [← List.concat_eq_append]
      exact rates.once.concat (mt (rates.same ip).1 known)
    · rw [List.mem_append, List.mem_append, rates.same]

/-- **What the loop computes.** -/
theorem computeOssToMBsAndCountUnique_rates (minThroughputMbs : UInt32) (ostIps : List String) :
    OssRates minThroughputMbs ostIps (computeOssToMBsAndCountUnique minThroughputMbs ostIps) := by
  induction ostIps using List.reverseRecOn with
  | nil => exact ⟨by simp [computeOssToMBsAndCountUnique], by simp [computeOssToMBsAndCountUnique],
      by simp [computeOssToMBsAndCountUnique]⟩
  | append_singleton ostIps ip ih =>
    rw [computeOssToMBsAndCountUnique, List.foldl_append]
    exact ih.snoc ip

namespace OssRates

variable {minThroughputMbs : UInt32} {ostIps : List String} {counted : OssToMbs × List String}

/-- The entries of the map. -/
theorem mem_entries (rates : OssRates minThroughputMbs ostIps counted) {ip : String} {mbs : UInt32} :
    (ip, mbs) ∈ counted.1.toList ↔ ip ∈ ostIps ∧ mbs = ossRate minThroughputMbs ostIps ip := by
  rw [Std.ExtTreeMap.mem_toList_iff_getElem?_eq_some, rates.rate]
  by_cases known : ip ∈ ostIps
  · simp [known, eq_comm]
  · simp [known]

/-- In some order, the map has one entry for each OSS. -/
theorem entries_perm (rates : OssRates minThroughputMbs ostIps counted) :
    counted.1.toList.Perm (ostIps.dedup.map fun ip => (ip, ossRate minThroughputMbs ostIps ip)) := by
  have distinct : counted.1.toList.Nodup := by
    refine List.Pairwise.imp ?_ counted.1.distinct_keys_toList
    rintro a b apart rfl
    exact apart Std.ReflCmp.compare_self
  have once : (ostIps.dedup.map fun ip => (ip, ossRate minThroughputMbs ostIps ip)).Nodup :=
    (List.nodup_dedup ostIps).map fun a b same => congrArg Prod.fst same
  refine (List.perm_ext_iff_of_nodup distinct once).2 fun entry => ?_
  obtain ⟨ip, mbs⟩ := entry
  rw [rates.mem_entries, List.mem_map]
  constructor
  · rintro ⟨known, rfl⟩
    exact ⟨ip, List.mem_dedup.2 known, rfl⟩
  · rintro ⟨other, known, same⟩
    cases same
    exact ⟨List.mem_dedup.1 known, rfl⟩

/-- So calls made for the entries are, in some order, calls made for the OSSs. -/
theorem calls_perm (rates : OssRates minThroughputMbs ostIps counted) (call : String → UInt32 → RemoteCall) :
    (counted.1.toList.map fun entry => call entry.1 entry.2).Perm
      (ostIps.dedup.map fun ip => call ip (ossRate minThroughputMbs ostIps ip)) := by
  have paired := rates.entries_perm.map fun entry => call entry.1 entry.2
  rwa [List.map_map] at paired

/-- In some order, the list has each OSS once. -/
theorem unique_perm (rates : OssRates minThroughputMbs ostIps counted) : counted.2.Perm ostIps.dedup := by
  refine (List.perm_ext_iff_of_nodup rates.once (List.nodup_dedup ostIps)).2 fun ip => ?_
  rw [rates.same, List.mem_dedup]

end OssRates

/-! ## What the manager sends -/

/-- The addresses of the OSTs. -/
def RemoteEnv.addresses (env : RemoteEnv) (ostIds : List Ost) : List String :=
  ostIds.map fun id => env.getIp (env.toUUID id)

/-- The rate a command sets. -/
def RemoteCall.rate : RemoteCall → Nat
  | .setRule _ _ _ mbs => mbs.toNat
  | .removeRule .. => 0

/-- `SetRules` sends nothing: there is no OST, the job has rules, or an OST has no address. -/
def RefusesUnsent (m : RuleManager) (env : RemoteEnv) (ostIds : List Ost) (jobid : JobId) : Prop :=
  ostIds = [] ∨ jobid ∈ m.activeRules ∨ ∃ id ∈ ostIds, env.getIp (env.toUUID id) = ""

namespace RuleManager

variable (m : RuleManager) (env : RemoteEnv)

theorem setRules_unsent {ostIds : List Ost} {jobid : JobId} (mbs : UInt32)
    (unsent : RefusesUnsent m env ostIds jobid) : m.setRules env ostIds jobid mbs = (false, m, []) := by
  by_cases refused : (ostIds.isEmpty || decide (jobid ∈ m.activeRules)) = true
  · rw [setRules, if_pos refused]
  · rcases unsent with none | active | ⟨id, member, unknown⟩
    · simp [none] at refused
    · simp [active] at refused
    · simp only [setRules, if_neg refused, determineOstIps_eq_none member unknown]

/-- What `SetRules` does otherwise, by the rates of the OSSs. -/
theorem setRules_sent {ostIds : List Ost} {jobid : JobId} (mbs : UInt32)
    (sends : ¬ RefusesUnsent m env ostIds jobid) :
    ∃ counted : OssToMbs × List String, OssRates mbs (env.addresses ostIds) counted ∧
      let sent := setRulesAsync env counted.1 jobid (lustreTbfRulePostfix ++ jobid)
      m.setRules env ostIds jobid mbs = (sent.1,
        if sent.1 then ⟨m.activeRules.insert jobid ⟨lustreTbfRulePostfix ++ jobid, counted.2, ostIds, mbs⟩⟩ else m,
        sent.2) := by
  refine ⟨_, computeOssToMBsAndCountUnique_rates mbs (env.addresses ostIds), ?_⟩
  simp only [RefusesUnsent, not_or, not_exists, not_and] at sends
  obtain ⟨some_ost, unset, addresses⟩ := sends
  have accepted : ¬ (ostIds.isEmpty || decide (jobid ∈ m.activeRules)) = true := by simp [some_ost, unset]
  simp only [setRules, if_neg accepted, determineOstIps_eq_some addresses, RemoteEnv.addresses]
  split
  · rename_i failed
    rw [Bool.not_eq_true'] at failed
    simp [failed]
  · rename_i success
    rw [Bool.not_eq_true', Bool.not_eq_false] at success
    simp [success]

/-- What `RemoveRules` sends for a job whose rules have just been stored. -/
theorem removeRules_insert (jobid : JobId) (rule : RuleDefinition) :
    ((⟨m.activeRules.insert jobid rule⟩ : RuleManager).removeRules jobid).2.2 =
      rule.ostIps.map fun ip => .removeRule ip rule.ruleName jobid := by
  simp [removeRules]

end RuleManager

/-- The rules a call sets. -/
theorem setRule_mem_setRulesAsync {env : RemoteEnv} {map : OssToMbs} {jobid : JobId} {ruleName : String}
    {ip : String} {id : JobId} {name : String} {mbs : UInt32} :
    .setRule ip id name mbs ∈ (setRulesAsync env map jobid ruleName).2 ↔
      (ip, mbs) ∈ map.toList ∧ id = jobid ∧ name = ruleName := by
  simp only [setRulesAsync, List.mem_append, List.mem_map, RemoteCall.setRule.injEq, reduceCtorEq, and_false,
    exists_false, or_false]
  constructor
  · rintro ⟨entry, member, rfl, rfl, rfl, rfl⟩
    exact ⟨member, rfl, rfl⟩
  · rintro ⟨member, rfl, rfl⟩
    exact ⟨_, member, rfl, rfl, rfl, rfl⟩

/-- The rules it removes: those that were refused. -/
theorem removeRule_mem_setRulesAsync {env : RemoteEnv} {map : OssToMbs} {jobid : JobId} {ruleName : String}
    {ip : String} {id : JobId} {name : String} :
    .removeRule ip name id ∈ (setRulesAsync env map jobid ruleName).2 ↔
      (∃ mbs, (ip, mbs) ∈ map.toList ∧ env.setRule ip jobid ruleName mbs = false) ∧
        id = jobid ∧ name = ruleName := by
  simp only [setRulesAsync, List.mem_append, List.mem_map, List.mem_filter, RemoteCall.removeRule.injEq, reduceCtorEq,
    and_false, exists_false, false_or, Bool.not_eq_eq_eq_not, Bool.not_true]
  constructor
  · rintro ⟨⟨_, mbs⟩, ⟨member, refused⟩, rfl, rfl, rfl⟩
    exact ⟨⟨mbs, member, refused⟩, rfl, rfl⟩
  · rintro ⟨⟨mbs, member, refused⟩, rfl, rfl⟩
    exact ⟨(ip, mbs), ⟨member, refused⟩, rfl, rfl, rfl⟩

/-- If every server accepts, exactly the rules of the entries are set. -/
theorem setRulesAsync_accepted {env : RemoteEnv} {map : OssToMbs} {jobid : JobId} {ruleName : String}
    (accepted : ∀ entry ∈ map.toList, env.setRule entry.1 jobid ruleName entry.2 = true) :
    setRulesAsync env map jobid ruleName =
      (true, map.toList.map fun entry => .setRule entry.1 jobid ruleName entry.2) := by
  have none : map.toList.filter (fun entry => !env.setRule entry.1 jobid ruleName entry.2) = [] := by
    simpa [List.filter_eq_nil_iff] using accepted
  simp [setRulesAsync, none]

/-! ## Rates and removal -/

/-- The rates of the OSSs of a job add up to its throughput for each of its OSTs. -/
theorem sum_ossRate {mbs : UInt32} {ostIps : List String} (fits : ostIps.length * mbs.toNat < 2 ^ 32) :
    (ostIps.dedup.map fun ip => (ossRate mbs ostIps ip).toNat).sum = mbs.toNat * ostIps.length := by
  simp only [ossRate_toNat fits]
  rw [List.sum_map_mul_left, List.sum_map_count_dedup_eq_length]

/-- **The rules of a job.** If every server accepts, `SetRules` sets one rule on each OSS,
with the throughput of the job for each of the OSTs it serves, and a following
`RemoveRules` removes these rules and no others. -/
theorem set_and_removed_rules (m : RuleManager) (env : RemoteEnv) (ostIds : List Ost) (jobid : JobId) (mbs : UInt32)
    (some_ost : ostIds ≠ []) (addresses : ∀ id ∈ ostIds, env.getIp (env.toUUID id) ≠ "")
    (unset : jobid ∉ m.activeRules) (fits : ostIds.length * mbs.toNat < 2 ^ 32)
    (accepted : ∀ ip id ruleName rate, .setRule ip id ruleName rate ∈ (m.setRules env ostIds jobid mbs).2.2 →
      env.setRule ip id ruleName rate = true) :
    let ips := env.addresses ostIds
    let ruleName := lustreTbfRulePostfix ++ jobid
    let set := m.setRules env ostIds jobid mbs
    let removed := set.2.1.removeRules jobid
    set.1 = true ∧
    set.2.2.Perm (ips.dedup.map fun ip => .setRule ip jobid ruleName (ossRate mbs ips ip)) ∧
    (∀ ip, (ossRate mbs ips ip).toNat = mbs.toNat * ips.count ip) ∧
    (set.2.2.map RemoteCall.rate).sum = mbs.toNat * ostIds.length ∧
    removed.2.2.Perm (ips.dedup.map fun ip => .removeRule ip ruleName jobid) := by
  have sends : ¬ RefusesUnsent m env ostIds jobid := by
    simpa [RefusesUnsent, some_ost, unset] using addresses
  have length : (env.addresses ostIds).length = ostIds.length := by simp [RemoteEnv.addresses]
  rw [← length] at fits
  obtain ⟨counted, rates, result⟩ := m.setRules_sent env mbs sends
  have every : ∀ entry ∈ counted.1.toList,
      env.setRule entry.1 jobid (lustreTbfRulePostfix ++ jobid) entry.2 = true := by
    intro entry member
    apply accepted
    rw [result]
    exact setRule_mem_setRulesAsync.2 ⟨member, rfl, rfl⟩
  simp only [setRulesAsync_accepted every, if_true] at result
  intro ips ruleName set removed
  have sent : set.2.2.Perm (ips.dedup.map fun ip => .setRule ip jobid ruleName (ossRate mbs ips ip)) := by
    rw [show set.2.2 = _ from congrArg (·.2.2) result]
    exact rates.calls_perm fun ip rate => .setRule ip jobid ruleName rate
  have listed : removed.2.2 = counted.2.map fun ip => .removeRule ip ruleName jobid := by
    rw [show removed = set.2.1.removeRules jobid from rfl, show set.2.1 = _ from congrArg (·.2.1) result]
    exact m.removeRules_insert jobid _
  refine ⟨congrArg Prod.fst result, sent, ossRate_toNat fits, ?_, ?_⟩
  · rw [← length, ← sum_ossRate fits, (sent.map RemoteCall.rate).sum_eq]
    simp [Function.comp_def, RemoteCall.rate, ips]
  · rw [listed]
    exact rates.unique_perm.map _

/-- Three OSTs behind two servers: the first server gets twice the throughput. -/
theorem rules_of_two_servers :
    let env : RemoteEnv := ⟨id, fun uuid => if uuid = "2" then "10.0.0.2" else "10.0.0.1", fun _ _ _ _ => true,
      fun _ _ _ => true⟩
    let set := RuleManager.empty.setRules env ["0", "1", "2"] "foo" 21
    set.2.2.Perm [.setRule "10.0.0.1" "foo" "_qospfoo" 42, .setRule "10.0.0.2" "foo" "_qospfoo" 21] ∧
      (set.2.1.removeRules "foo").2.2.Perm
        [.removeRule "10.0.0.1" "_qospfoo" "foo", .removeRule "10.0.0.2" "_qospfoo" "foo"] := by
  intro env set
  have rules := set_and_removed_rules .empty env ["0", "1", "2"] "foo" 21 (by decide) (by decide)
    (by simp [RuleManager.empty]) (by decide) fun _ _ _ _ _ => rfl
  exact ⟨rules.2.1, rules.2.2.2.2⟩

end QosPlanner
