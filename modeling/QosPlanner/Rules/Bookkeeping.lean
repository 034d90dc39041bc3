import QosPlanner.Run.Always
import QosPlanner.Rules.Rates

/-!
# What the manager knows of the rules on the servers

`active_rules_` is all that `RemoveRules` (`src/common/RuleManager.cpp`) has to find the
servers of a job. Over runs of `SetRules` and `RemoveRules`, a ghost list keeps the rules
that a successful `SetRules` has set and no `RemoveRule` has taken back since; the manager
should have each of them in its books. `RemoveRules` waits for the answers of the servers
without looking at them, and erases the job.
-/

namespace QosPlanner
set_option autoImplicit false

/-- The rules set by the calls sent, by job and server. -/
def rulesSet (calls : List RemoteCall) : List (JobId × String) :=
  calls.filterMap fun
    | .setRule ip jobid _ _ => some (jobid, ip)
    | .removeRule .. => none

/-- The rules whose `RemoveRule` returned true. -/
def rulesRemoved (env : RemoteEnv) (calls : List RemoteCall) : List (JobId × String) :=
  calls.filterMap fun
    | .setRule .. => none
    | .removeRule ip ruleName jobid => if env.removeRule ip ruleName jobid then some (jobid, ip) else none

/-- A manager, and the rules that are still to be removed. -/
structure Bookkeeping where
  manager : RuleManager
  /-- Ghost: the job and the server of each rule that was set by a `SetRules` that returned
  true, and that no `RemoveRule` has removed since. -/
  installed : List (JobId × String)

/-- A call of the manager, with the answers it gets. -/
inductive ManagerCall where
  | setRules (env : RemoteEnv) (ostIds : List Ost) (jobid : JobId) (minThroughputMbs : UInt32)
  | removeRules (env : RemoteEnv) (jobid : JobId)

namespace Bookkeeping

def empty : Bookkeeping := ⟨.empty, []⟩

/-- One call. -/
def apply (b : Bookkeeping) : ManagerCall → Bookkeeping
  | .setRules env ostIds jobid mbs =>
    let (success, manager, calls) := b.manager.setRules env ostIds jobid mbs
    let remaining := b.installed.filter (· ∉ rulesRemoved env calls)
    ⟨manager, if success then rulesSet calls ++ remaining else remaining⟩
  | .removeRules env jobid =>
    let (_, manager, calls) := b.manager.removeRules jobid
    ⟨manager, b.installed.filter (· ∉ rulesRemoved env calls)⟩

/-- Each rule that is still installed is listed under its job. -/
def NothingForgotten (b : Bookkeeping) : Prop :=
  ∀ jobid ip, (jobid, ip) ∈ b.installed → ∃ rule, b.manager.ruleOf jobid = some rule ∧ ip ∈ rule.ostIps

/-- If the call is a `RemoveRules` that returns true, each listed server has removed the rule. -/
def TellsTruth (b : Bookkeeping) : ManagerCall → Prop
  | .setRules .. => True
  | .removeRules env jobid => (b.manager.removeRules jobid).1 = true →
      ∀ rule, b.manager.ruleOf jobid = some rule → ∀ ip ∈ rule.ostIps, env.removeRule ip rule.ruleName jobid = true

/-- If the call is a `RemoveRules` for a job with rules, no server fails to remove its rule. -/
def ServersRemove (b : Bookkeeping) : ManagerCall → Prop
  | .setRules .. => True
  | .removeRules env jobid =>
    ∀ rule, b.manager.ruleOf jobid = some rule → ∀ ip ∈ rule.ostIps, env.removeRule ip rule.ruleName jobid = true

/-- Each listed rule is installed. -/
def ListsInstalled (b : Bookkeeping) : Prop :=
  ∀ jobid rule ip, b.manager.ruleOf jobid = some rule → ip ∈ rule.ostIps → (jobid, ip) ∈ b.installed

/-! ## One call -/

/-- The rules of a job, as set on the servers that are listed for it. -/
theorem mem_rulesSet_entries {mbs : UInt32} {ostIps : List String} {counted : OssToMbs × List String}
    (rates : OssRates mbs ostIps counted) {jobid : JobId} (ruleName : String) {id : JobId} {ip : String} :
    (id, ip) ∈ rulesSet (counted.1.toList.map fun entry => .setRule entry.1 jobid ruleName entry.2) ↔
      id = jobid ∧ ip ∈ counted.2 := by
  simp only [rulesSet, List.filterMap_map, Function.comp_def, List.mem_filterMap, Option.some.injEq,
    Prod.mk.injEq, Prod.exists, rates.same]
  constructor
  · rintro ⟨other, rate, entry, rfl, rfl⟩
    exact ⟨rfl, (rates.mem_entries.1 entry).1⟩
  · rintro ⟨rfl, known⟩
    exact ⟨ip, _, rates.mem_entries.2 ⟨known, rfl⟩, rfl, rfl⟩

/-- Only rules of the job are removed by the clean-up. -/
theorem fst_of_mem_rulesRemoved {env : RemoteEnv} {map : OssToMbs} {jobid : JobId} {ruleName : String}
    {gone : JobId × String} (removed : gone ∈ rulesRemoved env (setRulesAsync env map jobid ruleName).2) :
    gone.1 = jobid := by
  obtain ⟨call, sent, answered⟩ := List.mem_filterMap.1 removed
  cases call with
  | setRule => cases answered
  | removeRule ip name id =>
    obtain ⟨-, rfl, -⟩ := removeRule_mem_setRulesAsync.1 sent
    obtain ⟨-, same⟩ := Option.ite_none_right_eq_some.1 answered
    cases same
    rfl

/-- **`SetRules`** leaves the manager as it is, or adds the rules of a job that has none. -/
theorem setRules_cases (b : Bookkeeping) (env : RemoteEnv) (ostIds : List Ost) (jobid : JobId) (mbs : UInt32) :
    (∃ ips : List (JobId × String), (∀ gone ∈ ips, gone.1 = jobid) ∧ (ips ≠ [] → b.manager.ruleOf jobid = none) ∧
      b.apply (.setRules env ostIds jobid mbs) = ⟨b.manager, b.installed.filter (· ∉ ips)⟩) ∨
    (b.manager.ruleOf jobid = none ∧ ∃ (rule : RuleDefinition) (set : List (JobId × String)),
      (∀ id ip, (id, ip) ∈ set ↔ id = jobid ∧ ip ∈ rule.ostIps) ∧
      b.apply (.setRules env ostIds jobid mbs) =
        ⟨⟨b.manager.activeRules.insert jobid rule⟩, set ++ b.installed⟩) := by
  by_cases sends : RefusesUnsent b.manager env ostIds jobid
  · refine Or.inl ⟨[], by simp, by simp, ?_⟩
    simp [apply, b.manager.setRules_unsent env mbs sends, rulesRemoved]
  · have unset : b.manager.ruleOf jobid = none := by
      simp only [RefusesUnsent, not_or] at sends
      exact (b.manager.ruleOf_eq_none jobid).2 sends.2.1
    obtain ⟨counted, rates, result⟩ := b.manager.setRules_sent env mbs sends
    by_cases accepted : ∀ entry ∈ counted.1.toList,
        env.setRule entry.1 jobid (lustreTbfRulePostfix ++ jobid) entry.2 = true
    · right
      simp only [setRulesAsync_accepted accepted, if_true] at result
      refine ⟨unset, ⟨lustreTbfRulePostfix ++ jobid, counted.2, ostIds, mbs⟩, _,
        fun _ _ => mem_rulesSet_entries rates (lustreTbfRulePostfix ++ jobid), ?_⟩
      simp [apply, result, rulesRemoved, List.filterMap_map]
    · left
      have failed : (setRulesAsync env counted.1 jobid (lustreTbfRulePostfix ++ jobid)).1 = false :=
        Bool.eq_false_of_not_eq_true fun success => accepted ((setRulesAsync_fst ..).1 success)
      simp only [failed, Bool.false_eq_true, if_false] at result
      exact ⟨rulesRemoved env (setRulesAsync env counted.1 jobid (lustreTbfRulePostfix ++ jobid)).2,
        fun _ => fst_of_mem_rulesRemoved, fun _ => unset, by simp [apply, result]⟩

/-- **`RemoveRules`** has no effect on a job without rules. -/
theorem removeRules_absent {b : Bookkeeping} {jobid : JobId} (env : RemoteEnv)
    (absent : b.manager.ruleOf jobid = none) : b.apply (.removeRules env jobid) = b := by
  have result : b.manager.removeRules jobid = (false, b.manager, []) := by
    rw [RuleManager.ruleOf] at absent
    simp [RuleManager.removeRules, absent]
  simp [apply, result, rulesRemoved]

/-- It erases the others, and removes the rules whose servers say so. -/
theorem mem_installed_removeRules {b : Bookkeeping} {jobid : JobId} {rule : RuleDefinition} (env : RemoteEnv)
    (stored : b.manager.ruleOf jobid = some rule) (id : JobId) (ip : String) :
    (id, ip) ∈ (b.apply (.removeRules env jobid)).installed ↔
      (id, ip) ∈ b.installed ∧
        ¬ (id = jobid ∧ ip ∈ rule.ostIps ∧ env.removeRule ip rule.ruleName jobid = true) := by
  rw [RuleManager.ruleOf] at stored
  have removed : (id, ip) ∈ rulesRemoved env (b.manager.removeRules jobid).2.2 ↔
      id = jobid ∧ ip ∈ rule.ostIps ∧ env.removeRule ip rule.ruleName jobid = true := by
    simp only [RuleManager.removeRules, stored, rulesRemoved, List.filterMap_map, Function.comp_def,
      List.mem_filterMap, Option.ite_none_right_eq_some, Option.some.injEq, Prod.mk.injEq]
    constructor
    · rintro ⟨_, listed, gone, rfl, rfl⟩
      exact ⟨rfl, listed, gone⟩
    · rintro ⟨rfl, listed, gone⟩
      exact ⟨ip, listed, gone, rfl, rfl⟩
  simp only [apply, List.mem_filter, decide_eq_true_eq, removed]

theorem ruleOf_removeRules (b : Bookkeeping) (env : RemoteEnv) (jobid id : JobId) :
    (b.apply (.removeRules env jobid)).manager.ruleOf id = if jobid = id then none else b.manager.ruleOf id :=
  b.manager.ruleOf_removeRules jobid id

/-! ## All calls -/

theorem listsInstalled_apply (b : Bookkeeping) (call : ManagerCall) (lists : b.ListsInstalled) :
    (b.apply call).ListsInstalled := by
  intro jobid rule ip stored listed
  cases call with
  | setRules env ostIds job mbs =>
    rcases b.setRules_cases env ostIds job mbs with ⟨gone, ofJob, inactive, result⟩ | ⟨unset, added, set, isSet, result⟩
    · rw [result] at stored ⊢
      refine List.mem_filter.2 ⟨lists jobid rule ip stored listed, decide_eq_true fun removed => ?_⟩
      have same : jobid = job := ofJob _ removed
      rw [same, inactive (List.ne_nil_of_mem removed)] at stored
      cases stored
    · rw [result, RuleManager.ruleOf_insert] at stored
      rw [result]
      split at stored
      · rename_i same
        cases stored
        exact List.mem_append_left _ ((isSet _ _).2 ⟨same.symm, listed⟩)
      · exact List.mem_append_right _ (lists jobid rule ip stored listed)
  | removeRules env job =>
    rw [ruleOf_removeRules] at stored
    split at stored
    · cases stored
    · rename_i other
      cases present : b.manager.ruleOf job with
      | none =>
        rw [removeRules_absent env present]
        exact lists jobid rule ip stored listed
      | some removed =>
        refine (mem_installed_removeRules env present jobid ip).2 ⟨lists jobid rule ip stored listed, ?_⟩
        rintro ⟨rfl, -⟩
        exact other rfl

/-- `SetRules` forgets nothing. -/
theorem nothingForgotten_setRules {b : Bookkeeping} (kept : b.NothingForgotten) (env : RemoteEnv) (ostIds : List Ost)
    (job : JobId) (mbs : UInt32) : (b.apply (.setRules env ostIds job mbs)).NothingForgotten := by
  intro jobid ip member
  rcases b.setRules_cases env ostIds job mbs with ⟨gone, -, -, result⟩ | ⟨unset, added, set, isSet, result⟩
  · rw [result] at member ⊢
    exact kept jobid ip (List.mem_of_mem_filter member)
  · rw [result] at member ⊢
    rw [RuleManager.ruleOf_insert]
    rcases List.mem_append.1 member with new | old
    · obtain ⟨rfl, listed⟩ := (isSet _ _).1 new
      exact ⟨added, by simp, listed⟩
    · obtain ⟨rule, stored, listed⟩ := kept jobid ip old
      have other : job ≠ jobid := by
        rintro rfl
        rw [unset] at stored
        cases stored
      exact ⟨rule, by rw [if_neg other, stored], listed⟩

/-- `RemoveRules` forgets the rules that stay on their servers. -/
theorem nothingForgotten_removeRules_iff {b : Bookkeeping} (lists : b.ListsInstalled) (kept : b.NothingForgotten)
    (env : RemoteEnv) {job : JobId} {rule : RuleDefinition} (present : b.manager.ruleOf job = some rule) :
    (b.apply (.removeRules env job)).NothingForgotten ↔
      ∀ ip ∈ rule.ostIps, env.removeRule ip rule.ruleName job = true := by
  constructor
  · intro after ip listed
    by_contra refuses
    obtain ⟨_, gone, -⟩ := after job ip ((mem_installed_removeRules env present job ip).2
      ⟨lists job rule ip present listed, fun removed => refuses removed.2.2⟩)
    rw [ruleOf_removeRules, if_pos rfl] at gone
    cases gone
  · intro remove jobid ip member
    obtain ⟨installed, remains⟩ := (mem_installed_removeRules env present jobid ip).1 member
    obtain ⟨rule', stored, listed⟩ := kept jobid ip installed
    have other : job ≠ jobid := by
      rintro rfl
      rw [present] at stored
      cases stored
      exact remains ⟨rfl, listed, remove ip listed⟩
    exact ⟨rule', by rw [ruleOf_removeRules, if_neg other, stored], listed⟩

/-- **One call** forgets nothing iff no server fails to remove its rule. -/
theorem nothingForgotten_apply_iff (b : Bookkeeping) (call : ManagerCall) (lists : b.ListsInstalled)
    (kept : b.NothingForgotten) : (b.apply call).NothingForgotten ↔ b.ServersRemove call := by
  cases call with
  | setRules env ostIds job mbs => exact iff_of_true (nothingForgotten_setRules kept env ostIds job mbs) trivial
  | removeRules env job =>
    rw [ServersRemove]
    cases present : b.manager.ruleOf job with
    | none =>
      rw [removeRules_absent env present]
      exact iff_of_true kept fun rule stored => by cases stored
    | some rule =>
      rw [nothingForgotten_removeRules_iff lists kept env present]
      constructor
      · intro remove _ stored
        cases stored
        exact remove
      · exact fun remove => remove rule rfl

/-- `RemoveRules` returns true for each job that has rules. -/
theorem tellsTruth_iff (b : Bookkeeping) (call : ManagerCall) : b.TellsTruth call ↔ b.ServersRemove call := by
  cases call with
  | setRules => exact Iff.rfl
  | removeRules env jobid =>
    refine ⟨fun truth rule stored => truth ?_ rule stored, fun remove _ => remove⟩
    rw [RuleManager.ruleOf] at stored
    simp [RuleManager.removeRules, stored]

end Bookkeeping

open Bookkeeping

/-- **Runs of the manager.** In a run from an empty manager, no installed rule is ever
missing from the books and each true result of `RemoveRules` is right, iff no server fails
to remove a rule in any `RemoveRules` of the run. -/
theorem nothing_forgotten_iff (calls : List ManagerCall) :
    (Run.Always apply NothingForgotten Bookkeeping.empty calls ∧ Run.EachStep apply TellsTruth Bookkeeping.empty calls) ↔
      Run.EachStep apply ServersRemove Bookkeeping.empty calls := by
  have lists : Bookkeeping.empty.ListsInstalled := fun _ _ _ stored => by simp [Bookkeeping.empty] at stored
  have kept : Bookkeeping.empty.NothingForgotten := fun _ _ member => by cases member
  have forgets : Run.Always apply NothingForgotten Bookkeeping.empty calls ↔
      Run.EachStep apply ServersRemove Bookkeeping.empty calls :=
    Run.always_iff_eachStep listsInstalled_apply nothingForgotten_apply_iff lists kept
  have tells : TellsTruth = ServersRemove := funext fun b => funext fun call => propext (tellsTruth_iff b call)
  rw [forgets, tells]
  exact and_self_iff

/-- One server, which accepts each rule; whether it removes them is given. -/
def oneServer (removes : Bool) : RemoteEnv where
  toUUID ost := ost
  getIp _ := "10.0.0.1"
  setRule _ _ _ _ := true
  removeRule _ _ _ := removes

/-- The only server of a job fails to remove its rule: `RemoveRules` returns true, and the
rule is no longer listed. -/
theorem unremoved_rule_forgotten :
    let b := Bookkeeping.empty.apply (.setRules (oneServer true) ["0"] "foo" 42)
    let calls := [ManagerCall.setRules (oneServer true) ["0"] "foo" 42, .removeRules (oneServer false) "foo"]
    (b.manager.removeRules "foo").1 = true ∧
      ¬ (Run.Always apply NothingForgotten Bookkeeping.empty calls ∧
        Run.EachStep apply TellsTruth Bookkeeping.empty calls) := by
  intro b calls
  have left : (b.apply (.removeRules (oneServer false) "foo")).installed = [("foo", "10.0.0.1")] ∧
      (b.apply (.removeRules (oneServer false) "foo")).manager.ruleOf "foo" = none := by
    decide +kernel
  refine ⟨by decide +kernel, fun both => ?_⟩
  have kept : (b.apply (.removeRules (oneServer false) "foo")).NothingForgotten := both.1.2.2
  obtain ⟨rule, stored, -⟩ := kept "foo" "10.0.0.1" (by rw [left.1]; exact List.mem_cons_self)
  rw [left.2] at stored
  cases stored

end QosPlanner
