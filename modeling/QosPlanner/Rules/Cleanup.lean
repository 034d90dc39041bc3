import QosPlanner.Rules.Rates

/-!
# The clean-up of `SetRules`

If a server refuses its rule, `SetRules` fails, and the rules that other servers of the
job accepted have to be taken back. The loop that does so (`SetRulesAsync` in
`src/common/RuleManager.cpp`) takes the entries whose `SetRule` returned false, so it
removes the rules that were refused and leaves those that were accepted.
-/

namespace QosPlanner
set_option autoImplicit false

/-- A call of `SetRules` that fails takes back every rule a server has accepted in it, after
that, and leaves `active_rules_` as it was; one that succeeds had no rule refused. -/
def CleansUp (m : RuleManager) (env : RemoteEnv) (ostIds : List Ost) (jobid : JobId) (mbs : UInt32) : Prop :=
  let result := m.setRules env ostIds jobid mbs
  (result.1 = false →
    (∀ ip id ruleName rate, .setRule ip id ruleName rate ∈ result.2.2 → env.setRule ip id ruleName rate = true →
      [RemoteCall.setRule ip id ruleName rate, .removeRule ip ruleName id].Sublist result.2.2) ∧
    result.2.1.activeRules = m.activeRules) ∧
  (result.1 = true →
    ∀ ip id ruleName rate, .setRule ip id ruleName rate ∈ result.2.2 → env.setRule ip id ruleName rate = true)

/-- Of two servers of the job, one accepts the rule and the other refuses it. -/
def MixedAnswers (env : RemoteEnv) (ostIds : List Ost) (jobid : JobId) (mbs : UInt32) : Prop :=
  ∃ accepting ∈ env.addresses ostIds, ∃ refusing ∈ env.addresses ostIds,
    env.setRule accepting jobid (lustreTbfRulePostfix ++ jobid) (ossRate mbs (env.addresses ostIds) accepting) = true ∧
    env.setRule refusing jobid (lustreTbfRulePostfix ++ jobid) (ossRate mbs (env.addresses ostIds) refusing) = false

/-- A failed call is cleaned up iff no server accepted the rule: only refused rules are
removed. -/
theorem cleans_up_sent_iff {m : RuleManager} {env : RemoteEnv} {ostIds : List Ost} {jobid : JobId} {mbs : UInt32}
    (sends : ¬ RefusesUnsent m env ostIds jobid) :
    CleansUp m env ostIds jobid mbs ↔ ¬ MixedAnswers env ostIds jobid mbs := by
  obtain ⟨counted, rates, result⟩ := m.setRules_sent env mbs sends
  have decided := setRulesAsync_fst env counted.1 jobid (lustreTbfRulePostfix ++ jobid)
  rw [CleansUp, result]
  constructor
  · rintro ⟨failed, -⟩ ⟨accepting, known, refusing, alsoKnown, accepts, refuses⟩
    have fails : (setRulesAsync env counted.1 jobid (lustreTbfRulePostfix ++ jobid)).1 = false := by
      refine Bool.eq_false_of_not_eq_true fun success => ?_
      have := decided.1 success (refusing, _) (rates.mem_entries.2 ⟨alsoKnown, rfl⟩)
      exact Bool.false_ne_true (refuses.symm.trans this)
    have sent : RemoteCall.setRule accepting jobid (lustreTbfRulePostfix ++ jobid)
        (ossRate mbs (env.addresses ostIds) accepting) ∈
          (setRulesAsync env counted.1 jobid (lustreTbfRulePostfix ++ jobid)).2 :=
      setRule_mem_setRulesAsync.2 ⟨rates.mem_entries.2 ⟨known, rfl⟩, rfl, rfl⟩
    have removed := ((failed fails).1 _ _ _ _ sent accepts).subset (List.mem_cons_of_mem _ List.mem_cons_self)
    obtain ⟨⟨rate, entry, refused⟩, -, -⟩ := removeRule_mem_setRulesAsync.1 removed
    have same : rate = ossRate mbs (env.addresses ostIds) accepting := (rates.mem_entries.1 entry).2
    rw [same] at refused
    exact Bool.false_ne_true (refused.symm.trans accepts)
  · intro agree
    refine ⟨fun fails => ⟨fun ip id ruleName rate sent accepts => ?_, ?_⟩, fun success ip id ruleName rate sent => ?_⟩
    · obtain ⟨entry, rfl, rfl⟩ := setRule_mem_setRulesAsync.1 sent
      obtain ⟨known, rfl⟩ := rates.mem_entries.1 entry
      -- some server has refused the rule, this one has accepted it
      rw [← Bool.not_eq_true, decided] at fails
      simp only [not_forall, Bool.not_eq_true] at fails
      obtain ⟨⟨refusing, _⟩, listed, refuses⟩ := fails
      obtain ⟨alsoKnown, rfl⟩ := rates.mem_entries.1 listed
      exact absurd ⟨ip, known, refusing, alsoKnown, accepts, refuses⟩ agree
    · replace fails : (setRulesAsync env counted.1 jobid (lustreTbfRulePostfix ++ jobid)).1 = false := fails
      simp [fails]
    · obtain ⟨entry, rfl, rfl⟩ := setRule_mem_setRulesAsync.1 sent
      exact decided.1 success _ entry

/-- **The clean-up of `SetRules`.** It does its work iff no rule was sent at all, or the
servers of the job do not differ in their answers. -/
theorem cleans_up_iff (m : RuleManager) (env : RemoteEnv) (ostIds : List Ost) (jobid : JobId) (mbs : UInt32) :
    CleansUp m env ostIds jobid mbs ↔
      RefusesUnsent m env ostIds jobid ∨ ¬ MixedAnswers env ostIds jobid mbs := by
  by_cases unsent : RefusesUnsent m env ostIds jobid
  · refine iff_of_true ?_ (Or.inl unsent)
    rw [CleansUp, m.setRules_unsent env mbs unsent]
    refine ⟨fun _ => ⟨fun _ _ _ _ sent => ?_, rfl⟩, by simp⟩
    cases sent
  · rw [cleans_up_sent_iff unsent]
    exact ⟨Or.inr, fun either => either.resolve_left unsent⟩

/-- Two OSTs behind two servers, of which the second refuses every rule. -/
def secondServerRefuses : RemoteEnv where
  toUUID ost := ost
  getIp uuid := uuid
  setRule ip _ _ _ := ip != "10.0.0.2"
  removeRule _ _ _ := true

/-- The rule stays on the server that accepted it; the other one is told to remove the rule
it refused. -/
theorem accepted_rule_left_behind :
    (RuleManager.empty.setRules secondServerRefuses ["10.0.0.1", "10.0.0.2"] "foo" 42).2.2 =
        [.setRule "10.0.0.1" "foo" "_qospfoo" 42, .setRule "10.0.0.2" "foo" "_qospfoo" 42,
          .removeRule "10.0.0.2" "_qospfoo" "foo"] ∧
      ¬ CleansUp .empty secondServerRefuses ["10.0.0.1", "10.0.0.2"] "foo" 42 := by
  have outcome : (RuleManager.empty.setRules secondServerRefuses ["10.0.0.1", "10.0.0.2"] "foo" 42).1 = false ∧
      (RuleManager.empty.setRules secondServerRefuses ["10.0.0.1", "10.0.0.2"] "foo" 42).2.2 =
        [.setRule "10.0.0.1" "foo" "_qospfoo" 42, .setRule "10.0.0.2" "foo" "_qospfoo" 42,
          .removeRule "10.0.0.2" "_qospfoo" "foo"] := by
    decide +kernel
  refine ⟨outcome.2, fun cleans => ?_⟩
  have first := (cleans.1 outcome.1).1 "10.0.0.1" "foo" "_qospfoo" 42
  rw [outcome.2] at first
  exact absurd (first (by decide) (by decide)) (by decide)

end QosPlanner
