import QosPlanner.Rules.OstLookup
import QosPlanner.Lustre.Addresses

/-!
# OSTs that do not exist

`OstIdsConverter::ToUUID` returns the empty string for an id that is not in the OST list
(`src/common/OstIdsConverter.cpp`), and `RuleManager::determineOstIps` hands it on to
`OstIpsCache::GetIp` as if it were a uuid. `LocalLustre::GetIPOfOst` builds a glob and a
pattern from it (`src/common/Lustre.cpp`), and without the characters of a uuid both match
every OST. So the OST gets the address of the first one that is printed.

`never_sets_rules_iff` says when this cannot happen: no address can be found for the uuid
that is cached for the id, nor for the empty one if the list can be read anew.
-/

namespace QosPlanner
set_option autoImplicit false

open Text Lustre

/-- What is printed during a lookup. -/
def OstLookup.Uses (lookup : OstLookup) (tools : Set (String → CommandOutcome)) : Prop :=
  lookup.uuidPopen ∈ tools ∧ lookup.addressPopen ∈ tools

/-- `SetRules` refuses every list that the OST is in, and sends no `SetRule`. -/
def NeverSetsRules (tools : Set (String → CommandOutcome)) (caches : OstCaches) (id : Ost) : Prop :=
  ∀ (m : RuleManager) (env : RemoteEnv) (lookups : List OstLookup) (jobid : JobId) (mbs : UInt32),
    (∀ lookup ∈ lookups, lookup.Uses tools) → (∃ lookup ∈ lookups, lookup.id = id) →
      let result := (m.setRulesCached env caches lookups jobid mbs).1
      result.1 = false ∧ ∀ ip user name rate, .setRule ip user name rate ∉ result.2.2

/-- There is no address for the uuid that is cached for the OST (the empty one, if none is),
nor, if the list can be read anew, for the empty one. -/
structure Unresolvable (tools : Set (String → CommandOutcome)) (caches : OstCaches) (id : Ost) : Prop where
  cached : NoAddress tools caches.ostIpCache (caches.ostIdConverter.cachedUuid id)
  dropped : (∃ popen ∈ tools, (LocalLustre.getOstList popen "" []).1 = true) → NoAddress tools caches.ostIpCache ""

section Lists

variable {tools : Set (String → CommandOutcome)} {caches : OstCaches} {id : Ost}

theorem Unresolvable.getIp_fst (unresolvable : Unresolvable tools caches id)
    (absent : ∀ popen ∈ tools, ¬ OstIdsConverter.Lists popen id) {lookup : OstLookup} (uses : lookup.Uses tools)
    (same : lookup.id = id) : (caches.getIp lookup).1 = "" := by
  subst same
  rw [OstCaches.getIp_fst, OstIdsConverter.toUUID_fst _ (absent _ uses.1)]
  exact unresolvable.cached.getIp_fst uses.2

/-- **One lookup**, of any OST, does not make it resolvable. -/
theorem Unresolvable.getIp_snd (unresolvable : Unresolvable tools caches id)
    (absent : ∀ popen ∈ tools, ¬ OstIdsConverter.Lists popen id) {lookup : OstLookup} (uses : lookup.Uses tools) :
    Unresolvable tools (caches.getIp lookup).2 id where
  cached := by
    refine NoAddress.getIp_snd ?_ uses.2 _
    rcases caches.ostIdConverter.toUUID_snd (absent _ uses.1) lookup.id with kept | ⟨started, dropped⟩
    · exact kept ▸ unresolvable.cached
    · exact dropped ▸ unresolvable.dropped ⟨_, uses.1, started⟩
  dropped started := (unresolvable.dropped started).getIp_snd uses.2 _

/-- So no list that it is in has addresses for all. -/
theorem Unresolvable.determineOstIps {lookups : List OstLookup} (unresolvable : Unresolvable tools caches id)
    (absent : ∀ popen ∈ tools, ¬ OstIdsConverter.Lists popen id) (uses : ∀ lookup ∈ lookups, lookup.Uses tools)
    (member : ∃ lookup ∈ lookups, lookup.id = id) : (caches.determineOstIps lookups).1 = none := by
  induction lookups generalizing caches with
  | nil =>
    obtain ⟨_, none, -⟩ := member
    cases none
  | cons first lookups ih =>
    have usesFirst := uses first List.mem_cons_self
    by_cases empty : (caches.getIp first).1 = ""
    · rw [caches.determineOstIps_cons_of_empty empty]
    · have later : ∃ lookup ∈ lookups, lookup.id = id := by
        obtain ⟨lookup, member, same⟩ := member
        rcases List.mem_cons.1 member with rfl | later
        · exact absurd (unresolvable.getIp_fst absent usesFirst same) empty
        · exact ⟨lookup, later, same⟩
      have rest := ih (unresolvable.getIp_snd absent usesFirst)
        (fun lookup member => uses lookup (List.mem_cons_of_mem _ member)) later
      rw [caches.determineOstIps_cons empty, rest]
      rfl

/-- With addresses for all, a manager without rules sends one. -/
theorem NeverSetsRules.not_all_found (never : NeverSetsRules tools caches id) {lookups : List OstLookup}
    (uses : ∀ lookup ∈ lookups, lookup.Uses tools) (member : ∃ lookup ∈ lookups, lookup.id = id)
    {ip : String} {ips : List String} : (caches.determineOstIps lookups).1 ≠ some (ip :: ips) := by
  intro found
  have unset : "" ∉ RuleManager.empty.activeRules := by simp [RuleManager.empty]
  have sent : .setRule ip "" (lustreTbfRulePostfix ++ "") (ossRate 0 (ip :: ips) ip) ∈
      (RuleManager.empty.setRulesCached default caches lookups "" 0).1.2.2 :=
    RuleManager.setRulesCached_sent found unset 0 List.mem_cons_self
  exact (never .empty default lookups "" 0 uses member).2 _ _ _ _ sent

/-- An id that is neither cached nor listed. -/
theorem exists_unknown_id (converter : OstIdsConverter) (popen : String → CommandOutcome) :
    ∃ other, converter.idToUuid[other]? = none ∧ ¬ OstIdsConverter.Lists popen other := by
  have infinite : Infinite String :=
    Infinite.of_injective (fun n => String.ofList (List.replicate n 'a')) fun a b same => by
      simpa using congrArg String.length same
  obtain ⟨other, fresh⟩ := Infinite.exists_notMem_finset
    (converter.idToUuid.keys ++ (LocalLustre.getOstList popen "" []).2.map GetOstsResults.number).toFinset
  simp only [List.mem_toFinset, List.mem_append, not_or] at fresh
  refine ⟨other, by simpa using fresh.1, ?_⟩
  rintro ⟨r, listed, rfl⟩
  exact fresh.2 (List.mem_map_of_mem listed)

/-- If all lists with the OST are refused, so is the one of it alone: there is no address for its
uuid. -/
theorem NeverSetsRules.noAddress_cached (never : NeverSetsRules tools caches id) (some_tool : tools.Nonempty)
    (absent : ∀ popen ∈ tools, ¬ OstIdsConverter.Lists popen id) :
    NoAddress tools caches.ostIpCache (caches.ostIdConverter.cachedUuid id) := by
  by_contra address
  obtain ⟨popen, tool, found⟩ := exists_address some_tool address
  let lookup : OstLookup := ⟨id, popen, popen⟩
  have resolved : (caches.getIp lookup).1 ≠ "" := by
    rwa [OstCaches.getIp_fst, OstIdsConverter.toUUID_fst _ (absent popen tool)]
  have all := caches.determineOstIps_cons resolved []
  refine never.not_all_found ?_ ⟨lookup, List.mem_cons_self, rfl⟩ all
  intro other member
  rw [List.mem_singleton.1 member]
  exact ⟨tool, tool⟩

/-- And so is the one in which another unknown OST comes first, for which the list is read anew. -/
theorem NeverSetsRules.noAddress_dropped (never : NeverSetsRules tools caches id)
    (absent : ∀ popen ∈ tools, ¬ OstIdsConverter.Lists popen id) {popen : String → CommandOutcome}
    (tool : popen ∈ tools) (started : (LocalLustre.getOstList popen "" []).1 = true) :
    NoAddress tools caches.ostIpCache "" := by
  by_contra address
  obtain ⟨finder, finds, found⟩ := exists_address ⟨popen, tool⟩ address
  obtain ⟨other, uncached, unlisted⟩ := exists_unknown_id caches.ostIdConverter popen
  let first : OstLookup := ⟨other, popen, finder⟩
  let second : OstLookup := ⟨id, popen, finder⟩
  -- the first one finds an address for the empty uuid
  have noUuid : (caches.ostIdConverter.toUUID popen other).1 = "" := by
    rw [OstIdsConverter.toUUID_fst _ unlisted, OstIdsConverter.cachedUuid, uncached]
    rfl
  have resolved : (caches.getIp first).1 ≠ "" := by
    rw [OstCaches.getIp_fst, noUuid]
    exact found
  -- and the second one, whose uuid is gone, finds it again
  have dropped : ((caches.getIp first).2.ostIdConverter.toUUID popen id).1 = "" := by
    rw [OstIdsConverter.toUUID_fst _ (absent popen tool), OstCaches.getIp_snd]
    exact OstIdsConverter.cachedUuid_toUUID_of_miss _ (absent popen tool) started uncached
  have again : ((caches.getIp first).2.getIp second).1 ≠ "" := by
    rw [OstCaches.getIp_fst, dropped, OstCaches.getIp_snd, noUuid, getIp_again found]
    exact found
  have all := caches.determineOstIps_cons resolved [second]
  rw [OstCaches.determineOstIps_cons _ again] at all
  refine never.not_all_found ?_ ⟨second, List.mem_cons_of_mem _ List.mem_cons_self, rfl⟩ all
  intro lookup member
  simp only [List.mem_cons, List.not_mem_nil, or_false] at member
  rcases member with rfl | rfl
  · exact ⟨tool, finds⟩
  · exact ⟨tool, finds⟩

/-- If `lctl` prints a line for each device, this is a matter of their names. -/
theorem unresolvable_iff_of_devices (some_tool : tools.Nonempty) {devices : List OscDevice}
    (prints : ∀ popen ∈ tools, PrintsDevices devices popen) :
    Unresolvable tools caches id ↔ NoDevice devices caches.ostIpCache (caches.ostIdConverter.cachedUuid id) ∧
      ((∃ popen ∈ tools, (LocalLustre.getOstList popen "" []).1 = true) → NoDevice devices caches.ostIpCache "") := by
  rw [← noAddress_iff_of_devices some_tool prints caches.ostIdConverter.cachedUuid_plain,
    ← noAddress_iff_of_devices some_tool prints (Or.inl rfl)]
  exact ⟨fun unresolvable => ⟨unresolvable.cached, unresolvable.dropped⟩, fun both => ⟨both.1, both.2⟩⟩

/-- With nothing cached, there must be no device at all. -/
theorem unresolvable_empty_iff (some_tool : tools.Nonempty) {devices : List OscDevice}
    (prints : ∀ popen ∈ tools, PrintsDevices devices popen) :
    Unresolvable tools ⟨.empty, ⟨∅⟩⟩ id ↔ devices = [] := by
  have first : NoDevice devices ⟨∅⟩ "" ↔ devices = [] := by
    simp [NoDevice, LocalLustre.shortenedId, List.eq_nil_iff_forall_not_mem]
  rw [unresolvable_iff_of_devices some_tool prints, OstIdsConverter.cachedUuid_empty, first]
  exact ⟨And.left, fun none => ⟨none, fun _ => none⟩⟩

end Lists

/-- **OSTs that are not listed.** Whatever the tools print, `SetRules` refuses every list with
such an OST iff no address can be found for it. -/
theorem never_sets_rules_iff (tools : Set (String → CommandOutcome)) (some_tool : tools.Nonempty) (caches : OstCaches)
    (id : Ost) (absent : ∀ popen ∈ tools, ¬ OstIdsConverter.Lists popen id) :
    NeverSetsRules tools caches id ↔ Unresolvable tools caches id := by
  constructor
  · intro never
    refine ⟨never.noAddress_cached some_tool absent, ?_⟩
    rintro ⟨popen, tool, started⟩
    exact never.noAddress_dropped absent tool started
  · intro unresolvable m env lookups jobid mbs uses member
    have unsent := m.setRulesCached_unsent env (unresolvable.determineOstIps absent uses member) jobid mbs
    rw [unsent]
    exact ⟨rfl, fun _ _ _ _ => List.not_mem_nil⟩

/-- Tools with one OST, 0, and with the given devices. -/
def toolsOfOst0 (devices : List OscDevice) (cmd : String) : CommandOutcome :=
  if cmd = "lfs osts " then .ended 0 "OBDS::\n0: lustre-OST0000_UUID ACTIVE\n"
  else .ended 0 (.ofList (printLines (getParamLines devices ((cmd.toList.drop 19).take (cmd.length - 34)))))

theorem toList_append_append (first second third : String) :
    (first ++ second ++ third).toList = first.toList ++ (second.toList ++ third.toList) := by
  rw [String.toList_append, String.toList_append, List.append_assoc]

theorem getIPOfOstCmd_toList (uuid : String) :
    (LocalLustre.getIPOfOstCmd uuid).toList = "lctl get_param osc.".toList ++
      (LocalLustre.shortenedId uuid.toList ++ "*.ost_conn_uuid".toList) := by
  have parts : (LocalLustre.getIPOfOstCmd uuid).toList = "lctl get_param osc.".toList ++
      ((String.ofList (LocalLustre.shortenedId uuid.toList)).toList ++ "*.ost_conn_uuid".toList) :=
    toList_append_append _ _ _
  have short : (String.ofList (LocalLustre.shortenedId uuid.toList)).toList = LocalLustre.shortenedId uuid.toList :=
    String.toList_ofList
  rw [short] at parts
  exact parts

theorem getIPOfOstCmd_length (uuid : String) :
    (LocalLustre.getIPOfOstCmd uuid).length = (LocalLustre.shortenedId uuid.toList).length + 34 := by
  have head : "lctl get_param osc.".toList.length = 19 := by decide
  have tail : "*.ost_conn_uuid".toList.length = 15 := by decide
  rw [← String.length_toList, getIPOfOstCmd_toList, List.length_append, List.length_append, head, tail]
  omega

/-- The shortened uuid is read back from the command. -/
theorem short_of_getIPOfOstCmd (uuid : String) :
    ((LocalLustre.getIPOfOstCmd uuid).toList.drop 19).take ((LocalLustre.getIPOfOstCmd uuid).length - 34) =
      LocalLustre.shortenedId uuid.toList := by
  have head : "lctl get_param osc.".toList.length = 19 := by decide
  rw [getIPOfOstCmd_length, Nat.add_sub_cancel, getIPOfOstCmd_toList, List.drop_left' head]
  exact List.take_left

theorem toolsOfOst0_prints (devices : List OscDevice) : PrintsDevices devices (toolsOfOst0 devices) := by
  intro uuid _
  have other : LocalLustre.getIPOfOstCmd uuid ≠ "lfs osts " := by
    intro same
    have length : "lfs osts ".length = 9 := by decide
    have longer := getIPOfOstCmd_length uuid
    rw [same, length] at longer
    omega
  exact ⟨0, by rw [toolsOfOst0, if_neg other, short_of_getIPOfOstCmd]⟩

/-- The device of OST 0. -/
def ost0 : OscDevice :=
  ⟨"lustre-OST0000-osc-ffff".toList, "10.0.0.1".toList, by decide +kernel, by decide +kernel, by decide +kernel⟩

/-- OST 7 is not in the list. -/
theorem not_lists_seven (devices : List OscDevice) : ¬ OstIdsConverter.Lists (toolsOfOst0 devices) "7" := by
  have list : (LocalLustre.getOstList (toolsOfOst0 devices) "" []).2 = [⟨"0", "lustre-OST0000_UUID", "ACTIVE"⟩] := by
    have printed : toolsOfOst0 devices ("lfs osts " ++ "") = .ended 0 "OBDS::\n0: lustre-OST0000_UUID ACTIVE\n" := by
      rfl
    rw [LocalLustre.getOstList, LocalLustre.exec_ended printed]
    decide +kernel
  rw [OstIdsConverter.Lists, list]
  simp

/-- Without any device, OST 7 gets no address. -/
theorem no_rules_without_devices : NeverSetsRules {toolsOfOst0 []} ⟨.empty, ⟨∅⟩⟩ "7" := by
  have prints : ∀ popen ∈ ({toolsOfOst0 []} : Set (String → CommandOutcome)), PrintsDevices [] popen := by
    rintro _ rfl
    exact toolsOfOst0_prints []
  refine (never_sets_rules_iff _ (Set.singleton_nonempty _) _ "7" ?_).2
    ((unresolvable_empty_iff (Set.singleton_nonempty _) prints).2 rfl)
  rintro _ rfl
  exact not_lists_seven []

/-- With the device of OST 0, it gets the address of OST 0, and a rule there. -/
theorem rule_for_unknown_ost :
    let tool := toolsOfOst0 [ost0]
    let env : RemoteEnv := ⟨id, id, fun _ _ _ _ => true, fun _ _ _ => true⟩
    let result := (RuleManager.empty.setRulesCached env ⟨.empty, ⟨∅⟩⟩ [⟨"7", tool, tool⟩] "foo" 21).1
    PrintsDevices [ost0] tool ∧ ¬ OstIdsConverter.Lists tool "7" ∧
      result.1 = true ∧ result.2.2 = [.setRule "10.0.0.1" "foo" "_qospfoo" 21] ∧
      ¬ NeverSetsRules {tool} ⟨.empty, ⟨∅⟩⟩ "7" := by
  intro tool env result
  have sent : result.1 = true ∧ result.2.2 = [.setRule "10.0.0.1" "foo" "_qospfoo" 21] := by decide +kernel
  refine ⟨toolsOfOst0_prints [ost0], not_lists_seven [ost0], sent.1, sent.2, fun never => ?_⟩
  have uses : ∀ lookup ∈ [(⟨"7", tool, tool⟩ : OstLookup)], lookup.Uses {tool} := by
    intro lookup member
    rw [List.mem_singleton.1 member]
    exact ⟨rfl, rfl⟩
  have refused := (never .empty env [⟨"7", tool, tool⟩] "foo" 21 uses ⟨_, List.mem_cons_self, rfl⟩).1
  cases sent.1.symm.trans refused

end QosPlanner
