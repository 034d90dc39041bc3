import QosPlanner.Lustre.OstIpsCache
import QosPlanner.Lustre.OstIdsConverter

/-!
# The addresses that `lctl` prints

When `LocalLustre::GetIPOfOst` (`src/common/Lustre.cpp`) finds an address for a uuid: when some
line that its command prints has the form of `IsAddressLine`. If `lctl` prints a line for each
device that the glob matches, this is when the shortened uuid begins the name of a device
(`findsAddress_iff`), so for the empty uuid any device will do. `NoAddress` says that
`OstIpsCache::GetIp` (`src/common/OstIpsCache.cpp`) can never return an address for a uuid.
-/

namespace QosPlanner
set_option autoImplicit false

open Text Lustre

/-! ## Lines -/

/-- A text for `.+`. -/
def IsDots (text : List Char) : Prop := text ≠ [] ∧ text.all anyChar = true

/-- A line that has an address for the shortened uuid. -/
def IsAddressLine (short line : List Char) : Prop :=
  ∃ before after ip, IsDots before ∧ IsDots after ∧ IsDots ip ∧
    line = before ++ short ++ after ++ "ost_conn_uuid=".toList ++ ip ++ "@tcp".toList

/-- The command for a uuid runs, and prints such a line. -/
def FindsAddress (popen : String → CommandOutcome) (uuid : String) : Prop :=
  ∃ status output, popen (LocalLustre.getIPOfOstCmd uuid) = .ended status output ∧
    ∃ line ∈ getlines output.toList, IsAddressLine (LocalLustre.shortenedId uuid.toList) line

theorem matches_getParamOscRegex {short line : List Char} :
    Matches (getParamOscRegex short) line ↔ IsAddressLine short line := by
  simp only [getParamOscRegex, Matches, matches_literal, matches_literal_end, takes_plus, takes_group, IsAddressLine,
    IsDots]
  constructor
  · rintro ⟨before, _, rfl, someBefore, _, rfl, after, _, rfl, someAfter, _, rfl, ip, _, rfl, someIp, rfl⟩
    exact ⟨before, after, ip, someBefore, someAfter, someIp, by simp only [List.append_assoc]⟩
  · rintro ⟨before, after, ip, someBefore, someAfter, someIp, rfl⟩
    simp only [List.append_assoc]
    exact ⟨before, _, rfl, someBefore, _, rfl, after, _, rfl, someAfter, _, rfl, ip, _, rfl, someIp, rfl⟩

/-- A line that is matched has an address, which is not empty. -/
theorem getParamOscLine_cases (short line : List Char) :
    (IsAddressLine short line ∧ ∃ ip, getParamOscLine short line = some ip ∧ ip ≠ "") ∨
      (¬ IsAddressLine short line ∧ getParamOscLine short line = none) := by
  rw [← matches_getParamOscRegex, ← regexMatch_isSome_iff, getParamOscLine]
  cases matched : regexMatch (getParamOscRegex short) line with
  | none => exact Or.inr ⟨by simp, rfl⟩
  | some groups =>
    obtain ⟨_, _, _, -, -, fromId, rfl, -⟩ := regexMatch_cons_eq_some_iff.1 matched
    obtain ⟨_, -, afterId⟩ := regexMatch_literal_eq_some.1 fromId
    obtain ⟨_, _, _, -, -, fromParam, rfl, -⟩ := regexMatch_cons_eq_some_iff.1 afterId
    obtain ⟨_, -, afterParam⟩ := regexMatch_literal_eq_some.1 fromParam
    obtain ⟨ip, _, _, -, takes, fromNet, rfl⟩ := of_regexMatch_group afterParam
    rw [← List.append_nil (literal _)] at fromNet
    obtain ⟨_, -, atEnd⟩ := regexMatch_literal_eq_some.1 fromNet
    rw [(regexMatch_nil_eq_some.1 atEnd).2]
    refine Or.inl ⟨rfl, _, rfl, fun empty => (takes_plus.1 takes).1 ?_⟩
    simpa using empty

/-- The result is not empty iff some line has an address. -/
theorem parseOstIpFromGetParamOsc_ne_empty_iff {output : String} {short : List Char} :
    parseOstIpFromGetParamOsc getParamOscLine output short "" ≠ "" ↔
      ∃ line ∈ getlines output.toList, IsAddressLine short line := by
  rw [parseOstIpFromGetParamOsc]
  induction getlines output.toList with
  | nil => simp
  | cons line lines ih =>
    rw [List.findSome?_cons]
    rcases getParamOscLine_cases short line with ⟨address, ip, found, nonempty⟩ | ⟨none, skipped⟩
    · rw [found]
      exact iff_of_true nonempty ⟨line, List.mem_cons_self, address⟩
    · rw [skipped, ih]
      simp [none]

/-- A uuid that is not in the cache has an address iff one is printed for it. -/
theorem getIPOfOst_finds_iff {popen : String → CommandOutcome} {uuid : String} :
    (LocalLustre.getIPOfOst getParamOscLine popen uuid "").2 ≠ "" ↔ FindsAddress popen uuid := by
  rw [FindsAddress]
  cases outcome : popen (LocalLustre.getIPOfOstCmd uuid) with
  | notStarted =>
    rw [LocalLustre.getIPOfOst_notStarted outcome]
    refine iff_of_false (fun absurd => absurd rfl) ?_
    rintro ⟨_, _, same, -⟩
    cases same
  | ended status output =>
    rw [LocalLustre.getIPOfOst_ended outcome, parseOstIpFromGetParamOsc_ne_empty_iff]
    constructor
    · exact fun found => ⟨status, output, rfl, found⟩
    · rintro ⟨_, _, same, found⟩
      cases same
      exact found

/-! ## What `lctl` prints -/

/-- A device of `lctl`, by the part of its name that a glob is for, and its address. -/
structure OscDevice where
  name : List Char
  ip : List Char
  plain : name.all anyChar = true
  address : IsDots ip

/-- Its line, without the newline. -/
def OscDevice.line (device : OscDevice) : List Char :=
  "osc.".toList ++ device.name ++ ".ost_conn_uuid=".toList ++ device.ip ++ "@tcp".toList

/-- The lines for the glob `osc.<short>*.ost_conn_uuid`. -/
def getParamLines (devices : List OscDevice) (short : List Char) : List (List Char) :=
  (devices.filter fun device => short.isPrefixOf device.name).map OscDevice.line

/-- `lctl get_param` prints one line for each device that matches the glob, for all that
`ToUUID` can return. -/
def PrintsDevices (devices : List OscDevice) (popen : String → CommandOutcome) : Prop :=
  ∀ uuid, uuid = "" ∨ IsUuid uuid → ∃ status, popen (LocalLustre.getIPOfOstCmd uuid) =
    .ended status (.ofList (printLines (getParamLines devices (LocalLustre.shortenedId uuid.toList))))

theorem OscDevice.line_eq (device : OscDevice) : device.line =
    "osc.".toList ++ device.name ++ ".ost_conn_uuid=".toList ++ device.ip ++ "@tcp".toList := rfl

theorem OscDevice.isAddressLine (device : OscDevice) {short : List Char} (named : short <+: device.name) :
    IsAddressLine short device.line := by
  obtain ⟨rest, named⟩ := named
  have plain := device.plain
  rw [← named, List.all_append, Bool.and_eq_true] at plain
  refine ⟨"osc.".toList, rest ++ ['.'], device.ip, ⟨by decide, by decide⟩, ⟨by simp, ?_⟩, device.address, ?_⟩
  · rw [List.all_append, plain.2]
    decide
  · have dot : ".ost_conn_uuid=".toList = ['.'] ++ "ost_conn_uuid=".toList := by decide
    rw [line_eq, ← named, dot]
    simp only [List.append_assoc]

theorem OscDevice.newline_notMem_line (device : OscDevice) : '\n' ∉ device.line := by
  have name := newline_notMem_of_anyChar device.plain
  have ip := newline_notMem_of_anyChar device.address.2
  simp only [line_eq, List.mem_append, not_or]
  exact ⟨⟨⟨⟨by decide, name⟩, by decide⟩, ip⟩, by decide⟩

/-- **An address is found** iff a device matches: for the empty uuid, any device does. -/
theorem findsAddress_iff {devices : List OscDevice} {popen : String → CommandOutcome}
    (prints : PrintsDevices devices popen) {uuid : String} (plain : uuid = "" ∨ IsUuid uuid) :
    FindsAddress popen uuid ↔ ∃ device ∈ devices, LocalLustre.shortenedId uuid.toList <+: device.name := by
  obtain ⟨status, printed⟩ := prints uuid plain
  have read_back : getlines (printLines (getParamLines devices (LocalLustre.shortenedId uuid.toList))) =
      getParamLines devices (LocalLustre.shortenedId uuid.toList) :=
    getlines_printLines_map fun device _ => device.newline_notMem_line
  rw [FindsAddress, printed]
  constructor
  · rintro ⟨_, _, same, line, read, -⟩
    cases same
    rw [String.toList_ofList, read_back] at read
    obtain ⟨device, member, -⟩ := List.mem_map.1 read
    obtain ⟨listed, named⟩ := List.mem_filter.1 member
    exact ⟨device, listed, List.isPrefixOf_iff_prefix.1 named⟩
  · rintro ⟨device, listed, named⟩
    refine ⟨status, _, rfl, device.line, ?_, device.isAddressLine named⟩
    rw [String.toList_ofList, read_back]
    exact List.mem_map_of_mem (List.mem_filter.2 ⟨listed, List.isPrefixOf_iff_prefix.2 named⟩)

/-! ## The address cache -/

section AddressCache

variable (tools : Set (String → CommandOutcome)) (cache : OstIpsCache)

/-- Whatever the tools print, there is no address for the uuid: the cached one is empty, or
none is cached and none is found. -/
def NoAddress (uuid : String) : Prop :=
  cache.uuidToIpCache[uuid]? = some "" ∨
    (cache.uuidToIpCache[uuid]? = none ∧ ∀ popen ∈ tools, ¬ FindsAddress popen uuid)

/-- What `GetIp` does: it answers from the cache, or from what is printed, which it keeps if
the command could be started. -/
theorem getIp_cases (popen : String → CommandOutcome) (uuid : String) :
    (∃ ip, cache.uuidToIpCache[uuid]? = some ip ∧ cache.getIp getParamOscLine popen uuid = (ip, cache)) ∨
      (cache.uuidToIpCache[uuid]? = none ∧ ∃ ip, (ip ≠ "" ↔ FindsAddress popen uuid) ∧
        (cache.getIp getParamOscLine popen uuid = (ip, ⟨cache.uuidToIpCache.insert uuid ip⟩) ∨
          (ip = "" ∧ cache.getIp getParamOscLine popen uuid = (ip, cache)))) := by
  rw [OstIpsCache.getIp, ← getIPOfOst_finds_iff]
  cases cached : cache.uuidToIpCache[uuid]? with
  | some ip => exact Or.inl ⟨ip, rfl, rfl⟩
  | none =>
    refine Or.inr ⟨rfl, ?_⟩
    cases outcome : popen (LocalLustre.getIPOfOstCmd uuid) with
    | notStarted =>
      rw [LocalLustre.getIPOfOst_notStarted outcome]
      exact ⟨"", Iff.rfl, Or.inr ⟨rfl, rfl⟩⟩
    | ended status output =>
      rw [LocalLustre.getIPOfOst_ended outcome]
      exact ⟨_, Iff.rfl, Or.inl rfl⟩

variable {tools cache}

theorem getIp_of_cached {uuid ip : String} (cached : cache.uuidToIpCache[uuid]? = some ip)
    (popen : String → CommandOutcome) : (cache.getIp getParamOscLine popen uuid).1 = ip := by
  rw [OstIpsCache.getIp, cached]

/-- No address is returned. -/
theorem NoAddress.getIp_fst {uuid : String} (none : NoAddress tools cache uuid) {popen : String → CommandOutcome}
    (tool : popen ∈ tools) : (cache.getIp getParamOscLine popen uuid).1 = "" := by
  rcases getIp_cases cache popen uuid with ⟨ip, cached, result⟩ | ⟨uncached, ip, found, result⟩
  · rcases none with empty | ⟨uncached, -⟩
    · rw [result, Option.some.inj (cached.symm.trans empty)]
    · rw [cached] at uncached
      cases uncached
  · have absent : ip = "" := by
      by_contra some_ip
      rcases none with empty | ⟨-, unfound⟩
      · rw [empty] at uncached
        cases uncached
      · exact unfound popen tool (found.1 some_ip)
    rcases result with result | ⟨-, result⟩
    · rw [result, absent]
    · rw [result, absent]

/-- Nor is one learnt, whatever is looked up. -/
theorem NoAddress.getIp_snd {uuid : String} (none : NoAddress tools cache uuid) {popen : String → CommandOutcome}
    (tool : popen ∈ tools) (other : String) :
    NoAddress tools (cache.getIp getParamOscLine popen other).2 uuid := by
  rcases getIp_cases cache popen other with ⟨ip, -, result⟩ | ⟨uncached, ip, found, result | ⟨-, result⟩⟩
  · rwa [result]
  · rw [result]
    by_cases same : other = uuid
    · have empty : ip = "" := by
        have answer := none.getIp_fst tool
        rwa [← same, result] at answer
      exact Or.inl (by simp [same, empty])
    · have kept : (cache.uuidToIpCache.insert other ip)[uuid]? = cache.uuidToIpCache[uuid]? := by
        rw [Std.ExtTreeMap.getElem?_insert, if_neg]
        exact fun equal => same (Std.compare_eq_iff_eq.1 equal)
      rw [NoAddress, kept]
      exact none
  · rwa [result]

/-- The same in terms of devices: with no address cached, the uuid begins no device's name. -/
def NoDevice (devices : List OscDevice) (cache : OstIpsCache) (uuid : String) : Prop :=
  cache.uuidToIpCache[uuid]? = some "" ∨ (cache.uuidToIpCache[uuid]? = none ∧
    ∀ device ∈ devices, ¬ LocalLustre.shortenedId uuid.toList <+: device.name)

/-- With tools that print a line for each device, these are the same. -/
theorem noAddress_iff_of_devices (some_tool : tools.Nonempty) {devices : List OscDevice}
    (prints : ∀ popen ∈ tools, PrintsDevices devices popen) {uuid : String} (plain : uuid = "" ∨ IsUuid uuid) :
    NoAddress tools cache uuid ↔ NoDevice devices cache uuid := by
  have unfound : (∀ popen ∈ tools, ¬ FindsAddress popen uuid) ↔
      ∀ device ∈ devices, ¬ LocalLustre.shortenedId uuid.toList <+: device.name := by
    constructor
    · intro unfound device listed named
      obtain ⟨popen, tool⟩ := some_tool
      exact unfound popen tool ((findsAddress_iff (prints popen tool) plain).2 ⟨device, listed, named⟩)
    · intro unnamed popen tool finds
      obtain ⟨device, listed, named⟩ := (findsAddress_iff (prints popen tool) plain).1 finds
      exact unnamed device listed named
  rw [NoAddress, unfound, NoDevice]

/-- Otherwise some tool makes `GetIp` return one. -/
theorem exists_address (some_tool : tools.Nonempty) {uuid : String} (address : ¬ NoAddress tools cache uuid) :
    ∃ popen ∈ tools, (cache.getIp getParamOscLine popen uuid).1 ≠ "" := by
  rw [NoAddress, not_or, not_and] at address
  cases cached : cache.uuidToIpCache[uuid]? with
  | some ip =>
    obtain ⟨popen, tool⟩ := some_tool
    refine ⟨popen, tool, fun empty => address.1 ?_⟩
    rw [cached, ← empty, getIp_of_cached cached]
  | none =>
    have finds := address.2 cached
    simp only [not_forall, not_not] at finds
    obtain ⟨popen, tool, finds⟩ := finds
    refine ⟨popen, tool, ?_⟩
    rcases getIp_cases cache popen uuid with ⟨ip, here, -⟩ | ⟨-, ip, found, result⟩
    · rw [cached] at here
      cases here
    · rcases result with result | ⟨-, result⟩
      · rw [result]
        exact found.2 finds
      · rw [result]
        exact found.2 finds

/-- An address that has been returned is returned again. -/
theorem getIp_again {popen : String → CommandOutcome} {uuid : String}
    (address : (cache.getIp getParamOscLine popen uuid).1 ≠ "") (later : String → CommandOutcome) :
    ((cache.getIp getParamOscLine popen uuid).2.getIp getParamOscLine later uuid).1 =
      (cache.getIp getParamOscLine popen uuid).1 := by
  rcases getIp_cases cache popen uuid with ⟨ip, cached, result⟩ | ⟨-, ip, -, result | ⟨empty, result⟩⟩
  · rw [result]
    exact getIp_of_cached cached later
  · rw [result]
    exact getIp_of_cached Std.ExtTreeMap.getElem?_insert_self later
  · rw [result] at address
    exact absurd empty address

end AddressCache

end QosPlanner
