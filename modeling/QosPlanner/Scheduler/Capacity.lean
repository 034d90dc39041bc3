import QosPlanner.Scheduler.DynWorkloads
import QosPlanner.Planner.Submission

/-!
# What the capacity test compares

Two numbers go into the test of an OST. One is the load in the interval of the job,
which `GetMaxLoadInTimeInterval` is to compute: the greatest load at any instant
(`IsPeakLoad`). It writes the caller's variable only for an OST without a list. The
other is the sum of that load and the throughput of the job, which is taken modulo
`2^32`: a sum that wraps around to a small number passes. A negative throughput of a
request becomes a number just below `2^32`, so it wraps as soon as there is some load.
-/

namespace QosPlanner
set_option autoImplicit false

open MemoryScheduleState Rpc

/-! ## The sum -/

/-- The sum overflows, and what is left of it is within the limit. -/
def WrapsBelow (load throughput : UInt32) (limit : Nat) : Prop :=
  2 ^ 32 ≤ load.toNat + throughput.toNat ∧ load.toNat + throughput.toNat ≤ limit + 2 ^ 32

/-- `AreEnoughResAvail` compares the 32-bit sum; for a limit below `2^24` the conversion
to `float` changes nothing. -/
theorem areEnoughResAvail_iff {limits : Limits} {ost : Ost} {limit : Nat} (job : Job) (load : UInt32)
    (known : limits[ost]? = some (limit : ℚ)) (small : limit < 2 ^ 24) :
    areEnoughResAvail limits job ost load = true ↔ (load + job.minReadThroughputMB).toNat ≤ limit := by
  have exact : (Number.roundEven 24 (load + job.minReadThroughputMB).toNat : ℚ) ≤ limit ↔
      ((load + job.minReadThroughputMB).toNat : ℚ) ≤ limit :=
    Number.roundEven_le_iff (by decide) (by exact_mod_cast small)
  rw [areEnoughResAvail, known, decide_eq_true_iff, exact]
  exact_mod_cast Iff.rfl

/-- The 32-bit sum is within a limit iff the sum is, or wraps below it. -/
theorem add_toNat_le_iff (load throughput : UInt32) {limit : Nat} (small : limit < 2 ^ 32) :
    (load + throughput).toNat ≤ limit ↔
      load.toNat + throughput.toNat ≤ limit ∨ WrapsBelow load throughput limit := by
  have := load.toNat_lt
  have := throughput.toNat_lt
  rw [UInt32.toNat_add]
  unfold WrapsBelow
  omega

/-- A negative `int32` as a `uint32_t`. -/
theorem toNat_toUInt32_of_neg {throughputMB : Int32} (negative : throughputMB < 0) :
    (throughputMB.toUInt32.toNat : Int) = throughputMB.toInt + 2 ^ 32 := by
  have below : throughputMB.toInt < 0 := by simpa [Int32.lt_iff_toInt_lt] using negative
  have cond : throughputMB.toInt = _ := BitVec.toInt_eq_toNat_cond throughputMB.toBitVec
  rw [Int32.toNat_toBitVec] at cond
  split at cond <;> omega

/-- A negative throughput wraps below the limit iff the load is enough to pay for it. -/
theorem wrapsBelow_of_neg (load : UInt32) {throughputMB : Int32} {limit : Nat} (negative : throughputMB < 0) :
    WrapsBelow load throughputMB.toUInt32 limit ↔
      -throughputMB.toInt ≤ load.toNat ∧ load.toNat + throughputMB.toInt ≤ limit := by
  have := toNat_toUInt32_of_neg negative
  unfold WrapsBelow
  omega

/-- **The capacity test.** It decides whether load and throughput are within the limit,
except when their sum wraps below it. In particular, a request with a negative
throughput fails it unless the load there already is at least as large. -/
theorem capacity_test_exact_iff (limits : Limits) (ost : Ost) (limit : Nat)
    (known : limits[ost]? = some (limit : ℚ)) (small : limit < 2 ^ 24) (load : UInt32) :
    (∀ job : Job, (areEnoughResAvail limits job ost load = true ↔
        load.toNat + job.minReadThroughputMB.toNat ≤ limit) ↔
      ¬ WrapsBelow load job.minReadThroughputMB limit) ∧
    (∀ (request : ResourceRequest) (tstart tend : TimePoint) (ostsSet : List Ost), request.throughputMB < 0 →
      (areEnoughResAvail limits (buildJob request tstart tend ostsSet) ost load = false ↔
        ¬ (-request.throughputMB.toInt ≤ load.toNat ∧ load.toNat + request.throughputMB.toInt ≤ limit))) := by
  have fits : limit < 2 ^ 32 := by omega
  constructor
  · intro job
    rw [areEnoughResAvail_iff job load known small, add_toNat_le_iff _ _ fits]
    have exclusive : WrapsBelow load job.minReadThroughputMB limit →
        ¬ load.toNat + job.minReadThroughputMB.toNat ≤ limit := by
      unfold WrapsBelow
      omega
    tauto
  · intro request tstart tend ostsSet negative
    rw [← wrapsBelow_of_neg load negative, ← Bool.not_eq_true, not_iff_not,
      areEnoughResAvail_iff _ load known small, add_toNat_le_iff _ _ fits]
    refine ⟨fun enough => enough.resolve_left ?_, Or.inr⟩
    have converted := toNat_toUInt32_of_neg negative
    have least : -2 ^ 31 ≤ request.throughputMB.toInt := request.throughputMB.le_toInt
    show ¬ load.toNat + request.throughputMB.toUInt32.toNat ≤ limit
    omega

/-- Of two requests on an OST with a load of 50 and a limit of 100, the one for 42 MB/s
passes, the one for 60 MB/s does not. -/
theorem capacity_test_within_limit :
    let limits : Limits := (∅ : Limits).insert "OST_a" (100 : Nat)
    let job (mbs : UInt32) : Job := ⟨.INITIALIZED, "foo", 0, 10, ["OST_a"], mbs⟩
    areEnoughResAvail limits (job 42) "OST_a" 50 = true ∧ ¬ areEnoughResAvail limits (job 60) "OST_a" 50 = true := by
  intro limits job
  have exact := capacity_test_exact_iff limits "OST_a" 100 (by simp [limits]) (by decide) 50
  have passes := (exact.1 (job 42)).2 (by unfold WrapsBelow; decide)
  have fails := (exact.1 (job 60)).2 (by unfold WrapsBelow; decide)
  exact ⟨passes.2 (by decide), fun enough => absurd (fails.1 enough) (by decide)⟩

/-- A request for -50 MB/s passes the test of an OST with a load of 100 and a limit of
1000, though 100 and the throughput of its job add up to more than `2^32`. -/
theorem negative_request_passes :
    let limits : Limits := (∅ : Limits).insert "OST_a" (1000 : Nat)
    let job := buildJob ⟨"foo", -50, 0, 10, ["/data"]⟩ 0 10 ["OST_a"]
    areEnoughResAvail limits job "OST_a" 100 = true ∧
      ¬ (100 : UInt32).toNat + job.minReadThroughputMB.toNat ≤ 1000 := by
  decide +kernel

/-! ## The load -/

/-- The load of an OST at an instant: the throughputs of the listed jobs whose interval
contains it. -/
def loadAt (s : MemoryScheduleState) (ost : Ost) (t : TimePoint) : Nat :=
  ((((s.ostList ost).map s.object).filter (·.Covers t)).map (·.minReadThroughputMB.toNat)).sum

/-- The greatest load at any instant of the interval. -/
def IsPeakLoad (s : MemoryScheduleState) (ost : Ost) (tstart tend : TimePoint) (load : Nat) : Prop :=
  IsGreatest (Set.image (loadAt s ost) (Set.Icc tstart tend)) load

/-- A call of `GetMaxLoadInTimeInterval`, by its result and what it leaves in
`*maxLoadMBSec`: if it returns true, that is the peak load. -/
def YieldsPeakLoad (s : MemoryScheduleState) (ost : Ost) (tstart tend : TimePoint) (call : Bool × UInt32) : Prop :=
  call.1 = true → IsPeakLoad s ost tstart tend call.2.toNat

/-- An OST without a list is idle. -/
theorem isPeakLoad_of_no_list {s : MemoryScheduleState} {ost : Ost} (unlisted : s.getOSTState ost = none)
    {tstart tend : TimePoint} (interval : tstart ≤ tend) : IsPeakLoad s ost tstart tend 0 := by
  have idle : ∀ t, loadAt s ost t = 0 := by
    intro t
    have empty : s.ostList ost = [] := by
      rw [getOSTState] at unlisted
      simp [ostList, listOf, unlisted]
    simp [loadAt, empty]
  constructor
  · exact ⟨tstart, Set.left_mem_Icc.2 interval, idle tstart⟩
  · rintro load ⟨t, -, rfl⟩
    exact (idle t).le

/-- The load is at most what all the listed jobs come to. -/
theorem loadAt_le (s : MemoryScheduleState) (ost : Ost) (t : TimePoint) :
    loadAt s ost t ≤ ((s.ostList ost).map fun i => (s.object i).minReadThroughputMB.toNat).sum := by
  have listed := (List.filter_sublist (p := (·.Covers t)) (l := (s.ostList ost).map s.object)).map
    (·.minReadThroughputMB.toNat)
  rw [List.map_map] at listed
  exact listed.sum_le_sum fun _ _ => Nat.zero_le _

/-- What a call leaves in `*maxLoadMBSec` is the peak load iff the OST has no list or the
variable held the peak load before. -/
theorem isPeakLoad_assumedLoad_iff (s : MemoryScheduleState) (ost : Ost) {tstart tend : TimePoint}
    (interval : tstart ≤ tend) (before : UInt32) :
    IsPeakLoad s ost tstart tend (assumedLoad s ost before).toNat ↔
      s.getOSTState ost = none ∨ IsPeakLoad s ost tstart tend before.toNat := by
  unfold assumedLoad
  by_cases listed : ost ∈ s.schedule
  · have found : s.getOSTState ost ≠ none := by simpa [getOSTState] using listed
    simp [listed, found]
  · have unlisted : s.getOSTState ost = none := by simpa [getOSTState] using listed
    simp [listed, unlisted, isPeakLoad_of_no_list unlisted interval]

/-- **`GetMaxLoadInTimeInterval`** of either scheduler yields the peak load iff the OST has
no list or the variable held the peak load before the call (for dynamic workloads also,
without a true return, if the cluster state does not know the OST). -/
theorem max_load_is_peak_iff (sources : JobSchedulerDynWorkloads.Sources) (s : MemoryScheduleState) (ost : Ost)
    (tstart tend : TimePoint) (interval : tstart ≤ tend) (before : UInt32) :
    (YieldsPeakLoad s ost tstart tend (getMaxLoadInTimeInterval s ost tstart tend before) ↔
      s.getOSTState ost = none ∨ IsPeakLoad s ost tstart tend before.toNat) ∧
    (YieldsPeakLoad s ost tstart tend
        (JobSchedulerDynWorkloads.getMaxLoadInTimeInterval sources s ost tstart tend before) ↔
      sources.clusterState.getOstState ost = none ∨
        s.getOSTState ost = none ∨ IsPeakLoad s ost tstart tend before.toNat) := by
  have peak := isPeakLoad_assumedLoad_iff s ost interval before
  constructor
  · rw [getMaxLoadInTimeInterval_eq]
    simpa [YieldsPeakLoad] using peak
  · rw [JobSchedulerDynWorkloads.getMaxLoadInTimeInterval_eq]
    by_cases known : sources.clusterState.getOstState ost = none
    · simp [YieldsPeakLoad, known]
    · simpa [YieldsPeakLoad, known] using peak

/-- Two jobs of 42 and 30 MB/s overlap on the OST, and the variable holds their peak load of
72: so it does after the call. An OST without a list is found idle, whatever it held. -/
theorem max_load_of_two_jobs :
    let s₁ := (MemoryScheduleState.empty.addJob "foo" ⟨.SCHEDULED, "foo", 0, 10, ["OST_a"], 42⟩ ["OST_a"]).2
    let s := (s₁.addJob "bar" ⟨.SCHEDULED, "bar", 5, 20, ["OST_a"], 30⟩ ["OST_a"]).2
    let sources : JobSchedulerDynWorkloads.Sources := ⟨(∅ : ClusterState).insert "OST_a" ⟨"OST_a", 0, 500⟩, rpcsToMBs 1⟩
    YieldsPeakLoad s "OST_a" 0 20 (getMaxLoadInTimeInterval s "OST_a" 0 20 72) ∧
      YieldsPeakLoad s "OST_a" 0 20 (JobSchedulerDynWorkloads.getMaxLoadInTimeInterval sources s "OST_a" 0 20 72) ∧
      YieldsPeakLoad s "OST_b" 0 20 (getMaxLoadInTimeInterval s "OST_b" 0 20 7) := by
  intro s₁ s sources
  have peak : IsPeakLoad s "OST_a" 0 20 (72 : UInt32).toNat := by
    constructor
    · exact ⟨5, by decide, by decide +kernel⟩
    · rintro load ⟨t, -, rfl⟩
      exact (loadAt_le s "OST_a" t).trans (by decide +kernel)
  have loaded := max_load_is_peak_iff sources s "OST_a" 0 20 (by decide) 72
  have idle := max_load_is_peak_iff sources s "OST_b" 0 20 (by decide) 7
  exact ⟨loaded.1.2 (Or.inr peak), loaded.2.2 (Or.inr (Or.inr peak)), idle.1.2 (Or.inl (by decide +kernel))⟩

/-- A job with 42 MB/s is on the OST for the whole interval, and the variable holds 0: it
still does after a call that returns true. -/
theorem max_load_not_written :
    let s := (MemoryScheduleState.empty.addJob "foo" ⟨.SCHEDULED, "foo", 0, 10, ["OST_a"], 42⟩ ["OST_a"]).2
    let sources : JobSchedulerDynWorkloads.Sources := ⟨(∅ : ClusterState).insert "OST_a" ⟨"OST_a", 0, 500⟩, rpcsToMBs 1⟩
    ¬ YieldsPeakLoad s "OST_a" 0 10 (getMaxLoadInTimeInterval s "OST_a" 0 10 0) ∧
      ¬ YieldsPeakLoad s "OST_a" 0 10
        (JobSchedulerDynWorkloads.getMaxLoadInTimeInterval sources s "OST_a" 0 10 0) := by
  intro s sources
  have loaded : loadAt s "OST_a" 5 = 42 := by decide +kernel
  have above : ∀ load : Nat, IsPeakLoad s "OST_a" 0 10 load → 42 ≤ load := by
    intro load peak
    exact loaded ▸ peak.2 ⟨5, by decide, rfl⟩
  have written : (getMaxLoadInTimeInterval s "OST_a" 0 10 0) = (true, 0) := by decide +kernel
  have dynWritten : (JobSchedulerDynWorkloads.getMaxLoadInTimeInterval sources s "OST_a" 0 10 0) = (true, 0) := by
    decide +kernel
  constructor
  · intro yields
    rw [written] at yields
    exact absurd (above _ (yields rfl)) (by decide)
  · intro yields
    rw [dynWritten] at yields
    exact absurd (above _ (yields rfl)) (by decide)

end QosPlanner
