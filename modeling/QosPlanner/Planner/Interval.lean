import QosPlanner.Planner.Submission

/-!
# The interval of a reservation

`ServeJobSubmission` (`src/common/Planner.cpp`) takes the end of a job from
`tstart + std::chrono::seconds(durationsec)`. The seconds, any 64-bit number a client
sends, are converted to nanoseconds and added to the current time in 64 bits, without a
check. An end that does not fit wraps around, mostly to an instant before the start; the
overlap test of `GetMaxLoadInTimeInterval`
(`src/common/JobSchedulerStaticWorkloads.cpp`) then never finds the job.
-/

namespace QosPlanner
set_option autoImplicit false

open MemoryScheduleState Rpc

/-! ## The overlap test -/

/-- The loop of `GetMaxLoadInTimeInterval` over a list of jobs, from `load` on. -/
def addLoads (s : MemoryScheduleState) (tstart tend : TimePoint) (load : UInt32) (jobList : List Ptr) : UInt32 :=
  jobList.foldl (fun load p =>
    if (s.object p).tstart > tend ∨ (s.object p).tend < tstart then load
    else load + (s.object p).minReadThroughputMB) load

/-- The loop is that of the function, which drops its result. -/
theorem getMaxLoadInTimeInterval_loop (s : MemoryScheduleState) (ost : Ost) (tstart tend : TimePoint)
    (maxLoadMBSec : UInt32) :
    getMaxLoadInTimeInterval s ost tstart tend maxLoadMBSec =
      match s.getOSTState ost with
      | none => (true, 0)
      | some jobList =>
        let _maxLoadMbSec := addLoads s tstart tend 0 jobList
        (true, maxLoadMBSec) := rfl

/-- Wherever the job is in the list of an OST, the loop adds its throughput. -/
def CountedIn (job : Job) (tstart tend : TimePoint) : Prop :=
  ∀ (s : MemoryScheduleState) (before after : List Ptr) (p : Ptr), s.object p = job →
    addLoads s tstart tend 0 (before ++ p :: after) =
      addLoads s tstart tend (addLoads s tstart tend 0 before + job.minReadThroughputMB) after

theorem countedIn_of_overlap {job : Job} {tstart tend : TimePoint} (starts : job.tstart ≤ tend)
    (ends : tstart ≤ job.tend) : CountedIn job tstart tend := by
  rintro s before after p rfl
  have overlaps : ¬ ((s.object p).tstart > tend ∨ (s.object p).tend < tstart) :=
    not_or.2 ⟨not_lt.2 starts, not_lt.2 ends⟩
  simp only [addLoads, List.foldl_append, List.foldl_cons, if_neg overlaps]

/-! ## The end -/

/-- The end a request asks for, as far as the clock can tell it. -/
def requestedEnd (request : ResourceRequest) (now : TimePoint) : TimePoint :=
  if request.durationSec ≤ 0 then timePointMax
  else min (now + request.durationSec.toInt * 10 ^ 9) timePointMax

/-- The job of a request has the requested end, which is not before its start, and is counted
in each interval that it should overlap. -/
def IntervalKept (request : ResourceRequest) (now : TimePoint) (ostsSet : List Ost) : Prop :=
  let job := buildJob request now (submissionEnd request now) ostsSet
  job.tend = requestedEnd request now ∧ job.tstart = now ∧ job.tstart ≤ job.tend ∧
    ∀ tstart tend : TimePoint, tstart < requestedEnd request now → job.tstart ≤ tend → CountedIn job tstart tend

/-- The exact end fits the clock, or wraps around to just its last instant. -/
def EndFits (request : ResourceRequest) (now : TimePoint) : Prop :=
  now + request.durationSec.toInt * 10 ^ 9 ≤ timePointMax ∨
    (now + request.durationSec.toInt * 10 ^ 9 - timePointMax) % 2 ^ 64 = 0

/-- A number from 0 on, in 64 bits: it is as it was up to the maximum, and the maximum if it
is one modulo `2^64`. -/
theorem wrapInt64_eq_min_iff {n : Int} (positive : 0 ≤ n) :
    wrapInt64 n = min n timePointMax ↔ n ≤ timePointMax ∨ (n - timePointMax) % 2 ^ 64 = 0 := by
  have range := Int.bmod_def n (2 ^ 64)
  rw [wrapInt64]
  unfold timePointMax
  split at range <;> omega

/-- `tend` is the requested end iff the end fits. -/
theorem submissionEnd_eq_iff (request : ResourceRequest) {now : Int} (started : 0 ≤ now) :
    submissionEnd request now = requestedEnd request now ↔ request.durationSec ≤ 0 ∨ EndFits request now := by
  unfold submissionEnd requestedEnd EndFits
  by_cases unlimited : request.durationSec ≤ 0
  · simp [unlimited, Int64.not_lt.2 unlimited]
  · have positive : 0 < request.durationSec := Int64.not_le.1 unlimited
    have seconds : 0 < request.durationSec.toInt := by simpa [Int64.lt_iff_toInt_lt] using positive
    simp only [unlimited, positive, if_true, if_false, false_or]
    exact wrapInt64_eq_min_iff (by omega)

/-- A requested end is not before the current time. -/
theorem le_requestedEnd (request : ResourceRequest) {now : Int} (fits : now ≤ timePointMax) :
    now ≤ requestedEnd request now := by
  unfold requestedEnd
  split
  · exact fits
  · rename_i limited
    have positive : 0 < request.durationSec.toInt := by
      simpa [Int64.lt_iff_toInt_lt] using Int64.not_le.1 limited
    have later : now ≤ now + request.durationSec.toInt * 10 ^ 9 := by omega
    exact le_min later fits

theorem IntervalKept.ordered {request : ResourceRequest} {now : TimePoint} {ostsSet : List Ost}
    (kept : IntervalKept request now ostsSet) : now ≤ submissionEnd request now := kept.2.2.1

/-- **The interval of a job** is the requested one iff the request sets no limit or its end
fits the clock. -/
theorem interval_kept_iff (request : ResourceRequest) (now : TimePoint) (ostsSet : List Ost)
    (started : 0 ≤ now) (fits : now ≤ timePointMax) :
    IntervalKept request now ostsSet ↔ request.durationSec ≤ 0 ∨ EndFits request now := by
  rw [← submissionEnd_eq_iff request started]
  constructor
  · exact fun kept => kept.1
  · intro exact
    have job_end : (buildJob request now (submissionEnd request now) ostsSet).tend = requestedEnd request now := exact
    refine ⟨job_end, rfl, job_end ▸ le_requestedEnd request fits, fun tstart tend begins ends => ?_⟩
    exact countedIn_of_overlap ends (job_end ▸ begins.le)

/-- An hour from some time in 2017 on. -/
theorem interval_of_an_hour :
    IntervalKept ⟨"foo", 42, 0, 3600, ["/data"]⟩ (1500000000 * 10 ^ 9) ["0"] :=
  (interval_kept_iff _ _ _ (by decide) (by decide)).2 (Or.inr (Or.inl (by decide)))

/-- Ten billion seconds from then on: the job ends before it starts. -/
theorem interval_wraps :
    let request : ResourceRequest := ⟨"foo", 42, 0, 10000000000, ["/data"]⟩
    submissionEnd request (1500000000 * 10 ^ 9) < 0 ∧
      ¬ IntervalKept request (1500000000 * 10 ^ 9) ["0"] := by
  intro request
  have ends : submissionEnd request (1500000000 * 10 ^ 9) < 0 := by decide +kernel
  exact ⟨ends, fun kept => absurd (lt_of_le_of_lt kept.ordered ends) (by decide)⟩

end QosPlanner
