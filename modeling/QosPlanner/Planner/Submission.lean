import QosPlanner.Planner.Operations

/-!
# Reserve requests

`Planner::ServeJobSubmission` (`src/common/Planner.cpp`) turns a request into a job and
hands it to the scheduler. Of its four exits, two write a reply.
-/

namespace QosPlanner
set_option autoImplicit false

open Rpc

/-- What the answers to a reserve request depend on besides the request. -/
structure Surroundings where
  /-- `osts_max_mbs_limits_` of the scheduler. -/
  limits : Limits
  /-- What `ScheduleJob` finds in its uninitialised local, in each iteration. -/
  unassigned : Nat → UInt32
  /-- The `i`-th call of `GetOstsForFile`, for a file; `none` is a false result. -/
  lookup : Nat → String → Option (List Ost)
  /-- `system_clock::now()` -/
  now : TimePoint

/-- A signed 64-bit number. -/
def wrapInt64 (n : Int) : Int := n.bmod (2 ^ 64)

/-- `time_point<system_clock>::max()` -/
def timePointMax : TimePoint := 2 ^ 63 - 1

/-- `osts_set.insert(ost)`; the set is kept as the list of its elements. -/
def insertOst (ostsSet : List Ost) (ost : Ost) : List Ost :=
  if ost ∈ ostsSet then ostsSet else ostsSet ++ [ost]

/-- `tryComputeOstSetOfRequest`, from the `i`-th file on; `none` is a false result. -/
def tryComputeOstSet (lookup : Nat → String → Option (List Ost)) :
    Nat → List String → List Ost → Option (List Ost)
  | _, [], ostsSet => some ostsSet
  | i, file :: files, ostsSet =>
    match lookup i file with
    | none => none
    | some osts => tryComputeOstSet lookup (i + 1) files (osts.foldl insertOst ostsSet)

/-- `BuildJob`. The `int32` throughput becomes the `uint32_t` of the job. -/
def buildJob (request : ResourceRequest) (tstart tend : TimePoint) (ostsSet : List Ost) : Job where
  state := .INITIALIZED
  jobid := request.id
  tstart
  tend
  osts := ostsSet
  minReadThroughputMB := request.throughputMB.toUInt32

/-- `tend` of `ServeJobSubmission`: seconds are counted in nanoseconds, in 64 bits. -/
def submissionEnd (request : ResourceRequest) (tstart : TimePoint) : TimePoint :=
  if request.durationSec > 0 then wrapInt64 (tstart + request.durationSec.toInt * 10 ^ 9) else timePointMax

/-- `ServeJobSubmission`: the result, the message, and the state after it. -/
def serveJobSubmission (env : Surroundings) (m : JobMonitor) (msg : Message) : Bool × Message × JobMonitor :=
  let request := msg.getRequest.getResourceRequest
  if request.files.isEmpty then (true, msg, m)
  else
    match tryComputeOstSet env.lookup 0 request.files [] with
    | none => (false, msg, m)
    | some ostsSet =>
      let tstart := env.now
      let job := buildJob request tstart (submissionEnd request tstart) ostsSet
      let (success, m) := scheduleJob env.limits env.unassigned m job
      (success, msg.setReplyRc (if success then 0 else -1), m)

/-! ## The exits -/

/-- The lookups of the files, made in order, all succeed. -/
def LookupsSucceed (lookup : Nat → String → Option (List Ost)) (files : List String) : Prop :=
  ∀ (i : Nat) (file : String), files[i]? = some file → (lookup i file).isSome

theorem tryComputeOstSet_isSome (lookup : Nat → String → Option (List Ost)) (i : Nat) (files : List String)
    (ostsSet : List Ost) :
    (tryComputeOstSet lookup i files ostsSet).isSome ↔ LookupsSucceed (fun k => lookup (i + k)) files := by
  induction files generalizing i ostsSet with
  | nil => simp [tryComputeOstSet, LookupsSucceed]
  | cons file files ih =>
    rw [tryComputeOstSet]
    cases answer : lookup i file with
    | none =>
      refine iff_of_false (by simp) fun all => ?_
      have := all 0 file rfl
      simp [answer] at this
    | some osts =>
      rw [ih]
      constructor
      · intro all k name found
        cases k with
        | zero => cases found; simp [answer]
        | succ k =>
          have here : (lookup (i + 1 + k) name).isSome := all k name (by simpa using found)
          rwa [show i + 1 + k = i + (k + 1) by omega] at here
      · intro all k name found
        have here : (lookup (i + (k + 1)) name).isSome := all (k + 1) name (by simpa using found)
        rwa [show i + (k + 1) = i + 1 + k by omega] at here

/-- The request has put a reservation with its id into the schedule. -/
def PutReservation (before after : JobMonitor) (id : JobId) : Prop :=
  before.scheduleState.jobOf id = none ∧ ∃ job, after.scheduleState.jobOf id = some job

/-- `ScheduleJob` returns true exactly if it put the job into the schedule. -/
theorem scheduleJob_fst_iff (limits : Limits) (unassigned : Nat → UInt32) (m : JobMonitor) (job : Job) :
    (scheduleJob limits unassigned m job).1 = true ↔
      PutReservation m (scheduleJob limits unassigned m job).2 job.jobid := by
  rcases scheduleJob_cases limits unassigned m job with ⟨-, fresh, result⟩ | ⟨-, result⟩ <;> rw [result]
  · refine iff_of_true rfl ⟨fresh, job.setState .SCHEDULED, ?_⟩
    rw [jobOf_scheduled fresh, if_pos rfl]
  · refine iff_of_false (by simp) ?_
    rintro ⟨fresh, job', stored⟩
    rw [fresh] at stored
    cases stored

/-- A request that names no file is a noop, which writes no reply. -/
theorem serveJobSubmission_noop (env : Surroundings) (m : JobMonitor) (msg : Message)
    (noFile : msg.getRequest.getResourceRequest.files = []) :
    serveJobSubmission env m msg = (true, msg, m) := by
  simp [serveJobSubmission, noFile]

/-- Nor does a request one of whose files cannot be looked up. -/
theorem serveJobSubmission_lookup_fails (env : Surroundings) (m : JobMonitor) (msg : Message)
    (files : msg.getRequest.getResourceRequest.files ≠ [])
    (fails : ¬ LookupsSucceed env.lookup msg.getRequest.getResourceRequest.files) :
    serveJobSubmission env m msg = (false, msg, m) := by
  have unknown : tryComputeOstSet env.lookup 0 msg.getRequest.getResourceRequest.files [] = none := by
    rw [← Option.not_isSome_iff_eq_none, tryComputeOstSet_isSome]
    simpa using fails
  have some_file : msg.getRequest.getResourceRequest.files.isEmpty = false := by simpa using files
  simp [serveJobSubmission, some_file, unknown]

/-- **A request that reaches the scheduler** gets a reply with the scheduler's verdict. -/
theorem serveJobSubmission_scheduled (env : Surroundings) (m : JobMonitor) (msg : Message)
    (files : msg.getRequest.getResourceRequest.files ≠ [])
    (known : LookupsSucceed env.lookup msg.getRequest.getResourceRequest.files) :
    ∃ job : Job, job.jobid = msg.getRequest.getResourceRequest.id ∧
      serveJobSubmission env m msg =
        ((scheduleJob env.limits env.unassigned m job).1,
          msg.setReplyRc (if (scheduleJob env.limits env.unassigned m job).1 then 0 else -1),
          (scheduleJob env.limits env.unassigned m job).2) := by
  have found : (tryComputeOstSet env.lookup 0 msg.getRequest.getResourceRequest.files []).isSome := by
    rw [tryComputeOstSet_isSome]
    simpa using known
  obtain ⟨ostsSet, found⟩ := Option.isSome_iff_exists.1 found
  have some_file : msg.getRequest.getResourceRequest.files.isEmpty = false := by simpa using files
  exact ⟨buildJob msg.getRequest.getResourceRequest env.now
    (submissionEnd msg.getRequest.getResourceRequest env.now) ostsSet, rfl,
    by simp [serveJobSubmission, some_file, found]⟩

end QosPlanner
