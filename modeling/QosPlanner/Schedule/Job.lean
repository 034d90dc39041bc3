import Mathlib

/-!
# Jobs

`Job` (`src/common/Job.h`): a resource request for a given time. Job ids and OST ids
are `std::string`s; a `time_point` of `system_clock` is its count of nanoseconds.
-/

namespace QosPlanner
set_option autoImplicit false

abbrev JobId := String

abbrev Ost := String

/-- `std::chrono::system_clock::time_point`, in nanoseconds since the epoch. -/
abbrev TimePoint := Int

/-- `Job::JobEvent`. -/
inductive JobEvent where
  | JOBSTART
  | JOBSTOP
  deriving DecidableEq, Repr, Inhabited

/-- `Job::JobState`. -/
inductive JobState where
  | INITIALIZED
  | SCHEDULED
  | ACTIVE
  | DONE
  deriving DecidableEq, Repr, Inhabited

/-- `JobStateToString` -/
def JobState.jobStateToString : JobState → String
  | .INITIALIZED => "INITIALIZED"
  | .SCHEDULED => "SCHEDULED"
  | .ACTIVE => "ACTIVE"
  | .DONE => "DONE"

/-- `Job`: the fields of the class, without the trailing underscores. -/
structure Job where
  state : JobState
  jobid : JobId
  tstart : TimePoint
  tend : TimePoint
  osts : List Ost
  minReadThroughputMB : UInt32
  deriving DecidableEq, Repr, Inhabited

namespace Job

/-- `setState`. -/
def setState (job : Job) (state : JobState) : Job := { job with state := state }

@[simp] theorem setState_state (job : Job) (st : JobState) : (job.setState st).state = st := rfl
@[simp] theorem setState_jobid (job : Job) (st : JobState) : (job.setState st).jobid = job.jobid := rfl
@[simp] theorem setState_tstart (job : Job) (st : JobState) : (job.setState st).tstart = job.tstart := rfl
@[simp] theorem setState_tend (job : Job) (st : JobState) : (job.setState st).tend = job.tend := rfl
@[simp] theorem setState_osts (job : Job) (st : JobState) : (job.setState st).osts = job.osts := rfl
@[simp] theorem setState_minReadThroughputMB (job : Job) (st : JobState) :
    (job.setState st).minReadThroughputMB = job.minReadThroughputMB := rfl

/-- The closed interval `[tstart, tend]` contains `t`. -/
def Covers (job : Job) (t : TimePoint) : Prop := job.tstart ≤ t ∧ t ≤ job.tend

instance (job : Job) (t : TimePoint) : Decidable (job.Covers t) := by
  unfold Covers; infer_instance

end Job

end QosPlanner
