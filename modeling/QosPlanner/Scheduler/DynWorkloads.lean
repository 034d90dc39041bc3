import QosPlanner.Scheduler.StaticWorkloads

/-!
# The scheduler for dynamic workloads

`JobSchedulerDynWorkloads` (`src/common/JobSchedulerDynWorkloads.cpp`) is the older of
the two schedulers. It takes the limit of an OST from the cluster state instead of a
file, and compares in `uint32_t`; the rest was copied. Two differences are not of that
kind: an OST the cluster state does not know fails the load computation, and the job
goes into the schedule in the state it came in.
-/

namespace QosPlanner
set_option autoImplicit false

open MemoryScheduleState

/-- `OSTWorkload` -/
structure OSTWorkload where
  ost : String
  currentRpcSec : UInt32
  maxRpcSec : UInt32
  deriving DecidableEq, Repr

/-- `ost_state_map_` of `MemoryClusterState`. -/
abbrev ClusterState := Std.ExtTreeMap Ost OSTWorkload

/-- `getOstState`; `none` is a false result. -/
def ClusterState.getOstState (state : ClusterState) (ost : Ost) : Option OSTWorkload := state[ost]?

/-- `LocalLustre::RPCsToMBs`, by `max_rpc_size_`, which the constructor sets to 1. -/
def rpcsToMBs (maxRpcSize rpcPerSec : UInt32) : UInt32 := rpcPerSec * maxRpcSize

/-- The end both `ScheduleJob`s share, once the loop has passed: `AddJob`, `RegisterJob`,
and `RemoveJob` if that fails. -/
def enterJob (registerJob : JobPriorityQueue → Job → Nat → Bool × JobPriorityQueue)
    (m : JobMonitor) (job : Job) : Bool × JobMonitor :=
  let (added, scheduleState) := m.scheduleState.addJob job.jobid job job.osts
  let m := { m with scheduleState }
  if !added then (false, m)
  else
    let (registered, jobPriorityQueue) :=
      registerJob m.jobPriorityQueue job (reservationOf m.scheduleState job.jobid)
    let m := { m with jobPriorityQueue }
    if !registered then (false, { m with scheduleState := (m.scheduleState.removeJob job.jobid).2 })
    else (true, m)

/-- The `ScheduleJob` for static workloads marks the job as SCHEDULED before that. -/
theorem scheduleJobWith_eq (registerJob : JobPriorityQueue → Job → Nat → Bool × JobPriorityQueue)
    (limits : Limits) (unassigned : Nat → UInt32) (m : JobMonitor) (job : Job) :
    scheduleJobWith registerJob limits unassigned m job =
      if !checkOsts limits m.scheduleState job unassigned 0 job.osts then (false, m)
      else enterJob registerJob m (job.setState .SCHEDULED) := rfl

namespace JobSchedulerDynWorkloads

/-- The scheduler, by the two members that answer for the limit of an OST. -/
structure Sources where
  /-- `cluster_state_` -/
  clusterState : ClusterState
  /-- `lustre_->RPCsToMBs` -/
  rpcsToMBs : UInt32 → UInt32

/-- `GetMaxLoadInTimeInterval`. After the first lookup it is, word for word, the one of
the scheduler for static workloads. -/
def getMaxLoadInTimeInterval (sources : Sources) (s : MemoryScheduleState) (ost : Ost)
    (tstart tend : TimePoint) (maxLoadMBSec : UInt32) : Bool × UInt32 :=
  match sources.clusterState.getOstState ost with
  | none => (false, maxLoadMBSec)
  | some _ => QosPlanner.getMaxLoadInTimeInterval s ost tstart tend maxLoadMBSec

/-- `AreEnoughResAvail` -/
def areEnoughResAvail (sources : Sources) (job : Job) (maxOstMbSec : UInt32) (nodeState : OSTWorkload) : Bool :=
  maxOstMbSec + job.minReadThroughputMB ≤ sources.rpcsToMBs nodeState.maxRpcSec

/-- The loop of `ScheduleJob` over the OSTs, from the `i`-th on. -/
def checkOsts (sources : Sources) (s : MemoryScheduleState) (job : Job) (unassigned : Nat → UInt32) :
    Nat → List Ost → Bool
  | _, [] => true
  | i, ost :: osts =>
    let (success, maxOstMbSec) := getMaxLoadInTimeInterval sources s ost job.tstart job.tend (unassigned i)
    if !success then false
    else
      match sources.clusterState.getOstState ost with
      | none => false
      | some nodeState =>
        if !areEnoughResAvail sources job maxOstMbSec nodeState then false
        else checkOsts sources s job unassigned (i + 1) osts

/-- `ScheduleJob`, on top of a `RegisterJob`, which is virtual. -/
def scheduleJobWith (registerJob : JobPriorityQueue → Job → Nat → Bool × JobPriorityQueue)
    (sources : Sources) (unassigned : Nat → UInt32) (m : JobMonitor) (job : Job) : Bool × JobMonitor :=
  if !checkOsts sources m.scheduleState job unassigned 0 job.osts then (false, m)
  else enterJob registerJob m job

/-- `ScheduleJob` with the `RegisterJob` of `JobMonitor`. -/
def scheduleJob (sources : Sources) (unassigned : Nat → UInt32) (m : JobMonitor) (job : Job) :
    Bool × JobMonitor :=
  scheduleJobWith JobMonitor.registerJob sources unassigned m job

/-! ## What the functions do -/

variable (sources : Sources) (s : MemoryScheduleState)

theorem getMaxLoadInTimeInterval_eq (ost : Ost) (tstart tend : TimePoint) (maxLoadMBSec : UInt32) :
    getMaxLoadInTimeInterval sources s ost tstart tend maxLoadMBSec =
      if sources.clusterState.getOstState ost = none then (false, maxLoadMBSec)
      else (true, assumedLoad s ost maxLoadMBSec) := by
  unfold getMaxLoadInTimeInterval
  cases known : sources.clusterState.getOstState ost with
  | none => rfl
  | some nodeState => simp [QosPlanner.getMaxLoadInTimeInterval_eq]

/-- The cluster state knows the OST and the check against its limit succeeds. -/
def HasRoom (job : Job) (ost : Ost) (unassigned : UInt32) : Prop :=
  ∃ nodeState, sources.clusterState.getOstState ost = some nodeState ∧
    areEnoughResAvail sources job (assumedLoad s ost unassigned) nodeState = true

/-- The loop ends without an early return iff each OST has room. -/
theorem checkOsts_eq_true (job : Job) (unassigned : Nat → UInt32) (i : Nat) (osts : List Ost) :
    checkOsts sources s job unassigned i osts = true ↔
      ∀ (k : Nat) (ost : Ost), osts[k]? = some ost → HasRoom sources s job ost (unassigned (i + k)) := by
  induction osts generalizing i with
  | nil => simp [checkOsts]
  | cons first rest ih =>
    have step : checkOsts sources s job unassigned i (first :: rest) = true ↔
        HasRoom sources s job first (unassigned i) ∧ checkOsts sources s job unassigned (i + 1) rest = true := by
      rw [checkOsts, getMaxLoadInTimeInterval_eq]
      cases known : sources.clusterState.getOstState first with
      | none => simp [HasRoom, known]
      | some nodeState =>
        cases enough : areEnoughResAvail sources job (assumedLoad s first (unassigned i)) nodeState <;>
          simp [HasRoom, known, enough]
    rw [step, ih]
    constructor
    · rintro ⟨head, tail⟩ k ost found
      cases k with
      | zero => cases found; exact head
      | succ k =>
        rw [show i + (k + 1) = i + 1 + k by omega]
        exact tail k ost (by simpa using found)
    · intro all
      refine ⟨all 0 first rfl, fun k ost found => ?_⟩
      rw [show i + 1 + k = i + (k + 1) by omega]
      exact all (k + 1) ost (by simpa using found)

end JobSchedulerDynWorkloads

end QosPlanner
