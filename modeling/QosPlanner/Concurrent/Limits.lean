import QosPlanner.Concurrent.PendingStops
import QosPlanner.Planner.Overcommit

/-!
# The limits, while both threads run

`ScheduleJob` checks one OST after another and adds the job only then; in between, the
monitor goes on, and the check of an OST is out of date when the job is added. It is still
good: everything but `AddJob` only shrinks the schedule (`Move.shrinks`), and only the
server adds jobs. So the room that a check has found is there until the job is added, and
in every interleaving whose checks find values that tell the load the schedule is within
the limits (`limits_kept`).
-/

namespace QosPlanner
set_option autoImplicit false

open MemoryScheduleState JobPriorityQueue Run

/-- The OST has a limit, and over the interval of the job room for it. -/
def RoomOn (limits : Limits) (s : MemoryScheduleState) (job : Job) (o : Ost) : Prop :=
  ∃ limit, limits[o]? = some limit ∧
    ∀ t, job.Covers t → ((load s o t + job.minReadThroughputMB.toNat : Nat) : ℚ) ≤ limit

/-- What `ScheduleJob` has found out at a place: room on the OSTs it has checked. -/
def RoomFound (limits : Limits) (s : MemoryScheduleState) : ServerPc → Prop
  | .checkOst job osts => ∀ o ∈ job.osts, o ∈ osts ∨ RoomOn limits s job o
  | .addJob job => ∀ o ∈ job.osts, RoomOn limits s job o
  | _ => True

/-- A check of `ScheduleJob`: the value of `max_ost_mb_sec` for an OST of the job. -/
structure OstCheck where
  job : Job
  ost : Ost
  maxOstMbSec : UInt32

/-- The check a step makes. -/
def System.check (s : System) : Label → Option OstCheck
  | .server u =>
    match s.server with
    | .checkOst job (ost :: _) => some ⟨job, ost, assumedLoad s.world.scheduleState ost u⟩
    | _ => none
  | _ => none

/-- A check of an OST that has a limit finds a value that tells its load. -/
def CheckTellsTheLoad (limits : Limits) (s : System) (l : Label) : Prop :=
  ∀ c ∈ s.check l, ∀ limit ∈ limits[c.ost]?, TellsTheLoad s.world.scheduleState c.job c.ost limit c.maxOstMbSec

/-! ## Steps that add no job -/

section Calls

variable {jobid : JobId} {m m' : JobMonitor}

theorem StartMove.shrinks {pc : StartPc} {control : Control StartPc Bool} (move : StartMove jobid m pc m' control) :
    Shrinks m.scheduleState m'.scheduleState := by
  cases move with
  | updated => exact shrinks_updateJob _ _ _
  | _ => exact .refl _

theorem StopMove.shrinks {pc : StopPc} {control : Control StopPc Bool} (move : StopMove jobid m pc m' control) :
    Shrinks m.scheduleState m'.scheduleState := by
  cases move with
  | updated => exact shrinks_updateJob _ _ _
  | _ => exact .refl _

theorem HandleMove.shrinks {event : JobEvent} {pc : HandlePc} {control : Control HandlePc Unit}
    (move : HandleMove jobid event m pc m' control) : Shrinks m.scheduleState m'.scheduleState := by
  cases move with
  | start _ _ _ move => exact move.shrinks
  | startDone _ _ _ move => exact move.shrinks
  | stop _ _ _ move => exact move.shrinks
  | stopDone _ _ _ move => exact move.shrinks
  | removed => exact shrinks_removeJob _ _
  | _ => exact .refl _

theorem UnregisterMove.shrinks {pc : UnregisterPc} {control : Control UnregisterPc Bool}
    (move : UnregisterMove jobid m pc m' control) : Shrinks m.scheduleState m'.scheduleState := by
  cases move with
  | stop _ _ _ move => exact move.shrinks
  | stopDone _ _ _ move => exact move.shrinks
  | _ => exact .refl _

end Calls

/-- **Only `AddJob` adds**: any other step shrinks the schedule. -/
theorem Move.shrinks {s : System} {l : Label} {m' : JobMonitor} {server' : ServerPc} {monitor' : MonitorPc}
    (move : Move s l m' server' monitor') :
    (∃ job, s.server = .addJob job ∧ s.world.scheduleState.jobOf job.jobid = none ∧
        m'.scheduleState = (s.world.scheduleState.addJob job.jobid job job.osts).2 ∧
        server' = .registerJob job s.world.scheduleState.objects.length) ∨
      Shrinks s.world.scheduleState m'.scheduleState := by
  cases move with
  | added u job here fresh => exact Or.inl ⟨job, here, fresh, rfl, rfl⟩
  | unregister u jobid pc pc' rest _ here move => exact Or.inr move.shrinks
  | unregistered u jobid pc rest _ result here move => exact Or.inr move.shrinks
  | removed u jobid rest here => exact Or.inr (shrinks_removeJob _ _)
  | handle env wt poppedAt pc pc' _ here move => exact Or.inr move.shrinks
  | handled env wt poppedAt pc _ here move => exact Or.inr move.shrinks
  | _ => exact Or.inr (.refl _)

/-- Room stays while the schedule shrinks. -/
theorem RoomOn.shrinks {limits : Limits} {s s' : MemoryScheduleState} {job : Job} {o : Ost}
    (room : RoomOn limits s job o) (shrinks : Shrinks s s') : RoomOn limits s' job o := by
  obtain ⟨limit, found, fits⟩ := room
  refine ⟨limit, found, fun t covers => le_trans ?_ (fits t covers)⟩
  exact Nat.cast_le.2 (Nat.add_le_add_right (load_mono fun id => demand_shrinks shrinks id o t) _)

theorem RoomFound.shrinks {limits : Limits} {s s' : MemoryScheduleState} {server : ServerPc}
    (found : RoomFound limits s server) (shrinks : Shrinks s s') : RoomFound limits s' server := by
  cases server with
  | checkOst job osts => exact fun o named => (found o named).imp_right fun room => room.shrinks shrinks
  | addJob job => exact fun o named => (found o named).shrinks shrinks
  | _ => trivial

/-! ## The server -/

/-- The server goes on to the next OST only where the check of this one succeeds. -/
theorem check_passed {limits : Limits} {u : UInt32} {w w' : World Thread} {job job' : Job} {o : Ost}
    {osts osts' : List Ost}
    (moved : serverStep limits u w (.checkOst job (o :: osts)) = some (w', .checkOst job' osts')) :
    areEnoughResAvail limits job o (assumedLoad w.scheduleState o u) = true := by
  simp only [serverStep, getMaxLoadInTimeInterval_eq] at moved
  split at moved
  · cases moved
  · split at moved
    · cases moved
    · rename_i enough
      simpa using enough

/-- A check that succeeds with a value that tells the load has found room. -/
theorem TellsTheLoad.roomOn {limits : Limits} {s : MemoryScheduleState} {job : Job} {o : Ost} {assumed : UInt32}
    (tells : ∀ limit ∈ limits[o]?, TellsTheLoad s job o limit assumed)
    (enough : areEnoughResAvail limits job o assumed = true) : RoomOn limits s job o := by
  cases found : limits[o]? with
  | none => simp [areEnoughResAvail, found] at enough
  | some limit => exact ⟨limit, found, (tells limit found).fits found enough⟩

/-- **What the server knows** after a step. -/
theorem RoomFound.step {limits : Limits} {s s' : System} {l : Label}
    (found : RoomFound limits s.world.scheduleState s.server) (tells : CheckTellsTheLoad limits s l)
    (taken : s.step limits l = some s') : RoomFound limits s'.world.scheduleState s'.server := by
  have move := System.step_move taken
  rcases move.shrinks with ⟨job, -, -, -, after⟩ | shrinks
  · rw [after]
    trivial
  refine RoomFound.shrinks ?_ shrinks
  have passed : ∀ u job o osts osts', l = .server u → s.server = .checkOst job (o :: osts) →
      s'.server = .checkOst job osts' → RoomOn limits s.world.scheduleState job o := by
    rintro u job o osts osts' rfl here after
    obtain ⟨-, w, server, moved, rfl⟩ := System.step_server taken
    rw [here, show server = .checkOst job osts' from after] at moved
    have check : s.check (.server u) = some ⟨job, o, assumedLoad s.world.scheduleState o u⟩ := by
      rw [System.check, here]
    exact TellsTheLoad.roomOn (tells _ check) (check_passed moved)
  generalize s'.world.toJobMonitor = m', s'.server = server', s'.monitor = monitor' at move passed
  cases move with
  | reserve job => exact fun o named => Or.inl named
  | delete request =>
    cases request.id with
    | nil => trivial
    | cons id rest => trivial
  | checkNext u job ost osts here =>
    rw [here] at found
    intro o named
    rcases found o named with left | room
    · rcases List.mem_cons.1 left with rfl | left
      · exact Or.inr (passed u job o osts osts rfl here rfl)
      · exact Or.inl left
    · exact Or.inr room
  | checksDone u job here =>
    rw [here] at found
    exact fun o named => (found o named).resolve_left List.not_mem_nil
  | removed u jobid rest =>
    cases rest with
    | nil => trivial
    | cons id rest => trivial
  | pop => exact found
  | handle => exact found
  | handled => exact found
  | wake => exact found
  | _ => trivial

/-! ## Runs -/

/-- A job that is added where there is room on each of its OSTs. -/
theorem WithinLimits.added {limits : Limits} {m m' : JobMonitor} {job : Job} (within : WithinLimits limits m)
    (fresh : m.scheduleState.jobOf job.jobid = none) (room : ∀ o ∈ job.osts, RoomOn limits m.scheduleState job o)
    (result : m'.scheduleState = (m.scheduleState.addJob job.jobid job job.osts).2) : WithinLimits limits m' := by
  have stored (id : JobId) : m'.scheduleState.jobOf id =
      if job.jobid = id then some job else m.scheduleState.jobOf id := by
    rw [result]
    exact jobOf_addJob _ _ _ fresh
  refine ⟨⟨fun o limit t found => ?_, fun id job' o held named => ?_⟩, fun id job' o held named => ?_⟩
  · rw [result, load_addJob fresh, demand]
    split
    · rename_i takes
      obtain ⟨limit', found', fits⟩ := room o takes.1
      rw [found] at found'
      cases found'
      exact fits t takes.2
    · exact within.fits.within o limit t found
  · rw [stored] at held
    split at held
    · cases held
      obtain ⟨limit, found, -⟩ := room o named
      exact Std.ExtTreeMap.mem_iff_isSome_getElem?.2 (by simp [found])
    · exact within.fits.limited id job' o held named
  · have lists : o ∈ m'.scheduleState.schedule ↔ o ∈ job.osts ∨ o ∈ m.scheduleState.schedule := by
      rw [jobOf_eq_none] at fresh
      rw [result, addJob, if_neg fresh]
      exact mem_foldl_addToOst _ _ _ _ _ _
    rw [lists]
    rw [stored] at held
    split at held
    · cases held
      exact Or.inl named
    · exact Or.inr (within.listed id job' o held named)

/-- The schedule is within the limits, and what the server has found out holds. -/
structure Roomy (limits : Limits) (s : System) : Prop where
  within : WithinLimits limits s.world.toJobMonitor
  found : RoomFound limits s.world.scheduleState s.server

theorem Roomy.step {limits : Limits} {s s' : System} {l : Label} (roomy : Roomy limits s)
    (tells : CheckTellsTheLoad limits s l) (taken : s.step limits l = some s') : Roomy limits s' where
  within := by
    rcases (System.step_move taken).shrinks with ⟨job, here, fresh, result, -⟩ | shrinks
    · have room := roomy.found
      rw [here] at room
      exact roomy.within.added fresh room result
    · exact roomy.within.shrinks shrinks
  found := roomy.found.step tells taken

/-- **No overcommitment across interleavings**: whatever the monitor does between the checks of
a job and `AddJob`. -/
theorem limits_kept (limits : Limits)
    (nonneg : ∀ (o : Ost) (limit : ℚ), limits[o]? = some limit → 0 ≤ limit) (trace : List (System × Label))
    (s : System) (path : Path (System.step limits) (CheckTellsTheLoad limits) System.init trace s) :
    NotOvercommitted limits s.world.scheduleState := by
  have empty : WithinLimits limits System.init.world.toJobMonitor := by
    refine ⟨⟨fun o limit t found => ?_, fun id job o stored => ?_⟩, fun id job o stored => ?_⟩
    · show (load .empty o t : ℚ) ≤ limit
      rw [load_empty]
      exact_mod_cast nonneg o limit found
    · simp [System.init, JobMonitor.empty] at stored
    · simp [System.init, JobMonitor.empty] at stored
  have roomy : Roomy limits s :=
    path.invariant ⟨empty, trivial⟩ fun _ _ _ roomy tells taken => roomy.step tells taken
  exact roomy.within.fits

/-! ## A condition that can be computed -/

/-- What all stored jobs take from an OST, whenever they run. -/
def reserved (s : MemoryScheduleState) (o : Ost) : Nat :=
  ∑ id ∈ jobIds s, ((s.jobOf id).filter (o ∈ ·.osts)).elim 0 (·.minReadThroughputMB.toNat)

/-- A check finds a value that is at least what all stored jobs take, below a limit that
`float` can tell from its neighbours. -/
def CheckCoversAll (limits : Limits) (s : System) (l : Label) : Prop :=
  ∀ c ∈ s.check l, ∀ limit ∈ limits[c.ost]?,
    limit < 16777216 ∧ reserved s.world.scheduleState c.ost ≤ c.maxOstMbSec.toNat ∧
      c.maxOstMbSec.toNat + c.job.minReadThroughputMB.toNat < 2 ^ 32

instance (limits : Limits) (s : System) (l : Label) : Decidable (CheckCoversAll limits s l) := by
  unfold CheckCoversAll
  infer_instance

theorem load_le_reserved (s : MemoryScheduleState) (o : Ost) (t : TimePoint) : load s o t ≤ reserved s o := by
  refine Finset.sum_le_sum fun id _ => ?_
  cases s.jobOf id with
  | none => exact Nat.zero_le _
  | some job =>
    rw [demand, Option.filter_some]
    split
    · rename_i takes
      simp [takes.1]
    · exact Nat.zero_le _

theorem CheckCoversAll.tellsTheLoad {limits : Limits} {s : System} {l : Label} (covers : CheckCoversAll limits s l) :
    CheckTellsTheLoad limits s l := by
  intro c check limit found
  obtain ⟨small, enough, no_wrap⟩ := covers c check limit found
  exact .of_small_limit (by norm_num; exact small) (fun t _ => (load_le_reserved _ _ t).trans enough) no_wrap

/-- The server has checked the OST of `bar` when the monitor starts `foo`, and adds `bar` after that. -/
def barBesideFoo : List Label :=
  reserveFoo 0 10 ++ [.reserve ⟨.INITIALIZED, "bar", 5, 15, ["OST_a"], 58⟩, .server 42, .pop 1] ++
    List.replicate 9 (.monitor allSucceed) ++ List.replicate 3 (.server 0)

/-- Together they take all of the OST. -/
theorem bar_fits_beside_foo :
    ∃ s, execWhile (System.step oneOst) (CheckCoversAll oneOst) System.init barBesideFoo = some s ∧
      load s.world.scheduleState "OST_a" 7 = 100 ∧ NotOvercommitted oneOst s.world.scheduleState := by
  have run : (execWhile (System.step oneOst) (CheckCoversAll oneOst) System.init barBesideFoo).map
      (fun s => load s.world.scheduleState "OST_a" 7) = some 100 := by decide +kernel
  obtain ⟨s, reached, full⟩ := Option.map_eq_some_iff.1 run
  have nonneg : ∀ (o : Ost) (limit : ℚ), oneOst[o]? = some limit → 0 ≤ limit := by
    intro o limit found
    rw [oneOst, Std.ExtTreeMap.getElem?_insert] at found
    split at found
    · cases found
      norm_num
    · simp at found
  have path := (Path.of_execWhile .nil reached).mono fun _ _ covers => covers.tellsTheLoad
  exact ⟨s, reached, full, limits_kept oneOst nonneg _ s path⟩

end QosPlanner
