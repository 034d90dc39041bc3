import QosPlanner.Lustre.LocalLustre
import QosPlanner.Planner.Submission
import QosPlanner.Rules.Rates

/-!
# The OSTs of a reservation

`ServeJobSubmission` (`src/common/Planner.cpp`) collects the OSTs of the files of a request
with one `GetOstsForFile` a file (`src/common/Lustre.cpp`). Each of these succeeds when the
file exists and the command could be started, whatever it printed. A file for which nothing
was printed adds no OST; if no file does, the job has none, passes the capacity test, which
is a loop over its OSTs, and later gets no rules.
-/

namespace QosPlanner
set_option autoImplicit false

open Rpc

/-- The lookups of a request through `LocalLustre`. For the `i`-th file, `stat i` tells which
files exist and `popen i` what the commands print. -/
def localLookup (stat : Nat → String → Bool) (popen : Nat → String → CommandOutcome) (i : Nat) (file : String) :
    Option (List Ost) :=
  match LocalLustre.getOstsForFile (stat i) (popen i) file [] with
  | (true, osts) => some osts
  | (false, _) => none

/-- A request names the OST: it is found for one of its files. -/
def Names (lookup : Nat → String → Option (List Ost)) (files : List String) (ost : Ost) : Prop :=
  ∃ i file osts, files[i]? = some file ∧ lookup i file = some osts ∧ ost ∈ osts

/-- Each file has an OST. -/
def EachFileHasOst (lookup : Nat → String → Option (List Ost)) (files : List String) : Prop :=
  ∀ i file, files[i]? = some file → ∃ osts, lookup i file = some osts ∧ osts ≠ []

/-- If the request is accepted, the stored job has exactly the OSTs found for its files, each
once; there is one for every file, and so for the job. -/
def CoversFiles (env : Surroundings) (m : JobMonitor) (msg : Message) : Prop :=
  let request := msg.getRequest.getResourceRequest
  let result := serveJobSubmission env m msg
  result.1 = true → ∃ job, result.2.2.scheduleState.jobOf request.id = some job ∧ job.osts.Nodup ∧
    (∀ ost, ost ∈ job.osts ↔ Names env.lookup request.files ost) ∧
    EachFileHasOst env.lookup request.files ∧ job.osts ≠ []

/-- The OSTs of the files, in the order they are first found. -/
def requestedOsts (lookup : Nat → String → Option (List Ost)) (files : List String) : List Ost :=
  (files.zipIdx.flatMap fun file => (lookup file.2 file.1).getD []).foldl insertOst []

/-- The job of a request. -/
def requestedJob (env : Surroundings) (request : ResourceRequest) : Job :=
  buildJob request env.now (submissionEnd request env.now) (requestedOsts env.lookup request.files)

/-- The request is not turned down: all lookups succeed, the id is new, and the OSTs pass the
capacity test of the scheduler. -/
structure Acceptable (env : Surroundings) (m : JobMonitor) (request : ResourceRequest) : Prop where
  looked_up : LookupsSucceed env.lookup request.files
  fresh : m.scheduleState.jobOf request.id = none
  room : checkOsts env.limits m.scheduleState (requestedJob env request) env.unassigned 0
    (requestedJob env request).osts = true

/-! ## The set of OSTs -/

theorem mem_foldl_insertOst (osts ostsSet : List Ost) (ost : Ost) :
    ost ∈ osts.foldl insertOst ostsSet ↔ ost ∈ ostsSet ∨ ost ∈ osts := by
  induction osts generalizing ostsSet with
  | nil => simp
  | cons first osts ih =>
    rw [List.foldl_cons, ih, insertOst]
    split
    · rename_i present
      rw [List.mem_cons]
      constructor
      · exact fun either => either.imp_right Or.inr
      · rintro (before | rfl | later)
        · exact Or.inl before
        · exact Or.inl present
        · exact Or.inr later
    · rw [List.mem_append, List.mem_singleton, List.mem_cons, or_assoc]

theorem nodup_foldl_insertOst {osts ostsSet : List Ost} (once : ostsSet.Nodup) :
    (osts.foldl insertOst ostsSet).Nodup := by
  induction osts generalizing ostsSet with
  | nil => exact once
  | cons first osts ih =>
    rw [List.foldl_cons, insertOst]
    split
    · exact ih once
    · rename_i absent
      rw [← List.concat_eq_append]
      exact ih (once.concat absent)

theorem tryComputeOstSet_eq {lookup : Nat → String → Option (List Ost)} {i : Nat} {files : List String}
    (known : LookupsSucceed (fun k => lookup (i + k)) files) (ostsSet : List Ost) :
    tryComputeOstSet lookup i files ostsSet =
      some (((files.zipIdx i).flatMap fun file => (lookup file.2 file.1).getD []).foldl insertOst ostsSet) := by
  induction files generalizing i ostsSet with
  | nil => rfl
  | cons file files ih =>
    obtain ⟨osts, found⟩ := Option.isSome_iff_exists.1 (known 0 file rfl)
    have later : LookupsSucceed (fun k => lookup (i + 1 + k)) files := by
      intro k name listed
      have here : (lookup (i + (k + 1)) name).isSome := known (k + 1) name (by simpa using listed)
      rwa [show i + (k + 1) = i + 1 + k by omega] at here
    replace found : lookup i file = some osts := found
    rw [tryComputeOstSet]
    simp only [found]
    rw [ih later, List.zipIdx_cons, List.flatMap_cons, List.foldl_append, found]
    rfl

/-- **What `tryComputeOstSetOfRequest` computes.** -/
theorem tryComputeOstSet_requested {lookup : Nat → String → Option (List Ost)} {files : List String}
    (known : LookupsSucceed lookup files) :
    tryComputeOstSet lookup 0 files [] = some (requestedOsts lookup files) :=
  tryComputeOstSet_eq (by simpa using known) []

theorem mem_requestedOsts (lookup : Nat → String → Option (List Ost)) (files : List String) (ost : Ost) :
    ost ∈ requestedOsts lookup files ↔ Names lookup files ost := by
  rw [requestedOsts, mem_foldl_insertOst, List.mem_flatMap]
  simp only [List.not_mem_nil, false_or, Prod.exists, List.mem_zipIdx_iff_getElem?, Names]
  constructor
  · rintro ⟨file, i, listed, member⟩
    cases found : lookup i file with
    | none => simp [found] at member
    | some osts => exact ⟨i, file, osts, listed, found, by simpa [found] using member⟩
  · rintro ⟨i, file, osts, listed, found, member⟩
    exact ⟨file, i, listed, by simpa [found] using member⟩

theorem nodup_requestedOsts (lookup : Nat → String → Option (List Ost)) (files : List String) :
    (requestedOsts lookup files).Nodup :=
  nodup_foldl_insertOst List.nodup_nil

/-- With an OST for each file there is one for the job. -/
theorem requestedOsts_ne_nil {lookup : Nat → String → Option (List Ost)} {files : List String} (some_file : files ≠ [])
    (each : EachFileHasOst lookup files) : requestedOsts lookup files ≠ [] := by
  obtain ⟨file, rest, rfl⟩ := List.exists_cons_of_ne_nil some_file
  obtain ⟨osts, found, some_ost⟩ := each 0 file rfl
  obtain ⟨ost, more, rfl⟩ := List.exists_cons_of_ne_nil some_ost
  refine List.ne_nil_of_mem (a := ost) ((mem_requestedOsts lookup _ ost).2 ?_)
  exact ⟨0, file, ost :: more, rfl, found, List.mem_cons_self⟩

/-! ## Accepted requests -/

/-- **`ServeJobSubmission`** puts the job of an acceptable request into the schedule, and
returns false for any other request with files. -/
theorem serveJobSubmission_cases (env : Surroundings) (m : JobMonitor) (msg : Message)
    (some_file : msg.getRequest.getResourceRequest.files ≠ []) :
    (Acceptable env m msg.getRequest.getResourceRequest ∧
      (serveJobSubmission env m msg).1 = true ∧
      (serveJobSubmission env m msg).2.2 = scheduled m (requestedJob env msg.getRequest.getResourceRequest)) ∨
    (¬ Acceptable env m msg.getRequest.getResourceRequest ∧ (serveJobSubmission env m msg).1 = false) := by
  by_cases known : LookupsSucceed env.lookup msg.getRequest.getResourceRequest.files
  · have nonempty : msg.getRequest.getResourceRequest.files.isEmpty = false := by simpa using some_file
    have served : serveJobSubmission env m msg =
        let result := scheduleJob env.limits env.unassigned m (requestedJob env msg.getRequest.getResourceRequest)
        (result.1, msg.setReplyRc (if result.1 then 0 else -1), result.2) := by
      simp only [serveJobSubmission, nonempty, Bool.false_eq_true, if_false, tryComputeOstSet_requested known]
      rfl
    rw [served]
    rcases scheduleJob_cases env.limits env.unassigned m (requestedJob env msg.getRequest.getResourceRequest) with
      ⟨room, fresh, result⟩ | ⟨refused, result⟩
    · exact Or.inl ⟨⟨known, fresh, room⟩, by simp [result], by simp [result]⟩
    · exact Or.inr ⟨fun acceptable => refused ⟨acceptable.room, acceptable.fresh⟩, by simp [result]⟩
  · refine Or.inr ⟨fun acceptable => known acceptable.looked_up, ?_⟩
    rw [serveJobSubmission_lookup_fails env m msg some_file known]

/-- **A reservation covers its files** iff something was found for each of them, or the request
is turned down anyhow. -/
theorem covers_files_iff (limits : Limits) (unassigned : Nat → UInt32) (now : TimePoint) (stat : Nat → String → Bool)
    (popen : Nat → String → CommandOutcome) (m : JobMonitor) (msg : Message)
    (some_file : msg.getRequest.getResourceRequest.files ≠ []) :
    let env : Surroundings := ⟨limits, unassigned, localLookup stat popen, now⟩
    CoversFiles env m msg ↔
      (Acceptable env m msg.getRequest.getResourceRequest →
        EachFileHasOst (localLookup stat popen) msg.getRequest.getResourceRequest.files) := by
  intro env
  rcases serveJobSubmission_cases env m msg some_file with ⟨acceptable, accepted, after⟩ | ⟨unacceptable, refused⟩
  · constructor
    · intro covers _
      obtain ⟨job, -, -, -, each, -⟩ := covers accepted
      exact each
    · intro each _
      refine ⟨(requestedJob env msg.getRequest.getResourceRequest).setState .SCHEDULED, ?_,
        nodup_requestedOsts _ _, mem_requestedOsts _ _, each acceptable,
        requestedOsts_ne_nil some_file (each acceptable)⟩
      rw [after]
      exact (jobOf_scheduled acceptable.fresh _).trans (if_pos rfl)
  · exact iff_of_true (fun accepted => by rw [refused] at accepted; cases accepted)
      fun acceptable => absurd acceptable unacceptable

/-- A request for an hour on the file `/data`. -/
def requestForData : Message :=
  ⟨.REQUEST, some (.request ⟨.RESERVE, some (.resourceRequest ⟨"foo", 42, 0, 3600, ["/data"]⟩)⟩)⟩

/-- Two files that share OST 3, one of them also on OST 5: the job names each OST once. -/
theorem shared_ost_covered :
    let row (ost : String) := "\t     " ++ ost ++ "\t             2\t          0x2\t             0\n"
    let popen : Nat → String → CommandOutcome := fun i _ => .ended 0 (if i = 0 then row "3" else row "5" ++ row "3")
    let env : Surroundings :=
      ⟨((∅ : Limits).insert "3" 100).insert "5" 100, fun _ => 0, localLookup (fun _ _ => true) popen, 0⟩
    let request : Message :=
      ⟨.REQUEST, some (.request ⟨.RESERVE, some (.resourceRequest ⟨"foo", 42, 0, 3600, ["/data", "/copy"]⟩)⟩)⟩
    CoversFiles env .empty request ∧
      ((serveJobSubmission env .empty request).2.2.scheduleState.jobOf "foo").map (·.osts) = some ["3", "5"] := by
  intro row popen env request
  constructor
  · refine (covers_files_iff _ _ _ (fun _ _ => true) popen .empty request (List.cons_ne_nil _ _)).2 ?_
    rintro - i file listed
    match i with
    | 0 => exact ⟨["3"], by cases listed; decide +kernel, List.cons_ne_nil _ _⟩
    | 1 => exact ⟨["5", "3"], by cases listed; decide +kernel, List.cons_ne_nil _ _⟩
    | i + 2 => cases listed
  · decide +kernel

/-- `lfs getstripe` fails and prints nothing: the request is accepted, with a job without OSTs,
for which `SetRules` refuses to set rules. -/
theorem failed_getstripe_accepted :
    let env : Surroundings := ⟨∅, fun _ => 0, localLookup (fun _ _ => true) (fun _ _ => .ended 1 ""), 0⟩
    (serveJobSubmission env .empty requestForData).1 = true ∧
      ((serveJobSubmission env .empty requestForData).2.2.scheduleState.jobOf "foo").map (·.osts) = some [] ∧
      (∀ (rules : RuleManager) (remote : RemoteEnv), rules.setRules remote [] "foo" 42 = (false, rules, [])) ∧
      ¬ CoversFiles env .empty requestForData := by
  intro env
  have accepted : (serveJobSubmission env .empty requestForData).1 = true := by decide +kernel
  refine ⟨accepted, by decide +kernel, fun rules remote => rules.setRules_unsent remote 42 (Or.inl rfl), fun covers => ?_⟩
  obtain ⟨job, -, -, -, each, -⟩ := covers accepted
  obtain ⟨osts, found, some_ost⟩ := each 0 "/data" rfl
  have nothing : env.lookup 0 "/data" = some [] := by decide +kernel
  rw [nothing] at found
  cases found
  exact some_ost rfl

end QosPlanner
