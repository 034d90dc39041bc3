import QosPlanner.Planner.ListJobs
import QosPlanner.Planner.Operations

/-!
# What a list request shows

`FilterJobs` selects the jobs whose id the pattern matches, but `AddJobsToReply` looks at
the map of all jobs to decide whether there is anything to show. So when there are jobs
and none matches, the reply is the table of no jobs, which `Format` leaves empty, and not
the text for this case.
-/

namespace QosPlanner
set_option autoImplicit false

open Rpc MemoryScheduleState

/-- A list request selects the id: an empty pattern selects every id. -/
def Selects (regex : RegexEngine) (pattern : String) (id : JobId) : Prop :=
  pattern = "" ∨ regex.search id pattern = true

/-- The entries are the selected jobs of the schedule, by id in ascending order. -/
structure Selection (s : MemoryScheduleState) (regex : RegexEngine) (pattern : String)
    (entries : List (JobId × Job)) : Prop where
  ascending : entries.Pairwise fun a b => a.1 < b.1
  mem_iff : ∀ id job, (id, job) ∈ entries ↔ s.jobOf id = some job ∧ Selects regex pattern id

/-- The text for a selection: a header and a row for each job, if there is one, and the
text that there are no matches if and only if there is none. -/
structure Shows (localTime : Int → String) (entries : List (JobId × Job)) (text : String) : Prop where
  table : entries ≠ [] → text = ListJobsFormatter.addHeader ++
    String.join (entries.map fun entry => ListJobsFormatter.addJob localTime entry.2)
  noMatches : text = "no matches found\n" ↔ entries = []

/-- `GetAllJobs` lists the stored jobs by id. -/
theorem getAllJobs_ascending (s : MemoryScheduleState) : s.getAllJobs.Pairwise fun a b => a.1 < b.1 := by
  rw [getAllJobs, List.pairwise_map]
  refine Std.ExtTreeMap.ordered_keys_toList.imp ?_
  intro a b lt
  exact compare_lt_iff_lt.1 lt

theorem mem_getAllJobs {s : MemoryScheduleState} {id : JobId} {job : Job} :
    (id, job) ∈ s.getAllJobs ↔ s.jobOf id = some job := by
  rw [getAllJobs, List.mem_map, jobOf_eq_some]
  constructor
  · rintro ⟨⟨key, p⟩, listed, same⟩
    obtain ⟨rfl, rfl⟩ := Prod.mk.inj same
    exact ⟨p, Std.ExtTreeMap.mem_toList_iff_getElem?_eq_some.1 listed, rfl⟩
  · rintro ⟨p, found, rfl⟩
    exact ⟨(id, p), Std.ExtTreeMap.mem_toList_iff_getElem?_eq_some.2 found, rfl⟩

/-- A table begins with its header. -/
theorem table_ne_noMatches (rows : String) : ListJobsFormatter.addHeader ++ rows ≠ "no matches found\n" := by
  intro same
  have header : ListJobsFormatter.addHeader.toList.head? = some 'R' := by decide +kernel
  have first := congrArg (fun text => text.toList.head?) same
  simp only [String.toList_append, List.head?_append, header, Option.some_or] at first
  revert first
  decide

section

variable {regex : RegexEngine} {msg : Message}

/-- The jobs that go into the table. -/
def selectedJobs (regex : RegexEngine) (pattern : String) (s : MemoryScheduleState) : List (JobId × Job) :=
  s.getAllJobs.filter fun kv => regex.search kv.1 (if pattern = "" then ".*" else pattern)

theorem selection_selectedJobs (searchAny : ∀ id, regex.search id ".*" = true) (pattern : String)
    (s : MemoryScheduleState) : Selection s regex pattern (selectedJobs regex pattern s) where
  ascending := (getAllJobs_ascending s).filter _
  mem_iff := by
    intro id job
    rw [selectedJobs, List.mem_filter, mem_getAllJobs, Selects]
    by_cases empty : pattern = ""
    · simp [empty, searchAny]
    · simp [empty]

/-- **The reply to a list request** whose pattern can be used. -/
theorem serveListJobs_eq (localTime : Int → String) (m : JobMonitor)
    (usable : UsableRegex regex msg.getRequest.getListJobsRequest.regex) :
    ∃ msg', serveListJobs regex localTime m msg = some (true, msg', m) ∧
      msg'.getReply.returnMsg = addJobsToReply localTime m.scheduleState.getAllJobs
        ((selectedJobs regex msg.getRequest.getListJobsRequest.regex m.scheduleState).map Prod.snd) := by
  have compiles : regex.compiles (addDefaultRegexIfEmpty msg).getRequest.getListJobsRequest.regex = true := by
    rw [regex_addDefaultRegexIfEmpty]
    split
    · exact regex.compiles_any
    · exact usable.resolve_left ‹_›
  have selected : filterJobs regex (addDefaultRegexIfEmpty msg).getRequest.getListJobsRequest
      m.scheduleState.getAllJobs =
        some ((selectedJobs regex msg.getRequest.getListJobsRequest.regex m.scheduleState).map Prod.snd) := by
    rw [filterJobs, if_pos compiles, regex_addDefaultRegexIfEmpty]
    rfl
  refine ⟨(addDefaultRegexIfEmpty msg).setReply ⟨0, addJobsToReply localTime m.scheduleState.getAllJobs
    ((selectedJobs regex msg.getRequest.getListJobsRequest.regex m.scheduleState).map Prod.snd)⟩, ?_, rfl⟩
  simp only [serveListJobs, selected, Option.map_some]

end

/-- No job is in the list of all jobs iff none is stored. -/
theorem getAllJobs_eq_nil {s : MemoryScheduleState} : s.getAllJobs = [] ↔ ∀ id, id ∉ s.jobs := by
  rw [List.eq_nil_iff_forall_not_mem]
  constructor
  · intro none id stored
    obtain ⟨job, found⟩ := Option.ne_none_iff_exists'.1 fun absent => (jobOf_eq_none s id).1 absent stored
    exact none (id, job) (mem_getAllJobs.2 found)
  · rintro none ⟨id, job⟩ listed
    have absent := (jobOf_eq_none s id).2 (none id)
    rw [mem_getAllJobs.1 listed] at absent
    cases absent

/-- A selection is empty iff no stored job is selected. -/
theorem Selection.eq_nil_iff {s : MemoryScheduleState} {regex : RegexEngine} {pattern : String}
    {entries : List (JobId × Job)} (selection : Selection s regex pattern entries) :
    entries = [] ↔ ¬ ∃ id job, s.jobOf id = some job ∧ Selects regex pattern id := by
  rw [List.eq_nil_iff_forall_not_mem]
  constructor
  · rintro none ⟨id, job, selected⟩
    exact none (id, job) ((selection.mem_iff id job).2 selected)
  · rintro none ⟨id, job⟩ listed
    exact none ⟨id, job, (selection.mem_iff id job).1 listed⟩

/-- **The text for a selection** is right if there are no jobs at all, or some are selected. -/
theorem shows_addJobsToReply_iff (localTime : Int → String) {jobs entries : List (JobId × Job)}
    (part : jobs = [] → entries = []) :
    Shows localTime entries (addJobsToReply localTime jobs (entries.map Prod.snd)) ↔ jobs = [] ∨ entries ≠ [] := by
  rw [addJobsToReply]
  by_cases none : jobs = []
  · rw [part none, if_neg (by simp [none])]
    exact iff_of_true ⟨fun some => absurd rfl some, iff_of_true rfl rfl⟩ (Or.inl none)
  · rw [if_pos (List.length_pos_iff.2 none), ListJobsFormatter.format]
    by_cases unselected : entries = []
    · rw [unselected]
      refine iff_of_false (fun shows => ?_) (by simp [none])
      have text : "" = "no matches found\n" := shows.noMatches.2 rfl
      revert text
      decide
    · rw [if_neg (by simpa using unselected), List.map_map]
      refine iff_of_true ⟨fun _ => rfl, iff_of_false (table_ne_noMatches _) unselected⟩ (Or.inr unselected)

/-- **When a list request shows the matches.** With a pattern that can be used, the reply is
the table of the selected jobs, or the text that there is none, iff the schedule is empty or
some job is selected. -/
theorem list_shows_matches_iff (regex : RegexEngine) (localTime : Int → String) (m : JobMonitor) (msg : Message)
    (searchAny : ∀ id, regex.search id ".*" = true)
    (usable : UsableRegex regex msg.getRequest.getListJobsRequest.regex) :
    (∃ msg' entries, serveListJobs regex localTime m msg = some (true, msg', m) ∧
      Selection m.scheduleState regex msg.getRequest.getListJobsRequest.regex entries ∧
      Shows localTime entries msg'.getReply.returnMsg) ↔
    (∀ id, id ∉ m.scheduleState.jobs) ∨
      ∃ id job, m.scheduleState.jobOf id = some job ∧ Selects regex msg.getRequest.getListJobsRequest.regex id := by
  obtain ⟨reply, served, text⟩ := serveListJobs_eq localTime m usable
  generalize msg.getRequest.getListJobsRequest.regex = pattern at *
  have computed := selection_selectedJobs searchAny pattern m.scheduleState
  have part : m.scheduleState.getAllJobs = [] → selectedJobs regex pattern m.scheduleState = [] := by
    intro none
    rw [selectedJobs, none, List.filter_nil]
  have shown := shows_addJobsToReply_iff localTime part
  rw [← text, getAllJobs_eq_nil] at shown
  constructor
  · rintro ⟨msg', entries, served', selection, shows⟩
    obtain rfl : reply = msg' := by simpa using served.symm.trans served'
    by_contra neither
    obtain ⟨stored, unselected⟩ := not_or.1 neither
    have same : entries = selectedJobs regex pattern m.scheduleState := by
      rw [selection.eq_nil_iff.2 unselected, computed.eq_nil_iff.2 unselected]
    rcases shown.1 (same ▸ shows) with empty | some
    · exact stored empty
    · exact some (computed.eq_nil_iff.2 unselected)
  · intro fine
    refine ⟨reply, _, served, computed, shown.2 (fine.imp_right fun selected => ?_)⟩
    exact fun none => computed.eq_nil_iff.1 none selected

/-- One job, and a request without a pattern. -/
theorem list_shows_foo :
    let regex : RegexEngine := ⟨fun _ => true, fun id pattern => pattern = ".*" ∨ id = pattern, rfl⟩
    let m := (scheduleJob ((∅ : Limits).insert "OST_a" 100) (fun _ => 0) .empty
      ⟨.INITIALIZED, "foo", 0, 10, ["OST_a"], 42⟩).2
    let msg : Message := ⟨.REQUEST, some (.request ⟨.LISTJOBS, none⟩)⟩
    ∃ msg' entries, serveListJobs regex (fun _ => "") m msg = some (true, msg', m) ∧
      Selection m.scheduleState regex "" entries ∧ Shows (fun _ => "") entries msg'.getReply.returnMsg := by
  intro regex m msg
  have stored : (m.scheduleState.jobOf "foo").isSome := by decide +kernel
  obtain ⟨job, stored⟩ := Option.isSome_iff_exists.1 stored
  exact (list_shows_matches_iff regex (fun _ => "") m msg (fun _ => by simp [regex]) (Or.inl rfl)).2
    (Or.inr ⟨"foo", job, stored, Or.inl rfl⟩)

/-- One job, and a pattern that does not match it: the reply is empty. -/
theorem no_match_shows_nothing :
    let regex : RegexEngine := ⟨fun _ => true, fun id pattern => pattern = ".*" ∨ id = pattern, rfl⟩
    let m := (scheduleJob ((∅ : Limits).insert "OST_a" 100) (fun _ => 0) .empty
      ⟨.INITIALIZED, "foo", 0, 10, ["OST_a"], 42⟩).2
    let msg : Message := ⟨.REQUEST, some (.request ⟨.LISTJOBS, some (.listJobsRequest ⟨"bar"⟩)⟩)⟩
    (serveListJobs regex (fun _ => "") m msg).map (fun served => served.2.1.getReply.returnMsg) = some "" ∧
      ¬ ∃ msg' entries, serveListJobs regex (fun _ => "") m msg = some (true, msg', m) ∧
        Selection m.scheduleState regex "bar" entries ∧ Shows (fun _ => "") entries msg'.getReply.returnMsg := by
  intro regex m msg
  have empty : (serveListJobs regex (fun _ => "") m msg).map (fun served => served.2.1.getReply.returnMsg) = some "" := by
    decide +kernel
  have others : m.scheduleState.getAllJobs.all (fun kv => kv.1 ≠ "bar") = true := by decide +kernel
  refine ⟨empty, ?_⟩
  rintro ⟨msg', entries, served, selection, shows⟩
  rw [served] at empty
  have text : msg'.getReply.returnMsg = "" := Option.some.inj empty
  have none : entries = [] := by
    rw [selection.eq_nil_iff]
    rintro ⟨id, job, stored, selected⟩
    have other : id ≠ "bar" := by simpa using List.all_eq_true.1 others (id, job) (mem_getAllJobs.2 stored)
    simp [Selects, regex, other] at selected
  rw [text] at shows
  have matched := shows.noMatches.2 none
  revert matched
  decide

end QosPlanner
