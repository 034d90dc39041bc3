import QosPlanner.Map.InsertAll
import QosPlanner.Run.Always
import QosPlanner.Lustre.Parsers
import QosPlanner.Scheduler.DynWorkloads

/-!
# The cluster state

`MemoryClusterState` (`src/common/ClusterState.cpp`) keeps a workload for each OST. It has
two writers: `UpdateNode` files a workload under the name it is given, and `Update`, which
asks Lustre for the OSTs, files one under the number of each OST that carries its uuid. Of
the readers `getOstState` looks at what a workload is filed under, and `GetOSTList` at the
name it carries. They agree as long as the two are the same.
-/

namespace QosPlanner
set_option autoImplicit false

open Lustre

namespace ClusterState

/-- `default_rpc_rate_` -/
def defaultRpcRate : UInt32 := 500

/-- `GetOSTList` -/
def getOSTList (state : ClusterState) : List String := state.toList.map fun (_, nodeState) => nodeState.ost

/-- `Update`, with the answer of `GetOstList`: the result, and the state after the call. -/
def update (state : ClusterState) (getOstList : Bool × List GetOstsResults) : Bool × ClusterState :=
  match getOstList with
  | (false, _) => (false, state)
  | (true, r) => (true, Map.insertAll (·.number) (fun it => ⟨it.uuid, 0, defaultRpcRate⟩) state r)

/-- `UpdateNode` -/
def updateNode (state : ClusterState) (name : Ost) (nodeState : OSTWorkload) : ClusterState :=
  state.insert name nodeState

/-- The calls that write. `UpdateNode` is given the name that its workload carries. -/
inductive Call where
  | update (getOstList : Bool × List GetOstsResults)
  | updateNode (name : Ost) (nodeState : OSTWorkload) (named : name = nodeState.ost)

/-- The state after a call. -/
def Call.apply (state : ClusterState) : Call → ClusterState
  | .update getOstList => (state.update getOstList).2
  | .updateNode name nodeState _ => state.updateNode name nodeState

/-- The ids that `GetOSTList` hands out are those that `getOstState` accepts, and a workload
carries the id that it is asked for under. -/
structure Usable (state : ClusterState) : Prop where
  accepted : ∀ id ∈ state.getOSTList, ∃ nodeState, state.getOstState id = some nodeState ∧ nodeState.ost = id
  listed : ∀ id nodeState, state.getOstState id = some nodeState → id ∈ state.getOSTList

/-- An update files each workload that stays under the name it carries: of the results with
a number, the last one has the number as its uuid too. -/
def KeepsNames : Call → Prop
  | .update (false, _) => True
  | .update (true, r) => ∀ number it, Map.lastWith (·.number) r number = some it → it.uuid = number
  | .updateNode _ _ _ => True

theorem mem_getOSTList {state : ClusterState} {id : String} :
    id ∈ state.getOSTList ↔ ∃ name nodeState, state.getOstState name = some nodeState ∧ nodeState.ost = id := by
  simp only [getOSTList, List.mem_map, Prod.exists, Std.ExtTreeMap.mem_toList_iff_getElem?_eq_some]
  rfl

/-- Both readers agree iff every workload carries the name it is filed under. -/
theorem usable_iff (state : ClusterState) :
    Usable state ↔ ∀ name nodeState, state.getOstState name = some nodeState → nodeState.ost = name := by
  constructor
  · intro usable name nodeState filed
    obtain ⟨other, found, carries⟩ := usable.accepted name (usable.listed name nodeState filed)
    rw [filed] at found
    cases found
    exact carries
  · intro named
    refine ⟨fun id handedOut => ?_, fun id nodeState filed => ?_⟩
    · obtain ⟨name, nodeState, filed, rfl⟩ := mem_getOSTList.1 handedOut
      have same := named name nodeState filed
      exact ⟨nodeState, by rw [same, filed], rfl⟩
    · exact mem_getOSTList.2 ⟨id, nodeState, filed, named id nodeState filed⟩

/-- **After an update** an OST of the answer has a new workload. -/
theorem getOstState_update (state : ClusterState) (r : List GetOstsResults) (name : Ost) :
    (state.update (true, r)).2.getOstState name =
      ((Map.lastWith (·.number) r name).map fun it => ⟨it.uuid, 0, defaultRpcRate⟩).or (state.getOstState name) :=
  Map.getElem?_insertAll _ _ state r name

theorem getOstState_updateNode (state : ClusterState) (name other : Ost) (nodeState : OSTWorkload) :
    (state.updateNode name nodeState).getOstState other =
      if name = other then some nodeState else state.getOstState other := by
  simp [updateNode, getOstState, Std.ExtTreeMap.getElem?_insert]

/-- One call leaves the readers in agreement iff it keeps the names. -/
theorem usable_apply_iff {state : ClusterState} (call : Call) (usable : Usable state) :
    Usable (call.apply state) ↔ KeepsNames call := by
  rw [usable_iff] at usable ⊢
  match call with
  | .update (false, _) => exact iff_of_true usable trivial
  | .update (true, r) =>
    simp only [Call.apply, getOstState_update, KeepsNames]
    constructor
    · intro named number it last
      exact named number ⟨it.uuid, 0, defaultRpcRate⟩ (by simp [last])
    · intro keeps name nodeState filed
      cases last : Map.lastWith (·.number) r name with
      | none => exact usable name nodeState (by simpa [last] using filed)
      | some it =>
        rw [last] at filed
        cases filed
        exact keeps name it last
  | .updateNode name nodeState named =>
    refine iff_of_true (fun other found filed => ?_) trivial
    rw [Call.apply, getOstState_updateNode] at filed
    split at filed
    · rename_i same
      cases filed
      rw [← named, same]
    · exact usable other found filed

/-- **When the ids are usable.** Over any sequence of writing calls on an empty cluster state,
the ids handed out are those accepted, each with its own workload, in every state reached iff
every call keeps the names. -/
theorem ids_usable_iff (calls : List Call) :
    Run.Always Call.apply Usable ∅ calls ↔ ∀ call ∈ calls, KeepsNames call := by
  have empty : Usable ∅ := by simp [usable_iff, getOstState]
  have exact : Run.Always Call.apply Usable ∅ calls ↔ Run.EachStep Call.apply (fun _ call => KeepsNames call) ∅ calls :=
    Run.always_iff_eachStep (I := fun _ => True) (fun _ _ _ => trivial)
      (fun _ call _ usable => usable_apply_iff call usable) trivial empty
  exact exact.trans Run.eachStep_const_iff

/-- The uuid that one update hands out is no id. -/
theorem uuid_not_accepted :
    ¬ Run.Always Call.apply Usable ∅ [.update (true, [⟨"0", "lustret4-OST0000_UUID", "ACTIVE"⟩])] := by
  rintro ⟨-, usable⟩
  have handedOut : "lustret4-OST0000_UUID" ∈ (update ∅ (true, [⟨"0", "lustret4-OST0000_UUID", "ACTIVE"⟩])).2.getOSTList :=
    mem_getOSTList.2 ⟨"0", _, getOstState_update _ _ _, rfl⟩
  obtain ⟨nodeState, accepted, -⟩ := usable.accepted _ handedOut
  rw [Call.apply, getOstState_update] at accepted
  cases accepted

end ClusterState

end QosPlanner
