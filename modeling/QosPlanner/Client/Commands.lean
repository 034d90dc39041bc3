import QosPlanner.Client.ReserveRequestBuilder
import QosPlanner.Client.Resends

/-!
# The commands of the client

`Client` (`src/client/Client.cpp`) reserves, removes and lists. Each command builds a
message and sends it through `SendAndReceiveRequest`; what happens to the reply differs.
`ListReservations` takes its result from the reply, the other two return true for any.

`TryReserveResources` checks its arguments in `IsInputValid`, which looks at the files
where it means the id, in the builder, which looks at the duration, and nowhere for the
throughput.
-/

namespace QosPlanner
set_option autoImplicit false

open Json Rpc

/-- `has_reply()` -/
def Rpc.Message.hasReply (msg : Message) : Bool :=
  match msg.rq with
  | some (.reply _) => true
  | _ => false

/-- A message as its constructor leaves it. -/
def Rpc.Message.fresh : Message := ⟨.REQUEST, none⟩

/-- What a command of the client meets. -/
structure ClientEnv where
  /-- The requirements file at a path: `none` if it cannot be opened, and what the JSON
  parser makes of it otherwise. -/
  storageReqFile : String → Option (Option Value)
  /-- A floating-point number outside the range of `int`, converted to `int`. -/
  undefined : ℚ → Int32
  /-- What the memory of the requirements parser's throughput holds. -/
  garbage : Int32
  serializeAsString : Message → List UInt8
  parseFromString : List UInt8 → Received Message
  /-- What the polls of the command bring. -/
  polls : Nat → Option (List UInt8)

/-- A call of a command: the message that it sends, and its result. -/
structure ClientCall where
  request : Option Message
  result : Except Exception Bool

/-- `RemoveReservationRequestBuilder::BuildRequest` -/
def RemoveReservationRequestBuilder.buildRequest (id : JobId) (request : Request) : Bool × Request :=
  (true, { request with
    type := .DELETE
    rt := some (.deleteRequest { request.getDeleteRequest with id := request.getDeleteRequest.id ++ [id] }) })

/-- `ListReservationsRequestBuilder::BuildRequest` -/
def ListReservationsRequestBuilder.buildRequest (request : Request) : Bool × Request :=
  (true, { request with type := .LISTJOBS })

namespace Client

/-- `TryParseReqFile`: the files and the throughput to use; `none` is a false result. -/
def tryParseReqFile (env : ClientEnv) (filename : String) : Except Exception (Option (String × Int32)) :=
  match env.storageReqFile filename with
  | none => .ok none
  | some doc => do
    let (ok, p) ← (StorageReqParser.fresh env.garbage).parse env.undefined doc
    if !ok then .ok none else .ok (some (p.readFiles, p.throughputMbs))

/-- `IsInputValid`. -/
def isInputValid (_id filenames : String) (durationSec : Int32) : Bool :=
  -- the message of this branch is "no id given"
  if filenames.isEmpty then false
  else if filenames.isEmpty then false
  else if durationSec < 0 then false
  else true

/-- `TryBuildReserveMessage`. -/
def tryBuildReserveMessage (id filenames : String) (throughput durationSec : Int32) (msg : Message) : Option Message :=
  let msg := msg.setType .REQUEST
  let (ok, request) := ReserveRequestBuilder.buildRequest id filenames throughput durationSec .fresh
  if !ok then none else some (msg.modifyRequest fun _ => request)

/-- `TrySendRequestAndReceiveReply`: the reply; `none` is a false result. -/
def trySendRequestAndReceiveReply (env : ClientEnv) (request : Message) : Option (List UInt8) :=
  let call := sendAndReceiveRequest (env.serializeAsString request) env.polls
  if !call.result then none else call.reply

/-- The files and the throughput that `TryReserveResources` uses: its arguments, or those of
the requirements file. -/
def inputsToUse (env : ClientEnv) (filenames : String) (throughput : Int32) (storageReqFile : String) :
    Except Exception (Option (String × Int32)) :=
  if !storageReqFile.isEmpty then tryParseReqFile env storageReqFile else .ok (some (filenames, throughput))

/-- `TryReserveResources`. -/
def tryReserveResources (env : ClientEnv) (id filenames : String) (throughput durationSec : Int32)
    (storageReqFile : String) : ClientCall :=
  match inputsToUse env filenames throughput storageReqFile with
  | .error thrown => ⟨none, .error thrown⟩
  | .ok none => ⟨none, .ok false⟩
  | .ok (some (filenamesToUse, throughputToUse)) =>
    if !isInputValid id filenamesToUse durationSec then ⟨none, .ok false⟩
    else
      match tryBuildReserveMessage id filenamesToUse throughputToUse durationSec .fresh with
      | none => ⟨none, .ok false⟩
      | some msg =>
        match trySendRequestAndReceiveReply env msg with
        | none => ⟨some msg, .ok false⟩
        -- `ProcessReply` parses the reply and writes to the log
        | some _ => ⟨some msg, .ok true⟩

/-- `RemoveReservation`. -/
def removeReservation (env : ClientEnv) (reservationId : String) : ClientCall :=
  if reservationId.isEmpty then ⟨none, .ok false⟩
  else
    let (ok, request) := RemoveReservationRequestBuilder.buildRequest reservationId .fresh
    if !ok then ⟨none, .ok false⟩
    else
      let msg := Message.fresh.modifyRequest fun _ => request
      match trySendRequestAndReceiveReply env msg with
      | none => ⟨some msg, .ok false⟩
      | some _ => ⟨some msg, .ok true⟩

/-- `ProcessListReply`. -/
def processListReply (env : ClientEnv) (reply : List UInt8) : Bool :=
  match env.parseFromString reply with
  | .unparsable _ => false
  | .parsed msg =>
    if !msg.hasReply then false
    else if msg.getReply.rc ≠ 0 then false
    else true

/-- `ListReservations`. -/
def listReservations (env : ClientEnv) : ClientCall :=
  let (ok, request) := ListReservationsRequestBuilder.buildRequest .fresh
  if !ok then ⟨none, .ok false⟩
  else
    let msg := Message.fresh.modifyRequest fun _ => request
    match trySendRequestAndReceiveReply env msg with
    | none => ⟨some msg, .ok false⟩
    | some reply => ⟨some msg, .ok (processListReply env reply)⟩

end Client

/-! ## What the commands do -/

/-- The reply that arrives before the retries are used up. -/
def ClientEnv.reply (env : ClientEnv) : Option (List UInt8) := [0, 1, 2].findSome? env.polls

/-- The message that deletes an id. -/
def deleteMessage (id : JobId) : Message := ⟨.REQUEST, some (.request ⟨.DELETE, some (.deleteRequest ⟨[id], false⟩)⟩)⟩

/-- The message that lists. -/
def listMessage : Message := ⟨.REQUEST, some (.request ⟨.LISTJOBS, none⟩)⟩

namespace Client

section Calls

variable (env : ClientEnv)

theorem trySendRequestAndReceiveReply_eq (request : Message) :
    trySendRequestAndReceiveReply env request = env.reply := by
  obtain ⟨reply, result⟩ := pollLoop_result (cString (env.serializeAsString request)) env.polls 2 0
  have same : (pollLoop (cString (env.serializeAsString request)) env.polls 2 0).reply = env.reply := reply
  have call : trySendRequestAndReceiveReply env request =
      if !(pollLoop (cString (env.serializeAsString request)) env.polls 2 0).result then none
      else (pollLoop (cString (env.serializeAsString request)) env.polls 2 0).reply := rfl
  rw [call, result, same]
  cases env.reply <;> rfl

/-- `RemoveReservation` sends for any id but the empty one, and any reply makes it true. -/
theorem removeReservation_eq (id : JobId) :
    removeReservation env id =
      if id = "" then ⟨none, .ok false⟩ else ⟨some (deleteMessage id), .ok env.reply.isSome⟩ := by
  have call : removeReservation env id =
      if id.isEmpty then ⟨none, .ok false⟩
      else match trySendRequestAndReceiveReply env (deleteMessage id) with
        | none => ⟨some (deleteMessage id), .ok false⟩
        | some _ => ⟨some (deleteMessage id), .ok true⟩ := rfl
  rw [call, trySendRequestAndReceiveReply_eq]
  simp only [String.isEmpty_iff]
  cases env.reply <;> rfl

/-- `ListReservations` always sends, and its result is the verdict on the reply. -/
theorem listReservations_eq :
    listReservations env = ⟨some listMessage, .ok (env.reply.any (processListReply env))⟩ := by
  have call : listReservations env =
      match trySendRequestAndReceiveReply env listMessage with
      | none => ⟨some listMessage, .ok false⟩
      | some reply => ⟨some listMessage, .ok (processListReply env reply)⟩ := rfl
  rw [call, trySendRequestAndReceiveReply_eq]
  cases env.reply <;> rfl

/-- The message for inputs that pass the checks. -/
theorem tryBuildReserveMessage_eq (id filenames : String) (throughput durationSec : Int32) :
    tryBuildReserveMessage id filenames throughput durationSec .fresh =
      if durationSec ≤ 0 then none
      else some (reserveMessage
        ⟨id, throughput, 0, durationSec.toInt64, ReserveRequestBuilder.filesOf filenames⟩) := by
  rw [tryBuildReserveMessage, ReserveRequestBuilder.buildRequest_fresh]
  by_cases none : durationSec ≤ 0
  · rw [if_pos none, if_pos none]
    rfl
  · rw [if_neg none, if_neg none]
    rfl

/-- **`TryReserveResources`** sends iff there are files to use and the duration is positive,
and any reply makes it true. -/
theorem tryReserveResources_eq (id filenames : String) (throughput durationSec : Int32) (storageReqFile : String) :
    tryReserveResources env id filenames throughput durationSec storageReqFile =
      match inputsToUse env filenames throughput storageReqFile with
      | .error thrown => ⟨none, .error thrown⟩
      | .ok none => ⟨none, .ok false⟩
      | .ok (some (files, mbs)) =>
        if files = "" ∨ durationSec ≤ 0 then ⟨none, .ok false⟩
        else ⟨some (reserveMessage ⟨id, mbs, 0, durationSec.toInt64, ReserveRequestBuilder.filesOf files⟩),
          .ok env.reply.isSome⟩ := by
  rw [tryReserveResources]
  rcases inputsToUse env filenames throughput storageReqFile with thrown | (_ | ⟨files, mbs⟩)
  · rfl
  · rfl
  · by_cases refused : files = "" ∨ durationSec ≤ 0
    · have valid : isInputValid id files durationSec = false ∨
          tryBuildReserveMessage id files mbs durationSec .fresh = none := by
        rcases refused with empty | none
        · exact Or.inl (by simp [isInputValid, empty])
        · exact Or.inr (by rw [tryBuildReserveMessage_eq, if_pos none])
      simp only [if_pos refused]
      rcases valid with invalid | unbuilt
      · simp [invalid]
      · simp [unbuilt]
    · obtain ⟨some, positive⟩ := not_or.1 refused
      have valid : isInputValid id files durationSec = true := by
        have notNegative : ¬ durationSec < 0 := fun negative => positive (Int32.le_of_lt negative)
        simp [isInputValid, some, notNegative]
      simp only [if_neg refused, valid, tryBuildReserveMessage_eq, if_neg positive, trySendRequestAndReceiveReply_eq]
      cases env.reply <;> rfl

end Calls

end Client

/-! ## The verdict of the server -/

/-- The commands. -/
inductive ClientCommand where
  | reserve (id filenames : String) (throughput durationSec : Int32) (storageReqFile : String)
  | remove (reservationId : String)
  | list
  deriving DecidableEq

/-- The call of a command. -/
def ClientCommand.run (env : ClientEnv) : ClientCommand → ClientCall
  | .reserve id filenames throughput durationSec storageReqFile =>
    Client.tryReserveResources env id filenames throughput durationSec storageReqFile
  | .remove reservationId => Client.removeReservation env reservationId
  | .list => Client.listReservations env

/-- A reply has arrived and parses, and its reply part has the return code zero. -/
def ClientEnv.GoodReply (env : ClientEnv) : Prop :=
  ∃ bytes msg reply, env.reply = some bytes ∧ env.parseFromString bytes = .parsed msg ∧
    msg.rq = some (.reply reply) ∧ reply.rc = 0

/-- A list command reports the verdict. -/
theorem any_processListReply_iff (env : ClientEnv) :
    env.reply.any (Client.processListReply env) = true ↔ env.GoodReply := by
  cases arrived : env.reply with
  | none => simp [ClientEnv.GoodReply, arrived]
  | some bytes =>
    rw [Option.any_some, Client.processListReply]
    constructor
    · intro verdict
      split at verdict
      · cases verdict
      · rename_i msg parsed
        obtain ⟨type, _ | (request | reply)⟩ := msg
        · cases verdict
        · cases verdict
        · refine ⟨bytes, _, reply, arrived, parsed, rfl, ?_⟩
          by_contra failed
          change (if reply.rc ≠ 0 then false else true) = true at verdict
          rw [if_pos failed] at verdict
          cases verdict
    · rintro ⟨bytes', msg, reply, same, parsed, part, zero⟩
      rw [arrived, Option.some.injEq] at same
      rw [same, parsed]
      simp [Message.hasReply, Message.getReply, part, zero]

/-- The two other commands report that a reply has arrived. -/
theorem result_of_not_list {env : ClientEnv} {command : ClientCommand} (other : command ≠ .list)
    (sends : (command.run env).request.isSome) : (command.run env).result = .ok env.reply.isSome := by
  cases command with
  | reserve id filenames throughput durationSec storageReqFile =>
    rw [ClientCommand.run, Client.tryReserveResources_eq] at sends ⊢
    generalize Client.inputsToUse env filenames throughput storageReqFile = used at sends ⊢
    rcases used with thrown | (_ | ⟨files, mbs⟩)
    · cases sends
    · cases sends
    · dsimp only at sends ⊢
      split at sends
      · cases sends
      · rename_i passes
        rw [if_neg passes]
  | remove id =>
    rw [ClientCommand.run, Client.removeReservation_eq] at sends ⊢
    split at sends
    · cases sends
    · rename_i some
      rw [if_neg some]
  | list => exact absurd rfl other

/-- **When a command reports the verdict of the server.** A command that gets as far as
sending returns true exactly for a good reply iff it is the list command, or no reply
arrives, or the reply is good. -/
theorem verdict_reported_iff (env : ClientEnv) (command : ClientCommand)
    (sends : (command.run env).request.isSome) :
    ((command.run env).result = .ok true ↔ env.GoodReply) ↔
      command = .list ∨ env.reply = none ∨ env.GoodReply := by
  by_cases list : command = .list
  · subst list
    refine iff_of_true ?_ (Or.inl rfl)
    rw [ClientCommand.run, Client.listReservations_eq, Except.ok.injEq, any_processListReply_iff]
  · rw [result_of_not_list list sends, Except.ok.injEq, Option.isSome_iff_ne_none]
    by_cases arrived : env.reply = none
    · refine iff_of_true (iff_of_false (not_not.2 arrived) ?_) (Or.inr (Or.inl arrived))
      rintro ⟨bytes, msg, reply, some, -⟩
      rw [arrived] at some
      cases some
    · rw [iff_true_left arrived]
      simp [list, arrived]

/-- A reply with the return code zero, serialized. -/
def acceptedBytes : List UInt8 := [0x08, 0x01, 0x1a, 0x00]

/-- A reply with the return code -1, serialized. -/
def refusedBytes : List UInt8 :=
  [0x08, 0x01, 0x1a, 0x0b, 0x08, 0xff, 0xff, 0xff, 0xff, 0xff, 0xff, 0xff, 0xff, 0xff, 0x01]

/-- A client whose first poll brings the bytes. -/
def answeredWith (bytes : List UInt8) : ClientEnv where
  storageReqFile _ := none
  undefined _ := 0
  garbage := 0
  serializeAsString _ := fooBytes
  parseFromString bytes :=
    if bytes = acceptedBytes then .parsed ⟨.REPLY, some (.reply ⟨0, ""⟩)⟩
    else if bytes = refusedBytes then .parsed ⟨.REPLY, some (.reply ⟨-1, ""⟩)⟩
    else .unparsable ⟨.REQUEST, none⟩
  polls _ := some bytes

/-- The server accepts the removal of `foo`. -/
theorem verdict_reported_for_foo :
    ((ClientCommand.remove "foo").run (answeredWith acceptedBytes)).result = .ok true ↔
      (answeredWith acceptedBytes).GoodReply :=
  (verdict_reported_iff (answeredWith acceptedBytes) (.remove "foo") rfl).2
    (Or.inr (Or.inr ⟨acceptedBytes, _, _, rfl, rfl, rfl, rfl⟩))

/-- The server refuses a reservation, and the answer to a removal does not parse. -/
theorem refusal_reported_as_success :
    (((ClientCommand.reserve "foo" "/data" 42 10 "").run (answeredWith refusedBytes)).result = .ok true ∧
      ¬ (answeredWith refusedBytes).GoodReply) ∧
    ((ClientCommand.remove "foo").run (answeredWith [0xff])).result = .ok true ∧
      ¬ (answeredWith [0xff]).GoodReply := by
  refine ⟨⟨rfl, ?_⟩, rfl, ?_⟩
  · rintro ⟨bytes, msg, reply, ⟨⟩, ⟨⟩, ⟨⟩, zero⟩
    revert zero
    decide
  · rintro ⟨bytes, msg, reply, ⟨⟩, ⟨⟩, -⟩

/-! ## What a reservation sends -/

/-- The request of a reservation is well formed, and its id can be deleted. -/
structure WellFormed (env : ClientEnv) (id : JobId) (msg : Message) : Prop where
  named : msg.getRequest.getResourceRequest.id = id
  idNonempty : id ≠ ""
  files : msg.getRequest.getResourceRequest.files ≠ []
  fileNames : "" ∉ msg.getRequest.getResourceRequest.files
  duration : 0 < msg.getRequest.getResourceRequest.durationSec
  throughput : 0 ≤ msg.getRequest.getResourceRequest.throughputMB
  deletes : (Client.removeReservation env id).request = some (deleteMessage id)

/-- The files have no empty name between their commas, or before the first. -/
def NoEmptyName (filenames : String) : Prop :=
  ¬ [','] <+: filenames.toList ∧ ¬ [',', ','] <:+: filenames.toList

namespace ReserveRequestBuilder

theorem filesOf_ne_nil {filenames : String} (some : filenames ≠ "") : filesOf filenames ≠ [] := by
  unfold filesOf
  rw [if_neg (by simpa using some)]
  split
  · simp
  · rw [Ne, List.map_eq_nil_iff, Text.fields_eq_nil, String.toList_eq_nil_iff]
    exact some

/-- The request has an empty name iff the files have. -/
theorem empty_not_mem_filesOf_iff {filenames : String} (some : filenames ≠ "") :
    "" ∉ filesOf filenames ↔ NoEmptyName filenames := by
  unfold filesOf
  rw [if_neg (by simpa using some)]
  split
  · rename_i whole
    refine iff_of_true (by simpa using some.symm) ⟨fun first => ?_, fun double => ?_⟩
    · exact whole (first.subset List.mem_cons_self)
    · exact whole (double.subset List.mem_cons_self)
  · rw [NoEmptyName, ← not_or, ← Text.nil_mem_fields_iff, List.mem_map, not_iff_not]
    constructor
    · rintro ⟨field, member, empty⟩
      rwa [String.ofList_eq_empty_iff.1 empty] at member
    · intro member
      exact ⟨[], member, rfl⟩

end ReserveRequestBuilder

/-- The request for inputs that pass the checks. -/
theorem wellFormed_iff (env : ClientEnv) (id files : String) (mbs durationSec : Int32) (some : files ≠ "")
    (positive : 0 < durationSec) :
    WellFormed env id (reserveMessage ⟨id, mbs, 0, durationSec.toInt64, ReserveRequestBuilder.filesOf files⟩) ↔
      id ≠ "" ∧ 0 ≤ mbs ∧ NoEmptyName files := by
  constructor
  · intro fine
    exact ⟨fine.idNonempty, fine.throughput, (ReserveRequestBuilder.empty_not_mem_filesOf_iff some).1 fine.fileNames⟩
  · rintro ⟨named, throughput, fileNames⟩
    refine ⟨rfl, named, ReserveRequestBuilder.filesOf_ne_nil some,
      (ReserveRequestBuilder.empty_not_mem_filesOf_iff some).2 fileNames, ?_, throughput, ?_⟩
    · rw [Int32.lt_iff_toInt_lt] at positive
      change 0 < durationSec.toInt64
      rw [Int64.lt_iff_toInt_lt, Int32.toInt_toInt64]
      exact positive
    · rw [Client.removeReservation_eq, if_neg named]

/-- **When a reservation is well formed.** What `TryReserveResources` sends is well formed,
and its id can be deleted, iff the id is not empty, the throughput in use is not negative
and the files in use have no empty name, unless there are no files to use or the duration
is not positive, and so nothing is sent. -/
theorem sends_well_formed_iff (env : ClientEnv) (id filenames : String) (throughput durationSec : Int32)
    (storageReqFile : String) :
    (∀ msg, (Client.tryReserveResources env id filenames throughput durationSec storageReqFile).request = some msg →
      WellFormed env id msg) ↔
    ∀ files mbs, Client.inputsToUse env filenames throughput storageReqFile = .ok (some (files, mbs)) →
      files ≠ "" → 0 < durationSec → id ≠ "" ∧ 0 ≤ mbs ∧ NoEmptyName files := by
  rw [Client.tryReserveResources_eq]
  rcases Client.inputsToUse env filenames throughput storageReqFile with thrown | (_ | ⟨files, mbs⟩)
  · simp
  · simp
  · simp only [Except.ok.injEq, Option.some.injEq, Prod.mk.injEq]
    by_cases refused : files = "" ∨ durationSec ≤ 0
    · rw [if_pos refused]
      refine iff_of_true (by simp) ?_
      rintro _ _ ⟨rfl, rfl⟩ some positive
      rcases refused with empty | none
      · exact absurd empty some
      · exact absurd none (Int32.not_le.2 positive)
    · obtain ⟨some, positive⟩ := not_or.1 refused
      rw [Int32.not_le] at positive
      rw [if_neg refused]
      constructor
      · rintro fine _ _ ⟨rfl, rfl⟩ - -
        exact (wellFormed_iff env id files mbs durationSec some positive).1 (fine _ rfl)
      · rintro fine _ ⟨⟩
        exact (wellFormed_iff env id files mbs durationSec some positive).2 (fine files mbs ⟨rfl, rfl⟩ some positive)

/-- An empty id is sent, which cannot be deleted, and so are an empty name and a negative
throughput. -/
theorem sends_malformed :
    let env := answeredWith acceptedBytes
    (∃ msg, (Client.tryReserveResources env "" "/a" 42 10 "").request = some msg ∧ ¬ WellFormed env "" msg) ∧
      (Client.removeReservation env "").request = none ∧
      (∃ msg, (Client.tryReserveResources env "foo" "/a,,/b" 42 10 "").request = some msg ∧
        ¬ WellFormed env "foo" msg) ∧
      ∃ msg, (Client.tryReserveResources env "foo" "/a" (-42) 10 "").request = some msg ∧
        ¬ WellFormed env "foo" msg := by
  refine ⟨⟨_, rfl, fun fine => ?_⟩, rfl, ⟨_, rfl, fun fine => ?_⟩, _, rfl, fun fine => ?_⟩
  · exact fine.idNonempty rfl
  · exact fine.fileNames (by decide)
  · exact absurd fine.throughput (by decide)

end QosPlanner
