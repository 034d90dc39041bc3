import QosPlanner.Client.StorageReqParser
import QosPlanner.Rpc.Message
import QosPlanner.Text.Fields

/-!
# Building a reserve request

`ReserveRequestBuilder` (`src/client/ReserveRequestBuilder.cpp`) splits the files of a
reservation at the commas. They come from the command line, or from `StorageReqParser`,
which has joined the entries of a JSON array; an entry that contains a comma is then
split as well.
-/

namespace QosPlanner
set_option autoImplicit false

open Json Rpc

/-- `mutable_resourcerequest()` for a change of the resource request. -/
def Rpc.Request.modifyResourceRequest (request : Request) (change : ResourceRequest → ResourceRequest) : Request :=
  { request with rt := some (.resourceRequest (change request.getResourceRequest)) }

/-- `add_files` -/
def Rpc.ResourceRequest.addFiles (request : ResourceRequest) (file : String) : ResourceRequest :=
  { request with files := request.files ++ [file] }

/-- A request as its constructor leaves it. -/
def Rpc.Request.fresh : Request := ⟨.INVALID, none⟩

namespace ReserveRequestBuilder

/-- `addFilenames`. -/
def addFilenames (filenames : String) (request : Request) : Request :=
  if filenames.isEmpty then request.modifyResourceRequest fun resource => resource
  else if ',' ∉ filenames.toList then request.modifyResourceRequest fun resource => resource.addFiles filenames
  else (Text.fields ',' filenames.toList).foldl
    (fun request fname => request.modifyResourceRequest fun resource => resource.addFiles (String.ofList fname)) request

/-- `BuildRequest`. -/
def buildRequest (id filenames : String) (throughput durationSec : Int32) (request : Request) : Bool × Request :=
  if durationSec ≤ 0 then (false, request)
  else
    let request := { request with type := .RESERVE }
    let request := request.modifyResourceRequest fun resource => { resource with id }
    let request := request.modifyResourceRequest fun resource => { resource with throughputMB := throughput }
    let request := request.modifyResourceRequest fun resource => { resource with durationSec := durationSec.toInt64 }
    (true, addFilenames filenames request)

/-! ## The files of the request -/

/-- The files that are added for the names. -/
def filesOf (filenames : String) : List String :=
  if filenames.isEmpty then []
  else if ',' ∉ filenames.toList then [filenames]
  else (Text.fields ',' filenames.toList).map String.ofList

/-- Adding file after file. -/
theorem foldl_addFiles (fnames : List (List Char)) (type : RequestType) (resource : ResourceRequest) :
    fnames.foldl (fun request fname =>
        Request.modifyResourceRequest request fun resource => resource.addFiles (String.ofList fname))
      ⟨type, some (.resourceRequest resource)⟩ =
      ⟨type, some (.resourceRequest { resource with files := resource.files ++ fnames.map String.ofList })⟩ := by
  induction fnames generalizing resource with
  | nil => simp
  | cons fname rest ih =>
    rw [List.foldl_cons]
    exact (ih _).trans (by simp [ResourceRequest.addFiles, Request.getResourceRequest])

theorem addFilenames_eq (filenames : String) (type : RequestType) (resource : ResourceRequest) :
    addFilenames filenames ⟨type, some (.resourceRequest resource)⟩ =
      ⟨type, some (.resourceRequest { resource with files := resource.files ++ filesOf filenames })⟩ := by
  unfold addFilenames filesOf
  split
  · simp [Request.modifyResourceRequest, Request.getResourceRequest]
  · split
    · rfl
    · exact foldl_addFiles _ type resource

/-- **The request that is built**, for a positive duration. -/
theorem buildRequest_fresh (id filenames : String) (throughput durationSec : Int32) :
    buildRequest id filenames throughput durationSec .fresh =
      if durationSec ≤ 0 then (false, .fresh)
      else (true, ⟨.RESERVE,
        some (.resourceRequest ⟨id, throughput, 0, durationSec.toInt64, filesOf filenames⟩)⟩) := by
  unfold buildRequest
  split
  · rfl
  · exact congrArg (Prod.mk true) (addFilenames_eq filenames .RESERVE _)

/-- The names of a list, joined by commas and split again. -/
theorem filesOf_intercalate {names : List String} (nonempty : ∀ name ∈ names, name ≠ "")
    (whole : ∀ name ∈ names, ',' ∉ name.toList) : filesOf (",".intercalate names) = names := by
  rcases names with _ | ⟨name, _ | ⟨next, rest⟩⟩
  · rfl
  · have some : name.isEmpty = false := by simpa using nonempty name List.mem_cons_self
    rw [String.intercalate_singleton, filesOf, some, if_neg Bool.false_ne_true, if_pos (whole name List.mem_cons_self)]
  · have text : (",".intercalate (name :: next :: rest)).toList =
        List.intercalate [','] ((name :: next :: rest).map String.toList) := String.toList_intercalate
    have comma : ',' ∈ (",".intercalate (name :: next :: rest)).toList := by
      rw [text, List.map_cons, List.map_cons, List.intercalate_cons_cons]
      simp
    have some : (",".intercalate (name :: next :: rest)).isEmpty = false := by
      by_contra empty
      rw [Bool.not_eq_false, String.isEmpty_iff] at empty
      rw [empty] at comma
      cases comma
    have read : Text.fields ',' (List.intercalate [','] ((name :: next :: rest).map String.toList)) =
        (name :: next :: rest).map String.toList := by
      apply Text.fields_intercalate
      · intro chars member
        obtain ⟨file, listed, rfl⟩ := List.mem_map.1 member
        exact whole file listed
      · rw [List.getLast?_map]
        intro last
        obtain ⟨file, isLast, empty⟩ := Option.map_eq_some_iff.1 last
        exact nonempty file (List.mem_of_getLast? isLast) (String.toList_eq_nil_iff.1 empty)
    rw [filesOf, some, if_neg Bool.false_ne_true, if_neg (not_not.2 comma), text, read, List.map_map]
    exact List.map_id'' (fun file => String.ofList_toList) _

/-- No file of a request contains a comma. -/
theorem not_mem_of_mem_filesOf {filenames file : String} (member : file ∈ filesOf filenames) : ',' ∉ file.toList := by
  unfold filesOf at member
  split at member
  · cases member
  · split at member
    · rename_i whole
      rwa [List.mem_singleton.1 member]
    · obtain ⟨fname, field, rfl⟩ := List.mem_map.1 member
      rw [String.toList_ofList]
      exact Text.not_mem_of_mem_fields field

/-- **When file lists survive the trip.** The request built from what the parser joined
holds exactly the files of the document iff none of them contains a comma. -/
theorem files_survive_iff (undefined : ℚ → Int32) (p p' : StorageReqParser) (j : Value) (names : List String)
    (array : j.find "read_files" = some (.array (names.map .string))) (nonempty : ∀ name ∈ names, name ≠ "")
    (parsed : p.parse undefined (some j) = .ok (true, p'))
    (id : JobId) (throughput durationSec : Int32) (positive : 0 < durationSec) :
    let built := buildRequest id p'.readFiles throughput durationSec .fresh
    (built.1 = true ∧ built.2.getResourceRequest.files = names) ↔ ∀ name ∈ names, ',' ∉ name.toList := by
  intro built
  have joined : p'.readFiles = ",".intercalate names := by
    obtain ⟨-, -, read⟩ := StorageReqParser.parse_some_iff.1 parsed
    rw [StorageReqParser.parseReadFiles, array] at read
    exact Except.ok.inj (read.symm.trans (StorageReqParser.joinFiles_names names))
  have request : built = _ := buildRequest_fresh id p'.readFiles throughput durationSec
  rw [if_neg (Int32.not_le.2 positive), joined] at request
  rw [request]
  constructor
  · rintro ⟨-, same⟩ name member
    change filesOf (",".intercalate names) = names at same
    rw [← same] at member
    exact not_mem_of_mem_filesOf member
  · intro whole
    exact ⟨rfl, filesOf_intercalate nonempty whole⟩

/-- Two files, for 42 MB/s. -/
theorem files_survive_for_two :
    let j : Value := .object [("read_files", .array [.string "/a", .string "/b"]), ("throughput_mbs", .integer 42)]
    let built := buildRequest "foo" "/a,/b" 42 10 .fresh
    (StorageReqParser.fresh 0).parse (fun _ => 0) (some j) = .ok (true, ⟨"/a,/b", 42⟩) ∧
      built.1 = true ∧ built.2.getResourceRequest.files = ["/a", "/b"] := by
  intro j built
  have parsed : (StorageReqParser.fresh 0).parse (fun _ => 0) (some j) = .ok (true, ⟨"/a,/b", 42⟩) := by rfl
  exact ⟨parsed, (files_survive_iff (fun _ => 0) (.fresh 0) ⟨"/a,/b", 42⟩ j ["/a", "/b"] rfl (by decide)
    parsed "foo" 42 10 (by decide)).2 (by decide)⟩

/-- A file with a comma in its name becomes two. -/
theorem comma_splits_file :
    let j : Value := .object [("read_files", .array [.string "/a,b"]), ("throughput_mbs", .integer 42)]
    (StorageReqParser.fresh 0).parse (fun _ => 0) (some j) = .ok (true, ⟨"/a,b", 42⟩) ∧
      (buildRequest "foo" "/a,b" 42 10 .fresh).2.getResourceRequest.files = ["/a", "b"] := by
  refine ⟨rfl, ?_⟩
  decide

end ReserveRequestBuilder

end QosPlanner
