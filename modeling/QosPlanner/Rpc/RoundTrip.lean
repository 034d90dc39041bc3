import QosPlanner.Rpc.MessageFormat
import QosPlanner.Text.CString

/-!
# Messages come back as they were sent

What `SerializeWithCachedSizes` writes stands for `UnsafeMergeFrom`: reading it into a
message is merging the message it was made of into that one. So an encoded message is parsed
as it was, two encodings one after the other as the one merged with the other, and an
encoding that ends before one of its zeros is not parsed.
-/

namespace QosPlanner
set_option autoImplicit false

namespace Rpc

open Protobuf

variable {lib : Library}

/-- A repeated field is appended to, value by value. -/
theorem foldl_snoc {α β : Type} (get : α → List β) (put : α → List β → α)
    (put_put : ∀ msg values more, put (put msg values) more = put msg more)
    (get_put : ∀ msg values, get (put msg values) = values) (values : List β) (msg : α) :
    values.foldl (fun msg value => put msg (get msg ++ [value])) (put msg (get msg)) = put msg (get msg ++ values) := by
  induction values using List.reverseRecOn with
  | nil => simp
  | append_singleton values value ih =>
    rw [List.foldl_append, ih, List.foldl_cons, List.foldl_nil, get_put, put_put, List.append_assoc]

theorem stringSize_mem {texts : List String} {text : String} (member : text ∈ texts) :
    (utf8 text).length ≤ (texts.map stringSize).sum := by
  have part := List.single_le_sum (by simp) _ (List.mem_map_of_mem (f := stringSize) member)
  have own : (utf8 text).length ≤ stringSize text := Nat.le_add_left _ _
  omega

/-- A value that is written unless it is the default is what is read into the default. -/
theorem written_or_default {β : Type} [DecidableEq β] (value unset : β) :
    (if value ≠ unset then value else unset) = value := by
  split
  next => rfl
  next same => exact (not_not.1 same).symm

theorem lt_of_le_limit {size : Nat} (fits : size ≤ defaultTotalBytesLimit) : size < 2 ^ 31 := by
  unfold defaultTotalBytesLimit at fits
  omega

theorem length_writeNumber (number : Int32) : (if number ≠ 0 then writeInt32 1 number else []).length =
    if number ≠ 0 then 1 + varintSize (signExtend number) else 0 := by
  rw [apply_ite List.length, length_writeInt32 (by decide), List.length_nil]

/-! ## The parts of a request -/

namespace DeleteRequest

theorem length_serialize (msg : DeleteRequest) : msg.serialize.length = msg.byteSizeLong := by
  rw [serialize, byteSizeLong, List.length_append, length_flatMap_writeString (by decide), Nat.add_comm]
  split <;> simp [length_writeBool (show OneByteTag 2 by decide)]

theorem encodes (source : DeleteRequest) (fits : source.byteSizeLong < 2 ^ 31) :
    Encodes lib format source.serialize (fun msg => msg.unsafeMergeFrom source) := by
  have ids : Encodes lib format (source.id.flatMap (writeString 1)) fun msg => { msg with id := msg.id ++ source.id } := by
    have each : ∀ id ∈ source.id, Encodes lib format (writeString 1 id) fun msg => { msg with id := msg.id ++ [id] } := by
      intro id member
      have small := stringSize_mem member
      unfold byteSizeLong at fits
      exact .string lib format (by decide : OneByteTag 1) id rfl (by omega)
    convert Encodes.flatMap each using 1
    funext msg
    exact (foldl_snoc DeleteRequest.id (fun msg id => { msg with id }) (fun _ _ _ => rfl) (fun _ _ => rfl) source.id
      msg).symm
  have all : Encodes lib format (if source.all then writeBool 2 source.all else [])
      fun msg => { msg with all := if source.all then source.all else msg.all } :=
    .optional (fun _ => .bool lib format (by decide : OneByteTag 2) source.all rfl) fun msg => by split <;> rfl
  exact ids.append all

theorem unsafeMergeFrom_default (source : DeleteRequest) : unsafeMergeFrom ⟨[], false⟩ source = source := by
  obtain ⟨id, all⟩ := source
  cases all <;> simp [unsafeMergeFrom]

end DeleteRequest

namespace ResourceRequest

theorem length_serialize (msg : ResourceRequest) : msg.serialize.length = msg.byteSizeLong := by
  simp only [serialize, byteSizeLong, List.length_append, apply_ite List.length, List.length_nil,
    length_writeString (show OneByteTag 1 by decide), length_writeInt32 (show OneByteTag 2 by decide),
    length_writeInt64 (show OneByteTag 3 by decide), length_writeInt64 (show OneByteTag 4 by decide),
    length_flatMap_writeString (show OneByteTag 5 by decide)]

theorem encodes (source : ResourceRequest) (fits : source.byteSizeLong < 2 ^ 31) :
    Encodes lib format source.serialize (fun msg => msg.unsafeMergeFrom source) := by
  unfold byteSizeLong at fits
  have id : Encodes lib format (if source.id ≠ "" then writeString 1 source.id else [])
      fun msg => { msg with id := if source.id ≠ "" then source.id else msg.id } := by
    refine .optional (fun written => ?_) fun msg => by split <;> rfl
    rw [if_pos written] at fits
    have own : (utf8 source.id).length ≤ stringSize source.id := Nat.le_add_left _ _
    exact .string lib format (by decide : OneByteTag 1) source.id rfl (by omega)
  have throughputMB : Encodes lib format (if source.throughputMB ≠ 0 then writeInt32 2 source.throughputMB else [])
      fun msg => { msg with
        throughputMB := if source.throughputMB ≠ 0 then source.throughputMB else msg.throughputMB } :=
    .optional (fun _ => .int32 lib format (by decide : OneByteTag 2) source.throughputMB rfl) fun msg => by
      split <;> rfl
  have tstart : Encodes lib format (if source.tstart ≠ 0 then writeInt64 3 source.tstart else [])
      fun msg => { msg with tstart := if source.tstart ≠ 0 then source.tstart else msg.tstart } :=
    .optional (fun _ => .int64 lib format (by decide : OneByteTag 3) source.tstart rfl) fun msg => by split <;> rfl
  have durationSec : Encodes lib format (if source.durationSec ≠ 0 then writeInt64 4 source.durationSec else [])
      fun msg => { msg with durationSec := if source.durationSec ≠ 0 then source.durationSec else msg.durationSec } :=
    .optional (fun _ => .int64 lib format (by decide : OneByteTag 4) source.durationSec rfl) fun msg => by
      split <;> rfl
  have files : Encodes lib format (source.files.flatMap (writeString 5))
      fun msg => { msg with files := msg.files ++ source.files } := by
    have each : ∀ file ∈ source.files, Encodes lib format (writeString 5 file)
        fun msg => { msg with files := msg.files ++ [file] } := by
      intro file member
      have small := stringSize_mem member
      exact .string lib format (by decide : OneByteTag 5) file rfl (by omega)
    convert Encodes.flatMap each using 1
    funext msg
    exact (foldl_snoc ResourceRequest.files (fun msg files => { msg with files }) (fun _ _ _ => rfl) (fun _ _ => rfl)
      source.files msg).symm
  exact id.append (throughputMB.append (tstart.append (durationSec.append files)))

theorem unsafeMergeFrom_default (source : ResourceRequest) : unsafeMergeFrom ⟨"", 0, 0, 0, []⟩ source = source := by
  rw [unsafeMergeFrom, written_or_default, written_or_default, written_or_default, written_or_default, List.nil_append]

end ResourceRequest

namespace ListJobsRequest

theorem length_serialize (msg : ListJobsRequest) : msg.serialize.length = msg.byteSizeLong := by
  simp only [serialize, byteSizeLong, apply_ite List.length, List.length_nil,
    length_writeString (show OneByteTag 1 by decide)]

theorem encodes (source : ListJobsRequest) (fits : source.byteSizeLong < 2 ^ 31) :
    Encodes lib format source.serialize (fun msg => msg.unsafeMergeFrom source) := by
  have regex : Encodes lib format (if source.regex ≠ "" then writeString 1 source.regex else [])
      fun msg => { msg with regex := if source.regex ≠ "" then source.regex else msg.regex } := by
    refine .optional (fun written => ?_) fun msg => by split <;> rfl
    rw [byteSizeLong, if_pos written] at fits
    have own : (utf8 source.regex).length ≤ stringSize source.regex := Nat.le_add_left _ _
    exact .string lib format (by decide : OneByteTag 1) source.regex rfl (by omega)
  exact regex

theorem unsafeMergeFrom_default (source : ListJobsRequest) : unsafeMergeFrom ⟨""⟩ source = source := by
  rw [unsafeMergeFrom, written_or_default]

end ListJobsRequest

/-! ## Requests and replies -/

/-- The type that is not written is the first of the enumeration. -/
theorem RequestType.Proper.written_or_first {type : RequestType} (proper : type.Proper) :
    (if type.number ≠ 0 then type else .INVALID) = type := by
  split
  next => rfl
  next zero =>
    have named : RequestType.ofNumber type.number = type := proper
    rw [← named, not_not.1 zero]
    rfl

@[inherit_doc RequestType.Proper.written_or_first]
theorem MessageType.Proper.written_or_first {type : MessageType} (proper : type.Proper) :
    (if type.number ≠ 0 then type else .REQUEST) = type := by
  split
  next => rfl
  next zero =>
    have named : MessageType.ofNumber type.number = type := proper
    rw [← named, not_not.1 zero]
    rfl

namespace Request

theorem length_serialize (msg : Request) : msg.serialize.length = msg.byteSizeLong := by
  obtain ⟨type, rt⟩ := msg
  have type_size := length_writeNumber type.number
  rcases rt with _ | request | request | request
  case none => simpa [serialize, byteSizeLong] using type_size
  case some.resourceRequest =>
    rw [serialize, byteSizeLong, List.length_append, type_size,
      length_writeMessage (by decide) request.length_serialize]
  case some.deleteRequest =>
    rw [serialize, byteSizeLong, List.length_append, type_size,
      length_writeMessage (by decide) request.length_serialize]
  case some.listJobsRequest =>
    rw [serialize, byteSizeLong, List.length_append, type_size,
      length_writeMessage (by decide) request.length_serialize]

theorem encodes (source : Request) (proper : source.type.Proper) (fits : source.byteSizeLong < 2 ^ 31) :
    Encodes lib (format lib) source.serialize (fun msg => msg.unsafeMergeFrom source) := by
  obtain ⟨type, rt⟩ := source
  have typed : Encodes lib (format lib) (if type.number ≠ 0 then writeInt32 1 type.number else [])
      fun msg => { msg with type := if type.number ≠ 0 then type else msg.type } := by
    refine .optional (fun _ => .int32 lib (format lib) (by decide : OneByteTag 1) type.number rfl) fun msg => ?_
    rw [show RequestType.ofNumber type.number = type from proper]
    split <;> rfl
  unfold byteSizeLong at fits
  rcases rt with _ | request | request | request
  case none => exact typed.append .nil
  case some.resourceRequest =>
    have inner : request.byteSizeLong ≤ lengthDelimitedSize request.byteSizeLong := Nat.le_add_left _ _
    simp only at fits
    exact typed.append (.message lib (format lib) (by decide : OneByteTag 2) rfl (request.encodes (by omega))
      request.length_serialize (by omega))
  case some.deleteRequest =>
    have inner : request.byteSizeLong ≤ lengthDelimitedSize request.byteSizeLong := Nat.le_add_left _ _
    simp only at fits
    exact typed.append (.message lib (format lib) (by decide : OneByteTag 3) rfl (request.encodes (by omega))
      request.length_serialize (by omega))
  case some.listJobsRequest =>
    have inner : request.byteSizeLong ≤ lengthDelimitedSize request.byteSizeLong := Nat.le_add_left _ _
    simp only at fits
    exact typed.append (.message lib (format lib) (by decide : OneByteTag 4) rfl (request.encodes (by omega))
      request.length_serialize (by omega))

theorem unsafeMergeFrom_default (source : Request) (proper : source.type.Proper) :
    unsafeMergeFrom ⟨.INVALID, none⟩ source = source := by
  obtain ⟨type, rt⟩ := source
  have same_type := proper.written_or_first
  rcases rt with _ | request | request | request
  case none => rw [unsafeMergeFrom, same_type]
  case some.resourceRequest =>
    simp only [unsafeMergeFrom, same_type, getResourceRequest, request.unsafeMergeFrom_default]
  case some.deleteRequest =>
    simp only [unsafeMergeFrom, same_type, getDeleteRequest, request.unsafeMergeFrom_default]
  case some.listJobsRequest =>
    simp only [unsafeMergeFrom, same_type, getListJobsRequest, request.unsafeMergeFrom_default]

end Request

namespace Reply

theorem length_serialize (msg : Reply) : msg.serialize.length = msg.byteSizeLong := by
  simp only [serialize, byteSizeLong, List.length_append, apply_ite List.length, List.length_nil,
    length_writeInt32 (show OneByteTag 1 by decide), length_writeString (show OneByteTag 3 by decide)]

theorem encodes (source : Reply) (fits : source.byteSizeLong < 2 ^ 31) :
    Encodes lib (format lib) source.serialize (fun msg => msg.unsafeMergeFrom source) := by
  unfold byteSizeLong at fits
  have rc : Encodes lib (format lib) (if source.rc ≠ 0 then writeInt32 1 source.rc else [])
      fun msg => { msg with rc := if source.rc ≠ 0 then source.rc else msg.rc } :=
    .optional (fun _ => .int32 lib (format lib) (by decide : OneByteTag 1) source.rc rfl) fun msg => by split <;> rfl
  have returnMsg : Encodes lib (format lib) (if source.returnMsg ≠ "" then writeString 3 source.returnMsg else [])
      fun msg => { msg with returnMsg := if source.returnMsg ≠ "" then source.returnMsg else msg.returnMsg } := by
    refine .optional (fun written => ?_) fun msg => by split <;> rfl
    rw [if_pos written] at fits
    have own : (utf8 source.returnMsg).length ≤ stringSize source.returnMsg := Nat.le_add_left _ _
    exact .string lib (format lib) (by decide : OneByteTag 3) source.returnMsg rfl (by omega)
  exact rc.append returnMsg

theorem unsafeMergeFrom_default (source : Reply) : unsafeMergeFrom ⟨0, ""⟩ source = source := by
  rw [unsafeMergeFrom, written_or_default, written_or_default]

end Reply

/-! ## Messages -/

namespace Message

/-- **The size of a message** is computed as it is written, so each part in it gets its own length. -/
theorem length_serialize (msg : Message) : msg.serialize.length = msg.byteSizeLong := by
  obtain ⟨type, rq⟩ := msg
  have type_size := length_writeNumber type.number
  rcases rq with _ | request | reply
  case none => simpa [serialize, byteSizeLong] using type_size
  case some.request =>
    rw [serialize, byteSizeLong, List.length_append, type_size,
      length_writeMessage (by decide) request.length_serialize]
  case some.reply =>
    rw [serialize, byteSizeLong, List.length_append, type_size, length_writeMessage (by decide) reply.length_serialize]

/-- **What is written of a message** stands for merging it. -/
theorem encodes (source : Message) (proper : source.Proper) (fits : source.byteSizeLong < 2 ^ 31) :
    Encodes lib (format lib) source.serialize (fun msg => msg.unsafeMergeFrom source) := by
  obtain ⟨type, rq⟩ := source
  obtain ⟨named, request_named⟩ := proper
  have typed : Encodes lib (format lib) (if type.number ≠ 0 then writeInt32 1 type.number else [])
      fun msg => { msg with type := if type.number ≠ 0 then type else msg.type } := by
    refine .optional (fun _ => .int32 lib (format lib) (by decide : OneByteTag 1) type.number rfl) fun msg => ?_
    rw [show MessageType.ofNumber type.number = type from named]
    split <;> rfl
  unfold byteSizeLong at fits
  rcases rq with _ | request | reply
  case none => exact typed.append .nil
  case some.request =>
    have inner : request.byteSizeLong ≤ lengthDelimitedSize request.byteSizeLong := Nat.le_add_left _ _
    simp only at fits
    exact typed.append (.message lib (format lib) (by decide : OneByteTag 2) rfl
      (request.encodes request_named (by omega)) request.length_serialize (by omega))
  case some.reply =>
    have inner : reply.byteSizeLong ≤ lengthDelimitedSize reply.byteSizeLong := Nat.le_add_left _ _
    simp only at fits
    exact typed.append (.message lib (format lib) (by decide : OneByteTag 3) rfl (reply.encodes (by omega))
      reply.length_serialize (by omega))

variable (lib) (left : List UInt8 → Message)

/-- Merging into an empty message is taking the other message. -/
theorem unsafeMergeFrom_empty {source : Message} (proper : source.Proper) : empty.unsafeMergeFrom source = source := by
  obtain ⟨type, rq⟩ := source
  obtain ⟨named, request_named⟩ := proper
  have same_type := named.written_or_first
  rcases rq with _ | request | reply
  case none => rw [unsafeMergeFrom, empty, same_type]
  case some.request =>
    simp only [unsafeMergeFrom, empty, same_type, getRequest, request.unsafeMergeFrom_default request_named]
  case some.reply =>
    simp only [unsafeMergeFrom, empty, same_type, getReply, reply.unsafeMergeFrom_default]

/-- **Round trip.** A message that is written and parsed is the same message. -/
theorem parseFromString_serialize (msg : Message) (proper : msg.Proper)
    (fits : msg.byteSizeLong ≤ defaultTotalBytesLimit) : parseFromString lib left msg.serialize = .parsed msg := by
  rw [parseFromString, (msg.encodes proper (lt_of_le_limit fits)).merge_eq, unsafeMergeFrom_empty proper]

/-- **Encodings one after the other** are parsed as the messages merged, one after the other. -/
theorem parseFromString_flatMap_serialize (msgs : List Message) (proper : ∀ msg ∈ msgs, msg.Proper)
    (fits : (msgs.flatMap serialize).length ≤ defaultTotalBytesLimit) :
    parseFromString lib left (msgs.flatMap serialize) = .parsed (msgs.foldl unsafeMergeFrom empty) := by
  have each : ∀ msg ∈ msgs, Encodes lib (format lib) msg.serialize fun into => into.unsafeMergeFrom msg := by
    intro msg member
    have part : msg.serialize.length ≤ (msgs.flatMap serialize).length := by
      rw [List.flatMap_def]
      exact (List.sublist_flatten_of_mem (List.mem_map_of_mem member)).length_le
    rw [length_serialize] at part
    exact msg.encodes (proper msg member) (lt_of_le_limit (part.trans fits))
  rw [parseFromString, (Encodes.flatMap each).merge_eq]

/-- A reply with a return code, and one with a text. -/
theorem parseFromString_two_replies :
    parseFromString ⟨fun _ _ => none, false⟩ (fun _ => empty)
        ([⟨.REPLY, some (.reply ⟨-1, ""⟩)⟩, ⟨.REPLY, some (.reply ⟨0, "foo"⟩)⟩].flatMap serialize) =
      .parsed ⟨.REPLY, some (.reply ⟨-1, "foo"⟩)⟩ :=
  parseFromString_flatMap_serialize _ _ [⟨.REPLY, some (.reply ⟨-1, ""⟩)⟩, ⟨.REPLY, some (.reply ⟨0, "foo"⟩)⟩]
    (by decide) (by decide)

/-- **A message as a C string** is parsed iff there is no zero in what is written of it. -/
theorem parseFromString_cString_serialize (msg : Message) (proper : msg.Proper)
    (fits : msg.byteSizeLong ≤ defaultTotalBytesLimit) :
    parseFromString lib left (cString msg.serialize) =
      if 0 ∈ msg.serialize then .unparsable (left (cString msg.serialize)) else .parsed msg := by
  split
  next zero =>
    have off : CutOff msg.serialize (cString msg.serialize) := cString_append_zero zero
    rw [parseFromString, (msg.encodes proper (lt_of_le_limit fits)).merge_cut off]
  next whole => rw [cString_eq_self_iff.2 whole, parseFromString_serialize lib left msg proper fits]

end Message

end Rpc

end QosPlanner
