import QosPlanner.Protobuf.Varint

/-!
# Fields of an encoded message

A message is encoded as its fields, one after the other: a tag, which is the number of the
field and how it is written, and then its value. A generated reader is a loop: it takes a
tag, and a switch on it says how the field is read into the message. After some fields it
looks for the tag that usually comes next (`ExpectTag`) and jumps there past the switch;
`Format.run_eq` says that the jumps make no difference.
-/

namespace Protobuf
set_option autoImplicit false

variable {α β : Type}

/-! ## Values -/

/-- `VARINT`, `LENGTH_DELIMITED` and `END_GROUP`. -/
def wireVarint : Nat := 0

@[inherit_doc wireVarint] def wireDelimited : Nat := 2

@[inherit_doc wireVarint] def wireEndGroup : Nat := 4

/-- A field's number and how it is written. -/
def makeTag (number wireType : Nat) : Nat := number * 8 + wireType

def writeTag (number wireType : Nat) : List UInt8 := writeVarint (makeTag number wireType).toUInt64

/-- The bytes of a string. -/
def utf8 (text : String) : List UInt8 := text.toByteArray.data.toList

/-- The value of a delimited field: the length that is passed, and the bytes. -/
def writeDelimited (size : Nat) (bytes : List UInt8) : List UInt8 := writeVarint size.toUInt64 ++ bytes

/-- A number of 32 bits is written in its sign extension to 64. -/
def signExtend (value : Int32) : UInt64 := value.toInt64.toUInt64

def writeString (number : Nat) (text : String) : List UInt8 :=
  writeTag number wireDelimited ++ writeDelimited (utf8 text).length (utf8 text)

def writeInt32 (number : Nat) (value : Int32) : List UInt8 :=
  writeTag number wireVarint ++ writeVarint (signExtend value)

def writeInt64 (number : Nat) (value : Int64) : List UInt8 :=
  writeTag number wireVarint ++ writeVarint value.toUInt64

def writeBool (number : Nat) (value : Bool) : List UInt8 :=
  writeTag number wireVarint ++ writeVarint value.toUInt64

/-- A message within the message, with the size that has been cached for it. -/
def writeMessage (number cachedSize : Nat) (bytes : List UInt8) : List UInt8 :=
  writeTag number wireDelimited ++ writeDelimited cachedSize bytes

def lengthDelimitedSize (length : Nat) : Nat := varintSize length.toUInt64 + length

def stringSize (text : String) : Nat := lengthDelimitedSize (utf8 text).length

/-- The most bytes that the library reads of one message unless it is told otherwise. -/
def defaultTotalBytesLimit : Nat := 64 * 2 ^ 20

/-- The low 32 bits of a number are the tag. -/
def readTag (bytes : List UInt8) : Option (Nat × List UInt8) :=
  (readVarint bytes).map fun (tag, rest) => (tag.toUInt32.toNat, rest)

/-- A length is an `int`, and none is negative. -/
def readLength (bytes : List UInt8) : Option (Nat × List UInt8) := do
  let (length, rest) ← readVarint bytes
  if length.toUInt32.toNat < 2 ^ 31 then some (length.toUInt32.toNat, rest) else none

/-- `ReadString`, and `VerifyUtf8String` of what has been read. -/
def readString (bytes : List UInt8) : Option (String × List UInt8) := do
  let (length, rest) ← readLength bytes
  if rest.length < length then none
  else
    let text ← String.fromUTF8? ⟨(rest.take length).toArray⟩
    some (text, rest.drop length)

def readInt32 (bytes : List UInt8) : Option (Int32 × List UInt8) :=
  (readVarint bytes).map fun (value, rest) => (value.toUInt32.toInt32, rest)

def readInt64 (bytes : List UInt8) : Option (Int64 × List UInt8) :=
  (readVarint bytes).map fun (value, rest) => (value.toInt64, rest)

def readBool (bytes : List UInt8) : Option (Bool × List UInt8) :=
  (readVarint bytes).map fun (value, rest) => (value != 0, rest)

/-! ## The loop -/

/-- What a reader leaves to the library: how a field is skipped that the message does not
have, and whether a message within the message that is longer than the rest is refused. -/
structure Library where
  skipField : Nat → List UInt8 → Option (List UInt8)
  refusesOverrun : Bool

/-- How the fields of a message are read. -/
structure Format (α : Type) where
  /-- The switch on the tag: what reading the field makes of the message and the bytes. -/
  field : Nat → Option (α → List UInt8 → Option (α × List UInt8))
  /-- The tags that are looked for after a field. -/
  expect : Nat → List Nat
  expect_tag : ∀ tag, ∀ next ∈ expect tag, 0 < next ∧ next < 128

theorem nothing_expected : ∀ _tag : Nat, ∀ next ∈ ([] : List Nat), 0 < next ∧ next < 128 := by simp

/-- The field `tag`: a part of the message is read, and put into it. -/
def readInto (read : β → List UInt8 → Option (β × List UInt8)) (part : α → β) (put : α → β → α) (msg : α)
    (bytes : List UInt8) : Option (α × List UInt8) :=
  (read (part msg) bytes).map fun (value, rest) => (put msg value, rest)

/-- The next tag: one that is expected is a byte, any other is read as a number. -/
def nextTag (expected : List Nat) (bytes : List UInt8) : Option (Nat × List UInt8) :=
  match expected.find? fun tag => bytes.head? == some tag.toUInt8 with
  | some tag => some (tag, bytes.tail)
  | none => readTag bytes

namespace Format

/-- `MergePartialFromCodedStream`, up to the end of the bytes. A tag that ends a message
otherwise (zero, the end of a group) leaves bytes behind, which fails the caller. -/
def run (lib : Library) (format : Format α) : Nat → List Nat → α → List UInt8 → Option α
  | _, _, msg, [] => some msg
  | 0, _, _, _ :: _ => none
  | fuel + 1, expected, msg, byte :: bytes => do
    let (tag, rest) ← nextTag expected (byte :: bytes)
    match format.field tag with
    | some read =>
      let (msg, rest) ← read msg rest
      run lib format fuel (format.expect tag) msg rest
    | none =>
      if tag = 0 ∨ tag % 8 = wireEndGroup then none
      else
        let rest ← lib.skipField tag rest
        run lib format fuel [] msg rest

/-- A message is merged with encoded fields. Each turn of the loop takes a byte, at least. -/
def merge (lib : Library) (format : Format α) (msg : α) (bytes : List UInt8) : Option α :=
  format.run lib bytes.length [] msg bytes

end Format

/-- `ReadMessageNoVirtual`: the message ends where its length says, or where the bytes end. -/
def readMessage (lib : Library) (merge : α → List UInt8 → Option α) (msg : α) (bytes : List UInt8) :
    Option (α × List UInt8) := do
  let (length, rest) ← readLength bytes
  if lib.refusesOverrun ∧ rest.length < length then none
  else
    let msg ← merge msg (rest.take length)
    some (msg, rest.drop length)

/-! ## Reading what was written -/

theorem writeTag_eq {number wireType : Nat} (small : makeTag number wireType < 128) :
    writeTag number wireType = [(makeTag number wireType).toUInt8] := by
  have value : (makeTag number wireType).toUInt64.toNat = makeTag number wireType := by
    simp only [Nat.toUInt64_eq, UInt64.toNat_ofNat']
    omega
  rw [writeTag, writeVarint, groups, value, if_pos small]

theorem readTag_cons {tag : Nat} (small : tag < 128) (rest : List UInt8) :
    readTag (tag.toUInt8 :: rest) = some (tag, rest) := by
  have byte := toNat_toUInt8 (show tag < 256 by omega)
  simp only [readTag, readVarint, readGroups, byte, small, if_true, Option.map_some, Nat.toUInt64_eq]
  simp
  omega

/-- An expected tag is the tag that would be read. -/
theorem nextTag_eq {expected : List Nat} (small : ∀ tag ∈ expected, 0 < tag ∧ tag < 128) (bytes : List UInt8) :
    nextTag expected bytes = readTag bytes := by
  rw [nextTag]
  split
  next tag found =>
    have member := List.mem_of_find?_eq_some found
    have head := List.find?_some found
    cases bytes with
    | nil => simp at head
    | cons byte bytes =>
      have same : byte = tag.toUInt8 := by simpa using head
      rw [same, readTag_cons (small tag member).2]
      rfl
  next => rfl

theorem readLength_writeVarint {length : Nat} (fits : length < 2 ^ 31) (rest : List UInt8) :
    readLength (writeVarint length.toUInt64 ++ rest) = some (length, rest) := by
  have value : length.toUInt64.toUInt32.toNat = length := by
    simp only [Nat.toUInt64_eq, UInt64.toNat_toUInt32, UInt64.toNat_ofNat']
    omega
  rw [readLength, readVarint_writeVarint]
  simp only [Option.bind_eq_bind, Option.bind_some, value, fits, if_true]

theorem readString_writeDelimited {text : String} (fits : (utf8 text).length < 2 ^ 31) (rest : List UInt8) :
    readString (writeDelimited (utf8 text).length (utf8 text) ++ rest) = some (text, rest) := by
  have whole : String.fromUTF8? ⟨(utf8 text).toArray⟩ = some text := by
    simp [String.fromUTF8?, utf8, text.isValidUTF8]
    rfl
  rw [writeDelimited, List.append_assoc, readString, readLength_writeVarint fits]
  simp [whole]

theorem toInt32_signExtend (value : Int32) : (signExtend value).toUInt32.toInt32 = value := by
  apply Int32.toBitVec_inj.1
  apply BitVec.eq_of_getLsbD_eq
  intro i small
  simp [signExtend, BitVec.getLsbD_signExtend, small]
  omega

theorem readInt32_writeVarint (value : Int32) (rest : List UInt8) :
    readInt32 (writeVarint (signExtend value) ++ rest) = some (value, rest) := by
  rw [readInt32, readVarint_writeVarint]
  simp only [Option.map_some, toInt32_signExtend]

theorem readInt64_writeVarint (value : Int64) (rest : List UInt8) :
    readInt64 (writeVarint value.toUInt64 ++ rest) = some (value, rest) := by
  simp [readInt64]

theorem readBool_writeVarint (value : Bool) (rest : List UInt8) :
    readBool (writeVarint value.toUInt64 ++ rest) = some (value, rest) := by
  have whole : (value.toUInt64 != 0) = value := by cases value <;> rfl
  rw [readBool, readVarint_writeVarint]
  simp only [Option.map_some, whole]

/-! ## Running over fields -/

namespace Format

variable {lib : Library} {format : Format α}

/-- **The jumps make no difference.** -/
theorem run_eq (fuel : Nat) {expected : List Nat} (small : ∀ tag ∈ expected, 0 < tag ∧ tag < 128) (msg : α)
    (bytes : List UInt8) : format.run lib fuel expected msg bytes = format.run lib fuel [] msg bytes := by
  cases bytes with
  | nil => cases fuel <;> rfl
  | cons byte bytes =>
    cases fuel with
    | zero => rfl
    | succ fuel => rw [run, run, nextTag_eq small, nextTag_eq (by simp)]

/-- **One turn**, for a field the message has. -/
theorem run_field {read : α → List UInt8 → Option (α × List UInt8)} {tag : Nat}
    (known : format.field tag = some read) (small : tag < 128) (fuel : Nat) (msg : α) (bytes : List UInt8) :
    format.run lib (fuel + 1) [] msg (tag.toUInt8 :: bytes) =
      (read msg bytes).bind fun (msg, rest) => format.run lib fuel [] msg rest := by
  rw [run, nextTag_eq (by simp), readTag_cons small]
  simp only [Option.bind_eq_bind, Option.bind_some, known]
  congr 1
  funext ⟨msg, rest⟩
  exact run_eq fuel (format.expect_tag tag) msg rest

end Format

end Protobuf
