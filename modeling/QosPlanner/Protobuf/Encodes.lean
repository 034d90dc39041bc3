import QosPlanner.Protobuf.CodedStream

/-!
# What an encoding stands for

Encoded fields stand for a change of the message they are read into. `Encodes` says so of
bytes and a change: whatever follows the bytes, the reader takes them and makes the change.
Encodings one after the other stand for the changes one after the other, so the encoding of
a message is put together from those of its fields.

`Encodes` also says that the bytes do not parse when they are cut off before a zero. No tag
is zero, so such a cut is within a field, and the value that is cut off is not read.
-/

namespace Protobuf
set_option autoImplicit false

variable {α β : Type}

/-- The bytes up to one of their zeros. -/
def CutOff (bytes cut : List UInt8) : Prop := ∃ tail, bytes = cut ++ 0 :: tail

namespace CutOff

theorem append {first second cut : List UInt8} (off : CutOff (first ++ second) cut) :
    CutOff first cut ∨ ∃ more, cut = first ++ more ∧ CutOff second more := by
  obtain ⟨tail, same⟩ := off
  rcases List.append_eq_append_iff.1 same with ⟨more, rfl, rest⟩ | ⟨left, rfl, rest⟩
  · exact .inr ⟨more, rfl, tail, rest⟩
  · cases left with
    | nil => exact .inr ⟨[], by simp, tail, by simpa using rest.symm⟩
    | cons byte left =>
      obtain ⟨rfl, -⟩ := List.cons.inj rest
      exact .inl ⟨left, rfl⟩

theorem length_lt {bytes cut : List UInt8} (off : CutOff bytes cut) : cut.length < bytes.length := by
  obtain ⟨tail, rfl⟩ := off
  simp

theorem readVarint {value : UInt64} {cut : List UInt8} (off : CutOff (writeVarint value) cut) :
    Protobuf.readVarint cut = none := by
  have short := off.length_lt
  obtain ⟨tail, whole⟩ := off
  refine readVarint_cut ⟨0 :: tail, whole.symm⟩ ?_
  rintro rfl
  simp at short

theorem readLength {size : Nat} {cut : List UInt8} (off : CutOff (writeVarint size.toUInt64) cut) :
    Protobuf.readLength cut = none := by
  rw [Protobuf.readLength, off.readVarint]
  rfl

end CutOff

/-- The bytes are a value that makes the change of an old one, and that is not read when it is cut off. -/
structure Writes (read : β → List UInt8 → Option (β × List UInt8)) (bytes : List UInt8) (change : β → β) : Prop where
  reads : ∀ old rest, read old (bytes ++ rest) = some (change old, rest)
  cut : ∀ old cut, CutOff bytes cut → read old cut = none

namespace Writes

theorem string {text : String} (fits : (utf8 text).length < 2 ^ 31) :
    Writes (fun _ => readString) (writeDelimited (utf8 text).length (utf8 text)) (fun _ => text) where
  reads _ rest := readString_writeDelimited fits rest
  cut _ cut off := by
    rcases off.append with number | ⟨more, rfl, data⟩
    · rw [readString, number.readLength]
      rfl
    · rw [readString, readLength_writeVarint fits]
      simp [data.length_lt]

theorem int32 (value : Int32) :
    Writes (fun _ => readInt32) (writeVarint (signExtend value)) (fun _ => value) where
  reads _ rest := readInt32_writeVarint value rest
  cut _ cut off := by
    rw [readInt32, off.readVarint]
    rfl

theorem int64 (value : Int64) : Writes (fun _ => readInt64) (writeVarint value.toUInt64) (fun _ => value) where
  reads _ rest := readInt64_writeVarint value rest
  cut _ cut off := by
    rw [readInt64, off.readVarint]
    rfl

theorem bool (value : Bool) : Writes (fun _ => readBool) (writeVarint value.toUInt64) (fun _ => value) where
  reads _ rest := readBool_writeVarint value rest
  cut _ cut off := by
    rw [readBool, off.readVarint]
    rfl

end Writes

/-- Whatever follows the bytes, the reader takes them and makes the change of the message. -/
structure Encodes (lib : Library) (format : Format α) (bytes : List UInt8) (change : α → α) : Prop where
  consumes : ∀ msg, ∃ turns ≤ bytes.length, ∀ fuel rest,
    format.run lib (turns + fuel) [] msg (bytes ++ rest) = format.run lib fuel [] (change msg) rest
  cut : ∀ msg cut fuel, CutOff bytes cut → cut.length ≤ fuel → format.run lib fuel [] msg cut = none

namespace Encodes

variable {lib : Library} {format : Format α}

theorem nil : Encodes lib format [] id where
  consumes msg := ⟨0, Nat.le_refl _, fun fuel rest => by simp⟩
  cut msg cut fuel off := by
    obtain ⟨tail, same⟩ := off
    simp at same

/-- **One after the other.** -/
theorem append {first second : List UInt8} {change change' : α → α} (one : Encodes lib format first change)
    (two : Encodes lib format second change') : Encodes lib format (first ++ second) (change' ∘ change) where
  consumes msg := by
    obtain ⟨turns, few, run⟩ := one.consumes msg
    obtain ⟨turns', few', run'⟩ := two.consumes (change msg)
    refine ⟨turns + turns', by simp only [List.length_append]; omega, fun fuel rest => ?_⟩
    rw [List.append_assoc, Nat.add_assoc, run, run']
    rfl
  cut msg cut fuel off enough := by
    rcases off.append with early | ⟨more, rfl, late⟩
    · exact one.cut msg cut fuel early enough
    · obtain ⟨turns, few, run⟩ := one.consumes msg
      rw [List.length_append] at enough
      have parts : fuel = turns + (fuel - turns) := by omega
      rw [parts, run]
      exact two.cut (change msg) more _ late (by omega)

/-- A field that is written unless its value is the default. -/
theorem optional {written : Prop} [Decidable written] {bytes : List UInt8} {change change' : α → α}
    (field : written → Encodes lib format bytes change)
    (same : ∀ msg, change' msg = if written then change msg else msg) :
    Encodes lib format (if written then bytes else []) change' := by
  by_cases present : written
  · have unchanged : change' = change := funext fun msg => by rw [same, if_pos present]
    rw [if_pos present, unchanged]
    exact field present
  · have unchanged : change' = id := funext fun msg => by rw [same, if_neg present, id]
    rw [if_neg present, unchanged]
    exact nil

/-- A field that occurs any number of times. -/
theorem flatMap {values : List β} {write : β → List UInt8} {change : β → α → α}
    (field : ∀ value ∈ values, Encodes lib format (write value) (change value)) :
    Encodes lib format (values.flatMap write) (fun msg => values.foldl (fun msg value => change value msg) msg) := by
  induction values with
  | nil => exact nil
  | cons value values ih =>
    rw [List.flatMap_cons]
    exact (field value (by simp)).append (ih fun value member => field value (by simp [member]))

/-- **One field**: its tag and its value. -/
theorem field {read : β → List UInt8 → Option (β × List UInt8)} {part : α → β} {put : α → β → α}
    {number wireType : Nat} {payload : List UInt8} {change : β → β}
    (known : format.field (makeTag number wireType) = some (readInto read part put))
    (pos : 0 < makeTag number wireType) (small : makeTag number wireType < 128) (value : Writes read payload change) :
    Encodes lib format (writeTag number wireType ++ payload) (fun msg => put msg (change (part msg))) where
  consumes msg := by
    refine ⟨1, by simp [writeTag_eq small], fun fuel rest => ?_⟩
    rw [writeTag_eq small, List.singleton_append, List.cons_append, Nat.add_comm, Format.run_field known small,
      readInto, value.reads]
    rfl
  cut msg cut fuel off enough := by
    rw [writeTag_eq small] at off
    rcases off.append with tag | ⟨more, rfl, value_off⟩
    · obtain ⟨tail, same⟩ := tag
      have short := congrArg List.length same
      have zero : (makeTag number wireType).toUInt8 = 0 := by
        cases cut with
        | nil => exact (List.cons.inj same).1
        | cons byte cut => simp at short
      have byte := congrArg UInt8.toNat zero
      rw [toNat_toUInt8 (by omega)] at byte
      simp at byte
      omega
    · obtain ⟨fuel, rfl⟩ : ∃ less, fuel = less + 1 := ⟨fuel - 1, by simp at enough; omega⟩
      rw [List.singleton_append, Format.run_field known small, readInto, value.cut _ _ value_off]
      rfl

/-- **What is encoded is parsed.** -/
theorem merge_eq {bytes : List UInt8} {change : α → α} (encodes : Encodes lib format bytes change) (msg : α) :
    format.merge lib msg bytes = some (change msg) := by
  obtain ⟨turns, few, run⟩ := encodes.consumes msg
  have whole := run (bytes.length - turns) []
  rw [List.append_nil, Nat.add_sub_cancel' few] at whole
  rw [Format.merge, whole]
  cases bytes.length - turns <;> rfl

/-- **What is cut off at a zero is not parsed.** -/
theorem merge_cut {bytes cut : List UInt8} {change : α → α} (encodes : Encodes lib format bytes change)
    (off : CutOff bytes cut) (msg : α) : format.merge lib msg cut = none :=
  encodes.cut msg cut _ off (Nat.le_refl _)

end Encodes

/-- A message within the message. Cut off, it is refused at once or not parsed. -/
theorem Writes.message {lib : Library} {inner : Format β} {body : List UInt8} {change : β → β}
    (encodes : Encodes lib inner body change) (fits : body.length < 2 ^ 31) :
    Writes (readMessage lib (inner.merge lib)) (writeDelimited body.length body) change where
  reads old rest := by
    rw [writeDelimited, List.append_assoc, readMessage, readLength_writeVarint fits]
    simp [encodes.merge_eq old]
  cut old cut off := by
    rcases off.append with number | ⟨more, rfl, data⟩
    · rw [readMessage, number.readLength]
      rfl
    · have whole : more.take body.length = more := List.take_of_length_le data.length_lt.le
      rw [readMessage, readLength_writeVarint fits]
      simp [whole, encodes.merge_cut data]

/-! ## Fields of each kind -/

theorem makeTag_valid {number wireType : Nat} (pos : 0 < number) (small : number < 16) (kind : wireType < 8) :
    0 < makeTag number wireType ∧ makeTag number wireType < 128 := by
  unfold makeTag
  omega

/-- The numbers of fields whose tags are one byte. -/
def OneByteTag (number : Nat) : Prop := 0 < number ∧ number < 16

instance (number : Nat) : Decidable (OneByteTag number) := inferInstanceAs (Decidable (_ ∧ _))

theorem OneByteTag.length_writeTag {number wireType : Nat} (valid : OneByteTag number) (kind : wireType < 8) :
    (writeTag number wireType).length = 1 := by
  rw [writeTag_eq (makeTag_valid valid.1 valid.2 kind).2, List.length_singleton]

namespace Encodes

variable (lib : Library) (format : Format α) {number : Nat}

section

variable (valid : OneByteTag number)
include valid

theorem string (text : String) {part : α → String} {put : α → String → α}
    (known : format.field (makeTag number wireDelimited) = some (readInto (fun _ => readString) part put))
    (fits : (utf8 text).length < 2 ^ 31) :
    Encodes lib format (writeString number text) (fun msg => put msg text) :=
  have tag := makeTag_valid valid.1 valid.2 (by decide)
  field known tag.1 tag.2 (.string fits)

theorem int32 (value : Int32) {part : α → Int32} {put : α → Int32 → α}
    (known : format.field (makeTag number wireVarint) = some (readInto (fun _ => readInt32) part put)) :
    Encodes lib format (writeInt32 number value) (fun msg => put msg value) :=
  have tag := makeTag_valid valid.1 valid.2 (by decide)
  field known tag.1 tag.2 (.int32 value)

theorem int64 (value : Int64) {part : α → Int64} {put : α → Int64 → α}
    (known : format.field (makeTag number wireVarint) = some (readInto (fun _ => readInt64) part put)) :
    Encodes lib format (writeInt64 number value) (fun msg => put msg value) :=
  have tag := makeTag_valid valid.1 valid.2 (by decide)
  field known tag.1 tag.2 (.int64 value)

theorem bool (value : Bool) {part : α → Bool} {put : α → Bool → α}
    (known : format.field (makeTag number wireVarint) = some (readInto (fun _ => readBool) part put)) :
    Encodes lib format (writeBool number value) (fun msg => put msg value) :=
  have tag := makeTag_valid valid.1 valid.2 (by decide)
  field known tag.1 tag.2 (.bool value)

/-- A message within the message, written with its size. -/
theorem message {inner : Format β} {part : α → β} {put : α → β → α} {size : Nat} {body : List UInt8} {change : β → β}
    (known : format.field (makeTag number wireDelimited) =
      some (readInto (readMessage lib (inner.merge lib)) part put))
    (encodes : Encodes lib inner body change) (cached : body.length = size) (fits : size < 2 ^ 31) :
    Encodes lib format (writeMessage number size body) (fun msg => put msg (change (part msg))) := by
  have tag := makeTag_valid valid.1 valid.2 (show wireDelimited < 8 by decide)
  subst cached
  exact field known tag.1 tag.2 (.message encodes fits)

end

end Encodes

/-! ## Sizes -/

section

variable {number : Nat} (valid : OneByteTag number)
include valid

theorem length_writeString (text : String) : (writeString number text).length = 1 + stringSize text := by
  simp [writeString, writeDelimited, valid.length_writeTag (show wireDelimited < 8 by decide), stringSize,
    lengthDelimitedSize]

theorem length_writeInt32 (value : Int32) : (writeInt32 number value).length = 1 + varintSize (signExtend value) := by
  simp [writeInt32, valid.length_writeTag (show wireVarint < 8 by decide)]

theorem length_writeInt64 (value : Int64) : (writeInt64 number value).length = 1 + varintSize value.toUInt64 := by
  simp [writeInt64, valid.length_writeTag (show wireVarint < 8 by decide)]

theorem length_writeBool (value : Bool) : (writeBool number value).length = 1 + 1 := by
  have one : varintSize value.toUInt64 = 1 := by cases value <;> rfl
  simp [writeBool, valid.length_writeTag (show wireVarint < 8 by decide), one]

theorem length_writeMessage {size : Nat} {body : List UInt8} (cached : body.length = size) :
    (writeMessage number size body).length = 1 + lengthDelimitedSize size := by
  simp [writeMessage, writeDelimited, valid.length_writeTag (show wireDelimited < 8 by decide), cached,
    lengthDelimitedSize]

/-- The size of a repeated string, a byte for each tag. -/
theorem length_flatMap_writeString (texts : List String) :
    (texts.flatMap (writeString number)).length = 1 * texts.length + (texts.map stringSize).sum := by
  induction texts with
  | nil => rfl
  | cons text texts ih =>
    rw [List.flatMap_cons, List.length_append, ih, length_writeString valid, List.map_cons, List.sum_cons,
      List.length_cons]
    omega

end

end Protobuf
