import Veos.Library.Base128

/-!
# The protocol buffer wire format

A serialized message is a sequence of fields.  Each field starts with a tag, the
varint of `8 * number + wireType`, and the wire type decides how the payload is
delimited.  This file has the readers that a generated parser is made of, the
writers for the scalar fields of proto3, and the generic treatment of fields that
a schema does not know.

Readers return the unread bytes.  Scalar readers truncate to the width of the
field, as the runtime does, and reject a varint that runs past its byte limit.

The runtime is a library outside the repository.  Beside the format itself, these of
its documented properties are assumed:

* a varint has at most ten bytes, and in a tag or a length at most five;
* a field that the schema does not know is kept, in order, and written back as it was
  read, with the shortest varints;
* a group ends at the end tag with its own number, and at most `recursionLimit` groups
  nest, the default limit;
* a length near `INT_MAX` is refused, and so is the field number zero;
* a zero tag and an end tag end a message, and `ParseFromString` refuses a message that
  ended before its input.
-/

namespace ProtoWire

open Base128

/-! ## Tags and scalars -/

/-- A tag, truncated to 32 bits by the reader. -/
abbrev Tag := Nat

/-- The field number of a tag. -/
def fieldNumber (tag : Tag) : Nat := tag / 8

/-- The wire type of a tag. -/
def wireType (tag : Tag) : Nat := tag % 8

def encodeTag (number wire : Nat) : Bytes := encode (8 * number + wire)

/-- Read a tag of at most five bytes. -/
def readTag (input : Bytes) : Option (Tag × Bytes) :=
  (decode 5 input).map fun (value, rest) => (value % 2 ^ 32, rest)

def readVarint64 (input : Bytes) : Option (UInt64 × Bytes) :=
  (decode 10 input).map fun (value, rest) => (UInt64.ofNat value, rest)

/-- A 32-bit reader still accepts ten bytes and drops the high bits. -/
def readVarint32 (input : Bytes) : Option (UInt32 × Bytes) :=
  (decode 10 input).map fun (value, rest) => (UInt32.ofNat value, rest)

/-- The reader of an `int32` field, which keeps the low 32 bits. -/
def readInt32 (input : Bytes) : Option (Int32 × Bytes) :=
  (readVarint32 input).map fun (value, rest) => (value.toInt32, rest)

/-- The reader of an enum field: a 64-bit varint cast to the enum. -/
def readEnum (input : Bytes) : Option (Int32 × Bytes) :=
  (readVarint64 input).map fun (value, rest) => (value.toUInt32.toInt32, rest)

/-- The reader of a bool field: any nonzero varint is true. -/
def readBool (input : Bytes) : Option (Bool × Bytes) :=
  (readVarint64 input).map fun (value, rest) => (value ≠ 0, rest)

/-- A singular varint field of proto3: zero is not written. -/
def varintField (number value : Nat) : Bytes :=
  if value = 0 then [] else encodeTag number 0 ++ encode value

/-- `int32` and enum values are sign-extended to 64 bits before they are written. -/
def signExtend (value : Int32) : Nat := value.toInt64.toUInt64.toNat

def uint32Field (number : Nat) (value : UInt32) : Bytes := varintField number value.toNat
def int32Field (number : Nat) (value : Int32) : Bytes := varintField number (signExtend value)
def boolField (number : Nat) (value : Bool) : Bytes := varintField number value.toNat

theorem readTag_encodeTag (number wire : Nat) (rest : Bytes)
    (hbound : 8 * number + wire < 2 ^ 32) :
    readTag (encodeTag number wire ++ rest) = some (8 * number + wire, rest) := by
  rw [readTag, encodeTag, decode_encode _ 5 rest (by omega) (by omega), Option.map_some]
  simp only [Nat.mod_eq_of_lt hbound]

theorem readVarint64_encode (value : UInt64) (rest : Bytes) :
    readVarint64 (encode value.toNat ++ rest) = some (value, rest) := by
  have hbound := value.toNat_lt
  rw [readVarint64, decode_encode _ 10 rest (by omega) (by omega)]
  simp

theorem readVarint32_eq (input : Bytes) :
    readVarint32 input = (readVarint64 input).map fun (raw, rest) => (raw.toUInt32, rest) := by
  unfold readVarint32 readVarint64
  cases decode 10 input with
  | none => rfl
  | some p => simp

theorem readInt32_eq (input : Bytes) :
    readInt32 input =
      (readVarint64 input).map fun (raw, rest) => (raw.toUInt32.toInt32, rest) := by
  rw [readInt32, readVarint32_eq]
  cases readVarint64 input <;> rfl

private theorem int64_ofNat_toNat (value : Int64) : Int64.ofNat value.toUInt64.toNat = value := by
  apply Int64.toBitVec_inj.1
  apply BitVec.eq_of_toNat_eq
  simp

/-- The low 32 bits of a sign-extended value give the value back. -/
theorem toInt32_signExtend (value : Int32) :
    (UInt32.ofNat (signExtend value)).toInt32 = value := by
  calc
    (UInt32.ofNat (signExtend value)).toInt32
        = (Int64.ofNat value.toInt64.toUInt64.toNat).toInt32 := by
      rw [UInt32.toInt32_ofNat', Int64.toInt32_ofNat', signExtend]
    _ = value.toInt64.toInt32 := by rw [int64_ofNat_toNat]
    _ = value := Int32.toInt32_toInt64 value

theorem signExtend_lt (value : Int32) : signExtend value < 2 ^ 64 :=
  value.toInt64.toUInt64.toNat_lt

theorem signExtend_eq_zero_iff (value : Int32) : signExtend value = 0 ↔ value = 0 := by
  constructor
  · intro hzero
    have hback := toInt32_signExtend value
    rw [hzero] at hback
    exact hback.symm
  · rintro rfl
    rfl

theorem readTag_shortens {input rest : Bytes} {tag : Tag}
    (h : readTag input = some (tag, rest)) : rest.length < input.length := by
  obtain ⟨⟨value, rest'⟩, hdecode, heq⟩ := Option.map_eq_some_iff.1 h
  simp only [Prod.mk.injEq] at heq
  have hshort := decode_shortens hdecode
  rwa [heq.2] at hshort

theorem readVarint64_shortens {input rest : Bytes} {value : UInt64}
    (h : readVarint64 input = some (value, rest)) : rest.length < input.length := by
  obtain ⟨⟨n, rest'⟩, hdecode, heq⟩ := Option.map_eq_some_iff.1 h
  simp only [Prod.mk.injEq] at heq
  have hshort := decode_shortens hdecode
  rwa [heq.2] at hshort

/-! ## Fields outside the schema -/

/-- A field that the schema does not know, kept as the reader found it. -/
inductive UnknownField
  | varint (number : Nat) (value : UInt64)
  | fixed64 (number : Nat) (payload : Bytes)
  | lengthDelimited (number : Nat) (payload : Bytes)
  | group (number : Nat) (fields : List UnknownField)
  | fixed32 (number : Nat) (payload : Bytes)
  deriving Repr

/-- How deep groups may nest. -/
def recursionLimit : Nat := 100

/-- Read exactly `count` bytes. -/
def readFixed (count : Nat) (input : Bytes) : Option (Bytes × Bytes) :=
  if count ≤ input.length then some (input.take count, input.drop count) else none

/-- Read a length prefix and that many bytes.  Lengths within 16 bytes of
`INT_MAX` are refused. -/
def readLengthDelimited (input : Bytes) : Option (Bytes × Bytes) :=
  match decode 5 input with
  | none => none
  | some (size, rest) => if 2 ^ 31 - 17 < size then none else readFixed size rest

/-- Read the payload of a field whose tag has just been read.  `readGroup` reads
the fields of a group up to the matching end tag. -/
def readUnknown (readGroup : Tag → Bytes → Option (List UnknownField × Bytes)) (tag : Tag)
    (input : Bytes) : Option (UnknownField × Bytes) :=
  let number := fieldNumber tag
  if number = 0 then none
  else
    match wireType tag with
    | 0 => (readVarint64 input).map fun (value, rest) => (.varint number value, rest)
    | 1 => (readFixed 8 input).map fun (payload, rest) => (.fixed64 number payload, rest)
    | 2 => (readLengthDelimited input).map fun (payload, rest) =>
        (.lengthDelimited number payload, rest)
    | 3 => (readGroup tag input).map fun (fields, rest) => (.group number fields, rest)
    | 5 => (readFixed 4 input).map fun (payload, rest) => (.fixed32 number payload, rest)
    | _ => none

/-- Read the fields of the group opened by `start`, through its end tag.  `depth`
is how many groups may still be opened, `fuel` bounds the number of tags. -/
def readGroup : (fuel depth : Nat) → (start : Tag) → Bytes → Option (List UnknownField × Bytes)
  | 0, _, _, _ => none
  | _, 0, _, _ => none
  | fuel + 1, depth + 1, start, input =>
      match readTag input with
      | none => none
      | some (tag, rest) =>
          if tag = 0 ∨ wireType tag = 4 then
            -- the end tag has the number of the start tag and the next wire type
            if tag = start + 1 then some ([], rest) else none
          else
            match readUnknown (readGroup fuel depth) tag rest with
            | none => none
            | some (field, rest) =>
                (readGroup fuel (depth + 1) start rest).map fun (fields, rest) =>
                  (field :: fields, rest)

theorem readFixed_length_le {count : Nat} {input payload rest : Bytes}
    (h : readFixed count input = some (payload, rest)) : rest.length ≤ input.length := by
  unfold readFixed at h
  split at h
  · simp only [Option.some.injEq, Prod.mk.injEq] at h
    rw [← h.2, List.length_drop]
    omega
  · simp at h

theorem readLengthDelimited_length_le {input payload rest : Bytes}
    (h : readLengthDelimited input = some (payload, rest)) : rest.length ≤ input.length := by
  unfold readLengthDelimited at h
  cases hdecode : decode 5 input with
  | none => simp [hdecode] at h
  | some p =>
      obtain ⟨size, tail⟩ := p
      have hshort := decode_shortens hdecode
      simp only [hdecode] at h
      split at h
      · simp at h
      · have hfixed := readFixed_length_le h
        omega

/-- A payload reader returns a suffix no longer than its input, provided the
group reader does. -/
theorem readUnknown_length_le {group : Tag → Bytes → Option (List UnknownField × Bytes)}
    {tag : Tag} {input rest : Bytes} {field : UnknownField}
    (hgroup : ∀ fields rest, group tag input = some (fields, rest) → rest.length ≤ input.length)
    (h : readUnknown group tag input = some (field, rest)) : rest.length ≤ input.length := by
  simp only [readUnknown] at h
  split at h
  · exact absurd h (by simp)
  · split at h
    · obtain ⟨value, hread, -⟩ : ∃ value, readVarint64 input = some (value, rest) ∧ _ := by
        simpa using h
      exact (readVarint64_shortens hread).le
    · obtain ⟨payload, hread, -⟩ : ∃ payload, readFixed 8 input = some (payload, rest) ∧ _ := by
        simpa using h
      exact readFixed_length_le hread
    · obtain ⟨payload, hread, -⟩ :
          ∃ payload, readLengthDelimited input = some (payload, rest) ∧ _ := by
        simpa using h
      exact readLengthDelimited_length_le hread
    · obtain ⟨fields, hread, -⟩ : ∃ fields, group tag input = some (fields, rest) ∧ _ := by
        simpa using h
      exact hgroup fields rest hread
    · obtain ⟨payload, hread, -⟩ : ∃ payload, readFixed 4 input = some (payload, rest) ∧ _ := by
        simpa using h
      exact readFixed_length_le hread
    · exact absurd h (by simp)

theorem readUnknown_congr {group group' : Tag → Bytes → Option (List UnknownField × Bytes)}
    {tag : Tag} {input : Bytes} (h : group tag input = group' tag input) :
    readUnknown group tag input = readUnknown group' tag input := by
  unfold readUnknown
  rw [h]

theorem readGroup_length_le {fuel depth : Nat} {start : Tag} {input rest : Bytes}
    {fields : List UnknownField} (h : readGroup fuel depth start input = some (fields, rest)) :
    rest.length ≤ input.length := by
  induction fuel generalizing depth start input fields rest with
  | zero => simp [readGroup] at h
  | succ fuel ih =>
      cases depth with
      | zero => simp [readGroup] at h
      | succ depth =>
          simp only [readGroup] at h
          cases htag : readTag input with
          | none => simp [htag] at h
          | some p =>
              obtain ⟨tag, tail⟩ := p
              have hshort := readTag_shortens htag
              simp only [htag] at h
              split at h
              · split at h
                · simp only [Option.some.injEq, Prod.mk.injEq] at h
                  rw [← h.2]
                  omega
                · simp at h
              -- a field of the group, which may itself be a group, and the rest
              · cases hfield : readUnknown (readGroup fuel depth) tag tail with
                | none => simp [hfield] at h
                | some p =>
                    obtain ⟨field, tail'⟩ := p
                    have hle := readUnknown_length_le (fun _ _ hgroup => ih hgroup) hfield
                    simp only [hfield] at h
                    obtain ⟨⟨more, tail''⟩, hread, heq⟩ := Option.map_eq_some_iff.1 h
                    simp only [Prod.mk.injEq] at heq
                    have hrest := ih hread
                    rw [heq.2] at hrest
                    omega

/-- The length of the input is fuel enough: more fuel changes nothing. -/
theorem readGroup_fuel {fuel fuel' depth : Nat} {start : Tag} {input : Bytes}
    (hfuel : input.length ≤ fuel) (hfuel' : input.length ≤ fuel') :
    readGroup fuel depth start input = readGroup fuel' depth start input := by
  induction fuel generalizing fuel' depth start input with
  | zero =>
      obtain rfl : input = [] := List.eq_nil_of_length_eq_zero (by omega)
      cases fuel' <;> cases depth <;> rfl
  | succ fuel ih =>
      cases depth with
      | zero => cases fuel' <;> rfl
      | succ depth =>
          cases fuel' with
          | zero =>
              obtain rfl : input = [] := List.eq_nil_of_length_eq_zero (by omega)
              rfl
          | succ fuel' =>
              simp only [readGroup]
              cases htag : readTag input with
              | none => rfl
              | some p =>
                  obtain ⟨tag, tail⟩ := p
                  have hshort := readTag_shortens htag
                  -- nested groups first, then the fields that follow
                  have hgroup : readGroup fuel depth tag tail = readGroup fuel' depth tag tail :=
                    ih (by omega) (by omega)
                  simp only [readUnknown_congr hgroup]
                  cases hfield : readUnknown (readGroup fuel' depth) tag tail with
                  | none => rfl
                  | some p =>
                      obtain ⟨field, tail'⟩ := p
                      have hle := readUnknown_length_le
                        (fun _ _ hread => readGroup_length_le hread) hfield
                      have hrest : readGroup fuel (depth + 1) start tail' =
                          readGroup fuel' (depth + 1) start tail' := ih (by omega) (by omega)
                      simp only [hrest]

/-- `UnknownFieldParse`.  Every tag consumes a byte, so the length of the input
is fuel enough. -/
def unknownFieldParse (tag : Tag) (input : Bytes) : Option (UnknownField × Bytes) :=
  readUnknown (readGroup input.length recursionLimit) tag input

mutual

/-- Write a field that the schema does not know. -/
def writeUnknown : UnknownField → Bytes
  | .varint number value => encodeTag number 0 ++ encode value.toNat
  | .fixed64 number payload => encodeTag number 1 ++ payload
  | .lengthDelimited number payload =>
      encodeTag number 2 ++ encode payload.length ++ payload
  | .group number fields => encodeTag number 3 ++ writeUnknowns fields ++ encodeTag number 4
  | .fixed32 number payload => encodeTag number 5 ++ payload

/-- Write the unknown fields of a message, in order. -/
def writeUnknowns : List UnknownField → Bytes
  | [] => []
  | field :: fields => writeUnknown field ++ writeUnknowns fields

end

end ProtoWire
