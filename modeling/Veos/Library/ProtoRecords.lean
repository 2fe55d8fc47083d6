import Veos.Library.ProtoWire

/-!
# Messages as streams of records

A serialized message is a sequence of records, one for each tag.  What a record
is does not depend on a schema: `readRecord` reads any field as a parser reads the
fields that it does not know.  `Stream input records` says that `input` consists of
`records`, in order, and of nothing else.

The readers return exactly the valid records (`readRecord_valid`), and every valid
record is read back from what the writer makes of it (`readRecord_writeUnknown`).
Streams can be concatenated and cut again.
-/

namespace ProtoWire

open Base128

/-! ## Reading in front of more input -/

theorem readTag_append {input rest : Bytes} {tag : Tag} (h : readTag input = some (tag, rest))
    (more : Bytes) : readTag (input ++ more) = some (tag, rest ++ more) := by
  obtain ⟨⟨value, tail⟩, hdecode, heq⟩ := Option.map_eq_some_iff.1 h
  obtain ⟨rfl, rfl⟩ := Prod.mk.inj heq
  rw [readTag, decode_append hdecode, Option.map_some]

theorem readVarint64_append {input rest : Bytes} {value : UInt64}
    (h : readVarint64 input = some (value, rest)) (more : Bytes) :
    readVarint64 (input ++ more) = some (value, rest ++ more) := by
  obtain ⟨⟨raw, tail⟩, hdecode, heq⟩ := Option.map_eq_some_iff.1 h
  obtain ⟨rfl, rfl⟩ := Prod.mk.inj heq
  rw [readVarint64, decode_append hdecode, Option.map_some]

theorem readFixed_eq_some_iff {count : Nat} {input payload rest : Bytes} :
    readFixed count input = some (payload, rest) ↔
      payload.length = count ∧ input = payload ++ rest := by
  unfold readFixed
  constructor
  · intro h
    split at h
    · rename_i hcount
      obtain ⟨rfl, rfl⟩ := Prod.mk.inj (Option.some.inj h)
      exact ⟨List.length_take_of_le hcount, (List.take_append_drop count input).symm⟩
    · exact absurd h (by simp)
  · rintro ⟨rfl, rfl⟩
    simp

theorem readFixed_append {count : Nat} {input payload rest : Bytes}
    (h : readFixed count input = some (payload, rest)) (more : Bytes) :
    readFixed count (input ++ more) = some (payload, rest ++ more) := by
  obtain ⟨hlength, rfl⟩ := readFixed_eq_some_iff.1 h
  exact readFixed_eq_some_iff.2 ⟨hlength, List.append_assoc ..⟩

theorem readLengthDelimited_eq_some_iff {input payload rest : Bytes} :
    readLengthDelimited input = some (payload, rest) ↔
      payload.length ≤ 2 ^ 31 - 17 ∧ decode 5 input = some (payload.length, payload ++ rest) := by
  unfold readLengthDelimited
  cases hdecode : decode 5 input with
  | none => simp
  | some p =>
      obtain ⟨size, tail⟩ := p
      by_cases hsize : 2 ^ 31 - 17 < size
      · simp only [hsize, if_true, Option.some.injEq, Prod.mk.injEq]
        constructor
        · intro h
          exact absurd h (by simp)
        · rintro ⟨hle, rfl, -⟩
          omega
      · simp only [hsize, if_false, readFixed_eq_some_iff, Option.some.injEq, Prod.mk.injEq]
        constructor
        · rintro ⟨rfl, rfl⟩
          exact ⟨by omega, rfl, rfl⟩
        · rintro ⟨-, rfl, rfl⟩
          exact ⟨rfl, rfl⟩

theorem readLengthDelimited_append {input payload rest : Bytes}
    (h : readLengthDelimited input = some (payload, rest)) (more : Bytes) :
    readLengthDelimited (input ++ more) = some (payload, rest ++ more) := by
  obtain ⟨hsize, hdecode⟩ := readLengthDelimited_eq_some_iff.1 h
  refine readLengthDelimited_eq_some_iff.2 ⟨hsize, ?_⟩
  rw [decode_append hdecode, List.append_assoc]

/-! ## One field -/

/-- The tags that end a message or a group. -/
abbrev EndTag (tag : Tag) : Prop := tag = 0 ∨ wireType tag = 4

/-- Every way in which a payload can be read. -/
theorem readUnknown_eq_some_iff {group : Tag → Bytes → Option (List UnknownField × Bytes)}
    {tag : Tag} {input rest : Bytes} {field : UnknownField} :
    readUnknown group tag input = some (field, rest) ↔
      fieldNumber tag ≠ 0 ∧
      ((wireType tag = 0 ∧ ∃ value, readVarint64 input = some (value, rest) ∧
          field = .varint (fieldNumber tag) value) ∨
        (wireType tag = 1 ∧ ∃ payload, readFixed 8 input = some (payload, rest) ∧
          field = .fixed64 (fieldNumber tag) payload) ∨
        (wireType tag = 2 ∧ ∃ payload, readLengthDelimited input = some (payload, rest) ∧
          field = .lengthDelimited (fieldNumber tag) payload) ∨
        (wireType tag = 3 ∧ ∃ fields, group tag input = some (fields, rest) ∧
          field = .group (fieldNumber tag) fields) ∨
        (wireType tag = 5 ∧ ∃ payload, readFixed 4 input = some (payload, rest) ∧
          field = .fixed32 (fieldNumber tag) payload)) := by
  unfold readUnknown
  by_cases hnumber : fieldNumber tag = 0
  · simp [hnumber]
  · have hwire : wireType tag < 8 := Nat.mod_lt tag (by omega)
    generalize wireType tag = wire at hwire
    simp only [hnumber, if_false, ne_eq, not_false_eq_true, true_and]
    match wire with
    | 0 | 1 | 2 | 3 | 5 => simp [eq_comm]
    | 4 | 6 | 7 => simp

theorem readUnknown_append {group group' : Tag → Bytes → Option (List UnknownField × Bytes)}
    {tag : Tag} {input rest : Bytes} {field : UnknownField} (more : Bytes)
    (hgroup : ∀ fields rest, group tag input = some (fields, rest) →
      group' tag (input ++ more) = some (fields, rest ++ more))
    (h : readUnknown group tag input = some (field, rest)) :
    readUnknown group' tag (input ++ more) = some (field, rest ++ more) := by
  obtain ⟨hnumber, hread⟩ := readUnknown_eq_some_iff.1 h
  refine readUnknown_eq_some_iff.2 ⟨hnumber, ?_⟩
  rcases hread with ⟨hwire, value, hread, rfl⟩ | ⟨hwire, payload, hread, rfl⟩ |
    ⟨hwire, payload, hread, rfl⟩ | ⟨hwire, fields, hread, rfl⟩ | ⟨hwire, payload, hread, rfl⟩
  · exact .inl ⟨hwire, value, readVarint64_append hread more, rfl⟩
  · exact .inr (.inl ⟨hwire, payload, readFixed_append hread more, rfl⟩)
  · exact .inr (.inr (.inl ⟨hwire, payload, readLengthDelimited_append hread more, rfl⟩))
  · exact .inr (.inr (.inr (.inl ⟨hwire, fields, hgroup fields rest hread, rfl⟩)))
  · exact .inr (.inr (.inr (.inr ⟨hwire, payload, readFixed_append hread more, rfl⟩)))

/-- One turn of the group reader: the end tag of the group, or a field and the
rest of the group. -/
theorem readGroup_eq_some_iff {fuel depth : Nat} {start : Tag} {input rest : Bytes}
    {fields : List UnknownField} :
    readGroup (fuel + 1) (depth + 1) start input = some (fields, rest) ↔
      ∃ tag tail, readTag input = some (tag, tail) ∧
        ((EndTag tag ∧ tag = start + 1 ∧ fields = [] ∧ rest = tail) ∨
          (¬ EndTag tag ∧ ∃ field tail' more,
            readUnknown (readGroup fuel depth) tag tail = some (field, tail') ∧
            readGroup fuel (depth + 1) start tail' = some (more, rest) ∧
            fields = field :: more)) := by
  constructor
  · intro h
    simp only [readGroup] at h
    cases htag : readTag input with
    | none => simp [htag] at h
    | some p =>
        obtain ⟨tag, tail⟩ := p
        refine ⟨tag, tail, rfl, ?_⟩
        simp only [htag] at h
        split at h
        · rename_i hend
          split at h
          · rename_i hstart
            obtain ⟨rfl, rfl⟩ := Prod.mk.inj (Option.some.inj h)
            exact .inl ⟨hend, hstart, rfl, rfl⟩
          · exact absurd h (by simp)
        · rename_i hend
          cases hfield : readUnknown (readGroup fuel depth) tag tail with
          | none => simp [hfield] at h
          | some q =>
              obtain ⟨field, tail'⟩ := q
              simp only [hfield] at h
              obtain ⟨⟨more, tail''⟩, hrest, heq⟩ := Option.map_eq_some_iff.1 h
              obtain ⟨rfl, rfl⟩ := Prod.mk.inj heq
              exact .inr ⟨hend, field, tail', more, rfl, hrest, rfl⟩
  · rintro ⟨tag, tail, htag, ⟨hend, hstart, rfl, rfl⟩ |
      ⟨hend, field, tail', more, hfield, hrest, rfl⟩⟩
    · simp only [readGroup, htag, if_pos hend, if_pos hstart]
    · simp only [readGroup, htag, if_neg hend, hfield, hrest, Option.map_some]

theorem readGroup_append {fuel depth : Nat} {start : Tag} {input rest : Bytes}
    {fields : List UnknownField} (h : readGroup fuel depth start input = some (fields, rest))
    (more : Bytes) : readGroup fuel depth start (input ++ more) = some (fields, rest ++ more) := by
  induction fuel generalizing depth start input rest fields with
  | zero => simp [readGroup] at h
  | succ fuel ih =>
      cases depth with
      | zero => simp [readGroup] at h
      | succ depth =>
          obtain ⟨tag, tail, htag, hturn⟩ := readGroup_eq_some_iff.1 h
          refine readGroup_eq_some_iff.2 ⟨tag, tail ++ more, readTag_append htag more, ?_⟩
          rcases hturn with ⟨hend, hstart, rfl, rfl⟩ |
            ⟨hend, field, tail', others, hfield, hrest, rfl⟩
          · exact .inl ⟨hend, hstart, rfl, rfl⟩
          · exact .inr ⟨hend, field, tail' ++ more, others,
              readUnknown_append more (fun _ _ hgroup => ih hgroup) hfield, ih hrest, rfl⟩

theorem unknownFieldParse_append {tag : Tag} {input rest : Bytes} {field : UnknownField}
    (h : unknownFieldParse tag input = some (field, rest)) (more : Bytes) :
    unknownFieldParse tag (input ++ more) = some (field, rest ++ more) := by
  refine readUnknown_append more (fun fields rest hgroup => ?_) h
  -- the longer input only adds fuel
  have hfuel : readGroup input.length recursionLimit tag input =
      readGroup (input ++ more).length recursionLimit tag input :=
    readGroup_fuel le_rfl (by simp)
  exact readGroup_append (hfuel ▸ hgroup) more

/-! ## Valid fields -/

/-- A field number that fits in a tag. -/
abbrev ValidNumber (number : Nat) : Prop := 0 < number ∧ number < 2 ^ 29

mutual

/-- A field that a parser can return with at most `depth` groups to open. -/
def Valid : (depth : Nat) → UnknownField → Prop
  | _, .varint number _ => ValidNumber number
  | _, .fixed64 number payload => ValidNumber number ∧ payload.length = 8
  | _, .lengthDelimited number payload => ValidNumber number ∧ payload.length ≤ 2 ^ 31 - 17
  | depth, .group number fields => ValidNumber number ∧ 0 < depth ∧ AllValid (depth - 1) fields
  | _, .fixed32 number payload => ValidNumber number ∧ payload.length = 4

def AllValid : (depth : Nat) → List UnknownField → Prop
  | _, [] => True
  | depth, field :: fields => Valid depth field ∧ AllValid depth fields

end

@[simp] theorem allValid_nil (depth : Nat) : AllValid depth [] := trivial

@[simp] theorem allValid_cons (depth : Nat) (field : UnknownField) (fields : List UnknownField) :
    AllValid depth (field :: fields) ↔ Valid depth field ∧ AllValid depth fields := Iff.rfl

theorem allValid_append (depth : Nat) (fields fields' : List UnknownField) :
    AllValid depth (fields ++ fields') ↔ AllValid depth fields ∧ AllValid depth fields' := by
  induction fields with
  | nil => simp
  | cons field fields ih => simp [ih, and_assoc]

namespace UnknownField

def number : UnknownField → Nat
  | .varint number _ => number
  | .fixed64 number _ => number
  | .lengthDelimited number _ => number
  | .group number _ => number
  | .fixed32 number _ => number

def wire : UnknownField → Nat
  | .varint _ _ => 0
  | .fixed64 _ _ => 1
  | .lengthDelimited _ _ => 2
  | .group _ _ => 3
  | .fixed32 _ _ => 5

/-- What follows the tag. -/
def payload : UnknownField → Bytes
  | .varint _ value => encode value.toNat
  | .fixed64 _ payload => payload
  | .lengthDelimited _ payload => encode payload.length ++ payload
  | .group number fields => writeUnknowns fields ++ encodeTag number 4
  | .fixed32 _ payload => payload

def tag (field : UnknownField) : Tag := 8 * field.number + field.wire

end UnknownField

theorem writeUnknown_eq (field : UnknownField) :
    writeUnknown field = encodeTag field.number field.wire ++ field.payload := by
  cases field <;>
    simp [writeUnknown, UnknownField.number, UnknownField.wire, UnknownField.payload]

theorem Valid.number {depth : Nat} {field : UnknownField} (h : Valid depth field) :
    ValidNumber field.number := by
  cases field with
  | varint number value => exact h
  | fixed64 number payload => exact h.1
  | lengthDelimited number payload => exact h.1
  | group number fields => exact h.1
  | fixed32 number payload => exact h.1

theorem UnknownField.wire_cases (field : UnknownField) :
    field.wire < 8 ∧ field.wire ≠ 4 := by
  cases field <;> simp [wire]

theorem UnknownField.fieldNumber_tag (field : UnknownField) :
    fieldNumber field.tag = field.number := by
  have hwire := field.wire_cases
  simp only [fieldNumber, tag]
  omega

theorem UnknownField.wireType_tag (field : UnknownField) : wireType field.tag = field.wire := by
  have hwire := field.wire_cases
  simp only [wireType, tag]
  omega

theorem Valid.not_endTag {depth : Nat} {field : UnknownField} (h : Valid depth field) :
    ¬ EndTag field.tag := by
  obtain ⟨hpos, -⟩ := h.number
  have hwire := field.wire_cases
  rintro (hzero | hend)
  · have hsum : 8 * field.number + field.wire = 0 := hzero
    omega
  · rw [field.wireType_tag] at hend
    exact hwire.2 hend

theorem readTag_writeUnknown {depth : Nat} {field : UnknownField} (h : Valid depth field)
    (rest : Bytes) :
    readTag (writeUnknown field ++ rest) = some (field.tag, field.payload ++ rest) := by
  obtain ⟨-, hbound⟩ := h.number
  have hwire := field.wire_cases
  rw [writeUnknown_eq, List.append_assoc, readTag_encodeTag _ _ _ (by omega)]
  rfl

theorem encodeTag_length_pos (number wire : Nat) : 0 < (encodeTag number wire).length :=
  List.length_pos_iff.2 (encode_ne_nil _)

mutual

/-- The reader undoes the writer of a payload. -/
theorem readUnknown_payload (field : UnknownField) {fuel depth : Nat} (h : Valid depth field)
    (rest : Bytes) (hfuel : (field.payload ++ rest).length ≤ fuel) :
    readUnknown (readGroup fuel depth) field.tag (field.payload ++ rest) = some (field, rest) := by
  rw [readUnknown_eq_some_iff, field.fieldNumber_tag, field.wireType_tag]
  refine ⟨h.number.1.ne', ?_⟩
  match field, h with
  | .varint number value, _ => exact .inl ⟨rfl, value, readVarint64_encode value rest, rfl⟩
  | .fixed64 number payload, h =>
      exact .inr (.inl ⟨rfl, payload, readFixed_eq_some_iff.2 ⟨h.2, rfl⟩, rfl⟩)
  | .lengthDelimited number payload, h =>
      have hdecode : decode 5 (encode payload.length ++ (payload ++ rest)) =
          some (payload.length, payload ++ rest) :=
        decode_encode _ 5 _ (by omega) (by have := h.2; omega)
      refine .inr (.inr (.inl ⟨rfl, payload, readLengthDelimited_eq_some_iff.2 ⟨h.2, ?_⟩, rfl⟩))
      rw [UnknownField.payload, List.append_assoc]
      exact hdecode
  | .group number fields, h =>
      obtain ⟨hnumber, hdepth, hfields⟩ := h
      obtain ⟨depth, rfl⟩ : ∃ d, depth = d + 1 := ⟨depth - 1, by omega⟩
      simp only [UnknownField.payload, List.append_assoc] at hfuel ⊢
      exact .inr (.inr (.inr (.inl ⟨rfl, fields,
        readGroup_writeUnknowns fields hnumber hfields rest hfuel, rfl⟩)))
  | .fixed32 number payload, h =>
      exact .inr (.inr (.inr (.inr ⟨rfl, payload, readFixed_eq_some_iff.2 ⟨h.2, rfl⟩, rfl⟩)))

/-- The group reader undoes the writer of a group's fields and end tag. -/
theorem readGroup_writeUnknowns (fields : List UnknownField) {fuel depth number : Nat}
    (hnumber : ValidNumber number) (h : AllValid depth fields) (rest : Bytes)
    (hfuel : (writeUnknowns fields ++ (encodeTag number 4 ++ rest)).length ≤ fuel) :
    readGroup fuel (depth + 1) (8 * number + 3)
      (writeUnknowns fields ++ (encodeTag number 4 ++ rest)) = some (fields, rest) := by
  have htagLength := encodeTag_length_pos number 4
  obtain ⟨fuel, rfl⟩ : ∃ m, fuel = m + 1 :=
    ⟨fuel - 1, by simp only [List.length_append] at hfuel; omega⟩
  match fields, h with
  | [], _ =>
      refine readGroup_eq_some_iff.2 ⟨8 * number + 4, rest,
        readTag_encodeTag number 4 rest (by omega), .inl ⟨.inr ?_, rfl, rfl, rfl⟩⟩
      simp only [wireType]
      omega
  | field :: fields, h =>
      have hlength : 0 < (encodeTag field.number field.wire).length := encodeTag_length_pos _ _
      simp only [writeUnknowns, List.append_assoc] at hfuel ⊢
      simp only [writeUnknown_eq, List.length_append] at hfuel
      refine readGroup_eq_some_iff.2 ⟨field.tag, _, readTag_writeUnknown h.1 _,
        .inr ⟨h.1.not_endTag, field, _, fields, readUnknown_payload field h.1 _ ?_,
          readGroup_writeUnknowns fields hnumber h.2 rest ?_, rfl⟩⟩
      · simp only [List.length_append]
        omega
      · simp only [List.length_append]
        omega

end

/-! ## What the readers return is valid -/

theorem fieldNumber_lt {input rest : Bytes} {tag : Tag} (h : readTag input = some (tag, rest)) :
    fieldNumber tag < 2 ^ 29 := by
  obtain ⟨⟨value, tail⟩, -, heq⟩ := Option.map_eq_some_iff.1 h
  rw [← (Prod.mk.inj heq).1, fieldNumber]
  omega

theorem readUnknown_valid {group : Tag → Bytes → Option (List UnknownField × Bytes)}
    {depth : Nat} {tag : Tag} {input rest : Bytes} {field : UnknownField}
    (htag : fieldNumber tag < 2 ^ 29)
    (hgroup : ∀ fields rest, group tag input = some (fields, rest) →
      0 < depth ∧ AllValid (depth - 1) fields)
    (h : readUnknown group tag input = some (field, rest)) : Valid depth field := by
  obtain ⟨hnumber, hread⟩ := readUnknown_eq_some_iff.1 h
  have hvalid : ValidNumber (fieldNumber tag) := ⟨Nat.pos_of_ne_zero hnumber, htag⟩
  rcases hread with ⟨-, value, -, rfl⟩ | ⟨-, payload, hread, rfl⟩ | ⟨-, payload, hread, rfl⟩ |
    ⟨-, fields, hread, rfl⟩ | ⟨-, payload, hread, rfl⟩
  · exact hvalid
  · exact ⟨hvalid, (readFixed_eq_some_iff.1 hread).1⟩
  · exact ⟨hvalid, (readLengthDelimited_eq_some_iff.1 hread).1⟩
  · exact ⟨hvalid, hgroup fields rest hread⟩
  · exact ⟨hvalid, (readFixed_eq_some_iff.1 hread).1⟩

theorem readGroup_valid {fuel depth : Nat} {start : Tag} {input rest : Bytes}
    {fields : List UnknownField} (h : readGroup fuel depth start input = some (fields, rest)) :
    0 < depth ∧ AllValid (depth - 1) fields := by
  induction fuel generalizing depth start input rest fields with
  | zero => simp [readGroup] at h
  | succ fuel ih =>
      cases depth with
      | zero => simp [readGroup] at h
      | succ depth =>
          refine ⟨Nat.succ_pos depth, ?_⟩
          obtain ⟨tag, tail, htag, hturn⟩ := readGroup_eq_some_iff.1 h
          rcases hturn with ⟨-, -, rfl, -⟩ | ⟨-, field, tail', more, hfield, hrest, rfl⟩
          · trivial
          · exact ⟨readUnknown_valid (fieldNumber_lt htag) (fun _ _ hgroup => ih hgroup) hfield,
              (ih hrest).2⟩

/-! ## Records -/

/-- Read one record: a tag that does not end the message, and its payload. -/
def readRecord (input : Bytes) : Option (UnknownField × Bytes) :=
  match readTag input with
  | none => none
  | some (tag, rest) => if EndTag tag then none else unknownFieldParse tag rest

theorem readRecord_eq_some_iff {input rest : Bytes} {record : UnknownField} :
    readRecord input = some (record, rest) ↔
      ∃ tag tail, readTag input = some (tag, tail) ∧ ¬ EndTag tag ∧
        unknownFieldParse tag tail = some (record, rest) := by
  unfold readRecord
  cases htag : readTag input with
  | none => simp
  | some p =>
      obtain ⟨tag, tail⟩ := p
      constructor
      · intro h
        simp only at h
        split at h
        · exact absurd h (by simp)
        · rename_i hend
          exact ⟨tag, tail, rfl, hend, h⟩
      · rintro ⟨tag', tail', heq, hend, hparse⟩
        obtain ⟨rfl, rfl⟩ := Prod.mk.inj (Option.some.inj heq)
        exact (if_neg hend).trans hparse

theorem readRecord_nil : readRecord [] = none := rfl

theorem readRecord_append {input rest : Bytes} {record : UnknownField}
    (h : readRecord input = some (record, rest)) (more : Bytes) :
    readRecord (input ++ more) = some (record, rest ++ more) := by
  obtain ⟨tag, tail, htag, hend, hparse⟩ := readRecord_eq_some_iff.1 h
  exact readRecord_eq_some_iff.2
    ⟨tag, tail ++ more, readTag_append htag more, hend, unknownFieldParse_append hparse more⟩

theorem readRecord_shortens {input rest : Bytes} {record : UnknownField}
    (h : readRecord input = some (record, rest)) : rest.length < input.length := by
  obtain ⟨tag, tail, htag, -, hparse⟩ := readRecord_eq_some_iff.1 h
  have hshort := readTag_shortens htag
  have hle := readUnknown_length_le (fun _ _ hgroup => readGroup_length_le hgroup) hparse
  omega

/-- Every record that is read is valid. -/
theorem readRecord_valid {input rest : Bytes} {record : UnknownField}
    (h : readRecord input = some (record, rest)) : Valid recursionLimit record := by
  obtain ⟨tag, tail, htag, -, hparse⟩ := readRecord_eq_some_iff.1 h
  exact readUnknown_valid (fieldNumber_lt htag) (fun _ _ hgroup => readGroup_valid hgroup) hparse

/-- Every valid record is read back from what the writer makes of it. -/
theorem readRecord_writeUnknown {record : UnknownField} (h : Valid recursionLimit record)
    (rest : Bytes) : readRecord (writeUnknown record ++ rest) = some (record, rest) :=
  readRecord_eq_some_iff.2 ⟨record.tag, record.payload ++ rest, readTag_writeUnknown h rest,
    h.not_endTag, readUnknown_payload record h rest le_rfl⟩

/-! ## Streams -/

/-- The input consists of these records. -/
inductive Stream : Bytes → List UnknownField → Prop
  | nil : Stream [] []
  | cons {input rest : Bytes} {record : UnknownField} {records : List UnknownField}
      (hread : readRecord input = some (record, rest)) (htail : Stream rest records) :
      Stream input (record :: records)

namespace Stream

theorem append {input input' : Bytes} {records records' : List UnknownField}
    (h : Stream input records) (h' : Stream input' records') :
    Stream (input ++ input') (records ++ records') := by
  induction h with
  | nil => exact h'
  | cons hread htail ih => exact .cons (readRecord_append hread input') ih

/-- A stream behind a stream is cut off again. -/
theorem cut {input input' : Bytes} {records all : List UnknownField} (h : Stream input records)
    (hall : Stream (input ++ input') all) :
    ∃ records', Stream input' records' ∧ all = records ++ records' := by
  induction h generalizing all with
  | nil => exact ⟨all, hall, rfl⟩
  | cons hread htail ih =>
      have hfirst := readRecord_append hread input'
      generalize _ ++ input' = whole at hall hfirst
      cases hall with
      | nil =>
          rw [readRecord_nil] at hfirst
          cases hfirst
      | cons hread' htail' =>
          obtain ⟨rfl, rfl⟩ := Prod.mk.inj (Option.some.inj (hread'.symm.trans hfirst))
          obtain ⟨records', hrecords', rfl⟩ := ih htail'
          exact ⟨records', hrecords', rfl⟩

theorem allValid {input : Bytes} {records : List UnknownField} (h : Stream input records) :
    AllValid recursionLimit records := by
  induction h with
  | nil => trivial
  | cons hread htail ih => exact ⟨readRecord_valid hread, ih⟩

end Stream

/-- Valid records are the stream of what the writer makes of them. -/
theorem stream_writeUnknowns {records : List UnknownField}
    (h : AllValid recursionLimit records) : Stream (writeUnknowns records) records := by
  induction records with
  | nil => exact .nil
  | cons record records ih => exact .cons (readRecord_writeUnknown h.1 _) (ih h.2)

end ProtoWire
