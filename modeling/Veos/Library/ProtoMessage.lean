import Veos.Library.LastWrite
import Veos.Library.ProtoRecords

/-!
# Schemas and the contents of messages

A `Schema` lists the singular varint fields of a message type, and `Content` is what a
message holds: a varint for each field and the records that the schema does not know.

A stream of records is read into a message record by record: `absorb` lets a record of
a known field set it and keeps any other record.  So the last record of a field decides
(`absorbAll_eq`).  Writing a message yields a stream, and reading that stream into
another message merges the two (`absorbAll_records`).
-/

namespace ProtoWire

open Base128 LastWrite

/-! ## Schemas -/

/-- The types of singular varint fields.  An enum field is read and written like an
`int32` field. -/
inductive Scalar
  | uint32
  | int32
  | bool
  deriving DecidableEq, Repr

/-- The varint that a field of each type is written as. -/
def ofUInt32 (value : UInt32) : UInt64 := value.toUInt64
def ofInt32 (value : Int32) : UInt64 := value.toInt64.toUInt64
def ofBool (value : Bool) : UInt64 := if value then 1 else 0

/-- What a field of the type holds once it has read a varint, as the varint that it is
written as. -/
def Scalar.truncate : Scalar → UInt64 → UInt64
  | .uint32, raw => ofUInt32 raw.toUInt32
  | .int32, raw => ofInt32 raw.toUInt32.toInt32
  | .bool, raw => ofBool (raw ≠ 0)

@[simp] theorem toNat_ofUInt32 (value : UInt32) : (ofUInt32 value).toNat = value.toNat := rfl

@[simp] theorem toNat_ofInt32 (value : Int32) : (ofInt32 value).toNat = signExtend value := rfl

@[simp] theorem toNat_ofBool (value : Bool) : (ofBool value).toNat = value.toNat := by
  cases value <;> rfl

theorem truncate_ofUInt32 (value : UInt32) :
    Scalar.truncate .uint32 (ofUInt32 value) = ofUInt32 value := by
  simp only [Scalar.truncate, ofUInt32, UInt32.toUInt32_toUInt64]

theorem toInt32_ofInt32 (value : Int32) : (ofInt32 value).toUInt32.toInt32 = value := by
  rw [← UInt32.ofNat_uInt64ToNat]
  exact toInt32_signExtend value

theorem truncate_ofInt32 (value : Int32) :
    Scalar.truncate .int32 (ofInt32 value) = ofInt32 value := by
  rw [Scalar.truncate, toInt32_ofInt32]

theorem truncate_ofBool (value : Bool) :
    Scalar.truncate .bool (ofBool value) = ofBool value := by
  cases value <;> rfl

theorem ofUInt32_injective : Function.Injective ofUInt32 := by
  intro a b h
  rw [← UInt32.toUInt32_toUInt64 a, ← UInt32.toUInt32_toUInt64 b]
  exact congrArg UInt64.toUInt32 h

theorem ofInt32_injective : Function.Injective ofInt32 := by
  intro a b h
  rw [← toInt32_ofInt32 a, ← toInt32_ofInt32 b, h]

theorem ofBool_injective : Function.Injective ofBool := by decide

/-- The numbers and types of the fields, in the order in which they are written.  All
tags take one byte. -/
structure Schema where
  fields : List (Nat × Scalar)
  bounds : ∀ number ∈ fields.map Prod.fst, 0 < number ∧ number < 16

namespace Schema

variable (σ : Schema)

def numbers : List Nat := σ.fields.map Prod.fst

/-- The type of a known field. -/
def scalar (number : Nat) : Option Scalar := σ.fields.lookup number

/-- What a field holds once it has read a varint.  Unknown fields hold nothing. -/
def truncate (number : Nat) (raw : UInt64) : UInt64 :=
  match σ.scalar number with
  | some type => type.truncate raw
  | none => 0

/-- The record sets a field of the schema. -/
def knows : UnknownField → Bool
  | .varint number _ => (σ.scalar number).isSome
  | _ => false

end Schema

/-! ## Contents -/

/-- What a message holds: the fields of its schema, as they are written, and the
records it does not know. -/
@[ext] structure Content where
  value : Nat → UInt64
  unknown : List UnknownField

namespace Content

/-- The contents of a new message. -/
def empty : Content := ⟨fun _ => 0, []⟩

/-- A field of the second message replaces that of the first unless it is zero. -/
def merge (m m' : Content) : Content where
  value number := if m'.value number ≠ 0 then m'.value number else m.value number
  unknown := m.unknown ++ m'.unknown

theorem merge_assoc (m m' m'' : Content) : (m.merge m').merge m'' = m.merge (m'.merge m'') := by
  refine Content.ext (funext fun number => ?_) (List.append_assoc ..)
  by_cases hlast : m''.value number = 0 <;> simp [merge, hlast]

theorem empty_merge (m : Content) : empty.merge m = m := by
  refine Content.ext (funext fun number => ?_) rfl
  by_cases hzero : m.value number = 0 <;> simp [merge, empty, hzero]

end Content

/-- A record of a known field sets the field, any other is kept. -/
def absorb (σ : Schema) (m : Content) (record : UnknownField) : Content :=
  match record with
  | .varint number raw =>
      match σ.scalar number with
      | some type => { m with value := Function.update m.value number (type.truncate raw) }
      | none => { m with unknown := m.unknown ++ [.varint number raw] }
  | record => { m with unknown := m.unknown ++ [record] }

def absorbAll (σ : Schema) (m : Content) (records : List UnknownField) : Content :=
  records.foldl (absorb σ) m

/-- The writes to known fields among some records. -/
def fieldWrites (σ : Schema) (records : List UnknownField) : List (Nat × UInt64) :=
  records.filterMap fun
    | .varint number raw => (σ.scalar number).map fun type => (number, type.truncate raw)
    | _ => none

theorem absorb_of_knows {σ : Schema} {number : Nat} {type : Scalar}
    (htype : σ.scalar number = some type) (m : Content) (raw : UInt64) :
    absorb σ m (.varint number raw) =
      { m with value := Function.update m.value number (type.truncate raw) } := by
  simp [absorb, htype]

theorem absorb_of_not_knows {σ : Schema} {record : UnknownField} (h : σ.knows record = false)
    (m : Content) : absorb σ m record = { m with unknown := m.unknown ++ [record] } := by
  cases record with
  | varint number raw =>
      have hnone : σ.scalar number = none := by simpa [Schema.knows] using h
      simp [absorb, hnone]
  | _ => rfl

/-- **The meaning of a stream.**  The last record of a known field decides what it
holds, and the unknown records are kept in order. -/
theorem absorbAll_eq (σ : Schema) (m : Content) (records : List UnknownField) :
    absorbAll σ m records =
      ⟨applyWrites m.value (fieldWrites σ records),
        m.unknown ++ records.filter fun record => !σ.knows record⟩ := by
  induction records generalizing m with
  | nil => simp [absorbAll, fieldWrites]
  | cons record records ih =>
      rw [absorbAll, List.foldl_cons, ← absorbAll, ih]
      cases hknows : σ.knows record with
      | false =>
          have hwrites : fieldWrites σ (record :: records) = fieldWrites σ records := by
            cases record <;> simp_all [fieldWrites, Schema.knows]
          simp [absorb_of_not_knows hknows, hwrites, hknows]
      | true =>
          cases record with
          | varint number raw =>
              obtain ⟨type, htype⟩ := Option.isSome_iff_exists.1 hknows
              simp [absorb_of_knows htype, fieldWrites, htype, hknows, applyWrite]
          | _ => cases hknows

theorem absorbAll_append (σ : Schema) (m : Content) (records records' : List UnknownField) :
    absorbAll σ m (records ++ records') = absorbAll σ (absorbAll σ m records) records' :=
  List.foldl_append

/-- Records that are kept. -/
theorem absorbAll_foreign {σ : Schema} {records : List UnknownField}
    (h : ∀ record ∈ records, σ.knows record = false) (m : Content) :
    absorbAll σ m records = { m with unknown := m.unknown ++ records } := by
  induction records generalizing m with
  | nil => simp [absorbAll]
  | cons record records ih =>
      rw [absorbAll, List.foldl_cons, ← absorbAll,
        absorb_of_not_knows (h record List.mem_cons_self),
        ih fun other hother => h other (List.mem_cons_of_mem record hother)]
      simp

/-! ## Writing contents -/

/-- The record that a field is written as.  Zero is not written. -/
def fieldRecord (m : Content) (number : Nat) : Option UnknownField :=
  if m.value number = 0 then none else some (.varint number (m.value number))

theorem fieldRecord_of_zero {m : Content} {number : Nat} (h : m.value number = 0) :
    fieldRecord m number = none := if_pos h

theorem fieldRecord_of_ne {m : Content} {number : Nat} (h : m.value number ≠ 0) :
    fieldRecord m number = some (.varint number (m.value number)) := if_neg h

/-- The records that a message is written as. -/
def Content.records (σ : Schema) (m : Content) : List UnknownField :=
  σ.numbers.filterMap (fieldRecord m) ++ m.unknown

theorem writeUnknowns_append (fields fields' : List UnknownField) :
    writeUnknowns (fields ++ fields') = writeUnknowns fields ++ writeUnknowns fields' := by
  induction fields with
  | nil => rfl
  | cons field fields ih => simp [writeUnknowns, ih]

/-- The fields in the order of the schema, then the unknown records. -/
def Content.serialize (σ : Schema) (m : Content) : Bytes :=
  (σ.numbers.flatMap fun number => varintField number (m.value number).toNat) ++
    writeUnknowns m.unknown

theorem serialize_eq_records (σ : Schema) (m : Content) :
    m.serialize σ = writeUnknowns (m.records σ) := by
  rw [Content.serialize, Content.records, writeUnknowns_append]
  congr 1
  induction σ.numbers with
  | nil => rfl
  | cons number numbers ih =>
      rw [List.flatMap_cons, ih]
      by_cases hzero : m.value number = 0
      · rw [List.filterMap_cons_none (fieldRecord_of_zero hzero), varintField, hzero]
        rfl
      · have hne : (m.value number).toNat ≠ 0 := fun h => hzero (UInt64.toNat_inj.1 h)
        rw [List.filterMap_cons_some (fieldRecord_of_ne hzero), varintField, if_neg hne,
          writeUnknowns, writeUnknown]

/-- The contents fit the schema: each known field holds a value of its type, and the
others hold nothing. -/
def Content.Fits (σ : Schema) (m : Content) : Prop :=
  ∀ number, σ.truncate number (m.value number) = m.value number

/-- The unknown records are such that a parser keeps them. -/
structure Content.Kept (σ : Schema) (m : Content) : Prop where
  valid : AllValid recursionLimit m.unknown
  foreign : ∀ record ∈ m.unknown, σ.knows record = false

theorem Content.kept_of_unknown_eq_nil {σ : Schema} {m : Content} (h : m.unknown = []) :
    m.Kept σ :=
  ⟨by rw [h]; trivial, by simp [h]⟩

theorem Schema.scalar_isSome_iff (σ : Schema) (number : Nat) :
    (σ.scalar number).isSome = true ↔ number ∈ σ.numbers := by
  cases hscalar : σ.scalar number with
  | some type =>
      obtain ⟨before, after, hfields, -⟩ := List.lookup_eq_some_iff.1 hscalar
      simp [numbers, hfields]
  | none =>
      rw [scalar, List.lookup_eq_none_iff] at hscalar
      simp only [Option.isSome_none, Bool.false_eq_true, false_iff, numbers, List.mem_map]
      rintro ⟨field, hfield, rfl⟩
      simpa using hscalar field hfield

/-- The records of some fields, absorbed under any schema: the known fields that are
not zero are replaced, and the others are kept as records. -/
theorem absorbAll_fieldRecords (σ : Schema) (m' : Content) (numbers : List Nat) (m : Content) :
    absorbAll σ m (numbers.filterMap (fieldRecord m')) =
      { value := fun number =>
          if number ∈ numbers ∧ number ∈ σ.numbers ∧ m'.value number ≠ 0 then
            σ.truncate number (m'.value number)
          else m.value number
        unknown := m.unknown ++ (numbers.filter (· ∉ σ.numbers)).filterMap (fieldRecord m') } := by
  induction numbers generalizing m with
  | nil => simp [absorbAll]
  | cons first numbers ih =>
      by_cases hzero : m'.value first = 0
      · rw [List.filterMap_cons_none (fieldRecord_of_zero hzero), ih]
        refine Content.ext (funext fun number => ?_) ?_
        · by_cases hnumber : number = first
          · subst hnumber
            simp [hzero]
          · simp [hnumber]
        · by_cases hknown : first ∈ σ.numbers <;> simp [hknown, fieldRecord_of_zero hzero]
      · rw [List.filterMap_cons_some (fieldRecord_of_ne hzero), absorbAll, List.foldl_cons,
          ← absorbAll]
        cases htype : σ.scalar first with
        | none =>
            have hknown : first ∉ σ.numbers := by
              rw [← σ.scalar_isSome_iff, htype]
              simp
            rw [absorb_of_not_knows (by simp [Schema.knows, htype]), ih]
            refine Content.ext (funext fun number => ?_) ?_
            · by_cases hnumber : number = first
              · subst hnumber
                simp [hknown]
              · simp [hnumber]
            · simp [hknown, fieldRecord_of_ne hzero]
        | some type =>
            have hknown : first ∈ σ.numbers := by
              rw [← σ.scalar_isSome_iff, htype]
              rfl
            rw [absorb_of_knows htype, ih]
            refine Content.ext (funext fun number => ?_) ?_
            · by_cases hnumber : number = first
              · subst hnumber
                simp [hknown, hzero, Schema.truncate, htype]
              · simp [hnumber]
            · simp [hknown]

/-- **Absorbing what a message is written as merges it.** -/
theorem absorbAll_records {σ : Schema} {m' : Content} (hfits : m'.Fits σ) (hkept : m'.Kept σ)
    (m : Content) : absorbAll σ m (m'.records σ) = m.merge m' := by
  rw [Content.records, absorbAll_append, absorbAll_foreign hkept.foreign, absorbAll_fieldRecords]
  refine Content.ext (funext fun number => ?_) ?_
  · by_cases hmem : number ∈ σ.numbers
    · simp [hmem, Content.merge, hfits number]
    -- a number outside the schema holds nothing
    · have hnone : σ.scalar number = none := by
        rw [← Option.not_isSome_iff_eq_none, σ.scalar_isSome_iff]
        exact hmem
      have hzero : m'.value number = 0 := by
        rw [← hfits number, Schema.truncate, hnone]
      simp [hmem, Content.merge, hzero]
  · have hnone : σ.numbers.filter (· ∉ σ.numbers) = [] := by simp
    rw [hnone]
    simp [Content.merge]

theorem allValid_fieldRecords (m : Content) (numbers : List Nat)
    (hbounds : ∀ number ∈ numbers, 0 < number ∧ number < 16) :
    AllValid recursionLimit (numbers.filterMap (fieldRecord m)) := by
  induction numbers with
  | nil => trivial
  | cons number numbers ih =>
      have hrest := ih fun other hother => hbounds other (List.mem_cons_of_mem number hother)
      obtain ⟨hpos, hsmall⟩ := hbounds number List.mem_cons_self
      by_cases hzero : m.value number = 0
      · rw [List.filterMap_cons_none (fieldRecord_of_zero hzero)]
        exact hrest
      · rw [List.filterMap_cons_some (fieldRecord_of_ne hzero)]
        exact ⟨⟨hpos, by omega⟩, hrest⟩

/-- What a message is written as is a stream. -/
theorem stream_serialize {σ : Schema} {m : Content} (hkept : m.Kept σ) :
    Stream (m.serialize σ) (m.records σ) := by
  rw [serialize_eq_records]
  apply stream_writeUnknowns
  rw [Content.records, allValid_append]
  exact ⟨allValid_fieldRecords m σ.numbers σ.bounds, hkept.valid⟩

/-- The contents of a parsed message are kept when it is parsed again. -/
theorem absorbAll_kept {σ : Schema} {records : List UnknownField}
    (hvalid : AllValid recursionLimit records) {m : Content} (hkept : m.Kept σ) :
    (absorbAll σ m records).Kept σ := by
  induction records generalizing m with
  | nil => exact hkept
  | cons record records ih =>
      refine ih hvalid.2 ?_
      cases hknows : σ.knows record with
      | false =>
          rw [absorb_of_not_knows hknows]
          refine ⟨(allValid_append ..).2 ⟨hkept.valid, hvalid.1, trivial⟩, fun other hother => ?_⟩
          rcases List.mem_append.1 hother with hmem | hmem
          · exact hkept.foreign other hmem
          · rw [List.mem_singleton.1 hmem, hknows]
      | true =>
          cases record with
          | varint number raw =>
              obtain ⟨type, htype⟩ := Option.isSome_iff_exists.1 hknows
              rw [absorb_of_knows htype]
              exact ⟨hkept.valid, hkept.foreign⟩
          | _ => cases hknows

end ProtoWire
