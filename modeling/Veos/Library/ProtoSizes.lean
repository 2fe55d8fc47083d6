import Mathlib.Data.Nat.Log
import Veos.Library.ProtoRecords

/-!
# Sizes on the wire

The size functions of the runtime compute how many bytes a field takes without writing
it.  They agree with the writers.
-/

namespace ProtoWire

open Base128

/-- One byte for each base-128 digit. -/
def varintSize (n : Nat) : Nat := Nat.log 128 n + 1

theorem encode_length (n : Nat) : (encode n).length = varintSize n := by
  rw [encode, writeDigits_length, varintSize]
  by_cases hzero : n = 0
  · simp [hzero]
  · rw [Nat.length_digits 128 n (by omega) hzero]
    omega

def uint32Size (value : UInt32) : Nat := varintSize value.toNat
/-- Negative numbers are written with 64 bits. -/
def int32Size (value : Int32) : Nat := varintSize (signExtend value)

mutual

/-- `ComputeUnknownFieldsSize`, for one field. -/
def unknownSize : UnknownField → Nat
  | .varint number value => varintSize (8 * number) + varintSize value.toNat
  | .fixed64 number _ => varintSize (8 * number + 1) + 8
  | .lengthDelimited number payload =>
      varintSize (8 * number + 2) + varintSize payload.length + payload.length
  | .group number fields =>
      varintSize (8 * number + 3) + unknownSizes fields + varintSize (8 * number + 4)
  | .fixed32 number _ => varintSize (8 * number + 5) + 4

/-- `ComputeUnknownFieldsSize`. -/
def unknownSizes : List UnknownField → Nat
  | [] => 0
  | field :: fields => unknownSize field + unknownSizes fields

end

theorem encodeTag_length (number wire : Nat) :
    (encodeTag number wire).length = varintSize (8 * number + wire) := encode_length _

mutual

theorem writeUnknown_length {depth : Nat} (field : UnknownField) (h : Valid depth field) :
    (writeUnknown field).length = unknownSize field := by
  match field, h with
  | .varint number value, _ => simp [writeUnknown, unknownSize, encodeTag_length, encode_length]
  | .fixed64 number payload, h => simp [writeUnknown, unknownSize, encodeTag_length, h.2]
  | .lengthDelimited number payload, _ =>
      simp [writeUnknown, unknownSize, encodeTag_length, encode_length, Nat.add_assoc]
  | .group number fields, h =>
      have hfields := writeUnknowns_length fields h.2.2
      simp [writeUnknown, unknownSize, encodeTag_length, hfields, Nat.add_assoc]
  | .fixed32 number payload, h => simp [writeUnknown, unknownSize, encodeTag_length, h.2]

theorem writeUnknowns_length {depth : Nat} (fields : List UnknownField)
    (h : AllValid depth fields) : (writeUnknowns fields).length = unknownSizes fields := by
  match fields, h with
  | [], _ => rfl
  | field :: fields, h =>
      rw [writeUnknowns, unknownSizes, List.length_append, writeUnknown_length field h.1,
        writeUnknowns_length fields h.2]

end

/-- A field whose tag takes one byte. -/
theorem varintField_length {number : Nat} (hnumber : number < 16) (value : Nat) :
    (varintField number value).length = if value ≠ 0 then varintSize value + 1 else 0 := by
  by_cases hzero : value = 0
  · simp [varintField, hzero]
  · have htag : varintSize (8 * number + 0) = 1 := by
      rw [varintSize, Nat.log_of_lt (by omega)]
    rw [varintField, if_neg hzero, List.length_append, encodeTag_length, htag, encode_length,
      if_pos hzero, Nat.add_comm]

theorem uint32Field_length {number : Nat} (hnumber : number < 16) (value : UInt32) :
    (uint32Field number value).length = if value ≠ 0 then uint32Size value + 1 else 0 := by
  rw [uint32Field, varintField_length hnumber]
  simp [← UInt32.toNat_inj, uint32Size]

theorem int32Field_length {number : Nat} (hnumber : number < 16) (value : Int32) :
    (int32Field number value).length = if value ≠ 0 then int32Size value + 1 else 0 := by
  rw [int32Field, varintField_length hnumber]
  simp [signExtend_eq_zero_iff, int32Size]

theorem boolField_length {number : Nat} (hnumber : number < 16) (value : Bool) :
    (boolField number value).length = if value then 1 + 1 else 0 := by
  rw [boolField, varintField_length hnumber]
  cases value <;> simp [varintSize]

/-! ## Bounds -/

theorem varintField_length_le {number value size : Nat} (hnumber : number < 16)
    (hpos : 0 < size) (hvalue : value < 128 ^ size) :
    (varintField number value).length ≤ 1 + size := by
  unfold varintField
  split
  · simp
  · have htag : (encodeTag number 0).length ≤ 1 :=
      encode_length_le _ 1 (by omega) (by omega)
    have hpayload := encode_length_le value size hpos hvalue
    simp only [List.length_append]
    omega

theorem uint32Field_length_le {number : Nat} (hnumber : number < 16) (value : UInt32) :
    (uint32Field number value).length ≤ 6 := by
  have hbound := value.toNat_lt
  have hvalue : value.toNat < 128 ^ 5 := by omega
  exact varintField_length_le hnumber (by omega) hvalue

theorem int32Field_length_le {number : Nat} (hnumber : number < 16) (value : Int32) :
    (int32Field number value).length ≤ 11 := by
  have hbound := signExtend_lt value
  have hvalue : signExtend value < 128 ^ 10 := by omega
  exact varintField_length_le hnumber (by omega) hvalue

theorem boolField_length_le {number : Nat} (hnumber : number < 16) (value : Bool) :
    (boolField number value).length ≤ 2 := by
  have hbound : value.toNat < 128 ^ 1 := by cases value <;> decide
  exact varintField_length_le hnumber (by omega) hbound

theorem append_length_le {xs ys : Bytes} {m n : Nat} (hxs : xs.length ≤ m)
    (hys : ys.length ≤ n) : (xs ++ ys).length ≤ m + n := by
  rw [List.length_append]
  exact Nat.add_le_add hxs hys

end ProtoWire
