import Veos.Library.ProtoGenerated
import Veos.Library.ProtoSizes

/-!
# The message `PrimaryVehicleState`

The vehicle sends its state as one proto3 message.  This file has the message
type, its schema and the functions that `avisio_ivi.pb.cc` generates for it: the
serializer, the parser and the merge.

Both enums of the schema are open: a field of enum type holds any `int32`.  The
parser keeps fields it does not know, ends early at a zero tag or at a group end,
and fails on anything malformed.  `parseFromString` accepts only an input that the
parser reads to its end.
-/

namespace Veos
namespace Someip

open ProtoWire Base128

/-! ## The schema -/

/-- Values of the enum `Gear`, as the numbers that travel on the wire. -/
def GEAR_NEUTRAL : Int32 := 0
def GEAR_FIRST : Int32 := 1
def GEAR_REVERSE : Int32 := 7

/-- A value of the enum `LightStatus`. -/
def LIGHTS_ON : Int32 := 1

/-- The message.  The default values are those of a cleared message. -/
structure PrimaryVehicleState where
  timestampMs : UInt32 := 0
  speedKmh : UInt32 := 0
  engineRpm : UInt32 := 0
  currentGear : Int32 := 0
  batteryLevel : UInt32 := 0
  engineTempC : Int32 := 0
  isCharging : Bool := false
  exteriorLightsStatus : Int32 := 0
  cabinTempC : Int32 := 0
  acOn : Bool := false
  turnSignalLeft : Bool := false
  turnSignalRight : Bool := false
  hazardLightsOn : Bool := false
  unknownFields : List UnknownField := []
  deriving Repr, Inhabited

/-! ## Serializing -/

/-- `PrimaryVehicleState::_InternalSerialize`. -/
def internalSerialize (s : PrimaryVehicleState) : Bytes :=
  uint32Field 1 s.timestampMs ++
  (uint32Field 2 s.speedKmh ++
  (uint32Field 3 s.engineRpm ++
  (int32Field 4 s.currentGear ++
  (uint32Field 6 s.batteryLevel ++
  (int32Field 7 s.engineTempC ++
  (boolField 8 s.isCharging ++
  (int32Field 9 s.exteriorLightsStatus ++
  (int32Field 10 s.cabinTempC ++
  (boolField 11 s.acOn ++
  (boolField 12 s.turnSignalLeft ++
  (boolField 13 s.turnSignalRight ++
  (boolField 14 s.hazardLightsOn ++
  writeUnknowns s.unknownFields))))))))))))

/-- `SerializeToString`, which refuses messages of more than `INT_MAX` bytes. -/
def serializeToString (s : PrimaryVehicleState) : Option Bytes :=
  let data := internalSerialize s
  if 2 ^ 31 - 1 < data.length then none else some data

/-! ## The generated class -/

namespace PrimaryVehicleState

def keep (s : PrimaryVehicleState) (record : UnknownField) : PrimaryVehicleState :=
  { s with unknownFields := s.unknownFields ++ [record] }

/-- The switch of `PrimaryVehicleState::_InternalParse`. -/
def parseField : Switch PrimaryVehicleState := fun tag s input =>
  match fieldNumber tag with
  | 1 => fieldCase keep 8 readVarint32 (fun s v => { s with timestampMs := v }) tag s input
  | 2 => fieldCase keep 16 readVarint32 (fun s v => { s with speedKmh := v }) tag s input
  | 3 => fieldCase keep 24 readVarint32 (fun s v => { s with engineRpm := v }) tag s input
  | 4 => fieldCase keep 32 readEnum (fun s v => { s with currentGear := v }) tag s input
  | 6 => fieldCase keep 48 readVarint32 (fun s v => { s with batteryLevel := v }) tag s input
  | 7 => fieldCase keep 56 readInt32 (fun s v => { s with engineTempC := v }) tag s input
  | 8 => fieldCase keep 64 readBool (fun s v => { s with isCharging := v }) tag s input
  | 9 => fieldCase keep 72 readEnum (fun s v => { s with exteriorLightsStatus := v }) tag s input
  | 10 => fieldCase keep 80 readInt32 (fun s v => { s with cabinTempC := v }) tag s input
  | 11 => fieldCase keep 88 readBool (fun s v => { s with acOn := v }) tag s input
  | 12 => fieldCase keep 96 readBool (fun s v => { s with turnSignalLeft := v }) tag s input
  | 13 => fieldCase keep 104 readBool (fun s v => { s with turnSignalRight := v }) tag s input
  | 14 => fieldCase keep 112 readBool (fun s v => { s with hazardLightsOn := v }) tag s input
  | _ => unusual keep tag s input

/-- `PrimaryVehicleState::MergeImpl`. -/
def mergeImpl (this other : PrimaryVehicleState) : PrimaryVehicleState where
  timestampMs := mergeField 0 this.timestampMs other.timestampMs
  speedKmh := mergeField 0 this.speedKmh other.speedKmh
  engineRpm := mergeField 0 this.engineRpm other.engineRpm
  currentGear := mergeField 0 this.currentGear other.currentGear
  batteryLevel := mergeField 0 this.batteryLevel other.batteryLevel
  engineTempC := mergeField 0 this.engineTempC other.engineTempC
  exteriorLightsStatus := mergeField 0 this.exteriorLightsStatus other.exteriorLightsStatus
  cabinTempC := mergeField 0 this.cabinTempC other.cabinTempC
  isCharging := mergeField false this.isCharging other.isCharging
  acOn := mergeField false this.acOn other.acOn
  turnSignalLeft := mergeField false this.turnSignalLeft other.turnSignalLeft
  turnSignalRight := mergeField false this.turnSignalRight other.turnSignalRight
  hazardLightsOn := mergeField false this.hazardLightsOn other.hazardLightsOn
  unknownFields := this.unknownFields ++ other.unknownFields

def schema : Schema where
  fields := [(1, .uint32), (2, .uint32), (3, .uint32), (4, .int32), (6, .uint32), (7, .int32),
    (8, .bool), (9, .int32), (10, .int32), (11, .bool), (12, .bool), (13, .bool), (14, .bool)]
  bounds := by decide

/-- What a message holds. -/
def content (s : PrimaryVehicleState) : Content where
  value
    | 1 => ofUInt32 s.timestampMs
    | 2 => ofUInt32 s.speedKmh
    | 3 => ofUInt32 s.engineRpm
    | 4 => ofInt32 s.currentGear
    | 6 => ofUInt32 s.batteryLevel
    | 7 => ofInt32 s.engineTempC
    | 8 => ofBool s.isCharging
    | 9 => ofInt32 s.exteriorLightsStatus
    | 10 => ofInt32 s.cabinTempC
    | 11 => ofBool s.acOn
    | 12 => ofBool s.turnSignalLeft
    | 13 => ofBool s.turnSignalRight
    | 14 => ofBool s.hazardLightsOn
    | _ => 0
  unknown := s.unknownFields

/-- `PrimaryVehicleState` as a generated class. -/
def generated : Generated PrimaryVehicleState where
  schema := schema
  content := content
  content_injective := by
    intro s t h
    have hvalue := congrFun (congrArg Content.value h)
    cases s
    cases t
    simp only [mk.injEq]
    exact ⟨ofUInt32_injective (hvalue 1), ofUInt32_injective (hvalue 2),
      ofUInt32_injective (hvalue 3), ofInt32_injective (hvalue 4), ofUInt32_injective (hvalue 6),
      ofInt32_injective (hvalue 7), ofBool_injective (hvalue 8), ofInt32_injective (hvalue 9),
      ofInt32_injective (hvalue 10), ofBool_injective (hvalue 11), ofBool_injective (hvalue 12),
      ofBool_injective (hvalue 13), ofBool_injective (hvalue 14), congrArg Content.unknown h⟩
  content_fits s number := by
    match number with
    | 0 | 5 | _ + 15 => rfl
    | 1 | 2 | 3 | 6 => exact truncate_ofUInt32 _
    | 4 | 7 | 9 | 10 => exact truncate_ofInt32 _
    | 8 | 11 | 12 | 13 | 14 => exact truncate_ofBool _
  new := {}
  content_new := by
    refine Content.ext (funext fun number => ?_) rfl
    match number with
    | 0 | 1 | 2 | 3 | 4 | 5 | 6 | 7 | 8 | 9 | 10 | 11 | 12 | 13 | 14 | _ + 15 => rfl
  switch := parseField
  absorbs tag s input := by
    unfold parseField
    split
    case h_14 =>
      refine absorbs_unusual keep (fun _ => rfl) (fun hknown => ?_) input
      have hmem := (schema.scalar_isSome_iff _).1 hknown.2
      simp only [schema, Schema.numbers, List.map_cons, List.map_nil, List.mem_cons,
        List.not_mem_nil, or_false] at hmem
      tauto
    all_goals
      rename_i htag
      first
        | refine absorbs_uint32 (fun _ => rfl) htag (by decide) rfl
            (fun value => Content.ext (funext fun number => ?_) rfl) input
        | refine absorbs_int32 (fun _ => rfl) htag (by decide) rfl
            (fun value => Content.ext (funext fun number => ?_) rfl) input
        | refine absorbs_enum (fun _ => rfl) htag (by decide) rfl
            (fun value => Content.ext (funext fun number => ?_) rfl) input
        | refine absorbs_bool (fun _ => rfl) htag (by decide) rfl
            (fun value => Content.ext (funext fun number => ?_) rfl) input
      match number with
      | 0 | 1 | 2 | 3 | 4 | 5 | 6 | 7 | 8 | 9 | 10 | 11 | 12 | 13 | 14 | _ + 15 => rfl
  internalSerialize := Someip.internalSerialize
  internalSerialize_eq s := by
    simp [Someip.internalSerialize, Content.serialize, schema, Schema.numbers, content,
      uint32Field, int32Field, boolField]
  mergeFrom := mergeImpl
  content_mergeFrom s t := by
    refine Content.ext (funext fun number => ?_) rfl
    match number with
    | 0 | 5 | _ + 15 => rfl
    | 1 | 2 | 3 | 6 => exact of_mergeField ofUInt32_injective rfl _ _
    | 4 | 7 | 9 | 10 => exact of_mergeField ofInt32_injective rfl _ _
    | 8 | 11 | 12 | 13 | 14 => exact of_mergeField ofBool_injective rfl _ _

end PrimaryVehicleState

/-- `ParseFromString` on a cleared message. -/
def parseFromString (data : Bytes) : Option PrimaryVehicleState :=
  PrimaryVehicleState.generated.parse data

/-- The parser turns what the serializer wrote for a message without unknown
fields back into that message. -/
theorem parseFromString_internalSerialize (s : PrimaryVehicleState)
    (hunknown : s.unknownFields = []) : parseFromString (internalSerialize s) = some s :=
  PrimaryVehicleState.generated.parse_serialize (Content.kept_of_unknown_eq_nil hunknown)

/-! ## The size of a message -/

/-- The worst case is four full `uint32` fields, four negative `int32` or enum
fields and five true booleans: 78 bytes. -/
theorem internalSerialize_length_le (s : PrimaryVehicleState) (hunknown : s.unknownFields = []) :
    (internalSerialize s).length ≤ 78 := by
  have hend : (writeUnknowns s.unknownFields).length ≤ 0 := by
    rw [hunknown]
    exact le_rfl
  have hbools := append_length_le (boolField_length_le (show 11 < 16 by omega) s.acOn)
    (append_length_le (boolField_length_le (show 12 < 16 by omega) s.turnSignalLeft)
    (append_length_le (boolField_length_le (show 13 < 16 by omega) s.turnSignalRight)
    (append_length_le (boolField_length_le (show 14 < 16 by omega) s.hazardLightsOn) hend)))
  have hclimate := append_length_le (int32Field_length_le (show 7 < 16 by omega) s.engineTempC)
    (append_length_le (boolField_length_le (show 8 < 16 by omega) s.isCharging)
    (append_length_le (int32Field_length_le (show 9 < 16 by omega) s.exteriorLightsStatus)
    (append_length_le (int32Field_length_le (show 10 < 16 by omega) s.cabinTempC) hbools)))
  have hdrive := append_length_le (uint32Field_length_le (show 1 < 16 by omega) s.timestampMs)
    (append_length_le (uint32Field_length_le (show 2 < 16 by omega) s.speedKmh)
    (append_length_le (uint32Field_length_le (show 3 < 16 by omega) s.engineRpm)
    (append_length_le (int32Field_length_le (show 4 < 16 by omega) s.currentGear)
    (append_length_le (uint32Field_length_le (show 6 < 16 by omega) s.batteryLevel) hclimate))))
  exact hdrive

end Someip
end Veos
