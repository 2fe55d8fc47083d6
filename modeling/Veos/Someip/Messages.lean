import Veos.Library.ProtoGenerated

/-!
# The other message classes of `avisio_ivi.pb.cc`

The schema has three messages.  `PrimaryVehicleState` is the one that the client
handles; `SignalLightingStatus` and `SafetyStatus` are generated beside it, with the
same functions over other fields.
-/

namespace Veos
namespace Someip

open ProtoWire Base128

/-! ## `SignalLightingStatus` -/

structure SignalLightingStatus where
  timestampMs : UInt32 := 0
  turnSignals : UInt32 := 0
  exteriorLights : UInt32 := 0
  unknownFields : List UnknownField := []
  deriving Repr, Inhabited

namespace SignalLightingStatus

/-- `SignalLightingStatus::_InternalSerialize`. -/
def internalSerialize (s : SignalLightingStatus) : Bytes :=
  uint32Field 1 s.timestampMs ++
  (uint32Field 2 s.turnSignals ++
  (uint32Field 3 s.exteriorLights ++
  writeUnknowns s.unknownFields))

def keep (s : SignalLightingStatus) (record : UnknownField) : SignalLightingStatus :=
  { s with unknownFields := s.unknownFields ++ [record] }

/-- The switch of `SignalLightingStatus::_InternalParse`. -/
def parseField : Switch SignalLightingStatus := fun tag s input =>
  match fieldNumber tag with
  | 1 => fieldCase keep 8 readVarint32 (fun s v => { s with timestampMs := v }) tag s input
  | 2 => fieldCase keep 16 readVarint32 (fun s v => { s with turnSignals := v }) tag s input
  | 3 => fieldCase keep 24 readVarint32 (fun s v => { s with exteriorLights := v }) tag s input
  | _ => unusual keep tag s input

/-- `SignalLightingStatus::MergeImpl`. -/
def mergeImpl (this other : SignalLightingStatus) : SignalLightingStatus where
  timestampMs := mergeField 0 this.timestampMs other.timestampMs
  turnSignals := mergeField 0 this.turnSignals other.turnSignals
  exteriorLights := mergeField 0 this.exteriorLights other.exteriorLights
  unknownFields := this.unknownFields ++ other.unknownFields

def schema : Schema where
  fields := [(1, .uint32), (2, .uint32), (3, .uint32)]
  bounds := by decide

/-- What a message holds. -/
def content (s : SignalLightingStatus) : Content where
  value
    | 1 => ofUInt32 s.timestampMs
    | 2 => ofUInt32 s.turnSignals
    | 3 => ofUInt32 s.exteriorLights
    | _ => 0
  unknown := s.unknownFields

/-- `SignalLightingStatus` as a generated class. -/
def generated : Generated SignalLightingStatus where
  schema := schema
  content := content
  content_injective := by
    intro s t h
    have hvalue := congrFun (congrArg Content.value h)
    cases s
    cases t
    simp only [mk.injEq]
    exact ⟨ofUInt32_injective (hvalue 1), ofUInt32_injective (hvalue 2),
      ofUInt32_injective (hvalue 3), congrArg Content.unknown h⟩
  content_fits s number := by
    match number with
    | 0 | _ + 4 => rfl
    | 1 | 2 | 3 => exact truncate_ofUInt32 _
  new := {}
  content_new := by
    refine Content.ext (funext fun number => ?_) rfl
    match number with
    | 0 | 1 | 2 | 3 | _ + 4 => rfl
  switch := parseField
  absorbs tag s input := by
    unfold parseField
    split
    case h_4 =>
      refine absorbs_unusual keep (fun _ => rfl) (fun hknown => ?_) input
      have hmem := (schema.scalar_isSome_iff _).1 hknown.2
      simp only [schema, Schema.numbers, List.map_cons, List.map_nil, List.mem_cons,
        List.not_mem_nil, or_false] at hmem
      tauto
    all_goals
      rename_i htag
      refine absorbs_uint32 (fun _ => rfl) htag (by decide) rfl
        (fun value => Content.ext (funext fun number => ?_) rfl) input
      match number with
      | 0 | 1 | 2 | 3 | _ + 4 => rfl
  internalSerialize := internalSerialize
  internalSerialize_eq s := by
    simp [internalSerialize, Content.serialize, schema, Schema.numbers, content, uint32Field]
  mergeFrom := mergeImpl
  content_mergeFrom s t := by
    refine Content.ext (funext fun number => ?_) rfl
    match number with
    | 0 | _ + 4 => rfl
    | 1 | 2 | 3 => exact of_mergeField ofUInt32_injective rfl _ _

/-- `ParseFromString` on a new message. -/
def parseFromString (data : Bytes) : Option SignalLightingStatus := generated.parse data

end SignalLightingStatus

/-! ## `SafetyStatus` -/

structure SafetyStatus where
  timestampMs : UInt32 := 0
  seatbeltFastened : Bool := false
  airbagOk : Bool := false
  absActive : Bool := false
  tractionControl : Bool := false
  unknownFields : List UnknownField := []
  deriving Repr, Inhabited

namespace SafetyStatus

/-- `SafetyStatus::_InternalSerialize`. -/
def internalSerialize (s : SafetyStatus) : Bytes :=
  uint32Field 1 s.timestampMs ++
  (boolField 2 s.seatbeltFastened ++
  (boolField 3 s.airbagOk ++
  (boolField 4 s.absActive ++
  (boolField 5 s.tractionControl ++
  writeUnknowns s.unknownFields))))

def keep (s : SafetyStatus) (record : UnknownField) : SafetyStatus :=
  { s with unknownFields := s.unknownFields ++ [record] }

/-- The switch of `SafetyStatus::_InternalParse`. -/
def parseField : Switch SafetyStatus := fun tag s input =>
  match fieldNumber tag with
  | 1 => fieldCase keep 8 readVarint32 (fun s v => { s with timestampMs := v }) tag s input
  | 2 => fieldCase keep 16 readBool (fun s v => { s with seatbeltFastened := v }) tag s input
  | 3 => fieldCase keep 24 readBool (fun s v => { s with airbagOk := v }) tag s input
  | 4 => fieldCase keep 32 readBool (fun s v => { s with absActive := v }) tag s input
  | 5 => fieldCase keep 40 readBool (fun s v => { s with tractionControl := v }) tag s input
  | _ => unusual keep tag s input

/-- `SafetyStatus::MergeImpl`. -/
def mergeImpl (this other : SafetyStatus) : SafetyStatus where
  timestampMs := mergeField 0 this.timestampMs other.timestampMs
  seatbeltFastened := mergeField false this.seatbeltFastened other.seatbeltFastened
  airbagOk := mergeField false this.airbagOk other.airbagOk
  absActive := mergeField false this.absActive other.absActive
  tractionControl := mergeField false this.tractionControl other.tractionControl
  unknownFields := this.unknownFields ++ other.unknownFields

def schema : Schema where
  fields := [(1, .uint32), (2, .bool), (3, .bool), (4, .bool), (5, .bool)]
  bounds := by decide

/-- What a message holds. -/
def content (s : SafetyStatus) : Content where
  value
    | 1 => ofUInt32 s.timestampMs
    | 2 => ofBool s.seatbeltFastened
    | 3 => ofBool s.airbagOk
    | 4 => ofBool s.absActive
    | 5 => ofBool s.tractionControl
    | _ => 0
  unknown := s.unknownFields

/-- `SafetyStatus` as a generated class. -/
def generated : Generated SafetyStatus where
  schema := schema
  content := content
  content_injective := by
    intro s t h
    have hvalue := congrFun (congrArg Content.value h)
    cases s
    cases t
    simp only [mk.injEq]
    exact ⟨ofUInt32_injective (hvalue 1), ofBool_injective (hvalue 2),
      ofBool_injective (hvalue 3), ofBool_injective (hvalue 4), ofBool_injective (hvalue 5),
      congrArg Content.unknown h⟩
  content_fits s number := by
    match number with
    | 0 | _ + 6 => rfl
    | 1 => exact truncate_ofUInt32 _
    | 2 | 3 | 4 | 5 => exact truncate_ofBool _
  new := {}
  content_new := by
    refine Content.ext (funext fun number => ?_) rfl
    match number with
    | 0 | 1 | 2 | 3 | 4 | 5 | _ + 6 => rfl
  switch := parseField
  absorbs tag s input := by
    unfold parseField
    split
    case h_6 =>
      refine absorbs_unusual keep (fun _ => rfl) (fun hknown => ?_) input
      have hmem := (schema.scalar_isSome_iff _).1 hknown.2
      simp only [schema, Schema.numbers, List.map_cons, List.map_nil, List.mem_cons,
        List.not_mem_nil, or_false] at hmem
      tauto
    all_goals
      rename_i htag
      first
        | refine absorbs_uint32 (fun _ => rfl) htag (by decide) rfl
            (fun value => Content.ext (funext fun number => ?_) rfl) input
        | refine absorbs_bool (fun _ => rfl) htag (by decide) rfl
            (fun value => Content.ext (funext fun number => ?_) rfl) input
      match number with
      | 0 | 1 | 2 | 3 | 4 | 5 | _ + 6 => rfl
  internalSerialize := internalSerialize
  internalSerialize_eq s := by
    simp [internalSerialize, Content.serialize, schema, Schema.numbers, content, uint32Field,
      boolField]
  mergeFrom := mergeImpl
  content_mergeFrom s t := by
    refine Content.ext (funext fun number => ?_) rfl
    match number with
    | 0 | _ + 6 => rfl
    | 1 => exact of_mergeField ofUInt32_injective rfl _ _
    | 2 | 3 | 4 | 5 => exact of_mergeField ofBool_injective rfl _ _

/-- `ParseFromString` on a new message. -/
def parseFromString (data : Bytes) : Option SafetyStatus := generated.parse data

end SafetyStatus

end Someip
end Veos
