import Mathlib.Tactic.Ring
import Veos.Someip.Messages
import Veos.Someip.StatusRuns

/-!
# The format of the three messages

What the generated functions of the three message classes do together, for every input
and every message:

* the parsers accept the same inputs, the streams of records, and the last record of a
  field decides what the field holds (`accepted_iff_stream`);
* an accepted message survives being written and parsed again, with the fields of
  schemas that the client does not know (`reserialized_survives`);
* appending what was written merges (`appended_merges`);
* `ByteSizeLong` is the number of bytes that the serializer writes (`byteSizeLong_eq`).

No type travels with a message.  The client reads a `SafetyStatus` or a
`SignalLightingStatus` as a vehicle state and publishes it (`other_messages_published`).
-/

namespace Veos
namespace Someip

open ProtoWire Base128 LastWrite Vhal

/-! ## What is accepted -/

/-- What a parsed message holds: the last record of each known field, and the unknown
records in order. -/
def Meaning (schema : Schema) (records : List UnknownField) (content : Content) : Prop :=
  (∀ number, content.value number = (lastValue number (fieldWrites schema records)).getD 0) ∧
    content.unknown = records.filter fun record => !schema.knows record

theorem meaning_iff (schema : Schema) (records : List UnknownField) (content : Content) :
    Meaning schema records content ↔ content = absorbAll schema .empty records := by
  have hvalue : ∀ number, applyWrites (fun _ => (0 : UInt64)) (fieldWrites schema records) number =
      (lastValue number (fieldWrites schema records)).getD 0 := applyWrites_apply _ _
  rw [absorbAll_eq, Content.ext_iff, Meaning, funext_iff]
  simp only [Content.empty, hvalue, List.nil_append]

/-- **What the parsers accept, and as what.**  Each of the three parsers accepts exactly the
inputs that are streams of records, whatever its schema, and returns the message that
holds the last record of each field and the unknown records. -/
theorem accepted_iff_stream (data : Bytes) :
    ((parseFromString data).isSome = true ↔ ∃ records, Stream data records) ∧
    ((SignalLightingStatus.parseFromString data).isSome = true ↔ ∃ records, Stream data records) ∧
    ((SafetyStatus.parseFromString data).isSome = true ↔ ∃ records, Stream data records) ∧
    (∀ s, parseFromString data = some s ↔ ∃ records, Stream data records ∧
      Meaning PrimaryVehicleState.schema records (PrimaryVehicleState.content s)) ∧
    (∀ s, SignalLightingStatus.parseFromString data = some s ↔ ∃ records, Stream data records ∧
      Meaning SignalLightingStatus.schema records (SignalLightingStatus.content s)) ∧
    (∀ s, SafetyStatus.parseFromString data = some s ↔ ∃ records, Stream data records ∧
      Meaning SafetyStatus.schema records (SafetyStatus.content s)) := by
  simp only [meaning_iff]
  exact ⟨PrimaryVehicleState.generated.parse_isSome_iff data,
    SignalLightingStatus.generated.parse_isSome_iff data,
    SafetyStatus.generated.parse_isSome_iff data,
    PrimaryVehicleState.generated.parse_eq_some_iff data,
    SignalLightingStatus.generated.parse_eq_some_iff data,
    SafetyStatus.generated.parse_eq_some_iff data⟩

/-! ## Writing what was read -/

/-- **An accepted message survives being written and parsed again**, unknown fields
included. -/
theorem reserialized_survives (data : Bytes) :
    (∀ s, parseFromString data = some s → parseFromString (internalSerialize s) = some s) ∧
    (∀ s, SignalLightingStatus.parseFromString data = some s →
      SignalLightingStatus.parseFromString s.internalSerialize = some s) ∧
    (∀ s, SafetyStatus.parseFromString data = some s →
      SafetyStatus.parseFromString s.internalSerialize = some s) :=
  ⟨fun _ => PrimaryVehicleState.generated.parse_serialize_of_parse,
    fun _ => SignalLightingStatus.generated.parse_serialize_of_parse,
    fun _ => SafetyStatus.generated.parse_serialize_of_parse⟩

/-- A speed that was written with a byte too many. -/
theorem overlong_survives :
    parseFromString (internalSerialize { speedKmh := 5 }) = some { speedKmh := 5 } :=
  (reserialized_survives [16, 133, 0]).1 { speedKmh := 5 } rfl

/-! ## Merging -/

/-- `Clear`. -/
def PrimaryVehicleState.clear (_ : PrimaryVehicleState) : PrimaryVehicleState := {}
def SignalLightingStatus.clear (_ : SignalLightingStatus) : SignalLightingStatus := {}
def SafetyStatus.clear (_ : SafetyStatus) : SafetyStatus := {}

/-- `CopyFrom`, from another object. -/
def PrimaryVehicleState.copyFrom (this other : PrimaryVehicleState) : PrimaryVehicleState :=
  this.clear.mergeImpl other

def SignalLightingStatus.copyFrom (this other : SignalLightingStatus) : SignalLightingStatus :=
  this.clear.mergeImpl other

def SafetyStatus.copyFrom (this other : SafetyStatus) : SafetyStatus :=
  this.clear.mergeImpl other

/-- What a merge and a copy promise, for one message class: what was written behind an
accepted input is merged into its message, the behaviour behind an accepted input is
that of the rest alone, merging is associative, and a copy is equal to its source. -/
structure MergesAppended {M : Type} (parse : Bytes → Option M) (serialize : M → Bytes)
    (merge copy : M → M → M) : Prop where
  appended : ∀ data data' s s', parse data = some s → parse data' = some s' →
    parse (data ++ serialize s') = some (merge s s')
  accepted : ∀ data more, (parse data).isSome = true →
    (parse (data ++ more)).isSome = (parse more).isSome
  assoc : ∀ s s' s'', merge (merge s s') s'' = merge s (merge s' s'')
  copied : ∀ s s', copy s s' = s'

theorem generated_mergesAppended {M : Type} (g : Generated M) :
    MergesAppended g.parse g.internalSerialize g.mergeFrom fun _ => g.mergeFrom g.new where
  appended _ _ _ _ h h' := g.parse_append_serialize h (g.kept_of_parse h')
  accepted _ more h := g.parse_append_isSome h more
  assoc := g.mergeFrom_assoc
  copied _ := g.mergeFrom_new

/-- **Appending what was written merges.** -/
theorem appended_merges :
    MergesAppended parseFromString internalSerialize PrimaryVehicleState.mergeImpl
      PrimaryVehicleState.copyFrom ∧
    MergesAppended SignalLightingStatus.parseFromString SignalLightingStatus.internalSerialize
      SignalLightingStatus.mergeImpl SignalLightingStatus.copyFrom ∧
    MergesAppended SafetyStatus.parseFromString SafetyStatus.internalSerialize
      SafetyStatus.mergeImpl SafetyStatus.copyFrom :=
  ⟨generated_mergesAppended PrimaryVehicleState.generated,
    generated_mergesAppended SignalLightingStatus.generated,
    generated_mergesAppended SafetyStatus.generated⟩

/-- A zero on the wire is not what the serializer writes: it replaces, and does not
merge. -/
example : (parseFromString ([16, 5] ++ [16, 0])).map (·.speedKmh) = some 0 := by decide

/-! ## Sizes -/

/-- `PrimaryVehicleState::ByteSizeLong`. -/
def PrimaryVehicleState.byteSizeLong (s : PrimaryVehicleState) : Nat :=
  (if s.timestampMs ≠ 0 then uint32Size s.timestampMs + 1 else 0) +
  (if s.speedKmh ≠ 0 then uint32Size s.speedKmh + 1 else 0) +
  (if s.engineRpm ≠ 0 then uint32Size s.engineRpm + 1 else 0) +
  (if s.currentGear ≠ 0 then 1 + int32Size s.currentGear else 0) +
  (if s.batteryLevel ≠ 0 then uint32Size s.batteryLevel + 1 else 0) +
  (if s.engineTempC ≠ 0 then int32Size s.engineTempC + 1 else 0) +
  (if s.exteriorLightsStatus ≠ 0 then 1 + int32Size s.exteriorLightsStatus else 0) +
  (if s.cabinTempC ≠ 0 then int32Size s.cabinTempC + 1 else 0) +
  (if s.isCharging then 1 + 1 else 0) +
  (if s.acOn then 1 + 1 else 0) +
  (if s.turnSignalLeft then 1 + 1 else 0) +
  (if s.turnSignalRight then 1 + 1 else 0) +
  (if s.hazardLightsOn then 1 + 1 else 0) +
  unknownSizes s.unknownFields

/-- `SignalLightingStatus::ByteSizeLong`. -/
def SignalLightingStatus.byteSizeLong (s : SignalLightingStatus) : Nat :=
  (if s.timestampMs ≠ 0 then uint32Size s.timestampMs + 1 else 0) +
  (if s.turnSignals ≠ 0 then uint32Size s.turnSignals + 1 else 0) +
  (if s.exteriorLights ≠ 0 then uint32Size s.exteriorLights + 1 else 0) +
  unknownSizes s.unknownFields

/-- `SafetyStatus::ByteSizeLong`. -/
def SafetyStatus.byteSizeLong (s : SafetyStatus) : Nat :=
  (if s.timestampMs ≠ 0 then uint32Size s.timestampMs + 1 else 0) +
  (if s.seatbeltFastened then 1 + 1 else 0) +
  (if s.airbagOk then 1 + 1 else 0) +
  (if s.absActive then 1 + 1 else 0) +
  (if s.tractionControl then 1 + 1 else 0) +
  unknownSizes s.unknownFields

/-- **`ByteSizeLong` is the length of the serialization**, for every message whose
unknown fields are valid.  All unknown fields that a parser returns are. -/
theorem byteSizeLong_eq (depth : Nat) :
    (∀ s : PrimaryVehicleState, AllValid depth s.unknownFields →
      s.byteSizeLong = (internalSerialize s).length) ∧
    (∀ s : SignalLightingStatus, AllValid depth s.unknownFields →
      s.byteSizeLong = s.internalSerialize.length) ∧
    (∀ s : SafetyStatus, AllValid depth s.unknownFields →
      s.byteSizeLong = s.internalSerialize.length) := by
  refine ⟨fun s h => ?_, fun s h => ?_, fun s h => ?_⟩
  · simp only [internalSerialize, List.length_append, writeUnknowns_length _ h,
      uint32Field_length (show 1 < 16 by omega), uint32Field_length (show 2 < 16 by omega),
      uint32Field_length (show 3 < 16 by omega), int32Field_length (show 4 < 16 by omega),
      uint32Field_length (show 6 < 16 by omega), int32Field_length (show 7 < 16 by omega),
      boolField_length (show 8 < 16 by omega), int32Field_length (show 9 < 16 by omega),
      int32Field_length (show 10 < 16 by omega), boolField_length (show 11 < 16 by omega),
      boolField_length (show 12 < 16 by omega), boolField_length (show 13 < 16 by omega),
      boolField_length (show 14 < 16 by omega), PrimaryVehicleState.byteSizeLong,
      Nat.add_comm 1 (int32Size _)]
    -- the two list the fields in different orders
    ring
  · simp only [SignalLightingStatus.internalSerialize, List.length_append,
      writeUnknowns_length _ h, uint32Field_length (show 1 < 16 by omega),
      uint32Field_length (show 2 < 16 by omega), uint32Field_length (show 3 < 16 by omega),
      SignalLightingStatus.byteSizeLong]
    ring
  · simp only [SafetyStatus.internalSerialize, List.length_append, writeUnknowns_length _ h,
      uint32Field_length (show 1 < 16 by omega), boolField_length (show 2 < 16 by omega),
      boolField_length (show 3 < 16 by omega), boolField_length (show 4 < 16 by omega),
      boolField_length (show 5 < 16 by omega), SafetyStatus.byteSizeLong]
    ring

/-- A speed of two bytes, and two records that the schema does not know. -/
def extendedState : PrimaryVehicleState where
  speedKmh := 300
  unknownFields := [.varint 15 7, .group 16 [.fixed32 17 [1, 2, 3, 4]]]

theorem extendedState_byteSizeLong :
    extendedState.byteSizeLong = (internalSerialize extendedState).length :=
  (byteSizeLong_eq 1).1 extendedState (by simp [extendedState, Valid, ValidNumber])

/-! ## Other messages on the Status event -/

/-- What the parser of vehicle states makes of a `SafetyStatus`. -/
def SafetyStatus.asVehicleState (s : SafetyStatus) : PrimaryVehicleState where
  timestampMs := s.timestampMs
  speedKmh := if s.seatbeltFastened then 1 else 0
  engineRpm := if s.airbagOk then 1 else 0
  currentGear := if s.absActive then GEAR_FIRST else GEAR_NEUTRAL
  unknownFields := if s.tractionControl then [.varint 5 1] else []

/-- What the parser of vehicle states makes of a `SignalLightingStatus`. -/
def SignalLightingStatus.asVehicleState (s : SignalLightingStatus) : PrimaryVehicleState where
  timestampMs := s.timestampMs
  speedKmh := s.turnSignals
  engineRpm := s.exteriorLights

/-- A field that is read under another schema. -/
theorem field_read_as {A B : Prop} [Decidable A] [Decidable B] {written read value : UInt64}
    (hA : A) (hB : B) (hread : read = value) (hzero : written = 0 → value = 0) :
    value = if A ∧ B ∧ written ≠ 0 then read else 0 := by
  by_cases hwritten : written = 0
  · simp [hwritten, hzero hwritten]
  · simp [hA, hB, hwritten, hread]

/-- What is parsed when a message without unknown fields was written under another
schema. -/
theorem parse_other {M N : Type} (g : Generated M) (g' : Generated N) {m : M} {n : N}
    (hunknown : (g'.content n).unknown = [])
    (hcontent : g.content m =
      absorbAll g.schema .empty (g'.schema.numbers.filterMap (fieldRecord (g'.content n)))) :
    g.parse (g'.internalSerialize n) = some m := by
  have hkept := Content.kept_of_unknown_eq_nil (σ := g'.schema) hunknown
  rw [g.parse_eq_some_iff, g'.internalSerialize_eq]
  refine ⟨_, stream_serialize hkept, ?_⟩
  rw [hcontent, Content.records, hunknown, List.append_nil]

theorem parseFromString_safetyStatus (s : SafetyStatus) (hunknown : s.unknownFields = []) :
    parseFromString s.internalSerialize = some s.asVehicleState := by
  refine parse_other PrimaryVehicleState.generated SafetyStatus.generated hunknown ?_
  rw [absorbAll_fieldRecords]
  obtain ⟨timestamp, seatbelt, airbag, abs, traction, unknown⟩ := s
  refine Content.ext (funext fun number => ?_) ?_
  · match number with
    | 0 | 5 | 6 | 7 | 8 | 9 | 10 | 11 | 12 | 13 | 14 | _ + 15 => rfl
    | 1 => exact field_read_as (by decide) (by decide) (truncate_ofUInt32 _) fun h => h
    | 2 => cases seatbelt <;> rfl
    | 3 => cases airbag <;> rfl
    | 4 => cases abs <;> rfl
  · cases traction <;> rfl

theorem parseFromString_signalLightingStatus (s : SignalLightingStatus)
    (hunknown : s.unknownFields = []) :
    parseFromString s.internalSerialize = some s.asVehicleState := by
  refine parse_other PrimaryVehicleState.generated SignalLightingStatus.generated hunknown ?_
  rw [absorbAll_fieldRecords]
  refine Content.ext (funext fun number => ?_) rfl
  match number with
  | 0 | 4 | 5 | 6 | 7 | 8 | 9 | 10 | 11 | 12 | 13 | 14 | _ + 15 => rfl
  | 1 | 2 | 3 => exact field_read_as (by decide) (by decide) (truncate_ofUInt32 _) fun h => h

/-- An event whose plaintext parses is handled as the vehicle state it parses as. -/
theorem runStatus_of_parse (p : Platform) (c : ClientPtr) (events : List Bytes) (v : Service)
    {buffer plain : Bytes} {state : PrimaryVehicleState}
    (hdecrypt : decryptByteBufferRSA p buffer = .ok plain)
    (hparse : parseFromString plain = some state) :
    runStatus p c (events ++ [buffer]) v =
      processPrimaryVehicleState c state (runStatus p c events v) := by
  have hdecode : decodeStatus p buffer = .ok state := by
    rw [decodeStatus, hdecrypt]
    exact show fromByteBuffer plain = .ok state by rw [fromByteBuffer, hparse]
  rw [runStatus, List.foldl_append, List.foldl_cons, List.foldl_nil, statusCallback, hdecode]
  rfl

/-- **Other messages on the Status event are published.**  After any events, an event that
carries a `SafetyStatus` or a `SignalLightingStatus` without unknown fields is handled
as a vehicle state, with its fields under the numbers of the vehicle state's, and each
of the twelve properties whose write succeeds holds what was misread. -/
theorem other_messages_published (p : Platform) (c : ClientPtr) (events : List Bytes)
    (v : Service) (buffer : Bytes) :
    let before := runStatus p c events v
    let after := runStatus p c (events ++ [buffer]) v
    (∀ s : SafetyStatus, s.unknownFields = [] →
      decryptByteBufferRSA p buffer = .ok s.internalSerialize →
      after = processPrimaryVehicleState c s.asVehicleState before ∧
      ∀ signal : Signal, wrote signal.key (statusCalls c s.asVehicleState before) = true →
        after.store signal.key = [signal.field s.asVehicleState]) ∧
    (∀ s : SignalLightingStatus, s.unknownFields = [] →
      decryptByteBufferRSA p buffer = .ok s.internalSerialize →
      after = processPrimaryVehicleState c s.asVehicleState before ∧
      ∀ signal : Signal, wrote signal.key (statusCalls c s.asVehicleState before) = true →
        after.store signal.key = [signal.field s.asVehicleState]) := by
  intro before after
  have hpublished : ∀ state plain, decryptByteBufferRSA p buffer = .ok plain →
      parseFromString plain = some state →
      after = processPrimaryVehicleState c state before ∧
      ∀ signal : Signal, wrote signal.key (statusCalls c state before) = true →
        after.store signal.key = [signal.field state] := by
    intro state plain hdecrypt hparse
    have hafter : after = processPrimaryVehicleState c state before :=
      runStatus_of_parse p c events v hdecrypt hparse
    refine ⟨hafter, fun signal hwrote => ?_⟩
    rw [hafter, process_store_signal, if_pos hwrote]
  exact ⟨fun s hunknown hdecrypt =>
      hpublished _ _ hdecrypt (parseFromString_safetyStatus s hunknown),
    fun s hunknown hdecrypt =>
      hpublished _ _ hdecrypt (parseFromString_signalLightingStatus s hunknown)⟩

/-- A fastened seatbelt is published as the speed 1. -/
theorem seatbelt_published :
    (runStatus paddingPlatform 1 ([] ++ [[2, 16, 1]]) (.fresh fun _ => [])).store Signal.speed.key =
      [1] :=
  ((other_messages_published paddingPlatform 1 [] (.fresh fun _ => []) [2, 16, 1]).1
    { seatbeltFastened := true } rfl (by decide)).2 .speed rfl

end Someip
end Veos
