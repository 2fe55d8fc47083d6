import Veos.Library.Narrowing
import Veos.Someip.StatusRuns
import Veos.Vhal.Native

/-!
# Unsigned fields behind the VHAL

A message carries its timestamp, the speed and the battery level as `uint32`.  The
properties they are written to hold `int32` values, and the handler casts.  Every layer
behind, from the vector in the VHAL to the `int` of Java, hands the same 32 bits on.

So a number below `2 ^ 31` is read back as it was sent, and a greater one reduced by
`2 ^ 32`.  A sequence of timestamps that passes `2 ^ 31` is read back with one step down
at that point.
-/

namespace Veos
namespace Vehicle

open Java Vhal Someip

/-! ## Messages and reads -/

/-- What `VhalNative.getInt32` returns for the three properties. -/
structure ReadBack where
  timestamp : Except JavaException Int32
  speed : Except JavaException Int32
  batteryLevel : Except JavaException Int32

/-- Read the three properties, one after the other. -/
def readBack (clientPtr : ClientPtr) (v : Service) : ReadBack × Service :=
  let (timestamp, v) := VhalNative.getInt32 clientPtr VEOS_LAST_UPDATE_TIMESTAMP 0 v
  let (speed, v) := VhalNative.getInt32 clientPtr VEOS_PERF_VEHICLE_SPEED 0 v
  let (batteryLevel, v) := VhalNative.getInt32 clientPtr VEOS_EV_BATTERY_LEVEL 0 v
  (⟨timestamp, speed, batteryLevel⟩, v)

/-- Messages, with the reads after each of them. -/
def chain (vhalClient clientPtr : ClientPtr) :
    List PrimaryVehicleState → Service → List ReadBack × Service
  | [], v => ([], v)
  | s :: messages, v =>
      let (answer, v) := readBack clientPtr (processPrimaryVehicleState vhalClient s v)
      let (answers, v) := chain vhalClient clientPtr messages v
      (answer :: answers, v)

/-- The numbers of a message as the properties hold them. -/
def castFields (s : PrimaryVehicleState) : ReadBack where
  timestamp := .ok s.timestampMs.toInt32
  speed := .ok s.speedKmh.toInt32
  batteryLevel := .ok s.batteryLevel.toInt32

theorem readBack_connected {clientPtr : ClientPtr} (hptr : clientPtr ≠ 0) (v : Service)
    (hv : v.Faultless) {s : PrimaryVehicleState}
    (hstore : ∀ signal : Signal, v.store signal.key = [signal.field s]) :
    readBack clientPtr v = (castFields s, { v with gets := v.gets + 3 }) := by
  have htimestamp : v.store (VEOS_LAST_UPDATE_TIMESTAMP, 0) = [s.timestampMs.toInt32] :=
    hstore .timestamp
  have hspeed : v.store (VEOS_PERF_VEHICLE_SPEED, 0) = [s.speedKmh.toInt32] := hstore .speed
  have hbattery : v.store (VEOS_EV_BATTERY_LEVEL, 0) = [s.batteryLevel.toInt32] :=
    hstore .batteryLevel
  simp only [readBack, VhalNative.getInt32_connected hptr, hv.2, htimestamp, hspeed, hbattery]
  rfl

/-- Each message is read back with its own numbers, cast. -/
theorem chain_answers {vhalClient clientPtr : ClientPtr} (hclient : vhalClient ≠ 0)
    (hptr : clientPtr ≠ 0) (messages : List PrimaryVehicleState) (v : Service)
    (hv : v.Faultless) :
    (chain vhalClient clientPtr messages v).1 = messages.map castFields := by
  induction messages generalizing v with
  | nil => rfl
  | cons s messages ih =>
      have hprocess := process_extends vhalClient s v
      have hread := readBack_connected hptr (processPrimaryVehicleState vhalClient s v)
        (hprocess.faultless hv) (process_store_of_faultless hclient s hv)
      rw [chain, hread, List.map_cons]
      exact congrArg (castFields s :: ·) (ih _ (hprocess.faultless hv))

/-! ## Values and order -/

/-- The answer is the number, if it is below `2 ^ 31`, and otherwise the number reduced by
`2 ^ 32`. -/
def ReadAs (n : UInt32) (answer : Except JavaException Int32) : Prop :=
  ∃ value : Int32, answer = .ok value ∧
    value.toInt = if n.toNat < 2 ^ 31 then (n.toNat : Int) else n.toNat - 2 ^ 32

theorem readAs_cast (n : UInt32) : ReadAs n (.ok n.toInt32) := by
  refine ⟨n.toInt32, rfl, ?_⟩
  rw [Narrowing.toInt_toInt32, Narrowing.signed_eq_ite n.toNat_lt]
  rfl

/-- The three answers after a message. -/
structure ReadsBack (s : PrimaryVehicleState) (answer : ReadBack) : Prop where
  timestamp : ReadAs s.timestampMs answer.timestamp
  speed : ReadAs s.speedKmh answer.speed
  batteryLevel : ReadAs s.batteryLevel answer.batteryLevel

theorem readsBack_castFields (s : PrimaryVehicleState) : ReadsBack s (castFields s) :=
  ⟨readAs_cast s.timestampMs, readAs_cast s.speedKmh, readAs_cast s.batteryLevel⟩

/-- No answer is less than one before it. -/
def NonDecreasing (answers : List (Except JavaException Int32)) : Prop :=
  answers.Pairwise fun earlier later =>
    ∀ x y, earlier = .ok x → later = .ok y → x.toInt ≤ y.toInt

theorem nonDecreasing_casts_iff (messages : List PrimaryVehicleState) :
    NonDecreasing ((messages.map castFields).map ReadBack.timestamp) ↔
      (messages.map fun s => s.timestampMs.toNat).Pairwise
        (fun n m => Narrowing.signed (2 ^ 31) n ≤ Narrowing.signed (2 ^ 31) m) := by
  rw [NonDecreasing, List.map_map, List.pairwise_map, List.pairwise_map]
  refine List.Pairwise.iff fun {s later} => ?_
  simp only [Function.comp_apply, castFields, Except.ok.injEq, ← Narrowing.toInt_toInt32]
  constructor
  · exact fun hle => hle _ _ rfl rfl
  · rintro hle x y rfl rfl
    exact hle

/-- **Unsigned fields read back.**  Let no VHAL access fail in a run of messages with
non-decreasing timestamps.  After each message the reads of the timestamp, the speed and the
battery level return the number that the message carries, if it is below `2 ^ 31`, and
otherwise that number less `2 ^ 32`.  The timestamps that are read do not decrease exactly
when those of the messages are all below `2 ^ 31` or all at least `2 ^ 31`. -/
theorem unsigned_fields_read_back {vhalClient clientPtr : ClientPtr} (hclient : vhalClient ≠ 0)
    (hptr : clientPtr ≠ 0) (messages : List PrimaryVehicleState) (v : Service)
    (hv : v.Faultless)
    (hsorted : messages.Pairwise fun s later => s.timestampMs ≤ later.timestampMs) :
    let answers := (chain vhalClient clientPtr messages v).1
    List.Forall₂ ReadsBack messages answers ∧
    (NonDecreasing (answers.map ReadBack.timestamp) ↔
      (∀ s ∈ messages, s.timestampMs.toNat < 2 ^ 31) ∨
        ∀ s ∈ messages, 2 ^ 31 ≤ s.timestampMs.toNat) := by
  intro answers
  have hanswers : answers = messages.map castFields :=
    chain_answers hclient hptr messages v hv
  rw [hanswers]
  constructor
  · rw [List.forall₂_map_right_iff, List.forall₂_same]
    exact fun s _ => readsBack_castFields s
  · rw [nonDecreasing_casts_iff, Narrowing.pairwise_signed_iff]
    · simp only [List.forall_mem_map]
    · rw [List.forall_mem_map]
      exact fun s _ => s.timestampMs.toNat_lt
    · rw [List.pairwise_map]
      exact hsorted.imp fun hle => UInt32.le_iff_toNat_le.1 hle

/-- Two messages on either side of `2 ^ 31` milliseconds, the second one with a speed that
reads like a failed access. -/
theorem timestamp_reads_negative :
    let messages : List PrimaryVehicleState :=
      [{ timestampMs := 2147483647, speedKmh := 50 },
        { timestampMs := 2147483648, speedKmh := 4294967295 }]
    let answers := (chain 1 1 messages (.fresh fun _ => [])).1
    answers.map ReadBack.timestamp = [.ok 2147483647, .ok (-2147483648)] ∧
    answers.map ReadBack.speed = [.ok 50, .ok (-1)] ∧
    ¬NonDecreasing (answers.map ReadBack.timestamp) := by
  intro messages answers
  have htimestamps : answers.map ReadBack.timestamp = [.ok 2147483647, .ok (-2147483648)] := rfl
  refine ⟨htimestamps, rfl, fun hordered => ?_⟩
  rw [htimestamps, NonDecreasing, List.pairwise_cons] at hordered
  have hle := hordered.1 _ (List.mem_singleton.2 rfl) _ _ rfl rfl
  exact absurd hle (by decide)

/-- Two messages below `2 ^ 31` milliseconds are read back in order. -/
theorem early_timestamps_in_order :
    NonDecreasing ((chain 1 1 [{ timestampMs := 5 }, { timestampMs := 9 }]
      (.fresh fun _ => [])).1.map ReadBack.timestamp) := by
  have hclient : (1 : ClientPtr) ≠ 0 := by decide
  refine (unsigned_fields_read_back hclient hclient [{ timestampMs := 5 }, { timestampMs := 9 }]
    (.fresh fun _ => []) (Service.fresh_faultless _) ?_).2.2 (Or.inl ?_)
  · simp
  · decide

end Vehicle
end Veos
