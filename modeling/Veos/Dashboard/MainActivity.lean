import Veos.Vhal.Native

/-!
# The dashboard

`MainActivity` polls seven VHAL properties once a second and redraws its views
from them.  A refresh reads everything first; if a read throws, the exception is
logged and no view changes.

A VHAL read does not tell a failed access from a value, so without a null handle
a refresh always redraws.  The views of one refresh depend on the seven answers
alone, with one exception: the gear adapter ignores a position out of its range
and keeps the one it had.
-/

namespace Veos
namespace Dashboard

open Java Vhal

/-! ## `GearAdapter` -/

/-- The labels, by position. -/
def gears : List String := ["P", "R", "N", "D"]

/-- The adapter.  `setSelectedPosition` is the only assignment to its position,
which therefore always names a label. -/
structure GearAdapter where
  selectedPosition : Int32
  inRange : 0 ≤ selectedPosition ∧ selectedPosition < 4

namespace GearAdapter

/-- A new adapter selects `P`. -/
def new : GearAdapter := ⟨0, by decide⟩

/-- `setSelectedPosition`: a position out of range is ignored. -/
def setSelectedPosition (adapter : GearAdapter) (position : Int32) : GearAdapter :=
  if h : 0 ≤ position ∧ position < 4 then ⟨position, h⟩ else adapter

/-- What `onBindViewHolder` sets of a holder's text view.  Colors are in the
`Color` class's ARGB encoding. -/
structure GearText where
  text : String
  textSize : Nat
  textColor : UInt32
  alpha : Rat
  shadowRadius : Nat
  shadowColor : UInt32
  deriving DecidableEq

/-- `onBindViewHolder`. -/
def onBindViewHolder (adapter : GearAdapter) (position : Nat) : GearText :=
  let text := gears.getD position ""
  if (position : Int) = adapter.selectedPosition.toInt then
    { text := text, textSize := 32, textColor := 0xFFFFFFFF, alpha := 1,
      shadowRadius := 8, shadowColor := 0xFFFFFFFF }
  else
    { text := text, textSize := 24, textColor := 0x55FFFFFF, alpha := 1 / 2,
      shadowRadius := 0, shadowColor := 0 }

/-- The row of labels as it is shown. -/
def row (adapter : GearAdapter) : List GearText :=
  (List.range gears.length).map adapter.onBindViewHolder

/-- The label at the selected position. -/
def selectedLabel (adapter : GearAdapter) : String :=
  gears.getD adapter.selectedPosition.toInt.toNat ""

theorem position_cases {position : Int32} (hrange : 0 ≤ position ∧ position < 4) :
    position = 0 ∨ position = 1 ∨ position = 2 ∨ position = 3 := by
  obtain ⟨hlow, hhigh⟩ := hrange
  rw [Int32.le_iff_toInt_le] at hlow
  rw [Int32.lt_iff_toInt_lt] at hhigh
  simp only [← Int32.toInt_inj]
  have h0 : (0 : Int32).toInt = 0 := by decide
  have h1 : (1 : Int32).toInt = 1 := by decide
  have h2 : (2 : Int32).toInt = 2 := by decide
  have h3 : (3 : Int32).toInt = 3 := by decide
  have h4 : (4 : Int32).toInt = 4 := by decide
  omega

/-- Exactly one label of the row is enlarged, the selected one. -/
theorem row_enlarged (adapter : GearAdapter) :
    ((adapter.row.filter fun gear => gear.textSize = 32).map GearText.text) =
      [adapter.selectedLabel] := by
  rcases position_cases adapter.inRange with h | h | h | h <;>
    simp [row, onBindViewHolder, selectedLabel, gears, h, List.range_succ]

theorem setSelectedPosition_of_negative (adapter : GearAdapter) {position : Int32}
    (hneg : position < 0) : adapter.setSelectedPosition position = adapter := by
  rw [setSelectedPosition, dif_neg]
  rintro ⟨hlow, -⟩
  rw [Int32.le_iff_toInt_le] at hlow
  rw [Int32.lt_iff_toInt_lt] at hneg
  omega

end GearAdapter

/-! ## `MainActivity` -/

def PROP_GEAR_SELECTION : PropId := 557846352
def PROP_VEHICLE_SPEED : PropId := 557846353
def PROP_BATTERY_LEVEL : PropId := 557846354
def PROP_HEADLIGHTS_STATE : PropId := 555749214
def PROP_HIGH_BEAM_LIGHTS : PropId := 555749215
def PROP_BATTERY_WARNING : PropId := 555749217
def PROP_TPMS_WARNING : PropId := 555749219

def TURN_SIGNAL_RIGHT : Int32 := 1
def TURN_SIGNAL_LEFT : Int32 := 2

/-- The visibility of an image view. -/
inductive Visibility
  | VISIBLE
  | INVISIBLE
  deriving DecidableEq, Repr

open Visibility

/-- The images of the headlight indicator. -/
structure Lighting where
  lightingON : Visibility
  lightingOFF : Visibility
  lightingERROR : Visibility
  deriving DecidableEq

/-- The images of the two arrows. -/
structure TurnSignals where
  rightLightON : Visibility
  rightLightOFF : Visibility
  leftLightON : Visibility
  leftLightOFF : Visibility
  deriving DecidableEq

/-- The images of the battery: the warning and the five levels. -/
structure Battery where
  batteryCharge : Visibility
  batteryLevel1 : Visibility
  batteryLevel2 : Visibility
  batteryLevel3 : Visibility
  batteryLevel4 : Visibility
  batteryLevel5 : Visibility
  deriving DecidableEq

/-- The warning images. -/
structure Warnings where
  tireImg : Visibility
  seatBeltImg : Visibility
  deriving DecidableEq

/-- The views that a refresh touches. -/
structure Views where
  speedText : String
  chargeText : String
  battery : Battery
  lighting : Lighting
  turnSignals : TurnSignals
  adapter : GearAdapter
  warnings : Warnings

/-- The views after `onCreate`, as the layout has them.  An image without a
visibility attribute is visible. -/
def Views.initial : Views where
  speedText := "65"
  chargeText := "60%"
  battery := ⟨INVISIBLE, INVISIBLE, INVISIBLE, INVISIBLE, VISIBLE, INVISIBLE⟩
  lighting := ⟨INVISIBLE, VISIBLE, INVISIBLE⟩
  turnSignals := ⟨VISIBLE, VISIBLE, VISIBLE, VISIBLE⟩
  adapter := .new
  warnings := ⟨INVISIBLE, INVISIBLE⟩

/-- `updateBatteryIndicator`. -/
def updateBatteryIndicator (level : Int32) (warning : Bool) : Battery :=
  let hidden : Battery :=
    ⟨if warning then VISIBLE else INVISIBLE, INVISIBLE, INVISIBLE, INVISIBLE, INVISIBLE, INVISIBLE⟩
  if 80 ≤ level then { hidden with batteryLevel5 := VISIBLE }
  else if 60 ≤ level then { hidden with batteryLevel4 := VISIBLE }
  else if 40 ≤ level then { hidden with batteryLevel3 := VISIBLE }
  else if 20 ≤ level then { hidden with batteryLevel2 := VISIBLE }
  else { hidden with batteryLevel1 := VISIBLE }

/-- `updateLightingIndicator`. -/
def updateLightingIndicator (headlightsOn highBeamOn : Bool) : Lighting :=
  if highBeamOn then
    { lightingON := VISIBLE, lightingOFF := INVISIBLE, lightingERROR := INVISIBLE }
  else if headlightsOn then
    { lightingON := VISIBLE, lightingOFF := INVISIBLE, lightingERROR := INVISIBLE }
  else
    { lightingOFF := VISIBLE, lightingON := INVISIBLE, lightingERROR := INVISIBLE }

/-- `updateTurnSignalIndicator`. -/
def updateTurnSignalIndicator (turnSignalState : Int32) : TurnSignals :=
  if turnSignalState = TURN_SIGNAL_RIGHT then
    { rightLightON := VISIBLE, rightLightOFF := INVISIBLE,
      leftLightON := INVISIBLE, leftLightOFF := VISIBLE }
  else if turnSignalState = TURN_SIGNAL_LEFT then
    { rightLightON := INVISIBLE, rightLightOFF := VISIBLE,
      leftLightON := VISIBLE, leftLightOFF := INVISIBLE }
  -- `TURN_SIGNAL_NONE` and the default case
  else
    { rightLightON := INVISIBLE, rightLightOFF := VISIBLE,
      leftLightON := INVISIBLE, leftLightOFF := VISIBLE }

/-- `updateWarningIndicators`. -/
def updateWarningIndicators (tireWarning : Bool) : Warnings :=
  { tireImg := if tireWarning then VISIBLE else INVISIBLE, seatBeltImg := INVISIBLE }

/-- The values that a refresh reads. -/
structure VehicleData where
  speed : Int32
  batteryLevel : Int32
  headlightsOn : Bool
  highBeamOn : Bool
  batteryWarning : Bool
  tireWarning : Bool
  gearPosition : Int32

/-- A computation that calls the VHAL and may throw. -/
abbrev VhalM := ExceptT JavaException (StateM Service)

/-- The reads of `updateVehicleData`, in order. -/
def readVehicleData (clientPtr : ClientPtr) : VhalM VehicleData := do
  let speed ← (VhalNative.getInt32 clientPtr PROP_VEHICLE_SPEED 0 : VhalM Int32)
  let batteryLevel ← (VhalNative.getInt32 clientPtr PROP_BATTERY_LEVEL 0 : VhalM Int32)
  let headlightsOn ← (VhalNative.getBool clientPtr PROP_HEADLIGHTS_STATE 0 : VhalM Bool)
  let highBeamOn ← (VhalNative.getBool clientPtr PROP_HIGH_BEAM_LIGHTS 0 : VhalM Bool)
  let batteryWarning ← (VhalNative.getBool clientPtr PROP_BATTERY_WARNING 0 : VhalM Bool)
  let tireWarning ← (VhalNative.getBool clientPtr PROP_TPMS_WARNING 0 : VhalM Bool)
  let gearPosition ← (VhalNative.getInt32 clientPtr PROP_GEAR_SELECTION 0 : VhalM Int32)
  return { speed, batteryLevel, headlightsOn, highBeamOn, batteryWarning, tireWarning,
           gearPosition }

/-- The `Runnable` that `updateVehicleData` runs on the UI thread. -/
def updateViews (data : VehicleData) (views : Views) : Views where
  speedText := toString data.speed
  chargeText := toString data.batteryLevel ++ "%"
  battery := updateBatteryIndicator data.batteryLevel data.batteryWarning
  lighting := updateLightingIndicator data.headlightsOn data.highBeamOn
  -- `%` is Java's remainder, whose sign is that of the gear
  turnSignals := updateTurnSignalIndicator (data.gearPosition % 3)
  adapter := views.adapter.setSelectedPosition (data.gearPosition % 4)
  warnings := updateWarningIndicators data.tireWarning

/-- `updateVehicleData`: the new views, and the exception logged if any. -/
def updateVehicleData (clientPtr : ClientPtr) (views : Views) (v : Service) :
    Option JavaException × Views × Service :=
  match readVehicleData clientPtr v with
  | (.error e, v) => (some e, views, v)
  | (.ok data, v) => (none, updateViews data views, v)

/-! ## What a refresh reads -/

/-- The answers that the reads of a refresh get from a service. -/
def dataOf (v : Service) : VehicleData :=
  let int32At (n : Nat) (propId : PropId) :=
    VhalNative.int32Answer (v.getFault (v.gets + n)) (v.store (propId, 0))
  let boolAt (n : Nat) (propId : PropId) :=
    VhalNative.boolAnswer (v.getFault (v.gets + n)) (v.store (propId, 0))
  { speed := int32At 0 PROP_VEHICLE_SPEED
    batteryLevel := int32At 1 PROP_BATTERY_LEVEL
    headlightsOn := boolAt 2 PROP_HEADLIGHTS_STATE
    highBeamOn := boolAt 3 PROP_HIGH_BEAM_LIGHTS
    batteryWarning := boolAt 4 PROP_BATTERY_WARNING
    tireWarning := boolAt 5 PROP_TPMS_WARNING
    gearPosition := int32At 6 PROP_GEAR_SELECTION }

theorem readVehicleData_connected {clientPtr : ClientPtr} (hptr : clientPtr ≠ 0) (v : Service) :
    readVehicleData clientPtr v = (.ok (dataOf v), { v with gets := v.gets + 7 }) := by
  simp only [readVehicleData, bind, ExceptT.bind, ExceptT.bindCont, ExceptT.mk, StateT.bind,
    VhalNative.getInt32_connected hptr, VhalNative.getBool_connected hptr]
  rfl

theorem updateVehicleData_connected {clientPtr : ClientPtr} (hptr : clientPtr ≠ 0)
    (views : Views) (v : Service) :
    updateVehicleData clientPtr views v =
      (none, updateViews (dataOf v) views, { v with gets := v.gets + 7 }) := by
  rw [updateVehicleData, readVehicleData_connected hptr]

/-- Without a handle a refresh draws nothing. -/
theorem updateVehicleData_null (views : Views) (v : Service) :
    updateVehicleData 0 views v = (some VhalNative.notInitialized, views, v) := rfl

end Dashboard
end Veos
