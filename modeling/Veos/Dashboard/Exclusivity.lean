import Veos.Dashboard.Lifecycle

/-!
# One image of each group

The dashboard draws the battery level, each arrow and the headlights by making one image
of a group visible and the others invisible.  Each `update...Indicator` method restores
every image of its groups, so after a refresh that reads its values each group shows one
image.  A refresh whose reads throw draws nothing.

The layout shows one battery level and one headlight image, but both images of either
arrow: the groups of the arrows show one image as soon as a refresh has drawn, and not
before (`exclusive_iff`).
-/

namespace Veos
namespace Dashboard

open Java Vhal

/-! ## The groups -/

/-- Exactly one image of a group is visible. -/
def ExactlyOne (group : List Visibility) : Prop := group.count .VISIBLE = 1

instance (group : List Visibility) : Decidable (ExactlyOne group) :=
  inferInstanceAs (Decidable (_ = _))

/-- The five battery levels. -/
def Battery.levels (battery : Battery) : List Visibility :=
  [battery.batteryLevel1, battery.batteryLevel2, battery.batteryLevel3, battery.batteryLevel4,
    battery.batteryLevel5]

/-- The left arrow, ON and OFF. -/
def TurnSignals.left (turnSignals : TurnSignals) : List Visibility :=
  [turnSignals.leftLightON, turnSignals.leftLightOFF]

/-- The right arrow, ON and OFF. -/
def TurnSignals.right (turnSignals : TurnSignals) : List Visibility :=
  [turnSignals.rightLightON, turnSignals.rightLightOFF]

/-- The headlights, ON, OFF and ERROR. -/
def Lighting.images (lighting : Lighting) : List Visibility :=
  [lighting.lightingON, lighting.lightingOFF, lighting.lightingERROR]

/-- Each of the four groups shows exactly one image. -/
structure Views.Exclusive (views : Views) : Prop where
  battery : ExactlyOne views.battery.levels
  leftArrow : ExactlyOne views.turnSignals.left
  rightArrow : ExactlyOne views.turnSignals.right
  headlights : ExactlyOne views.lighting.images

/-! ## Drawing -/

theorem updateBatteryIndicator_exactlyOne (level : Int32) (warning : Bool) :
    ExactlyOne (updateBatteryIndicator level warning).levels := by
  unfold updateBatteryIndicator
  -- the warning does not belong to the group
  generalize (if warning then Visibility.VISIBLE else Visibility.INVISIBLE) = batteryCharge
  dsimp only
  split
  · exact rfl
  · split
    · exact rfl
    · split
      · exact rfl
      · split
        · exact rfl
        · exact rfl

theorem updateLightingIndicator_exactlyOne (headlightsOn highBeamOn : Bool) :
    ExactlyOne (updateLightingIndicator headlightsOn highBeamOn).images := by
  cases highBeamOn with
  | true => rfl
  | false => cases headlightsOn <;> rfl

theorem updateTurnSignalIndicator_exactlyOne (turnSignalState : Int32) :
    ExactlyOne (updateTurnSignalIndicator turnSignalState).left ∧
      ExactlyOne (updateTurnSignalIndicator turnSignalState).right := by
  unfold updateTurnSignalIndicator
  split
  · exact ⟨rfl, rfl⟩
  · split
    · exact ⟨rfl, rfl⟩
    · exact ⟨rfl, rfl⟩

/-- Whatever the values and whatever was shown before. -/
theorem updateViews_exclusive (data : VehicleData) (views : Views) :
    (updateViews data views).Exclusive where
  battery := updateBatteryIndicator_exactlyOne data.batteryLevel data.batteryWarning
  leftArrow := (updateTurnSignalIndicator_exactlyOne (data.gearPosition % 3)).1
  rightArrow := (updateTurnSignalIndicator_exactlyOne (data.gearPosition % 3)).2
  headlights := updateLightingIndicator_exactlyOne data.headlightsOn data.highBeamOn

/-! ## Sequences of refreshes -/

/-- What a call of `updateVehicleData` meets: the handle of the class and the VHAL. -/
structure Refresh where
  clientPtr : ClientPtr
  vhal : Service

/-- The views behind a refresh. -/
def refresh (views : Views) (r : Refresh) : Views :=
  (updateVehicleData r.clientPtr views r.vhal).2.1

/-- The views after a sequence of refreshes of an inflated layout. -/
def afterRefreshes (refreshes : List Refresh) : Views :=
  refreshes.foldl refresh .initial

/-- A refresh whose reads throw draws nothing. -/
theorem refresh_null (views : Views) (v : Service) : refresh views ⟨0, v⟩ = views := by
  rw [refresh, updateVehicleData_null]

theorem refresh_connected (views : Views) {r : Refresh} (hptr : r.clientPtr ≠ 0) :
    refresh views r = updateViews (dataOf r.vhal) views := by
  rw [refresh, updateVehicleData_connected hptr]

/-- A VHAL whose answers are the given values. -/
def VehicleData.vhal (data : VehicleData) : Service :=
  .fresh fun key =>
    let int32At : List (PropId × Int32) :=
      [(PROP_VEHICLE_SPEED, data.speed), (PROP_BATTERY_LEVEL, data.batteryLevel),
        (PROP_HEADLIGHTS_STATE, if data.headlightsOn then 1 else 0),
        (PROP_HIGH_BEAM_LIGHTS, if data.highBeamOn then 1 else 0),
        (PROP_BATTERY_WARNING, if data.batteryWarning then 1 else 0),
        (PROP_TPMS_WARNING, if data.tireWarning then 1 else 0),
        (PROP_GEAR_SELECTION, data.gearPosition)]
    (int32At.lookup key.1).toList

/-- Every combination of readings can occur. -/
theorem dataOf_vhal (data : VehicleData) : dataOf data.vhal = data := by
  obtain ⟨speed, batteryLevel, headlightsOn, highBeamOn, batteryWarning, tireWarning, gear⟩ := data
  cases headlightsOn <;> cases highBeamOn <;> cases batteryWarning <;> cases tireWarning <;> rfl

/-- The views are those of the layout as long as no refresh draws, and those of an update
afterwards. -/
theorem afterRefreshes_cases (refreshes : List Refresh) :
    ((∀ r ∈ refreshes, r.clientPtr = 0) ∧ afterRefreshes refreshes = .initial) ∨
    ((∃ r ∈ refreshes, r.clientPtr ≠ 0) ∧
      ∃ data views, afterRefreshes refreshes = updateViews data views) := by
  induction refreshes using List.reverseRecOn with
  | nil => exact Or.inl ⟨by simp, rfl⟩
  | append_singleton refreshes last ih =>
      have hrun : afterRefreshes (refreshes ++ [last]) = refresh (afterRefreshes refreshes) last :=
        List.foldl_append
      by_cases hptr : last.clientPtr = 0
      · have hsame : afterRefreshes (refreshes ++ [last]) = afterRefreshes refreshes := by
          rw [hrun]
          obtain ⟨clientPtr, v⟩ := last
          subst hptr
          exact refresh_null _ v
        rw [hsame]
        rcases ih with ⟨hnone, hinitial⟩ | ⟨⟨r, hr, hconnected⟩, hdrawn⟩
        · refine Or.inl ⟨fun r hr => ?_, hinitial⟩
          rcases List.mem_append.1 hr with hold | hlast
          · exact hnone r hold
          · exact List.mem_singleton.1 hlast ▸ hptr
        · exact Or.inr ⟨⟨r, List.mem_append_left [last] hr, hconnected⟩, hdrawn⟩
      · refine Or.inr ⟨⟨last, List.mem_append_right refreshes List.mem_cons_self, hptr⟩, ?_⟩
        exact ⟨_, _, hrun.trans (refresh_connected _ hptr)⟩

/-- The layout shows both images of either arrow. -/
theorem initial_arrows :
    ¬ExactlyOne Views.initial.turnSignals.left ∧ ¬ExactlyOne Views.initial.turnSignals.right := by
  decide

/-- **One image of each group.**  After any sequence of refreshes, with any readings and any
of them throwing, one battery level and one headlight image are visible.  All four groups
show exactly one image, and so does either arrow, exactly when some refresh was made with
a handle and so did not throw. -/
theorem exclusive_iff (refreshes : List Refresh) :
    ((afterRefreshes refreshes).Exclusive ↔ ∃ r ∈ refreshes, r.clientPtr ≠ 0) ∧
    ExactlyOne (afterRefreshes refreshes).battery.levels ∧
    ExactlyOne (afterRefreshes refreshes).lighting.images ∧
    (ExactlyOne (afterRefreshes refreshes).turnSignals.left ↔ ∃ r ∈ refreshes, r.clientPtr ≠ 0) ∧
    (ExactlyOne (afterRefreshes refreshes).turnSignals.right ↔
      ∃ r ∈ refreshes, r.clientPtr ≠ 0) := by
  rcases afterRefreshes_cases refreshes with ⟨hnone, hinitial⟩ | ⟨hsome, data, views, hdrawn⟩
  · have hno : ¬∃ r ∈ refreshes, r.clientPtr ≠ 0 := fun ⟨r, hr, hptr⟩ => hptr (hnone r hr)
    rw [hinitial]
    refine ⟨iff_of_false (fun hexclusive => ?_) hno, rfl, rfl,
      iff_of_false initial_arrows.1 hno, iff_of_false initial_arrows.2 hno⟩
    exact initial_arrows.1 hexclusive.leftArrow
  · have hexclusive := updateViews_exclusive data views
    rw [hdrawn]
    exact ⟨iff_of_true hexclusive hsome, hexclusive.battery, hexclusive.headlights,
      iff_of_true hexclusive.leftArrow hsome, iff_of_true hexclusive.rightArrow hsome⟩

/-- Before the first refresh, and after one that throws, both images of either arrow are
visible. -/
theorem arrows_show_both :
    ¬(afterRefreshes []).Exclusive ∧
    ¬(afterRefreshes [⟨0, .fresh fun _ => []⟩]).Exclusive ∧
    (afterRefreshes []).turnSignals.right = [.VISIBLE, .VISIBLE] ∧
    (afterRefreshes []).turnSignals.left = [.VISIBLE, .VISIBLE] := by
  refine ⟨fun hexclusive => ?_, fun hexclusive => ?_, rfl, rfl⟩
  · exact initial_arrows.2 hexclusive.rightArrow
  · exact initial_arrows.2 hexclusive.rightArrow

/-! ## The process -/

namespace ActivityProcess

/-- Whether an update has drawn since the latest `onCreate`, which inflates the layout. -/
def drawn (events : List ActivityEvent) : Bool :=
  events.foldl (fun drawn event =>
    match event with
    | .onCreate => false
    | .onDestroy => drawn
    | .update _ => true) false

theorem drawn_append (events : List ActivityEvent) (event : ActivityEvent) :
    drawn (events ++ [event]) =
      match event with
      | .onCreate => false
      | .onDestroy => drawn events
      | .update _ => true := by
  rw [drawn, List.foldl_append]
  cases event <;> rfl

/-- The views of a reachable process. -/
theorem run_views {events : List ActivityEvent} {createFails : Nat → Bool} {vhal : Service}
    {a : ActivityProcess} (hrun : run events (launched createFails vhal) = some a) :
    (drawn events = false ∧ a.views = .initial) ∨
    (drawn events = true ∧ ∃ data views, a.views = updateViews data views) := by
  induction events using List.reverseRecOn generalizing a with
  | nil =>
      cases hrun
      exact Or.inl ⟨rfl, rfl⟩
  | append_singleton events last ih =>
      obtain ⟨before, hbefore, hlast⟩ := (PartialRuns.run_append_eq_some_iff step).1 hrun
      rw [PartialRuns.run_singleton] at hlast
      rw [drawn_append]
      cases last with
      | onCreate =>
          obtain ⟨-, -, rfl⟩ := step_onCreate hlast
          exact Or.inl ⟨rfl, rfl⟩
      | onDestroy =>
          obtain ⟨owner, -, rfl⟩ := step_onDestroy hlast
          have hsame := ih hbefore
          exact hsame
      | update owner =>
          obtain ⟨howner, hviews⟩ := step_update_views hlast
          have hptr := clientPtr_ne_zero_of_posted hbefore howner
          rw [updateVehicleData_connected hptr] at hviews
          exact Or.inr ⟨rfl, _, _, hviews⟩

/-- In every reachable state of the process, each group shows one image exactly when an
update has drawn since the latest `onCreate`. -/
theorem run_exclusive_iff {events : List ActivityEvent} {createFails : Nat → Bool}
    {vhal : Service} {a : ActivityProcess}
    (hrun : run events (launched createFails vhal) = some a) :
    a.views.Exclusive ↔ drawn events = true := by
  rcases run_views hrun with ⟨hdrawn, hviews⟩ | ⟨hdrawn, data, views, hviews⟩
  · rw [hviews, hdrawn]
    exact iff_of_false (fun hexclusive => initial_arrows.1 hexclusive.leftArrow) (by decide)
  · rw [hviews, hdrawn]
    exact iff_of_true (updateViews_exclusive data views) rfl

end ActivityProcess

end Dashboard
end Veos
