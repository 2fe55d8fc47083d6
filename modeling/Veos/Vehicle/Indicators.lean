import Veos.Dashboard.MainActivity
import Veos.Someip.StatusRuns

/-!
# What the dashboard shows of the vehicle

The SOME/IP client writes vehicle messages to the VHAL and the dashboard redraws
from it, in any order.  A `Drive` is such a run in which no VHAL access fails and
at least one message was handled.

After a refresh the arrows and the gear label are functions of what the refresh
read under the gear property, which is the gear of the latest message
(`run_store_signal`).  The arrows come from its remainder by three.  The label
comes from its remainder by four, but only if that is not negative; otherwise the
label stays as it was.
-/

namespace Veos
namespace Vehicle

open Vhal Someip Dashboard

/-! ## Runs of messages and refreshes -/

/-- One step of a run. -/
inductive Step
  | message (s : PrimaryVehicleState)
  | refresh

/-- The VHAL handles of the two processes. -/
structure Handles where
  vhalClient : ClientPtr
  clientPtr : ClientPtr

/-- The dashboard's views and the VHAL. -/
structure State where
  views : Views
  vhal : Service

def step (h : Handles) (t : State) : Step → State
  | .message s => { t with vhal := processPrimaryVehicleState h.vhalClient s t.vhal }
  | .refresh =>
      let (_, views, vhal) := updateVehicleData h.clientPtr t.views t.vhal
      { views := views, vhal := vhal }

def run (h : Handles) (steps : List Step) (t : State) : State :=
  steps.foldl (step h) t

def Step.message? : Step → Option PrimaryVehicleState
  | .message s => some s
  | .refresh => none

/-- The message handled last. -/
def latestMessage (steps : List Step) : Option PrimaryVehicleState :=
  (steps.filterMap Step.message?).getLast?

theorem run_append (h : Handles) (steps steps' : List Step) (t : State) :
    run h (steps ++ steps') t = run h steps' (run h steps t) :=
  List.foldl_append

theorem latestMessage_append_message (steps : List Step) (s : PrimaryVehicleState) :
    latestMessage (steps ++ [.message s]) = some s := by
  simp [latestMessage, Step.message?]

theorem latestMessage_append_refresh (steps : List Step) :
    latestMessage (steps ++ [.refresh]) = latestMessage steps := by
  simp [latestMessage, Step.message?]

/-- A refresh leaves the store and the faults of the VHAL alone. -/
theorem step_refresh_extends (h : Handles) (t : State) :
    Extends t.vhal [] (step h t .refresh).vhal := by
  by_cases hptr : h.clientPtr = 0
  · simpa only [step, hptr, updateVehicleData_null] using Extends.refl t.vhal
  · simp only [step, updateVehicleData_connected hptr]
    exact ⟨by simp, by simp, rfl, rfl, rfl⟩

theorem step_faultless (h : Handles) (t : State) (next : Step) (hv : t.vhal.Faultless) :
    (step h t next).vhal.Faultless := by
  cases next with
  | message s => exact (process_extends h.vhalClient s t.vhal).faultless hv
  | refresh => exact (step_refresh_extends h t).faultless hv

theorem run_faultless (h : Handles) (steps : List Step) (t : State) (hv : t.vhal.Faultless) :
    (run h steps t).vhal.Faultless :=
  List.foldlRecOn (motive := fun t : State => t.vhal.Faultless) steps (step h) hv
    fun t ht next _ => step_faultless h t next ht

/-- Without faults the twelve properties hold the fields of the latest message. -/
theorem run_store_signal (h : Handles) (hptr : h.vhalClient ≠ 0) (steps : List Step) (t : State)
    (hv : t.vhal.Faultless) (s : PrimaryVehicleState) (hlatest : latestMessage steps = some s)
    (signal : Signal) : (run h steps t).vhal.store signal.key = [signal.field s] := by
  induction steps using List.reverseRecOn with
  | nil => simp [latestMessage] at hlatest
  | append_singleton steps last ih =>
      rw [run_append]
      cases last with
      | message s' =>
          rw [latestMessage_append_message, Option.some_inj] at hlatest
          subst hlatest
          exact process_store_of_faultless hptr s' (run_faultless h steps t hv) signal
      | refresh =>
          rw [latestMessage_append_refresh] at hlatest
          refine ((step_refresh_extends h (run h steps t)).store_apply signal.key).trans ?_
          exact ih hlatest

/-! ## Drives -/

/-- A run from a freshly created dashboard in which every VHAL access succeeds and
`latest` is the message handled last. -/
structure Drive where
  handles : Handles
  vhal : Service
  steps : List Step
  latest : PrimaryVehicleState
  hvhalClient : handles.vhalClient ≠ 0
  hclientPtr : handles.clientPtr ≠ 0
  faultless : vhal.Faultless
  hlatest : latestMessage steps = some latest

namespace Drive

/-- The state after the steps of the drive. -/
def final (d : Drive) : State :=
  run d.handles d.steps { views := .initial, vhal := d.vhal }

/-- The views after one more refresh. -/
def shown (d : Drive) : Views :=
  (step d.handles d.final .refresh).views

theorem shown_eq (d : Drive) : d.shown = updateViews (dataOf d.final.vhal) d.final.views := by
  simp only [shown, step, updateVehicleData_connected d.hclientPtr]

/-- A refresh reads the gear of the latest message. -/
theorem gearPosition_eq (d : Drive) :
    (dataOf d.final.vhal).gearPosition = d.latest.currentGear := by
  have hstore := run_store_signal d.handles d.hvhalClient d.steps
    { views := .initial, vhal := d.vhal } d.faultless d.latest d.hlatest .gear
  have hfault := (run_faultless d.handles d.steps
    { views := .initial, vhal := d.vhal } d.faultless).2
  change VhalNative.int32Answer _ (d.final.vhal.store Signal.gear.key) = _
  rw [show d.final.vhal.store Signal.gear.key = [d.latest.currentGear] from hstore,
    show d.final.vhal.getFault (d.final.vhal.gets + 6) = none from hfault _]
  rfl

end Drive

/-- The drive that handles the message `s` after the steps `before`. -/
def Drive.after (before : List Step) (s : PrimaryVehicleState) : Drive where
  handles := ⟨1, 2⟩
  vhal := .fresh fun _ => []
  steps := before ++ [.message s]
  latest := s
  hvhalClient := by decide
  hclientPtr := by decide
  faultless := Service.fresh_faultless _
  hlatest := latestMessage_append_message before s

/-- The last message of `after` does not draw. -/
theorem Drive.after_final_views (before : List Step) (s : PrimaryVehicleState) :
    (Drive.after before s).final.views =
      (run ⟨1, 2⟩ before { views := .initial, vhal := .fresh fun _ => [] }).views := by
  simp only [Drive.final, Drive.after, run_append]
  simp only [run, List.foldl_cons, List.foldl_nil, step]

theorem Drive.after_nil_shown (s : PrimaryVehicleState) :
    (Drive.after [] s).shown =
      (run ⟨1, 2⟩ [.message s, .refresh] { views := .initial, vhal := .fresh fun _ => [] }).views := by
  simp only [Drive.shown, Drive.final, Drive.after, run, List.nil_append, List.foldl_cons,
    List.foldl_nil]

/-! ## The arrows -/

namespace Drive

/-- Whether the right arrow is lit. -/
def rightLit (d : Drive) : Prop :=
  d.shown.turnSignals.rightLightON = .VISIBLE

/-- Whether the left arrow is lit. -/
def leftLit (d : Drive) : Prop :=
  d.shown.turnSignals.leftLightON = .VISIBLE

instance (d : Drive) : Decidable d.rightLit := inferInstanceAs (Decidable (_ = _))

instance (d : Drive) : Decidable d.leftLit := inferInstanceAs (Decidable (_ = _))

theorem turnSignals_eq (d : Drive) :
    d.shown.turnSignals = updateTurnSignalIndicator (d.latest.currentGear % 3) := by
  rw [shown_eq, ← d.gearPosition_eq]
  rfl

end Drive

theorem updateTurnSignalIndicator_right (turnSignalState : Int32) :
    (updateTurnSignalIndicator turnSignalState).rightLightON = .VISIBLE ↔ turnSignalState = 1 := by
  unfold updateTurnSignalIndicator
  split
  · rename_i hright
    simpa [TURN_SIGNAL_RIGHT] using hright
  · rename_i hright
    split <;> simpa [TURN_SIGNAL_RIGHT] using hright

theorem updateTurnSignalIndicator_left (turnSignalState : Int32) :
    (updateTurnSignalIndicator turnSignalState).leftLightON = .VISIBLE ↔ turnSignalState = 2 := by
  unfold updateTurnSignalIndicator
  split
  · rename_i hright
    rw [TURN_SIGNAL_RIGHT] at hright
    simp [hright]
  · split
    · rename_i hleft
      simpa [TURN_SIGNAL_LEFT] using hleft
    · rename_i hleft
      simpa [TURN_SIGNAL_LEFT] using hleft

/-- **The arrows after a refresh.**  The right arrow is lit exactly when the gear of
the latest message leaves the remainder one by three, and the left arrow exactly
when it leaves two, whatever the turn signals and the hazard lights of that
message.  Hence equal gears light the same arrows. -/
theorem arrows_of_gear (d : Drive) :
    (d.rightLit ↔ d.latest.currentGear % 3 = 1) ∧
    (d.leftLit ↔ d.latest.currentGear % 3 = 2) ∧
    ∀ d' : Drive, d'.latest.currentGear = d.latest.currentGear →
      d'.shown.turnSignals = d.shown.turnSignals := by
  refine ⟨?_, ?_, ?_⟩
  · rw [Drive.rightLit, d.turnSignals_eq]
    exact updateTurnSignalIndicator_right _
  · rw [Drive.leftLit, d.turnSignals_eq]
    exact updateTurnSignalIndicator_left _
  · intro d' hgear
    rw [d'.turnSignals_eq, d.turnSignals_eq, hgear]

/-- The arrows follow neither the turn signals of the latest message nor are they
independent of its gear. -/
theorem arrows_ignore_turn_signals :
    ¬ (∀ d : Drive, d.latest.hazardLightsOn = false →
      (d.leftLit ↔ d.latest.turnSignalLeft = true) ∧
      (d.rightLit ↔ d.latest.turnSignalRight = true)) ∧
    ¬ (∀ (d d' : Drive) (gear : Int32), d'.latest = { d.latest with currentGear := gear } →
      d'.shown.turnSignals = d.shown.turnSignals) := by
  constructor
  · intro hfollows
    -- first gear without any signal lights the right arrow
    have hright := (hfollows (.after [] { currentGear := GEAR_FIRST }) rfl).2
    exact absurd (hright.1 (by decide)) (by decide)
  · intro hfollows
    have hsame := hfollows (.after [] {}) (.after [] { currentGear := GEAR_FIRST }) GEAR_FIRST rfl
    exact absurd hsame (by decide)

/-! ## The gear label -/

namespace Drive

/-- The gear label that is enlarged. -/
def label (d : Drive) : String :=
  d.shown.adapter.selectedLabel

theorem adapter_eq (d : Drive) :
    d.shown.adapter = d.final.views.adapter.setSelectedPosition (d.latest.currentGear % 4) := by
  rw [shown_eq, ← d.gearPosition_eq]
  rfl

/-- A nonnegative remainder selects its own label. -/
theorem label_of_remainder (d : Drive) (position : Int32) (hposition : 0 ≤ position ∧ position < 4)
    (hgear : d.latest.currentGear % 4 = position) :
    d.label = GearAdapter.selectedLabel ⟨position, hposition⟩ := by
  rw [label, adapter_eq, hgear, GearAdapter.setSelectedPosition, dif_pos hposition]

/-- A negative remainder leaves the label as it was. -/
theorem label_of_negative (d : Drive) (hgear : d.latest.currentGear % 4 < 0) :
    d.label = d.final.views.adapter.selectedLabel := by
  rw [label, adapter_eq, GearAdapter.setSelectedPosition_of_negative _ hgear]

end Drive

theorem remainder_cases (gear : Int32) :
    gear % 4 < 0 ∨ gear % 4 = 0 ∨ gear % 4 = 1 ∨ gear % 4 = 2 ∨ gear % 4 = 3 := by
  by_cases hneg : gear % 4 < 0
  · exact Or.inl hneg
  · have hlow : 0 ≤ gear % 4 := Int32.not_lt.1 hneg
    have hhigh : gear % 4 < 4 := by
      rw [Int32.lt_iff_toInt_lt, Int32.toInt_mod]
      exact Int.tmod_lt_of_pos gear.toInt (by decide)
    exact Or.inr (GearAdapter.position_cases ⟨hlow, hhigh⟩)

/-- A gear with a negative remainder is shown as `P` on a new dashboard and as `R`
after the first gear was shown. -/
theorem label_stale (gear : Int32) (hgear : gear % 4 < 0) :
    (Drive.after [] { currentGear := gear }).label ≠
      (Drive.after [.message { currentGear := GEAR_FIRST }, .refresh]
        { currentGear := gear }).label := by
  let first : PrimaryVehicleState := { currentGear := GEAR_FIRST }
  let message : PrimaryVehicleState := { currentGear := gear }
  have hone : GEAR_FIRST % 4 = 1 := by decide
  have hfirst := (Drive.after [] first).label_of_remainder 1 (by decide) hone
  rw [Drive.label, Drive.after_nil_shown] at hfirst
  have hnew := (Drive.after [] message).label_of_negative hgear
  have hlater := (Drive.after [.message first, .refresh] message).label_of_negative hgear
  rw [Drive.after_final_views] at hnew hlater
  rw [hnew, hlater, hfirst]
  decide

/-- The label shown for a gear: the same in any two drives, and `R` and `N` for the
two gears that they stand for. -/
def LabelAgrees (gear : Int32) : Prop :=
  ∀ d d' : Drive, d.latest.currentGear = gear → d'.latest.currentGear = gear →
    d.label = d'.label ∧ (d.label = "R" ↔ gear = GEAR_REVERSE) ∧
      (d.label = "N" ↔ gear = GEAR_NEUTRAL)

/-- **When the gear label is right.**  It is for the nonzero gears divisible by four
and for those other than reverse that leave the remainder three; they show `P` and
`D`.  Remainders one and two show `R` and `N` for gears that are neither, neutral
shows `P`, reverse shows `D`, and a negative remainder shows what was there
before. -/
theorem labelAgrees_iff (gear : Int32) :
    LabelAgrees gear ↔
      (gear % 4 = 0 ∧ gear ≠ GEAR_NEUTRAL) ∨ (gear % 4 = 3 ∧ gear ≠ GEAR_REVERSE) := by
  constructor
  · intro hagrees
    let message : PrimaryVehicleState := { currentGear := gear }
    -- the drive that handles nothing but this gear
    let d : Drive := .after [] message
    obtain ⟨-, hR, hN⟩ := hagrees d d rfl rfl
    rcases remainder_cases gear with hgear | hgear | hgear | hgear | hgear
    · exact absurd (hagrees d _ rfl rfl).1 (label_stale gear hgear)
    · rw [d.label_of_remainder 0 (by decide) hgear] at hN
      refine Or.inl ⟨hgear, fun hneutral => ?_⟩
      exact absurd (hN.2 hneutral) (by decide)
    · rw [d.label_of_remainder 1 (by decide) hgear] at hR
      have hreverse : gear = GEAR_REVERSE := hR.1 (by decide)
      rw [hreverse] at hgear
      exact absurd hgear (by decide)
    · rw [d.label_of_remainder 2 (by decide) hgear] at hN
      have hneutral : gear = GEAR_NEUTRAL := hN.1 (by decide)
      rw [hneutral] at hgear
      exact absurd hgear (by decide)
    · rw [d.label_of_remainder 3 (by decide) hgear] at hR
      refine Or.inr ⟨hgear, fun hreverse => ?_⟩
      exact absurd (hR.2 hreverse) (by decide)
  · rintro (⟨hgear, hne⟩ | ⟨hgear, hne⟩) d d' hd hd'
    · have hreverse : gear ≠ GEAR_REVERSE := by
        rintro rfl
        exact absurd hgear (by decide)
      rw [d.label_of_remainder 0 (by decide) (hd ▸ hgear),
        d'.label_of_remainder 0 (by decide) (hd' ▸ hgear)]
      exact ⟨rfl, iff_of_false (by decide) hreverse, iff_of_false (by decide) hne⟩
    · have hneutral : gear ≠ GEAR_NEUTRAL := by
        rintro rfl
        exact absurd hgear (by decide)
      rw [d.label_of_remainder 3 (by decide) (hd ▸ hgear),
        d'.label_of_remainder 3 (by decide) (hd' ▸ hgear)]
      exact ⟨rfl, iff_of_false (by decide) hne, iff_of_false (by decide) hneutral⟩

/-- The first gear is shown as `R` and reverse as `D`, and gear `-1` is shown as
whatever was shown before. -/
theorem labels_disagree :
    (Drive.after [] { currentGear := GEAR_FIRST }).label = "R" ∧
    (Drive.after [] { currentGear := GEAR_REVERSE }).label = "D" ∧
    (Drive.after [] { currentGear := -1 }).label ≠
      (Drive.after [.message { currentGear := GEAR_FIRST }, .refresh] { currentGear := -1 }).label ∧
    ¬ ∀ gear, LabelAgrees gear := by
  have hfirst : (Drive.after [] { currentGear := GEAR_FIRST }).label = "R" :=
    Drive.label_of_remainder _ 1 (by decide) (by decide)
  have hreverse : (Drive.after [] { currentGear := GEAR_REVERSE }).label = "D" :=
    Drive.label_of_remainder _ 3 (by decide) (by decide)
  refine ⟨hfirst, hreverse, label_stale (-1) (by decide), fun hagrees => ?_⟩
  have hfollows := (hagrees GEAR_FIRST (.after [] { currentGear := GEAR_FIRST })
    (.after [] { currentGear := GEAR_FIRST }) rfl rfl).2.1
  exact absurd (hfollows.1 hfirst) (by decide)

end Vehicle
end Veos
