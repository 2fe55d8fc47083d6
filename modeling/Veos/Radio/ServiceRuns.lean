import Veos.Library.TracedRuns
import Veos.Radio.Tea5767

/-!
# Sequences of calls of the radio service

Any sequence of `mute`, `unmute` and `changeStation` calls, for any base path and whatever
files can be opened.  The service has two settings, each of which is what the last call
for it made of it.  Of the muting that holds only where the path of the shell command is
the one that `isMuted` reads, and of either only where its file can be written.  No caller
learns that it could not (`radio_runs`).
-/

namespace Veos
namespace Radio

open DecimalText

/-- The calls of the binder interface. -/
inductive RadioCall
  | mute
  | unmute
  | changeStation (frequencyKHz : Int32)
  deriving DecidableEq

namespace RadioCall

/-- What a call makes of the muting, if it is about that. -/
def muted : RadioCall → Option Bool
  | .mute => some true
  | .unmute => some false
  | .changeStation _ => none

/-- The frequency that a call tunes to. -/
def frequency : RadioCall → Option Int32
  | .changeStation frequencyKHz => some frequencyKHz
  | _ => none

end RadioCall

def Tea5767Service.call (service : Tea5767Service) (fs : FileSystem) :
    RadioCall → ScopedAStatus × FileSystem
  | .mute => service.mute fs
  | .unmute => service.unmute fs
  | .changeStation frequencyKHz => service.changeStation frequencyKHz fs

/-- The file of the shell command of `mute` and `unmute`. -/
def mutePath : String := "/sys/class/i2c-dev/i2c-1/device/1-0060/tea5767/mute"

namespace Tea5767Hal

variable (hal : Tea5767Hal)

/-- Muting works and shows. -/
def Mutes (fs : FileSystem) : Prop :=
  fs.writable mutePath = true ∧ hal.path "mute" = mutePath

instance (fs : FileSystem) : Decidable (hal.Mutes fs) :=
  inferInstanceAs (Decidable (_ ∧ _))

/-- What `getStation` makes of the file that `tune` writes. -/
def readBack (frequencyKHz : Int32) : Except StoiException Int32 :=
  if 10 * frequencyKHz.toInt < Int32.minValue.toInt ∨
      Int32.maxValue.toInt < 10 * frequencyKHz.toInt then .error .out_of_range
  else .ok (Int32.ofInt (10 * frequencyKHz.toInt))

/-! ## One call -/

/-- A file with another last letter is not the one of the shell command. -/
theorem path_ne_mutePath {file : String} (last : Char)
    (hlast : file.toList.getLast? = some last) (hne : last ≠ 'e') : hal.path file ≠ mutePath := by
  intro hpath
  have hletters := congrArg (fun path : String => path.toList.getLast?) hpath
  have hend : mutePath.toList.getLast? = some 'e' := by decide
  simp only [path, String.toList_append, List.getLast?_append, hlast, Option.some_or,
    hend] at hletters
  exact hne (Option.some.inj hletters)

theorem echoMute_eq (value : Char) (fs : FileSystem) :
    echoMute value fs =
      if fs.writable mutePath then fs.write mutePath [value, '\n'] else fs := rfl

theorem echoMute_writable (value : Char) (fs : FileSystem) :
    (echoMute value fs).writable = fs.writable := by
  rw [echoMute_eq]
  split <;> rfl

/-- The shell command writes no file but its own. -/
theorem echoMute_text_of_ne (value : Char) (fs : FileSystem) {path : String}
    (hpath : path ≠ mutePath) : (echoMute value fs).text path = fs.text path := by
  rw [echoMute_eq]
  split
  · exact FileSystem.write_text_of_ne fs _ hpath
  · rfl

theorem tune_text_of_ne (frequencyKHz : Int32) (fs : FileSystem) {path : String}
    (hpath : path ≠ hal.path "station") : (hal.tune frequencyKHz fs).text path = fs.text path := by
  unfold tune
  split
  · exact FileSystem.write_text_of_ne fs _ hpath
  · rfl

theorem isMuted_echo (value : Char) (hvalue : isSpace value = false) (fs : FileSystem) :
    hal.isMuted (echoMute value fs) =
      if hal.Mutes fs then decide (value = '1') else hal.isMuted fs := by
  by_cases hwritable : fs.writable mutePath = true
  · rw [hal.isMuted_echoMute value hvalue hwritable]
    simp only [Mutes, hwritable, true_and]
    rfl
  · have hfailed : echoMute value fs = fs := if_neg hwritable
    rw [hfailed, if_neg fun h => hwritable h.1]

end Tea5767Hal

namespace Tea5767Service

variable {service : Tea5767Service} {hal : Tea5767Hal}

/-- The files after a call of a service with a HAL. -/
theorem call_of_hal (hhal : service.hal = some hal) (fs : FileSystem) (call : RadioCall) :
    service.call fs call = (.ok, match call with
      | .mute => Tea5767Hal.mute fs
      | .unmute => Tea5767Hal.unmute fs
      | .changeStation frequencyKHz => hal.tune frequencyKHz fs) := by
  cases call <;> simp [Tea5767Service.call, mute, unmute, changeStation, withHal, hhal]

/-- What one call does, by the files that can be written. -/
structure CallSpec (hal : Tea5767Hal) (fs : FileSystem) (call : RadioCall)
    (r : ScopedAStatus × FileSystem) : Prop where
  status : r.1 = .ok
  writable : r.2.writable = fs.writable
  others : ∀ path, path ≠ mutePath → path ≠ hal.path "station" → r.2.text path = fs.text path
  isMuted : hal.isMuted r.2 = (if hal.Mutes fs then call.muted else none).getD (hal.isMuted fs)
  station : hal.getStation r.2 =
    ((if fs.writable (hal.path "station") then call.frequency else none).map
      Tea5767Hal.readBack).getD (hal.getStation fs)

/-- A call that echoes to the file of the muting. -/
theorem CallSpec.echo (hal : Tea5767Hal) (fs : FileSystem) {call : RadioCall} {value : Char}
    (hvalue : isSpace value = false) (hmuted : call.muted = some (decide (value = '1')))
    (hfrequency : call.frequency = none) :
    CallSpec hal fs call (.ok, Tea5767Hal.echoMute value fs) where
  status := rfl
  writable := Tea5767Hal.echoMute_writable value fs
  others := fun _ hmute _ => Tea5767Hal.echoMute_text_of_ne value fs hmute
  isMuted := by
    rw [hal.isMuted_echo value hvalue fs, hmuted]
    split <;> rfl
  station := by
    have hpath : hal.path "station" ≠ mutePath := hal.path_ne_mutePath 'n' rfl (by decide)
    have htext := Tea5767Hal.echoMute_text_of_ne value fs hpath
    rw [hfrequency, ite_self, Tea5767Hal.getStation, hal.readFromFile_congr htext]
    rfl

theorem CallSpec.tune (hal : Tea5767Hal) (fs : FileSystem) (frequencyKHz : Int32) :
    CallSpec hal fs (.changeStation frequencyKHz) (.ok, hal.tune frequencyKHz fs) where
  status := rfl
  writable := hal.tune_writable frequencyKHz fs
  others := fun _ _ hstation => hal.tune_text_of_ne frequencyKHz fs hstation
  isMuted := by
    rw [RadioCall.muted, ite_self, Tea5767Hal.isMuted,
      hal.readFromFile_tune frequencyKHz fs (by decide)]
    rfl
  station := by
    by_cases hwritable : fs.writable (hal.path "station") = true
    · rw [hal.getStation_tune frequencyKHz hwritable, if_pos hwritable]
      rfl
    · have hfailed : hal.tune frequencyKHz fs = fs := if_neg hwritable
      rw [hfailed, if_neg hwritable]
      rfl

theorem call_spec (hhal : service.hal = some hal) (fs : FileSystem) (call : RadioCall) :
    CallSpec hal fs call (service.call fs call) := by
  rw [call_of_hal hhal]
  cases call with
  | mute => exact .echo hal fs rfl rfl rfl
  | unmute => exact .echo hal fs rfl rfl rfl
  | changeStation frequencyKHz => exact .tune hal fs frequencyKHz

/-! ## Sequences of calls -/

/-- The last of the values that some calls carry. -/
def lastOf {α : Type} (carried : RadioCall → Option α) (calls : List RadioCall) : Option α :=
  (calls.filterMap carried).getLast?

theorem lastOf_append_singleton {α : Type} (carried : RadioCall → Option α)
    (calls : List RadioCall) (call : RadioCall) :
    lastOf carried (calls ++ [call]) = (carried call).or (lastOf carried calls) := by
  cases hcarried : carried call <;> simp [lastOf, hcarried]

/-- What a sequence of calls does, by the files that can be written. -/
structure RunSpec (service : Tea5767Service) (hal : Tea5767Hal) (fs : FileSystem)
    (calls : List RadioCall) (after : FileSystem) : Prop where
  statuses : ∀ status ∈ TracedRuns.trace service.call calls fs, status = .ok
  writable : after.writable = fs.writable
  others : ∀ path, path ≠ mutePath → path ≠ hal.path "station" → after.text path = fs.text path
  isMuted : hal.isMuted after =
    (if hal.Mutes fs then lastOf RadioCall.muted calls else none).getD (hal.isMuted fs)
  station : hal.getStation after =
    ((if fs.writable (hal.path "station") then lastOf RadioCall.frequency calls else none).map
      Tea5767Hal.readBack).getD (hal.getStation fs)

theorem run_spec (hhal : service.hal = some hal) (calls : List RadioCall) (fs : FileSystem) :
    RunSpec service hal fs calls (TracedRuns.final service.call calls fs) := by
  induction calls using List.reverseRecOn with
  | nil =>
      refine ⟨by simp [TracedRuns.trace], rfl, fun _ _ _ => rfl, ?_, ?_⟩
      · rw [lastOf, List.filterMap_nil, List.getLast?_nil, ite_self]
        rfl
      · rw [lastOf, List.filterMap_nil, List.getLast?_nil, ite_self]
        rfl
  | append_singleton calls call ih =>
      have hcall := call_spec hhal (TracedRuns.final service.call calls fs) call
      have hmutes : hal.Mutes (TracedRuns.final service.call calls fs) ↔ hal.Mutes fs := by
        rw [Tea5767Hal.Mutes, Tea5767Hal.Mutes, ih.writable]
      rw [TracedRuns.final_append]
      refine ⟨?_, hcall.writable.trans ih.writable, fun path hmute hstation =>
        (hcall.others path hmute hstation).trans (ih.others path hmute hstation), ?_, ?_⟩
      · intro status hstatus
        rw [TracedRuns.trace_append] at hstatus
        rcases List.mem_append.1 hstatus with hearlier | hlast
        · exact ih.statuses status hearlier
        · exact (List.mem_singleton.1 hlast).trans hcall.status
      -- the last call decides if it is about the setting, and the earlier ones otherwise
      · refine hcall.isMuted.trans ?_
        rw [ih.isMuted, lastOf_append_singleton]
        simp only [hmutes]
        split <;> cases call.muted <;> rfl
      · refine hcall.station.trans ?_
        rw [ih.station, lastOf_append_singleton, ih.writable]
        split <;> cases call.frequency <;> rfl

/-- Without a HAL nothing changes. -/
theorem run_null (hhal : service.hal = none) (calls : List RadioCall) (fs : FileSystem) :
    (∀ status ∈ TracedRuns.trace service.call calls fs, status = .EX_NULL_POINTER) ∧
      TracedRuns.final service.call calls fs = fs := by
  have hcall (call : RadioCall) : service.call fs call = (.EX_NULL_POINTER, fs) := by
    cases call <;> simp [Tea5767Service.call, mute, unmute, changeStation, withHal, hhal]
  induction calls with
  | nil => exact ⟨by simp [TracedRuns.trace], rfl⟩
  | cons call calls ih =>
      rw [TracedRuns.trace, TracedRuns.final, List.foldl_cons, hcall, ← TracedRuns.final]
      exact ⟨List.forall_mem_cons.2 ⟨rfl, ih.1⟩, ih.2⟩

/-- **The settings after any sequence of calls.**  Without a HAL every call returns the
null pointer status and no file changes.  With one every call returns `ok`.  The radio is
muted as the last `mute` or `unmute` left it if muting works, and as before otherwise.
The station is what the last `changeStation` reads back as if its file can be written, and
as before otherwise.  No other file changes, so neither does the station list. -/
theorem radio_runs (service : Tea5767Service) (calls : List RadioCall) (fs : FileSystem) :
    let statuses := TracedRuns.trace service.call calls fs
    let after := TracedRuns.final service.call calls fs
    (service.hal = none → (∀ status ∈ statuses, status = .EX_NULL_POINTER) ∧ after = fs) ∧
    ∀ hal, service.hal = some hal →
      (∀ status ∈ statuses, status = .ok) ∧
      hal.isMuted after =
        (if hal.Mutes fs then lastOf RadioCall.muted calls else none).getD (hal.isMuted fs) ∧
      hal.getStation after =
        ((if fs.writable (hal.path "station") then lastOf RadioCall.frequency calls
          else none).map Tea5767Hal.readBack).getD (hal.getStation fs) ∧
      (∀ path, path ≠ mutePath → path ≠ hal.path "station" → after.text path = fs.text path) ∧
      hal.getStationList after = hal.getStationList fs := by
  intro statuses after
  refine ⟨fun hhal => run_null hhal calls fs, fun hal hhal => ?_⟩
  have hspec := run_spec hhal calls fs
  refine ⟨hspec.statuses, hspec.isMuted, hspec.station, hspec.others, ?_⟩
  have hmute : hal.path "stationlist" ≠ mutePath := hal.path_ne_mutePath 't' rfl (by decide)
  have hstation : hal.path "stationlist" ≠ hal.path "station" := hal.path_ne (by decide)
  exact hal.readFromFile_congr (hspec.others _ hmute hstation)

/-- A radio that is muted, tuned, unmuted and muted again is muted. -/
theorem muted_again :
    let service : Tea5767Service := ⟨some {}⟩
    ({} : Tea5767Hal).isMuted (TracedRuns.final service.call
      [.mute, .changeStation 89200, .unmute, .mute] emptyFiles) = true := by
  intro service
  exact ((radio_runs service [.mute, .changeStation 89200, .unmute, .mute] emptyFiles).2 {}
    rfl).2.1

end Tea5767Service

end Radio
end Veos
