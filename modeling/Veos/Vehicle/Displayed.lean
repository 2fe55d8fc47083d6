import Veos.Library.Observations
import Veos.Library.ProgramEnsures
import Veos.Vehicle.Settled

/-!
# What the dashboard shows

A refresh reads seven properties one after the other, and between two of its reads the
other processes go on.  Each of its values was in the VHAL at its own time.

The dashboard therefore shows nothing that was not sent (`shown_was_sent`), and each
property by itself is shown in the order of the messages (`shown_in_order`), although what
stands side by side on the display can be of different messages.
-/

namespace Veos
namespace Vehicle

open Java Vhal Someip Telemetry Dashboard Tool CallPrograms Observations

/-! ## Later states of the VHAL -/

/-- The VHAL comes from the one state to the other by answering calls. -/
def Later (v v' : Service) : Prop := ∃ calls, Extends v calls v'

theorem Later.refl (v : Service) : Later v v := ⟨[], Extends.refl v⟩

theorem Later.trans (v v' v'' : Service) (h : Later v v') (h' : Later v' v'') : Later v v'' := by
  obtain ⟨calls, hcalls⟩ := h
  obtain ⟨calls', hcalls'⟩ := h'
  exact ⟨calls ++ calls', hcalls.trans hcalls'⟩

theorem Later.serve (call : VhalCall) (v : Service) : Later v (call.serve v).2 := by
  cases call with
  | get key => exact ⟨_, Extends.read v key⟩
  | set key values => exact ⟨_, Extends.set v key values⟩

/-- The calls before are accounted for if those of the whole way are. -/
theorem Accounted.before {p : Platform} {actions : List ProcessAction} {start v v' : Service}
    (h : Accounted p actions start v') (hbefore : Later start v) (hafter : Later v v') :
    Accounted p actions start v := by
  obtain ⟨calls, hextends, hsent⟩ := h
  obtain ⟨earlier, hearlier⟩ := hbefore
  obtain ⟨others, hothers⟩ := hafter
  refine ⟨earlier, hearlier, fun call hmem => hsent call ?_⟩
  rw [← hextends.setsSince, (hearlier.trans hothers).setsSince]
  exact List.mem_append_left _ hmem

/-- What a program of the process ensures, with calls of the others between its own. -/
abbrev Ensured {α : Type} (p : VhalProgram α) (post : α → Service → Prop) (v : Service) : Prop :=
  p.Ensures (Interfered Later VhalCall.serve) post v

/-! ## Gauges -/

/-- What a refresh reads. -/
inductive Gauge
  | speed | batteryLevel | headlights | highBeam | batteryWarning | tireWarning | gear

namespace Gauge

def propId : Gauge → PropId
  | .speed => PROP_VEHICLE_SPEED
  | .batteryLevel => PROP_BATTERY_LEVEL
  | .headlights => PROP_HEADLIGHTS_STATE
  | .highBeam => PROP_HIGH_BEAM_LIGHTS
  | .batteryWarning => PROP_BATTERY_WARNING
  | .tireWarning => PROP_TPMS_WARNING
  | .gear => PROP_GEAR_SELECTION

def key (gauge : Gauge) : Key := (gauge.propId, 0)

/-- The data have for the gauge what `VhalNative` answers for the stored `values`, if the
read meets `fault`. -/
def Shows (gauge : Gauge) (fault : Option ReadFault) (values : List Int32) (data : VehicleData) :
    Prop :=
  match gauge with
  | .speed => data.speed = VhalNative.int32Answer fault values
  | .batteryLevel => data.batteryLevel = VhalNative.int32Answer fault values
  | .headlights => data.headlightsOn = VhalNative.boolAnswer fault values
  | .highBeam => data.highBeamOn = VhalNative.boolAnswer fault values
  | .batteryWarning => data.batteryWarning = VhalNative.boolAnswer fault values
  | .tireWarning => data.tireWarning = VhalNative.boolAnswer fault values
  | .gear => data.gearPosition = VhalNative.int32Answer fault values

/-- The data have for the gauge what a read of this state of the VHAL answers. -/
def ReadAt (gauge : Gauge) (v : Service) (data : VehicleData) : Prop :=
  gauge.Shows (v.getFault v.gets) (v.store gauge.key) data

end Gauge

/-! ## A refresh -/

/-- Between `v` and `v'` there was a state of which `holds` is true. -/
def Once (holds : Service → Prop) (v v' : Service) : Prop :=
  ∃ seen, Later v seen ∧ holds seen ∧ Later seen v'

theorem Once.widen {holds : Service → Prop} {v₀ v v' v₁ : Service} (h : Once holds v v')
    (hbefore : Later v₀ v) (hafter : Later v' v₁) : Once holds v₀ v₁ := by
  obtain ⟨seen, hfirst, hholds, hlast⟩ := h
  exact ⟨seen, hbefore.trans _ _ _ hfirst, hholds, hlast.trans _ _ _ hafter⟩

/-- A program that may throw ends in a later state, and with `post` if it did not throw. -/
def Reads {α : Type} (x : ExceptT JavaException VhalProgram α) (post : α → Service → Prop)
    (v : Service) : Prop :=
  Ensured x.run (fun result v' => Later v v' ∧ ∀ a, result = .ok a → post a v') v

theorem Reads.bind {α β : Type} {x : ExceptT JavaException VhalProgram α}
    {f : α → ExceptT JavaException VhalProgram β} {post : α → Service → Prop}
    {post' : β → Service → Prop} {v : Service} (hx : Reads x post v)
    (hf : ∀ a v', Later v v' → post a v' → Reads (f a) post' v') : Reads (x >>= f) post' v := by
  unfold Reads
  rw [ExceptT.run_bind]
  refine Program.Ensures.bind hx ?_
  rintro (e | a) v' ⟨hlater, hpost⟩
  · exact ⟨hlater, fun a heq => by cases heq⟩
  · refine (hf a v' hlater (hpost a rfl)).mono ?_
    exact fun result v'' h => ⟨hlater.trans _ _ _ h.1, h.2⟩

theorem getInt32_reads (ptr : ClientPtr) (propId : PropId) (v : Service) :
    Reads (ExceptT.mk (VhalProgram.getInt32 ptr propId 0))
      (fun value => Once (fun seen => value =
        VhalNative.int32Answer (seen.getFault seen.gets) (seen.store (propId, 0))) v) v := by
  unfold Reads VhalProgram.getInt32
  split
  · exact ⟨.refl v, fun a heq => by cases heq⟩
  · rintro answer v' ⟨seen, hseen, hserve⟩
    obtain ⟨rfl, rfl⟩ := Prod.mk.inj hserve
    have hafter := Later.serve (.get (propId, 0)) seen
    refine ⟨hseen.trans _ _ _ hafter, fun a heq => ?_⟩
    obtain rfl := Except.ok.inj heq
    exact ⟨seen, hseen, VhalProgram.int32Of_getValueSync seen (propId, 0), hafter⟩

theorem getBool_reads (ptr : ClientPtr) (propId : PropId) (v : Service) :
    Reads (ExceptT.mk (VhalProgram.getBool ptr propId 0))
      (fun value => Once (fun seen => value =
        VhalNative.boolAnswer (seen.getFault seen.gets) (seen.store (propId, 0))) v) v := by
  unfold Reads VhalProgram.getBool
  split
  · exact ⟨.refl v, fun a heq => by cases heq⟩
  · rintro answer v' ⟨seen, hseen, hserve⟩
    obtain ⟨rfl, rfl⟩ := Prod.mk.inj hserve
    have hafter := Later.serve (.get (propId, 0)) seen
    refine ⟨hseen.trans _ _ _ hafter, fun a heq => ?_⟩
    obtain rfl := Except.ok.inj heq
    exact ⟨seen, hseen, VhalProgram.boolOf_getValueSync seen (propId, 0), hafter⟩

/-- Each value of a refresh was read at some time in the course of it. -/
theorem readVehicleData_reads (ptr : ClientPtr) (v : Service) :
    Reads (Callback.readVehicleData ptr)
      (fun data v' => ∀ gauge : Gauge, Once (fun seen => gauge.ReadAt seen data) v v') v := by
  unfold Callback.readVehicleData
  refine Reads.bind (getInt32_reads ptr _ v) fun speed v₁ h₁ hspeed => ?_
  refine Reads.bind (getInt32_reads ptr _ v₁) fun batteryLevel v₂ h₂ hlevel => ?_
  refine Reads.bind (getBool_reads ptr _ v₂) fun headlightsOn v₃ h₃ hheadlights => ?_
  refine Reads.bind (getBool_reads ptr _ v₃) fun highBeamOn v₄ h₄ hbeam => ?_
  refine Reads.bind (getBool_reads ptr _ v₄) fun batteryWarning v₅ h₅ hbattery => ?_
  refine Reads.bind (getBool_reads ptr _ v₅) fun tireWarning v₆ h₆ htire => ?_
  refine Reads.bind (getInt32_reads ptr _ v₆) fun gearPosition v₇ h₇ hgear => ?_
  refine ⟨.refl v₇, fun data heq => ?_⟩
  obtain rfl := Except.ok.inj heq
  -- the states between the reads, from the start and to the end
  have hstart₂ := h₁.trans _ _ _ h₂
  have hstart₃ := hstart₂.trans _ _ _ h₃
  have hstart₄ := hstart₃.trans _ _ _ h₄
  have hstart₅ := hstart₄.trans _ _ _ h₅
  have hend₆ := h₇
  have hend₅ := h₆.trans _ _ _ hend₆
  have hend₄ := h₅.trans _ _ _ hend₅
  have hend₃ := h₄.trans _ _ _ hend₄
  have hend₂ := h₃.trans _ _ _ hend₃
  rintro (_ | _ | _ | _ | _ | _ | _)
  · exact hspeed.widen (.refl v) (h₂.trans _ _ _ hend₂)
  · exact hlevel.widen h₁ hend₂
  · exact hheadlights.widen hstart₂ hend₃
  · exact hbeam.widen hstart₃ hend₄
  · exact hbattery.widen hstart₄ hend₅
  · exact htire.widen hstart₅ hend₆
  · exact hgear.widen (hstart₅.trans _ _ _ h₆) (.refl v₇)

theorem updateVehicleData_ensured (ptr : ClientPtr) (views : Views) (v : Service) :
    Ensured (Callback.updateVehicleData ptr views)
      (fun result v' => Later v v' ∧ (result.2 = views ∨ ∃ data, result.2 = updateViews data views ∧
        ∀ gauge : Gauge, Once (fun seen => gauge.ReadAt seen data) v v')) v := by
  refine Program.Ensures.bind (readVehicleData_reads ptr v) ?_
  rintro (e | data) v' ⟨hlater, hdata⟩
  · exact ⟨hlater, Or.inl rfl⟩
  · exact ⟨hlater, Or.inr ⟨data, rfl, hdata data rfl⟩⟩

/-! ## The process -/

/-- The views after a sequence of refreshes. -/
def draw (refreshes : List VehicleData) (first : Views) : Views :=
  refreshes.foldl (fun views data => updateViews data views) first

/-- The views are drawn over `first` by refreshes whose values were read on the way of the
VHAL from `start` to `v`. -/
structure Drawn (start : Service) (first : Views) (refreshes : List VehicleData) (views : Views)
    (v : Service) : Prop where
  views : views = draw refreshes first
  observed : ∀ gauge : Gauge, Observed Later gauge.ReadAt start refreshes v

namespace Drawn

variable {start v v' : Service} {first views : Views} {refreshes : List VehicleData}

theorem later (h : Drawn start first refreshes views v) (hlater : Later v v') :
    Drawn start first refreshes views v' :=
  ⟨h.views, fun gauge => (h.observed gauge).later Later.trans hlater⟩

theorem new (views : Views) (hlater : Later start v) : Drawn start views [] views v :=
  ⟨rfl, fun _ => .start hlater⟩

theorem refresh (h : Drawn start first refreshes views v) {data : VehicleData}
    (hdata : ∀ gauge : Gauge, Once (fun seen => gauge.ReadAt seen data) v v') :
    Drawn start first (refreshes ++ [data]) (updateViews data views) v' := by
  refine ⟨?_, fun gauge => ?_⟩
  · rw [h.views, draw, draw, List.foldl_append]
    rfl
  · obtain ⟨seen, hfirst, hseen, hlast⟩ := hdata gauge
    exact .look ((h.observed gauge).later Later.trans hfirst) hseen hlast

end Drawn

/-- The views that a dashboard can have before its first refresh. -/
def FirstViews (actions : List ProcessAction) (st : Processes) (first : Views) : Prop :=
  first = .initial ∨ ∃ a : DashboardProcess,
    (st.processes .dashboard = .waiting a ∨ .launch .dashboard a ∈ actions) ∧ first = a.views

/-- What holds of the dashboard and the VHAL whenever the dashboard waits. -/
def Displays (actions : List ProcessAction) (st : Processes) (a : DashboardProcess) (v : Service) :
    Prop :=
  ∃ first refreshes, FirstViews actions st first ∧ Drawn st.service first refreshes a.views v

theorem handle_displays {actions : List ProcessAction} {st : Processes} {a : DashboardProcess}
    {event : ActivityEvent} {program : VhalProgram (Option DashboardProcess)} {v : Service}
    (hhandle : a.handle event = some program) (hlater : Later st.service v)
    (h : Displays actions st a v) :
    Ensured program (fun result v' => ∀ a', result = some a' → Displays actions st a' v') v := by
  obtain ⟨first, refreshes, hfirst, hdrawn⟩ := h
  cases event with
  | onCreate =>
      simp only [DashboardProcess.handle] at hhandle
      split at hhandle
      · cases hhandle
      · split at hhandle
        · cases hhandle
          exact fun _ heq => by cases heq
        · cases hhandle
          rintro a' heq
          obtain rfl := Option.some.inj heq
          exact ⟨.initial, [], Or.inl rfl, .new _ hlater⟩
  | onDestroy =>
      simp only [DashboardProcess.handle] at hhandle
      split at hhandle
      · cases hhandle
      · cases hhandle
        rintro a' heq
        obtain rfl := Option.some.inj heq
        exact ⟨first, refreshes, hfirst, hdrawn⟩
  | update owner =>
      simp only [DashboardProcess.handle] at hhandle
      split at hhandle
      · cases hhandle
        refine (updateVehicleData_ensured a.clientPtr a.views v).bind ?_
        rintro ⟨e, views⟩ v' ⟨hlater', hviews⟩ a' heq
        obtain rfl := Option.some.inj heq
        rcases hviews with hsame | ⟨data, hnew, hdata⟩
        · obtain rfl : views = a.views := hsame
          exact ⟨first, refreshes, hfirst, hdrawn.later hlater'⟩
        · obtain rfl : views = updateViews data a.views := hnew
          exact ⟨first, refreshes ++ [data], hfirst, hdrawn.refresh hdata⟩
      · cases hhandle

/-- Whenever the dashboard waits, with any interleaving, any failing calls and any restarts,
its views were drawn by refreshes of what the VHAL held since it last waited. -/
theorem dashboard_displays (p : Platform) {actions : List ProcessAction} {st st' : Processes}
    {start : DashboardProcess} (hstart : st.processes .dashboard = .waiting start)
    (hrun : runProcesses p actions st = some st') {a : DashboardProcess}
    (hwaits : st'.processes .dashboard = .waiting a) : Displays actions st a st'.service := by
  refine run_interfered (i := Role.dashboard) Later.refl Later.trans Later.serve
    (Displays actions st) ?_ ?_ ?_ hstart ?_ hrun hwaits
  · rintro a v v' hlater ⟨first, refreshes, hfirst, hdrawn⟩
    exact ⟨first, refreshes, hfirst, hdrawn.later hlater⟩
  · intro a v hmem hlater
    exact ⟨a.views, [], Or.inr ⟨a, Or.inr hmem, rfl⟩, .new _ hlater⟩
  · exact fun a event program v hhandle hlater h => handle_displays hhandle hlater h
  · exact ⟨start.views, [], Or.inr ⟨start, Or.inl hstart, rfl⟩, .new _ (.refl _)⟩

/-- **Nothing is shown that was not sent.**  In any run, with any interleaving, any failing
calls and any restarts, take the dashboard when it waits.  Its views were drawn by refreshes
over the views of a new activity or of a process that was launched.  What a refresh took
for a property is what a read makes of values that the property had at the start or that
were sent for it. -/
theorem shown_was_sent (p : Platform) (actions : List ProcessAction) (st st' : Processes)
    (hidle : st.Idle) (hrun : runProcesses p actions st = some st') (a : DashboardProcess)
    (hwaits : st'.processes .dashboard = .waiting a) :
    ∃ first refreshes, FirstViews actions st first ∧ a.views = draw refreshes first ∧
      ∀ data ∈ refreshes, ∀ gauge : Gauge, ∃ n values,
        (values = st.service.store gauge.key ∨ Sent p actions gauge.key values) ∧
        gauge.Shows (st.service.getFault n) values data := by
  obtain ⟨start, hstart⟩ := hidle .dashboard
  obtain ⟨first, refreshes, hfirst, hdrawn⟩ := dashboard_displays p hstart hrun hwaits
  refine ⟨first, refreshes, hfirst, hdrawn.views, fun data hmem gauge => ?_⟩
  obtain ⟨seen, hbefore, hread, hafter⟩ := (hdrawn.observed gauge).between Later.trans hmem
  have hsource := ((run_accounted p hidle hrun).before hbefore hafter).store gauge.key
  obtain ⟨calls, hextends⟩ := hbefore
  refine ⟨seen.gets, seen.store gauge.key, hsource, ?_⟩
  rw [← hextends.getFault]
  exact hread

/-- The dashboard reads the speed before the client sets it, and the rest after that. -/
def torn : List ProcessAction :=
  [.start .dashboard .onCreate, .start .client [2, 16, 42], .start .dashboard (.update 0),
    .turn .dashboard] ++ List.replicate 12 (.turn .client) ++
    List.replicate 6 (.turn .dashboard)

/-- The dashboard at the end of it, with the speed of a VHAL that holds none. -/
def tornDashboard : DashboardProcess where
  created := 1
  alive := some 0
  pendingUpdates := [0]
  views := updateViews ⟨-1, 0, false, false, false, false, 0⟩ .initial
  clientPtr := 1
  clients := ⟨[1], 1, fun _ => false⟩

theorem torn_sent :
    ∃ first refreshes, FirstViews torn beforeMeeting first ∧
      tornDashboard.views = draw refreshes first ∧
      ∀ data ∈ refreshes, ∀ gauge : Gauge, ∃ n values,
        (values = beforeMeeting.service.store gauge.key ∨
          Sent paddingPlatform torn gauge.key values) ∧
        gauge.Shows (beforeMeeting.service.getFault n) values data :=
  shown_was_sent paddingPlatform torn beforeMeeting _ (Programs.processes_idle _)
    (Option.some_get rfl).symm tornDashboard rfl

end Vehicle
end Veos
