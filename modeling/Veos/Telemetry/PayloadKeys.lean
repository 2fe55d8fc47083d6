import Veos.Library.DecimalText
import Veos.Telemetry.Readings

/-!
# The names in the payload

The payload of `sendTelemetry` is one flat map.  Its keys come from three sources: the
literals for the vehicle, the time and the place, the table of `PropMapping`, and the
decimal texts of the ids that the table does not have.  A name of one source is never one
of another, and no source gives a name twice (`getName_injective`), so no entry of a
payload overwrites another.
-/

namespace Veos
namespace Telemetry

open Java Vhal DecimalText

/-! ## Names of properties -/

/-- Only digits and minus signs. -/
def isDecimal (name : String) : Bool := name.toList.all fun c => c.isDigit || c = '-'

/-- The keys that `sendTelemetry` and `addLocation` put themselves. -/
def fixedNames : List String := ["vehicle_id", "timestamp", "latitude", "longitude"]

theorem fixedNames_not_decimal : ∀ name ∈ fixedNames, isDecimal name = false := by
  decide

namespace PropMapping

theorem toList_toString_propId (propId : PropId) :
    (toString propId).toList = printInt propId.toInt :=
  toList_toString propId.toInt

theorem isDecimal_toString (propId : PropId) : isDecimal (toString propId) = true := by
  rw [isDecimal, toList_toString_propId, List.all_eq_true]
  intro c hc
  simpa using isDigit_or_minus_of_mem_printInt hc

theorem toString_propId_injective {propId other : PropId}
    (htext : toString propId = toString other) : propId = other := by
  have hlists := congrArg String.toList htext
  rw [toList_toString_propId, toList_toString_propId] at hlists
  exact Int32.toInt_inj.1 (printInt_injective hlists)

theorem table_names_nodup : (table.map Prod.snd).Nodup := by
  decide

theorem table_names_not_decimal : ∀ entry ∈ table, isDecimal entry.2 = false := by
  decide

theorem table_names_not_fixed : ∀ entry ∈ table, entry.2 ∉ fixedNames := by
  decide

/-- A name is in the table or the decimal text of its id. -/
theorem getName_cases (propId : PropId) :
    (propId, getName propId) ∈ table ∨ getName propId = toString propId := by
  cases hlookup : table.lookup propId with
  | none =>
      right
      rw [getName, hlookup]
      rfl
  | some name =>
      left
      have hname : getName propId = name := by
        rw [getName, hlookup]
        rfl
      obtain ⟨before, rest, htable, -⟩ := List.lookup_eq_some_iff.1 hlookup
      rw [hname, htable]
      exact List.mem_append_right before List.mem_cons_self

theorem getName_injective : Function.Injective getName := by
  intro propId other hname
  rcases getName_cases propId with hentry | hdecimal <;>
    rcases getName_cases other with hother | hotherDecimal
  · rw [hname] at hentry
    have hsame := List.inj_on_of_nodup_map table_names_nodup hentry hother rfl
    exact congrArg Prod.fst hsame
  -- a name of the table is no decimal text
  · have hnot := table_names_not_decimal _ hentry
    rw [hname, hotherDecimal, isDecimal_toString] at hnot
    cases hnot
  · have hnot := table_names_not_decimal _ hother
    rw [← hname, hdecimal, isDecimal_toString] at hnot
    cases hnot
  · rw [hdecimal, hotherDecimal] at hname
    exact toString_propId_injective hname

theorem getName_not_fixed (propId : PropId) : getName propId ∉ fixedNames := by
  intro hfixed
  rcases getName_cases propId with hentry | hdecimal
  · exact table_names_not_fixed _ hentry hfixed
  · have hnot := fixedNames_not_decimal _ hfixed
    rw [hdecimal, isDecimal_toString] at hnot
    cases hnot

end PropMapping

/-! ## Lists of readings -/

/-- What the call of a reading returns, as the object that goes into the payload. -/
def Reading.result (ptr : ClientPtr) (areaId : AreaId) (v : Service) :
    Reading → Except JavaException JObject
  | .int propId =>
      (VhalNative.getInt32 ptr propId areaId v).1.map fun value => .number (.integer value)
  | .bool propId => (VhalNative.getBool ptr propId areaId v).1.map .boolean

/-- The results of a list of readings, each in the state in which it is made. -/
def readResults (ptr : ClientPtr) :
    List (Reading × AreaId) → Service → List (Except JavaException JObject)
  | [], _ => []
  | (reading, areaId) :: requests, v =>
      reading.result ptr areaId v ::
        readResults ptr requests (addReading ptr [] reading areaId v).2

/-- Without a handle the call throws. -/
theorem Reading.result_null (areaId : AreaId) (v : Service) (reading : Reading) :
    reading.result 0 areaId v = .error VhalNative.notInitialized := by
  cases reading with
  | int propId => simp only [result, VhalNative.getInt32_null, Except.map]
  | bool propId => simp only [result, VhalNative.getBool_null, Except.map]

theorem Reading.result_connected {ptr : ClientPtr} (hptr : ptr ≠ 0) (areaId : AreaId)
    (v : Service) (reading : Reading) :
    reading.result ptr areaId v =
      .ok (reading.answer (v.getFault v.gets) (v.store (reading.propId, areaId))) := by
  cases reading with
  | int propId => simp only [result, VhalNative.getInt32_connected hptr, Except.map]; rfl
  | bool propId => simp only [result, VhalNative.getBool_connected hptr, Except.map]; rfl

/-- The name under which a reading is entered. -/
def requestName (request : Reading × AreaId) : String := PropMapping.getName request.1.propId

theorem requestName_not_fixed (request : Reading × AreaId) : requestName request ∉ fixedNames :=
  PropMapping.getName_not_fixed request.1.propId

/-- A call that returns enters what it returns. -/
theorem addReading_of_ok {ptr : ClientPtr} {reading : Reading} {areaId : AreaId} {v : Service}
    {object : JObject} (hresult : reading.result ptr areaId v = .ok object) (payload : JMap) :
    addReading ptr payload reading areaId v =
      (payload.put (requestName (reading, areaId)) object,
        (addReading ptr [] reading areaId v).2) := by
  by_cases hptr : ptr = 0
  · rw [hptr, Reading.result_null] at hresult
    cases hresult
  · rw [Reading.result_connected hptr] at hresult
    rw [addReading_connected hptr, addReading_connected hptr, Except.ok.inj hresult]
    rfl

/-- One entry for each reading. -/
def entries (requests : List (Reading × AreaId)) (objects : List JObject) : JMap :=
  List.zipWith (fun request object => (requestName request, object)) requests objects

section Runs

variable {ptr : ClientPtr}

/-- What the results of a list of readings say of its first one. -/
theorem readResults_cons {reading : Reading} {areaId : AreaId}
    {requests : List (Reading × AreaId)} {v : Service} {objects : List JObject}
    (hresults : readResults ptr ((reading, areaId) :: requests) v = objects.map .ok) :
    ∃ object rest, objects = object :: rest ∧ reading.result ptr areaId v = .ok object ∧
      readResults ptr requests (addReading ptr [] reading areaId v).2 = rest.map .ok := by
  cases objects with
  | nil => cases hresults
  | cons object rest =>
      rw [readResults, List.map_cons, List.cons.injEq] at hresults
      exact ⟨object, rest, rfl, hresults.1, hresults.2⟩

/-- Bindings of names that no reading of the list has stay as they are. -/
theorem addRequests_bindingsOf_of_ne {requests : List (Reading × AreaId)} {v : Service}
    {objects : List JObject} (hresults : readResults ptr requests v = objects.map .ok)
    (payload : JMap) {name : String} (hname : ∀ request ∈ requests, name ≠ requestName request) :
    (addRequests ptr requests payload v).1.bindingsOf name = payload.bindingsOf name := by
  induction requests generalizing payload v objects with
  | nil => rfl
  | cons request requests ih =>
      obtain ⟨reading, areaId⟩ := request
      obtain ⟨object, rest, rfl, hresult, hrest⟩ := readResults_cons hresults
      rw [List.forall_mem_cons] at hname
      rw [addRequests, addReading_of_ok hresult payload]
      exact (ih hrest _ hname.2).trans (JMap.bindingsOf_put_of_ne payload _ name object hname.1)

/-- A reading has one entry, with what its call returned. -/
theorem addRequests_bindingsOf {requests : List (Reading × AreaId)} {v : Service}
    {objects : List JObject} (hresults : readResults ptr requests v = objects.map .ok)
    (hnodup : (requests.map requestName).Nodup) (payload : JMap) {i : Nat}
    {request : Reading × AreaId} {object : JObject} (hrequest : requests[i]? = some request)
    (hobject : objects[i]? = some object) :
    (addRequests ptr requests payload v).1.bindingsOf (requestName request) =
      [(requestName request, object)] := by
  induction requests generalizing payload v objects i with
  | nil => cases hrequest
  | cons first requests ih =>
      obtain ⟨reading, areaId⟩ := first
      obtain ⟨firstObject, rest, rfl, hresult, hrest⟩ := readResults_cons hresults
      rw [List.map_cons, List.nodup_cons] at hnodup
      rw [addRequests, addReading_of_ok hresult payload]
      cases i with
      | zero =>
          obtain rfl : (reading, areaId) = request := by simpa using hrequest
          obtain rfl : firstObject = object := by simpa using hobject
          -- no later reading has the same name
          refine (addRequests_bindingsOf_of_ne hrest _ fun later hlater hsame => ?_).trans
            (JMap.bindingsOf_put_self payload _ _)
          exact hnodup.1 (hsame ▸ List.mem_map.2 ⟨later, hlater, rfl⟩)
      | succ i => exact ih hrest hnodup.2 _ hrequest hobject

/-- Readings with names of their own add their entries and nothing else. -/
theorem addRequests_perm {requests : List (Reading × AreaId)} {v : Service}
    {objects : List JObject} (hresults : readResults ptr requests v = objects.map .ok)
    (hnodup : (requests.map requestName).Nodup) (payload : JMap)
    (hfresh : ∀ request ∈ requests, ∀ binding ∈ payload, binding.1 ≠ requestName request) :
    (addRequests ptr requests payload v).1.Perm (payload ++ entries requests objects) := by
  induction requests generalizing payload v objects with
  | nil => simp [addRequests, entries]
  | cons first requests ih =>
      obtain ⟨reading, areaId⟩ := first
      obtain ⟨object, rest, rfl, hresult, hrest⟩ := readResults_cons hresults
      rw [List.map_cons, List.nodup_cons] at hnodup
      rw [List.forall_mem_cons] at hfresh
      rw [addRequests, addReading_of_ok hresult payload, JMap.put_of_fresh object hfresh.1]
      refine (ih hrest hnodup.2 _ fun later hlater => ?_).trans List.perm_middle.symm
      rw [List.forall_mem_cons]
      refine ⟨fun hsame => hnodup.1 ?_, hfresh.2 later hlater⟩
      exact List.mem_map.2 ⟨later, hlater, hsame.symm⟩

end Runs

/-- **The names in the payload never collide.**  Different ids have different names and none
has a fixed one.  So readings of pairwise different properties, of whatever areas, whose
calls return, add to a payload that has only fixed names one entry each, with what the call
returned, and leave the fixed entries as they are. -/
theorem names_never_collide :
    Function.Injective PropMapping.getName ∧
    (∀ propId, PropMapping.getName propId ∉ fixedNames) ∧
    ∀ (ptr : ClientPtr) (requests : List (Reading × AreaId)) (payload : JMap) (v : Service)
      (objects : List JObject),
      (requests.map fun request => request.1.propId).Nodup →
      (∀ binding ∈ payload, binding.1 ∈ fixedNames) →
      readResults ptr requests v = objects.map .ok →
      let final := (addRequests ptr requests payload v).1
      final.Perm (payload ++ entries requests objects) ∧
      (∀ (i : Nat) request object, requests[i]? = some request → objects[i]? = some object →
        final.bindingsOf (requestName request) = [(requestName request, object)]) ∧
      ∀ name ∈ fixedNames, final.bindingsOf name = payload.bindingsOf name := by
  refine ⟨PropMapping.getName_injective, PropMapping.getName_not_fixed, ?_⟩
  intro ptr requests payload v objects hids hpayload hresults final
  have hnames : (requests.map requestName).Nodup := by
    have hmapped := hids.map PropMapping.getName_injective
    rwa [List.map_map] at hmapped
  refine ⟨addRequests_perm hresults hnames payload fun request _ binding hbinding hsame => ?_,
    fun i request object => addRequests_bindingsOf hresults hnames payload,
    fun name hfixed => addRequests_bindingsOf_of_ne hresults payload fun request _ hsame => ?_⟩
  · exact requestName_not_fixed request (hsame ▸ hpayload binding hbinding)
  · exact requestName_not_fixed request (hsame ▸ hfixed)

/-- A sweep of a known and an unknown property keeps the vehicle's name. -/
theorem two_readings_three_entries :
    let requests : List (Reading × AreaId) := [(.int 557846353, 0), (.bool (-7), 3)]
    let payload : JMap := [("vehicle_id", .string "rpi5-001")]
    let final := (addRequests 1 requests payload (.fresh fun _ => [50])).1
    final.bindingsOf (PropMapping.getName (-7)) = [(PropMapping.getName (-7), .boolean true)] ∧
    final.bindingsOf "vehicle_id" = payload.bindingsOf "vehicle_id" := by
  intro requests payload final
  have hids : (requests.map fun request => request.1.propId).Nodup := by decide
  have hpayload : ∀ binding ∈ payload, binding.1 ∈ fixedNames := by
    intro binding hbinding
    obtain rfl := List.mem_singleton.1 hbinding
    exact List.mem_cons_self
  obtain ⟨-, hentries, hfixed⟩ :=
    names_never_collide.2.2 1 requests payload (.fresh fun _ => [50])
      [.number (.integer 50), .boolean true] hids hpayload rfl
  exact ⟨hentries 1 _ _ rfl rfl, hfixed "vehicle_id" List.mem_cons_self⟩

/-! ## The payload of `sendTelemetry` -/

/-- What the calls of a connected service return. -/
def answers (requests : List (Reading × AreaId)) (v : Service) : List JObject :=
  requests.mapIdx fun i request =>
    request.1.answer (v.getFault (v.gets + i)) (v.store (request.1.propId, request.2))

theorem readResults_connected {ptr : ClientPtr} (hptr : ptr ≠ 0)
    (requests : List (Reading × AreaId)) (v : Service) :
    readResults ptr requests v = (answers requests v).map .ok := by
  induction requests generalizing v with
  | nil => rfl
  | cons request requests ih =>
      obtain ⟨reading, areaId⟩ := request
      rw [readResults, ih, reading.result_connected hptr, addReading_connected hptr]
      simp only [answers, List.mapIdx_cons, List.map_cons, Nat.add_zero, Nat.add_assoc,
        Nat.add_comm 1]

section Lookups

variable {ptr : ClientPtr} (hptr : ptr ≠ 0) (readings : List Reading) (payload : JMap)
  (v : Service)

include hptr

theorem addReadings_lookup_of_ne {name : String}
    (hname : ∀ reading ∈ readings, name ≠ PropMapping.getName reading.propId) :
    (addReadings ptr readings payload v).1.lookup name = payload.lookup name := by
  rw [addReadings_eq_addRequests, JMap.lookup_eq_bindingsOf,
    addRequests_bindingsOf_of_ne (readResults_connected hptr _ v), ← JMap.lookup_eq_bindingsOf]
  rw [List.forall_mem_map]
  exact hname

/-- The entry of a reading is its answer at the time it is made. -/
theorem addReadings_lookup
    (hnodup : (readings.map fun reading => PropMapping.getName reading.propId).Nodup) {i : Nat}
    {reading : Reading} (hreading : readings[i]? = some reading) :
    (addReadings ptr readings payload v).1.lookup (PropMapping.getName reading.propId) =
      some (reading.answer (v.getFault (v.gets + i)) (v.store (reading.propId, 0))) := by
  let requests := readings.map fun reading => (reading, (0 : AreaId))
  have hnames : (requests.map requestName).Nodup := by
    rw [List.map_map]
    exact hnodup
  have hrequest : requests[i]? = some (reading, 0) := by simp [requests, hreading]
  have hanswer : (answers requests v)[i]? =
      some (reading.answer (v.getFault (v.gets + i)) (v.store (reading.propId, 0))) := by
    simp [answers, hrequest]
  have hbindings := addRequests_bindingsOf (readResults_connected hptr requests v) hnames payload
    hrequest hanswer
  rw [addReadings_eq_addRequests, JMap.lookup_eq_bindingsOf]
  exact congrArg (fun bindings => bindings.head?.map Prod.snd) hbindings

end Lookups

/-- The entries that do not come from the VHAL. -/
def fixedEntries (around : Surroundings) : JMap :=
  let payload : JMap := []
  let payload := payload.put "vehicle_id" (.string "rpi5-001")
  addLocation around (payload.put "timestamp" (.number (.long around.currentTimeMillis)))

theorem sendTelemetry_eq (ptr : ClientPtr) (around : Surroundings) (v : Service) :
    sendTelemetry ptr around v = addReadings ptr sweep (fixedEntries around) v := rfl

theorem addLocation_names (around : Surroundings) {payload : JMap}
    (hpayload : ∀ binding ∈ payload, binding.1 ∈ fixedNames) :
    ∀ binding ∈ addLocation around payload, binding.1 ∈ fixedNames := by
  obtain ⟨millis, location⟩ := around
  cases location with
  | none => exact hpayload
  | some coordinates =>
      obtain ⟨latitude, longitude⟩ := coordinates
      have hlatitude := JMap.put_names hpayload "latitude" (by decide) (.number (.double latitude))
      exact JMap.put_names hlatitude "longitude" (by decide) (.number (.double longitude))

theorem fixedEntries_names (around : Surroundings) :
    ∀ binding ∈ fixedEntries around, binding.1 ∈ fixedNames := by
  have hempty : ∀ binding ∈ ([] : JMap), binding.1 ∈ fixedNames := by simp
  have hvehicle := JMap.put_names hempty "vehicle_id" (by decide) (.string "rpi5-001")
  exact addLocation_names around
    (JMap.put_names hvehicle "timestamp" (by decide) (.number (.long around.currentTimeMillis)))

/-- A connected service sends the fixed entries and one entry for each of its fifteen
readings. -/
theorem sendTelemetry_perm {ptr : ClientPtr} (hptr : ptr ≠ 0) (around : Surroundings)
    (v : Service) :
    let requests := sweep.map fun reading => (reading, (0 : AreaId))
    (sendTelemetry ptr around v).1.Perm
      (fixedEntries around ++ entries requests (answers requests v)) := by
  intro requests
  have hnames : (requests.map requestName).Nodup := by
    have hname : requestName ∘ (fun reading => (reading, (0 : AreaId))) =
        fun reading : Reading => PropMapping.getName reading.propId := rfl
    rw [List.map_map, hname]
    exact sweep_names_nodup
  rw [sendTelemetry_eq, addReadings_eq_addRequests]
  refine addRequests_perm (readResults_connected hptr requests v) hnames _ ?_
  intro request _ binding hbinding hsame
  exact requestName_not_fixed request (hsame ▸ fixedEntries_names around binding hbinding)

end Telemetry
end Veos
