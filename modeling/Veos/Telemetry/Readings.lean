import Veos.Telemetry.Service

/-!
# What the readings put into the payload

A read can fail in the VHAL, in the shim, or for want of a handle.  The shim says so
with a nonzero return code, `VhalNative` with an exception for the missing handle
only: the JNI functions turn every nonzero code into the value `-1` or `0`, which the
`catch` blocks of `addInt` and `addBool` never see.

`ReadsHonestly` says of one reading that the payload gets the value that the VHAL
holds, or nothing if the read failed.  A connected service does so exactly when the
read does not fail (`readsHonestly_iff`).
-/

namespace Veos
namespace Telemetry

open Java Vhal

/-! ## Failed reads -/

/-- The return code of the shim's getter for a reading. -/
def Reading.returnCode (ptr : ClientPtr) (areaId : AreaId) (v : Service) : Reading → Int32
  | .int propId => (vhalGetInt32 ptr propId areaId (some 0) v).1
  | .bool propId => (vhalGetBool ptr propId areaId (some 0) v).1

/-- A reading as the object that stands for what the VHAL holds. -/
def Reading.held (values : List Int32) : Reading → JObject
  | .int _ => .number (.integer (values.headD 0))
  | .bool _ => .boolean (values.headD 0 ≠ 0)

/-- Both getters return the same code. -/
theorem vhalGet_code (convert : Int32 → Int32) (ptr : ClientPtr) (propId : PropId)
    (areaId : AreaId) (v : Service) :
    (vhalGet convert ptr propId areaId (some 0) v).1 = 0 ↔
      ptr ≠ 0 ∧ v.getFault v.gets = none ∧ v.store (propId, areaId) ≠ [] := by
  by_cases hptr : ptr = 0
  · simp [vhalGet, getOne, hptr]
  · simp only [vhalGet, getOne, hptr, if_false, Service.getValueSync]
    cases hfault : v.getFault v.gets with
    | none => cases hvalues : v.store (propId, areaId) <;> simp [hptr]
    | some fault => cases fault <;> simp [toErrnoLike_error_ne_zero]

/-- A read succeeds through a handle, if the VHAL answers it with a value. -/
theorem Reading.returnCode_eq_zero_iff (ptr : ClientPtr) (areaId : AreaId) (v : Service)
    (reading : Reading) : reading.returnCode ptr areaId v = 0 ↔
      ptr ≠ 0 ∧ v.getFault v.gets = none ∧ v.store (reading.propId, areaId) ≠ [] := by
  cases reading with
  | int propId => exact vhalGet_code _ ptr propId areaId v
  | bool propId => exact vhalGet_code _ ptr propId areaId v

/-- Without a fault a reading answers with what the VHAL holds. -/
theorem Reading.answer_eq_held (reading : Reading) {values : List Int32} (hne : values ≠ []) :
    reading.answer none values = reading.held values := by
  cases values with
  | nil => exact absurd rfl hne
  | cons first rest => cases reading <;> rfl

/-- The object that a failed read puts into the payload. -/
def Reading.placeholder : Reading → JObject
  | .int _ => .number (.integer (-1))
  | .bool _ => .boolean false

theorem Reading.answer_of_failed (reading : Reading) {fault : Option ReadFault}
    {values : List Int32} (hfailed : fault ≠ none ∨ values = []) :
    reading.answer fault values = reading.placeholder := by
  cases fault with
  | none =>
      obtain rfl : values = [] := by simpa using hfailed
      cases reading <;> rfl
  | some fault => cases reading <;> rfl

/-! ## One reading -/

/-- What the `catch` blocks are for: the entry is the value held, and a read that failed
makes none. -/
def ReadsHonestly (ptr : ClientPtr) (reading : Reading) (areaId : AreaId) (v : Service) : Prop :=
  ∀ payload, (addReading ptr payload reading areaId v).1 =
    if reading.returnCode ptr areaId v = 0 then
      payload.put (PropMapping.getName reading.propId)
        (reading.held (v.store (reading.propId, areaId)))
    else payload

theorem readsHonestly_iff (ptr : ClientPtr) (reading : Reading) (areaId : AreaId) (v : Service) :
    ReadsHonestly ptr reading areaId v ↔
      ptr = 0 ∨ v.getFault v.gets = none ∧ v.store (reading.propId, areaId) ≠ [] := by
  have hcode := reading.returnCode_eq_zero_iff ptr areaId v
  by_cases hptr : ptr = 0
  · subst hptr
    have hfailed : reading.returnCode 0 areaId v ≠ 0 := fun hzero => (hcode.1 hzero).1 rfl
    simp [ReadsHonestly, addReading_null, hfailed]
  · simp only [ReadsHonestly, addReading_connected hptr, hptr, false_or]
    constructor
    · intro honest
      -- an empty payload shows whether the read made an entry
      by_cases hsucceeded : reading.returnCode ptr areaId v = 0
      · exact (hcode.1 hsucceeded).2
      · have hentry := honest []
        rw [if_neg hsucceeded] at hentry
        cases hentry
    · rintro ⟨hfault, hvalues⟩ payload
      rw [if_pos (hcode.2 ⟨hptr, hfault, hvalues⟩), hfault, reading.answer_eq_held hvalues]

/-- A failed read of a connected service makes an entry that the VHAL knows nothing of. -/
theorem addReading_of_failed {ptr : ClientPtr} (hptr : ptr ≠ 0) (payload : JMap)
    (reading : Reading) (areaId : AreaId) (v : Service)
    (hfailed : reading.returnCode ptr areaId v ≠ 0) :
    (addReading ptr payload reading areaId v).1 =
      payload.put (PropMapping.getName reading.propId) reading.placeholder := by
  rw [addReading_connected hptr, reading.answer_of_failed]
  by_contra hnot
  rw [not_or, not_not] at hnot
  exact hfailed ((reading.returnCode_eq_zero_iff ptr areaId v).2 ⟨hptr, hnot⟩)

/-! ## Lists of readings -/

/-- Readings of any areas, one after the other. -/
def addRequests (ptr : ClientPtr) : List (Reading × AreaId) → JMap → Service → JMap × Service
  | [], payload, v => (payload, v)
  | (reading, areaId) :: requests, payload, v =>
      let (payload, v) := addReading ptr payload reading areaId v
      addRequests ptr requests payload v

/-- `sendTelemetry` makes its readings in the global area. -/
theorem addReadings_eq_addRequests (ptr : ClientPtr) (readings : List Reading) (payload : JMap)
    (v : Service) :
    addReadings ptr readings payload v =
      addRequests ptr (readings.map fun reading => (reading, 0)) payload v := by
  induction readings generalizing payload v with
  | nil => rfl
  | cons reading readings ih => exact ih _ _

/-- Every reading of the list reads honestly, each in the state in which it is made. -/
def AllHonest (ptr : ClientPtr) : List (Reading × AreaId) → Service → Prop
  | [], _ => True
  | (reading, areaId) :: requests, v =>
      ReadsHonestly ptr reading areaId v ∧
        AllHonest ptr requests (addReading ptr [] reading areaId v).2

/-- What an honest list of readings leaves: the values held, for the reads that
succeeded. -/
def honestPayload (ptr : ClientPtr) : List (Reading × AreaId) → JMap → Service → JMap
  | [], payload, _ => payload
  | (reading, areaId) :: requests, payload, v =>
      let entry :=
        if reading.returnCode ptr areaId v = 0 then
          payload.put (PropMapping.getName reading.propId)
            (reading.held (v.store (reading.propId, areaId)))
        else payload
      honestPayload ptr requests entry (addReading ptr [] reading areaId v).2

/-- The service after a reading does not depend on the payload. -/
theorem addReading_snd (ptr : ClientPtr) (payload : JMap) (reading : Reading) (areaId : AreaId)
    (v : Service) :
    (addReading ptr payload reading areaId v).2 =
      if ptr = 0 then v else { v with gets := v.gets + 1 } := by
  by_cases hptr : ptr = 0
  · subst hptr
    rw [addReading_null, if_pos rfl]
  · rw [addReading_connected hptr, if_neg hptr]

theorem AllHonest.payload {ptr : ClientPtr} {requests : List (Reading × AreaId)} {v : Service}
    (h : AllHonest ptr requests v) (payload : JMap) :
    (addRequests ptr requests payload v).1 = honestPayload ptr requests payload v := by
  induction requests generalizing payload v with
  | nil => rfl
  | cons request requests ih =>
      obtain ⟨reading, areaId⟩ := request
      have hservice : (addReading ptr payload reading areaId v).2 =
          (addReading ptr [] reading areaId v).2 := by
        rw [addReading_snd, addReading_snd]
      simp only [addRequests, honestPayload, hservice, h.1 payload]
      exact ih h.2 _

/-- **Failed reads in the telemetry payload.**  For every list of readings, in whatever
order and of whatever areas, and every pattern of failing reads, the entries are the
values that the VHAL holds and the failed reads make none exactly when the class has no
handle or no read of the list fails. -/
theorem allHonest_iff (ptr : ClientPtr) (requests : List (Reading × AreaId)) (v : Service) :
    AllHonest ptr requests v ↔
      ptr = 0 ∨ ∀ i request, requests[i]? = some request →
        v.getFault (v.gets + i) = none ∧ v.store (request.1.propId, request.2) ≠ [] := by
  induction requests generalizing v with
  | nil => simp [AllHonest]
  | cons request requests ih =>
      obtain ⟨reading, areaId⟩ := request
      rw [AllHonest, readsHonestly_iff, ih, addReading_snd]
      by_cases hptr : ptr = 0
      · simp [hptr]
      · simp only [hptr, if_false, false_or]
        constructor
        · rintro ⟨hfirst, hrest⟩ (_ | i) request hrequest
          · obtain rfl : (reading, areaId) = request := by simpa using hrequest
            exact hfirst
          · have hlater := hrest i request hrequest
            rwa [show v.gets + 1 + i = v.gets + (i + 1) by omega] at hlater
        · intro hall
          refine ⟨hall 0 _ rfl, fun i request hrequest => ?_⟩
          have hlater := hall (i + 1) request hrequest
          rwa [show v.gets + (i + 1) = v.gets + 1 + i by omega] at hlater

/-- A speed that cannot be read is reported as `-1`, and headlights that cannot be read
as off, although the VHAL holds 50 and on. -/
theorem failed_reads_reported :
    let requests : List (Reading × AreaId) := [(.int 557846353, 0), (.bool 555749214, 0)]
    let v : Service :=
      { store := fun key => if key = (557846353, 0) then [50] else [1]
        sets := []
        gets := 0
        setFault := fun _ => none
        getFault := fun _ => some (.error ⟨.TIMEOUT, by decide⟩) }
    ¬AllHonest 1 requests v ∧
    honestPayload 1 requests [] v = [] ∧
    (addRequests 1 requests [] v).1 =
      [("veos_headlights_state", .boolean false),
        ("veos_perf_vehicle_speed", .number (.integer (-1)))] := by
  intro requests v
  have hreported : (addRequests 1 requests [] v).1 =
      [("veos_headlights_state", .boolean false),
        ("veos_perf_vehicle_speed", .number (.integer (-1)))] := rfl
  refine ⟨fun hhonest => ?_, rfl, hreported⟩
  have hpayload := hhonest.payload []
  rw [hreported] at hpayload
  cases hpayload

/-! ## The entries of a sweep -/

/-- A connected sweep adds to the payload and to nothing else but the number of reads. -/
theorem addReadings_connected {ptr : ClientPtr} (hptr : ptr ≠ 0) (readings : List Reading)
    (payload : JMap) (v : Service) :
    (addReadings ptr readings payload v).2 = { v with gets := v.gets + readings.length } := by
  induction readings generalizing payload v with
  | nil => rfl
  | cons reading readings ih =>
      have hgets : v.gets + 1 + readings.length = v.gets + (reading :: readings).length := by
        rw [List.length_cons]
        omega
      rw [addReadings, addReading_connected hptr, ih, hgets]

end Telemetry
end Veos
