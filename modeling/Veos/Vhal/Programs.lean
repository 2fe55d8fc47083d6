import Veos.Library.CallPrograms
import Veos.Vhal.Native

/-!
# The VHAL's clients, call by call

The functions over the shim take the service as it is before them to the service as it is
after them, as if nobody else used it meanwhile.  Here the same functions are programs,
whose calls are those of `IVhalClient`.  Each of them, left alone, does what the function
of its name does.
-/

namespace Veos
namespace Vhal

open Java CallPrograms

/-- The calls of `IVhalClient` that the shim makes. -/
inductive VhalCall
  | get (key : Key)
  | set (key : Key) (values : List Int32)
  deriving DecidableEq

namespace VhalCall

def Answer : VhalCall → Type
  | .get _ => Except VhalError (List Int32)
  | .set _ _ => Option VhalError

def serve : (call : VhalCall) → Service → call.Answer × Service
  | .get key, v => v.getValueSync key
  | .set key values, v => v.setValueSync key values

/-- A call that sets nothing. -/
def IsRead : VhalCall → Prop
  | .get _ => True
  | .set _ _ => False

end VhalCall

abbrev VhalProgram := Program VhalCall VhalCall.Answer

namespace VhalProgram

/-- The program, left alone. -/
def alone {α : Type} (p : VhalProgram α) (v : Service) : α × Service :=
  p.run VhalCall.serve v

@[simp] theorem alone_pure {α : Type} (a : α) (v : Service) :
    (pure a : VhalProgram α).alone v = (a, v) := rfl

@[simp] theorem alone_bind {α β : Type} (p : VhalProgram α) (f : α → VhalProgram β)
    (v : Service) : (p >>= f).alone v = (f (p.alone v).1).alone (p.alone v).2 :=
  Program.run_bind VhalCall.serve p f v

/-! ## The shim and `VhalNative` -/

/-- `set_one`. -/
def setOne (c : ClientPtr) (propId : PropId) (areaId : AreaId) (values : List Int32) :
    VhalProgram Int32 :=
  if c = 0 then .ret (-5)
  else .call (.set (propId, areaId) values) fun error => .ret (returnCode error)

theorem alone_setOne (c : ClientPtr) (propId : PropId) (areaId : AreaId) (values : List Int32)
    (v : Service) :
    (setOne c propId areaId values).alone v = Vhal.setOne c propId areaId values v := by
  by_cases hc : c = 0
  · subst hc
    rfl
  · rw [setOne, if_neg hc, setOne_connected hc]
    rfl

/-- The `int32` that `getInt32` makes of an answer. -/
def int32Of : Except VhalError (List Int32) → Int32
  | .ok (first :: _) => first
  | _ => -1

/-- The boolean that `getBool` makes of an answer. -/
def boolOf : Except VhalError (List Int32) → Bool
  | .ok (first :: _) => first ≠ 0
  | _ => false

/-- `VhalNative.getInt32`. -/
def getInt32 (clientPtr : ClientPtr) (propId : PropId) (areaId : AreaId) :
    VhalProgram (Except JavaException Int32) :=
  if clientPtr = 0 then .ret (.error VhalNative.notInitialized)
  else .call (.get (propId, areaId)) fun answer => .ret (.ok (int32Of answer))

/-- `VhalNative.getBool`. -/
def getBool (clientPtr : ClientPtr) (propId : PropId) (areaId : AreaId) :
    VhalProgram (Except JavaException Bool) :=
  if clientPtr = 0 then .ret (.error VhalNative.notInitialized)
  else .call (.get (propId, areaId)) fun answer => .ret (.ok (boolOf answer))

/-- `VhalNative.setInt32`. -/
def setInt32 (clientPtr : ClientPtr) (propId : PropId) (areaId : AreaId) (value : Int32) :
    VhalProgram (Except JavaException Unit) :=
  if clientPtr = 0 then .ret (.error VhalNative.notInitialized)
  else do
    let result ← setOne clientPtr propId areaId [value]
    if result ≠ 0 then return .error (VhalNative.setFailed "int32" propId result)
    else return .ok ()

theorem int32Of_getValueSync (v : Service) (key : Key) :
    int32Of (v.getValueSync key).1 =
      VhalNative.int32Answer (v.getFault v.gets) (v.store key) := by
  simp only [Service.getValueSync]
  cases v.getFault v.gets with
  | none => cases v.store key <;> rfl
  | some fault => cases fault <;> rfl

theorem boolOf_getValueSync (v : Service) (key : Key) :
    boolOf (v.getValueSync key).1 = VhalNative.boolAnswer (v.getFault v.gets) (v.store key) := by
  simp only [Service.getValueSync]
  cases v.getFault v.gets with
  | none => cases v.store key <;> rfl
  | some fault => cases fault <;> rfl

theorem alone_getInt32 (clientPtr : ClientPtr) (propId : PropId) (areaId : AreaId) (v : Service) :
    (getInt32 clientPtr propId areaId).alone v = VhalNative.getInt32 clientPtr propId areaId v := by
  by_cases hptr : clientPtr = 0
  · subst hptr
    rfl
  · rw [getInt32, if_neg hptr, VhalNative.getInt32_connected hptr, ← int32Of_getValueSync]
    rfl

theorem alone_getBool (clientPtr : ClientPtr) (propId : PropId) (areaId : AreaId) (v : Service) :
    (getBool clientPtr propId areaId).alone v = VhalNative.getBool clientPtr propId areaId v := by
  by_cases hptr : clientPtr = 0
  · subst hptr
    rfl
  · rw [getBool, if_neg hptr, VhalNative.getBool_connected hptr, ← boolOf_getValueSync]
    rfl

theorem alone_setInt32 (clientPtr : ClientPtr) (propId : PropId) (areaId : AreaId) (value : Int32)
    (v : Service) :
    (setInt32 clientPtr propId areaId value).alone v =
      VhalNative.setInt32 clientPtr propId areaId value v := by
  by_cases hptr : clientPtr = 0
  · subst hptr
    rfl
  · rw [setInt32, if_neg hptr, alone_bind, alone_setOne, VhalNative.setInt32,
      VhalNative.Body.setInt32, VhalNative.access_connected hptr]
    by_cases hresult : (Vhal.setOne clientPtr propId areaId [value] v).1 = 0 <;>
      simp [Program.run, AccessCall.serve, VhalNative.Body.checked, jniSetInt32, vhalSetInt32,
        hresult]

/-- The set calls `requests` one after the other, whatever becomes of each. -/
def setAll : List (Key × List Int32) → VhalProgram Unit
  | [] => .ret ()
  | request :: requests => .call (.set request.1 request.2) fun _ => setAll requests

theorem alone_setAll (requests : List (Key × List Int32)) (v : Service) :
    (setAll requests).alone v = ((), v.setAll requests) := by
  induction requests generalizing v with
  | nil => rfl
  | cons request requests ih => exact ih (v.setValueSync request.1 request.2).2

/-! ## The calls they make -/

theorem getInt32_calls (clientPtr : ClientPtr) (propId : PropId) (areaId : AreaId) :
    (getInt32 clientPtr propId areaId).Calls VhalCall.IsRead := by
  unfold getInt32
  split
  · trivial
  · exact ⟨trivial, fun _ => trivial⟩

theorem getBool_calls (clientPtr : ClientPtr) (propId : PropId) (areaId : AreaId) :
    (getBool clientPtr propId areaId).Calls VhalCall.IsRead := by
  unfold getBool
  split
  · trivial
  · exact ⟨trivial, fun _ => trivial⟩

theorem setInt32_calls (clientPtr : ClientPtr) (propId : PropId) (areaId : AreaId)
    (value : Int32) :
    (setInt32 clientPtr propId areaId value).Calls (· = .set (propId, areaId) [value]) := by
  unfold setInt32
  split
  · trivial
  · refine Program.Calls.bind ?_ fun result => ?_
    · unfold setOne
      split
      · trivial
      · exact ⟨rfl, fun _ => trivial⟩
    · split <;> trivial

theorem setAll_calls (requests : List (Key × List Int32)) :
    (setAll requests).Calls fun call => ∃ request ∈ requests, call = .set request.1 request.2 := by
  induction requests with
  | nil => trivial
  | cons request requests ih =>
      refine ⟨⟨request, List.mem_cons_self, rfl⟩, fun _ => ih.mono ?_⟩
      rintro call ⟨other, hmem, rfl⟩
      exact ⟨other, List.mem_cons_of_mem request hmem, rfl⟩

end VhalProgram

end Vhal
end Veos
