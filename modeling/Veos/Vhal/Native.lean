import Veos.Java.Values
import Veos.Library.CallPrograms
import Veos.Vhal.Shim

/-!
# `VhalNative` and its JNI functions

Both Android packages carry the same class `VhalNative` over the same six JNI
functions, so each is modelled once.  The class keeps the native handle in the
static field `clientPtr`, one per process, and turns a zero handle or a nonzero
return code of a setter into an exception.  The JNI getters report a failed read
in band: `-1` for an `int32` property and `0` for a boolean one.

The body of a method is a program over the native methods, so that it says which of them
it calls and with which handle (`VhalNative.Body`).  The methods themselves are the bodies
over the JNI functions.
-/

namespace Veos
namespace Vhal

open Java CallPrograms

/-! ## JNI -/

/-- `vhal_1get_1int32`. -/
def jniGetInt32 (ptr : ClientPtr) (propId : PropId) (areaId : AreaId) (v : Service) :
    Int32 × Service :=
  let (rc, out, v) := vhalGetInt32 ptr propId areaId (some 0) v
  (if rc = 0 then out.getD 0 else -1, v)

/-- `vhal_1get_1bool`. -/
def jniGetBool (ptr : ClientPtr) (propId : PropId) (areaId : AreaId) (v : Service) :
    Int32 × Service :=
  let (rc, out, v) := vhalGetBool ptr propId areaId (some 0) v
  (if rc = 0 then out.getD 0 else 0, v)

/-- `vhal_1set_1int32`. -/
def jniSetInt32 (ptr : ClientPtr) (propId : PropId) (areaId : AreaId) (value : Int32)
    (v : Service) : Int32 × Service :=
  vhalSetInt32 ptr propId areaId value v

/-- `vhal_1set_1bool`. -/
def jniSetBool (ptr : ClientPtr) (propId : PropId) (areaId : AreaId) (value : Int32)
    (v : Service) : Int32 × Service :=
  vhalSetBool ptr propId areaId value v

/-! ## The native methods -/

/-- The native methods that make and end a client. -/
inductive ConnectionCall
  | connect
  | disconnect (c : ClientPtr)
  deriving DecidableEq

namespace ConnectionCall

abbrev Answer : ConnectionCall → Type
  | .connect => ClientPtr
  | .disconnect _ => Unit

/-- The JNI functions behind them, which hand the pointer on. -/
def serve : (call : ConnectionCall) → Clients → call.Answer × Clients
  | .connect, clients => vhalConnect clients
  | .disconnect c, clients => ((), vhalDisconnect c clients)

end ConnectionCall

/-- The native methods that read and write a property.  Each returns an `int`. -/
inductive AccessCall
  | getInt32 (c : ClientPtr) (propId : PropId) (areaId : AreaId)
  | getBool (c : ClientPtr) (propId : PropId) (areaId : AreaId)
  | setInt32 (c : ClientPtr) (propId : PropId) (areaId : AreaId) (value : Int32)
  | setBool (c : ClientPtr) (propId : PropId) (areaId : AreaId) (value : Int32)
  deriving DecidableEq

namespace AccessCall

/-- The handle that is passed down. -/
def handle : AccessCall → ClientPtr
  | .getInt32 c _ _ => c
  | .getBool c _ _ => c
  | .setInt32 c _ _ _ => c
  | .setBool c _ _ _ => c

/-- The JNI functions behind them. -/
def serve : AccessCall → Service → Int32 × Service
  | .getInt32 c propId areaId, v => jniGetInt32 c propId areaId v
  | .getBool c propId areaId, v => jniGetBool c propId areaId v
  | .setInt32 c propId areaId value, v => jniSetInt32 c propId areaId value v
  | .setBool c propId areaId value, v => jniSetBool c propId areaId value v

end AccessCall

abbrev ConnectionProgram := Program ConnectionCall ConnectionCall.Answer

abbrev AccessProgram := Program AccessCall fun _ => Int32

/-! ## The class `VhalNative` -/

namespace VhalNative

/-- The exception of an operation on a class that has no handle. -/
def notInitialized : JavaException := .illegalStateException "not initialized"

/-- The exception for a setter that returned a nonzero code. -/
def setFailed (kind : String) (propId : PropId) (result : Int32) : JavaException :=
  .runtimeException
    ("Failed to set " ++ kind ++ " property " ++ toString propId ++
      " (err=" ++ toString result ++ ")")

namespace Body

/-- `VhalNative.init`, with the new value of the field: it is assigned before it is
tested. -/
def init : ConnectionProgram (Except JavaException Unit × ClientPtr) :=
  .call .connect fun clientPtr => .ret
    (if clientPtr = 0 then .error (.illegalStateException "vhal_connect() returned 0")
      else .ok (), clientPtr)

/-- `VhalNative.release`, with the new value of the field. -/
def release (clientPtr : ClientPtr) : ConnectionProgram ClientPtr :=
  -- a handle of zero has nothing to disconnect
  if clientPtr ≠ 0 then .call (.disconnect clientPtr) fun _ => .ret 0
  else .ret clientPtr

/-- The body shared by the four accesses: `convert` is what the method makes of the
returned `int`. -/
def access {α : Type} (call : ClientPtr → AccessCall) (convert : Int32 → Except JavaException α)
    (clientPtr : ClientPtr) : AccessProgram (Except JavaException α) :=
  if clientPtr = 0 then .ret (.error notInitialized)
  else .call (call clientPtr) fun result => .ret (convert result)

/-- What a setter makes of its code: `kind` is the word in the message. -/
def checked (kind : String) (propId : PropId) (result : Int32) : Except JavaException Unit :=
  if result ≠ 0 then .error (setFailed kind propId result) else .ok ()

/-- `VhalNative.setInt32`. -/
def setInt32 (clientPtr : ClientPtr) (propId : PropId) (areaId : AreaId) (value : Int32) :
    AccessProgram (Except JavaException Unit) :=
  access (.setInt32 · propId areaId value) (checked "int32" propId) clientPtr

/-- `VhalNative.setBool`. -/
def setBool (clientPtr : ClientPtr) (propId : PropId) (areaId : AreaId) (value : Bool) :
    AccessProgram (Except JavaException Unit) :=
  access (.setBool · propId areaId (if value then 1 else 0)) (checked "bool" propId) clientPtr

/-- `VhalNative.getInt32`. -/
def getInt32 (clientPtr : ClientPtr) (propId : PropId) (areaId : AreaId) :
    AccessProgram (Except JavaException Int32) :=
  access (.getInt32 · propId areaId) .ok clientPtr

/-- `VhalNative.getBool`: the native method returns an `int`, which is compared with 1. -/
def getBool (clientPtr : ClientPtr) (propId : PropId) (areaId : AreaId) :
    AccessProgram (Except JavaException Bool) :=
  access (.getBool · propId areaId) (fun result => .ok (result = 1)) clientPtr

end Body

def init (clients : Clients) : Except JavaException Unit × ClientPtr × Clients :=
  let ((result, clientPtr), clients) := Body.init.run ConnectionCall.serve clients
  (result, clientPtr, clients)

def release (clientPtr : ClientPtr) (clients : Clients) : ClientPtr × Clients :=
  (Body.release clientPtr).run ConnectionCall.serve clients

def setInt32 (clientPtr : ClientPtr) (propId : PropId) (areaId : AreaId) (value : Int32)
    (v : Service) : Except JavaException Unit × Service :=
  (Body.setInt32 clientPtr propId areaId value).run AccessCall.serve v

def setBool (clientPtr : ClientPtr) (propId : PropId) (areaId : AreaId) (value : Bool)
    (v : Service) : Except JavaException Unit × Service :=
  (Body.setBool clientPtr propId areaId value).run AccessCall.serve v

def getInt32 (clientPtr : ClientPtr) (propId : PropId) (areaId : AreaId) (v : Service) :
    Except JavaException Int32 × Service :=
  (Body.getInt32 clientPtr propId areaId).run AccessCall.serve v

def getBool (clientPtr : ClientPtr) (propId : PropId) (areaId : AreaId) (v : Service) :
    Except JavaException Bool × Service :=
  (Body.getBool clientPtr propId areaId).run AccessCall.serve v

/-- `init` connects to a new client or fails, and the field follows. -/
theorem init_cases (clients : Clients) :
    (clients.createFails clients.attempts = true ∧ init clients =
      (.error (.illegalStateException "vhal_connect() returned 0"), 0,
        { clients with attempts := clients.attempts + 1 })) ∨
    (clients.createFails clients.attempts = false ∧ init clients =
      (.ok (), clients.attempts + 1, { clients with
        attempts := clients.attempts + 1
        live := (clients.attempts + 1) :: clients.live })) := by
  cases hfails : clients.createFails clients.attempts with
  | true =>
      refine Or.inl ⟨rfl, ?_⟩
      simp [init, Body.init, Program.run, ConnectionCall.serve, vhalConnect, hfails]
  | false =>
      refine Or.inr ⟨rfl, ?_⟩
      simp [init, Body.init, Program.run, ConnectionCall.serve, vhalConnect, hfails]

theorem release_eq (clientPtr : ClientPtr) (clients : Clients) :
    release clientPtr clients = (0, vhalDisconnect clientPtr clients) := by
  rw [release, Body.release]
  split
  · rfl
  · rename_i hnull
    rw [not_not.1 hnull]
    rfl

theorem access_null {α : Type} {clientPtr : ClientPtr} (hptr : clientPtr = 0)
    (call : ClientPtr → AccessCall) (convert : Int32 → Except JavaException α) :
    Body.access call convert clientPtr = .ret (.error notInitialized) :=
  if_pos hptr

theorem access_connected {α : Type} {clientPtr : ClientPtr} (hptr : clientPtr ≠ 0)
    (call : ClientPtr → AccessCall) (convert : Int32 → Except JavaException α) :
    Body.access call convert clientPtr =
      .call (call clientPtr) fun result => .ret (convert result) :=
  if_neg hptr

theorem setInt32_null (propId : PropId) (areaId : AreaId) (value : Int32) (v : Service) :
    setInt32 0 propId areaId value v = (.error notInitialized, v) := rfl

/-- With a handle, `setInt32` makes one set call and throws exactly when that
call failed. -/
theorem setInt32_connected {clientPtr : ClientPtr} (hptr : clientPtr ≠ 0) (propId : PropId)
    (areaId : AreaId) (value : Int32) (v : Service) :
    setInt32 clientPtr propId areaId value v =
      (match v.setFault v.sets.length with
        | none => .ok ()
        | some e => .error (setFailed "int32" propId (toErrnoLike e.code)),
      (v.setValueSync (propId, areaId) [value]).2) := by
  simp only [setInt32, Body.setInt32, access_connected hptr, Program.run, AccessCall.serve,
    jniSetInt32, vhalSetInt32, setOne_connected hptr]
  cases herror : v.setFault v.sets.length with
  | none => rfl
  | some e => simp [Body.checked, returnCode, toErrnoLike_error_ne_zero]

/-- What `getInt32` returns for a read that meets `fault` on the vector `values`.
A failed read and an empty vector both come back as `-1`. -/
def int32Answer (fault : Option ReadFault) (values : List Int32) : Int32 :=
  match fault with
  | none => values.headD (-1)
  | some _ => -1

/-- What `getBool` returns.  A failed read and an empty vector come back as
`false`. -/
def boolAnswer (fault : Option ReadFault) (values : List Int32) : Bool :=
  match fault with
  | none => values.headD 0 ≠ 0
  | some _ => false

theorem getInt32_null (propId : PropId) (areaId : AreaId) (v : Service) :
    getInt32 0 propId areaId v = (.error notInitialized, v) := rfl

theorem getBool_null (propId : PropId) (areaId : AreaId) (v : Service) :
    getBool 0 propId areaId v = (.error notInitialized, v) := rfl

/-- With a handle, `getInt32` never throws, and changes nothing but the number of
reads. -/
theorem getInt32_connected {clientPtr : ClientPtr} (hptr : clientPtr ≠ 0) (propId : PropId)
    (areaId : AreaId) (v : Service) :
    getInt32 clientPtr propId areaId v =
      (.ok (int32Answer (v.getFault v.gets) (v.store (propId, areaId))),
        { v with gets := v.gets + 1 }) := by
  simp only [getInt32, Body.getInt32, access_connected hptr, Program.run, AccessCall.serve,
    jniGetInt32, vhalGetInt32, vhalGet, getOne, hptr, if_false, Service.getValueSync]
  cases hfault : v.getFault v.gets with
  | none => cases hvalues : v.store (propId, areaId) <;> simp [int32Answer]
  | some fault => cases fault <;> simp [int32Answer, toErrnoLike_error_ne_zero]

theorem getBool_connected {clientPtr : ClientPtr} (hptr : clientPtr ≠ 0) (propId : PropId)
    (areaId : AreaId) (v : Service) :
    getBool clientPtr propId areaId v =
      (.ok (boolAnswer (v.getFault v.gets) (v.store (propId, areaId))),
        { v with gets := v.gets + 1 }) := by
  simp only [getBool, Body.getBool, access_connected hptr, Program.run, AccessCall.serve,
    jniGetBool, vhalGetBool, vhalGet, getOne, hptr, if_false, Service.getValueSync]
  cases hfault : v.getFault v.gets with
  | none =>
      cases hvalues : v.store (propId, areaId) with
      | nil => simp [boolAnswer]
      | cons first rest => by_cases hfirst : first = 0 <;> simp [boolAnswer, hfirst]
  | some fault => cases fault <;> simp [boolAnswer, toErrnoLike_error_ne_zero]

end VhalNative

end Vhal
end Veos
