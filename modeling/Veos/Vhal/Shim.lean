import Veos.Vhal.Client

/-!
# `libveos_vhalshim`

The C shim over `IVhalClient`: an opaque client handle, two typed getters and
two typed setters with errno-like return codes.  A handle is an address and the
null pointer is `0`.  A client that `vhal_connect` has returned always holds a
live `IVhalClient`, so the shim's second null test (`!c->client`) never fires.

`get_one` and `set_one` are modelled for the `int32` vector only: every caller
passes null for the other component vectors.
-/

namespace Veos
namespace Vhal

/-- A `vhal_client_t*`. -/
abbrev ClientPtr := Nat

/-- `to_errno_like`. -/
def toErrnoLike : ErrorCode → Int32
  | .OK => 0
  | .INVALID_ARG => -22
  | .TIMEOUT => -110
  | .TRANSACTION_ERROR => -74
  | .TRY_AGAIN_FROM_VHAL => -11
  | .NOT_AVAILABLE_FROM_VHAL => -19
  | .ACCESS_DENIED_FROM_VHAL => -13
  | .INTERNAL_ERROR_FROM_VHAL => -5
  | .other _ => -5

/-- Every code but `OK` maps to a negative number. -/
theorem toErrnoLike_neg (code : ErrorCode) (hcode : code ≠ .OK) : toErrnoLike code < 0 := by
  cases code with
  | OK => exact absurd rfl hcode
  | other code => exact (by decide : (-5 : Int32) < 0)
  | _ => simp only [toErrnoLike]; decide

theorem toErrnoLike_error_neg (e : VhalError) : toErrnoLike e.code < 0 :=
  toErrnoLike_neg e.code e.notOk

theorem toErrnoLike_error_ne_zero (e : VhalError) : toErrnoLike e.code ≠ 0 := by
  intro hzero
  have hneg := toErrnoLike_error_neg e
  rw [hzero] at hneg
  exact absurd hneg (by decide)

/-! ## Connecting -/

/-- The clients of one process.  Addresses are handed out once. -/
structure Clients where
  live : List ClientPtr
  attempts : Nat
  /-- Whether the `n`-th `IVhalClient::create()` returns null. -/
  createFails : Nat → Bool

/-- `vhal_connect`. -/
def vhalConnect (clients : Clients) : ClientPtr × Clients :=
  -- a fresh address, never the null pointer
  let c := clients.attempts + 1
  if clients.createFails clients.attempts then
    (0, { clients with attempts := c })
  else
    (c, { clients with attempts := c, live := c :: clients.live })

/-- `vhal_disconnect`. -/
def vhalDisconnect (c : ClientPtr) (clients : Clients) : Clients :=
  if c = 0 then clients
  else { clients with live := clients.live.erase c }

/-! ## Reading and writing -/

/-- `get_one`: the return code, and the vector when the code is `0`. -/
def getOne (c : ClientPtr) (propId : PropId) (areaId : AreaId) (v : Service) :
    Int32 × List Int32 × Service :=
  if c = 0 then (-5, [], v)
  else
    match v.getValueSync (propId, areaId) with
    | (.error e, v) => (toErrnoLike e.code, [], v)
    | (.ok values, v) => (0, values, v)

/-- `set_one`. -/
def setOne (c : ClientPtr) (propId : PropId) (areaId : AreaId) (values : List Int32)
    (v : Service) : Int32 × Service :=
  if c = 0 then (-5, v)
  else
    match v.setValueSync (propId, areaId) values with
    | (some e, v) => (toErrnoLike e.code, v)
    | (none, v) => (0, v)

/-- The body shared by the two getters: `convert` is what the getter makes of the
first component.  `out` is the caller's variable, `none` for a null pointer. -/
def vhalGet (convert : Int32 → Int32) (c : ClientPtr) (propId : PropId) (areaId : AreaId)
    (out : Option Int32) (v : Service) : Int32 × Option Int32 × Service :=
  match out with
  -- the null test of `out` comes before the one of the client
  | none => (-22, none, v)
  | some old =>
      let (rc, values, v) := getOne c propId areaId v
      if rc ≠ 0 then (rc, some old, v)
      else
        match values with
        -- a read that succeeds with an empty vector is an error of the getter
        | [] => (-5, some old, v)
        | first :: _ => (0, some (convert first), v)

/-- `vhal_get_int32`. -/
def vhalGetInt32 := vhalGet fun first => first

/-- `vhal_get_bool`. -/
def vhalGetBool := vhalGet fun first => if first ≠ 0 then 1 else 0

/-- `vhal_set_int32`. -/
def vhalSetInt32 (c : ClientPtr) (propId : PropId) (areaId : AreaId) (value : Int32)
    (v : Service) : Int32 × Service :=
  setOne c propId areaId [value] v

/-- `vhal_set_bool`. -/
def vhalSetBool (c : ClientPtr) (propId : PropId) (areaId : AreaId) (value01 : Int32)
    (v : Service) : Int32 × Service :=
  setOne c propId areaId [if value01 ≠ 0 then 1 else 0] v

/-- The return code of a set call. -/
def returnCode : Option VhalError → Int32
  | none => 0
  | some e => toErrnoLike e.code

@[simp] theorem returnCode_eq_zero_iff (error : Option VhalError) :
    returnCode error = 0 ↔ error = none := by
  cases error with
  | none => simp [returnCode]
  | some e => simp [returnCode, toErrnoLike_error_ne_zero]

theorem setOne_null (propId : PropId) (areaId : AreaId) (values : List Int32) (v : Service) :
    setOne 0 propId areaId values v = (-5, v) := rfl

/-- Through a connected client `set_one` makes one set call and reports its error. -/
theorem setOne_connected {c : ClientPtr} (hc : c ≠ 0) (propId : PropId) (areaId : AreaId)
    (values : List Int32) (v : Service) :
    setOne c propId areaId values v =
      (returnCode (v.setFault v.sets.length), (v.setValueSync (propId, areaId) values).2) := by
  cases herror : v.setFault v.sets.length with
  | none => simp [setOne, hc, Service.setValueSync, herror, returnCode]
  | some e => simp [setOne, hc, Service.setValueSync, herror, returnCode]

end Vhal
end Veos
