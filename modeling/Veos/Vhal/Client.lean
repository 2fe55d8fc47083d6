import Mathlib.Data.List.Nodup
import Veos.Library.LastWrite

/-!
# The VHAL service behind `IVhalClient`

The vehicle HAL stores, for every property and area, a vector of `int32`
values.  The shim library reaches it through the synchronous calls
`getValueSync` and `setValueSync` of the platform's `IVhalClient`.

Either call can fail at any time, so the service carries two fault schedules,
one entry for each call in the order in which the calls arrive.  A failed set
stores nothing.  The service also keeps the list of the set calls it answered,
which is the trace that statements about write sequences talk about.
-/

namespace Veos
namespace Vhal

/-- `android::frameworks::automotive::vhal::ErrorCode`.  The codes that the shim
does not name are `other`. -/
inductive ErrorCode
  | OK
  | INVALID_ARG
  | TIMEOUT
  | TRANSACTION_ERROR
  | TRY_AGAIN_FROM_VHAL
  | NOT_AVAILABLE_FROM_VHAL
  | ACCESS_DENIED_FROM_VHAL
  | INTERNAL_ERROR_FROM_VHAL
  | other (code : Int32)
  deriving DecidableEq, Repr

/-- The error of a failed call.  An error never carries the code `OK`. -/
structure VhalError where
  code : ErrorCode
  notOk : code ≠ .OK
  deriving DecidableEq

/-- How a `getValueSync` call can go wrong: with an error, or with a value that
has no `int32` components. -/
inductive ReadFault
  | error (e : VhalError)
  | emptyVector
  deriving DecidableEq

abbrev PropId := Int32
abbrev AreaId := Int32

/-- What a stored value is filed under. -/
abbrev Key := PropId × AreaId

/-- The `int32` vectors that the VHAL holds. -/
abbrev Store := Key → List Int32

/-- One answered `setValueSync` call. -/
structure SetCall where
  key : Key
  values : List Int32
  error : Option VhalError
  deriving DecidableEq

/-- Whether the call stored its values. -/
def SetCall.succeeded (call : SetCall) : Bool := call.error.isNone

/-- The service: its store, the calls answered so far, and the faults of the
calls to come.  The `n`-th set call fails exactly when `setFault n` is an
error, and likewise for reads. -/
structure Service where
  store : Store
  sets : List SetCall
  gets : Nat
  setFault : Nat → Option VhalError
  getFault : Nat → Option ReadFault

namespace Service

/-- `IVhalClient::setValueSync`. -/
def setValueSync (v : Service) (key : Key) (values : List Int32) : Option VhalError × Service :=
  let error := v.setFault v.sets.length
  (error,
    { v with
      -- a failed set stores nothing, but it is in the trace
      store := if error.isNone then Function.update v.store key values else v.store
      sets := v.sets ++ [⟨key, values, error⟩] })

/-- `IVhalClient::getValueSync`, as far as its `int32` values go. -/
def getValueSync (v : Service) (key : Key) : Except VhalError (List Int32) × Service :=
  let answer :=
    match v.getFault v.gets with
    | none => .ok (v.store key)
    -- the read succeeds, with a value that has no `int32` components
    | some .emptyVector => .ok []
    | some (.error e) => .error e
  (answer, { v with gets := v.gets + 1 })

/-- No call fails. -/
def Faultless (v : Service) : Prop :=
  (∀ n, v.setFault n = none) ∧ ∀ n, v.getFault n = none

/-- A new service that holds `store` and on which no call fails. -/
def fresh (store : Store) : Service :=
  { store := store, sets := [], gets := 0, setFault := fun _ => none, getFault := fun _ => none }

theorem fresh_faultless (store : Store) : (fresh store).Faultless :=
  ⟨fun _ => rfl, fun _ => rfl⟩

@[simp] theorem getValueSync_store (v : Service) (key : Key) :
    (v.getValueSync key).2.store = v.store := rfl

@[simp] theorem getValueSync_sets (v : Service) (key : Key) :
    (v.getValueSync key).2.sets = v.sets := rfl

@[simp] theorem getValueSync_setFault (v : Service) (key : Key) :
    (v.getValueSync key).2.setFault = v.setFault := rfl

@[simp] theorem getValueSync_getFault (v : Service) (key : Key) :
    (v.getValueSync key).2.getFault = v.getFault := rfl

@[simp] theorem getValueSync_gets (v : Service) (key : Key) :
    (v.getValueSync key).2.gets = v.gets + 1 := rfl

@[simp] theorem setValueSync_gets (v : Service) (key : Key) (values : List Int32) :
    (v.setValueSync key values).2.gets = v.gets := rfl

@[simp] theorem setValueSync_setFault (v : Service) (key : Key) (values : List Int32) :
    (v.setValueSync key values).2.setFault = v.setFault := rfl

@[simp] theorem setValueSync_getFault (v : Service) (key : Key) (values : List Int32) :
    (v.setValueSync key values).2.getFault = v.getFault := rfl

end Service

/-! ## What a service has stored -/

open LastWrite

/-- The writes that a sequence of answered calls performed on the store. -/
def stored (calls : List SetCall) : List (Key × List Int32) :=
  (calls.filter SetCall.succeeded).map fun call => (call.key, call.values)

/-- The vector of the last successful set of `key`. -/
def lastStored (key : Key) (calls : List SetCall) : Option (List Int32) :=
  lastValue key (stored calls)

@[simp] theorem stored_nil : stored [] = [] := rfl

theorem stored_append (xs ys : List SetCall) : stored (xs ++ ys) = stored xs ++ stored ys := by
  simp [stored]

theorem stored_singleton (call : SetCall) :
    stored [call] = if call.error.isNone then [(call.key, call.values)] else [] := by
  cases herror : call.error <;> simp [stored, SetCall.succeeded, herror]

theorem lastStored_append (key : Key) (xs ys : List SetCall) :
    lastStored key (xs ++ ys) = (lastStored key ys).or (lastStored key xs) := by
  rw [lastStored, stored_append, lastValue_append]
  rfl

/-- Without a successful set of `key` nothing is stored under it. -/
theorem lastStored_eq_none_iff (key : Key) (calls : List SetCall) :
    lastStored key calls = none ↔
      ∀ call ∈ calls, call.succeeded = true → call.key ≠ key := by
  rw [lastStored, lastValue_eq_none_iff]
  constructor
  · intro hnone call hmem hsucceeded
    exact hnone (call.key, call.values)
      (List.mem_map.2 ⟨call, List.mem_filter.2 ⟨hmem, hsucceeded⟩, rfl⟩)
  · rintro hnone w hw
    obtain ⟨call, hcall, rfl⟩ := List.mem_map.1 hw
    obtain ⟨hmem, hsucceeded⟩ := List.mem_filter.1 hcall
    exact hnone call hmem hsucceeded

/-- The set calls answered between the state `start` of a service and its later
state `v`. -/
def Service.setsSince (v start : Service) : List SetCall :=
  v.sets.drop start.sets.length

/-- `Extends v calls v'`: the service goes from `v` to `v'` by answering exactly
the set calls `calls`, together with any number of reads.  Each call fails or
succeeds as scheduled. -/
structure Extends (v : Service) (calls : List SetCall) (v' : Service) : Prop where
  sets : v'.sets = v.sets ++ calls
  errors : ∀ n call, calls[n]? = some call → call.error = v.setFault (v.sets.length + n)
  store : v'.store = applyWrites v.store (stored calls)
  setFault : v'.setFault = v.setFault
  getFault : v'.getFault = v.getFault

namespace Extends

variable {v v' v'' : Service} {calls calls' : List SetCall}

theorem refl (v : Service) : Extends v [] v :=
  ⟨by simp, by simp, rfl, rfl, rfl⟩

theorem trans (h : Extends v calls v') (h' : Extends v' calls' v'') :
    Extends v (calls ++ calls') v'' where
  sets := by rw [h'.sets, h.sets, List.append_assoc]
  errors := by
    intro n call hcall
    rw [List.getElem?_append] at hcall
    split at hcall
    · exact h.errors n call hcall
    -- a call of the second part: its place in the schedule counts the first part too
    · rename_i hlength
      have herror := h'.errors _ call hcall
      rw [h.setFault, h.sets, List.length_append] at herror
      rw [herror]
      congr 1
      omega
  store := by rw [h'.store, h.store, stored_append, applyWrites_append]
  setFault := h'.setFault.trans h.setFault
  getFault := h'.getFault.trans h.getFault

theorem read (v : Service) (key : Key) : Extends v [] (v.getValueSync key).2 :=
  ⟨by simp, by simp, rfl, rfl, rfl⟩

/-- One set call extends the trace by itself. -/
theorem set (v : Service) (key : Key) (values : List Int32) :
    Extends v [⟨key, values, v.setFault v.sets.length⟩] (v.setValueSync key values).2 where
  sets := rfl
  errors := by
    rintro (_ | n) call hcall
    · simp only [List.getElem?_cons_zero, Option.some.injEq] at hcall
      rw [← hcall]
      rfl
    · simp at hcall
  store := by
    rw [stored_singleton]
    cases herror : v.setFault v.sets.length <;>
      simp [Service.setValueSync, herror, applyWrite]
  setFault := rfl
  getFault := rfl

/-- Each key holds the vector of its last successful set. -/
theorem store_apply (h : Extends v calls v') (key : Key) :
    v'.store key = (lastStored key calls).getD (v.store key) := by
  rw [h.store, applyWrites_apply]
  rfl

theorem faultless (h : Extends v calls v') (hv : v.Faultless) : v'.Faultless := by
  rw [Service.Faultless, h.setFault, h.getFault]
  exact hv

/-- Without faults every call succeeds. -/
theorem error_eq_none (h : Extends v calls v') (hv : v.Faultless) {call : SetCall}
    (hmem : call ∈ calls) : call.error = none := by
  obtain ⟨n, hn⟩ := List.getElem?_of_mem hmem
  rw [h.errors n call hn, hv.1]

/-- Two states of a service determine the calls between them. -/
theorem setsSince (h : Extends v calls v') : v'.setsSince v = calls := by
  rw [Service.setsSince, h.sets, List.drop_left]

end Extends

/-! ## Sequences of set calls -/

/-- Make the set calls `requests` one after the other, whatever becomes of each. -/
def Service.setAll (v : Service) (requests : List (Key × List Int32)) : Service :=
  requests.foldl (fun v request => (v.setValueSync request.1 request.2).2) v

/-- The calls that `setAll` adds to the trace. -/
def Service.answers (v : Service) : List (Key × List Int32) → List SetCall
  | [] => []
  | request :: requests =>
      ⟨request.1, request.2, v.setFault v.sets.length⟩ ::
        (v.setValueSync request.1 request.2).2.answers requests

theorem Service.setAll_extends (v : Service) (requests : List (Key × List Int32)) :
    Extends v (v.answers requests) (v.setAll requests) := by
  induction requests generalizing v with
  | nil => exact Extends.refl v
  | cons request requests ih =>
      exact (Extends.set v request.1 request.2).trans (ih _)

/-- The set calls do not depend on how many reads came before. -/
theorem Service.setAll_gets (v : Service) (gets : Nat) (requests : List (Key × List Int32)) :
    Service.setAll { v with gets := gets } requests = { v.setAll requests with gets := gets } := by
  induction requests generalizing v with
  | nil => rfl
  | cons request requests ih => exact ih (v.setValueSync request.1 request.2).2

/-- Every request is made, in order and with its own values, whatever fails. -/
theorem Service.answers_map (v : Service) (requests : List (Key × List Int32)) :
    (v.answers requests).map (fun call => (call.key, call.values)) = requests := by
  induction requests generalizing v with
  | nil => rfl
  | cons request requests ih =>
      simp only [Service.answers, List.map_cons, ih]

/-- Without faults every request is stored. -/
theorem Service.stored_answers (v : Service) (requests : List (Key × List Int32))
    (hv : v.Faultless) : stored (v.answers requests) = requests := by
  induction requests generalizing v with
  | nil => rfl
  | cons request requests ih =>
      have htail := ih _ ((Extends.set v request.1 request.2).faultless hv)
      rw [Service.answers, ← List.singleton_append, stored_append, htail, stored_singleton,
        hv.1 v.sets.length]
      rfl

/-- `Stores v requests key j values`: the request at index `j` is the last one to store
something under `key`, namely `values`. -/
structure Stores (v : Service) (requests : List (Key × List Int32)) (key : Key) (j : Nat)
    (values : List Int32) : Prop where
  request : requests[j]? = some (key, values)
  succeeds : v.setFault (v.sets.length + j) = none
  last : ∀ later values', j < later → requests[later]? = some (key, values') →
    v.setFault (v.sets.length + later) ≠ none

/-- After a sequence of requests a key holds what the last successful one stored there, or
what it held before if none did. -/
theorem Service.setAll_store_cases (v : Service) (requests : List (Key × List Int32))
    (key : Key) :
    (∃ j values, Stores v requests key j values ∧ (v.setAll requests).store key = values) ∨
    ((∀ j values, requests[j]? = some (key, values) →
        v.setFault (v.sets.length + j) ≠ none) ∧
      (v.setAll requests).store key = v.store key) := by
  induction requests using List.reverseRecOn with
  | nil => exact Or.inr ⟨by simp, rfl⟩
  | append_singleton requests request ih =>
      obtain ⟨key', values⟩ := request
      have hextends := v.setAll_extends requests
      have hlength : (v.answers requests).length = requests.length := by
        rw [← v.answers_map requests, List.length_map, v.answers_map]
      have hrun : (v.setAll (requests ++ [(key', values)])).store =
          if v.setFault (v.sets.length + requests.length) = none then
            Function.update (v.setAll requests).store key' values
          else (v.setAll requests).store := by
        rw [setAll, List.foldl_append, List.foldl_cons, List.foldl_nil, ← setAll]
        simp only [setValueSync, hextends.setFault, hextends.sets, List.length_append, hlength,
          Option.isNone_iff_eq_none]
      have hindex : ∀ j values', (requests ++ [(key', values)])[j]? = some (key, values') →
          requests[j]? = some (key, values') ∨
            j = requests.length ∧ key' = key ∧ values = values' := by
        intro j values' hj
        rw [List.getElem?_append] at hj
        split at hj
        · exact Or.inl hj
        · rename_i hle
          cases hsub : j - requests.length with
          | zero =>
              rw [hsub] at hj
              obtain ⟨rfl, rfl⟩ : key' = key ∧ values = values' := by simpa using hj
              exact Or.inr ⟨by omega, rfl, rfl⟩
          | succ i => simp [hsub] at hj
      by_cases hstored : key' = key ∧ v.setFault (v.sets.length + requests.length) = none
      -- the new request is the last one to store under the key
      · obtain ⟨rfl, hsucceeds⟩ := hstored
        refine Or.inl ⟨requests.length, values, ⟨by simp, hsucceeds, ?_⟩, ?_⟩
        · intro later values' hlater hget
          have hbound := (List.getElem?_eq_some_iff.1 hget).1
          simp only [List.length_append, List.length_singleton] at hbound
          omega
        · simp [hrun, hsucceeds]
      -- otherwise the key is as the earlier requests left it
      · have hsame : (v.setAll (requests ++ [(key', values)])).store key =
            (v.setAll requests).store key := by
          rw [hrun]
          split
          · rename_i hsucceeds
            exact Function.update_of_ne (fun heq => hstored ⟨heq.symm, hsucceeds⟩) _ _
          · rfl
        have hnew : ∀ j values', j = requests.length ∧ key' = key ∧ values = values' →
            v.setFault (v.sets.length + j) ≠ none := by
          rintro j values' ⟨rfl, hkey, -⟩ hsucceeds
          exact hstored ⟨hkey, hsucceeds⟩
        rw [hsame]
        rcases ih with ⟨j, values', hstores, hstore⟩ | ⟨hnone, hstore⟩
        · refine Or.inl ⟨j, values', ⟨?_, hstores.succeeds, ?_⟩, hstore⟩
          · rw [List.getElem?_append_left (List.getElem?_eq_some_iff.1 hstores.request).1]
            exact hstores.request
          · intro later values'' hlater hget
            rcases hindex later values'' hget with hold | hlast
            · exact hstores.last later values'' hlater hold
            · exact hnew later values'' hlast
        · refine Or.inr ⟨fun j values' hj => ?_, hstore⟩
          rcases hindex j values' hj with hold | hlast
          · exact hnone j values' hold
          · exact hnew j values' hlast

/-- When no key is set twice, a key ends with the values of its own call, or
with nothing stored if that call failed. -/
theorem lastStored_of_nodup (calls : List SetCall) (hnodup : (calls.map SetCall.key).Nodup)
    (call : SetCall) (hmem : call ∈ calls) :
    lastStored call.key calls = if call.succeeded then some call.values else none := by
  cases hsucceeded : call.succeeded with
  | true =>
      have hkeys : ((stored calls).map Prod.fst).Sublist (calls.map SetCall.key) := by
        rw [stored, List.map_map]
        exact (List.filter_sublist (l := calls)).map SetCall.key
      exact lastValue_of_nodup (hnodup.sublist hkeys)
        (List.mem_map.2 ⟨call, List.mem_filter.2 ⟨hmem, hsucceeded⟩, rfl⟩)
  | false =>
      apply (lastStored_eq_none_iff _ _).2
      intro other hother hstored hkey
      rw [List.inj_on_of_nodup_map hnodup hother hmem hkey, hsucceeded] at hstored
      exact absurd hstored (by decide)

end Vhal
end Veos
