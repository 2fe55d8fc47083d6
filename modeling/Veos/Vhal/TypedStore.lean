import Veos.Vhal.Shim

/-!
# The shim as a map of `int32` values

The four typed calls of the shim, seen from their callers: a map from property and area
to one `int32`, which both setters write and both getters read.  `Cells` is that map.

A call is accepted when its pointers are not null and the VHAL answers it.  An accepted
call returns zero and does what `mapStep` says; any other call returns a negative code
and changes nothing, the caller's variable included (`run_spec`).  Over any sequence of
calls the map holds the value of the last accepted setter of each key, whichever of the
two it was (`runShim_cells`).
-/

namespace Veos
namespace Vhal

open LastWrite

/-- One call of the shim.  The variable of a getter's caller is `none` for a null
pointer. -/
inductive ShimCall
  | setInt32 (c : ClientPtr) (key : Key) (value : Int32)
  | setBool (c : ClientPtr) (key : Key) (value01 : Int32)
  | getInt32 (c : ClientPtr) (key : Key) (out : Option Int32)
  | getBool (c : ClientPtr) (key : Key) (out : Option Int32)

namespace ShimCall

/-- The return code, the caller's variable and the service after a call.  A setter has
no variable. -/
def run : ShimCall → Service → Int32 × Option Int32 × Service
  | .setInt32 c key value, v =>
      let (rc, v) := vhalSetInt32 c key.1 key.2 value v
      (rc, none, v)
  | .setBool c key value01, v =>
      let (rc, v) := vhalSetBool c key.1 key.2 value01 v
      (rc, none, v)
  | .getInt32 c key out, v => vhalGetInt32 c key.1 key.2 out v
  | .getBool c key out, v => vhalGetBool c key.1 key.2 out v

/-- The caller's variable before the call. -/
def out : ShimCall → Option Int32
  | .setInt32 _ _ _ => none
  | .setBool _ _ _ => none
  | .getInt32 _ _ out => out
  | .getBool _ _ out => out

/-- What a setter stores. -/
def written : ShimCall → Option (Key × Int32)
  | .setInt32 _ key value => some (key, value)
  | .setBool _ key value01 => some (key, if value01 ≠ 0 then 1 else 0)
  | .getInt32 _ _ _ => none
  | .getBool _ _ _ => none

/-- The call has the pointers it needs and the VHAL answers it: a set call without an
error, a read with a vector that is not empty. -/
def Accepted (v : Service) : ShimCall → Prop
  | .setInt32 c _ _ => c ≠ 0 ∧ v.setFault v.sets.length = none
  | .setBool c _ _ => c ≠ 0 ∧ v.setFault v.sets.length = none
  | .getInt32 c key out =>
      c ≠ 0 ∧ out ≠ none ∧ ∃ first rest, (v.getValueSync key).1 = .ok (first :: rest)
  | .getBool c key out =>
      c ≠ 0 ∧ out ≠ none ∧ ∃ first rest, (v.getValueSync key).1 = .ok (first :: rest)

end ShimCall

/-! ## The map -/

/-- What the callers of the shim see: one value for each key that has one. -/
abbrev Cells := Key → Option Int32

/-- The map that a store stands for. -/
def cellsOf (store : Store) : Cells := fun key => (store key).head?

/-- What an accepted call makes of the caller's variable and of the map. -/
def ShimCall.mapStep (cells : Cells) : ShimCall → Option Int32 × Cells
  | .setInt32 _ key value => (none, Function.update cells key (some value))
  | .setBool _ key value01 =>
      (none, Function.update cells key (some (if value01 ≠ 0 then 1 else 0)))
  | .getInt32 _ key _ => (cells key, cells)
  | .getBool _ key _ => ((cells key).map fun value => if value ≠ 0 then 1 else 0, cells)

/-! ## One call -/

theorem cellsOf_update (store : Store) (key : Key) (value : Int32) :
    cellsOf (Function.update store key [value]) =
      Function.update (cellsOf store) key (some value) := by
  funext other
  by_cases hother : other = key
  · subst hother
    simp [cellsOf]
  · simp [cellsOf, hother]

/-- What a setter of the shim does, from its `set_one` call. -/
theorem setOne_spec (c : ClientPtr) (key : Key) (value : Int32) (v : Service) :
    let r := setOne c key.1 key.2 [value] v
    (r.1 = 0 ↔ c ≠ 0 ∧ v.setFault v.sets.length = none) ∧
    (r.1 = 0 ↔ r.2.setsSince v = [⟨key, [value], none⟩]) ∧
    (r.1 = 0 → cellsOf r.2.store = Function.update (cellsOf v.store) key (some value)) ∧
    (r.1 ≠ 0 → r.1 < 0 ∧ r.2.store = v.store) := by
  intro r
  by_cases hc : c = 0
  · have hr : r = (-5, v) := by
      subst hc
      exact setOne_null key.1 key.2 [value] v
    rw [hr, (Extends.refl v).setsSince]
    simp [hc]
  · have hr : r = (returnCode (v.setFault v.sets.length), (v.setValueSync key [value]).2) :=
      setOne_connected hc key.1 key.2 [value] v
    have hsets : (v.setValueSync key [value]).2.setsSince v =
        [⟨key, [value], v.setFault v.sets.length⟩] :=
      (Extends.set v key [value]).setsSince
    rw [hr, hsets]
    cases herror : v.setFault v.sets.length with
    | none =>
        have hstore :
            (v.setValueSync key [value]).2.store = Function.update v.store key [value] := by
          simp [Service.setValueSync, herror]
        simp [hc, hstore, cellsOf_update, returnCode]
    | some e =>
        have hstore : (v.setValueSync key [value]).2.store = v.store := by
          simp [Service.setValueSync, herror]
        have hneg : returnCode (some e) < 0 := toErrnoLike_error_neg e
        simp [hc, hstore, hneg, returnCode_eq_zero_iff]

/-- What a getter of the shim does, whatever it makes of the first component. -/
theorem vhalGet_spec (convert : Int32 → Int32) (c : ClientPtr) (key : Key) (out : Option Int32)
    (v : Service) :
    let r := vhalGet convert c key.1 key.2 out v
    (r.1 = 0 ↔
      c ≠ 0 ∧ out ≠ none ∧ ∃ first rest, (v.getValueSync key).1 = .ok (first :: rest)) ∧
    (r.1 = 0 → r.2.1 = (cellsOf v.store key).map convert) ∧
    (r.1 ≠ 0 → r.1 < 0 ∧ r.2.1 = out) ∧
    r.2.2.store = v.store := by
  intro r
  cases out with
  | none =>
      have hr : r = (-22, none, v) := rfl
      simp [hr]
  | some old =>
      by_cases hc : c = 0
      · have hr : r = (-5, some old, v) := by
          subst hc
          rfl
        simp [hr, hc]
      · cases hfault : v.getFault v.gets with
        | some fault =>
            cases fault with
            | error e =>
                have hr : r = (toErrnoLike e.code, some old, (v.getValueSync key).2) := by
                  simp [r, vhalGet, getOne, hc, Service.getValueSync, hfault,
                    toErrnoLike_error_ne_zero]
                simp [hr, Service.getValueSync, hfault, toErrnoLike_error_ne_zero,
                  toErrnoLike_error_neg]
            | emptyVector =>
                have hr : r = (-5, some old, (v.getValueSync key).2) := by
                  simp [r, vhalGet, getOne, hc, Service.getValueSync, hfault]
                simp [hr, Service.getValueSync, hfault]
        | none =>
            cases hvalues : v.store key with
            | nil =>
                have hr : r = (-5, some old, (v.getValueSync key).2) := by
                  simp [r, vhalGet, getOne, hc, Service.getValueSync, hfault, hvalues]
                simp [hr, Service.getValueSync, hfault, hvalues]
            | cons first rest =>
                have hr : r = (0, some (convert first), (v.getValueSync key).2) := by
                  simp [r, vhalGet, getOne, hc, Service.getValueSync, hfault, hvalues]
                simp [hr, Service.getValueSync, hfault, hvalues, hc, cellsOf]

/-- **One call of the shim.** -/
theorem ShimCall.run_spec (call : ShimCall) (v : Service) :
    ((call.run v).1 = 0 ↔ call.Accepted v) ∧
    (∀ key value, call.written = some (key, value) →
      ((call.run v).1 = 0 ↔ (call.run v).2.2.setsSince v = [⟨key, [value], none⟩])) ∧
    ((call.run v).1 = 0 →
      ((call.run v).2.1, cellsOf (call.run v).2.2.store) = call.mapStep (cellsOf v.store)) ∧
    ((call.run v).1 ≠ 0 →
      (call.run v).1 < 0 ∧ (call.run v).2.1 = call.out ∧ (call.run v).2.2.store = v.store) := by
  cases call with
  | setInt32 c key value =>
      obtain ⟨haccepted, hstored, hcells, hrefused⟩ := setOne_spec c key value v
      refine ⟨haccepted, ?_, fun hzero => congrArg (Prod.mk none) (hcells hzero), ?_⟩
      · rintro _ _ ⟨⟩
        exact hstored
      · exact fun hne => ⟨(hrefused hne).1, rfl, (hrefused hne).2⟩
  | setBool c key value01 =>
      obtain ⟨haccepted, hstored, hcells, hrefused⟩ :=
        setOne_spec c key (if value01 ≠ 0 then 1 else 0) v
      refine ⟨haccepted, ?_, fun hzero => congrArg (Prod.mk none) (hcells hzero), ?_⟩
      · rintro _ _ ⟨⟩
        exact hstored
      · exact fun hne => ⟨(hrefused hne).1, rfl, (hrefused hne).2⟩
  | getInt32 c key out =>
      obtain ⟨haccepted, hvalue, hrefused, hstore⟩ := vhalGet_spec (fun first => first) c key out v
      refine ⟨haccepted, by simp [written], fun hzero => ?_, ?_⟩
      · refine Prod.ext ?_ (congrArg cellsOf hstore)
        exact (hvalue hzero).trans (by simp [mapStep])
      · exact fun hne => ⟨(hrefused hne).1, (hrefused hne).2, hstore⟩
  | getBool c key out =>
      obtain ⟨haccepted, hvalue, hrefused, hstore⟩ :=
        vhalGet_spec (fun first => if first ≠ 0 then 1 else 0) c key out v
      refine ⟨haccepted, by simp [written], fun hzero => ?_, ?_⟩
      · exact Prod.ext (hvalue hzero) (congrArg cellsOf hstore)
      · exact fun hne => ⟨(hrefused hne).1, (hrefused hne).2, hstore⟩

/-! ## Sequences of calls -/

def runShim (calls : List ShimCall) (v : Service) : Service :=
  calls.foldl (fun v call => (call.run v).2.2) v

/-- What the setters that returned zero have stored, in order. -/
def accepted : List ShimCall → Service → List (Key × Int32)
  | [], _ => []
  | call :: calls, v =>
      (if (call.run v).1 = 0 then call.written.toList else []) ++ accepted calls (call.run v).2.2

/-- The map after some calls: the last value accepted for a key, or the initial one. -/
def latest (calls : List ShimCall) (v : Service) : Cells := fun key =>
  (lastValue key (accepted calls v)).or (cellsOf v.store key)

theorem update_eq_lastValue (cells : Cells) (other key : Key) (value : Int32) :
    Function.update cells other (some value) key =
      (lastValue key [(other, value)]).or (cells key) := by
  rw [lastValue_singleton]
  by_cases hother : key = other
  · simp [hother]
  · simp [hother, Ne.symm hother]

/-- One call turns the map into the one with its own write, if it is accepted. -/
theorem ShimCall.run_cells (call : ShimCall) (v : Service) (key : Key) :
    cellsOf (call.run v).2.2.store key =
      (lastValue key (if (call.run v).1 = 0 then call.written.toList else [])).or
        (cellsOf v.store key) := by
  obtain ⟨-, -, haccepted, hrefused⟩ := call.run_spec v
  by_cases hzero : (call.run v).1 = 0
  · have hcells := (Prod.mk.inj (haccepted hzero)).2
    rw [hcells, if_pos hzero]
    cases call with
    | setInt32 c other value => exact update_eq_lastValue (cellsOf v.store) other key value
    | setBool c other value01 =>
        exact update_eq_lastValue (cellsOf v.store) other key (if value01 ≠ 0 then 1 else 0)
    | getInt32 c other out => simp [written]
    | getBool c other out => simp [written]
  · rw [(hrefused hzero).2.2, if_neg hzero]
    rfl

/-- The store stands for the map, after any calls. -/
theorem runShim_cells (calls : List ShimCall) (v : Service) :
    cellsOf (runShim calls v).store = latest calls v := by
  funext key
  induction calls generalizing v with
  | nil => rfl
  | cons call calls ih =>
      have hrest : cellsOf (runShim (call :: calls) v).store key =
          latest calls (call.run v).2.2 key := ih _
      rw [hrest, latest, call.run_cells v key, latest, accepted, lastValue_append, Option.or_assoc]

/-- **The shim refines the map.**  After any sequence of calls, the next one returns zero
exactly when it is accepted, and a setter exactly when its value was stored.  It then
does to the map of the latest values what `mapStep` says.  Otherwise it returns a
negative code and leaves the store and the caller's variable as they were. -/
theorem runShim_refines (v : Service) (calls : List ShimCall) (call : ShimCall) :
    let w := runShim calls v
    let r := call.run w
    (r.1 = 0 ↔ call.Accepted w) ∧
    (∀ key value, call.written = some (key, value) →
      (r.1 = 0 ↔ r.2.2.setsSince w = [⟨key, [value], none⟩])) ∧
    (r.1 = 0 → (r.2.1, cellsOf r.2.2.store) = call.mapStep (latest calls v)) ∧
    (r.1 ≠ 0 → r.1 < 0 ∧ r.2.1 = call.out ∧ r.2.2.store = w.store) := by
  intro w r
  have hspec := call.run_spec w
  rw [runShim_cells calls v] at hspec
  exact hspec

end Vhal
end Veos
