import Mathlib.Data.Rat.Init

/-!
# Java values used by the Android services

Both services exchange `Map<String, Object>` values with the server: the
telemetry payload going out and the control reading coming in.  This file has
the objects that can occur in such a map, the one conversion the services apply
to a number (`Number.intValue`), and the exceptions that the modelled methods
can throw.

A `Map` is a list of bindings in which the first binding of a key counts.
-/

namespace Veos
namespace Java

/-- The exceptions thrown on the modelled paths. -/
inductive JavaException
  | illegalStateException (message : String)
  | runtimeException (message : String)
  | nullPointerException
  | classCastException
  deriving DecidableEq, Repr

/-- The value of a `java.lang.Double`.  Every finite double is a rational. -/
inductive JavaDouble
  | nan
  | negativeInfinity
  | positiveInfinity
  | finite (value : ℚ)
  deriving DecidableEq, Repr

/-- `Double.intValue()`: rounds toward zero, saturates at the ends of `int`, and
sends NaN to zero. -/
def JavaDouble.intValue : JavaDouble → Int32
  | .nan => 0
  | .negativeInfinity => Int32.minValue
  | .positiveInfinity => Int32.maxValue
  | .finite value =>
      let truncated := value.num.tdiv value.den
      if truncated ≤ Int32.minValue.toInt then Int32.minValue
      else if Int32.maxValue.toInt ≤ truncated then Int32.maxValue
      else Int32.ofInt truncated

/-- The subclasses of `java.lang.Number` that the maps can hold. -/
inductive Number
  | integer (value : Int32)
  | long (value : Int64)
  | double (value : JavaDouble)
  deriving DecidableEq, Repr

/-- `Number.intValue()`. -/
def Number.intValue : Number → Int32
  | .integer value => value
  | .long value => value.toInt32
  | .double value => value.intValue

/-- An integral double in the range of `int` converts to that integer. -/
theorem JavaDouble.intValue_finite_toInt (value : Int32) :
    (JavaDouble.finite (value.toInt : ℚ)).intValue = value := by
  have hlow := value.minValue_le_toInt
  have hhigh := value.toInt_le
  have htruncated : ((value.toInt : ℚ).num.tdiv ((value.toInt : ℚ).den : Int)) = value.toInt := by
    simp
  simp only [JavaDouble.intValue, htruncated]
  split
  · exact Int32.toInt_inj.1 (by omega)
  · split
    · exact Int32.toInt_inj.1 (by omega)
    · exact Int32.ofInt_toInt value

/-- The rational that a number stands for. -/
def Number.value? : Number → Option ℚ
  | .integer value => some value.toInt
  | .long value => some value.toInt
  | .double (.finite value) => some value
  | .double _ => none

/-- A number of any class that stands for an `int` converts to it. -/
theorem Number.intValue_of_value? {number : Number} {value : Int32}
    (hvalue : number.value? = some (value.toInt : ℚ)) : number.intValue = value := by
  cases number with
  | integer other =>
      simp only [value?, Option.some.injEq, Rat.intCast_inj] at hvalue
      exact Int32.toInt_inj.1 hvalue
  | long other =>
      simp only [value?, Option.some.injEq, Rat.intCast_inj] at hvalue
      have hlow : -2 ^ 31 ≤ value.toInt := value.minValue_le_toInt
      have hhigh : value.toInt ≤ 2 ^ 31 - 1 := value.toInt_le
      apply Int32.toInt_inj.1
      rw [intValue, Int64.toInt_toInt32, hvalue]
      exact Int.bmod_eq_of_le (by omega) (by omega)
  | double other =>
      cases other with
      | finite other =>
          simp only [value?, Option.some.injEq] at hvalue
          rw [intValue, hvalue, JavaDouble.intValue_finite_toInt]
      | _ => cases hvalue

/-- A reference to an object of a `Map<String, Object>`. -/
inductive JObject
  | null
  | number (value : Number)
  | string (value : String)
  | boolean (value : Bool)
  | list (elements : List JObject)
  | map (bindings : List (String × JObject))
  deriving Repr

/-- The objects are the same but for the class of a number. -/
inductive JObject.SameValue : JObject → JObject → Prop
  | refl (object : JObject) : SameValue object object
  | number {x y : Number} {value : ℚ} (hx : x.value? = some value) (hy : y.value? = some value) :
      SameValue (.number x) (.number y)

/-- A number as a `Double`. -/
def JObject.toDouble : JObject → JObject
  | .number n =>
      match n.value? with
      | some value => .number (.double (.finite value))
      -- NaN and the infinities are doubles already
      | none => .number n
  | object => object

theorem JObject.sameValue_toDouble (object : JObject) : object.SameValue object.toDouble := by
  cases object with
  | number n =>
      cases hvalue : n.value? with
      | none =>
          rw [toDouble, hvalue]
          exact .refl _
      | some value =>
          rw [toDouble, hvalue]
          exact .number hvalue rfl
  | _ => exact .refl _

/-- `Map<String, Object>`. -/
abbrev JMap := List (String × JObject)

namespace JMap

/-- `Map.containsKey`. -/
def containsKey (m : JMap) (key : String) : Bool :=
  (m.lookup key).isSome

/-- `Map.get`, which is `null` for an absent key. -/
def get (m : JMap) (key : String) : JObject :=
  (m.lookup key).getD .null

/-- `Map.put`. -/
def put (m : JMap) (key : String) (value : JObject) : JMap :=
  (key, value) :: m.filter fun binding => binding.1 ≠ key

/-- The bindings of one key. -/
def bindingsOf (m : JMap) (key : String) : JMap :=
  m.filter fun binding => binding.1 = key

theorem lookup_eq_bindingsOf (m : JMap) (key : String) :
    m.lookup key = (m.bindingsOf key).head?.map Prod.snd := by
  induction m with
  | nil => rfl
  | cons binding m ih =>
      obtain ⟨name, value⟩ := binding
      by_cases hname : name = key
      · simp [bindingsOf, hname]
      · have hbeq : (key == name) = false := beq_eq_false_iff_ne.2 (Ne.symm hname)
        simpa [bindingsOf, List.lookup_cons, hbeq, hname] using ih

theorem bindingsOf_put_self (m : JMap) (key : String) (value : JObject) :
    (m.put key value).bindingsOf key = [(key, value)] := by
  have hold : (m.filter fun binding => binding.1 ≠ key).filter (fun binding => binding.1 = key) =
      [] := by
    rw [List.filter_filter, List.filter_eq_nil_iff]
    intro binding _
    simp
  rw [bindingsOf, put, List.filter_cons_of_pos (by simp), hold]

theorem bindingsOf_put_of_ne (m : JMap) (key other : String) (value : JObject)
    (hne : other ≠ key) : (m.put key value).bindingsOf other = m.bindingsOf other := by
  rw [bindingsOf, put, List.filter_cons_of_neg (by simpa using hne.symm), List.filter_filter,
    bindingsOf]
  apply List.filter_congr
  intro binding _
  by_cases hname : binding.1 = other
  · simp [hname, hne]
  · simp [hname]

@[simp] theorem lookup_put_self (m : JMap) (key : String) (value : JObject) :
    (m.put key value).lookup key = some value := by
  rw [lookup_eq_bindingsOf, bindingsOf_put_self]
  rfl

theorem lookup_put_of_ne (m : JMap) (key other : String) (value : JObject) (hne : other ≠ key) :
    (m.put key value).lookup other = m.lookup other := by
  rw [lookup_eq_bindingsOf, bindingsOf_put_of_ne m key other value hne, ← lookup_eq_bindingsOf]

/-- A new key adds one binding. -/
theorem put_of_fresh {m : JMap} {key : String} (value : JObject)
    (hfresh : ∀ binding ∈ m, binding.1 ≠ key) : m.put key value = (key, value) :: m := by
  rw [put, List.filter_eq_self.2]
  intro binding hbinding
  simpa using hfresh binding hbinding

theorem put_names {m : JMap} {names : List String} (hm : ∀ binding ∈ m, binding.1 ∈ names)
    (key : String) (hkey : key ∈ names) (value : JObject) :
    ∀ binding ∈ m.put key value, binding.1 ∈ names := by
  intro binding hbinding
  rcases List.mem_cons.1 hbinding with rfl | hold
  · exact hkey
  · exact hm binding (List.mem_filter.1 hold).1

/-- The maps bind the same names to the same values. -/
def SameValues (m m' : JMap) : Prop :=
  ∀ name, Option.Rel JObject.SameValue (m.lookup name) (m'.lookup name)

/-- A decoder that knows no class of numbers but `Double`. -/
def decodeDoubles (m : JMap) : JMap :=
  m.map fun binding => (binding.1, binding.2.toDouble)

theorem sameValues_decodeDoubles (m : JMap) : m.SameValues m.decodeDoubles := by
  intro name
  induction m with
  | nil => exact .none
  | cons binding m ih =>
      obtain ⟨key, object⟩ := binding
      simp only [decodeDoubles, List.map_cons, List.lookup_cons] at ih ⊢
      cases hname : name == key with
      | false => exact ih
      | true => exact .some object.sameValue_toDouble

end JMap

/-- `((Number) object).intValue()`: the cast rejects objects of other classes and
lets `null` through, on which the call then fails. -/
def numberIntValue : JObject → Except JavaException Int32
  | .number value => .ok value.intValue
  | .null => .error .nullPointerException
  | _ => .error .classCastException

end Java
end Veos
