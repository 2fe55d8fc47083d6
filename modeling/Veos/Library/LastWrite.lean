import Mathlib.Data.List.Induction
import Mathlib.Logic.Function.Basic

/-!
# Keyed stores under sequences of writes

A store is a total function from keys to values and a write replaces the value
at one key.  The state after a sequence of writes is determined, key by key, by
the last write to that key; everything else in this file follows from that.

The second half treats two writers.  An `Interleaving` merges two sequences and
keeps the order of each.  Keys that only one of the writers touches do not
depend on the merge, and a key that both touch ends with the last value of one
of the two.
-/

namespace LastWrite

variable {K V : Type*} [DecidableEq K]

/-- Perform one write. -/
def applyWrite (store : K → V) (w : K × V) : K → V :=
  Function.update store w.1 w.2

/-- Perform a sequence of writes, the head first. -/
def applyWrites (store : K → V) (ws : List (K × V)) : K → V :=
  ws.foldl applyWrite store

/-- The value of the last write to `k`, if there is one. -/
def lastValue (k : K) (ws : List (K × V)) : Option V :=
  ((ws.filter fun w => w.1 = k).getLast?).map Prod.snd

@[simp] theorem lastValue_nil (k : K) : lastValue k ([] : List (K × V)) = none := rfl

theorem lastValue_append (k : K) (xs ys : List (K × V)) :
    lastValue k (xs ++ ys) = (lastValue k ys).or (lastValue k xs) := by
  simp only [lastValue, List.filter_append, List.getLast?_append]
  cases (ys.filter fun w => w.1 = k).getLast? <;> rfl

theorem lastValue_singleton (k : K) (w : K × V) :
    lastValue k [w] = if w.1 = k then some w.2 else none := by
  by_cases hkey : w.1 = k <;> simp [lastValue, hkey]

theorem lastValue_eq_none_iff (k : K) (ws : List (K × V)) :
    lastValue k ws = none ↔ ∀ w ∈ ws, w.1 ≠ k := by
  simp [lastValue]

/-- When no key is written twice, every write is the last one to its key. -/
theorem lastValue_of_nodup {ws : List (K × V)} (hnodup : (ws.map Prod.fst).Nodup) {k : K} {x : V}
    (hmem : (k, x) ∈ ws) : lastValue k ws = some x := by
  have hfilter : (ws.filter fun w => w.1 = k) = [(k, x)] := by
    induction ws with
    | nil => simp at hmem
    | cons w ws ih =>
        rw [List.map_cons, List.nodup_cons] at hnodup
        rcases List.mem_cons.1 hmem with rfl | hmem
        · have hrest : (ws.filter fun w => w.1 = k) = [] := by
            apply List.filter_eq_nil_iff.2
            intro w hw hkey
            exact hnodup.1 (List.mem_map.2 ⟨w, hw, by simpa using hkey⟩)
          simp [hrest]
        · have hne : w.1 ≠ k := fun hkey =>
            hnodup.1 (hkey ▸ List.mem_map.2 ⟨(k, x), hmem, rfl⟩)
          simp [hne, ih hnodup.2 hmem]
  rw [lastValue, hfilter]
  rfl

@[simp] theorem applyWrites_nil (store : K → V) : applyWrites store [] = store := rfl

@[simp] theorem applyWrites_cons (store : K → V) (w : K × V) (ws : List (K × V)) :
    applyWrites store (w :: ws) = applyWrites (applyWrite store w) ws := rfl

theorem applyWrites_append (store : K → V) (xs ys : List (K × V)) :
    applyWrites store (xs ++ ys) = applyWrites (applyWrites store xs) ys :=
  List.foldl_append

/-- The last write to a key decides its value; without one the store keeps what
it held. -/
theorem applyWrites_apply (store : K → V) (ws : List (K × V)) (k : K) :
    applyWrites store ws k = (lastValue k ws).getD (store k) := by
  induction ws using List.reverseRecOn with
  | nil => rfl
  | append_singleton ws w ih =>
      rw [applyWrites_append, lastValue_append, lastValue_singleton]
      by_cases hkey : w.1 = k
      · subst hkey
        simp [applyWrite]
      · simp [applyWrite, hkey, Function.update_of_ne (Ne.symm hkey), ih]

/-! ## Two writers -/

/-- `Interleaving xs ys zs`: the list `zs` merges `xs` and `ys` and keeps the
order of each. -/
inductive Interleaving {α : Type*} : List α → List α → List α → Prop
  | nil : Interleaving [] [] []
  | left {x : α} {xs ys zs : List α} :
      Interleaving xs ys zs → Interleaving (x :: xs) ys (x :: zs)
  | right {y : α} {xs ys zs : List α} :
      Interleaving xs ys zs → Interleaving xs (y :: ys) (y :: zs)

namespace Interleaving

variable {α : Type*} {xs ys zs : List α}

/-- The right writer makes some more writes first. -/
theorem append_right (h : Interleaving xs ys zs) (ws : List α) :
    Interleaving xs (ws ++ ys) (ws ++ zs) := by
  induction ws with
  | nil => exact h
  | cons w ws ih => exact .right ih

theorem eq_of_left_nil (h : Interleaving [] ys zs) : zs = ys := by
  induction ys generalizing zs with
  | nil => cases h; rfl
  | cons y ys ih =>
      cases h with
      | right h => rw [ih h]

theorem eq_of_right_nil (h : Interleaving xs [] zs) : zs = xs := by
  induction xs generalizing zs with
  | nil => cases h; rfl
  | cons x xs ih =>
      cases h with
      | left h => rw [ih h]

theorem filter (p : α → Bool) (h : Interleaving xs ys zs) :
    Interleaving (xs.filter p) (ys.filter p) (zs.filter p) := by
  induction h with
  | nil => exact .nil
  | @left x _ _ _ _ ih =>
      by_cases hp : p x = true
      · simpa [hp] using ih.left
      · simpa [hp] using ih
  | @right y _ _ _ _ ih =>
      by_cases hp : p y = true
      · simpa [hp] using ih.right
      · simpa [hp] using ih

/-- The last element of a merge is the last element of one of the two sides. -/
theorem getLast?_eq (h : Interleaving xs ys zs) :
    zs.getLast? = xs.getLast? ∧ xs ≠ [] ∨ zs.getLast? = ys.getLast? ∧ ys ≠ [] ∨
      xs = [] ∧ ys = [] ∧ zs = [] := by
  induction h with
  | nil => simp
  | @left x xs ys zs h ih =>
      -- the new head is the last element only if nothing follows it
      rcases ih with ⟨hlast, hne⟩ | ⟨hlast, hne⟩ | ⟨rfl, rfl, rfl⟩
      · refine Or.inl ⟨?_, by simp⟩
        rw [List.getLast?_cons, List.getLast?_cons, hlast]
      · refine Or.inr (Or.inl ⟨?_, hne⟩)
        obtain ⟨y, hy⟩ := Option.ne_none_iff_exists'.1
          (fun hnone => hne (List.getLast?_eq_none_iff.1 hnone))
        rw [List.getLast?_cons, hlast, hy]
        rfl
      · exact Or.inl ⟨rfl, by simp⟩
  | @right y xs ys zs h ih =>
      rcases ih with ⟨hlast, hne⟩ | ⟨hlast, hne⟩ | ⟨rfl, rfl, rfl⟩
      · refine Or.inl ⟨?_, hne⟩
        obtain ⟨x, hx⟩ := Option.ne_none_iff_exists'.1
          (fun hnone => hne (List.getLast?_eq_none_iff.1 hnone))
        rw [List.getLast?_cons, hlast, hx]
        rfl
      · refine Or.inr (Or.inl ⟨?_, by simp⟩)
        rw [List.getLast?_cons, List.getLast?_cons, hlast]
      · exact Or.inr (Or.inl ⟨rfl, by simp⟩)

end Interleaving

variable {xs ys zs : List (K × V)}

/-- A key the right writer never touches ends as the left writer leaves it. -/
theorem lastValue_of_right_silent (h : Interleaving xs ys zs) (k : K)
    (hsilent : lastValue k ys = none) : lastValue k zs = lastValue k xs := by
  have hnil : (ys.filter fun w => w.1 = k) = [] := by
    simpa [lastValue] using hsilent
  have hfilter := h.filter fun w => decide (w.1 = k)
  rw [hnil] at hfilter
  simp only [lastValue, hfilter.eq_of_right_nil]

/-- A key the left writer never touches ends as the right writer leaves it. -/
theorem lastValue_of_left_silent (h : Interleaving xs ys zs) (k : K)
    (hsilent : lastValue k xs = none) : lastValue k zs = lastValue k ys := by
  have hnil : (xs.filter fun w => w.1 = k) = [] := by
    simpa [lastValue] using hsilent
  have hfilter := h.filter fun w => decide (w.1 = k)
  rw [hnil] at hfilter
  simp only [lastValue, hfilter.eq_of_left_nil]

/-- A key that both writers touch ends with the last value of one of them. -/
theorem lastValue_of_both {a b : V} (h : Interleaving xs ys zs) (k : K)
    (hleft : lastValue k xs = some a) (hright : lastValue k ys = some b) :
    lastValue k zs = some a ∨ lastValue k zs = some b := by
  have hfilter := h.filter fun w => decide (w.1 = k)
  rw [← hleft, ← hright]
  rcases hfilter.getLast?_eq with ⟨hlast, -⟩ | ⟨hlast, -⟩ | ⟨hnil, -, -⟩
  · exact Or.inl (congrArg (Option.map Prod.snd) hlast)
  · exact Or.inr (congrArg (Option.map Prod.snd) hlast)
  · simp [lastValue, hnil] at hleft

/-- A key on which the writers agree, if both touch it, does not depend on the
merge. -/
theorem lastValue_of_agree (h : Interleaving xs ys zs) (k : K)
    (hagree : ∀ a b, lastValue k xs = some a → lastValue k ys = some b → a = b) :
    lastValue k zs = (lastValue k xs).or (lastValue k ys) := by
  cases hleft : lastValue k xs with
  | none => rw [Option.none_or, lastValue_of_left_silent h k hleft]
  | some a =>
      rw [Option.some_or]
      cases hright : lastValue k ys with
      | none => rw [lastValue_of_right_silent h k hright, hleft]
      | some b =>
          have hab : a = b := hagree a b hleft hright
          rcases lastValue_of_both h k hleft hright with hlast | hlast
          · exact hlast
          · rw [hlast, hab]

/-- Writers that agree on every key that both touch leave the same store in every
merge. -/
theorem applyWrites_of_agree (h : Interleaving xs ys zs) (store : K → V) (k : K)
    (hagree : ∀ a b, lastValue k xs = some a → lastValue k ys = some b → a = b) :
    applyWrites store zs k = ((lastValue k xs).or (lastValue k ys)).getD (store k) := by
  rw [applyWrites_apply, lastValue_of_agree h k hagree]

end LastWrite
