import Veos.Telemetry.ControlCalls

/-!
# Sequences of `applyControls` calls

The caches of one service instance over any sequence of calls.  Nothing is
assumed of the maps, of the handle that the process holds at each call, or of the
faults of the VHAL.

The invariant (`runControls_caches`) is that a cache holds what the instance last
stored under its property, or its default if it stored nothing there.  It is
carried over one call by `BlocksSpec.cache_eq_lastStored`.
-/

namespace Veos
namespace Telemetry

open Java Vhal

/-- One call of `applyControls`: the handle that the process holds at the time,
and the map. -/
structure Call where
  clientPtr : ClientPtr
  controls : Option JMap

/-- The call made from a state: the exception it catches and the new state. -/
def Call.run (call : Call) (t : ServiceState) : Option JavaException × ServiceState :=
  applyControls call.clientPtr call.controls t

/-- A sequence of calls. -/
def runControls (calls : List Call) (t : ServiceState) : ServiceState :=
  calls.foldl (fun t call => (call.run t).2) t

/-- What a new instance finds: its caches have their defaults. -/
def ServiceState.initial (vhal : Service) : ServiceState := ⟨{}, vhal⟩

theorem runControls_append_singleton (calls : List Call) (call : Call) (t : ServiceState) :
    runControls (calls ++ [call]) t = (call.run (runControls calls t)).2 := by
  simp [runControls]

theorem Call.run_spec (call : Call) (t : ServiceState) :
    CallSpec call.clientPtr call.controls t (call.run t).2 (call.run t).1
      ((call.run t).2.vhal.setsSince t.vhal) := by
  obtain ⟨sets, hspec⟩ := applyControls_spec call.clientPtr call.controls t
  have hsets : (call.run t).2.vhal.setsSince t.vhal = sets := hspec.extends_vhal.setsSince
  rw [hsets]
  exact hspec

theorem runControls_extends (calls : List Call) (t : ServiceState) :
    Extends t.vhal ((runControls calls t).vhal.setsSince t.vhal) (runControls calls t).vhal := by
  suffices h : ∃ sets, Extends t.vhal sets (runControls calls t).vhal by
    obtain ⟨sets, hextends⟩ := h
    rw [hextends.setsSince]
    exact hextends
  induction calls using List.reverseRecOn with
  | nil => exact ⟨[], Extends.refl t.vhal⟩
  | append_singleton calls call ih =>
      obtain ⟨sets, hextends⟩ := ih
      rw [runControls_append_singleton]
      exact ⟨_, hextends.trans (call.run_spec (runControls calls t)).extends_vhal⟩

/-- The invariant of the caches, over any number of calls. -/
theorem runControls_caches (calls : List Call) (t : ServiceState) (c : Control) :
    [(runControls calls t).caches.get c] =
      (lastStored c.key ((runControls calls t).vhal.setsSince t.vhal)).getD [t.caches.get c] := by
  induction calls using List.reverseRecOn with
  | nil =>
      rw [show runControls [] t = t from rfl, (Extends.refl t.vhal).setsSince]
      rfl
  | append_singleton calls call ih =>
      have hspec := call.run_spec (runControls calls t)
      have hextends := (runControls_extends calls t).trans hspec.extends_vhal
      -- what the last call stored counts first, then what the earlier ones did
      rw [runControls_append_singleton, hextends.setsSince, lastStored_append,
        hspec.cache_eq_lastStored c, ih]
      cases lastStored c.key
        ((call.run (runControls calls t)).2.vhal.setsSince (runControls calls t).vhal) <;> rfl

/-- The calls set nothing but the properties of the controls. -/
theorem runControls_keys (calls : List Call) (t : ServiceState) :
    ∀ set ∈ (runControls calls t).vhal.setsSince t.vhal, ∃ c : Control, set.key = c.key := by
  induction calls using List.reverseRecOn with
  | nil =>
      rw [show runControls [] t = t from rfl, (Extends.refl t.vhal).setsSince]
      simp
  | append_singleton calls call ih =>
      have hspec := call.run_spec (runControls calls t)
      have hextends := (runControls_extends calls t).trans hspec.extends_vhal
      rw [runControls_append_singleton, hextends.setsSince]
      intro set hset
      rcases List.mem_append.1 hset with hset | hset
      · exact ih set hset
      · obtain ⟨c, -, hkey⟩ := hspec.keys set hset
        exact ⟨c, hkey⟩

/-- The property of a control after one call: the new cache value if the control
was written, what it held before otherwise. -/
theorem Call.run_store (call : Call) (t : ServiceState) (c : Control) :
    (call.run t).2.vhal.store c.key =
      if successes c.key ((call.run t).2.vhal.setsSince t.vhal) = [] then t.vhal.store c.key
      else [(call.run t).2.caches.get c] := by
  have hspec := call.run_spec t
  rw [hspec.extends_vhal.store_apply, lastStored_eq_successes]
  rcases hspec.cache_iff_write c with ⟨-, hnone⟩ | ⟨-, hone, -⟩
  · rw [hnone]
    rfl
  · rw [hone]
    rfl

/-- **The caches of a service instance.**  After every sequence of calls each cache
holds the value of the instance's last successful write to the property bound to
it, or its default.  Of the next call the following holds.  It runs through the
controls in order up to the first block that throws, applies those before it, and
touches no other (`CallSpec`).  A cache is assigned exactly when the control's
write succeeded, with the value written, which is never the value cached before.
The property holds the value written, or what it held.  If nothing was caught,
applying the map again changes nothing and makes no set call. -/
theorem runControls_spec (calls : List Call) (v : Service) :
    (∀ c : Control, [(runControls calls (.initial v)).caches.get c] =
      (lastStored c.key ((runControls calls (.initial v)).vhal.setsSince v)).getD
        [({} : Caches).get c]) ∧
    ∀ call : Call,
      let t := runControls calls (.initial v)
      let t' := (call.run t).2
      let sets := t'.vhal.setsSince t.vhal
      CallSpec call.clientPtr call.controls t t' (call.run t).1 sets ∧
      (∀ c : Control,
        (t'.caches.get c ≠ t.caches.get c ↔ successes c.key sets ≠ []) ∧
        (∀ set ∈ successes c.key sets,
          set.values = [t'.caches.get c] ∧ set.values ≠ [t.caches.get c]) ∧
        t'.vhal.store c.key =
          if successes c.key sets = [] then t.vhal.store c.key else [t'.caches.get c]) ∧
      ((call.run t).1 = none → ∀ ptr, applyControls ptr call.controls t' = (none, t')) := by
  refine ⟨runControls_caches calls (.initial v), fun call => ?_⟩
  intro t t' sets
  have hspec : CallSpec call.clientPtr call.controls t t' (call.run t).1 sets := call.run_spec t
  refine ⟨hspec, fun c => ⟨?_, ?_, call.run_store t c⟩, fun hcompleted ptr => ?_⟩
  · rcases hspec.cache_iff_write c with ⟨hcache, hnone⟩ | ⟨hcache, hone, -⟩
    · simp [hcache, hnone]
    · simp [hcache, hone]
  · rcases hspec.cache_iff_write c with ⟨-, hnone⟩ | ⟨hcache, hone, -⟩
    · simp [hnone]
    · intro set hset
      rw [hone, List.mem_singleton] at hset
      subst hset
      exact ⟨rfl, by simpa using hcache⟩
  · exact applyControls_again call.clientPtr ptr call.controls t hcompleted

/-! ## The VHAL after a call -/

theorem requested_ok_iff (m : JMap) (c : Control) (value : Int32) :
    requested (some m) c = some (.ok value) ↔
      ∃ number : Number, m.lookup c.name = some (.number number) ∧ number.intValue = value := by
  cases hlookup : m.lookup c.name with
  | none => simp [requested, hlookup]
  | some object => cases object <;> simp [requested, hlookup, numberIntValue]

/-- The property of a control after a call that caught nothing. -/
theorem store_of_completed {ptr : ClientPtr} {controls : Option JMap} {t : ServiceState}
    (hcompleted : (applyControls ptr controls t).1 = none) (c : Control) (value : Int32)
    (hvalue : requested controls c = some (.ok value)) :
    (applyControls ptr controls t).2.vhal.store c.key =
      if value = t.caches.get c then t.vhal.store c.key else [value] := by
  obtain ⟨sets, hspec⟩ := applyControls_spec ptr controls t
  rw [hcompleted] at hspec
  rw [hspec.extends_vhal.store_apply, lastStored_eq_successes]
  rcases hspec.applied_of_completed c with ⟨hnone, -⟩ | ⟨value', hvalue', -, hsuccesses⟩
  · rw [hvalue] at hnone
    cases hnone
  · rw [hvalue] at hvalue'
    obtain rfl : value = value' := by simpa using hvalue'
    rw [hsuccesses]
    split <;> rfl

/-- A property that belongs to no control of the map keeps what it holds, whatever the
call catches. -/
theorem store_of_not_requested (ptr : ClientPtr) (controls : Option JMap) (t : ServiceState)
    (key : Key) (hkey : ∀ c : Control, c.key = key → requested controls c = none) :
    (applyControls ptr controls t).2.vhal.store key = t.vhal.store key := by
  obtain ⟨sets, hspec⟩ := applyControls_spec ptr controls t
  have hnothing : lastStored key sets = none := by
    by_cases hcontrol : ∃ c : Control, c.key = key
    · obtain ⟨c, rfl⟩ := hcontrol
      rw [lastStored_eq_successes]
      rcases hspec.cache_iff_write c with ⟨-, hsuccesses⟩ | ⟨-, -, hrequested⟩
      · rw [hsuccesses]
        rfl
      · rw [hkey c rfl] at hrequested
        cases hrequested
    · apply (lastStored_eq_none_iff key sets).2
      intro set hset _ hsetKey
      obtain ⟨c, -, hc⟩ := hspec.keys set hset
      exact hcontrol ⟨c, hc.symm.trans hsetKey⟩
  rw [hspec.extends_vhal.store_apply, hnothing]
  rfl

/-! ## Without a handle -/

theorem applyControl_null (controls : Option JMap) (c : Control) (t : ServiceState) :
    (applyControl 0 controls c t).2 = t := by
  rw [applyControl_eq]
  split
  · rfl
  · rfl
  -- the write of a new value fails for want of a handle
  · split <;> rfl

theorem applyBlocks_null (controls : Option JMap) (cs : List Control) (t : ServiceState) :
    (applyBlocks 0 controls cs t).2 = t := by
  induction cs generalizing t with
  | nil => rfl
  | cons c cs ih =>
      have hblock := applyControl_null controls c t
      cases hresult : applyControl 0 controls c t with
      | mk result t' =>
          rw [hresult] at hblock
          subst hblock
          cases result with
          | error e => simp [applyBlocks, hresult]
          | ok _ => simpa [applyBlocks, hresult] using ih _

/-- Without a handle a call changes nothing. -/
theorem applyControls_null (controls : Option JMap) (t : ServiceState) :
    (applyControls 0 controls t).2 = t := by
  rw [applyControls_snd, applyBlocks_null]

/-- Without a handle a response changes nothing. -/
theorem onResponse_null (response : Response) (t : ServiceState) :
    (onResponse 0 response t).2 = t := by
  unfold onResponse
  split
  · split
    · rfl
    · split <;> first | rfl | exact applyControls_null _ t
  · rfl

/-- A response makes a call of `applyControls` or changes nothing. -/
theorem onResponse_cases (ptr : ClientPtr) (response : Response) (t : ServiceState) :
    (onResponse ptr response t).2 = t ∨
      ∃ controls, (onResponse ptr response t).2 = (applyControls ptr controls t).2 := by
  unfold onResponse
  split
  · split
    · exact Or.inl rfl
    · split <;> first | exact Or.inl rfl | exact Or.inr ⟨_, rfl⟩
  · exact Or.inl rfl

/-- What a response does to the VHAL and to the caches: a cache has what was stored last
under its property. -/
theorem onResponse_spec (ptr : ClientPtr) (response : Response) (t : ServiceState) :
    ∃ sets, Extends t.vhal sets (onResponse ptr response t).2.vhal ∧ ∀ c : Control,
      [(onResponse ptr response t).2.caches.get c] =
        (lastStored c.key sets).getD [t.caches.get c] := by
  rcases onResponse_cases ptr response t with hsame | ⟨controls, hcall⟩
  · rw [hsame]
    exact ⟨[], Extends.refl _, fun c => rfl⟩
  · rw [hcall]
    obtain ⟨sets, hspec⟩ := applyControls_spec ptr controls t
    exact ⟨sets, hspec.extends_vhal, hspec.cache_eq_lastStored⟩

/-! ## Without faults -/

/-- A call on a connected handle completes if the VHAL is without faults and the map
holds a number under every key that it has. -/
theorem applyControls_completes_of_no_error {ptr : ClientPtr} (hptr : ptr ≠ 0)
    {controls : Option JMap} (hnumeric : ∀ c e, requested controls c ≠ some (.error e))
    {t : ServiceState} (hv : t.vhal.Faultless) : (applyControls ptr controls t).1 = none := by
  obtain ⟨calls, hspec⟩ := applyControls_spec ptr controls t
  obtain ⟨done, rest, -, hcut, -⟩ := hspec.cut
  cases hcaught : (applyControls ptr controls t).1 with
  | none => rfl
  | some e =>
      -- each of the reasons for which a block throws is excluded
      rw [hcaught] at hcut
      obtain ⟨c, tail, -, hfailed⟩ := hcut
      rcases hfailed with hrequested | ⟨_, -, -, ⟨hnull, -⟩ | ⟨-, error, hmem, -⟩⟩
      · exact absurd hrequested (hnumeric c e)
      · exact absurd hnull hptr
      · exact absurd (hspec.extends_vhal.error_eq_none hv hmem) (by simp)

theorem applyControls_completes {ptr : ClientPtr} (hptr : ptr ≠ 0) {controls : Option JMap}
    (hnumeric : ∀ c, ∃ value, requested controls c = some (.ok value)) {t : ServiceState}
    (hv : t.vhal.Faultless) : (applyControls ptr controls t).1 = none := by
  apply applyControls_completes_of_no_error hptr _ hv
  intro c e herror
  obtain ⟨value, hvalue⟩ := hnumeric c
  rw [hvalue] at herror
  cases herror

/-- Two executions that start in `t` and `t'`, end in `r` and `r'`, return the same,
leave the same caches and make the same set calls. -/
structure Lockstep {α : Type} (t t' : ServiceState) (r r' : α × ServiceState) : Prop where
  result : r.1 = r'.1
  caches : r.2.caches = r'.2.caches
  calls : ∃ calls, Extends t.vhal calls r.2.vhal ∧ Extends t'.vhal calls r'.2.vhal

/-- Without faults a block does not depend on what the VHAL holds. -/
theorem applyControl_lockstep (ptr : ClientPtr) (controls : Option JMap) (c : Control)
    {t t' : ServiceState} (hcaches : t.caches = t'.caches) (hv : t.vhal.Faultless)
    (hv' : t'.vhal.Faultless) :
    Lockstep t t' (applyControl ptr controls c t) (applyControl ptr controls c t') := by
  have hidle : ∃ calls, Extends t.vhal calls t.vhal ∧ Extends t'.vhal calls t'.vhal :=
    ⟨[], Extends.refl _, Extends.refl _⟩
  rw [applyControl_eq, applyControl_eq, hcaches]
  -- both executions go through the block by the same branches
  cases requested controls c with
  | none => exact ⟨rfl, hcaches, hidle⟩
  | some request =>
      cases request with
      | error e => exact ⟨rfl, hcaches, hidle⟩
      | ok value =>
          by_cases hvalue : value = t'.caches.get c
          · simp only [hvalue, if_true]
            exact ⟨rfl, hcaches, hidle⟩
          · by_cases hptr : ptr = 0
            · simp only [hvalue, hptr, if_true, if_false]
              exact ⟨rfl, hcaches, hidle⟩
            · have hset := Extends.set t.vhal c.key [value]
              have hset' := Extends.set t'.vhal c.key [value]
              rw [hv.1] at hset
              rw [hv'.1] at hset'
              simp only [hvalue, hptr, if_false, hv.1, hv'.1]
              exact ⟨rfl, rfl, _, hset, hset'⟩

theorem applyBlocks_lockstep (ptr : ClientPtr) (controls : Option JMap) (cs : List Control)
    {t t' : ServiceState} (hcaches : t.caches = t'.caches) (hv : t.vhal.Faultless)
    (hv' : t'.vhal.Faultless) :
    Lockstep t t' (applyBlocks ptr controls cs t) (applyBlocks ptr controls cs t') := by
  induction cs generalizing t t' with
  | nil => exact ⟨rfl, hcaches, [], Extends.refl _, Extends.refl _⟩
  | cons c cs ih =>
      have hblock := applyControl_lockstep ptr controls c hcaches hv hv'
      cases hleft : applyControl ptr controls c t with
      | mk result u =>
          cases hright : applyControl ptr controls c t' with
          | mk result' u' =>
              rw [hleft, hright] at hblock
              obtain ⟨rfl, hcachesHead, calls, hextends, hextends'⟩ := hblock
              simp only [applyBlocks, hleft, hright]
              cases result with
              | error e => exact ⟨rfl, hcachesHead, calls, hextends, hextends'⟩
              | ok _ =>
                  obtain ⟨hresult, hcachesTail, callsTail, htail, htail'⟩ :=
                    ih hcachesHead (hextends.faultless hv) (hextends'.faultless hv')
                  exact ⟨hresult, hcachesTail, calls ++ callsTail, hextends.trans htail,
                    hextends'.trans htail'⟩

end Telemetry
end Veos
