import Veos.Telemetry.Service

/-!
# What one call of `applyControls` does

The call runs through the five blocks and stops at the first exception.  The
blocks before the cut are fully applied; the block at the cut and those after it
touch neither their cache nor their property.

`BlocksSpec` states this for any run of blocks, and so for the call as a whole,
whatever the map holds and whichever writes fail.  Everything about sequences of calls is
derived from it.
-/

namespace Veos
namespace Telemetry

open Java Vhal

/-- What a map asks of a control: nothing, a value, or an exception. -/
def requested (controls : Option JMap) (c : Control) : Option (Except JavaException Int32) :=
  match controls with
  | none => some (.error .nullPointerException)
  | some controls => (controls.lookup c.name).map numberIntValue

/-- The successful sets of `key` among some calls. -/
def successes (key : Key) (calls : List SetCall) : List SetCall :=
  calls.filter fun call => call.key = key && call.succeeded

theorem successes_append (key : Key) (xs ys : List SetCall) :
    successes key (xs ++ ys) = successes key xs ++ successes key ys := by
  simp [successes]

theorem successes_eq_nil_of_stored {calls : List SetCall} (hstored : stored calls = [])
    (key : Key) : successes key calls = [] := by
  refine List.filter_eq_nil_iff.2 fun call hmem hcall => ?_
  simp only [Bool.and_eq_true] at hcall
  have hmemStored : (call.key, call.values) ∈ stored calls :=
    List.mem_map.2 ⟨call, List.mem_filter.2 ⟨hmem, hcall.2⟩, rfl⟩
  simp [hstored] at hmemStored

theorem lastStored_eq_successes (key : Key) (calls : List SetCall) :
    lastStored key calls = ((successes key calls).getLast?).map SetCall.values := by
  have hfilter : (stored calls).filter (fun w => w.1 = key) =
      (successes key calls).map fun call => (call.key, call.values) := by
    simp [stored, successes, List.filter_map, List.filter_filter, Function.comp_def]
  rw [lastStored, LastWrite.lastValue, hfilter, List.getLast?_map, Option.map_map]
  rfl

/-! ## One block -/

/-- The block of `c` throws `e` with the set calls `calls`: the map holds no
number under the key, or the write of a value other than the cached one fails. -/
def Failed (ptr : ClientPtr) (controls : Option JMap) (c : Control) (caches : Caches)
    (e : JavaException) (calls : List SetCall) : Prop :=
  requested controls c = some (.error e) ∨
  ∃ value, requested controls c = some (.ok value) ∧ value ≠ caches.get c ∧
    (ptr = 0 ∧ e = VhalNative.notInitialized ∨
      ptr ≠ 0 ∧ ∃ error, ⟨c.key, [value], some error⟩ ∈ calls ∧
        e = VhalNative.setFailed "int32" c.propId (toErrnoLike error.code))

/-- One block as a function of what the map asks of its control. -/
theorem applyControl_eq (ptr : ClientPtr) (controls : Option JMap) (c : Control)
    (t : ServiceState) :
    applyControl ptr controls c t =
      match requested controls c with
      | none => (.ok (), t)
      | some (.error e) => (.error e, t)
      | some (.ok value) =>
          if value = t.caches.get c then (.ok (), t)
          else if ptr = 0 then (.error VhalNative.notInitialized, t)
          else
            let vhal := (t.vhal.setValueSync c.key [value]).2
            match t.vhal.setFault t.vhal.sets.length with
            | none => (.ok (), { caches := t.caches.set c value, vhal := vhal })
            | some error =>
                (.error (VhalNative.setFailed "int32" c.propId (toErrnoLike error.code)),
                  { t with vhal := vhal }) := by
  cases controls with
  | none => rfl
  | some controls =>
      cases hlookup : controls.lookup c.name with
      | none => simp [applyControl, JMap.containsKey, requested, hlookup]
      | some object =>
          simp only [applyControl, JMap.containsKey, JMap.get, requested, hlookup,
            Option.isSome_some, if_true, Option.getD_some, Option.map_some]
          cases numberIntValue object with
          | error e => rfl
          | ok value =>
              by_cases hvalue : value = t.caches.get c
              · simp [hvalue]
              · by_cases hptr : ptr = 0
                · simp [hvalue, hptr, VhalNative.setInt32_null]
                · simp only [ne_eq, hvalue, not_false_eq_true, if_true, if_false, hptr,
                    VhalNative.setInt32_connected hptr]
                  cases t.vhal.setFault t.vhal.sets.length <;> rfl

/-- All that one block can do: nothing, a write that succeeds, or an exception
that leaves caches and store alone. -/
theorem applyControl_cases (ptr : ClientPtr) (controls : Option JMap) (c : Control)
    (t : ServiceState) :
    (applyControl ptr controls c t = (.ok (), t) ∧
      (requested controls c = none ∨ requested controls c = some (.ok (t.caches.get c)))) ∨
    (∃ value vhal, applyControl ptr controls c t =
        (.ok (), { caches := t.caches.set c value, vhal := vhal }) ∧
      requested controls c = some (.ok value) ∧ value ≠ t.caches.get c ∧
      Extends t.vhal [⟨c.key, [value], none⟩] vhal) ∨
    (∃ e vhal calls, applyControl ptr controls c t = (.error e, { t with vhal := vhal }) ∧
      Extends t.vhal calls vhal ∧ stored calls = [] ∧ (∀ call ∈ calls, call.key = c.key) ∧
      calls.length ≤ 1 ∧ Failed ptr controls c t.caches e calls) := by
  rw [applyControl_eq]
  cases hrequested : requested controls c with
  | none => exact Or.inl ⟨rfl, Or.inl rfl⟩
  | some request =>
      cases request with
      | error e =>
          exact Or.inr (Or.inr ⟨e, t.vhal, [], rfl, Extends.refl t.vhal, rfl, by simp, by simp,
            Or.inl hrequested⟩)
      | ok value =>
          by_cases hvalue : value = t.caches.get c
          · exact Or.inl ⟨by simp [hvalue], Or.inr (by rw [hvalue])⟩
          -- the block goes on to the write, which needs a handle and may fail
          · by_cases hptr : ptr = 0
            · refine Or.inr (Or.inr ⟨VhalNative.notInitialized, t.vhal, [], ?_,
                Extends.refl t.vhal, rfl, by simp, by simp,
                Or.inr ⟨value, hrequested, hvalue, Or.inl ⟨hptr, rfl⟩⟩⟩)
              simp [hvalue, hptr]
            · have hextends := Extends.set t.vhal c.key [value]
              simp only [hvalue, hptr, if_false]
              cases herror : t.vhal.setFault t.vhal.sets.length with
              | none =>
                  rw [herror] at hextends
                  exact Or.inr (Or.inl ⟨value, _, rfl, rfl, hvalue, hextends⟩)
              | some error =>
                  rw [herror] at hextends
                  exact Or.inr (Or.inr ⟨_, _, _, rfl, hextends, by simp [stored_singleton],
                    by simp, by simp, Or.inr ⟨value, hrequested, hvalue, Or.inr ⟨hptr, error,
                      List.mem_singleton_self _, rfl⟩⟩⟩)

/-- A block makes at most one set call. -/
theorem applyControl_sets (ptr : ClientPtr) (controls : Option JMap) (c : Control)
    (t : ServiceState) :
    ∃ calls, Extends t.vhal calls (applyControl ptr controls c t).2.vhal ∧ calls.length ≤ 1 := by
  rcases applyControl_cases ptr controls c t with
    ⟨heq, -⟩ | ⟨value, vhal, heq, -, -, hextends⟩ |
    ⟨e, vhal, calls, heq, hextends, -, -, hlength, -⟩
  · rw [heq]
    exact ⟨[], Extends.refl _, by simp⟩
  · rw [heq]
    exact ⟨_, hextends, by simp⟩
  · rw [heq]
    exact ⟨calls, hextends, hlength⟩

/-! ## A run of blocks -/

/-- The control is untouched: its cache is as before and nothing was stored under
its property. -/
def Untouched (c : Control) (t t' : ServiceState) (calls : List SetCall) : Prop :=
  t'.caches.get c = t.caches.get c ∧ successes c.key calls = []

/-- The control is fully applied: the map asks nothing of it and it is untouched,
or it asks for a value, the cache holds that value, and the value was written
exactly when the cache held another one. -/
def Applied (controls : Option JMap) (c : Control) (t t' : ServiceState)
    (calls : List SetCall) : Prop :=
  (requested controls c = none ∧ Untouched c t t' calls) ∨
  ∃ value, requested controls c = some (.ok value) ∧ t'.caches.get c = value ∧
    successes c.key calls =
      if value = t.caches.get c then [] else [⟨c.key, [value], none⟩]

/-- The cut of a run of blocks: without an exception no block remains, and with one
the first block that remains is the one that threw it. -/
def CutAt (ptr : ClientPtr) (controls : Option JMap) (caches : Caches) (rest : List Control)
    (caught : Option JavaException) (calls : List SetCall) : Prop :=
  match caught with
  | none => rest = []
  | some e => ∃ c tail, rest = c :: tail ∧ Failed ptr controls c caches e calls

/-- What the blocks `cs` do from `t` to `t'` with the set calls `calls`: the blocks
before the cut are applied, the others are untouched, and no other key is set. -/
structure BlocksSpec (ptr : ClientPtr) (controls : Option JMap) (cs : List Control)
    (t t' : ServiceState) (caught : Option JavaException) (calls : List SetCall) : Prop where
  extends_vhal : Extends t.vhal calls t'.vhal
  cut : ∃ done rest, cs = done ++ rest ∧ CutAt ptr controls t.caches rest caught calls ∧
    (∀ c ∈ done, Applied controls c t t' calls) ∧ ∀ c ∈ rest, Untouched c t t' calls
  others : ∀ c, c ∉ cs → Untouched c t t' calls
  keys : ∀ call ∈ calls, ∃ c ∈ cs, call.key = c.key

theorem Untouched.trans {c : Control} {t t' t'' : ServiceState} {calls calls' : List SetCall}
    (h : Untouched c t t' calls) (h' : Untouched c t' t'' calls') :
    Untouched c t t'' (calls ++ calls') :=
  ⟨h'.1.trans h.1, by rw [successes_append, h.2, h'.2, List.nil_append]⟩

theorem Applied.trans_untouched {controls : Option JMap} {c : Control}
    {t t' t'' : ServiceState} {calls calls' : List SetCall} (h : Applied controls c t t' calls)
    (h' : Untouched c t' t'' calls') : Applied controls c t t'' (calls ++ calls') := by
  rcases h with ⟨hnone, huntouched⟩ | ⟨value, hvalue, hcache, hsuccesses⟩
  · exact Or.inl ⟨hnone, huntouched.trans h'⟩
  · refine Or.inr ⟨value, hvalue, h'.1.trans hcache, ?_⟩
    rw [successes_append, h'.2, List.append_nil, hsuccesses]

theorem Untouched.trans_applied {controls : Option JMap} {c : Control}
    {t t' t'' : ServiceState} {calls calls' : List SetCall} (h : Untouched c t t' calls)
    (h' : Applied controls c t' t'' calls') : Applied controls c t t'' (calls ++ calls') := by
  rcases h' with ⟨hnone, huntouched⟩ | ⟨value, hvalue, hcache, hsuccesses⟩
  · exact Or.inl ⟨hnone, h.trans huntouched⟩
  · refine Or.inr ⟨value, hvalue, hcache, ?_⟩
    rw [successes_append, h.2, List.nil_append, hsuccesses, h.1]

/-- A failure is judged by the cache of the failing block alone. -/
theorem Failed.of_earlier {ptr : ClientPtr} {controls : Option JMap} {c : Control}
    {caches caches' : Caches} {e : JavaException} {calls : List SetCall}
    (h : Failed ptr controls c caches' e calls) (hcache : caches'.get c = caches.get c)
    (before : List SetCall) : Failed ptr controls c caches e (before ++ calls) := by
  rcases h with hrequested | ⟨value, hrequested, hne, hnull | ⟨hptr, error, hmem, he⟩⟩
  · exact Or.inl hrequested
  · exact Or.inr ⟨value, hrequested, hcache ▸ hne, Or.inl hnull⟩
  · exact Or.inr ⟨value, hrequested, hcache ▸ hne, Or.inr ⟨hptr, error,
      List.mem_append_right before hmem, he⟩⟩

/-- A block that returns applies its control and leaves the others alone. -/
theorem applyControl_ok {ptr : ClientPtr} {controls : Option JMap} {c : Control}
    {t t' : ServiceState} (h : applyControl ptr controls c t = (.ok (), t')) :
    ∃ calls, Extends t.vhal calls t'.vhal ∧ Applied controls c t t' calls ∧
      (∀ other, other ≠ c → Untouched other t t' calls) ∧ ∀ call ∈ calls, call.key = c.key := by
  rcases applyControl_cases ptr controls c t with
    ⟨heq, hrequested⟩ | ⟨value, vhal, heq, hrequested, hne, hextends⟩ | ⟨e, vhal, calls, heq, -⟩
  · rw [h] at heq
    obtain rfl : t' = t := (Prod.mk.inj heq).2
    refine ⟨[], Extends.refl _, ?_, fun other _ => ⟨rfl, rfl⟩, by simp⟩
    rcases hrequested with hnone | hsame
    · exact Or.inl ⟨hnone, rfl, rfl⟩
    · exact Or.inr ⟨_, hsame, rfl, by simp [successes]⟩
  · rw [h] at heq
    obtain rfl := (Prod.mk.inj heq).2
    refine ⟨_, hextends, Or.inr ⟨value, hrequested, by simp, ?_⟩,
      fun other hother => ⟨?_, ?_⟩, by simp⟩
    · simp [successes, SetCall.succeeded, hne]
    · exact Caches.get_set_of_ne t.caches c other value hother
    · have hkey : c.key ≠ other.key := fun hkey => hother (Control.key_injective hkey).symm
      simp [successes, hkey]
  · rw [h] at heq
    exact absurd (Prod.mk.inj heq).1 (by simp)

/-- A block that throws leaves every control untouched. -/
theorem applyControl_error {ptr : ClientPtr} {controls : Option JMap} {c : Control}
    {t t' : ServiceState} {e : JavaException}
    (h : applyControl ptr controls c t = (.error e, t')) :
    ∃ calls, Extends t.vhal calls t'.vhal ∧ Failed ptr controls c t.caches e calls ∧
      (∀ other, Untouched other t t' calls) ∧ ∀ call ∈ calls, call.key = c.key := by
  rcases applyControl_cases ptr controls c t with
    ⟨heq, -⟩ | ⟨value, vhal, heq, -⟩ | ⟨e', vhal, calls, heq, hextends, hstored, hkeys, -, hfailed⟩
  · rw [h] at heq
    exact absurd (Prod.mk.inj heq).1 (by simp)
  · rw [h] at heq
    exact absurd (Prod.mk.inj heq).1 (by simp)
  · rw [h] at heq
    obtain ⟨he, rfl⟩ := Prod.mk.inj heq
    obtain rfl := Except.error.inj he
    exact ⟨calls, hextends, hfailed,
      fun other => ⟨rfl, successes_eq_nil_of_stored hstored _⟩, hkeys⟩

/-- The exception that left a block. -/
def thrown : Except JavaException Unit → Option JavaException
  | .error e => some e
  | .ok _ => none

theorem applyBlocks_spec (ptr : ClientPtr) (controls : Option JMap) (cs : List Control)
    (hnodup : cs.Nodup) (t : ServiceState) :
    ∃ calls, BlocksSpec ptr controls cs t (applyBlocks ptr controls cs t).2
      (thrown (applyBlocks ptr controls cs t).1) calls := by
  induction cs generalizing t with
  | nil =>
      exact ⟨[], Extends.refl _, ⟨[], [], rfl, rfl, by simp, by simp⟩, fun c _ => ⟨rfl, rfl⟩,
        by simp⟩
  | cons c cs ih =>
      obtain ⟨hfresh, hnodup⟩ := List.nodup_cons.1 hnodup
      cases hblock : applyControl ptr controls c t with
      | mk result t' =>
          cases result with
          | error e =>
              -- the cut is here: no later block runs
              obtain ⟨calls, hextends, hfailed, huntouched, hkeys⟩ := applyControl_error hblock
              have hblocks : applyBlocks ptr controls (c :: cs) t = (.error e, t') := by
                simp [applyBlocks, hblock]
              rw [hblocks]
              exact ⟨calls, hextends, ⟨[], c :: cs, rfl, ⟨c, cs, rfl, hfailed⟩, by simp,
                fun other _ => huntouched other⟩, fun other _ => huntouched other,
                fun call hcall => ⟨c, List.mem_cons_self, hkeys call hcall⟩⟩
          | ok _ =>
              -- the later blocks decide on the cut, and leave this control alone
              obtain ⟨calls, hextends, happlied, huntouched, hkeys⟩ := applyControl_ok hblock
              obtain ⟨calls', hextends', ⟨done, rest, hsplit, hcut, hdone, hrest⟩, hothers,
                hkeys'⟩ := ih hnodup t'
              have hblocks : applyBlocks ptr controls (c :: cs) t =
                  applyBlocks ptr controls cs t' := by
                simp [applyBlocks, hblock]
              have hne : ∀ other ∈ cs, other ≠ c := fun other hother heq =>
                hfresh (heq ▸ hother)
              have hcut' : CutAt ptr controls t.caches rest
                  (thrown (applyBlocks ptr controls cs t').1) (calls ++ calls') := by
                cases hthrown : thrown (applyBlocks ptr controls cs t').1 with
                | none => rwa [hthrown] at hcut
                | some e =>
                    rw [hthrown] at hcut
                    obtain ⟨failing, tail, hhead, hfailed⟩ := hcut
                    have hmem : failing ∈ cs := by simp [hsplit, hhead]
                    exact ⟨failing, tail, hhead,
                      hfailed.of_earlier (huntouched failing (hne failing hmem)).1 calls⟩
              rw [hblocks]
              -- the blocks done are this one and those the rest of the run did
              refine ⟨calls ++ calls', hextends.trans hextends',
                ⟨c :: done, rest, by rw [hsplit]; rfl, hcut', ?_, ?_⟩, ?_, ?_⟩
              · intro other hother
                rcases List.mem_cons.1 hother with rfl | hother
                · exact happlied.trans_untouched (hothers other hfresh)
                · have hmem : other ∈ cs := hsplit ▸ List.mem_append_left rest hother
                  exact (huntouched other (hne other hmem)).trans_applied (hdone other hother)
              · intro other hother
                have hmem : other ∈ cs := hsplit ▸ List.mem_append_right done hother
                exact (huntouched other (hne other hmem)).trans (hrest other hother)
              · intro other hother
                rw [List.mem_cons, not_or] at hother
                exact (huntouched other hother.1).trans (hothers other hother.2)
              · intro call hcall
                rcases List.mem_append.1 hcall with hcall | hcall
                · exact ⟨c, List.mem_cons_self, hkeys call hcall⟩
                · obtain ⟨other, hother, hkey⟩ := hkeys' call hcall
                  exact ⟨other, List.mem_cons_of_mem c hother, hkey⟩

/-! ## The whole call -/

/-- The state after a call is the one that its blocks leave. -/
theorem applyControls_snd (ptr : ClientPtr) (controls : Option JMap) (t : ServiceState) :
    (applyControls ptr controls t).2 = (applyBlocks ptr controls Control.all t).2 := by
  unfold applyControls
  cases applyBlocks ptr controls Control.all t with
  | mk result t' => cases result <;> rfl

/-- The contract of a call of `applyControls` from `t` to `t'` that caught `caught`. -/
abbrev CallSpec (ptr : ClientPtr) (controls : Option JMap) :=
  BlocksSpec ptr controls Control.all

theorem applyControls_spec (ptr : ClientPtr) (controls : Option JMap) (t : ServiceState) :
    ∃ calls, CallSpec ptr controls t (applyControls ptr controls t).2
      (applyControls ptr controls t).1 calls := by
  obtain ⟨calls, hspec⟩ := applyBlocks_spec ptr controls Control.all Control.all_nodup t
  refine ⟨calls, ?_⟩
  unfold applyControls
  cases hblocks : applyBlocks ptr controls Control.all t with
  | mk result t' =>
      rw [hblocks] at hspec
      cases result with
      | error e => exact hspec
      | ok _ => exact hspec

namespace BlocksSpec

variable {ptr : ClientPtr} {controls : Option JMap} {t t' : ServiceState}
  {caught : Option JavaException} {calls : List SetCall}

/-- Every control is either applied or untouched. -/
theorem applied_or_untouched (h : CallSpec ptr controls t t' caught calls) (c : Control) :
    Applied controls c t t' calls ∨ Untouched c t t' calls := by
  obtain ⟨done, rest, hsplit, -, hdone, hrest⟩ := h.cut
  have hmem : c ∈ done ++ rest := hsplit ▸ Control.mem_all c
  rcases List.mem_append.1 hmem with hmem | hmem
  · exact Or.inl (hdone c hmem)
  · exact Or.inr (hrest c hmem)

/-- A call that catches nothing applies every control. -/
theorem applied_of_completed (h : CallSpec ptr controls t t' none calls) (c : Control) :
    Applied controls c t t' calls := by
  obtain ⟨done, rest, hsplit, hcut, hdone, -⟩ := h.cut
  rw [show rest = [] from hcut, List.append_nil] at hsplit
  exact hdone c (hsplit ▸ Control.mem_all c)

/-- The cache of a control changes exactly when its write succeeded, and then
holds the value written, which is not the one it held before. -/
theorem cache_iff_write (h : CallSpec ptr controls t t' caught calls) (c : Control) :
    (t'.caches.get c = t.caches.get c ∧ successes c.key calls = []) ∨
    (t'.caches.get c ≠ t.caches.get c ∧
      successes c.key calls = [⟨c.key, [t'.caches.get c], none⟩] ∧
      requested controls c = some (.ok (t'.caches.get c))) := by
  rcases h.applied_or_untouched c with
    (⟨-, huntouched⟩ | ⟨value, hrequested, hcache, hsuccesses⟩) | huntouched
  · exact Or.inl huntouched
  · by_cases hsame : value = t.caches.get c
    · rw [if_pos hsame] at hsuccesses
      exact Or.inl ⟨hcache.trans hsame, hsuccesses⟩
    · rw [if_neg hsame] at hsuccesses
      refine Or.inr ⟨fun heq => hsame (hcache.symm.trans heq), ?_, ?_⟩
      · rw [hcache, hsuccesses]
      · rw [hcache, hrequested]
  · exact Or.inl huntouched

/-- After the call a cache holds the last value stored in the call, or what it
held before. -/
theorem cache_eq_lastStored (h : CallSpec ptr controls t t' caught calls) (c : Control) :
    [t'.caches.get c] = (lastStored c.key calls).getD [t.caches.get c] := by
  rw [lastStored_eq_successes]
  rcases h.cache_iff_write c with ⟨hcache, hsuccesses⟩ | ⟨-, hsuccesses, -⟩
  · rw [hsuccesses, hcache]
    rfl
  · rw [hsuccesses]
    rfl

end BlocksSpec

/-- A call whose map asks for what is cached already does nothing. -/
theorem applyBlocks_of_settled (ptr : ClientPtr) (controls : Option JMap) (cs : List Control)
    (t : ServiceState) (hsettled : ∀ c ∈ cs, requested controls c = none ∨
      requested controls c = some (.ok (t.caches.get c))) :
    applyBlocks ptr controls cs t = (.ok (), t) := by
  induction cs with
  | nil => rfl
  | cons c cs ih =>
      have hblock : applyControl ptr controls c t = (.ok (), t) := by
        cases controls with
        | none => simpa [requested] using hsettled c List.mem_cons_self
        | some controls =>
            cases hlookup : controls.lookup c.name with
            | none => simp [applyControl, JMap.containsKey, hlookup]
            | some object =>
                have hnumber : numberIntValue object = .ok (t.caches.get c) := by
                  simpa [requested, hlookup] using hsettled c List.mem_cons_self
                simp [applyControl, JMap.containsKey, JMap.get, hlookup, hnumber]
      simp only [applyBlocks, hblock]
      exact ih fun other hother => hsettled other (List.mem_cons_of_mem c hother)

theorem applyControls_of_settled (ptr : ClientPtr) (controls : Option JMap) (t : ServiceState)
    (hsettled : ∀ c, requested controls c = none ∨
      requested controls c = some (.ok (t.caches.get c))) :
    applyControls ptr controls t = (none, t) := by
  rw [applyControls, applyBlocks_of_settled ptr controls Control.all t fun c _ => hsettled c]

/-- Applying a map again right after a call that caught nothing does nothing. -/
theorem applyControls_again (ptr ptr' : ClientPtr) (controls : Option JMap) (t : ServiceState)
    (hcompleted : (applyControls ptr controls t).1 = none) :
    applyControls ptr' controls (applyControls ptr controls t).2 =
      (none, (applyControls ptr controls t).2) := by
  obtain ⟨calls, hspec⟩ := applyControls_spec ptr controls t
  rw [hcompleted] at hspec
  refine applyControls_of_settled ptr' controls _ fun c => ?_
  rcases hspec.applied_of_completed c with ⟨hnone, -⟩ | ⟨value, hvalue, hcache, -⟩
  · exact Or.inl hnone
  · exact Or.inr (by rw [hcache, hvalue])

end Telemetry
end Veos
