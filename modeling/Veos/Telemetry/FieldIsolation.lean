import Veos.Telemetry.ControlRuns

/-!
# What one control can do to another

The five blocks of `applyControls` share one `try` block.  A control is therefore
isolated from the controls behind it, and from those before it as long as none of them
throws; a value that is no number or a write that fails ends the call for every control
behind it.

The result of a call for one control (`Outcome`) is its cache and the set calls for its
property.  `applyBlocks_outcome` computes it from the control's own part of the input and
from whether the call reaches its block.
-/

namespace Veos
namespace Telemetry

open Java Vhal

/-- Which writes fail, by property. -/
abbrev FailurePattern := Key → Option VhalError

/-- The calls fail as the pattern says. -/
def Follows (failures : FailurePattern) (calls : List SetCall) : Prop :=
  ∀ call ∈ calls, call.error = failures call.key

/-- What a call leaves of one control: the cached value, and the set calls for its
property. -/
structure Outcome where
  cached : Int32
  sets : List SetCall
  deriving DecidableEq

/-- The set calls for one key. -/
def setsOf (key : Key) (calls : List SetCall) : List SetCall :=
  calls.filter fun call => call.key = key

theorem setsOf_append (key : Key) (calls calls' : List SetCall) :
    setsOf key (calls ++ calls') = setsOf key calls ++ setsOf key calls' :=
  List.filter_append ..

theorem setsOf_eq_nil {key : Key} {calls : List SetCall} (hkeys : ∀ call ∈ calls, call.key ≠ key) :
    setsOf key calls = [] := by
  apply List.filter_eq_nil_iff.2
  intro call hcall
  simpa using hkeys call hcall

/-- The outcome for `k` in a state `t'` reached with the set calls `calls`. -/
def outcome (k : Control) (t' : ServiceState) (calls : List SetCall) : Outcome :=
  ⟨t'.caches.get k, setsOf k.key calls⟩

section Blocks

variable (ptr : ClientPtr) (controls : Option JMap)

/-- The outcome of a block that is not reached. -/
def untouched (k : Control) (caches : Caches) : Outcome := ⟨caches.get k, []⟩

/-- The outcome of a block that runs: it depends on the control's own value, cache and
failure. -/
def ownOutcome (failures : FailurePattern) (k : Control) (caches : Caches) : Outcome :=
  match requested controls k with
  | some (.ok value) =>
      if value = caches.get k ∨ ptr = 0 then untouched k caches
      else
        ⟨if failures k.key = none then value else caches.get k,
          [⟨k.key, [value], failures k.key⟩]⟩
  -- an absent control and a value that is no number
  | _ => untouched k caches

/-- The block of `c` throws: its value is no number, or it has a write to make that
fails. -/
def Throws (failures : FailurePattern) (caches : Caches) (c : Control) : Prop :=
  match requested controls c with
  | none => False
  | some (.error _) => True
  | some (.ok value) => value ≠ caches.get c ∧ (ptr = 0 ∨ failures c.key ≠ none)

/-- No block of `cs` before that of `k` throws. -/
def Reaches (failures : FailurePattern) (caches : Caches) (cs : List Control)
    (k : Control) : Prop :=
  ∀ c ∈ cs.takeWhile (· ≠ k), ¬Throws ptr controls failures caches c

/-- One block: its own outcome, whether it ends the call, and no effect on the other
controls. -/
theorem applyControl_outcome (c : Control) (t : ServiceState) :
    ∃ calls, Extends t.vhal calls (applyControl ptr controls c t).2.vhal ∧
      (∀ call ∈ calls, call.key = c.key) ∧
      (∀ k, k ≠ c → (applyControl ptr controls c t).2.caches.get k = t.caches.get k) ∧
      ∀ failures, Follows failures calls →
        outcome c (applyControl ptr controls c t).2 calls =
          ownOutcome ptr controls failures c t.caches ∧
        (Throws ptr controls failures t.caches c ↔
          ∃ e, (applyControl ptr controls c t).1 = .error e) := by
  rw [applyControl_eq]
  have hidle : outcome c t [] = untouched c t.caches := rfl
  cases hrequested : requested controls c with
  | none =>
      refine ⟨[], Extends.refl _, by simp, fun _ _ => rfl, fun failures _ => ?_⟩
      simp [ownOutcome, Throws, hrequested, hidle]
  | some request =>
      cases request with
      | error e =>
          refine ⟨[], Extends.refl _, by simp, fun _ _ => rfl, fun failures _ => ?_⟩
          simp [ownOutcome, Throws, hrequested, hidle]
      | ok value =>
          by_cases hvalue : value = t.caches.get c
          · simp only [hvalue, if_true]
            refine ⟨[], Extends.refl _, by simp, fun _ _ => trivial, fun failures _ => ?_⟩
            simp [ownOutcome, Throws, hrequested, hvalue, hidle]
          · by_cases hptr : ptr = 0
            · simp only [hvalue, hptr, if_true, if_false]
              refine ⟨[], Extends.refl _, by simp, fun _ _ => trivial, fun failures _ => ?_⟩
              simp [ownOutcome, Throws, hrequested, hvalue, hidle]
            -- the block makes its set call, whose error is the one of the pattern
            · have hextends := Extends.set t.vhal c.key [value]
              have hown : ∀ error, setsOf c.key [⟨c.key, [value], error⟩] =
                  [⟨c.key, [value], error⟩] := fun error => by simp [setsOf]
              simp only [hvalue, hptr, if_false]
              cases herror : t.vhal.setFault t.vhal.sets.length with
              | none =>
                  rw [herror] at hextends
                  refine ⟨_, hextends, by simp, fun k hk => Caches.get_set_of_ne _ _ _ _ hk,
                    fun failures hfollows => ?_⟩
                  have hfailure : failures c.key = none :=
                    (hfollows _ (List.mem_singleton_self _)).symm
                  simp [ownOutcome, Throws, outcome, hrequested, hvalue, hptr, hfailure, hown]
              | some error =>
                  rw [herror] at hextends
                  refine ⟨_, hextends, by simp, fun _ _ => rfl, fun failures hfollows => ?_⟩
                  have hfailure : failures c.key = some error :=
                    (hfollows _ (List.mem_singleton_self _)).symm
                  simp [ownOutcome, Throws, outcome, hrequested, hvalue, hptr, hfailure, hown]

/-- A control behind the head of the list is reached if the head does not throw and it
is reached in the rest. -/
theorem reaches_cons_iff {failures : FailurePattern} {caches caches' : Caches} {c k : Control}
    {cs : List Control} (hk : k ≠ c)
    (hcaches : ∀ other ∈ cs, caches'.get other = caches.get other) :
    Reaches ptr controls failures caches (c :: cs) k ↔
      ¬Throws ptr controls failures caches c ∧ Reaches ptr controls failures caches' cs k := by
  have hsame : ∀ other ∈ cs, (Throws ptr controls failures caches' other ↔
      Throws ptr controls failures caches other) := by
    intro other hother
    simp only [Throws, hcaches other hother]
  have hne : (decide (c ≠ k)) = true := decide_eq_true fun heq => hk heq.symm
  simp only [Reaches, List.takeWhile_cons, hne, if_true, List.forall_mem_cons]
  refine and_congr_right fun _ => forall₂_congr fun other hother => not_congr ?_
  exact (hsame other ((List.takeWhile_prefix _).subset hother)).symm

/-- A run of blocks: a control has its own outcome if it is reached, and is untouched
otherwise. -/
theorem applyBlocks_outcome (cs : List Control) (hnodup : cs.Nodup) (t : ServiceState) :
    ∃ calls, Extends t.vhal calls (applyBlocks ptr controls cs t).2.vhal ∧
      (∀ k, k ∉ cs → outcome k (applyBlocks ptr controls cs t).2 calls = untouched k t.caches) ∧
      ∀ failures, Follows failures calls → ∀ k ∈ cs,
        (Reaches ptr controls failures t.caches cs k →
          outcome k (applyBlocks ptr controls cs t).2 calls =
            ownOutcome ptr controls failures k t.caches) ∧
        (¬Reaches ptr controls failures t.caches cs k →
          outcome k (applyBlocks ptr controls cs t).2 calls = untouched k t.caches) := by
  induction cs generalizing t with
  | nil => exact ⟨[], Extends.refl _, fun _ _ => rfl, fun _ _ k hk => absurd hk (by simp)⟩
  | cons c cs ih =>
      obtain ⟨hfresh, hnodup⟩ := List.nodup_cons.1 hnodup
      obtain ⟨calls, hextends, hkeys, hothers, hblock⟩ := applyControl_outcome ptr controls c t
      have hforeign : ∀ k, k ≠ c → setsOf k.key calls = [] := by
        intro k hk
        apply setsOf_eq_nil
        intro call hcall hkey
        exact hk (Control.key_injective (hkey.symm.trans (hkeys call hcall)))
      have hself : ∀ failures caches, Reaches ptr controls failures caches (c :: cs) c := by
        intro failures caches
        simp [Reaches]
      cases hresult : applyControl ptr controls c t with
      | mk result t' =>
          rw [hresult] at hextends hothers hblock
          cases result with
          | error e =>
              -- the call ends here: the controls behind are not reached
              have hrun : applyBlocks ptr controls (c :: cs) t = (.error e, t') := by
                simp [applyBlocks, hresult]
              rw [hrun]
              have houtcome : ∀ k, k ≠ c → outcome k t' calls = untouched k t.caches := by
                intro k hk
                rw [outcome, hforeign k hk, hothers k hk]
                rfl
              refine ⟨calls, hextends, fun k hk => houtcome k fun heq => hk (by simp [heq]), ?_⟩
              intro failures hfollows k hk
              obtain ⟨hown, hthrows⟩ := hblock failures hfollows
              by_cases hkc : k = c
              · subst hkc
                exact ⟨fun _ => hown, fun hnot => absurd (hself failures t.caches) hnot⟩
              · refine ⟨fun hreaches => ?_, fun _ => houtcome k hkc⟩
                have hthrow := hthrows.2 ⟨e, rfl⟩
                exact absurd hthrow (((reaches_cons_iff ptr controls hkc fun _ _ => rfl).1
                  hreaches).1)
          | ok _ =>
              obtain ⟨calls', hextends', huntouched, hrest⟩ := ih hnodup t'
              have hrun : applyBlocks ptr controls (c :: cs) t =
                  applyBlocks ptr controls cs t' := by
                simp [applyBlocks, hresult]
              rw [hrun]
              -- the rest of the run leaves this control alone, and this block the others
              have hlater : setsOf c.key calls' = [] ∧
                  (applyBlocks ptr controls cs t').2.caches.get c = t'.caches.get c := by
                have hc := huntouched c hfresh
                simp only [outcome, untouched, Outcome.mk.injEq] at hc
                exact ⟨hc.2, hc.1⟩
              have hsplit : ∀ k, k ≠ c → ∀ r : ServiceState,
                  outcome k r (calls ++ calls') = outcome k r calls' := by
                intro k hk r
                rw [outcome, setsOf_append, hforeign k hk, List.nil_append]
                rfl
              have hbefore : ∀ k, k ≠ c → untouched k t'.caches = untouched k t.caches := by
                intro k hk
                rw [untouched, untouched, hothers k hk]
              refine ⟨calls ++ calls', hextends.trans hextends', ?_, ?_⟩
              · intro k hk
                rw [List.mem_cons, not_or] at hk
                rw [hsplit k hk.1, huntouched k hk.2, hbefore k hk.1]
              · intro failures hfollows k hk
                have hfollowsHead : Follows failures calls := fun call hcall =>
                  hfollows call (List.mem_append_left calls' hcall)
                have hfollowsTail : Follows failures calls' := fun call hcall =>
                  hfollows call (List.mem_append_right calls hcall)
                obtain ⟨hown, hthrows⟩ := hblock failures hfollowsHead
                have hreturns : ¬Throws ptr controls failures t.caches c := fun hthrow => by
                  obtain ⟨e, he⟩ := hthrows.1 hthrow
                  cases he
                by_cases hkc : k = c
                · subst hkc
                  refine ⟨fun _ => ?_, fun hnot => absurd (hself failures t.caches) hnot⟩
                  rw [outcome, setsOf_append, hlater.1, List.append_nil, hlater.2]
                  exact hown
                · have hmem : k ∈ cs := (List.mem_cons.1 hk).resolve_left hkc
                  have hcaches : ∀ other ∈ cs, t'.caches.get other = t.caches.get other :=
                    fun other hother => hothers other fun heq => hfresh (heq ▸ hother)
                  have hreaches : Reaches ptr controls failures t.caches (c :: cs) k ↔
                      Reaches ptr controls failures t'.caches cs k := by
                    rw [reaches_cons_iff ptr controls hkc hcaches]
                    exact and_iff_right hreturns
                  obtain ⟨hreached, hnotReached⟩ := hrest failures hfollowsTail k hmem
                  have hownSame : ownOutcome ptr controls failures k t'.caches =
                      ownOutcome ptr controls failures k t.caches := by
                    simp only [ownOutcome, hbefore k hkc, hothers k hkc]
                  rw [hsplit k hkc, hreaches, ← hownSame, ← hbefore k hkc]
                  exact ⟨hreached, hnotReached⟩

end Blocks

/-! ## Two calls -/

/-- The set calls of a call of `applyControls`. -/
def callSets (ptr : ClientPtr) (controls : Option JMap) (t : ServiceState) : List SetCall :=
  (applyControls ptr controls t).2.vhal.setsSince t.vhal

/-- What a call of `applyControls` leaves of `k`. -/
def callOutcome (ptr : ClientPtr) (controls : Option JMap) (t : ServiceState) (k : Control) :
    Outcome :=
  outcome k (applyControls ptr controls t).2 (callSets ptr controls t)

/-- The call gets to the block of `k`. -/
def CallReaches (ptr : ClientPtr) (controls : Option JMap) (failures : FailurePattern)
    (caches : Caches) (k : Control) : Prop :=
  Reaches ptr controls failures caches Control.all k

theorem callOutcome_spec (ptr : ClientPtr) (controls : Option JMap) (failures : FailurePattern)
    (t : ServiceState) (hfollows : Follows failures (callSets ptr controls t)) (k : Control) :
    (CallReaches ptr controls failures t.caches k →
      callOutcome ptr controls t k = ownOutcome ptr controls failures k t.caches) ∧
    (¬CallReaches ptr controls failures t.caches k →
      callOutcome ptr controls t k = untouched k t.caches) := by
  obtain ⟨calls, hextends, -, hblocks⟩ :=
    applyBlocks_outcome ptr controls Control.all Control.all_nodup t
  have hsets : callSets ptr controls t = calls := by
    rw [callSets, applyControls_snd, hextends.setsSince]
  rw [hsets] at hfollows
  rw [callOutcome, hsets, applyControls_snd]
  exact hblocks failures hfollows k k.mem_all

/-! ## Every pattern occurs -/

/-- The state with another schedule of faults. -/
def withFaults (t : ServiceState) (faults : Nat → Option VhalError) : ServiceState :=
  { t with vhal.setFault := faults }

section Schedules

variable (ptr : ClientPtr) (controls : Option JMap) (failures : FailurePattern)

/-- Some schedule makes the calls of a run of blocks fail as the pattern says.  Only its
entries for calls to come count. -/
def Schedulable (cs : List Control) (t : ServiceState) : Prop :=
  ∃ faults : Nat → Option VhalError, ∀ faults' : Nat → Option VhalError,
    (∀ n, t.vhal.sets.length ≤ n → faults' n = faults n) →
      ∃ calls, Extends (withFaults t faults').vhal calls
          (applyBlocks ptr controls cs (withFaults t faults')).2.vhal ∧
        Follows failures calls

variable {ptr controls failures} {c : Control} {cs : List Control} {t : ServiceState}

/-- A block that does nothing leaves the schedule to the rest. -/
theorem Schedulable.of_idle
    (hblock : ∀ faults, applyControl ptr controls c (withFaults t faults) =
      (.ok (), withFaults t faults))
    (h : Schedulable ptr controls failures cs t) :
    Schedulable ptr controls failures (c :: cs) t := by
  obtain ⟨faults, hfaults⟩ := h
  refine ⟨faults, fun faults' hagree => ?_⟩
  rw [applyBlocks, hblock]
  exact hfaults faults' hagree

/-- A block that throws without a call needs no schedule. -/
theorem Schedulable.of_throws
    (hblock : ∀ faults, ∃ e, applyControl ptr controls c (withFaults t faults) =
      (.error e, withFaults t faults)) :
    Schedulable ptr controls failures (c :: cs) t := by
  refine ⟨fun _ => none, fun faults' _ => ⟨[], ?_, by simp [Follows]⟩⟩
  obtain ⟨e, he⟩ := hblock faults'
  rw [applyBlocks, he]
  exact Extends.refl _

/-- A block that makes a call takes its entry from the pattern, and the rest has its own. -/
theorem Schedulable.of_call {value : Int32} (hptr : ptr ≠ 0)
    (hrequested : requested controls c = some (.ok value)) (hvalue : value ≠ t.caches.get c)
    (h : ∀ t' : ServiceState, Schedulable ptr controls failures cs t') :
    Schedulable ptr controls failures (c :: cs) t := by
  -- the state behind the block if its write succeeds
  let after : ServiceState :=
    ⟨t.caches.set c value, ((withFaults t fun _ => none).vhal.setValueSync c.key [value]).2⟩
  obtain ⟨faults, hfaults⟩ := h after
  refine ⟨fun n => if n = t.vhal.sets.length then failures c.key else faults n,
    fun faults' hagree => ?_⟩
  have hentry : faults' t.vhal.sets.length = failures c.key := by
    simpa using hagree t.vhal.sets.length (Nat.le_refl _)
  have hset := Extends.set (withFaults t faults').vhal c.key [value]
  have hcached : value ≠ (withFaults t faults').caches.get c := hvalue
  rw [applyBlocks, applyControl_eq, hrequested]
  simp only [hcached, hptr, if_false]
  rw [show (withFaults t faults').vhal.setFault (withFaults t faults').vhal.sets.length =
    failures c.key from hentry] at hset ⊢
  cases hfailure : failures c.key with
  | some error =>
      rw [hfailure] at hset
      exact ⟨_, hset, by simp [Follows, hfailure]⟩
  | none =>
      rw [hfailure] at hset hentry
      have hlater : ∀ n, after.vhal.sets.length ≤ n → faults' n = faults n := by
        intro n hn
        have hbound : t.vhal.sets.length + 1 ≤ n := by
          simpa [after, withFaults, Service.setValueSync] using hn
        simpa [Nat.ne_of_gt hbound] using hagree n (Nat.le_of_lt hbound)
      obtain ⟨calls, hextends, hfollows⟩ := hfaults faults' hlater
      have hafter : withFaults after faults' =
          ⟨t.caches.set c value,
            ((withFaults t faults').vhal.setValueSync c.key [value]).2⟩ := by
        simp [after, withFaults, Service.setValueSync, hentry]
      rw [hafter] at hextends
      refine ⟨_, hset.trans hextends, ?_⟩
      rw [Follows, List.forall_mem_append]
      exact ⟨by simp [hfailure], hfollows⟩

theorem schedulable (ptr : ClientPtr) (controls : Option JMap) (failures : FailurePattern)
    (cs : List Control) (t : ServiceState) : Schedulable ptr controls failures cs t := by
  induction cs generalizing t with
  | nil => exact ⟨fun _ => none, fun faults' _ => ⟨[], Extends.refl _, by simp [Follows]⟩⟩
  | cons c cs ih =>
      cases hrequested : requested controls c with
      | none => exact (ih t).of_idle fun faults => by rw [applyControl_eq, hrequested]
      | some request =>
          cases request with
          | error e =>
              exact .of_throws fun faults => ⟨e, by rw [applyControl_eq, hrequested]⟩
          | ok value =>
              by_cases hvalue : value = t.caches.get c
              · refine (ih t).of_idle fun faults => ?_
                rw [applyControl_eq, hrequested]
                simp [withFaults, hvalue]
              · by_cases hptr : ptr = 0
                · refine .of_throws fun faults => ⟨VhalNative.notInitialized, ?_⟩
                  rw [applyControl_eq, hrequested]
                  simp [withFaults, hvalue, hptr]
                · exact .of_call hptr hrequested hvalue ih

end Schedules

/-- For every pattern there is a VHAL on which the call's writes fail as the pattern
says. -/
theorem exists_follows (ptr : ClientPtr) (controls : Option JMap) (failures : FailurePattern)
    (caches : Caches) (store : Store) :
    ∃ v : Service, v.store = store ∧ Follows failures (callSets ptr controls ⟨caches, v⟩) := by
  let t : ServiceState := ⟨caches, .fresh store⟩
  obtain ⟨faults, hfaults⟩ := schedulable ptr controls failures Control.all t
  obtain ⟨calls, hextends, hfollows⟩ := hfaults faults fun _ _ => rfl
  refine ⟨(withFaults t faults).vhal, rfl, ?_⟩
  rw [callSets, applyControls_snd]
  exact hextends.setsSince ▸ hfollows

/-- Without faults no write fails. -/
theorem follows_of_faultless (ptr : ClientPtr) (controls : Option JMap) {t : ServiceState}
    (hv : t.vhal.Faultless) : Follows (fun _ => none) (callSets ptr controls t) := by
  obtain ⟨calls, hspec⟩ := applyControls_spec ptr controls t
  intro call hcall
  rw [callSets, hspec.extends_vhal.setsSince] at hcall
  exact hspec.extends_vhal.error_eq_none hv hcall

/-- The speed is the first control and is always reached. -/
theorem callReaches_speed (ptr : ClientPtr) (controls : Option JMap) (failures : FailurePattern)
    (caches : Caches) : CallReaches ptr controls failures caches .speed := by
  simp [CallReaches, Reaches, Control.all]

/-- Every control is reached if the map holds numbers and no write fails. -/
theorem callReaches_of_numeric {ptr : ClientPtr} (hptr : ptr ≠ 0) {controls : Option JMap}
    (hnumeric : ∀ c e, requested controls c ≠ some (.error e)) (caches : Caches) (k : Control) :
    CallReaches ptr controls (fun _ => none) caches k := by
  intro c _ hthrows
  unfold Throws at hthrows
  split at hthrows
  · exact hthrows
  · rename_i e herror
    exact hnumeric c e herror
  · exact hthrows.2.elim hptr fun hfails => hfails rfl

/-- **Isolation of the controls.**  Let two calls start from the same caches and agree on a
control: their maps hold the same under its name, and writes to its property fail alike.
A call that reaches the block of the control leaves there what the control's own value,
cache and failure say, and a call that does not reach it leaves the control as it was.
So the two calls do the same for the control exactly when both reach its block or neither
does, or the block has nothing to write. -/
theorem callOutcome_eq_iff (ptr : ClientPtr) (caches : Caches) (m m' : JMap) (v v' : Service)
    (failures failures' : FailurePattern)
    (hfollows : Follows failures (callSets ptr (some m) ⟨caches, v⟩))
    (hfollows' : Follows failures' (callSets ptr (some m') ⟨caches, v'⟩)) (k : Control)
    (hvalue : m.lookup k.name = m'.lookup k.name)
    (hfailure : failures k.key = failures' k.key) :
    let own := ownOutcome ptr (some m) failures k caches
    (CallReaches ptr (some m) failures caches k →
      callOutcome ptr (some m) ⟨caches, v⟩ k = own) ∧
    (¬CallReaches ptr (some m) failures caches k →
      callOutcome ptr (some m) ⟨caches, v⟩ k = untouched k caches) ∧
    (callOutcome ptr (some m) ⟨caches, v⟩ k = callOutcome ptr (some m') ⟨caches, v'⟩ k ↔
      (CallReaches ptr (some m) failures caches k ↔
        CallReaches ptr (some m') failures' caches k) ∨ own = untouched k caches) := by
  intro own
  obtain ⟨hreached, hunreached⟩ := callOutcome_spec ptr (some m) failures ⟨caches, v⟩ hfollows k
  obtain ⟨hreached', hunreached'⟩ :=
    callOutcome_spec ptr (some m') failures' ⟨caches, v'⟩ hfollows' k
  -- the own part of the input is the same for both calls
  have hown : ownOutcome ptr (some m') failures' k caches = own := by
    simp only [own, ownOutcome, requested, hvalue, hfailure]
  rw [hown] at hreached'
  refine ⟨hreached, hunreached, ?_⟩
  by_cases hfirst : CallReaches ptr (some m) failures caches k
  · rw [hreached hfirst]
    by_cases hsecond : CallReaches ptr (some m') failures' caches k
    · rw [hreached' hsecond]
      exact iff_of_true rfl (Or.inl (iff_of_true hfirst hsecond))
    · rw [hunreached' hsecond]
      simp [own, hfirst, hsecond]
  · rw [hunreached hfirst]
    by_cases hsecond : CallReaches ptr (some m') failures' caches k
    · rw [hreached' hsecond]
      simp [own, hfirst, hsecond, eq_comm]
    · rw [hunreached' hsecond]
      exact iff_of_true rfl (Or.inl (iff_of_false hfirst hsecond))

/-- A battery level of 90, alone, with a speed, and with a speed that is no number. -/
def batteryOnly : JMap := [("veos_ev_battery_level", .number (.double (.finite 90)))]

def withSpeed (speed : JObject) : JMap := ("veos_perf_vehicle_speed", speed) :: batteryOnly

/-- A malformed speed keeps the battery level from being applied, and so does a speed whose
write fails. -/
theorem speed_suppresses_battery :
    let v : Service := .fresh fun _ => []
    let failing : Service :=
      { v with setFault := fun n => if n = 0 then some ⟨.TIMEOUT, by decide⟩ else none }
    let good : JObject := .number (.double (.finite 5))
    callOutcome 1 (some batteryOnly) ⟨{}, v⟩ .battery =
        ⟨90, [⟨Control.battery.key, [90], none⟩]⟩ ∧
    callOutcome 1 (some (withSpeed (.string "fast"))) ⟨{}, v⟩ .battery = ⟨100, []⟩ ∧
    callOutcome 1 (some (withSpeed good)) ⟨{}, v⟩ .battery =
        ⟨90, [⟨Control.battery.key, [90], none⟩]⟩ ∧
    callOutcome 1 (some (withSpeed good)) ⟨{}, failing⟩ .battery = ⟨100, []⟩ := by
  decide

/-- A speed that can be applied does not disturb the battery level. -/
theorem speed_spares_battery :
    callOutcome 1 (some batteryOnly) ⟨{}, .fresh fun _ => []⟩ .battery =
      callOutcome 1 (some (withSpeed (.number (.double (.finite 5)))))
        ⟨{}, .fresh fun _ => []⟩ .battery := by
  have hptr : (1 : ClientPtr) ≠ 0 := by decide
  have hv : Service.Faultless (.fresh fun _ => []) := Service.fresh_faultless _
  refine (callOutcome_eq_iff 1 {} batteryOnly (withSpeed (.number (.double (.finite 5))))
    (.fresh fun _ => []) (.fresh fun _ => []) (fun _ => none) (fun _ => none)
    (follows_of_faultless 1 _ hv) (follows_of_faultless 1 _ hv) .battery rfl rfl).2.2.2
    (Or.inl (iff_of_true ?_ ?_))
  · exact callReaches_of_numeric hptr (fun c e herror => by cases c <;> cases herror) {} .battery
  · exact callReaches_of_numeric hptr (fun c e herror => by cases c <;> cases herror) {} .battery

end Telemetry
end Veos
