import Veos.Library.CallPrograms

/-!
# Programs with a bound on their calls

`AtMost n` bounds the calls of a program by `n`, whatever they are answered.  If each event
starts a program with a bound, a process makes no more calls in a run than its events
allow it (`run_turns_le`), and it gets to the end of a program by its own turns, whatever
the others do in between (`run_returns`).
-/

namespace CallPrograms

section Bounds

variable {Call : Type} {Answer : Call → Type} {α β : Type}

namespace Program

/-- The program makes at most so many calls. -/
def AtMost : Program Call Answer α → Nat → Prop
  | .ret _, _ => True
  | .call _ next, n => ∃ m, n = m + 1 ∧ ∀ answer, (next answer).AtMost m

theorem AtMost.mono {p : Program Call Answer α} {n m : Nat} (h : p.AtMost n) (hle : n ≤ m) :
    p.AtMost m := by
  induction p generalizing n m with
  | ret a => trivial
  | call c next ih =>
      obtain ⟨k, rfl, hnext⟩ := h
      exact ⟨m - 1, by omega, fun answer => ih answer (hnext answer) (by omega)⟩

theorem AtMost.bind {p : Program Call Answer α} {f : α → Program Call Answer β} {n m : Nat}
    (hp : p.AtMost n) (hf : ∀ a, (f a).AtMost m) : (p >>= f).AtMost (n + m) := by
  induction p generalizing n with
  | ret a => exact (hf a).mono (Nat.le_add_left m n)
  | call c next ih =>
      obtain ⟨k, rfl, hnext⟩ := hp
      exact ⟨k + m, by omega, fun answer => ih answer (hnext answer)⟩

/-- One call with no call after it. -/
theorem atMost_one (c : Call) (f : Answer c → α) :
    (Program.call c fun answer => .ret (f answer)).AtMost 1 :=
  ⟨0, rfl, fun _ => trivial⟩

end Program

/-- The calls that the process has before it. -/
def Process.AtMost {L : Type} : Process Call Answer L → Nat → Prop
  | .working c next, n => (Program.call c next).AtMost n
  | _, _ => True

theorem Process.atMost_ofProgram {L : Type} {p : Program Call Answer (Option L)} {n : Nat}
    (h : p.AtMost n) : (Process.ofProgram p).AtMost n := by
  match p with
  | .ret (some l) => trivial
  | .ret none => trivial
  | .call c next => exact h

/-- The process is not in a program. -/
def Process.Returned {L : Type} (process : Process Call Answer L) : Prop :=
  ∀ c next, process ≠ .working c next

end Bounds

/-! ## Runs -/

variable {ι : Type} [DecidableEq ι] {Call : Type} {Answer : Call → Type} {Local Event : ι → Type}
  {σ : Type}

def Action.isTurn (i : ι) : Action Local Event → Bool
  | .turn j => j = i
  | _ => false

/-- What an action allows the process, if `cost` says what each event does. -/
def Action.allowed (cost : (i : ι) → Event i → Nat) (i : ι) : Action Local Event → Nat
  | .start j event => if j = i then cost j event else 0
  | _ => 0

/-- The turns of a process. -/
def turns (i : ι) (actions : List (Action Local Event)) : Nat :=
  actions.countP (Action.isTurn i)

/-- What the events of a process allow it. -/
def allowance (cost : (i : ι) → Event i → Nat) (i : ι) : List (Action Local Event) → Nat
  | [] => 0
  | action :: actions => action.allowed cost i + allowance cost i actions

theorem turns_append (i : ι) (actions actions' : List (Action Local Event)) :
    turns i (actions ++ actions') = turns i actions + turns i actions' :=
  List.countP_append

theorem allowance_append (cost : (i : ι) → Event i → Nat) (i : ι)
    (actions actions' : List (Action Local Event)) :
    allowance cost i (actions ++ actions') =
      allowance cost i actions + allowance cost i actions' := by
  induction actions with
  | nil => simp [allowance]
  | cons action actions ih =>
      simp only [List.cons_append, allowance, ih]
      omega

theorem turns_singleton_self (i : ι) : turns i [(Action.turn i : Action Local Event)] = 1 := by
  simp [turns, Action.isTurn]

theorem turns_singleton_of_ne {i : ι} {action : Action Local Event} (hne : action.process ≠ i) :
    turns i [action] = 0 := by
  cases action with
  | turn j => simpa [turns, Action.isTurn, Action.process] using hne
  | _ => rfl

section

variable {handler : (i : ι) → Local i → Event i → Option (Program Call Answer (Option (Local i)))}
  {serve : (c : Call) → σ → Answer c × σ}

/-- The rule for bounds.  A process never makes more calls than its events allow, counting
those that it has before it, and those are never more than `most`. -/
theorem run_turns_le {i : ι} {cost : (i : ι) → Event i → Nat} {most : Nat}
    (hcost : ∀ l event program, handler i l event = some program → program.AtMost (cost i event))
    (hmost : ∀ event, cost i event ≤ most) {actions : List (Action Local Event)}
    {st st' : State Answer Local σ} (hidle : st.Idle)
    (hrun : run handler serve actions st = some st') :
    ∃ left, (st'.processes i).AtMost left ∧ left ≤ most ∧
      turns i actions + left ≤ allowance cost i actions := by
  apply run_rely (P := fun _ => True)
    (fun past process _ => ∃ left, process.AtMost left ∧ left ≤ most ∧
      turns i past + left ≤ allowance cost i past)
    ?_ ?_ ?_ ?_ ?_ (fun j event _ _ l program _ => program.calls_true) (hidle.calls _ _) ?_ hrun
  · rintro past l process s - ⟨left, -, -, hle⟩
    refine ⟨0, trivial, Nat.zero_le _, ?_⟩
    simp only [turns_append, allowance_append]
    have hturns : turns i [(Action.launch i l : Action Local Event)] = 0 := rfl
    omega
  · rintro past l s event program hprogram ⟨left, -, -, hle⟩
    refine ⟨cost i event, Process.atMost_ofProgram (hcost l event program hprogram),
      hmost event, ?_⟩
    have hturns : turns i [(Action.start i event : Action Local Event)] = 0 := rfl
    have hallowed : allowance cost i [(Action.start i event : Action Local Event)] =
        cost i event := by simp [allowance, Action.allowed]
    rw [turns_append, allowance_append, hturns, hallowed]
    omega
  · rintro past c next s ⟨left, ⟨k, rfl, hnext⟩, hleft, hle⟩
    refine ⟨k, Process.atMost_ofProgram (hnext _), by omega, ?_⟩
    rw [turns_append, allowance_append, turns_singleton_self]
    omega
  · rintro past action process s hne ⟨left, hbound, hleft, hle⟩
    refine ⟨left, hbound, hleft, ?_⟩
    rw [turns_append, allowance_append, turns_singleton_of_ne hne]
    omega
  · exact fun past c process s _ h => h
  · obtain ⟨l, hl⟩ := hidle i
    rw [hl]
    exact ⟨0, trivial, Nat.zero_le _, Nat.le_refl _⟩

/-- A process with a bound returns after so many of its turns, whatever comes between
them. -/
theorem run_returns {i : ι} {n : Nat} {actions : List (Action Local Event)}
    {st st' : State Answer Local σ} (hbound : (st.processes i).AtMost n)
    (hturns : n ≤ turns i actions) (hrun : run handler serve actions st = some st') :
    ∃ before after between, actions = before ++ after ∧
      run handler serve before st = some between ∧ (between.processes i).Returned := by
  induction actions generalizing n st with
  | nil =>
      refine ⟨[], [], st, rfl, rfl, fun c next hworking => ?_⟩
      rw [hworking] at hbound
      obtain ⟨k, rfl, -⟩ := hbound
      exact absurd hturns (Nat.not_succ_le_zero k)
  | cons action actions ih =>
      obtain ⟨mid, hstep, hrest⟩ := Option.bind_eq_some_iff.1 hrun
      rw [← List.singleton_append, turns_append] at hturns
      have hcontinue : ∀ m, (mid.processes i).AtMost m → m ≤ turns i actions →
          ∃ before after between, action :: actions = before ++ after ∧
            run handler serve before st = some between ∧ (between.processes i).Returned := by
        intro m hmid hm
        obtain ⟨before, after, between, rfl, hbefore, hreturned⟩ := ih hmid hm hrest
        refine ⟨action :: before, after, between, rfl, ?_, hreturned⟩
        rw [run, PartialRuns.run_cons, hstep]
        exact hbefore
      by_cases hi : action.process = i
      · cases action with
        | launch j l =>
            obtain rfl : j = i := hi
            obtain rfl := Option.some.inj hstep
            refine ⟨[.launch j l], actions, _, rfl, rfl, fun c next hworking => ?_⟩
            rw [State.set_processes_self] at hworking
            cases hworking
        | start j event =>
            -- a process takes an event only when it waits
            obtain rfl : j = i := hi
            obtain ⟨l, program, hwaiting, -, -⟩ := step_start hstep
            refine ⟨[], _, st, rfl, rfl, fun c next hworking => ?_⟩
            rw [hwaiting] at hworking
            cases hworking
        | turn j =>
            obtain rfl : j = i := hi
            obtain ⟨c, next, hworking, rfl⟩ := step_turn hstep
            rw [hworking] at hbound
            obtain ⟨k, rfl, hnext⟩ := hbound
            rw [turns_singleton_self] at hturns
            refine hcontinue k ?_ (by omega)
            rw [State.set_processes_self]
            exact Process.atMost_ofProgram (hnext _)
      · rw [turns_singleton_of_ne hi, Nat.zero_add] at hturns
        refine hcontinue n ?_ hturns
        rw [step_processes_of_ne hi hstep]
        exact hbound

end

end CallPrograms
