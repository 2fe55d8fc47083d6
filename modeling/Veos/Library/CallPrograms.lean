import Mathlib.Data.List.Basic
import Mathlib.Logic.Function.Basic
import Veos.Library.PartialRuns

/-!
# Programs that call a shared service

A `Program` returns, or makes a call and goes on with the answer.  Processes run such
programs against one service: a process that waits takes an event, its handler says which
program that starts, and from then on each of its turns makes one call, while any other
process may make calls in between.  A process can be replaced by a new one at any time,
also in the middle of a program.

Three rules are proved.  What every call of every program preserves holds of the service
in every run (`run_invariant`).  A program that is not interrupted does what `Program.run`
does (`run_uninterrupted`).  Processes whose calls do not show can be taken out of a run
(`erase`).
-/

namespace CallPrograms

/-- A program with results in `α`. -/
inductive Program (Call : Type) (Answer : Call → Type) (α : Type)
  | ret (a : α)
  | call (c : Call) (next : Answer c → Program Call Answer α)

namespace Program

variable {Call : Type} {Answer : Call → Type} {α β σ : Type}

def bind : Program Call Answer α → (α → Program Call Answer β) → Program Call Answer β
  | .ret a, f => f a
  | .call c next, f => .call c fun answer => (next answer).bind f

instance : Monad (Program Call Answer) where
  pure := .ret
  bind := .bind

/-- The program, made by one process alone. -/
def run (serve : (c : Call) → σ → Answer c × σ) : Program Call Answer α → σ → α × σ
  | .ret a, s => (a, s)
  | .call c next, s => (next (serve c s).1).run serve (serve c s).2

@[simp] theorem run_bind (serve : (c : Call) → σ → Answer c × σ) (p : Program Call Answer α)
    (f : α → Program Call Answer β) (s : σ) :
    (p >>= f).run serve s = (f (p.run serve s).1).run serve (p.run serve s).2 := by
  induction p generalizing s with
  | ret a => rfl
  | call c next ih => exact ih (serve c s).1 (serve c s).2

/-- The calls that the program makes, alone, each with its answer. -/
def trace (serve : (c : Call) → σ → Answer c × σ) :
    Program Call Answer α → σ → List ((c : Call) × Answer c)
  | .ret _, _ => []
  | .call c next, s => ⟨c, (serve c s).1⟩ :: (next (serve c s).1).trace serve (serve c s).2

/-- Every call that the program can come to, whatever it is answered, is in `P`. -/
def Calls (P : Call → Prop) : Program Call Answer α → Prop
  | .ret _ => True
  | .call c next => P c ∧ ∀ answer, (next answer).Calls P

theorem Calls.bind {P : Call → Prop} {p : Program Call Answer α}
    {f : α → Program Call Answer β} (hp : p.Calls P) (hf : ∀ a, (f a).Calls P) :
    (p >>= f).Calls P := by
  induction p with
  | ret a => exact hf a
  | call c next ih => exact ⟨hp.1, fun answer => ih answer (hp.2 answer)⟩

theorem Calls.mono {P Q : Call → Prop} (hPQ : ∀ c, P c → Q c) {p : Program Call Answer α}
    (hp : p.Calls P) : p.Calls Q := by
  induction p with
  | ret a => trivial
  | call c next ih => exact ⟨hPQ c hp.1, fun answer => ih answer (hp.2 answer)⟩

theorem calls_true (p : Program Call Answer α) : p.Calls fun _ => True := by
  induction p with
  | ret a => trivial
  | call c next ih => exact ⟨trivial, ih⟩

end Program

/-! ## Processes -/

/-- A process with local states in `L`.  A program that returns no local state ends it. -/
inductive Process (Call : Type) (Answer : Call → Type) (L : Type)
  | waiting (l : L)
  | working (c : Call) (next : Answer c → Program Call Answer (Option L))
  | ended

namespace Process

variable {Call : Type} {Answer : Call → Type} {L : Type}

/-- The process that has a program before it. -/
def ofProgram : Program Call Answer (Option L) → Process Call Answer L
  | .ret (some l) => .waiting l
  | .ret none => .ended
  | .call c next => .working c next

/-- Every call that the process can come to is in `P`. -/
def Calls (P : Call → Prop) : Process Call Answer L → Prop
  | .working c next => P c ∧ ∀ answer, (next answer).Calls P
  | _ => True

theorem calls_ofProgram {P : Call → Prop} {p : Program Call Answer (Option L)}
    (hp : p.Calls P) : (ofProgram p).Calls P := by
  match p with
  | .ret (some l) => trivial
  | .ret none => trivial
  | .call c next => exact hp

end Process

variable {ι : Type} [DecidableEq ι] {Call : Type} {Answer : Call → Type} {Local Event : ι → Type}
  {σ : Type}

/-- The processes and the service that they share. -/
@[ext]
structure State (Answer : Call → Type) (Local : ι → Type) (σ : Type) where
  processes : (i : ι) → Process Call Answer (Local i)
  service : σ

namespace State

/-- Replace one process. -/
def set (st : State Answer Local σ) (i : ι) (process : Process Call Answer (Local i)) :
    State Answer Local σ :=
  { st with processes := Function.update st.processes i process }

@[simp] theorem set_processes_self (st : State Answer Local σ) (i : ι)
    (process : Process Call Answer (Local i)) : (st.set i process).processes i = process := by
  simp [set]

theorem set_processes_of_ne (st : State Answer Local σ) {i j : ι}
    (process : Process Call Answer (Local i)) (hne : j ≠ i) :
    (st.set i process).processes j = st.processes j := by
  simp [set, hne]

/-- Every call that a process among `who` can come to is in `P`. -/
def Calls (who : ι → Prop) (P : Call → Prop) (st : State Answer Local σ) : Prop :=
  ∀ i, who i → (st.processes i).Calls P

/-- Every process waits. -/
def Idle (st : State Answer Local σ) : Prop := ∀ i, ∃ l, st.processes i = .waiting l

omit [DecidableEq ι] in
theorem Idle.calls {st : State Answer Local σ} (h : st.Idle) (who : ι → Prop) (P : Call → Prop) :
    st.Calls who P := by
  intro i _
  obtain ⟨l, hl⟩ := h i
  rw [hl]
  trivial

omit [DecidableEq ι] in
theorem calls_true (st : State Answer Local σ) (who : ι → Prop) :
    st.Calls who fun _ => True := by
  intro i _
  cases st.processes i with
  | working c next => exact ⟨trivial, fun answer => (next answer).calls_true⟩
  | _ => trivial

omit [DecidableEq ι] in
theorem Calls.answered {who : ι → Prop} {P : Call → Prop} {st : State Answer Local σ}
    (h : st.Calls who P) (service : σ) : State.Calls who P { st with service := service } := h

theorem Calls.set {who : ι → Prop} {P : Call → Prop} {st : State Answer Local σ}
    (h : st.Calls who P) {i : ι} {process : Process Call Answer (Local i)}
    (hprocess : who i → process.Calls P) : (st.set i process).Calls who P := by
  intro j hwho
  by_cases hj : j = i
  · subst hj
    rw [set_processes_self]
    exact hprocess hwho
  · rw [set_processes_of_ne st process hj]
    exact h j hwho

end State

/-- What can happen to one of the processes. -/
inductive Action (Local Event : ι → Type)
  /-- A new process takes the place of the old one. -/
  | launch (i : ι) (l : Local i)
  | start (i : ι) (event : Event i)
  /-- A call, or the last one and with it the end of the program. -/
  | turn (i : ι)

/-- The process that an action is about. -/
def Action.process : Action Local Event → ι
  | .launch i _ => i
  | .start i _ => i
  | .turn i => i

/-- The event that an action starts, with its process. -/
def Action.event : Action Local Event → Option ((i : ι) × Event i)
  | .start i event => some ⟨i, event⟩
  | _ => none

omit [DecidableEq ι] in
theorem filterMap_event_turns (i : ι) (turns : Nat) :
    (List.replicate turns (Action.turn i : Action Local Event)).filterMap Action.event = [] := by
  induction turns with
  | zero => rfl
  | succ turns ih => exact ih

omit [DecidableEq ι] in
theorem filterMap_event_filter (shown : ι → Bool) (actions : List (Action Local Event)) :
    (actions.filter fun action => shown action.process).filterMap Action.event =
      (actions.filterMap Action.event).filter fun e => shown e.1 := by
  induction actions with
  | nil => rfl
  | cons action actions ih =>
      have hevent : ∀ e, action.event = some e → e.1 = action.process := by
        rintro e he
        cases action <;> cases he
        rfl
      rw [List.filter_cons, List.filterMap_cons]
      cases haction : action.event with
      | none => cases hshown : shown action.process <;> simp [haction, ih]
      | some e =>
          cases hshown : shown action.process <;>
            simp [haction, hevent e haction, hshown, ih]

/-- The events of a sequence of actions. -/
def Started (actions : List (Action Local Event)) (i : ι) (event : Event i) : Prop :=
  .start i event ∈ actions

section Runs

variable (handler : (i : ι) → Local i → Event i → Option (Program Call Answer (Option (Local i))))
  (serve : (c : Call) → σ → Answer c × σ)

/-- One action.  A process that is working takes no event, one that is not makes no call,
and an event that its handler does not admit is not taken. -/
def step (st : State Answer Local σ) : Action Local Event → Option (State Answer Local σ)
  | .launch i l => some (st.set i (.waiting l))
  | .start i event =>
      match st.processes i with
      | .waiting l => (handler i l event).map fun program => st.set i (.ofProgram program)
      | _ => none
  | .turn i =>
      match st.processes i with
      | .working c next =>
          let (answer, service) := serve c st.service
          some ({ st with service := service }.set i (.ofProgram (next answer)))
      | _ => none

/-- A sequence of actions. -/
def run (actions : List (Action Local Event)) (st : State Answer Local σ) :
    Option (State Answer Local σ) :=
  PartialRuns.run (step handler serve) actions st

variable {handler serve}

theorem step_start {st st' : State Answer Local σ} {i : ι} {event : Event i}
    (h : step handler serve st (.start i event) = some st') :
    ∃ l program, st.processes i = .waiting l ∧ handler i l event = some program ∧
      st' = st.set i (.ofProgram program) := by
  simp only [step] at h
  split at h
  · rename_i l hl
    obtain ⟨program, hprogram, rfl⟩ := Option.map_eq_some_iff.1 h
    exact ⟨l, program, hl, hprogram, rfl⟩
  · cases h

theorem step_turn {st st' : State Answer Local σ} {i : ι}
    (h : step handler serve st (.turn i) = some st') :
    ∃ c next, st.processes i = .working c next ∧
      st' = { st with service := (serve c st.service).2 }.set i
        (.ofProgram (next (serve c st.service).1)) := by
  simp only [step] at h
  split at h
  · rename_i c next hworking
    exact ⟨c, next, hworking, (Option.some.inj h).symm⟩
  · cases h

/-! ## What every call preserves -/

/-- The programs that an event can start make no calls but those in `P`. -/
def StartsCalls (handler : (i : ι) → Local i → Event i →
      Option (Program Call Answer (Option (Local i)))) (P : Call → Prop) (i : ι)
    (event : Event i) : Prop :=
  ∀ l program, handler i l event = some program → program.Calls P

theorem step_calls {who : ι → Prop} {P : Call → Prop} {st st' : State Answer Local σ}
    {action : Action Local Event} (h : st.Calls who P)
    (haction : ∀ i event, who i → action = .start i event → StartsCalls handler P i event)
    (hstep : step handler serve st action = some st') : st'.Calls who P := by
  cases action with
  | launch i l =>
      obtain rfl := Option.some.inj hstep
      exact h.set fun _ => trivial
  | start i event =>
      obtain ⟨l, program, -, hprogram, rfl⟩ := step_start hstep
      exact h.set fun hwho =>
        Process.calls_ofProgram (haction i event hwho rfl l program hprogram)
  | turn i =>
      obtain ⟨c, next, hworking, rfl⟩ := step_turn hstep
      refine (h.answered _).set fun hwho => ?_
      have hcalls := h i hwho
      rw [hworking] at hcalls
      exact Process.calls_ofProgram (hcalls.2 _)

/-- The invariant rule: what every call in `P` preserves holds of the service after a run
whose programs make only such calls, however their calls are interleaved. -/
theorem run_invariant {P : Call → Prop} {Inv : σ → Prop}
    (hserve : ∀ c s, P c → Inv s → Inv (serve c s).2) {actions : List (Action Local Event)}
    (hactions : ∀ i event, Started actions i event → StartsCalls handler P i event)
    {st st' : State Answer Local σ} (hst : st.Calls (fun _ => True) P) (hinv : Inv st.service)
    (hrun : run handler serve actions st = some st') : Inv st'.service := by
  have hboth : st'.Calls (fun _ => True) P ∧ Inv st'.service := by
    apply PartialRuns.invariant_of_forall
      (fun action => ∀ i event, action = .start i event → StartsCalls handler P i event)
      ?_ ?_ ⟨hst, hinv⟩ hrun
    · rintro st action st' ⟨hcalls, hinv⟩ haction hstep
      refine ⟨step_calls hcalls (fun i event _ => haction i event) hstep, ?_⟩
      cases action with
      | launch i l =>
          obtain rfl := Option.some.inj hstep
          exact hinv
      | start i event =>
          obtain ⟨l, program, -, -, rfl⟩ := step_start hstep
          exact hinv
      | turn i =>
          obtain ⟨c, next, hworking, rfl⟩ := step_turn hstep
          have hcall := hcalls i trivial
          rw [hworking] at hcall
          exact hserve c st.service hcall.1 hinv
    · rintro action hmem i event rfl
      exact hactions i event hmem
  exact hboth.2

/-! ## What one process keeps up -/

theorem step_processes_of_ne {st st' : State Answer Local σ} {action : Action Local Event} {i : ι}
    (hi : action.process ≠ i) (hstep : step handler serve st action = some st') :
    st'.processes i = st.processes i := by
  cases action with
  | launch j l =>
      obtain rfl := Option.some.inj hstep
      exact State.set_processes_of_ne _ _ (Ne.symm hi)
  | start j event =>
      obtain ⟨l, program, -, -, rfl⟩ := step_start hstep
      exact State.set_processes_of_ne _ _ (Ne.symm hi)
  | turn j =>
      obtain ⟨c, next, -, rfl⟩ := step_turn hstep
      exact State.set_processes_of_ne _ _ (Ne.symm hi)

theorem run_processes_of_ne {st st' : State Answer Local σ} {actions : List (Action Local Event)}
    {i : ι} (hactions : ∀ action ∈ actions, action.process ≠ i)
    (hrun : run handler serve actions st = some st') : st'.processes i = st.processes i := by
  induction actions generalizing st with
  | nil =>
      obtain rfl := Option.some.inj hrun
      rfl
  | cons action actions ih =>
      obtain ⟨between, hstep, hrest⟩ := Option.bind_eq_some_iff.1 hrun
      have hlater :=
        ih (fun other hother => hactions other (List.mem_cons_of_mem action hother)) hrest
      exact hlater.trans (step_processes_of_ne (hactions action List.mem_cons_self) hstep)

/-- The rely rule, for a property of the actions so far, of one process and of the service.
The process establishes it at each of its own steps and whenever it is launched anew, and
relies on the others to make only calls in `P`, which preserve it. -/
theorem run_rely {i : ι} {P : Call → Prop}
    (Inv : List (Action Local Event) → Process Call Answer (Local i) → σ → Prop)
    {actions : List (Action Local Event)}
    (hlaunch : ∀ past l process s, .launch i l ∈ actions → Inv past process s →
      Inv (past ++ [.launch i l]) (.waiting l) s)
    (hstart : ∀ past l s event program, handler i l event = some program →
      Inv past (.waiting l) s → Inv (past ++ [.start i event]) (.ofProgram program) s)
    (hturn : ∀ past c next s, Inv past (.working c next) s →
      Inv (past ++ [.turn i]) (.ofProgram (next (serve c s).1)) (serve c s).2)
    (hothers : ∀ past action process s, action.process ≠ i → Inv past process s →
      Inv (past ++ [action]) process s)
    (hrely : ∀ past c process s, P c → Inv past process s → Inv past process (serve c s).2)
    (hactions : ∀ j event, j ≠ i → Started actions j event → StartsCalls handler P j event)
    {st st' : State Answer Local σ} (hcalls : st.Calls (fun j => j ≠ i) P)
    (hinv : Inv [] (st.processes i) st.service) (hrun : run handler serve actions st = some st') :
    Inv actions (st'.processes i) st'.service := by
  have hboth : st'.Calls (fun j => j ≠ i) P ∧ Inv actions (st'.processes i) st'.service := by
    apply PartialRuns.invariant_past
      (fun action => (∀ l, action = .launch i l → .launch i l ∈ actions) ∧
        ∀ j event, j ≠ i → action = .start j event → StartsCalls handler P j event)
      ?_ ?_ ⟨hcalls, hinv⟩ hrun
    · rintro past st action st' ⟨hcalls, hinv⟩ ⟨hlaunched, hstarted⟩ hstep
      refine ⟨step_calls hcalls (fun j event => hstarted j event) hstep, ?_⟩
      by_cases hi : action.process = i
      · cases action with
        | launch j l =>
            obtain rfl : j = i := hi
            obtain rfl := Option.some.inj hstep
            rw [State.set_processes_self]
            exact hlaunch past l _ st.service (hlaunched l rfl) hinv
        | start j event =>
            obtain rfl : j = i := hi
            obtain ⟨l, program, hwaiting, hprogram, rfl⟩ := step_start hstep
            rw [hwaiting] at hinv
            rw [State.set_processes_self]
            exact hstart past l st.service event program hprogram hinv
        | turn j =>
            obtain rfl : j = i := hi
            obtain ⟨c, next, hworking, rfl⟩ := step_turn hstep
            rw [hworking] at hinv
            rw [State.set_processes_self]
            exact hturn past c next st.service hinv
      · rw [step_processes_of_ne hi hstep]
        refine hothers past action _ _ hi ?_
        -- the service changes at a turn only, by a call that the rule relies on
        cases action with
        | launch j l =>
            obtain rfl := Option.some.inj hstep
            exact hinv
        | start j event =>
            obtain ⟨l, program, -, -, rfl⟩ := step_start hstep
            exact hinv
        | turn j =>
            obtain ⟨c, next, hworking, rfl⟩ := step_turn hstep
            have hcall := hcalls j hi
            rw [hworking] at hcall
            exact hrely past c _ st.service hcall.1 hinv
    · rintro action hmem
      refine ⟨?_, ?_⟩
      · rintro l rfl
        exact hmem
      · rintro j event hj rfl
        exact hactions j event hj hmem
  exact hboth.2

/-! ## Without an interruption -/

/-- The process that a program leaves when it is through. -/
def finished {L : Type} : Option L → Process Call Answer L
  | some l => .waiting l
  | none => .ended

variable (serve) in
/-- The state after a process made all the calls of a program. -/
def State.finish (st : State Answer Local σ) (i : ι)
    (p : Program Call Answer (Option (Local i))) : State Answer Local σ :=
  { st with service := (p.run serve st.service).2 }.set i (finished (p.run serve st.service).1)

variable (handler serve) in
/-- A process that gets all turns works its program off. -/
theorem run_turns (i : ι) (p : Program Call Answer (Option (Local i)))
    (st : State Answer Local σ) :
    ∃ turns, run handler serve (List.replicate turns (.turn i)) (st.set i (.ofProgram p)) =
      some (st.finish serve i p) := by
  induction p generalizing st with
  | ret result =>
      refine ⟨0, ?_⟩
      cases result <;> rfl
  | call c next ih =>
      obtain ⟨turns, hturns⟩ :=
        ih (serve c st.service).1 { st with service := (serve c st.service).2 }
      refine ⟨turns + 1, ?_⟩
      have hstep : step handler serve (st.set i (.ofProgram (.call c next))) (.turn i) =
          some ({ st with service := (serve c st.service).2 }.set i
            (.ofProgram (next (serve c st.service).1))) := by
        simp [step, Process.ofProgram, State.set]
      rw [List.replicate_succ, run, PartialRuns.run_cons, hstep, Option.bind_some]
      exact hturns

variable (handler serve) in
/-- **An uninterrupted program.**  An event and enough turns after it do what the program
of the event does alone. -/
theorem run_uninterrupted {i : ι} {l : Local i} {event : Event i}
    {program : Program Call Answer (Option (Local i))} (hhandler : handler i l event = some program)
    {st : State Answer Local σ} (hwaiting : st.processes i = .waiting l) :
    ∃ turns, run handler serve (.start i event :: List.replicate turns (.turn i)) st =
      some (st.finish serve i program) := by
  obtain ⟨turns, hturns⟩ := run_turns handler serve i program st
  refine ⟨turns, ?_⟩
  have hstep : step handler serve st (.start i event) = some (st.set i (.ofProgram program)) := by
    simp [step, hwaiting, hhandler]
  rw [run, PartialRuns.run_cons, hstep, Option.bind_some]
  exact hturns

/-! ## Processes that do not show -/

/-- The states agree on all processes but the hidden ones, and their services on what a
call can tell. -/
structure Agree (hidden : ι → Bool) (Sim : σ → σ → Prop) (st st' : State Answer Local σ) :
    Prop where
  processes : ∀ i, hidden i = false → st.processes i = st'.processes i
  service : Sim st.service st'.service

variable {hidden : ι → Bool} {Sim : σ → σ → Prop}

omit [DecidableEq ι] in
theorem Agree.answered {st st' : State Answer Local σ} (h : Agree hidden Sim st st') {s s' : σ}
    (hs : Sim s s') : Agree hidden Sim { st with service := s } { st' with service := s' } :=
  ⟨h.processes, hs⟩

theorem Agree.set {st st' : State Answer Local σ} (h : Agree hidden Sim st st') (i : ι)
    (process : Process Call Answer (Local i)) :
    Agree hidden Sim (st.set i process) (st'.set i process) where
  processes := by
    intro j hj
    by_cases hji : j = i
    · subst hji
      rw [State.set_processes_self, State.set_processes_self]
    · rw [State.set_processes_of_ne _ _ hji, State.set_processes_of_ne _ _ hji]
      exact h.processes j hj
  service := h.service

/-- A hidden process may change on one side alone. -/
theorem Agree.set_hidden {st st' : State Answer Local σ} (h : Agree hidden Sim st st') {i : ι}
    (hi : hidden i = true) (process : Process Call Answer (Local i)) :
    Agree hidden Sim (st.set i process) st' where
  processes := by
    intro j hj
    have hji : j ≠ i := by
      rintro rfl
      rw [hi] at hj
      cases hj
    rw [State.set_processes_of_ne _ _ hji]
    exact h.processes j hj
  service := h.service

/-- An action of a process that is not hidden is possible on both sides. -/
theorem Agree.step_shown (hsim : ∀ c s s', Sim s s' →
      (serve c s).1 = (serve c s').1 ∧ Sim (serve c s).2 (serve c s').2)
    {st st' next : State Answer Local σ} (h : Agree hidden Sim st st')
    {action : Action Local Event} (hshown : hidden action.process = false)
    (hstep : step handler serve st action = some next) :
    ∃ next', step handler serve st' action = some next' ∧ Agree hidden Sim next next' := by
  cases action with
  | launch i l =>
      obtain rfl := Option.some.inj hstep
      exact ⟨_, rfl, h.set i _⟩
  | start i event =>
      obtain ⟨l, program, hwaiting, hprogram, rfl⟩ := step_start hstep
      refine ⟨st'.set i (.ofProgram program), ?_, h.set i _⟩
      rw [h.processes i hshown] at hwaiting
      simp [step, hwaiting, hprogram]
  | turn i =>
      obtain ⟨c, next, hworking, rfl⟩ := step_turn hstep
      obtain ⟨hanswer, hservice⟩ := hsim c _ _ h.service
      refine ⟨{ st' with service := (serve c st'.service).2 }.set i
        (.ofProgram (next (serve c st'.service).1)), ?_, ?_⟩
      · rw [h.processes i hshown] at hworking
        simp [step, hworking]
      · rw [hanswer]
        exact (h.answered hservice).set i _

/-- An action of a hidden process leaves the agreement as it is. -/
theorem Agree.step_hidden {P : Call → Prop}
    (hinvisible : ∀ c s s', P c → Sim s s' → Sim (serve c s).2 s')
    {st st' next : State Answer Local σ} (h : Agree hidden Sim st st')
    {action : Action Local Event} (hhidden : hidden action.process = true)
    (hcalls : (st.processes action.process).Calls P)
    (hstep : step handler serve st action = some next) : Agree hidden Sim next st' := by
  cases action with
  | launch i l =>
      obtain rfl := Option.some.inj hstep
      exact h.set_hidden hhidden _
  | start i event =>
      obtain ⟨l, program, -, -, rfl⟩ := step_start hstep
      exact h.set_hidden hhidden _
  | turn i =>
      obtain ⟨c, next, hworking, rfl⟩ := step_turn hstep
      rw [Action.process, hworking] at hcalls
      have hservice := hinvisible c _ _ hcalls.1 h.service
      exact (h.answered hservice).set_hidden hhidden _

/-- **The erasure rule.**  If the calls in `P` do not show, processes that make no others
can be taken out of a run: what is left of it is a run, in which the other processes come
to the same states. -/
theorem erase {P : Call → Prop}
    (hsim : ∀ c s s', Sim s s' →
      (serve c s).1 = (serve c s').1 ∧ Sim (serve c s).2 (serve c s').2)
    (hinvisible : ∀ c s s', P c → Sim s s' → Sim (serve c s).2 s')
    {actions : List (Action Local Event)}
    (hactions : ∀ i event, hidden i = true → Started actions i event →
      StartsCalls handler P i event)
    {st st' next : State Answer Local σ}
    (hcalls : st.Calls (fun i => hidden i = true) P) (h : Agree hidden Sim st st')
    (hrun : run handler serve actions st = some next) :
    ∃ next',
      run handler serve (actions.filter fun action => !hidden action.process) st' = some next' ∧
      Agree hidden Sim next next' := by
  induction actions generalizing st st' with
  | nil =>
      obtain rfl := Option.some.inj hrun
      exact ⟨st', rfl, h⟩
  | cons action actions ih =>
      obtain ⟨between, hstep, hrest⟩ := Option.bind_eq_some_iff.1 hrun
      have hlater : ∀ i event, hidden i = true → Started actions i event →
          StartsCalls handler P i event := fun i event hi hmem =>
        hactions i event hi (List.mem_cons_of_mem action hmem)
      have hcallsNext := step_calls hcalls
        (fun i event hi haction => hactions i event hi (List.mem_cons.2 (Or.inl haction.symm)))
        hstep
      cases hhidden : hidden action.process with
      | true =>
          have hagree := h.step_hidden hinvisible hhidden (hcalls _ hhidden) hstep
          obtain ⟨next', hnext', hfinal⟩ := ih hlater hcallsNext hagree hrest
          exact ⟨next', by simpa [hhidden] using hnext', hfinal⟩
      | false =>
          obtain ⟨between', hstep', hagree⟩ := h.step_shown hsim hhidden hstep
          obtain ⟨next', hnext', hfinal⟩ := ih hlater hcallsNext hagree hrest
          refine ⟨next', ?_, hfinal⟩
          rw [List.filter_cons, if_pos (by simp [hhidden]), run, PartialRuns.run_cons, hstep']
          exact hnext'

end Runs

end CallPrograms
