import Veos.Library.CommutingPrograms

/-!
# Blocks

A block is a program, or the rest of one, that goes through without an interruption.  A
state that is one program ahead of another stays so after a block that commutes with this
program.
-/

namespace CallPrograms

section Pools

variable {ι : Type} [DecidableEq ι] {Call : Type} {Answer : Call → Type} {Local Event : ι → Type}
  {β σ : Type}

/-! ## What the calls of the processes may be -/

/-- Process `i` makes calls in `P i`, and those in `M i` commute with the calls of the other
processes.  Hidden calls do not show. -/
structure Movers (serve : (c : Call) → σ → Answer c × σ) (Sim : σ → σ → Prop)
    (P M : ι → Call → Prop) (Hidden : Call → Prop) : Prop extends Similarity serve Sim where
  sub : ∀ i c, M i c → P i c
  commute : ∀ i j c d, i ≠ j → M i c → P j d →
    Commuting serve Sim (Program.one c : Program Call Answer _) (.one d)
  hidden : ∀ c s, Hidden c → Sim s s → Sim (serve c s).2 s

/-- A program that process `i` may have before it. -/
def Allowed {α : Type} (P M : ι → Call → Prop) (Hidden : Call → Prop) (i : ι)
    (p : Program Call Answer α) : Prop :=
  p.Reducible (P i) (M i) ∨ ∃ r, p.Skips Hidden r

variable {handler : (i : ι) → Local i → Event i → Option (Program Call Answer (Option (Local i)))}
  {serve : (c : Call) → σ → Answer c × σ} {Sim : σ → σ → Prop} {P M : ι → Call → Prop}
  {Hidden : Call → Prop}

omit [DecidableEq ι] in
theorem Movers.commute_calls {α : Type} (h : Movers serve Sim P M Hidden) {i j : ι} (hij : i ≠ j)
    {p : Program Call Answer α} {q : Program Call Answer β} (hp : p.Calls (M i))
    (hq : Allowed P M Hidden j q) : Commuting serve Sim p q := by
  rcases hq with hq | ⟨r, hq⟩
  · exact .of_calls h.toSimilarity (h.commute i j · · hij) hp (hq.calls (h.sub j))
  · exact (Commuting.of_skips h.toSimilarity h.hidden hq p).symm h.toSimilarity

omit [DecidableEq ι] in
theorem Allowed.next {α : Type} (h : Movers serve Sim P M Hidden) {i : ι} {c : Call}
    {next : Answer c → Program Call Answer α} (hp : Allowed P M Hidden i (.call c next))
    (answer : Answer c) : Allowed P M Hidden i (next answer) := by
  rcases hp with ⟨-, ⟨-, hnext⟩ | hnext⟩ | ⟨r, -, hskips⟩
  · exact Or.inl (hnext answer)
  · exact Or.inl ((hnext answer).reducible (h.sub i))
  · exact Or.inr ⟨r, hskips answer⟩

omit [DecidableEq ι] in
/-- The first call of an allowed program commutes with the allowed programs of the other
processes, or else what the program does after it. -/
theorem Allowed.moves {α : Type} (h : Movers serve Sim P M Hidden) {i : ι} {c : Call}
    {next : Answer c → Program Call Answer α} (hp : Allowed P M Hidden i (.call c next)) :
    (∀ j (q : Program Call Answer (Option (Local j))), j ≠ i → Allowed P M Hidden j q →
      Commuting serve Sim (Program.one c : Program Call Answer _) q) ∨
    ∀ answer j (q : Program Call Answer (Option (Local j))), j ≠ i → Allowed P M Hidden j q →
      Commuting serve Sim (next answer) q := by
  rcases hp with ⟨-, ⟨hmover, -⟩ | hnext⟩ | ⟨r, -, hskips⟩
  · have hone : (Program.one c : Program Call Answer _).Calls (M i) := ⟨hmover, fun _ => trivial⟩
    exact Or.inl fun j q hj hq => h.commute_calls (Ne.symm hj) hone hq
  · exact Or.inr fun answer j q hj hq => h.commute_calls (Ne.symm hj) (hnext answer) hq
  · exact Or.inr fun answer j q _ _ => .of_skips h.toSimilarity h.hidden (hskips answer) q

/-! ## Blocks -/

/-- What is run as a whole: the rest of the program that a process is in, or the program of
an event. -/
inductive Block (Event : ι → Type)
  | rest (i : ι)
  | whole (i : ι) (event : Event i)

namespace Block

def process : Block Event → ι
  | .rest i => i
  | .whole i _ => i

def event : Block Event → Option ((i : ι) × Event i)
  | .rest _ => none
  | .whole i event => some ⟨i, event⟩

end Block

variable (handler serve)

/-- The program that a block runs, if the state admits the block. -/
def blockProgram (st : State Answer Local σ) :
    (b : Block Event) → Option (Program Call Answer (Option (Local b.process)))
  | .rest i =>
      match st.processes i with
      | .working c next => some (.call c next)
      | _ => none
  | .whole i event =>
      match st.processes i with
      | .waiting l => handler i l event
      | _ => none

def blockStep (st : State Answer Local σ) (b : Block Event) : Option (State Answer Local σ) :=
  (blockProgram handler st b).map (st.finish serve b.process)

/-- A sequence of blocks. -/
def runBlocks (blocks : List (Block Event)) (st : State Answer Local σ) :
    Option (State Answer Local σ) :=
  PartialRuns.run (blockStep handler serve) blocks st

variable {handler serve}

omit [DecidableEq ι] in
theorem blockProgram_congr {x y : State Answer Local σ} {b : Block Event}
    (h : x.processes b.process = y.processes b.process) :
    blockProgram handler x b = blockProgram handler y b := by
  cases b with
  | rest i => simp only [blockProgram, show x.processes i = y.processes i from h]
  | whole i event => simp only [blockProgram, show x.processes i = y.processes i from h]

omit [DecidableEq ι] in
theorem blockProgram_rest {st : State Answer Local σ} {i : ι}
    {p : Program Call Answer (Option (Local i))} (h : blockProgram handler st (.rest i) = some p) :
    ∃ c next, st.processes i = .working c next ∧ p = .call c next := by
  cases hprocess : st.processes i with
  | working c next =>
      simp only [blockProgram, hprocess] at h
      exact ⟨c, next, rfl, (Option.some.inj h).symm⟩
  | _ => simp [blockProgram, hprocess] at h

omit [DecidableEq ι] in
theorem blockProgram_whole {st : State Answer Local σ} {i : ι} {event : Event i}
    {p : Program Call Answer (Option (Local i))}
    (h : blockProgram handler st (.whole i event) = some p) :
    ∃ l, st.processes i = .waiting l ∧ handler i l event = some p := by
  cases hprocess : st.processes i with
  | waiting l =>
      simp only [blockProgram, hprocess] at h
      exact ⟨l, rfl, h⟩
  | _ => simp [blockProgram, hprocess] at h

@[simp] theorem State.finish_processes_self (st : State Answer Local σ) (i : ι)
    (p : Program Call Answer (Option (Local i))) :
    (st.finish serve i p).processes i = finished (p.run serve st.service).1 := by
  simp [State.finish]

theorem State.finish_processes_of_ne (st : State Answer Local σ) {i j : ι}
    (p : Program Call Answer (Option (Local i))) (hne : j ≠ i) :
    (st.finish serve i p).processes j = st.processes j := by
  simp [State.finish, State.set, hne]

theorem blockStep_rest {st : State Answer Local σ} {i : ι} {c : Call}
    {next : Answer c → Program Call Answer (Option (Local i))}
    (h : st.processes i = .working c next) :
    blockStep handler serve st (.rest i) = some (st.finish serve i (.call c next)) := by
  rw [blockStep, blockProgram, h]
  rfl

theorem blockStep_whole {st : State Answer Local σ} {i : ι} {l : Local i} {event : Event i}
    {p : Program Call Answer (Option (Local i))} (h : st.processes i = .waiting l)
    (hp : handler i l event = some p) :
    blockStep handler serve st (.whole i event) = some (st.finish serve i p) := by
  simp only [blockStep, blockProgram, h, hp]
  rfl

theorem blockStep_processes_of_ne {st st' : State Answer Local σ} {b : Block Event} {i : ι}
    (hi : b.process ≠ i) (hstep : blockStep handler serve st b = some st') :
    st'.processes i = st.processes i := by
  obtain ⟨p, -, rfl⟩ := Option.map_eq_some_iff.1 hstep
  exact st.finish_processes_of_ne p (Ne.symm hi)

/-! ## Allowed states -/

variable (handler P M Hidden) in
/-- The event starts allowed programs. -/
def StartsAllowed (i : ι) (event : Event i) : Prop :=
  ∀ l program, handler i l event = some program → Allowed P M Hidden i program

variable (handler P M Hidden) in
def Block.Starts : Block Event → Prop
  | .rest _ => True
  | .whole i event => StartsAllowed handler P M Hidden i event

variable (P M Hidden) in
/-- Every process has an allowed program before it, if any. -/
def State.Allowed (st : State Answer Local σ) : Prop :=
  ∀ i c next, st.processes i = .working c next → CallPrograms.Allowed P M Hidden i (.call c next)

/-- No process is in a program. -/
def State.AtRest (st : State Answer Local σ) : Prop :=
  ∀ i c next, st.processes i ≠ .working c next

omit [DecidableEq ι] in
theorem State.Idle.atRest {st : State Answer Local σ} (h : st.Idle) : st.AtRest := by
  intro i c next hworking
  obtain ⟨l, hl⟩ := h i
  rw [hl] at hworking
  cases hworking

theorem finished_ne_working {L : Type} (result : Option L) (c : Call)
    (next : Answer c → Program Call Answer (Option L)) : finished result ≠ .working c next := by
  cases result <;> simp [finished]

omit [DecidableEq ι] in
theorem State.Allowed.blockProgram {st : State Answer Local σ} (h : st.Allowed P M Hidden)
    {b : Block Event} (hb : b.Starts handler P M Hidden)
    {p : Program Call Answer (Option (Local b.process))}
    (hp : blockProgram handler st b = some p) : CallPrograms.Allowed P M Hidden b.process p := by
  cases b with
  | rest i =>
      obtain ⟨c, next, hworking, rfl⟩ := blockProgram_rest hp
      exact h i c next hworking
  | whole i event =>
      obtain ⟨l, -, hprogram⟩ := blockProgram_whole hp
      exact hb l p hprogram

theorem State.Allowed.blockStep {st st' : State Answer Local σ} (h : st.Allowed P M Hidden)
    {b : Block Event} (hstep : CallPrograms.blockStep handler serve st b = some st') :
    st'.Allowed P M Hidden := by
  intro i c next hworking
  by_cases hi : i = b.process
  · subst hi
    obtain ⟨p, -, rfl⟩ := Option.map_eq_some_iff.1 hstep
    rw [finish_processes_self] at hworking
    exact absurd hworking (finished_ne_working _ c next)
  · rw [blockStep_processes_of_ne (Ne.symm hi) hstep] at hworking
    exact h i c next hworking

theorem State.Allowed.step (hm : Movers serve Sim P M Hidden) {st st' : State Answer Local σ}
    (h : st.Allowed P M Hidden) {action : Action Local Event}
    (haction : ∀ i event, action = .start i event → StartsAllowed handler P M Hidden i event)
    (hstep : CallPrograms.step handler serve st action = some st') :
    st'.Allowed P M Hidden := by
  have hset : ∀ (service : σ) i (p : Program Call Answer (Option (Local i))),
      CallPrograms.Allowed P M Hidden i p →
      State.Allowed P M Hidden (State.set { st with service := service } i (.ofProgram p)) := by
    intro service i p hp j c next hworking
    by_cases hj : j = i
    · subst hj
      rw [State.set_processes_self] at hworking
      match p with
      | .ret (some _) => cases hworking
      | .ret none => cases hworking
      | .call _ _ =>
          cases hworking
          exact hp
    · rw [State.set_processes_of_ne _ _ hj] at hworking
      exact h j c next hworking
  cases action with
  | launch i l =>
      obtain rfl := Option.some.inj hstep
      exact hset st.service i (.ret (some l)) (Or.inl trivial)
  | start i event =>
      obtain ⟨l, program, -, hprogram, rfl⟩ := step_start hstep
      exact hset st.service i program (haction i event rfl l program hprogram)
  | turn i =>
      obtain ⟨c, next, hworking, rfl⟩ := step_turn hstep
      exact hset _ i _ ((h i c next hworking).next hm _)

/-! ## One program ahead -/

variable (serve Sim) in
/-- The service of `y` has run the program `q` that the one of `x` has not, with the result
`a`.  The states agree on all processes but those in `who`. -/
structure Ahead (who : ι → Prop) (q : Program Call Answer β) (a : β) (x y : State Answer Local σ) :
    Prop where
  processes : ∀ j, ¬ who j → x.processes j = y.processes j
  good : Sim x.service x.service
  result : (q.run serve x.service).1 = a
  service : Sim (q.run serve x.service).2 y.service

variable (serve Sim) in
/-- The states differ only as `Sim` allows. -/
abbrev Same : State Answer Local σ → State Answer Local σ → Prop :=
  Ahead serve Sim (fun _ => False) (.ret ()) ()

namespace Ahead

variable {who : ι → Prop} {q : Program Call Answer β} {a : β} {x y : State Answer Local σ}

/-- A block of another process does the same on both sides. -/
theorem block (hsim : Similarity serve Sim) (h : Ahead serve Sim who q a x y) {b : Block Event}
    (hwho : ¬ who b.process)
    (hcommute : ∀ p, blockProgram handler x b = some p → Commuting serve Sim q p) :
    Option.Rel (Ahead serve Sim who q a) (blockStep handler serve x b)
      (blockStep handler serve y b) := by
  have hprogram : blockProgram handler x b = blockProgram handler y b :=
    blockProgram_congr (h.processes b.process hwho)
  rw [blockStep, blockStep, ← hprogram]
  cases hp : blockProgram handler x b with
  | none => exact .none
  | some p =>
      have hpast := hcommute p hp
      obtain ⟨hresult, hservice⟩ := hsim.run p h.service
      have hsame : (p.run serve y.service).1 = (p.run serve x.service).1 :=
        hresult.symm.trans (hpast.right _ h.good)
      refine .some ⟨?_, (hsim.run p h.good).2, ?_, ?_⟩
      · intro j hj
        by_cases hb : j = b.process
        · subst hb
          rw [State.finish_processes_self, State.finish_processes_self, hsame]
        · rw [State.finish_processes_of_ne _ _ hb, State.finish_processes_of_ne _ _ hb]
          exact h.processes j hj
      · exact (hpast.left _ h.good).trans h.result
      · exact hsim.trans (hpast.state _ h.good) hservice

/-- So do blocks of other processes, one after the other. -/
theorem blocks (hm : Movers serve Sim P M Hidden) {blocks : List (Block Event)}
    (h : Ahead serve Sim who q a x y) (hx : x.Allowed P M Hidden)
    (hblocks : ∀ b ∈ blocks, b.Starts handler P M Hidden ∧ ¬ who b.process)
    (hcommute : ∀ j (p : Program Call Answer (Option (Local j))), ¬ who j →
      Allowed P M Hidden j p → Commuting serve Sim q p) :
    Option.Rel (Ahead serve Sim who q a) (runBlocks handler serve blocks x)
      (runBlocks handler serve blocks y) := by
  induction blocks generalizing x y with
  | nil => exact .some h
  | cons b blocks ih =>
      obtain ⟨hstarts, hwho⟩ := hblocks b List.mem_cons_self
      have hstep := h.block hm.toSimilarity hwho fun p hp =>
        hcommute _ p hwho (hx.blockProgram hstarts hp)
      simp only [runBlocks, PartialRuns.run_cons] at ih ⊢
      generalize hx' : blockStep handler serve x b = x' at hstep ⊢
      generalize blockStep handler serve y b = y' at hstep ⊢
      cases hstep with
      | none => exact .none
      | some hnext =>
          exact ih hnext (hx.blockStep hx') fun other hother =>
            hblocks other (List.mem_cons_of_mem b hother)

/-- A process whose program is ahead of the service of `x` has the rest of it before it in
`y`. -/
theorem finish {i : ι} (hsim : Similarity serve Sim) (h : Ahead serve Sim (· = i) q a x y)
    (f : β → Program Call Answer (Option (Local i))) :
    Same serve Sim (x.finish serve i (q >>= f)) (y.finish serve i (f a)) := by
  have hrun : (q >>= f).run serve x.service = (f a).run serve (q.run serve x.service).2 := by
    rw [← h.result]
    exact Program.run_bind serve q f x.service
  obtain ⟨hresult, hservice⟩ := hsim.run (f a) h.service
  rw [← hrun] at hresult hservice
  refine ⟨fun j _ => ?_, (hsim.run (q >>= f) h.good).2, rfl, hservice⟩
  by_cases hj : j = i
  · subst hj
    rw [State.finish_processes_self, State.finish_processes_self, hresult]
  · rw [State.finish_processes_of_ne _ _ hj, State.finish_processes_of_ne _ _ hj]
    exact h.processes j hj

/-- When the process of `x` has caught up, the states are the same. -/
theorem finished {i : ι} {q : Program Call Answer (Option (Local i))} {a : Option (Local i)}
    (hsim : Similarity serve Sim) (h : Ahead serve Sim (· = i) q a x y)
    (hy : y.processes i = CallPrograms.finished a) : Same serve Sim (x.finish serve i q) y := by
  refine ⟨fun j _ => ?_, (hsim.run q h.good).2, rfl, h.service⟩
  by_cases hj : j = i
  · subst hj
    rw [State.finish_processes_self, h.result, hy]
  · rw [State.finish_processes_of_ne _ _ hj]
    exact h.processes j hj

end Ahead

namespace Same

variable {x y : State Answer Local σ}

omit [DecidableEq ι] in
theorem refl (hgood : Sim x.service x.service) : Same serve Sim x x :=
  ⟨fun _ _ => rfl, hgood, rfl, hgood⟩

omit [DecidableEq ι] in
theorem symm (hsim : Similarity serve Sim) (h : Same serve Sim x y) : Same serve Sim y x where
  processes j hj := (h.processes j hj).symm
  good := hsim.trans (hsim.symm h.service) h.service
  result := rfl
  service := hsim.symm h.service

omit [DecidableEq ι] in
theorem trans {z : State Answer Local σ} (hsim : Similarity serve Sim)
    (h : Same serve Sim x y) (h' : Same serve Sim y z) : Same serve Sim x z where
  processes j hj := (h.processes j hj).trans (h'.processes j hj)
  good := h.good
  result := rfl
  service := hsim.trans h.service h'.service

theorem blocks (hsim : Similarity serve Sim) {blocks : List (Block Event)}
    {y' : State Answer Local σ} (h : Same serve Sim x y)
    (hrun : runBlocks handler serve blocks y = some y') :
    ∃ x', runBlocks handler serve blocks x = some x' ∧ Same serve Sim x' y' := by
  induction blocks generalizing x y with
  | nil =>
      obtain rfl := Option.some.inj hrun
      exact ⟨x, rfl, h⟩
  | cons b blocks ih =>
      obtain ⟨between, hstep, hrest⟩ := Option.bind_eq_some_iff.1 hrun
      have hblock : Option.Rel (Same serve Sim) (blockStep handler serve x b)
          (blockStep handler serve y b) :=
        Ahead.block hsim h id fun p _ => (Commuting.ret hsim p ()).symm hsim
      rw [hstep] at hblock
      generalize hx' : blockStep handler serve x b = x' at hblock
      cases hblock with
      | some hnext =>
          obtain ⟨x'', hrun'', hsame⟩ := ih hnext hrest
          refine ⟨x'', ?_, hsame⟩
          rw [runBlocks, PartialRuns.run_cons, hx']
          exact hrun''

end Same

end Pools

end CallPrograms
