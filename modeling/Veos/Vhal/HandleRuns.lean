import Mathlib.Data.List.Nodup
import Veos.Library.TracedRuns
import Veos.Vhal.Native

/-!
# The native handle over runs of `VhalNative`

The class keeps the raw handle of one client in a static field.  `init` overwrites it
without a look at the old one, `release` disconnects it and sets it to zero, and every
access tests it before it goes down to native code.

A run records for each operation the native calls that its body made and the exception it
threw.  `Sound` is the invariant: a handle that is not zero belongs to a client that was
connected and not disconnected (`handles_safe`).

The invariant does not say that a connected client is the one in the field.  `NoLeak`
does, and it is lost at an `init` on a class that still has a handle, and only there
(`operations_noLeak_iff`).
-/

namespace Veos
namespace Vhal

open Java CallPrograms

/-- The operations of the class. -/
inductive Operation
  | init
  | release
  | getInt32 (propId : PropId) (areaId : AreaId)
  | getBool (propId : PropId) (areaId : AreaId)
  | setInt32 (propId : PropId) (areaId : AreaId) (value : Int32)
  | setBool (propId : PropId) (areaId : AreaId) (value : Bool)

/-- The getters and setters. -/
def Operation.IsAccess : Operation → Prop
  | .init => False
  | .release => False
  | _ => True

/-- A call into native code, with the handle that `vhal_connect` returned. -/
inductive NativeCall
  | connect (result : ClientPtr)
  | disconnect (c : ClientPtr)
  | access (call : AccessCall)
  deriving DecidableEq

namespace NativeCall

/-- The handle that is passed down. -/
def passed : NativeCall → Option ClientPtr
  | .connect _ => none
  | .disconnect c => some c
  | .access call => some call.handle

def ofConnection : (call : ConnectionCall) × call.Answer → NativeCall
  | ⟨.connect, result⟩ => .connect result
  | ⟨.disconnect c, _⟩ => .disconnect c

end NativeCall

/-- The static field of the class, and what it refers to. -/
structure NativeState where
  clientPtr : ClientPtr
  clients : Clients
  vhal : Service

/-- The class as it is loaded. -/
def NativeState.loaded (createFails : Nat → Bool) (vhal : Service) : NativeState :=
  ⟨0, ⟨[], 0, createFails⟩, vhal⟩

/-- What an operation did. -/
structure Executed where
  operation : Operation
  native : List NativeCall
  thrown : Option JavaException

/-- The exception that leaves an operation. -/
def escaping {α : Type} : Except JavaException α → Option JavaException
  | .error e => some e
  | .ok _ => none

/-- The native calls that the body of `init` or `release` makes. -/
def NativeState.connections {α : Type} (s : NativeState) (body : ConnectionProgram α) :
    List NativeCall :=
  (body.trace ConnectionCall.serve s.clients).map .ofConnection

/-- The native calls that the body of an access makes. -/
def NativeState.accesses {α : Type} (s : NativeState) (body : AccessProgram α) :
    List NativeCall :=
  (body.trace AccessCall.serve s.vhal).map fun made => .access made.1

/-- One operation.  An exception leaves it to its caller, who may go on. -/
def perform (s : NativeState) : Operation → Executed × NativeState
  | .init =>
      let (result, clientPtr, clients) := VhalNative.init s.clients
      (⟨.init, s.connections VhalNative.Body.init, escaping result⟩,
        { s with clientPtr := clientPtr, clients := clients })
  | .release =>
      let (clientPtr, clients) := VhalNative.release s.clientPtr s.clients
      (⟨.release, s.connections (VhalNative.Body.release s.clientPtr), none⟩,
        { s with clientPtr := clientPtr, clients := clients })
  | .getInt32 propId areaId =>
      let (result, vhal) := VhalNative.getInt32 s.clientPtr propId areaId s.vhal
      (⟨.getInt32 propId areaId, s.accesses (VhalNative.Body.getInt32 s.clientPtr propId areaId),
        escaping result⟩, { s with vhal := vhal })
  | .getBool propId areaId =>
      let (result, vhal) := VhalNative.getBool s.clientPtr propId areaId s.vhal
      (⟨.getBool propId areaId, s.accesses (VhalNative.Body.getBool s.clientPtr propId areaId),
        escaping result⟩, { s with vhal := vhal })
  | .setInt32 propId areaId value =>
      let (result, vhal) := VhalNative.setInt32 s.clientPtr propId areaId value s.vhal
      (⟨.setInt32 propId areaId value,
        s.accesses (VhalNative.Body.setInt32 s.clientPtr propId areaId value),
        escaping result⟩, { s with vhal := vhal })
  | .setBool propId areaId value =>
      let (result, vhal) := VhalNative.setBool s.clientPtr propId areaId value s.vhal
      (⟨.setBool propId areaId value,
        s.accesses (VhalNative.Body.setBool s.clientPtr propId areaId value),
        escaping result⟩, { s with vhal := vhal })

/-- What the operations of a run did. -/
abbrev history (operations : List Operation) (s : NativeState) : List Executed :=
  TracedRuns.trace perform operations s

/-- The class after a run. -/
abbrev after (operations : List Operation) (s : NativeState) : NativeState :=
  TracedRuns.final perform operations s

/-- The native calls of a run. -/
def nativeCalls (past : List Executed) : List NativeCall :=
  past.flatMap Executed.native

/-! ## What each operation does -/

/-- The native calls of `init` are one `vhal_connect`, whose result is the new field. -/
theorem connections_init (s : NativeState) :
    s.connections VhalNative.Body.init = [.connect (VhalNative.init s.clients).2.1] := rfl

/-- `release` disconnects the client of the field, if there is one. -/
theorem connections_release (s : NativeState) :
    s.connections (VhalNative.Body.release s.clientPtr) =
      if s.clientPtr = 0 then [] else [.disconnect s.clientPtr] := by
  by_cases hptr : s.clientPtr = 0
  · simp [NativeState.connections, VhalNative.Body.release, hptr, Program.trace]
  · simp [NativeState.connections, VhalNative.Body.release, hptr, Program.trace,
      NativeCall.ofConnection]

theorem perform_init (s : NativeState) :
    (∃ e, perform s .init = (⟨.init, [.connect 0], some e⟩,
      { s with
        clientPtr := 0
        clients := { s.clients with attempts := s.clients.attempts + 1 } })) ∨
    perform s .init = (⟨.init, [.connect (s.clients.attempts + 1)], none⟩,
      { s with
        clientPtr := s.clients.attempts + 1
        clients := { s.clients with
          attempts := s.clients.attempts + 1
          live := (s.clients.attempts + 1) :: s.clients.live } }) := by
  simp only [perform, connections_init]
  rcases VhalNative.init_cases s.clients with ⟨-, hfailed⟩ | ⟨-, hconnected⟩
  · exact Or.inl ⟨_, by rw [hfailed]; rfl⟩
  · exact Or.inr (by rw [hconnected]; rfl)

theorem perform_release (s : NativeState) :
    perform s .release =
      (⟨.release, if s.clientPtr = 0 then [] else [.disconnect s.clientPtr], none⟩,
        { s with clientPtr := 0, clients := vhalDisconnect s.clientPtr s.clients }) := by
  simp only [perform, connections_release, VhalNative.release_eq]

/-- The body of an access throws without a native call if the class has no handle, and makes
one native call with the handle if it has. -/
theorem access_spec {α : Type} (s : NativeState) (call : ClientPtr → AccessCall)
    (hcall : ∀ c, (call c).handle = c) (convert : Int32 → Except JavaException α) :
    let body := VhalNative.Body.access call convert s.clientPtr
    (s.clientPtr = 0 → s.accesses body = [] ∧
      body.run AccessCall.serve s.vhal = (.error VhalNative.notInitialized, s.vhal)) ∧
    (s.clientPtr ≠ 0 → ∃ made : AccessCall, s.accesses body = [.access made] ∧
      made.handle = s.clientPtr) := by
  intro body
  constructor
  · intro hnull
    have hbody : body = .ret (.error VhalNative.notInitialized) :=
      VhalNative.access_null hnull call convert
    rw [hbody]
    exact ⟨rfl, rfl⟩
  · intro hptr
    refine ⟨call s.clientPtr, ?_, hcall s.clientPtr⟩
    have hbody : body = .call (call s.clientPtr) fun result => .ret (convert result) :=
      VhalNative.access_connected hptr call convert
    rw [NativeState.accesses, hbody]
    rfl

/-- An access leaves the field and the clients alone.  Without a handle it throws, and
touches nothing; with one it passes that handle down. -/
theorem perform_access (s : NativeState) {operation : Operation} (h : operation.IsAccess) :
    (perform s operation).2.clientPtr = s.clientPtr ∧
    (perform s operation).2.clients = s.clients ∧
    (s.clientPtr = 0 → perform s operation =
      (⟨operation, [], some VhalNative.notInitialized⟩, s)) ∧
    (s.clientPtr ≠ 0 → ∃ made, (perform s operation).1.native = [.access made] ∧
      made.handle = s.clientPtr) := by
  cases operation with
  | init => exact absurd h id
  | release => exact absurd h id
  | getInt32 propId areaId =>
      obtain ⟨hnull, hmade⟩ := access_spec s (.getInt32 · propId areaId) (fun _ => rfl) .ok
      refine ⟨rfl, rfl, fun hptr => ?_, hmade⟩
      obtain ⟨hnative, hrun⟩ := hnull hptr
      simp only [perform, VhalNative.getInt32, VhalNative.Body.getInt32, hnative, hrun, escaping]
  | getBool propId areaId =>
      obtain ⟨hnull, hmade⟩ := access_spec s (.getBool · propId areaId) (fun _ => rfl)
        fun result => .ok (decide (result = 1))
      refine ⟨rfl, rfl, fun hptr => ?_, hmade⟩
      obtain ⟨hnative, hrun⟩ := hnull hptr
      simp only [perform, VhalNative.getBool, VhalNative.Body.getBool, hnative, hrun, escaping]
  | setInt32 propId areaId value =>
      obtain ⟨hnull, hmade⟩ := access_spec s (.setInt32 · propId areaId value) (fun _ => rfl)
        (VhalNative.Body.checked "int32" propId)
      refine ⟨rfl, rfl, fun hptr => ?_, hmade⟩
      obtain ⟨hnative, hrun⟩ := hnull hptr
      simp only [perform, VhalNative.setInt32, VhalNative.Body.setInt32, hnative, hrun, escaping]
  | setBool propId areaId value =>
      obtain ⟨hnull, hmade⟩ := access_spec s
        (.setBool · propId areaId (if value then 1 else 0)) (fun _ => rfl)
        (VhalNative.Body.checked "bool" propId)
      refine ⟨rfl, rfl, fun hptr => ?_, hmade⟩
      obtain ⟨hnative, hrun⟩ := hnull hptr
      simp only [perform, VhalNative.setBool, VhalNative.Body.setBool, hnative, hrun, escaping]

theorem perform_operation (s : NativeState) (operation : Operation) :
    (perform s operation).1.operation = operation := by
  cases operation <;> rfl

/-- The only handle that an operation passes down is the one in the field. -/
theorem passed_eq_clientPtr (s : NativeState) (operation : Operation) {call : NativeCall}
    (hcall : call ∈ (perform s operation).1.native) {c : ClientPtr} (hc : call.passed = some c) :
    c = s.clientPtr ∧ s.clientPtr ≠ 0 := by
  by_cases haccess : operation.IsAccess
  · obtain ⟨-, -, hnull, hconnected⟩ := perform_access s haccess
    by_cases hptr : s.clientPtr = 0
    · rw [hnull hptr] at hcall
      cases hcall
    · obtain ⟨made, hnative, hhandle⟩ := hconnected hptr
      rw [hnative, List.mem_singleton] at hcall
      subst hcall
      exact ⟨(Option.some.inj hc).symm.trans hhandle, hptr⟩
  · cases operation with
    | init =>
        rcases perform_init s with ⟨e, hinit⟩ | hinit
        · rw [hinit, List.mem_singleton] at hcall
          subst hcall
          cases hc
        · rw [hinit, List.mem_singleton] at hcall
          subst hcall
          cases hc
    | release =>
        rw [perform_release] at hcall
        dsimp only at hcall
        split at hcall
        · cases hcall
        · rename_i hptr
          rw [List.mem_singleton] at hcall
          subst hcall
          exact ⟨(Option.some.inj hc).symm, hptr⟩
    | _ => exact absurd trivial haccess

/-! ## The invariant -/

/-- The client was connected and not disconnected. -/
def Connected (c : ClientPtr) (past : List Executed) : Prop :=
  .connect c ∈ nativeCalls past ∧ .disconnect c ∉ nativeCalls past

/-- The field holds a connected client or nothing; no client is disconnected twice; and
the live clients are the connected ones. -/
structure Sound (past : List Executed) (s : NativeState) : Prop where
  current : s.clientPtr ≠ 0 → Connected s.clientPtr past
  issued : ∀ c, .connect c ∈ nativeCalls past → c ≤ s.clients.attempts
  matched : ∀ c, .disconnect c ∈ nativeCalls past → .connect c ∈ nativeCalls past
  once : ∀ c, (nativeCalls past).count (.disconnect c) ≤ 1
  live : ∀ c, c ∈ s.clients.live ↔ c ≠ 0 ∧ Connected c past
  nodup : s.clients.live.Nodup

theorem nativeCalls_append_singleton (past : List Executed) (e : Executed) :
    nativeCalls (past ++ [e]) = nativeCalls past ++ e.native := by
  simp [nativeCalls]

theorem loaded_sound (createFails : Nat → Bool) (vhal : Service) :
    Sound [] (.loaded createFails vhal) where
  current h := absurd rfl h
  issued c h := by cases h
  matched c h := by cases h
  once c := by simp [nativeCalls]
  live c := by simp [NativeState.loaded, Connected, nativeCalls]
  nodup := List.nodup_nil

/-- A step that neither connects nor disconnects keeps the invariant. -/
theorem Sound.of_quiet {past : List Executed} {s s' : NativeState} (h : Sound past s)
    {e : Executed} (hconnect : ∀ c, .connect c ∉ e.native)
    (hdisconnect : ∀ c, .disconnect c ∉ e.native) (hptr : s'.clientPtr = s.clientPtr)
    (hclients : s'.clients = s.clients) : Sound (past ++ [e]) s' := by
  have hconnected : ∀ c, Connected c (past ++ [e]) ↔ Connected c past := by
    intro c
    simp [Connected, nativeCalls_append_singleton, hconnect c, hdisconnect c]
  refine ⟨?_, ?_, ?_, ?_, ?_, hclients ▸ h.nodup⟩
  · rw [hptr]
    exact fun hne => (hconnected _).2 (h.current hne)
  · intro c hc
    rw [nativeCalls_append_singleton, List.mem_append] at hc
    rw [hclients]
    exact h.issued c (hc.resolve_right (hconnect c))
  · intro c hc
    rw [nativeCalls_append_singleton, List.mem_append] at hc ⊢
    exact Or.inl (h.matched c (hc.resolve_right (hdisconnect c)))
  · intro c
    rw [nativeCalls_append_singleton, List.count_append, List.count_eq_zero.2 (hdisconnect c)]
    exact h.once c
  · intro c
    rw [hclients, hconnected c]
    exact h.live c

/-- A new client, or none, keeps the invariant. -/
theorem Sound.connect {past : List Executed} {s s' : NativeState} (h : Sound past s)
    {e : Executed} (hnative : e.native = [.connect s'.clientPtr])
    (hattempts : s'.clients.attempts = s.clients.attempts + 1)
    (hresult : s'.clientPtr = 0 ∧ s'.clients.live = s.clients.live ∨
      s'.clientPtr = s.clients.attempts + 1 ∧
        s'.clients.live = s'.clientPtr :: s.clients.live) : Sound (past ++ [e]) s' := by
  have hconnect : ∀ c, .connect c ∈ nativeCalls (past ++ [e]) ↔
      .connect c ∈ nativeCalls past ∨ c = s'.clientPtr := by
    intro c
    simp [nativeCalls_append_singleton, hnative]
  have hdisconnect : ∀ c, .disconnect c ∈ nativeCalls (past ++ [e]) ↔
      .disconnect c ∈ nativeCalls past := by
    intro c
    simp [nativeCalls_append_singleton, hnative]
  -- the number of the next client is new
  have hnew : .connect (s.clients.attempts + 1) ∉ nativeCalls past := by
    intro hold
    have hle := h.issued _ hold
    omega
  refine ⟨?_, ?_, ?_, ?_, ?_, ?_⟩
  · intro hptr
    refine ⟨(hconnect _).2 (Or.inr rfl), ?_⟩
    rw [hdisconnect]
    intro hold
    rcases hresult with ⟨hzero, -⟩ | ⟨hfresh, -⟩
    · exact hptr hzero
    · rw [hfresh] at hold
      exact hnew (h.matched _ hold)
  · intro c hc
    rcases (hconnect c).1 hc with hold | rfl
    · have hle := h.issued c hold
      omega
    · rcases hresult with ⟨hzero, -⟩ | ⟨hfresh, -⟩
      · exact Nat.le_trans (Nat.le_of_eq hzero) (Nat.zero_le _)
      · exact Nat.le_of_eq (hfresh.trans hattempts.symm)
  · intro c hc
    exact (hconnect c).2 (Or.inl (h.matched c ((hdisconnect c).1 hc)))
  · intro c
    rw [nativeCalls_append_singleton, hnative, List.count_append]
    have honce := h.once c
    simpa using honce
  · intro c
    rw [Connected, hconnect, hdisconnect]
    have hlive := h.live c
    rw [Connected] at hlive
    rcases hresult with ⟨hzero, hsame⟩ | ⟨hfresh, hcons⟩
    · rw [hsame, hlive, hzero]
      grind
    · rw [hcons, List.mem_cons, hlive, hfresh]
      have hunmatched := h.matched c
      grind
  · rcases hresult with ⟨-, hsame⟩ | ⟨hfresh, hcons⟩
    · exact hsame ▸ h.nodup
    · rw [hcons, List.nodup_cons, hfresh]
      exact ⟨fun hmem => hnew ((h.live _).1 hmem).2.1, h.nodup⟩

/-- Disconnecting the client of the field keeps the invariant. -/
theorem Sound.disconnect {past : List Executed} {s s' : NativeState} (h : Sound past s)
    (hheld : s.clientPtr ≠ 0) {e : Executed} (hnative : e.native = [.disconnect s.clientPtr])
    (hptr : s'.clientPtr = 0) (hattempts : s'.clients.attempts = s.clients.attempts)
    (hlive : s'.clients.live = s.clients.live.erase s.clientPtr) : Sound (past ++ [e]) s' := by
  obtain ⟨hcurrent, hopen⟩ := h.current hheld
  have hconnect : ∀ c, .connect c ∈ nativeCalls (past ++ [e]) ↔
      .connect c ∈ nativeCalls past := by
    intro c
    simp [nativeCalls_append_singleton, hnative]
  have hdisconnect : ∀ c, .disconnect c ∈ nativeCalls (past ++ [e]) ↔
      .disconnect c ∈ nativeCalls past ∨ c = s.clientPtr := by
    intro c
    simp [nativeCalls_append_singleton, hnative]
  refine ⟨fun hne => absurd hptr hne, ?_, ?_, ?_, ?_, ?_⟩
  · intro c hc
    rw [hattempts]
    exact h.issued c ((hconnect c).1 hc)
  · intro c hc
    rw [hconnect]
    rcases (hdisconnect c).1 hc with hold | rfl
    · exact h.matched c hold
    · exact hcurrent
  · intro c
    rw [nativeCalls_append_singleton, hnative, List.count_append]
    by_cases hc : c = s.clientPtr
    · subst hc
      simp [List.count_eq_zero.2 hopen]
    · have hother : NativeCall.disconnect s.clientPtr ≠ .disconnect c := by
        simpa using Ne.symm hc
      simpa [List.count_singleton, hother] using h.once c
  · intro c
    rw [hlive, h.nodup.mem_erase_iff, h.live c, Connected, Connected, hconnect, hdisconnect]
    grind
  · rw [hlive]
    exact h.nodup.erase _

theorem perform_sound (past : List Executed) (s : NativeState) (operation : Operation)
    (h : Sound past s) :
    Sound (past ++ [(perform s operation).1]) (perform s operation).2 := by
  by_cases haccess : operation.IsAccess
  · obtain ⟨hptr, hclients, hnull, hconnected⟩ := perform_access s haccess
    by_cases hzero : s.clientPtr = 0
    · exact h.of_quiet (by simp [hnull hzero]) (by simp [hnull hzero]) hptr hclients
    · obtain ⟨made, hnative, -⟩ := hconnected hzero
      exact h.of_quiet (by simp [hnative]) (by simp [hnative]) hptr hclients
  · cases operation with
    | init =>
        rcases perform_init s with ⟨e, hinit⟩ | hinit
        · rw [hinit]
          exact h.connect rfl rfl (Or.inl ⟨rfl, rfl⟩)
        · rw [hinit]
          exact h.connect rfl rfl (Or.inr ⟨rfl, rfl⟩)
    | release =>
        rw [perform_release]
        by_cases hheld : s.clientPtr = 0
        · apply h.of_quiet
          · simp [hheld]
          · simp [hheld]
          · exact hheld.symm
          · simp [vhalDisconnect, hheld]
        · apply h.disconnect hheld
          · simp [hheld]
          · rfl
          · simp [vhalDisconnect, hheld]
          · simp [vhalDisconnect, hheld]
    | _ => exact absurd trivial haccess

theorem history_sound (createFails : Nat → Bool) (vhal : Service) (operations : List Operation) :
    Sound (history operations (.loaded createFails vhal))
      (after operations (.loaded createFails vhal)) :=
  TracedRuns.invariant perform_sound (loaded_sound createFails vhal) operations

/-! ## Handle safety -/

/-- The operation leaves the class without a handle: a release, or an `init` that threw. -/
def Executed.Drops (e : Executed) : Prop :=
  e.operation = .release ∨ e.operation = .init ∧ e.thrown ≠ none

/-- An `init` that returned. -/
def Executed.Reconnects (e : Executed) : Prop :=
  e.operation = .init ∧ e.thrown = none

theorem clientPtr_of_drops {s : NativeState} {operation : Operation}
    (h : (perform s operation).1.Drops) : (perform s operation).2.clientPtr = 0 := by
  rw [Executed.Drops, perform_operation] at h
  rcases h with rfl | ⟨rfl, hthrown⟩
  · rw [perform_release]
  · rcases perform_init s with ⟨e, hinit⟩ | hinit
    · rw [hinit]
    · rw [hinit] at hthrown
      exact absurd rfl hthrown

/-- Without a reconnection the class stays without a handle. -/
theorem clientPtr_of_not_reconnects {operations : List Operation} {s : NativeState}
    (hptr : s.clientPtr = 0) (hquiet : ∀ e ∈ history operations s, ¬ e.Reconnects) :
    (after operations s).clientPtr = 0 := by
  induction operations generalizing s with
  | nil => exact hptr
  | cons operation operations ih =>
      have hfirst : ¬ (perform s operation).1.Reconnects := hquiet _ List.mem_cons_self
      apply ih
      · show (perform s operation).2.clientPtr = 0
        rw [Executed.Reconnects, perform_operation] at hfirst
        by_cases haccess : operation.IsAccess
        · exact (perform_access s haccess).1.trans hptr
        · cases operation with
          | init =>
              rcases perform_init s with ⟨e, hinit⟩ | hinit
              · rw [hinit]
              · rw [hinit] at hfirst
                exact absurd ⟨rfl, rfl⟩ hfirst
          | release => rw [perform_release]
          | _ => exact absurd trivial haccess
      · exact fun e he => hquiet e (List.mem_cons_of_mem _ he)

/-- **Handle safety.**  In every run of the class from its loading, a handle that is
passed down to native code is not zero and belongs to a client that was connected and
not disconnected before; no client is disconnected twice; and after a release or a
failed `init` every access throws and makes no native call, until an `init` returns. -/
theorem handles_safe (createFails : Nat → Bool) (vhal : Service) (operations : List Operation) :
    let run := history operations (.loaded createFails vhal)
    (∀ before e rest, run = before ++ e :: rest → ∀ call ∈ e.native, ∀ c, call.passed = some c →
      c ≠ 0 ∧ Connected c before) ∧
    (∀ c, (nativeCalls run).count (.disconnect c) ≤ 1) ∧
    ∀ before e middle access rest, run = before ++ e :: (middle ++ access :: rest) → e.Drops →
      (∀ m ∈ middle, ¬ m.Reconnects) → access.operation.IsAccess →
      access.thrown = some VhalNative.notInitialized ∧ access.native = [] := by
  intro run
  refine ⟨?_, (history_sound createFails vhal operations).once, ?_⟩
  · intro before e rest hrun call hcall c hc
    obtain ⟨operations₁, operation, operations₂, rfl, rfl, rfl, -⟩ :=
      TracedRuns.trace_eq_append_cons perform hrun
    obtain ⟨rfl, hptr⟩ := passed_eq_clientPtr _ operation hcall hc
    exact ⟨hptr, (history_sound createFails vhal operations₁).current hptr⟩
  · intro before e middle access rest hrun hdrops hquiet haccess
    obtain ⟨operations₁, operation, operations₂, rfl, rfl, rfl, hrest⟩ :=
      TracedRuns.trace_eq_append_cons perform hrun
    obtain ⟨operations₃, operation', operations₄, rfl, rfl, rfl, -⟩ :=
      TracedRuns.trace_eq_append_cons perform hrest
    have hptr := clientPtr_of_not_reconnects (clientPtr_of_drops hdrops) hquiet
    rw [perform_operation] at haccess
    rw [(perform_access _ haccess).2.2.1 hptr]
    exact ⟨rfl, rfl⟩

/-! ## Leaked clients -/

/-- At most one client is connected, and it is the one in the field, where a later
`release` finds it. -/
def NativeState.NoLeak (s : NativeState) : Prop :=
  s.clients.live.length ≤ 1 ∧ ∀ c ∈ s.clients.live, c = s.clientPtr

instance (s : NativeState) : Decidable s.NoLeak := inferInstanceAs (Decidable (_ ∧ _))

theorem loaded_noLeak (createFails : Nat → Bool) (vhal : Service) :
    (NativeState.loaded createFails vhal).NoLeak :=
  ⟨Nat.zero_le 1, by simp [NativeState.loaded]⟩

/-- Without a handle and without a leak no client is connected. -/
theorem NativeState.NoLeak.live_eq_nil {past : List Executed} {s : NativeState} (h : s.NoLeak)
    (hsound : Sound past s) (hptr : s.clientPtr = 0) : s.clients.live = [] := by
  apply List.eq_nil_iff_forall_not_mem.2
  intro c hc
  exact ((hsound.live c).1 hc).1 ((h.2 c hc).trans hptr)

/-- An operation leaks nothing, unless it is an `init` on top of a handle. -/
theorem perform_noLeak {past : List Executed} {s : NativeState} (hsound : Sound past s)
    (h : s.NoLeak) {operation : Operation} (hinit : operation = .init → s.clientPtr = 0) :
    (perform s operation).2.NoLeak := by
  by_cases haccess : operation.IsAccess
  · obtain ⟨hptr, hclients, -⟩ := perform_access s haccess
    rw [NativeState.NoLeak, hptr, hclients]
    exact h
  · cases operation with
    | init =>
        have hnone := h.live_eq_nil hsound (hinit rfl)
        rcases perform_init s with ⟨e, hfailed⟩ | hconnected
        · rw [hfailed]
          simp [NativeState.NoLeak, hnone]
        · rw [hconnected]
          simp [NativeState.NoLeak, hnone]
    | release =>
        rw [perform_release]
        have hnone : (vhalDisconnect s.clientPtr s.clients).live = [] := by
          by_cases hptr : s.clientPtr = 0
          · simpa [vhalDisconnect, hptr] using h.live_eq_nil hsound hptr
          · apply List.eq_nil_iff_forall_not_mem.2
            intro c hc
            simp only [vhalDisconnect, hptr, if_false] at hc
            obtain ⟨hne, hmem⟩ := hsound.nodup.mem_erase_iff.1 hc
            exact hne (h.2 c hmem)
        simp [NativeState.NoLeak, hnone]
    | _ => exact absurd trivial haccess

/-- An `init` on top of a handle leaks, whether it connects or not. -/
theorem init_leaks {past : List Executed} {s : NativeState} (hsound : Sound past s)
    (hptr : s.clientPtr ≠ 0) : ¬ (perform s .init).2.NoLeak := by
  have hlive : s.clientPtr ∈ s.clients.live :=
    (hsound.live _).2 ⟨hptr, hsound.current hptr⟩
  rcases perform_init s with ⟨e, hfailed⟩ | hconnected
  -- the old client is connected and the field is zero
  · rw [hfailed]
    intro h
    exact hptr (h.2 _ hlive)
  -- two clients are connected
  · rw [hconnected]
    intro h
    have hlength := h.1
    have hpos := List.length_pos_of_mem hlive
    simp only [List.length_cons] at hlength
    omega

/-- In a run of the class nothing leaks at any time, exactly when every `init` finds the
class without a handle. -/
theorem operations_noLeak_iff (createFails : Nat → Bool) (vhal : Service)
    (operations : List Operation) :
    (∀ before rest, operations = before ++ rest →
      (after before (.loaded createFails vhal)).NoLeak) ↔
    ∀ before rest, operations = before ++ .init :: rest →
      (after before (.loaded createFails vhal)).clientPtr = 0 := by
  constructor
  · rintro hall before rest rfl
    by_contra hptr
    have hleak := hall (before ++ [.init]) rest (by simp)
    rw [after, TracedRuns.final_append] at hleak
    exact init_leaks (history_sound createFails vhal before) hptr hleak
  · rintro hinit before rest rfl
    induction before using List.reverseRecOn generalizing rest with
    | nil => exact loaded_noLeak createFails vhal
    | append_singleton before operation ih =>
        rw [after, TracedRuns.final_append]
        have hbefore := ih (operation :: rest) (by simpa using hinit)
        apply perform_noLeak (history_sound createFails vhal before) hbefore
        rintro rfl
        exact hinit before rest (by simp)

end Vhal
end Veos
