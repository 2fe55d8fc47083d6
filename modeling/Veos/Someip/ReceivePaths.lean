import Veos.Someip.StatusRuns

/-!
# The two receive paths

`ProtobufDataHandler::handleProtobufData` and the Status callback of `main` both
decrypt a buffer, parse it and hand the message to the handler.  The first returns on
an empty plaintext and lets the exception of the decryption escape; the second parses
whatever was decrypted and catches.

The two differ on one kind of buffer.  The empty byte string is the message with all
defaults, so a buffer that decrypts to nothing makes the callback of a connected
client reset the twelve properties, and makes `handleProtobufData` do nothing.
-/

namespace Veos
namespace Someip

open Vhal Base128

variable (p : Platform) (c : ClientPtr)

/-- `ParseFromArray` on a cleared message: the parser of `ParseFromString` on the first
`size` bytes. -/
def parseFromArray (data : Bytes) (size : Nat) : Option PrimaryVehicleState :=
  parseFromString (data.take size)

/-- `ProtobufDataHandler::handleProtobufData`, with the exception that leaves it.  The
size it passes on is the count that libcrypto returned as an `int`. -/
def handleProtobufData (encryptedData : Bytes) (v : Service) : Except RuntimeError Unit × Service :=
  match decryptByteBufferRSA p encryptedData with
  | .error e => (.error e, v)
  | .ok decryptedData =>
      if decryptedData.isEmpty then (.ok (), v)
      else
        match parseFromArray decryptedData decryptedData.length with
        | some primaryState => (.ok (), processPrimaryVehicleState c primaryState v)
        | none => (.ok (), v)

/-- The writes asked of the VHAL between the state `start` of a service and its later
state `v`, whether they succeeded or not. -/
def requestsSince (v start : Service) : List (Key × List Int32) :=
  (v.setsSince start).map fun call => (call.key, call.values)

theorem requestsSince_self (v : Service) : requestsSince v v = [] := by
  rw [requestsSince, (Extends.refl v).setsSince]
  rfl

/-- A connected handler asks for one write of each signal. -/
theorem requestsSince_process {c : ClientPtr} (hc : c ≠ 0) (s : PrimaryVehicleState)
    (v : Service) : requestsSince (processPrimaryVehicleState c s v) v = statusRequests s := by
  rw [requestsSince, (process_extends c s v).setsSince, statusCalls, if_neg hc]
  exact v.answers_map (statusRequests s)

/-! ## One buffer -/

/-- A plaintext that is not empty takes the same way through both paths. -/
theorem handleProtobufData_eq_statusCallback {buffer : Bytes}
    (hplain : decryptByteBufferRSA p buffer ≠ .ok []) (v : Service) :
    (handleProtobufData p c buffer v).2 = statusCallback p c buffer v := by
  cases hdecrypt : decryptByteBufferRSA p buffer with
  | error e =>
      have hdecode : decodeStatus p buffer = .error e := by
        rw [decodeStatus, hdecrypt]
        rfl
      rw [handleProtobufData, statusCallback, hdecode, hdecrypt]
  | ok plain =>
      have hne : plain ≠ [] := by
        intro hnil
        exact hplain (by rw [hdecrypt, hnil])
      have hnonempty : plain.isEmpty = false := by simpa using hne
      have hdecode : decodeStatus p buffer = fromByteBuffer plain := by
        rw [decodeStatus, hdecrypt]
        rfl
      rw [handleProtobufData, statusCallback, hdecode, hdecrypt]
      simp only [hnonempty, Bool.false_eq_true, if_false, fromByteBuffer, parseFromArray,
        List.take_length]
      cases parseFromString plain <;> rfl

/-- A client without a VHAL connection writes nothing on either path. -/
theorem handleProtobufData_null (buffer : Bytes) (v : Service) :
    (handleProtobufData p 0 buffer v).2 = v := by
  unfold handleProtobufData
  cases decryptByteBufferRSA p buffer with
  | error e => rfl
  | ok plain =>
      show (if plain.isEmpty then _ else _ : Except RuntimeError Unit × Service).2 = v
      split
      · rfl
      · cases parseFromArray plain plain.length <;> rfl

theorem statusCallback_null (buffer : Bytes) (v : Service) : statusCallback p 0 buffer v = v := by
  unfold statusCallback
  cases decodeStatus p buffer <;> rfl

/-- The empty plaintext ends one path and is a message on the other. -/
theorem handleProtobufData_of_empty {buffer : Bytes}
    (hempty : decryptByteBufferRSA p buffer = .ok []) (v : Service) :
    handleProtobufData p c buffer v = (.ok (), v) := by
  rw [handleProtobufData, hempty]
  rfl

theorem statusCallback_of_empty {buffer : Bytes}
    (hempty : decryptByteBufferRSA p buffer = .ok []) (v : Service) :
    statusCallback p c buffer v = processPrimaryVehicleState c {} v := by
  rw [statusCallback, decodeStatus, hempty]
  rfl

/-- **When the two receive paths agree.**  On any VHAL they ask for the same writes,
exactly when the buffer does not decrypt to the empty string or the client has no
connection. -/
theorem receivePaths_iff (buffer : Bytes) (v : Service) :
    requestsSince (handleProtobufData p c buffer v).2 v =
        requestsSince (statusCallback p c buffer v) v ↔
      decryptByteBufferRSA p buffer ≠ .ok [] ∨ c = 0 := by
  constructor
  · intro hsame
    by_cases hc : c = 0
    · exact Or.inr hc
    · refine Or.inl ?_
      intro hempty
      rw [handleProtobufData_of_empty p c hempty, statusCallback_of_empty p c hempty,
        requestsSince_self, requestsSince_process hc] at hsame
      exact absurd hsame (by simp [statusRequests, Signal.all])
  · rintro (hplain | rfl)
    · rw [handleProtobufData_eq_statusCallback p c hplain]
    · rw [handleProtobufData_null, statusCallback_null]

/-- The buffer `[0]` decrypts to nothing.  The callback then sets all twelve properties
to zero, and `handleProtobufData` sets none. -/
theorem receivePaths_disagree :
    decryptByteBufferRSA paddingPlatform [0] = .ok [] ∧
    requestsSince (handleProtobufData paddingPlatform 1 [0] (.fresh fun _ => [7])).2
      (.fresh fun _ => [7]) = [] ∧
    requestsSince (statusCallback paddingPlatform 1 [0] (.fresh fun _ => [7]))
      (.fresh fun _ => [7]) = Signal.all.map fun signal => (signal.key, [0]) :=
  ⟨rfl, rfl, rfl⟩

/-! ## Sequences of buffers -/

/-- A sequence of buffers on the first path. -/
def runHandled (events : List Bytes) (v : Service) : Service :=
  events.foldl (fun v buffer => (handleProtobufData p c buffer v).2) v

/-- Without an empty plaintext the paths take a VHAL to the same state. -/
theorem runHandled_eq_runStatus {events : List Bytes}
    (hplain : ∀ buffer ∈ events, decryptByteBufferRSA p buffer ≠ .ok []) (v : Service) :
    runHandled p c events v = runStatus p c events v := by
  induction events generalizing v with
  | nil => rfl
  | cons buffer events ih =>
      have hbuffer := handleProtobufData_eq_statusCallback p c (hplain buffer List.mem_cons_self) v
      have hevents := ih (fun other hother => hplain other (List.mem_cons_of_mem buffer hother))
        (statusCallback p c buffer v)
      rw [runHandled, List.foldl_cons, hbuffer]
      exact hevents

end Someip
end Veos
