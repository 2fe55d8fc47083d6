import Mathlib.Data.Nat.Digits.Lemmas

/-!
# Base-128 varints

A varint writes the base-128 digits of a number, least significant first, one
byte a digit.  Every byte but the last carries the continuation bit.  A reader
is given the largest number of bytes it may consume and fails when none of them
ends the number.

The reader returns the unread bytes, so that the round trip is stated in front
of arbitrary further input.
-/

namespace Base128

abbrev Bytes := List UInt8

/-- One byte a digit, with the continuation bit on every byte but the last. -/
def writeDigits : List Nat → Bytes
  | [] => [0]
  | [digit] => [UInt8.ofNat digit]
  | digit :: rest => UInt8.ofNat (digit + 128) :: writeDigits rest

/-- The varint of a number. -/
def encode (n : Nat) : Bytes := writeDigits (Nat.digits 128 n)

/-- Read a varint of at most `limit` bytes. -/
def decode : (limit : Nat) → Bytes → Option (Nat × Bytes)
  | 0, _ => none
  | _ + 1, [] => none
  | limit + 1, byte :: rest =>
      if byte.toNat < 128 then some (byte.toNat, rest)
      else (decode limit rest).map fun (high, rest) => (byte.toNat - 128 + 128 * high, rest)

theorem writeDigits_length (digits : List Nat) :
    (writeDigits digits).length = max 1 digits.length := by
  induction digits with
  | nil => rfl
  | cons digit rest ih =>
      cases rest with
      | nil => rfl
      | cons next rest =>
          simp only [writeDigits, List.length_cons, ih]
          omega

theorem decode_writeDigits (limit : Nat) (digits : List Nat) (rest : Bytes)
    (hdigits : ∀ digit ∈ digits, digit < 128) (hlimit : max 1 digits.length ≤ limit) :
    decode limit (writeDigits digits ++ rest) = some (Nat.ofDigits 128 digits, rest) := by
  induction digits generalizing limit with
  | nil =>
      obtain ⟨limit, rfl⟩ : ∃ m, limit = m + 1 := ⟨limit - 1, by simp at hlimit; omega⟩
      rfl
  | cons digit digits ih =>
      obtain ⟨limit, rfl⟩ : ∃ m, limit = m + 1 := ⟨limit - 1, by simp at hlimit; omega⟩
      have hdigit : digit < 128 := hdigits digit List.mem_cons_self
      cases digits with
      -- the last digit: no continuation bit, the reader stops
      | nil =>
          have hbyte : (UInt8.ofNat digit).toNat = digit := by
            rw [UInt8.toNat_ofNat']
            omega
          simp [writeDigits, decode, hbyte, hdigit]
      -- the reader takes the bit off again and goes on
      | cons next digits =>
          have hbyte : (UInt8.ofNat (digit + 128)).toNat = digit + 128 := by
            rw [UInt8.toNat_ofNat']
            omega
          have htail := ih limit (fun d hd => hdigits d (List.mem_cons_of_mem digit hd))
            (by simp at hlimit ⊢; omega)
          have hcontinues : ¬ digit + 128 < 128 := by omega
          have hvalue : Nat.ofDigits 128 (digit :: next :: digits) =
              digit + 128 * Nat.ofDigits 128 (next :: digits) := Nat.ofDigits_cons
          simp only [writeDigits, List.cons_append, decode, hbyte, hcontinues, if_false,
            htail, Option.map_some, hvalue, Nat.add_sub_cancel]

/-- A number below `2 ^ (7 * limit)` takes at most `limit` bytes. -/
theorem encode_length_le (n limit : Nat) (hpos : 0 < limit) (hn : n < 128 ^ limit) :
    (encode n).length ≤ limit := by
  have hdigits : (Nat.digits 128 n).length ≤ limit :=
    (Nat.digits_length_le_iff (by omega) n).2 hn
  rw [encode, writeDigits_length]
  omega

theorem encode_ne_nil (n : Nat) : encode n ≠ [] := by
  intro hnil
  have hlength := writeDigits_length (Nat.digits 128 n)
  rw [show writeDigits (Nat.digits 128 n) = [] from hnil] at hlength
  simp at hlength
  omega

/-- The reader undoes the writer, whatever follows. -/
theorem decode_encode (n limit : Nat) (rest : Bytes) (hpos : 0 < limit)
    (hn : n < 128 ^ limit) : decode limit (encode n ++ rest) = some (n, rest) := by
  have hlength : (Nat.digits 128 n).length ≤ limit :=
    (Nat.digits_length_le_iff (by omega) n).2 hn
  rw [encode, decode_writeDigits limit _ rest
    (fun digit hdigit => Nat.digits_lt_base (by omega) hdigit) (by omega), Nat.ofDigits_digits]

/-- A successful read consumes at least one byte. -/
theorem decode_shortens {limit n : Nat} {input rest : Bytes}
    (h : decode limit input = some (n, rest)) : rest.length < input.length := by
  induction limit generalizing input n rest with
  | zero => simp [decode] at h
  | succ limit ih =>
      cases input with
      | nil => simp [decode] at h
      | cons byte tail =>
          simp only [decode] at h
          split at h
          · simp only [Option.some.injEq, Prod.mk.injEq] at h
            simp [h.2]
          · obtain ⟨⟨high, tail'⟩, htail, heq⟩ := Option.map_eq_some_iff.1 h
            simp only [Prod.mk.injEq] at heq
            have hshort := ih htail
            rw [heq.2] at hshort
            simp only [List.length_cons]
            omega

/-- A successful read is not disturbed by further input. -/
theorem decode_append {limit n : Nat} {input rest : Bytes} (h : decode limit input = some (n, rest))
    (more : Bytes) : decode limit (input ++ more) = some (n, rest ++ more) := by
  induction limit generalizing input n rest with
  | zero => simp [decode] at h
  | succ limit ih =>
      cases input with
      | nil => simp [decode] at h
      | cons byte tail =>
          simp only [decode] at h
          simp only [List.cons_append, decode]
          split at h
          · rename_i hlast
            simp only [Option.some.injEq, Prod.mk.injEq] at h
            rw [if_pos hlast, h.1, h.2]
          · rename_i hlast
            obtain ⟨⟨high, tail'⟩, htail, heq⟩ := Option.map_eq_some_iff.1 h
            simp only [Prod.mk.injEq] at heq
            rw [if_neg hlast, ih htail, Option.map_some, heq.1, heq.2]

example : encode 300 = [0xAC, 0x02] := by decide

end Base128
