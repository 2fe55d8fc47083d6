import Veos.Someip.SecureChannel

/-!
# The length that libcrypto is given

`encryptByteBufferRSA` casts the size of its input to `int` before libcrypto can compare
it with the modulus.  A buffer of `2 ^ 32` bytes and more is seen with its length modulo
`2 ^ 32`: if that residue fits under the padding, libcrypto encrypts so many leading
bytes and reports success.
-/

namespace Veos
namespace Someip

open Base128

section Buffers

variable {p : Platform} {pub : p.PublicKey} {priv : p.PrivateKey} {k : Nat}
  {publicKeyPath privateKeyPath : String}

/-- Encryption throws when the residue of the length is beyond the limit. -/
theorem encryptByteBufferRSA_of_long (hpub : loadPublicKey p publicKeyPath = .ok pub)
    (hkeys : OaepLimits p pub priv k) (seed : Nat) (input : Bytes)
    (hlong : k - 42 < input.length % 2 ^ 32) :
    encryptByteBufferRSA p seed input publicKeyPath =
      .error ⟨"RSA encryption failed: " ++ p.errErrorString⟩ := by
  simp only [encryptByteBufferRSA, hpub, hkeys.refuses_length seed input hlong]

/-- Otherwise the receiver gets as many leading bytes as the residue says. -/
theorem encryptByteBufferRSA_of_short (hpub : loadPublicKey p publicKeyPath = .ok pub)
    (hpriv : loadPrivateKey p privateKeyPath = .ok priv) (hkeys : OaepLimits p pub priv k)
    (seed : Nat) (input : Bytes) (hshort : input.length % 2 ^ 32 ≤ k - 42) :
    ∃ cipher, encryptByteBufferRSA p seed input publicKeyPath = .ok cipher ∧
      decryptByteBufferRSA p cipher privateKeyPath =
        .ok (input.take (input.length % 2 ^ 32)) := by
  obtain ⟨block, hencrypt, -, hdecrypt⟩ := hkeys.inverts_length seed input hshort
  refine ⟨block, ?_, ?_⟩
  · simp only [encryptByteBufferRSA, hpub, hencrypt, outputBuffer_eq]
  · simp only [decryptByteBufferRSA, hpriv, hdecrypt, outputBuffer_eq]

/-- Cutting a buffer at its length modulo `2 ^ 32` keeps it exactly when it is shorter. -/
theorem take_length_mod_iff (input : Bytes) :
    input.take (input.length % 2 ^ 32) = input ↔ input.length < 2 ^ 32 := by
  rw [List.take_eq_self_iff]
  omega

/-- **Encrypt or fail.**  For every buffer and every matching pair of keys: what a
successful encryption returns decrypts to the buffer exactly when the buffer has fewer than
`2 ^ 32` bytes, or its length modulo `2 ^ 32` exceeds the limit of the keys, so that the
encryption throws. -/
theorem decrypt_encrypt_iff (hpub : loadPublicKey p publicKeyPath = .ok pub)
    (hpriv : loadPrivateKey p privateKeyPath = .ok priv) (hkeys : OaepLimits p pub priv k)
    (seed : Nat) (input : Bytes) :
    (∀ cipher, encryptByteBufferRSA p seed input publicKeyPath = .ok cipher →
      decryptByteBufferRSA p cipher privateKeyPath = .ok input) ↔
    input.length < 2 ^ 32 ∨ k - 42 < input.length % 2 ^ 32 := by
  by_cases hlong : k - 42 < input.length % 2 ^ 32
  · refine iff_of_true (fun cipher hcipher => ?_) (Or.inr hlong)
    rw [encryptByteBufferRSA_of_long hpub hkeys seed input hlong] at hcipher
    cases hcipher
  · obtain ⟨cipher, hencrypt, hdecrypt⟩ :=
      encryptByteBufferRSA_of_short hpub hpriv hkeys seed input (Nat.not_lt.1 hlong)
    rw [or_iff_left hlong, ← take_length_mod_iff, hencrypt]
    constructor
    · intro hreturns
      have hreceived := hreturns cipher rfl
      rw [hdecrypt] at hreceived
      exact Except.ok.inj hreceived
    · rintro hkept other hother
      rw [← Except.ok.inj hother, hdecrypt, hkept]

end Buffers

theorem paddingPlatform_loadPublicKey : loadPublicKey paddingPlatform "" = .ok () := rfl

theorem paddingPlatform_loadPrivateKey : loadPrivateKey paddingPlatform "" = .ok () := rfl

/-- Three bytes are encrypted whole. -/
theorem decrypt_encrypt_three_bytes :
    ∃ cipher, encryptByteBufferRSA paddingPlatform 0 [1, 2, 3] "" = .ok cipher ∧
      decryptByteBufferRSA paddingPlatform cipher "" = .ok [1, 2, 3] := by
  have hshort : ([1, 2, 3] : Bytes).length < 2 ^ 32 := by decide
  have hreturns := (decrypt_encrypt_iff paddingPlatform_loadPublicKey
    paddingPlatform_loadPrivateKey paddingPlatform_oaepLimits 0 [1, 2, 3]).2 (Or.inl hshort)
  exact ⟨_, rfl, hreturns _ rfl⟩

/-- A buffer of `2 ^ 32` bytes is encrypted as if it were empty. -/
theorem long_buffer_truncated :
    let input : Bytes := List.replicate (2 ^ 32) 0
    ∃ cipher, encryptByteBufferRSA paddingPlatform 0 input "" = .ok cipher ∧
      decryptByteBufferRSA paddingPlatform cipher "" = .ok [] ∧ input ≠ [] := by
  intro input
  have hlength : input.length = 2 ^ 32 := List.length_replicate
  have hresidue : input.length % 2 ^ 32 = 0 := by rw [hlength, Nat.mod_self]
  have hshort : input.length % 2 ^ 32 ≤ 256 - 42 := by
    rw [hresidue]
    exact Nat.zero_le _
  obtain ⟨cipher, hencrypt, hdecrypt⟩ :=
    encryptByteBufferRSA_of_short paddingPlatform_loadPublicKey paddingPlatform_loadPrivateKey
      paddingPlatform_oaepLimits 0 input hshort
  rw [hresidue, List.take_zero] at hdecrypt
  refine ⟨cipher, hencrypt, hdecrypt, fun hempty => ?_⟩
  rw [hempty] at hlength
  cases hlength

end Someip
end Veos
