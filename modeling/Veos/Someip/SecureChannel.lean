import Veos.Library.Narrowing
import Veos.Someip.VehicleState

/-!
# Serializing and encrypting a vehicle state

`VehicleProtoConverter` and `RSAHelper`: a state becomes a byte buffer and the
buffer is encrypted with RSA under OAEP padding; the receiver goes the other way.

What these functions use of the platform is a parameter: the environment, the
file system, and libcrypto with its key types.  OAEP is randomized, so encryption
also takes the randomness it draws.  `OaepLimits` states what libcrypto documents
for a matching key pair and any length argument, `OaepPair` what that means for
plaintexts that fit; nothing else is assumed of it.
-/

namespace Veos
namespace Someip

open Base128

/-- `std::runtime_error`, with its message. -/
structure RuntimeError where
  what : String
  deriving DecidableEq, Repr

/-- What the code calls outside itself.  The two RSA operations return the bytes
they wrote, or `none` for the return value `-1`. -/
structure Platform where
  PublicKey : Type
  PrivateKey : Type
  getenv : String → Option String
  readFile : String → Option Bytes
  pemReadRsaPubkey : Bytes → Option PublicKey
  pemReadRsaPrivateKey : Bytes → Option PrivateKey
  rsaSizePublic : PublicKey → Nat
  rsaSizePrivate : PrivateKey → Nat
  rsaPublicEncrypt : (seed : Nat) → (flen : Int32) → (source : Bytes) → PublicKey → Option Bytes
  rsaPrivateDecrypt : (flen : Int32) → (source : Bytes) → PrivateKey → Option Bytes
  errErrorString : String

variable (p : Platform)

/-! ## `RSAHelper` -/

/-- `getKeyPath`. -/
def getKeyPath (envVar defaultPath : String) : String :=
  (p.getenv envVar).getD defaultPath

/-- The path that is used when the caller gives `keyPath`. -/
def actualKeyPath (envVar defaultPath keyPath : String) : String :=
  if keyPath.isEmpty then getKeyPath p envVar defaultPath else keyPath

/-- Step 1 of both functions: open the key file and read the key. -/
def loadKey {Key : Type} (kind : String) (pemRead : Bytes → Option Key) (path : String) :
    Except RuntimeError Key :=
  match p.readFile path with
  | none => .error ⟨"Cannot open " ++ kind ++ " key file: " ++ path⟩
  | some pem =>
      match pemRead pem with
      | none => .error ⟨"Failed to load RSA " ++ kind ++ " key from: " ++ path⟩
      | some key => .ok key

def loadPublicKey (publicKeyPath : String) : Except RuntimeError p.PublicKey :=
  loadKey p "public" p.pemReadRsaPubkey
    (actualKeyPath p "RSA_PUBLIC_KEY_PATH" "public.pem" publicKeyPath)

def loadPrivateKey (privateKeyPath : String) : Except RuntimeError p.PrivateKey :=
  loadKey p "private" p.pemReadRsaPrivateKey
    (actualKeyPath p "RSA_PRIVATE_KEY_PATH" "private.pem" privateKeyPath)

/-- The output vector after libcrypto wrote `written` at its front, cut to the
returned count. -/
def outputBuffer (size : Nat) (written : Bytes) : Bytes :=
  (written ++ (List.replicate size 0).drop written.length).take written.length

/-- `encryptByteBufferRSA`.  The length of the input is cast to `int`. -/
def encryptByteBufferRSA (seed : Nat) (input : Bytes) (publicKeyPath : String := "") :
    Except RuntimeError Bytes :=
  match loadPublicKey p publicKeyPath with
  | .error e => .error e
  | .ok rsaPubKey =>
      match p.rsaPublicEncrypt seed (Int32.ofNat input.length) input rsaPubKey with
      | none => .error ⟨"RSA encryption failed: " ++ p.errErrorString⟩
      | some written => .ok (outputBuffer (p.rsaSizePublic rsaPubKey) written)

/-- `decryptByteBufferRSA`. -/
def decryptByteBufferRSA (input : Bytes) (privateKeyPath : String := "") :
    Except RuntimeError Bytes :=
  match loadPrivateKey p privateKeyPath with
  | .error e => .error e
  | .ok rsaPrivKey =>
      match p.rsaPrivateDecrypt (Int32.ofNat input.length) input rsaPrivKey with
      | none => .error ⟨"RSA decryption failed: " ++ p.errErrorString⟩
      | some written => .ok (outputBuffer (p.rsaSizePrivate rsaPrivKey) written)

@[simp] theorem outputBuffer_eq (size : Nat) (written : Bytes) :
    outputBuffer size written = written := by
  simp [outputBuffer]

/-! ## `VehicleProtoConverter` -/

/-- `VehicleProtoConverter::toByteBuffer`. -/
def toByteBuffer (state : PrimaryVehicleState) : Except RuntimeError Bytes :=
  match serializeToString state with
  | none => .error ⟨"Failed to serialize PrimaryVehicleState"⟩
  | some data => .ok data

/-- `VehicleProtoConverter::fromByteBuffer`. -/
def fromByteBuffer (buffer : Bytes) : Except RuntimeError PrimaryVehicleState :=
  match parseFromString buffer with
  | none => .error ⟨"Failed to parse PrimaryVehicleState from ByteBuffer"⟩
  | some state => .ok state

/-- The message serializes without error into at most 78 bytes. -/
theorem toByteBuffer_eq (s : PrimaryVehicleState) (hunknown : s.unknownFields = []) :
    toByteBuffer s = .ok (internalSerialize s) := by
  have hlength := internalSerialize_length_le s hunknown
  have hsmall : ¬ 2 ^ 31 - 1 < (internalSerialize s).length := by omega
  simp only [toByteBuffer, serializeToString, hsmall, if_false]

theorem fromByteBuffer_internalSerialize (s : PrimaryVehicleState)
    (hunknown : s.unknownFields = []) : fromByteBuffer (internalSerialize s) = .ok s := by
  rw [fromByteBuffer, parseFromString_internalSerialize s hunknown]

/-! ## RSA with OAEP -/

/-- The documented behaviour of RSA with OAEP for a matching pair of keys with a
modulus of `k` bytes: every plaintext of at most `k - 42` bytes encrypts to one
block, and decrypting the block returns the plaintext. -/
structure OaepPair (pub : p.PublicKey) (priv : p.PrivateKey) (k : Nat) : Prop where
  inverts : ∀ (seed : Nat) (plain : Bytes), plain.length ≤ k - 42 →
    ∃ block, p.rsaPublicEncrypt seed (Int32.ofNat plain.length) plain pub = some block ∧
      block.length = k ∧
      p.rsaPrivateDecrypt (Int32.ofNat block.length) block priv = some plain

/-- RSA with OAEP for a matching pair of keys with a modulus of `k` bytes.  A length that
is negative or exceeds `k - 42` is refused.  Any other length makes a block of that many
leading bytes, which the private key turns back into them. -/
structure OaepLimits (pub : p.PublicKey) (priv : p.PrivateKey) (k : Nat) : Prop where
  padding_lt : 42 < k
  /-- `RSA_size` returns an `int`. -/
  size_lt : k < 2 ^ 31
  refuses : ∀ (seed : Nat) (flen : Int32) (source : Bytes),
    flen.toInt < 0 ∨ (k : Int) - 42 < flen.toInt → p.rsaPublicEncrypt seed flen source pub = none
  inverts : ∀ (seed : Nat) (flen : Int32) (source : Bytes) (n : Nat), flen.toInt = n →
    n ≤ k - 42 → n ≤ source.length →
    ∃ block, p.rsaPublicEncrypt seed flen source pub = some block ∧ block.length = k ∧
      p.rsaPrivateDecrypt (Int32.ofNat block.length) block priv = some (source.take n)

section Limits

variable {p} {pub : p.PublicKey} {priv : p.PrivateKey} {k : Nat}
variable (hkeys : OaepLimits p pub priv k)

include hkeys

/-- A residue beyond the limit is refused, whether or not it is negative as an `int`. -/
theorem OaepLimits.refuses_length (seed : Nat) (input : Bytes)
    (hlong : k - 42 < input.length % 2 ^ 32) :
    p.rsaPublicEncrypt seed (Int32.ofNat input.length) input pub = none := by
  have hpadding := hkeys.padding_lt
  apply hkeys.refuses
  rw [Narrowing.toInt_ofNat, Narrowing.signed]
  split <;> omega

/-- A residue within the limit makes a block of that many leading bytes. -/
theorem OaepLimits.inverts_length (seed : Nat) (input : Bytes)
    (hshort : input.length % 2 ^ 32 ≤ k - 42) :
    ∃ block, p.rsaPublicEncrypt seed (Int32.ofNat input.length) input pub = some block ∧
      block.length = k ∧
      p.rsaPrivateDecrypt (Int32.ofNat block.length) block priv =
        some (input.take (input.length % 2 ^ 32)) := by
  have hsize := hkeys.size_lt
  apply hkeys.inverts
  · rw [Narrowing.toInt_ofNat, Narrowing.signed, if_pos (by omega)]
    rfl
  · exact hshort
  · exact Nat.mod_le _ _

/-- A plaintext that fits is its own leading bytes. -/
theorem OaepLimits.oaepPair : OaepPair p pub priv k where
  inverts seed plain hplain := by
    have hsize := hkeys.size_lt
    have hlength : plain.length % 2 ^ 32 = plain.length := Nat.mod_eq_of_lt (by omega)
    obtain ⟨block, hencrypt, hblock, hdecrypt⟩ :=
      hkeys.inverts_length seed plain (by rwa [hlength])
    rw [hlength, List.take_length] at hdecrypt
    exact ⟨block, hencrypt, hblock, hdecrypt⟩

end Limits

/-! ## The two pipelines -/

/-- For every state without unknown fields, and whatever randomness OAEP draws:
the serialized state fits the limit of a 2048-bit key, encryption succeeds, and
the receiver gets the state back. -/
theorem decrypt_encrypt_state {p : Platform} {pub : p.PublicKey} {priv : p.PrivateKey}
    {publicKeyPath privateKeyPath : String} (hpub : loadPublicKey p publicKeyPath = .ok pub)
    (hpriv : loadPrivateKey p privateKeyPath = .ok priv) (hpair : OaepPair p pub priv 256)
    (s : PrimaryVehicleState) (hunknown : s.unknownFields = []) (seed : Nat) :
    ∃ buffer cipher, toByteBuffer s = .ok buffer ∧ buffer.length ≤ 256 - 42 ∧
      encryptByteBufferRSA p seed buffer publicKeyPath = .ok cipher ∧
      (decryptByteBufferRSA p cipher privateKeyPath >>= fromByteBuffer) = .ok s := by
  have hlength := internalSerialize_length_le s hunknown
  have hfits : (internalSerialize s).length ≤ 256 - 42 := hlength.trans (by omega)
  obtain ⟨cipher, hencrypt, -, hdecrypt⟩ := hpair.inverts seed (internalSerialize s) hfits
  have hreceived : decryptByteBufferRSA p cipher privateKeyPath = .ok (internalSerialize s) := by
    simp only [decryptByteBufferRSA, hpriv, hdecrypt, outputBuffer_eq]
  refine ⟨internalSerialize s, cipher, toByteBuffer_eq s hunknown, hfits, ?_, ?_⟩
  · simp only [encryptByteBufferRSA, hpub, hencrypt, outputBuffer_eq]
  · rw [hreceived]
    exact fromByteBuffer_internalSerialize s hunknown

/-- A platform with one key pair.  Its padding puts the length in front of the
plaintext and fills the block of 256 bytes. -/
def paddingPlatform : Platform where
  PublicKey := Unit
  PrivateKey := Unit
  getenv _ := none
  readFile path := if path = "public.pem" ∨ path = "private.pem" then some [] else none
  pemReadRsaPubkey _ := some ()
  pemReadRsaPrivateKey _ := some ()
  rsaSizePublic _ := 256
  rsaSizePrivate _ := 256
  rsaPublicEncrypt _ flen source _ :=
    if flen < 0 ∨ 214 < flen.toInt then none
    else
      let plain := source.take flen.toInt.toNat
      some (UInt8.ofNat plain.length :: plain ++ List.replicate (255 - plain.length) 0)
  rsaPrivateDecrypt _ source _ :=
    match source with
    | [] => none
    | size :: rest => some (rest.take size.toNat)
  errErrorString := "data too large for key size"

theorem paddingPlatform_oaepLimits : OaepLimits paddingPlatform () () 256 where
  padding_lt := by decide
  size_lt := by decide
  refuses seed flen source hflen := by
    have hrefused : flen < 0 ∨ (214 : Int) < flen.toInt := by
      rw [Int32.lt_iff_toInt_lt]
      exact hflen
    simp only [paddingPlatform, hrefused, if_true]
  inverts seed flen source n hflen hfits hlength := by
    have haccepted : ¬ (flen < 0 ∨ (214 : Int) < n) := by
      rw [Int32.lt_iff_toInt_lt, hflen, Int32.toInt_zero]
      omega
    have htaken : (source.take n).length = n := List.length_take_of_le hlength
    have hbyte : (UInt8.ofNat n).toNat = n := by
      rw [UInt8.toNat_ofNat']
      omega
    refine ⟨UInt8.ofNat n :: source.take n ++ List.replicate (255 - n) 0, ?_, ?_, ?_⟩
    · simp only [paddingPlatform, hflen, haccepted, if_false, Int.toNat_natCast, htaken]
    · simp only [List.cons_append, List.length_cons, List.length_append, List.length_replicate,
        htaken]
      omega
    · have hfront : (source.take n ++ List.replicate (255 - n) 0).take n = source.take n :=
        List.take_left' htaken
      simp only [paddingPlatform, List.cons_append, hbyte, hfront]

/-- A state with a negative temperature, an unknown gear and a high timestamp
survives the round trip through `paddingPlatform`. -/
theorem decrypt_encrypt_state_padding :
    let s : PrimaryVehicleState :=
      { timestampMs := 4000000000, currentGear := -3, engineTempC := -40, acOn := true }
    ∃ buffer cipher, toByteBuffer s = .ok buffer ∧ buffer.length ≤ 256 - 42 ∧
      encryptByteBufferRSA paddingPlatform 0 buffer "" = .ok cipher ∧
      (decryptByteBufferRSA paddingPlatform cipher "" >>= fromByteBuffer) = .ok s :=
  decrypt_encrypt_state rfl rfl paddingPlatform_oaepLimits.oaepPair _ rfl 0

end Someip
end Veos
