import IsoLightK0.Support.Bytes

/-!
# Bus driver vocabulary and the external crates

The enumerations shared by the transports of `bus.rs`, and the primitives
that the kernel takes from external crates.  The primitives are parameters:
every result holds for all of their behaviours.
-/

namespace IsoLightK0

open Bytes

inductive BusKind
  | software
  | ring3Process
  | usb
  | spi
  | serial
  | smartCard
  | network
  deriving DecidableEq, Repr

/-- The `u8` discriminants of `BusKind`. -/
def BusKind.octet : BusKind → Byte
  | .software => 0
  | .ring3Process => 1
  | .usb => 2
  | .spi => 3
  | .serial => 4
  | .smartCard => 5
  | .network => 6

inductive BusError
  | notImplemented
  | notOpen
  | alreadyOpen
  | wireNotReady
  | badInit
  | bufferTooSmall
  | closed
  | internal
  deriving DecidableEq, Repr

-- decided along the list and not over all octets
instance decidableReserved (reserved : List Byte) :
    Decidable (∃ octet ∈ reserved, octet ≠ 0) :=
  List.decidableBEx (· ≠ 0) reserved

structure BusReady where
  readable : Bool
  writable : Bool
  closed : Bool
  deriving DecidableEq, Repr

inductive SoftHsmRole
  | echo
  | blake3
  | aesGcm
  deriving DecidableEq, Repr

/-- The cryptographic primitives of the external crates. -/
structure Crates where
  /-- `Blake3::new`, one `update`, `finalize`; `none` when `finalize`
  fails. -/
  blake3 : List Byte → Option (Buf 32)
  /-- `AES256GCM::encrypt` under a key and a nonce, without associated data:
  the ciphertext, as long as the data, and the tag. -/
  aes256GcmEncrypt :
    Buf 32 → Buf 12 → (data : List Byte) → Buf data.length × Buf 16
  /-- `MLDSA44::verify` of public key, message, signature and context;
  `none` when it returns an error. -/
  mldsa44Verify :
    Buf 1312 → List Byte → Buf 2420 → List Byte → Option Bool

/-- Primitives that always fail, for concrete runs that call none of them. -/
def Crates.inert : Crates where
  blake3 := fun _ => none
  aes256GcmEncrypt := fun _ _ _ => (Buf.zero, Buf.zero)
  mldsa44Verify := fun _ _ _ _ => none

end IsoLightK0
