/-
  OpenFelt.Registry.Credentials — opaque reconnect credentials and access verifiers
  (`src/credentials.rs`).

  Translation. SHA-256 and Argon2id come from packages: `Hashes` stands for them, with
  the length of what they give. Bytes from the operating system are given to the call
  that draws them, the time in milliseconds since the epoch to the call that reads the
  clock. A text is decoded character by character: a byte outside ASCII is no digit.
-/

import Mathlib.Data.String.Basic
import OpenFelt.Lib.OrdMap
import OpenFelt.Protocol.AuthorizedTable
import OpenFelt.Protocol.RingHistory

namespace OpenFelt

def defaultCredentialCapacity : Nat := 1024

def maxCredentialCapacity : Nat := 4096

def tokenBytes : Nat := 32

def accessSaltBytes : Nat := 16

inductive CredentialRole where
  | guest
  | reconnect
  deriving DecidableEq, Repr

structure CredentialScope where
  tableId : TableId
  role : CredentialRole
  deriving DecidableEq, Repr

/-- The packages' digests. -/
structure Hashes where
  sha256 : List UInt8 → List UInt8
  argon2id : List UInt8 → List UInt8 → List UInt8
  sha256_length : ∀ message, (sha256 message).length = 32
  argon2id_length : ∀ password salt, (argon2id password salt).length = 32

inductive CredentialError where
  | invalidCapacity
  | capacityReached
  | malformed
  | unknownOrExpired
  | wrongScope
  | invalidDurableRecord
  deriving DecidableEq, Repr

/-! ## Hexadecimal texts -/

def textBytes (text : String) : List UInt8 := text.toUTF8.data.toList

def hexDigits : List Char := "0123456789abcdef".toList

def hexPair (byte : UInt8) : List Char :=
  [hexDigits.getD (byte.toNat / 16) '0', hexDigits.getD (byte.toNat % 16) '0']

def hex (bytes : List UInt8) : String := String.ofList (bytes.flatMap hexPair)

/-- `char::to_digit(16)`. -/
def hexValue (c : Char) : Option Nat :=
  if '0' ≤ c ∧ c ≤ '9' then some (c.toNat - '0'.toNat)
  else if 'a' ≤ c ∧ c ≤ 'f' then some (c.toNat - 'a'.toNat + 10)
  else if 'A' ≤ c ∧ c ≤ 'F' then some (c.toNat - 'A'.toNat + 10)
  else none

def decodePairs : List Char → Option (List UInt8)
  | [] => some []
  | [_] => none
  | high :: low :: rest =>
    match hexValue high, hexValue low, decodePairs rest with
    | some high, some low, some bytes => some (UInt8.ofNat (high * 16 + low) :: bytes)
    | _, _, _ => none

def decodeHex (value : String) : Option (List UInt8) := decodePairs value.toList

theorem decodePairs_hexPair (byte : UInt8) (rest : List Char) :
    decodePairs (hexPair byte ++ rest) = (decodePairs rest).map (byte :: ·) := by
  have hhigh : ∀ n, n < 16 → hexValue (hexDigits.getD n '0') = some n := by decide
  have hlt := byte.toNat_lt
  show decodePairs (_ :: _ :: rest) = _
  rw [decodePairs, hhigh _ (by omega), hhigh _ (by omega)]
  have hbyte : UInt8.ofNat (byte.toNat / 16 * 16 + byte.toNat % 16) = byte := by
    rw [Nat.div_add_mod' byte.toNat 16, UInt8.ofNat_toNat]
  cases decodePairs rest with
  | none => rfl
  | some bytes =>
    dsimp only
    rw [hbyte]
    rfl

/-- What is written in digits is read back. -/
theorem decodeHex_hex (bytes : List UInt8) : decodeHex (hex bytes) = some bytes := by
  unfold decodeHex hex
  rw [String.toList_ofList]
  induction bytes with
  | nil => rfl
  | cons byte rest ih => rw [List.flatMap_cons, decodePairs_hexPair, ih]; rfl

/-! ## Access verifiers -/

structure AccessVerifier where
  algorithm : String
  saltHex : String
  digestHex : String
  deriving DecidableEq, Repr

/-- The texts a digest is separated from others by. -/
def accessDomain : List UInt8 := textBytes "terminal-poker/private-access/v1" ++ [0]

def tokenDomain : List UInt8 := textBytes "terminal-poker/reconnect-token/v1" ++ [0]

namespace Hashes

variable (h : Hashes)

def accessDigest (salt code : List UInt8) : List UInt8 := h.sha256 (accessDomain ++ salt ++ code)

def tokenVerifier (token : String) : String := hex (h.sha256 (tokenDomain ++ textBytes token))

end Hashes

namespace AccessVerifier

def derive (h : Hashes) (salt : List UInt8) (accessCode : String) : AccessVerifier :=
  ⟨"sha256-v1", hex salt, hex (h.accessDigest salt (textBytes accessCode))⟩

def derivePassword (h : Hashes) (salt : List UInt8) (password : String) : AccessVerifier :=
  ⟨"argon2id-v1", hex salt, hex (h.argon2id (textBytes password) salt)⟩

def verify (h : Hashes) (v : AccessVerifier) (candidate : String) : Bool :=
  if v.algorithm = "argon2id-v1" then
    if 96 < candidate.utf8ByteSize then false
    else
      match decodeHex v.saltHex with
      | none => false
      | some salt => salt.length = accessSaltBytes && v.digestHex = hex (h.argon2id (textBytes candidate) salt)
  else if v.algorithm ≠ "sha256-v1" then false
  else
    match decodeHex v.saltHex with
    | none => false
    | some salt => salt.length = accessSaltBytes && v.digestHex = hex (h.accessDigest salt (textBytes candidate))

def isValid (v : AccessVerifier) : Bool :=
  (v.algorithm = "sha256-v1" || v.algorithm = "argon2id-v1") &&
    (decodeHex v.saltHex).any (·.length = accessSaltBytes) && (decodeHex v.digestHex).any (·.length = 32)

end AccessVerifier

/-! ## The vault -/

structure ReconnectGrant where
  token : String
  expiresAtUnixSeconds : Nat
  deriving DecidableEq, Repr

structure IssuedCredential where
  grant : ReconnectGrant
  expiresAt : Nat
  scope : CredentialScope
  principal : GuestSessionId
  deriving DecidableEq, Repr

structure DurableCredentialRecord where
  verifierHex : String
  expiresAtUnixSeconds : Nat
  scope : CredentialScope
  principalId : String
  deriving DecidableEq, Repr

structure StoredCredential where
  expiresAt : Nat
  scope : CredentialScope
  principal : GuestSessionId
  deriving DecidableEq, Repr

structure CredentialVault where
  capacity : Nat
  entries : OrdMap String StoredCredential
  issued : Nat
  rejected : Nat
  expired : Nat
  deriving DecidableEq

def unixSeconds (millis : Nat) : Nat := millis / 1000

/-- The last second after the epoch that `SystemTime` holds: its seconds are an `i64`. -/
def maxUnixSeconds : Nat := 2 ^ 63 - 1

/-- `BearerToken::from_client`. -/
def bearerToken (value : String) : Except CredentialError String :=
  if value.utf8ByteSize ≠ tokenBytes * 2 || !value.toList.all fun c => (hexValue c).isSome then .error .malformed
  else .ok value

namespace CredentialVault

variable (v : CredentialVault)

def new (capacity : Nat) : Except CredentialError CredentialVault :=
  if capacity < 1 || maxCredentialCapacity < capacity then .error .invalidCapacity
  else .ok ⟨capacity, .empty, 0, 0, 0⟩

def filterEntries (p : StoredCredential → Bool) : OrdMap String StoredCredential :=
  v.entries.filterKey fun key => (v.entries.find? key).any p

def expireAt (now : Nat) : CredentialVault :=
  let kept := v.filterEntries fun entry => now < entry.expiresAt
  { v with entries := kept, expired := saturatingAdd64 v.expired (v.entries.size - kept.size) }

def refuse : CredentialVault := { v with rejected := saturatingAdd64 v.rejected 1 }

/-- The first token drawn whose verifier is not in use, with that verifier. -/
def drawToken (h : Hashes) : List (List UInt8) → Option (String × String)
  | [] => none
  | bytes :: rest =>
    let token := hex bytes
    let verifier := h.tokenVerifier token
    if v.entries.contains verifier then drawToken h rest else some (token, verifier)

/-- `none` while the loop that draws a token goes on. -/
def issue (h : Hashes) (draws : List (List UInt8)) (now : Nat) (principal : GuestSessionId) (scope : CredentialScope)
    (ttl : Nat) : Option (Except CredentialError IssuedCredential × CredentialVault) :=
  let v := v.expireAt now
  if v.capacity ≤ v.entries.size then some (.error .capacityReached, v)
  else
    (v.drawToken h draws).map fun (token, verifier) =>
      let expiresAt := now + ttl
      (.ok ⟨⟨token, unixSeconds expiresAt⟩, expiresAt, scope, principal⟩, { v with
        entries := v.entries.insert verifier ⟨expiresAt, scope, principal⟩
        issued := saturatingAdd64 v.issued 1 })

def authenticateAndRotate (h : Hashes) (draws : List (List UInt8)) (now : Nat) (token : String) (expectedRole : CredentialRole)
    (ttl : Nat) : Option (Except CredentialError IssuedCredential × CredentialVault) :=
  let v := v.expireAt now
  let verifier := h.tokenVerifier token
  match v.entries.find? verifier with
  | none => some (.error .unknownOrExpired, v.refuse)
  | some stored =>
    if stored.scope.role ≠ expectedRole then some (.error .wrongScope, v.refuse)
    else { v with entries := v.entries.erase verifier }.issue h draws now stored.principal stored.scope ttl

def authenticate (h : Hashes) (now : Nat) (token : String) (expectedRole : CredentialRole) :
    Except CredentialError (GuestSessionId × CredentialScope) × CredentialVault :=
  let v := v.expireAt now
  match v.entries.find? (h.tokenVerifier token) with
  | none => (.error .unknownOrExpired, v.refuse)
  | some stored =>
    if stored.scope.role = expectedRole then (.ok (stored.principal, stored.scope), v)
    else (.error .wrongScope, v.refuse)

def revokePrincipal (principal : GuestSessionId) : CredentialVault :=
  { v with entries := v.filterEntries fun entry => entry.principal ≠ principal }

def durableRecords : List DurableCredentialRecord :=
  v.entries.entries.map fun (verifierHex, stored) =>
    ⟨verifierHex, unixSeconds stored.expiresAt, stored.scope, stored.principal.value⟩

/-- Each record in turn; those that have expired are left out. -/
def restoreRecords (now : Nat) : List DurableCredentialRecord → CredentialVault → Except CredentialError CredentialVault
  | [], v => .ok v
  | record :: rest, v =>
    if !(decodeHex record.verifierHex).any (·.length = 32) || record.scope.tableId.id = 0 then .error .invalidDurableRecord
    else
      match GuestSessionId.new record.principalId with
      | .error _ => .error .invalidDurableRecord
      | .ok principal =>
        if maxUnixSeconds < record.expiresAtUnixSeconds then .error .invalidDurableRecord
        else if record.expiresAtUnixSeconds * 1000 ≤ now then restoreRecords now rest v
        else if v.entries.contains record.verifierHex then .error .invalidDurableRecord
        else restoreRecords now rest
          { v with entries := v.entries.insert record.verifierHex ⟨record.expiresAtUnixSeconds * 1000, record.scope, principal⟩ }

def restore (now capacity : Nat) (records : List DurableCredentialRecord) : Except CredentialError CredentialVault :=
  match new capacity with
  | .error error => .error error
  | .ok v => if capacity < records.length then .error .invalidDurableRecord else restoreRecords now records v

end CredentialVault

end OpenFelt
