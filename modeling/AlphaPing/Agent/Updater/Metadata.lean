import AlphaPing.Library.Endorsement
import AlphaPing.Protocol.Messages

/-!
# Signed release metadata

The root names the keys of each role and how many of them have to sign. A metadata file is an
envelope of a JSON value with signatures over its canonical text; `verify` counts the keys of the
role whose signature holds and reads the value only when they are enough.

Parsing and printing JSON, the signature scheme and the hash function are third-party code and
come as parameters.
-/

namespace AlphaPing.Agent.Updater

open Library.Endorsement Protocol

/-! ## Hexadecimal text

Rust reads a text as its UTF-8 bytes. -/

def textBytes (text : String) : Bytes := text.toUTF8.data.toList

def hexDigit (byte : UInt8) : Option ℕ :=
  if 48 ≤ byte.toNat ∧ byte.toNat ≤ 57 then some (byte.toNat - 48)
  else if 97 ≤ byte.toNat ∧ byte.toNat ≤ 102 then some (byte.toNat - 87)
  else if 65 ≤ byte.toNat ∧ byte.toNat ≤ 70 then some (byte.toNat - 55)
  else none

/-- `hex::decode`. -/
def hexDecode : Bytes → Option Bytes
  | [] => some []
  | [_] => none
  | high :: low :: rest => do
    let high ← hexDigit high
    let low ← hexDigit low
    let rest ← hexDecode rest
    some (UInt8.ofNat (high * 16 + low) :: rest)

def hexCharacter (digit : ℕ) : UInt8 :=
  UInt8.ofNat (if digit < 10 then 48 + digit else 87 + digit)

/-- `hex::encode`. -/
def hexEncode (bytes : Bytes) : Bytes :=
  bytes.flatMap fun byte ↦ [hexCharacter (byte.toNat / 16), hexCharacter (byte.toNat % 16)]

/-- Sixty-four hexadecimal digits. -/
def isSha256 (text : String) : Bool :=
  (textBytes text).length = 64 && (textBytes text).all fun byte ↦ (hexDigit byte).isSome

def asciiLower (byte : UInt8) : ℕ :=
  if 65 ≤ byte.toNat ∧ byte.toNat ≤ 90 then byte.toNat + 32 else byte.toNat

def eqIgnoreAsciiCase (left right : Bytes) : Bool :=
  left.map asciiLower = right.map asciiLower

/-! ## JSON values -/

/-- `serde_json::Value`. The fields of an object have distinct names. -/
inductive Json where
  | null
  | bool (value : Bool)
  | integer (value : ℤ)
  | float
  | string (text : String)
  | array (values : List Json)
  | object (fields : List (String × Json))

namespace Json

/-- `Value::get`. -/
def get (name : String) : Json → Option Json
  | .object fields => fields.lookup name
  | _ => none

/-- `Value::as_str`. -/
def asStr : Json → Option String
  | .string text => some text
  | _ => none

/-- `Value::as_i64`. -/
def asI64 : Json → Option ℤ
  | .integer value => if -2 ^ 63 ≤ value ∧ value < 2 ^ 63 then some value else none
  | _ => none

def asU64 : Json → Option ℕ
  | .integer value => if 0 ≤ value ∧ value < 2 ^ 64 then some value.toNat else none
  | _ => none

def asU8 : Json → Option ℕ
  | .integer value => if 0 ≤ value ∧ value < 2 ^ 8 then some value.toNat else none
  | _ => none

/-- The members of a derived structure: an object that has them all, or an array of as many. -/
def members (names : List String) : Json → Option (List Json)
  | .object fields => names.mapM fun name ↦ fields.lookup name
  | .array values => if values.length = names.length then some values else none
  | _ => none

end Json

/-! ## The files -/

structure MetadataFile where
  version : ℕ
  length : ℕ
  sha256 : String

structure TimestampMetadata where
  metadataType : String
  specVersion : String
  version : ℕ
  expiresAtMs : ℤ
  snapshot : MetadataFile

structure SnapshotMetadata where
  metadataType : String
  specVersion : String
  version : ℕ
  expiresAtMs : ℤ
  targets : MetadataFile

structure TargetDescription where
  version : String
  platform : String
  arch : String
  channel : String
  length : ℕ
  sha256 : String
  rolloutPercent : ℕ

structure TargetsMetadata where
  metadataType : String
  specVersion : String
  version : ℕ
  expiresAtMs : ℤ
  targets : List (String × TargetDescription)

def decodeFile (value : Json) : Option MetadataFile := do
  match ← value.members ["version", "length", "sha256"] with
  | [version, length, sha256] => some ⟨← version.asU64, ← length.asU64, ← sha256.asStr⟩
  | _ => none

def decodeTimestamp (value : Json) : Option TimestampMetadata := do
  match ← value.members ["type", "spec_version", "version", "expires_at_ms", "snapshot"] with
  | [type, specVersion, version, expiresAtMs, snapshot] =>
    some ⟨← type.asStr, ← specVersion.asStr, ← version.asU64, ← expiresAtMs.asI64,
      ← decodeFile snapshot⟩
  | _ => none

def decodeSnapshot (value : Json) : Option SnapshotMetadata := do
  match ← value.members ["type", "spec_version", "version", "expires_at_ms", "targets"] with
  | [type, specVersion, version, expiresAtMs, targets] =>
    some ⟨← type.asStr, ← specVersion.asStr, ← version.asU64, ← expiresAtMs.asI64,
      ← decodeFile targets⟩
  | _ => none

def decodeTarget (value : Json) : Option TargetDescription := do
  match ← value.members
      ["version", "platform", "arch", "channel", "length", "sha256", "rollout_percent"] with
  | [version, platform, arch, channel, length, sha256, rolloutPercent] =>
    some ⟨← version.asStr, ← platform.asStr, ← arch.asStr, ← channel.asStr, ← length.asU64,
      ← sha256.asStr, ← rolloutPercent.asU8⟩
  | _ => none

def decodeTargetMap : Json → Option (List (String × TargetDescription))
  | .object fields => fields.mapM fun (path, value) ↦ (decodeTarget value).map (path, ·)
  | _ => none

def decodeTargets (value : Json) : Option TargetsMetadata := do
  match ← value.members ["type", "spec_version", "version", "expires_at_ms", "targets"] with
  | [type, specVersion, version, expiresAtMs, targets] =>
    some ⟨← type.asStr, ← specVersion.asStr, ← version.asU64, ← expiresAtMs.asI64,
      ← decodeTargetMap targets⟩
  | _ => none

/-! ## The root -/

structure KeyDescription where
  scheme : String
  publicKeyHex : String

/-- `RoleDescription`: `trusted` are its `key_ids`. -/
abbrev RoleDescription := Policy String

structure TrustedRoot where
  keys : List (String × KeyDescription)
  roles : List (String × RoleDescription)

structure MetadataSignature where
  keyId : String
  signatureHex : String

structure MetadataEnvelope where
  signed : Json
  signatures : List MetadataSignature

/-- The third-party functions that the updater calls. -/
structure Crates where
  /-- `serde_json::from_slice` for an envelope. -/
  parseEnvelope : Bytes → Option MetadataEnvelope
  /-- `serde_json::from_slice` for any other value. -/
  parseJson : Bytes → Option Json
  /-- `serde_json::to_vec`. -/
  toVec : Json → Bytes
  /-- `VerifyingKey::from_bytes` succeeds. -/
  verifyingKey : Bytes → Bool
  /-- `verify_strict`, of a key, a message and a signature. -/
  verifyStrict : Bytes → Bytes → Bytes → Bool
  /-- `Sha256::digest`. -/
  sha256 : Bytes → Bytes
  /-- The digest of `blake3::Hasher`. -/
  blake3 : Bytes → Bytes

variable (crates : Crates)

def publicKey (key : KeyDescription) : Option Bytes :=
  (hexDecode (textBytes key.publicKeyHex)).filter fun bytes ↦
    bytes.length = 32 && crates.verifyingKey bytes

/-- One turn of the loop over the signatures. -/
def countSignature (root : TrustedRoot) (definition : RoleDescription) (canonical : Bytes)
    (verified : Finset String) (signature : MetadataSignature) : Except String (Finset String) :=
  if signature.keyId ∉ definition.trusted ∨ signature.keyId ∈ verified then .ok verified
  else match root.keys.lookup signature.keyId with
    | none => .error "update metadata key is missing"
    | some key =>
      if key.scheme ≠ "ed25519" then .error "update metadata key scheme is unsupported"
      else match publicKey crates key with
        | none => .error "update public key is invalid"
        | some publicKey =>
          match (hexDecode (textBytes signature.signatureHex)).filter (·.length = 64) with
          | none => .error "update signature is invalid"
          | some bytes =>
            .ok (if crates.verifyStrict publicKey canonical bytes then
              insert signature.keyId verified else verified)

/-- The type, the specification and the expiry of a value. -/
def current (expectedType : String) (nowMs : ℤ) (metadata : Json) : Bool :=
  (metadata.get "type").bind Json.asStr = some expectedType &&
    (metadata.get "spec_version").bind Json.asStr = some "1.0" &&
    ((metadata.get "expires_at_ms").bind Json.asI64).any fun expiresAt ↦ nowMs < expiresAt

/-- `TrustedRoot::verify`; `decode` is `serde_json::from_value` for the type of the role. -/
def TrustedRoot.verify {Metadata : Type} (root : TrustedRoot) (decode : Json → Option Metadata)
    (bytes : Bytes) (role expectedType : String) (nowMs : ℤ) : Except String Metadata :=
  if 256 * 1024 < bytes.length then .error "update metadata is too large"
  else match crates.parseEnvelope bytes with
    | none => .error "update metadata envelope is invalid"
    | some envelope =>
      if envelope.signatures = [] ∨ 16 < envelope.signatures.length then
        .error "update metadata signatures are invalid"
      else match root.roles.lookup role with
        | none => .error "update metadata role is not trusted"
        | some definition =>
          match envelope.signatures.foldlM
              (countSignature crates root definition (crates.toVec envelope.signed)) ∅ with
          | .error message => .error message
          | .ok verified =>
            if verified.card < definition.threshold then
              .error "update metadata signature threshold was not met"
            else if !current expectedType nowMs envelope.signed then
              .error "update metadata type or expiry is invalid"
            else match decode envelope.signed with
              | none => .error "update metadata fields are invalid"
              | some metadata => .ok metadata

/-- The bytes have the length and the hash of the description. -/
def Matches (length : ℕ) (sha256 : String) (bytes : Bytes) : Bool :=
  length = bytes.length && eqIgnoreAsciiCase (hexEncode (crates.sha256 bytes)) (textBytes sha256)

/-- `MetadataFile::verify`. -/
def MetadataFile.verify (file : MetadataFile) (bytes : Bytes) : Except String Unit :=
  if file.length ≠ bytes.length ∨ !isSha256 file.sha256 then
    .error "update metadata length or hash is invalid"
  else if !eqIgnoreAsciiCase (hexEncode (crates.sha256 bytes)) (textBytes file.sha256) then
    .error "update metadata hash did not match"
  else .ok ()

end AlphaPing.Agent.Updater
