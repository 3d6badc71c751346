import Mathlib.Data.String.Basic
import TradingAgent.Lib.Dict
import TradingAgent.Lib.JsonDumps
import TradingAgent.Lib.Outcome

/-!
# The issuer store

`packages/local_authority.py`: the files of an issuer store and what the protocol reads from them.
-/

namespace TradingAgent.LocalAuthority

open Outcome

def protocolVersion : String := "p3-local-authority-transaction-v1"

def tokenDomain : ByteArray := "trading-agent/local-authority-admission/v1\x00".toUTF8

def maxGeneration : ℤ := 2 ^ 63 - 1

def maxBundleBytes : ℕ := 4 * 1024 * 1024

def bundleMembers : List String := ["request.json", "prerequisites.json", "descriptor.json"]

def admittedActions : List String := ["ISSUE_RUNTIME_PROFILE", "ISSUE_QUALIFICATION_DECISION"]

/-- What a call raises: `AuthorityHeld`, `FileNotFoundError`, another `OSError`, or something else. -/
inductive Raised
  | held (message : String)
  | missing
  | osError
  | other
  deriving DecidableEq

/-- A name in a directory: nothing, a file whose reading raises, or a file with its content. -/
inductive Entry (α : Type)
  | absent
  | unreadable (raised : Raised)
  | file (content : α)

def Entry.read {α : Type} : Entry α → Except Raised α
  | .absent => .error .missing
  | .unreadable raised => .error raised
  | .file content => .ok content

/-- `_protected_bytes`, of a file that holds bytes. -/
def protectedBytes (path : String) (entry : Entry ByteArray) : Except Raised ByteArray := do
  let raw ← entry.read
  require (raw.size ≤ maxBundleBytes) (.held (path ++ " exceeds the accepted size"))
  .ok raw

structure Attestation where
  (schemaVersion issuer : String)
  generation : ℤ
  storeDigest : String

structure BundlePath where
  (parent name : String)
  deriving DecidableEq

structure CommitRecord where
  (schemaVersion state action gate issuer : String)
  (identity source : Json)
  generation : ℤ
  (snapshotDigest prerequisiteDigest token expiresAt : String)
  monotonicDeadlineNs : ℤ
  bootId : String
  bundle : Dict String String
  bundlePath : BundlePath
  deriving DecidableEq

structure Consumption where
  (schemaVersion issuer : String)
  generation : ℤ
  (action gate token : String)
  consumedAtNs : ℤ

structure Store where
  generation : Entry ℤ
  approvals : String → Entry ByteArray
  attestation : Entry Attestation
  commit : Entry CommitRecord
  consumed : Entry Consumption
  /-- The directories of staged bundles. -/
  staging : Dict String (String → Entry ByteArray)

/-- What the protocol takes from its host: the identity and the path of the store, and functions of the library. -/
structure Host where
  (issuer path : String)
  sha256 : ByteArray → String
  /-- `json.loads` -/
  loads : ByteArray → Except Raised Json
  /-- `str` of a value that is no string. -/
  strOf : Json → String
  /-- `int(moment.timestamp() * 1_000_000_000)` of the moment of a text that ends in `Z`, or no moment. -/
  timestampNs : String → Option ℤ

def Host.str (host : Host) : Json → String
  | .str text => text
  | value => host.strOf value

def canonicalBytes (value : Json) : ByteArray := (String.ofList (Json.dumps value)).toUTF8

def canonicalSize (value : Json) : ℕ := ((Json.dumps value).map Char.utf8Size).sum

def Host.digest (host : Host) (value : Json) : String := host.sha256 (canonicalBytes value)

def deadlineNs (host : Host) (expiresAt : String) : Except Raised ℤ := do
  require (expiresAt.toList.getLast? = some 'Z') (.held "admission expiry must be canonical UTC")
  match host.timestampNs expiresAt with
  | none => .error (.held "admission expiry is not a timestamp")
  | some moment => .ok moment

/-- `value.get(key)`, which a value that is no object does not have. -/
def dictGet (value : Json) (key : String) : Except Raised (Option Json) :=
  match value with
  | .obj members => .ok (Json.member? key members)
  | _ => .error .other

def pairsJson (pairs : List (String × String)) : Json := .arr (pairs.map fun p => .arr [.str p.1, .str p.2])

/-- What a snapshot of the store says. -/
structure Snapshot where
  generation : ℤ
  issuer : String
  (approvals receipts : List (String × String))
  prerequisiteDigest : String

def Snapshot.toJson (snapshot : Snapshot) : Json :=
  .obj [("approvals", pairsJson snapshot.approvals), ("generation", .num snapshot.generation 0),
    ("issuer", .str snapshot.issuer), ("prerequisite_digest", .str snapshot.prerequisiteDigest),
    ("receipts", pairsJson snapshot.receipts)]

def Snapshot.digest (host : Host) (snapshot : Snapshot) : String := host.digest snapshot.toJson

variable (host : Host) (store : Store)

def approvalPath (gate : String) : String := host.path ++ "/" ++ gate ++ ".json"

def storedGeneration : Except Raised ℤ :=
  match store.generation.read with
  | .error .missing => .ok 0
  | .error raised => .error raised
  | .ok generation => do
    require (0 ≤ generation ∧ generation ≤ maxGeneration) (.held "authority generation is not a bounded integer")
    .ok generation

def checkExpiry (gate : String) (now : ℤ) (expiresAt : Option Json) : Except Raised Unit :=
  match expiresAt with
  | none | some .null => .ok ()
  | some value => do
    let deadline ← deadlineNs host (host.str value)
    require (now < deadline) (.held (gate ++ " approval has expired"))

/-- One gate of `AuthorityStore.snapshot`: the digest of its approval and that of the receipt the approval names. -/
def readGate (now : ℤ) (gate : String) : Except Raised ((String × String) × (String × String)) := do
  let raw ← protectedBytes (approvalPath host gate) (store.approvals gate)
  let approval ← host.loads raw
  let revoked ← dictGet approval "revoked"
  require (revoked = some (.bool false)) (.held (gate ++ " approval is revoked"))
  let expiresAt ← dictGet approval "expires_at"
  checkExpiry host gate now expiresAt
  let reference ← dictGet approval "receipt_ref"
  let content ← dictGet (reference.getD (.obj [])) "content_sha256"
  .ok ((gate, host.sha256 raw), (gate, host.str (content.getD (.str ""))))

def snapshot (gates : List String) (now : ℤ) : Except Raised Snapshot := do
  let readings ← (sortBy id gates).mapM (readGate host store now)
  let approvals := readings.map Prod.fst
  let receipts := readings.map Prod.snd
  let generation ← storedGeneration store
  .ok {
    generation := generation
    issuer := host.issuer
    approvals := approvals
    receipts := receipts
    prerequisiteDigest := host.digest (.obj [("approvals", pairsJson approvals), ("receipts", pairsJson receipts)]) }

/-- One member of `store_digest`. -/
def digestGate (gate : String) : Except Raised (String × String) := do
  let raw ← protectedBytes (approvalPath host gate) (store.approvals gate)
  .ok (gate, host.sha256 raw)

def storeDigest (gates : List String) : Except Raised String := do
  let members ← (sortBy id gates).mapM (digestGate host store)
  .ok (host.digest (.obj [("approvals", pairsJson members), ("issuer", .str host.issuer)]))

def readAttestation : Except Raised Attestation :=
  match store.attestation.read with
  | .error .missing | .error .osError =>
    .error (.held "issuer store is not under the authority protocol; no unlocked revalidation")
  | .error raised => .error raised
  | .ok attestation => .ok attestation

def requireNoBypassingWriter (gates : List String) : Except Raised Attestation := do
  let record ← readAttestation store
  require (record.schemaVersion = protocolVersion ∧ record.issuer = host.issuer)
    (.held "store attestation does not belong to this issuer protocol")
  let generation ← storedGeneration store
  require (record.generation = generation) (.held "store attestation is not current for this generation")
  let digest ← storeDigest host store gates
  require (record.storeDigest = digest) (.held "issuer store changed outside the authority protocol")
  .ok record

def consumedGeneration : Except Raised ℤ :=
  match store.consumed.read with
  | .error .missing => .ok 0
  | .error raised => .error raised
  | .ok value => do
    require (value.schemaVersion = protocolVersion ∧ value.issuer = host.issuer)
      (.held "consumption ledger does not belong to this issuer protocol")
    require (0 ≤ value.generation ∧ value.generation ≤ maxGeneration)
      (.held "consumption ledger is not a bounded generation")
    .ok value.generation

end TradingAgent.LocalAuthority
