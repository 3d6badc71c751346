import TradingAgent.LocalAuthority.Store
import TradingAgent.Lib.Transactions

/-!
# Admissions, their effects and the writers of approvals

`packages/local_authority.py`: the transactions under the authority lock, as writes of the store's files one after the
other. The log holds what a reader of the store cannot see: which admission was committed on which approvals, and
which effects were run.
-/

namespace TradingAgent.LocalAuthority

open Outcome Transaction Transaction.Tx

structure Proposal where
  (identity source : Json)
  expiresAt : String
  bundle : Dict String ByteArray

/-- An `admitIntent` call, with the boot it runs in and its readings of the clocks. -/
structure AdmitCall where
  (action gate : String)
  gates : List String
  (proposalIdentity proposalSource : Json)
  /-- The validator reads the approvals of the store as well as the snapshot that it is handed. -/
  prepare : (String → Entry ByteArray) → Snapshot → Except Raised Proposal
  bootId : String
  (started now monotonic staged : ℤ)

/-- A `consume` call, with the boot it runs in and its readings of the clocks. -/
structure ConsumeCall where
  (action gate : String)
  (identity source : Json)
  gates : List String
  apply : Option (CommitRecord → Except Raised Unit)
  bootId : String
  (now monotonic : ℤ)

/-- A committed admission: its call and the approvals that its `prepare` saw. -/
structure Admission where
  record : CommitRecord
  call : AdmitCall
  approvals : String → Entry ByteArray

/-- A run of an effect: the call, the record its `apply` was given and the approvals at that moment. -/
structure Effect where
  call : ConsumeCall
  record : CommitRecord
  approvals : String → Entry ByteArray

/-- What was done to a store. -/
inductive Event
  | advanced (generation : ℤ)
  | committed (admission : Admission)
  | ran (effect : Effect)

/-- A store, and what was done to it. -/
structure World where
  store : Store
  log : List Event

abbrev Action (α : Type) : Type := Tx World Raised α

def readStore {α : Type} (f : Store → Except Raised α) : Action α := read fun w => f w.store

/-- `_publish` of one file of the store. -/
def publish (f : Store → Store) : Action Unit := write fun w => { w with store := f w.store }

variable (host : Host)

/-- `AuthorityStore._advance`, of the generation that is stored. -/
def advance : Action ℤ := do
  let current ← readStore storedGeneration
  check (current < maxGeneration) (.held "authority generation would overflow")
  write fun w => {
    store := { w.store with generation := .file (current + 1) }
    log := w.log ++ [.advanced (current + 1)] }
  pure (current + 1)

def publishAttestation (gates : List String) (generation : ℤ) : Action Attestation := do
  let digest ← readStore fun store => storeDigest host store gates
  let record : Attestation :=
    { schemaVersion := protocolVersion, issuer := host.issuer, generation := generation, storeDigest := digest }
  publish fun store => { store with attestation := .file record }
  pure record

def attest (gates : List String) : Action Attestation := do
  let generation ← readStore storedGeneration
  publishAttestation host gates generation

def enrol (gates : List String) : Action Attestation := attest host gates

def requireApprovals (gates : List String) (store : Store) : Except Raised Unit :=
  gates.forM fun gate =>
    match protectedBytes (approvalPath host gate) (store.approvals gate) with
    | .error .missing => .error (.held (gate ++
        " has no approval in this store; install the admitted gate set in one transaction"))
    | .error raised => .error raised
    | .ok _ => .ok ()

def publishApprovals : List (String × ByteArray) → Action Unit
  | [] => pure ()
  | (gate, payload) :: rest => do
    publish fun store => { store with approvals := Function.update store.approvals gate (.file payload) }
    publishApprovals rest

def replaceApprovals (payloads : Dict String ByteArray) (gates : List String) : Action ℤ := do
  check (payloads ≠ []) (.held "a writer transaction must install at least one approval")
  let unknown := sortBy id (payloads.keys.filter fun gate => gate ∉ gates)
  check (unknown = []) (.held (", ".intercalate unknown ++ " is not in the admitted gate set"))
  readStore (requireApprovals host (sortBy id (gates.dedup.filter fun gate => gate ∉ payloads.keys)))
  let generation ← advance
  publishApprovals (sortBy Prod.fst payloads)
  let _ ← publishAttestation host gates generation
  pure generation

/-- `admission_token`; a canonical JSON value holds no floats. -/
def admissionToken (call : AdmitCall) (proposal : Proposal) (snapshot : Snapshot) (monotonicDeadlineNs : ℤ) :
    Except Raised String := do
  require (proposal.identity.integral = true ∧ proposal.source.integral = true) .other
  .ok (host.sha256 (tokenDomain ++ canonicalBytes (.obj [
    ("action", .str call.action), ("approvals", pairsJson snapshot.approvals), ("boot_id", .str call.bootId),
    ("expires_at", .str proposal.expiresAt), ("gate", .str call.gate), ("generation", .num snapshot.generation 0),
    ("identity", proposal.identity), ("issuer", .str host.issuer),
    ("monotonic_deadline_ns", .num monotonicDeadlineNs 0),
    ("prerequisite_digest", .str snapshot.prerequisiteDigest), ("protocol_version", .str protocolVersion),
    ("receipts", pairsJson snapshot.receipts), ("source", proposal.source)])))

def requireAdmittedAction (action : String) : Except Raised Unit :=
  require (action ∈ admittedActions) (.held ("action " ++ action ++ " is not an admitted bounded action"))

/-- The part of `admitIntent` before the generation is advanced: the snapshot that `prepare` validated, what it proposed and
the deadline of the proposal. -/
def prepared (store : Store) (call : AdmitCall) : Except Raised (Snapshot × Proposal × ℤ) := do
  requireAdmittedAction call.action
  let _ ← requireNoBypassingWriter host store call.gates
  let validated ← snapshot host store call.gates call.started
  let proposal ← call.prepare store.approvals validated
  require ((∀ name ∈ proposal.bundle.keys, name ∈ bundleMembers) ∧ ∀ name ∈ bundleMembers, name ∈ proposal.bundle.keys)
    (.held "admission bundle must contain exactly the accepted members")
  require (call.proposalIdentity = proposal.identity)
    (.held "proposal identity differs from the admitted prerequisite identity")
  require (call.proposalSource = proposal.source)
    (.held "proposal source differs from the admitted prerequisite source")
  let bootId ← dictGet proposal.identity "boot_id"
  require (bootId = some (.str call.bootId)) (.held "admission is for a different boot")
  let deadline ← deadlineNs host proposal.expiresAt
  require (call.now < deadline) (.held "admission deadline passed while the proposal was prepared")
  .ok (validated, proposal, deadline)

def stagingName (generation : ℤ) : String := String.ofList (DigitText.fixedDigits 20 generation.toNat)

def stagingPath : String := host.path ++ "/staging"

def makeStaging (name : String) : Action Unit := do
  readStore fun store => require (store.staging.get? name = none) .osError
  publish fun store => { store with staging := store.staging.set name fun _ => .absent }

def Store.stage (store : Store) (directory name : String) (payload : ByteArray) : Store :=
  let files := (store.staging.get? directory).getD fun _ => .absent
  { store with staging := store.staging.set directory (Function.update files name (.file payload)) }

def stageMembers (bundle : Dict String ByteArray) (directory : String) :
    List String → Dict String String → Action (Dict String String)
  | [], manifest => pure manifest
  | name :: rest, manifest =>
    match bundle.get? name with
    | none => raise .other
    | some payload => do
      check (payload.size ≤ maxBundleBytes) (.held (name ++ " exceeds the accepted bundle size"))
      publish fun store => store.stage directory name payload
      stageMembers bundle directory rest (manifest.set name (host.sha256 payload))

/-- The record that `admitIntent` commits. -/
def commitRecord (call : AdmitCall) (proposal : Proposal) (snapshot : Snapshot) (generation : ℤ) (token : String)
    (monotonicDeadlineNs : ℤ) (manifest : Dict String String) : CommitRecord where
  schemaVersion := protocolVersion
  state := "COMMITTED"
  action := call.action
  gate := call.gate
  issuer := host.issuer
  identity := proposal.identity
  source := proposal.source
  generation := generation
  snapshotDigest := snapshot.digest host
  prerequisiteDigest := snapshot.prerequisiteDigest
  token := token
  expiresAt := proposal.expiresAt
  monotonicDeadlineNs := monotonicDeadlineNs
  bootId := call.bootId
  bundle := manifest
  bundlePath := ⟨stagingPath host, stagingName generation⟩

/-- The part of `admitIntent` from the advance of the generation to the publication of the record. -/
def commit (call : AdmitCall) (approvals : String → Entry ByteArray) (validated : Snapshot) (proposal : Proposal)
    (deadline : ℤ) : Action CommitRecord := do
  let generation ← advance
  let snapshot ← readStore fun store => snapshot host store call.gates call.now
  check ((snapshot.approvals, snapshot.receipts) = (validated.approvals, validated.receipts))
    (.held "issuer store changed between validation and commitment")
  let monotonicDeadlineNs := call.monotonic + (deadline - call.now)
  let token ← lift (admissionToken host call proposal snapshot monotonicDeadlineNs)
  makeStaging (stagingName generation)
  let manifest ← stageMembers host proposal.bundle (stagingName generation) bundleMembers []
  check (call.staged < deadline) (.held "admission deadline passed while the bundle was staged")
  let record := commitRecord host call proposal snapshot generation token monotonicDeadlineNs manifest
  write fun w => {
    store := { w.store with commit := .file record }
    log := w.log ++ [.committed ⟨record, call, approvals⟩] }
  pure record

/-- `admit` of the source. -/
def admitIntent (call : AdmitCall) : Action CommitRecord := do
  let approvals ← readStore fun store => .ok store.approvals
  let (validated, proposal, deadline) ← readStore fun store => prepared host store call
  let record ← commit host call approvals validated proposal deadline
  let _ ← attest host call.gates
  pure record

def CommitRecord.toJson (record : CommitRecord) : Json :=
  .obj [("action", .str record.action), ("boot_id", .str record.bootId),
    ("bundle", .obj (sortBy Prod.fst (record.bundle.map fun p => (p.1, .str p.2)))),
    ("bundle_path", .str (record.bundlePath.parent ++ "/" ++ record.bundlePath.name)),
    ("expires_at", .str record.expiresAt), ("gate", .str record.gate), ("generation", .num record.generation 0),
    ("identity", record.identity), ("issuer", .str record.issuer),
    ("monotonic_deadline_ns", .num record.monotonicDeadlineNs 0),
    ("prerequisite_digest", .str record.prerequisiteDigest), ("schema_version", .str record.schemaVersion),
    ("snapshot_digest", .str record.snapshotDigest), ("source", record.source), ("state", .str record.state),
    ("token", .str record.token)]

def readCommit (store : Store) : Except Raised CommitRecord :=
  match store.commit.read with
  | .error .missing => .error (.held "no committed admission is published")
  | .error raised => .error raised
  | .ok record => do
    require (canonicalSize record.toJson + 1 ≤ maxBundleBytes)
      (.held (host.path ++ "/current-commit.json exceeds the accepted size"))
    .ok record

def checkMember (path : String) (directory : String → Entry ByteArray) (name digest : String) : Except Raised Unit := do
  let raw ← protectedBytes (path ++ "/" ++ name) (directory name)
  require (host.sha256 raw = digest) (.held ("bundle member " ++ name ++ " differs from the committed manifest"))

/-- The checks of `consume`. -/
def consumable (store : Store) (call : ConsumeCall) : Except Raised CommitRecord := do
  requireAdmittedAction call.action
  let record ← readCommit host store
  require (record.schemaVersion = protocolVersion ∧ record.state = "COMMITTED")
    (.held "published admission is not a committed record of this protocol")
  let elsewhere : Raised := .held "published admission does not reference this store bundle"
  require (record.bundlePath.parent = stagingPath host ∧ store.staging.get? record.bundlePath.name ≠ none) elsewhere
  require (record.action = call.action ∧ record.gate = call.gate)
    (.held "published admission is for a different action")
  require (record.identity = call.identity ∧ record.source = call.source)
    (.held "published admission is for a different identity or source")
  require (record.bootId = call.bootId) (.held "published admission is from a different boot")
  let _ ← requireNoBypassingWriter host store call.gates
  let spent ← consumedGeneration host store
  require (spent < record.generation) (.held "this admission has already been consumed")
  let snapshot ← snapshot host store call.gates call.now
  require (snapshot.generation = record.generation)
    (.held "authority generation moved after this admission was published")
  require (snapshot.digest host = record.snapshotDigest) (.held "issuer store no longer matches the admitted snapshot")
  let deadline ← deadlineNs host record.expiresAt
  require (call.now < deadline) (.held "admitted action has expired")
  require (call.monotonic < record.monotonicDeadlineNs)
    (.held "admitted action has expired on the monotonic deadline")
  let directory := (store.staging.get? record.bundlePath.name).getD fun _ => .absent
  (sortBy Prod.fst record.bundle).forM fun member =>
    checkMember host (record.bundlePath.parent ++ "/" ++ record.bundlePath.name) directory member.1 member.2
  .ok record

def consumptionOf (call : ConsumeCall) (record : CommitRecord) : Consumption where
  schemaVersion := protocolVersion
  issuer := host.issuer
  generation := record.generation
  action := call.action
  gate := call.gate
  token := record.token
  consumedAtNs := call.now

def runEffect (call : ConsumeCall) (record : CommitRecord) : Action Unit :=
  match call.apply with
  | none => pure ()
  | some effect => do
    write fun w => { w with log := w.log ++ [.ran ⟨call, record, w.store.approvals⟩] }
    lift (effect record)

def consume (call : ConsumeCall) : Action CommitRecord := do
  let record ← readStore fun store => consumable host store call
  publish fun store => { store with consumed := .file (consumptionOf host call record) }
  runEffect call record
  pure record

structure RecoveryReport where
  (publishedGeneration storeGeneration consumedGeneration : ℤ)
  orphanedGenerations : List String
  publishedCommitConsumable : Bool

def recover : Action RecoveryReport := readStore fun store => do
  let published : ℤ ← match readCommit host store with
    | .ok record => .ok record.generation
    | .error .osError => .error .osError
    | .error _ => .ok 0
  let orphaned := (sortBy id store.staging.keys).filter fun name => published < DigitText.readDigits name.toList
  let spent ← consumedGeneration host store
  let generation ← storedGeneration store
  .ok {
    publishedGeneration := published
    storeGeneration := generation
    consumedGeneration := spent
    orphanedGenerations := orphaned
    publishedCommitConsumable := spent < published }

inductive Call
  | replaceApprovals (payloads : Dict String ByteArray) (gates : List String)
  | enrol (gates : List String)
  | admitIntent (call : AdmitCall)
  | consume (call : ConsumeCall)
  | recover

def perform : Call → Action Unit
  | .replaceApprovals payloads gates => do let _ ← LocalAuthority.replaceApprovals host payloads gates
  | .enrol gates => do let _ ← LocalAuthority.enrol host gates
  | .admitIntent call => do let _ ← LocalAuthority.admitIntent host call
  | .consume call => do let _ ← LocalAuthority.consume host call
  | .recover => do let _ ← LocalAuthority.recover host

def run (w : World) (calls : List (Call × Option ℕ)) : World :=
  calls.foldl (fun w c => (perform host c.1).left w c.2) w

end TradingAgent.LocalAuthority
