import Zaion.Lib.Checked
import Zaion.Turn.Ingress

/-! `ToolBroker`: whether a tool may run, from what its manifest declares, what an invocation asks
for and what an authorization grants. A `BTreeSet` is the list of its members; where the order
of a set is seen, it is the order of `inOrder`. -/
namespace Zaion.Tools

open Lib

inductive ToolEffect where
  | pure
  | read
  | write
  | execute
  | network
  deriving DecidableEq, Repr

def ToolEffect.requiresExplicitGrant : ToolEffect → Bool
  | .write | .execute | .network => true
  | .pure | .read => false

inductive ToolRisk where
  | low
  | moderate
  | high
  | critical
  deriving DecidableEq, Repr

def ToolRisk.requiresApproval : ToolRisk → Bool
  | .high | .critical => true
  | .low | .moderate => false

inductive ToolApprovalRequirement where
  | notRequired
  | required
  deriving DecidableEq, Repr

inductive ToolIdempotency where
  | idempotent
  | keyRequired
  | nonIdempotent
  deriving DecidableEq, Repr

inductive FilesystemPolicy where
  | denied
  | readOnly (roots : List String)
  | readWrite (roots : List String)
  deriving DecidableEq, Repr

def FilesystemPolicy.roots : FilesystemPolicy → Option (List String)
  | .denied => none
  | .readOnly roots | .readWrite roots => some roots

def FilesystemPolicy.isReadWrite : FilesystemPolicy → Bool
  | .readWrite _ => true
  | .denied | .readOnly _ => false

inductive NetworkPolicy where
  | denied
  | allowHosts (hosts : List String)
  deriving DecidableEq, Repr

def NetworkPolicy.hosts : NetworkPolicy → Option (List String)
  | .denied => none
  | .allowHosts hosts => some hosts

inductive EnvironmentPolicy where
  | denied
  | allowRead (variableNames : List String)
  deriving DecidableEq, Repr

def EnvironmentPolicy.variableNames : EnvironmentPolicy → Option (List String)
  | .denied => none
  | .allowRead variableNames => some variableNames

inductive ToolManifestError where
  | invalidField (field : String)
  | missingScopes
  | invalidScope (scope : String)
  | duplicateScope (scope : String)
  | invalidFilesystemPolicy
  | invalidNetworkPolicy
  | invalidEnvironmentPolicy
  | pureToolDeclaresResources
  | networkEffectWithoutHosts
  | approvalRequiredByRisk
  deriving DecidableEq, Repr

inductive ToolAuthorizationError where
  | invalidField (field : String)
  | invalidScope (scope : String)
  | duplicateValue (value : String)
  | invalidPath (path : String)
  | invalidHost (host : String)
  | invalidEnvironmentVariable (variable_ : String)
  | invalidIdempotencyKey
  | invalidInvocationHash
  | invalidApprovalWindow
  deriving DecidableEq, Repr

/-- The members of a set of texts as they are iterated. -/
def inOrder (values : List String) : List String := values.mergeSort (fun a b => decide (a ≤ b))

/-! What the fields may be. -/

def isToken (value : String) (max : Nat) : Bool :=
  decide (value ≠ "") && decide ((Host.utf8 value).length ≤ max) && decide (trim value = value) &&
    (Host.utf8 value).all Ledger.tokenByte

def isScope (value : String) : Bool :=
  decide (value ≠ "") && decide ((Host.utf8 value).length ≤ 128) && decide (trim value = value) &&
    (Host.utf8 value).all Turn.scopeByte

def alphanumericByte (b : UInt8) : Bool := (48 ≤ b && b ≤ 57) || (65 ≤ b && b ≤ 90) || (97 ≤ b && b ≤ 122)

def hostByte (b : UInt8) : Bool := alphanumericByte b || b == 46 || b == 45 || b == 58

def isHost (host : String) : Bool :=
  decide (host ≠ "") && decide ((Host.utf8 host).length ≤ 253) && decide (trim host = host) &&
    decide (host = toAsciiLowercase host) && (Host.utf8 host).all hostByte

def isEnvironmentVariable (variable_ : String) : Bool :=
  decide ((Host.utf8 variable_).length ≤ 128) &&
    match Host.utf8 variable_ with
    | [] => false
    | first :: rest => (first == 95 || (alphanumericByte first && !(48 ≤ first && first ≤ 57))) &&
        rest.all fun b => b == 95 || alphanumericByte b

def canonicalRelativePath (value : String) : Option String :=
  if value = "" ∨ 1024 < (Host.utf8 value).length ∨ trim value ≠ value then none
  else
    let text := value.toList.map fun c => if c = '\\' then '/' else c
    if text = ['.'] then some (String.ofList text)
    else if text.head? = some '/' ∨ text.getLast? = some '/' ∨ ['/', '/'] <:+: text then none
    else
      let parts := text.splitOn '/'
      if parts.any (fun part => decide (part = []) || decide (part = ['.']) || decide (part = ['.', '.']) ||
          decide (':' ∈ part)) then none
      else some (String.ofList (['/'].intercalate parts))

def isCanonicalPath (path : String) : Bool := decide (canonicalRelativePath path = some path)

/-- Each value is valid and was not there before: what a set is built with. -/
def validateEach (valid : String → Bool) (invalid duplicate : String → ε) : List String → List String → Except ε Unit
  | _, [] => .ok ()
  | seen, value :: rest => do
    ensure (valid value = true) (invalid value)
    ensure (value ∉ seen) (duplicate value)
    validateEach valid invalid duplicate (value :: seen) rest

def validateUniqueScopes (scopes : List String) : Except ToolManifestError Unit := do
  ensure (scopes ≠ []) .missingScopes
  validateEach isScope .invalidScope .duplicateScope [] scopes

def validateAuthorizationScopes (scopes : List String) : Except ToolAuthorizationError Unit :=
  validateEach isScope .invalidScope .duplicateValue [] scopes

def validatePaths (paths : List String) : Except ToolAuthorizationError Unit :=
  validateEach isCanonicalPath .invalidPath .duplicateValue [] paths

def validateHosts (hosts : List String) : Except ToolAuthorizationError Unit :=
  validateEach isHost .invalidHost .duplicateValue [] hosts

def validateEnvironmentVariables (variableNames : List String) : Except ToolAuthorizationError Unit :=
  validateEach isEnvironmentVariable .invalidEnvironmentVariable .duplicateValue [] variableNames

/-- A policy that allows anything names something, all of it valid. -/
def validatePolicy (named : Option (List String)) (valid : String → Bool) (error : ToolManifestError) :
    Except ToolManifestError Unit :=
  match named with
  | none => .ok ()
  | some values => ensure (values ≠ [] ∧ values.all valid = true) error

def validateFilesystemPolicy (policy : FilesystemPolicy) : Except ToolManifestError Unit :=
  validatePolicy policy.roots isCanonicalPath .invalidFilesystemPolicy

def validateNetworkPolicy (policy : NetworkPolicy) : Except ToolManifestError Unit :=
  validatePolicy policy.hosts isHost .invalidNetworkPolicy

def validateEnvironmentPolicy (policy : EnvironmentPolicy) : Except ToolManifestError Unit :=
  validatePolicy policy.variableNames isEnvironmentVariable .invalidEnvironmentPolicy

def validateToken (field value : String) (max : Nat) : Except ToolManifestError Unit :=
  ensure (isToken value max = true) (.invalidField field)

def validateTokenAuthorization (field value : String) (max : Nat) : Except ToolAuthorizationError Unit :=
  ensure (isToken value max = true) (.invalidField field)

def validateOptionalIdempotencyKey (key : Option String) : Except ToolAuthorizationError Unit :=
  ensure (∀ value ∈ key, 8 ≤ (Host.utf8 value).length ∧ (Host.utf8 value).length ≤ 128 ∧ trim value = value ∧
    (Host.utf8 value).all Turn.scopeByte = true) .invalidIdempotencyKey

def validateInvocationHash (value : String) : Except ToolAuthorizationError Unit :=
  ensure (Turn.validSha256 value = true) .invalidInvocationHash

/-- `MAX_APPROVAL_TTL_SECONDS`, in nanoseconds. -/
def maxApprovalTtl : Int := 15 * 60 * 1000000000

def validateApprovalWindow (issuedAt expiresAt : DateTime) : Except ToolAuthorizationError Unit :=
  ensure (0 < expiresAt.nanos - issuedAt.nanos ∧ expiresAt.nanos - issuedAt.nanos ≤ maxApprovalTtl) .invalidApprovalWindow

/-! Manifest, invocation and authorization, each with the checks it passed. -/

structure ToolManifestInput where
  name : String
  version : String
  effect : ToolEffect
  risk : ToolRisk
  requiredScopes : List String
  approval : ToolApprovalRequirement
  idempotency : ToolIdempotency
  filesystem : FilesystemPolicy
  network : NetworkPolicy
  environment : EnvironmentPolicy
  deriving DecidableEq

def ToolManifestInput.validate (input : ToolManifestInput) : Except ToolManifestError Unit := do
  validateToken "name" input.name 128
  validateToken "version" input.version 64
  validateUniqueScopes input.requiredScopes
  validateFilesystemPolicy input.filesystem
  validateNetworkPolicy input.network
  validateEnvironmentPolicy input.environment
  ensure (¬ (input.effect = .pure ∧
    (input.filesystem ≠ .denied ∨ input.network ≠ .denied ∨ input.environment ≠ .denied))) .pureToolDeclaresResources
  ensure (¬ (input.effect = .network ∧ input.network = .denied)) .networkEffectWithoutHosts
  ensure (¬ ((input.risk.requiresApproval = true ∨ input.idempotency = .nonIdempotent) ∧ input.approval ≠ .required))
    .approvalRequiredByRisk

structure ToolManifest extends ToolManifestInput where
  checked : toToolManifestInput.validate = .ok ()

structure ToolInvocationInput where
  invocationHash : String
  filesystemPaths : List String
  networkHosts : List String
  environmentVariables : List String
  idempotencyKey : Option String
  deriving DecidableEq

def ToolInvocationInput.validate (input : ToolInvocationInput) : Except ToolAuthorizationError Unit := do
  validateInvocationHash input.invocationHash
  validatePaths input.filesystemPaths
  validateHosts input.networkHosts
  validateEnvironmentVariables input.environmentVariables
  validateOptionalIdempotencyKey input.idempotencyKey

structure ToolInvocation extends ToolInvocationInput where
  checked : toToolInvocationInput.validate = .ok ()

structure ToolApprovalGrant where
  approvalId : String
  subjectId : String
  toolName : String
  toolVersion : String
  invocationHash : String
  issuedAt : DateTime
  expiresAt : DateTime
  deriving DecidableEq

structure ToolAuthorizationInput where
  subjectId : String
  toolName : String
  toolVersion : String
  grantedScopes : List String
  grantedEffects : List ToolEffect
  filesystemRoots : List String
  networkHosts : List String
  environmentVariables : List String
  approval : Option ToolApprovalGrant
  deriving DecidableEq

def ToolApprovalGrant.validate (approval : ToolApprovalGrant) : Except ToolAuthorizationError Unit := do
  validateTokenAuthorization "approval_id" approval.approvalId 128
  validateTokenAuthorization "approval.subject_id" approval.subjectId 256
  validateTokenAuthorization "approval.tool_name" approval.toolName 128
  validateTokenAuthorization "approval.tool_version" approval.toolVersion 64
  validateInvocationHash approval.invocationHash
  validateApprovalWindow approval.issuedAt approval.expiresAt

def ToolAuthorizationInput.validate (input : ToolAuthorizationInput) : Except ToolAuthorizationError Unit := do
  validateTokenAuthorization "subject_id" input.subjectId 256
  validateTokenAuthorization "tool_name" input.toolName 128
  validateTokenAuthorization "tool_version" input.toolVersion 64
  checkAll ToolApprovalGrant.validate input.approval.toList
  validateAuthorizationScopes input.grantedScopes
  validatePaths input.filesystemRoots
  validateHosts input.networkHosts
  validateEnvironmentVariables input.environmentVariables

structure ToolAuthorization extends ToolAuthorizationInput where
  checked : toToolAuthorizationInput.validate = .ok ()

/-! The decision. -/

inductive ToolDenyReason where
  | authorizationTargetMismatch
  | missingScope (scope : String)
  | effectNotAuthorized (effect : ToolEffect)
  | approvalMissing
  | approvalTargetMismatch
  | approvalSubjectMismatch
  | approvalInvocationMismatch
  | approvalNotYetValid
  | approvalExpired
  | idempotencyKeyMissing
  | filesystemDenied (path : String)
  | filesystemPathNotDeclared (path : String)
  | filesystemPathNotAuthorized (path : String)
  | networkDenied (host : String)
  | networkHostNotDeclared (host : String)
  | networkHostNotAuthorized (host : String)
  | environmentDenied (variable_ : String)
  | environmentVariableNotDeclared (variable_ : String)
  | environmentVariableNotAuthorized (variable_ : String)
  deriving DecidableEq, Repr

inductive ToolPolicyDecision where
  | allow (reasonCode : String)
  | deny (reason : ToolDenyReason)
  deriving DecidableEq, Repr

def ToolPolicyDecision.isAllowed : ToolPolicyDecision → Bool
  | .allow _ => true
  | .deny _ => false

/-- The text after `root`, where the path starts with it, goes on with a separator. -/
def pathIsWithinRoot (path root : String) : Bool :=
  decide (root = ".") || decide (path = root) ||
    (startsWithText path root && decide ((path.toList.drop root.toList.length).head? = some '/'))

def pathIsWithinAnyRoot (path : String) (roots : List String) : Bool := roots.any (pathIsWithinRoot path)

/-- Every value asked for is covered by what is declared and by what is authorized. -/
def decideEach (declared : Option (List String)) (authorized : List String) (covers : String → List String → Bool)
    (denied notDeclared notAuthorized : String → ToolDenyReason) (values : List String) : Except ToolDenyReason Unit :=
  checkAll (fun value => do
    let declared ← required declared (denied value)
    ensure (covers value declared = true) (notDeclared value)
    ensure (covers value authorized = true) (notAuthorized value)) (inOrder values)

def contains (value : String) (values : List String) : Bool := decide (value ∈ values)

section

variable (manifest : ToolManifest) (invocation : ToolInvocation) (authorization : ToolAuthorization)

def decideFilesystem : Except ToolDenyReason Unit :=
  decideEach manifest.filesystem.roots authorization.filesystemRoots pathIsWithinAnyRoot .filesystemDenied
    .filesystemPathNotDeclared .filesystemPathNotAuthorized invocation.filesystemPaths

def decideNetwork : Except ToolDenyReason Unit :=
  decideEach manifest.network.hosts authorization.networkHosts contains .networkDenied .networkHostNotDeclared
    .networkHostNotAuthorized invocation.networkHosts

def decideEnvironment : Except ToolDenyReason Unit :=
  decideEach manifest.environment.variableNames authorization.environmentVariables contains .environmentDenied
    .environmentVariableNotDeclared .environmentVariableNotAuthorized invocation.environmentVariables

def ToolManifest.approvalRequired : Prop :=
  manifest.approval = .required ∨ manifest.risk.requiresApproval = true ∨ manifest.idempotency = .nonIdempotent

instance : Decidable manifest.approvalRequired := inferInstanceAs (Decidable (_ ∨ _))

def decideApproval (now : DateTime) : Except ToolDenyReason Unit := do
  let approval ← required authorization.approval .approvalMissing
  ensure (approval.toolName = manifest.name ∧ approval.toolVersion = manifest.version) .approvalTargetMismatch
  ensure (approval.subjectId = authorization.subjectId) .approvalSubjectMismatch
  ensure (approval.invocationHash = invocation.invocationHash) .approvalInvocationMismatch
  ensure (approval.issuedAt ≤ now) .approvalNotYetValid
  ensure (now < approval.expiresAt) .approvalExpired

/-- The cascade, which stops at the first reason to deny. -/
def decideGrants (now : DateTime) : Except ToolDenyReason Unit := do
  ensure (authorization.toolName = manifest.name ∧ authorization.toolVersion = manifest.version)
    .authorizationTargetMismatch
  checkAll (fun scope => ensure (scope ∈ authorization.grantedScopes) (.missingScope scope))
    (inOrder manifest.requiredScopes)
  ensure (manifest.effect.requiresExplicitGrant = true → manifest.effect ∈ authorization.grantedEffects)
    (.effectNotAuthorized manifest.effect)
  ensure (manifest.filesystem.isReadWrite = true → .write ∈ authorization.grantedEffects) (.effectNotAuthorized .write)
  ensure (manifest.network ≠ .denied → .network ∈ authorization.grantedEffects) (.effectNotAuthorized .network)
  (if manifest.approvalRequired then decideApproval manifest invocation authorization now else .ok ())
  ensure (manifest.idempotency = .keyRequired → invocation.idempotencyKey.isSome = true) .idempotencyKeyMissing
  decideFilesystem manifest invocation authorization
  decideNetwork manifest invocation authorization
  decideEnvironment manifest invocation authorization

/-- `ToolBroker::decide`. -/
def brokerDecide (now : DateTime) : ToolPolicyDecision :=
  match decideGrants manifest invocation authorization now with
  | .ok () => .allow "explicit_policy_grants_satisfied"
  | .error reason => .deny reason

end

end Zaion.Tools
