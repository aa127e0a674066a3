import Zaion.Lib.Joined
import Zaion.Sample
import Zaion.Tools.Broker

/-! What an allowed invocation has been granted: its paths lie under a declared and an authorized
root, component by component, and nothing it needs is missing. -/
namespace Zaion.Tools

open Lib

/-- The `/`-separated components of a path. -/
def pathParts (path : String) : List (List Char) := path.toList.splitOn '/'

/-- The root `.` is the directory itself. -/
def rootParts (root : String) : List (List Char) := if root = "." then [] else pathParts root

/-- A path without empty, `.` and `..` components, but for the directory itself. -/
def PlainPath (path : String) : Prop :=
  path = "." ∨ ∀ part ∈ pathParts path, part ≠ [] ∧ part ≠ ['.'] ∧ part ≠ ['.', '.']

def Under (path : String) (roots : List String) : Prop := ∃ root ∈ roots, rootParts root <+: pathParts path

/-- The effects a tool of the manifest must be granted. -/
def ToolManifest.impliedEffects (manifest : ToolManifest) : List ToolEffect :=
  (if manifest.effect.requiresExplicitGrant then [manifest.effect] else []) ++
    (if manifest.filesystem.isReadWrite then [.write] else []) ++ (if manifest.network = .denied then [] else [.network])

/-- The approval is for this invocation, and for now. -/
structure ApprovedFor (manifest : ToolManifest) (invocation : ToolInvocation) (authorization : ToolAuthorization)
    (now : DateTime) (approval : ToolApprovalGrant) : Prop where
  tool : approval.toolName = manifest.name ∧ approval.toolVersion = manifest.version
  subject : approval.subjectId = authorization.subjectId
  invocation : approval.invocationHash = invocation.invocationHash
  issued : approval.issuedAt ≤ now
  unexpired : now < approval.expiresAt

/-- Everything the invocation needs is declared and granted. -/
structure Granted (manifest : ToolManifest) (invocation : ToolInvocation) (authorization : ToolAuthorization)
    (now : DateTime) : Prop where
  scopes : ∀ scope ∈ manifest.requiredScopes, scope ∈ authorization.grantedScopes
  effects : ∀ effect ∈ manifest.impliedEffects, effect ∈ authorization.grantedEffects
  approval : manifest.approvalRequired →
    ∃ approval ∈ authorization.approval, ApprovedFor manifest invocation authorization now approval
  idempotency : manifest.idempotency = .keyRequired → invocation.idempotencyKey.isSome = true
  paths : ∀ path ∈ invocation.filesystemPaths,
    (∃ declared ∈ manifest.filesystem.roots, Under path declared) ∧ Under path authorization.filesystemRoots
  hosts : ∀ host ∈ invocation.networkHosts,
    (∃ declared ∈ manifest.network.hosts, host ∈ declared) ∧ host ∈ authorization.networkHosts
  environment : ∀ name ∈ invocation.environmentVariables,
    (∃ declared ∈ manifest.environment.variableNames, name ∈ declared) ∧ name ∈ authorization.environmentVariables

/-- The authorization is for the tool of the manifest. -/
def Targets (authorization : ToolAuthorization) (manifest : ToolManifest) : Prop :=
  authorization.toolName = manifest.name ∧ authorization.toolVersion = manifest.version

/-- The second authorization grants what the first does, and maybe more. -/
structure Enlarges (smaller larger : ToolAuthorization) : Prop where
  subjectId : larger.subjectId = smaller.subjectId
  toolName : larger.toolName = smaller.toolName
  toolVersion : larger.toolVersion = smaller.toolVersion
  approval : larger.approval = smaller.approval
  scopes : smaller.grantedScopes ⊆ larger.grantedScopes
  effects : smaller.grantedEffects ⊆ larger.grantedEffects
  roots : smaller.filesystemRoots ⊆ larger.filesystemRoots
  hosts : smaller.networkHosts ⊆ larger.networkHosts
  environment : smaller.environmentVariables ⊆ larger.environmentVariables

/-- The second invocation asks for what the first does, and maybe more. -/
structure AsksMore (less more : ToolInvocation) : Prop where
  invocationHash : more.invocationHash = less.invocationHash
  idempotencyKey : more.idempotencyKey = less.idempotencyKey
  paths : less.filesystemPaths ⊆ more.filesystemPaths
  hosts : less.networkHosts ⊆ more.networkHosts
  environment : less.environmentVariables ⊆ more.environmentVariables

section

variable {path root : String} {roots : List String} {manifest : ToolManifest} {invocation : ToolInvocation}
  {authorization : ToolAuthorization} {now : DateTime}

theorem pathParts_injective : Function.Injective pathParts :=
  fun _ _ same => String.toList_injective (splitOn_injective '/' same)

/-- A path that goes on after its root has the root's components first. -/
theorem parts_prefix_iff : pathParts root <+: pathParts path ↔
    path = root ∨ ∃ rest, path.toList = root.toList ++ '/' :: rest := by
  constructor
  · rintro ⟨rest, split⟩
    cases rest with
    | nil =>
      rw [List.append_nil] at split
      exact .inl (pathParts_injective split).symm
    | cons part more =>
      refine .inr ⟨['/'].intercalate (part :: more), ?_⟩
      have text := congrArg (List.intercalate ['/']) split
      have some_ : pathParts root ≠ [] := List.splitOn_ne_nil _ _
      rw [intercalate_append some_ (List.cons_ne_nil _ _),pathParts,pathParts,List.intercalate_splitOn,
        List.intercalate_splitOn] at text
      simpa using text.symm
  · rintro (rfl | ⟨rest, text⟩)
    · exact List.prefix_refl _
    · rw [pathParts,pathParts,text,List.splitOn_append_cons_self]
      exact List.prefix_append _ _

theorem pathIsWithinRoot_iff : pathIsWithinRoot path root = true ↔ rootParts root <+: pathParts path := by
  unfold pathIsWithinRoot rootParts
  by_cases here : root = "."
  · simp [here]
  · rw [if_neg here,parts_prefix_iff]
    simp only [here,decide_false,Bool.false_or,Bool.or_eq_true,Bool.and_eq_true,decide_eq_true_eq,startsWithText]
    refine or_congr Iff.rfl ?_
    constructor
    · rintro ⟨⟨rest, split⟩, next⟩
      rw [← split,List.drop_left] at next
      obtain ⟨tail, rfl⟩ := List.head?_eq_some_iff.mp next
      exact ⟨tail, split.symm⟩
    · rintro ⟨rest, split⟩
      rw [split]
      exact ⟨List.prefix_append _ _, by rw [List.drop_left]; rfl⟩

theorem pathIsWithinAnyRoot_iff : pathIsWithinAnyRoot path roots = true ↔ Under path roots := by
  simp only [pathIsWithinAnyRoot,List.any_eq_true,pathIsWithinRoot_iff,Under]

theorem canonical_plain (canonical : isCanonicalPath path = true) : PlainPath path := by
  have read := of_decide_eq_true canonical
  unfold canonicalRelativePath at read
  generalize path.toList.map (fun c => if c = '\\' then '/' else c) = text at read
  split at read
  · cases read
  · dsimp only at read
    split at read
    · next dot =>
      rw [dot] at read
      exact .inl (Option.some.inj read).symm
    · split at read
      · cases read
      · split at read
        · cases read
        · next named =>
          refine .inr ?_
          rw [List.intercalate_splitOn] at read
          rw [pathParts,← Option.some.inj read,String.toList_ofList]
          intro part member
          simp only [List.any_eq_true,Bool.or_eq_true,decide_eq_true_eq,not_exists,not_and,not_or] at named
          obtain ⟨⟨⟨empty, here⟩, above⟩, _⟩ := named part member
          exact ⟨empty, here, above⟩

theorem validateEach_valid {valid : String → Bool} {invalid duplicate : String → ε} {seen values : List String}
    (passed : validateEach valid invalid duplicate seen values = .ok ()) : ∀ value ∈ values, valid value = true := by
  induction values generalizing seen with
  | nil => simp
  | cons value rest ih =>
    simp only [validateEach,bind_ok_iff,ensure_ok_iff] at passed
    obtain ⟨_, here, _, _, later⟩ := passed
    exact List.forall_mem_cons.mpr ⟨here, ih later⟩

/-- Every path of an invocation is plain. -/
theorem invocation_plain (invocation : ToolInvocation) : ∀ path ∈ invocation.filesystemPaths, PlainPath path := by
  have checked := invocation.checked
  simp only [ToolInvocationInput.validate,bind_ok_iff] at checked
  obtain ⟨_, _, _, paths, _⟩ := checked
  intro path member
  exact canonical_plain (validateEach_valid paths path member)

theorem mem_inOrder {values : List String} {value : String} : value ∈ inOrder values ↔ value ∈ values :=
  List.mem_mergeSort

theorem decideEach_ok_iff {declared : Option (List String)} {authorized values : List String}
    {covers : String → List String → Bool} {denied notDeclared notAuthorized : String → ToolDenyReason} :
    decideEach declared authorized covers denied notDeclared notAuthorized values = .ok () ↔
      ∀ value ∈ values, (∃ named ∈ declared, covers value named = true) ∧ covers value authorized = true := by
  simp only [decideEach,checkAll_ok_iff,mem_inOrder,bind_ok_iff,required_ok_iff,ensure_ok_iff]
  refine forall₂_congr fun value _ => ?_
  constructor
  · rintro ⟨named, found, _, covered, authorized⟩
    exact ⟨⟨named, found, covered⟩, authorized⟩
  · rintro ⟨⟨named, found, covered⟩, authorized⟩
    exact ⟨named, found, (), covered, authorized⟩

theorem decideApproval_ok_iff : decideApproval manifest invocation authorization now = .ok () ↔
    ∃ approval ∈ authorization.approval, ApprovedFor manifest invocation authorization now approval := by
  simp only [decideApproval,bind_ok_iff,required_ok_iff,ensure_ok_iff]
  constructor
  · rintro ⟨approval, found, _, tool, _, subject, _, hash, _, issued, unexpired⟩
    exact ⟨approval, found, tool, subject, hash, issued, unexpired⟩
  · rintro ⟨approval, found, tool, subject, hash, issued, unexpired⟩
    exact ⟨approval, found, (), tool, (), subject, (), hash, (), issued, unexpired⟩

/-- The cascade lets pass exactly what is granted for the tool. -/
theorem decide_allowed_iff : (brokerDecide manifest invocation authorization now).isAllowed = true ↔
    Targets authorization manifest ∧ Granted manifest invocation authorization now := by
  have allowed : (brokerDecide manifest invocation authorization now).isAllowed = true ↔
      decideGrants manifest invocation authorization now = .ok () := by
    unfold brokerDecide
    cases decideGrants manifest invocation authorization now <;> simp [ToolPolicyDecision.isAllowed]
  have approved : (if manifest.approvalRequired then decideApproval manifest invocation authorization now else .ok ()) =
      .ok () ↔ (manifest.approvalRequired →
        ∃ approval ∈ authorization.approval, ApprovedFor manifest invocation authorization now approval) := by
    by_cases needed : manifest.approvalRequired <;> simp [needed,decideApproval_ok_iff]
  have effects : (∀ effect ∈ manifest.impliedEffects, effect ∈ authorization.grantedEffects) ↔
      (manifest.effect.requiresExplicitGrant = true → manifest.effect ∈ authorization.grantedEffects) ∧
      (manifest.filesystem.isReadWrite = true → .write ∈ authorization.grantedEffects) ∧
      (manifest.network ≠ .denied → .network ∈ authorization.grantedEffects) := by
    simp only [ToolManifest.impliedEffects,List.forall_mem_append,and_assoc]
    refine and_congr ?_ (and_congr ?_ ?_)
    · split <;> simp_all
    · split <;> simp_all
    · split <;> simp_all
  rw [allowed]
  simp only [decideGrants,check_bind_ok_iff,ensure_ok_iff,checkAll_ok_iff,mem_inOrder,approved,decideFilesystem,
    decideNetwork,decideEnvironment,decideEach_ok_iff,pathIsWithinAnyRoot_iff,contains,decide_eq_true_eq]
  constructor
  · rintro ⟨target, scopes, effect, write, network, approval, key, paths, hosts, environment⟩
    exact ⟨target, scopes, effects.mpr ⟨effect, write, network⟩, approval, key, paths, hosts, environment⟩
  · rintro ⟨target, scopes, granted, approval, key, paths, hosts, environment⟩
    obtain ⟨effect, write, network⟩ := effects.mp granted
    exact ⟨target, scopes, effect, write, network, approval, key, paths, hosts, environment⟩

theorem Under.mono {smaller larger : List String} (within : Under path smaller) (more : smaller ⊆ larger) :
    Under path larger := by
  obtain ⟨root, member, below⟩ := within
  exact ⟨root, more member, below⟩

theorem Granted.enlarge {larger : ToolAuthorization} (granted : Granted manifest invocation authorization now)
    (enlarges : Enlarges authorization larger) : Granted manifest invocation larger now where
  scopes scope member := enlarges.scopes (granted.scopes scope member)
  effects effect member := enlarges.effects (granted.effects effect member)
  approval needed := by
    obtain ⟨approval, found, tool, subject, hash, issued, unexpired⟩ := granted.approval needed
    exact ⟨approval, enlarges.approval ▸ found, tool, subject.trans enlarges.subjectId.symm, hash, issued, unexpired⟩
  idempotency := granted.idempotency
  paths path member := ⟨(granted.paths path member).1, (granted.paths path member).2.mono enlarges.roots⟩
  hosts host member := ⟨(granted.hosts host member).1, enlarges.hosts (granted.hosts host member).2⟩
  environment name member :=
    ⟨(granted.environment name member).1, enlarges.environment (granted.environment name member).2⟩

theorem Granted.askLess {more : ToolInvocation} (granted : Granted manifest more authorization now)
    (asks : AsksMore invocation more) : Granted manifest invocation authorization now where
  scopes := granted.scopes
  effects := granted.effects
  approval needed := by
    obtain ⟨approval, found, tool, subject, hash, issued, unexpired⟩ := granted.approval needed
    exact ⟨approval, found, tool, subject, hash.trans asks.invocationHash, issued, unexpired⟩
  idempotency needed := asks.idempotencyKey ▸ granted.idempotency needed
  paths path member := granted.paths path (asks.paths member)
  hosts host member := granted.hosts host (asks.hosts member)
  environment name member := granted.environment name (asks.environment member)

/-- An invocation is allowed exactly when it is granted for the tool. A larger authorization allows
no less, an invocation that asks for more is allowed no more. -/
theorem broker_confines (manifest : ToolManifest) (invocation : ToolInvocation) (authorization : ToolAuthorization)
    (now : DateTime) :
    ((brokerDecide manifest invocation authorization now).isAllowed = true ↔
      Targets authorization manifest ∧ Granted manifest invocation authorization now) ∧
    (∀ path ∈ invocation.filesystemPaths, PlainPath path) ∧
    (∀ larger, Enlarges authorization larger → (brokerDecide manifest invocation authorization now).isAllowed = true →
      (brokerDecide manifest invocation larger now).isAllowed = true) ∧
    ∀ more, AsksMore invocation more → (brokerDecide manifest more authorization now).isAllowed = true →
      (brokerDecide manifest invocation authorization now).isAllowed = true := by
  refine ⟨decide_allowed_iff, invocation_plain invocation, ?_, ?_⟩
  · intro larger enlarges allowed
    obtain ⟨⟨name, version⟩, granted⟩ := decide_allowed_iff.mp allowed
    exact decide_allowed_iff.mpr
      ⟨⟨enlarges.toolName.trans name, enlarges.toolVersion.trans version⟩, granted.enlarge enlarges⟩
  · intro more asks allowed
    obtain ⟨target, granted⟩ := decide_allowed_iff.mp allowed
    exact decide_allowed_iff.mpr ⟨target, granted.askLess asks⟩

end

def calculator : ToolManifest where
  name := "calculator"
  version := "1"
  effect := .pure
  risk := .low
  requiredScopes := ["calculate"]
  approval := .notRequired
  idempotency := .idempotent
  filesystem := .denied
  network := .denied
  environment := .denied
  checked := by decide +kernel

def addition : ToolInvocation where
  invocationHash := "sha256:0000000000000000000000000000000000000000000000000000000000000000"
  filesystemPaths := []
  networkHosts := []
  environmentVariables := []
  idempotencyKey := none
  checked := by decide +kernel

/-- An authorization with the scope, for another tool. -/
def forSearch : ToolAuthorization where
  subjectId := "user-1"
  toolName := "search"
  toolVersion := "1"
  grantedScopes := ["calculate"]
  grantedEffects := []
  filesystemRoots := []
  networkHosts := []
  environmentVariables := []
  approval := none
  checked := by decide +kernel

/-- All that is asked for is granted, and the invocation is denied. -/
theorem granted_for_another_tool : Granted calculator addition forSearch sampleNow ∧
    (brokerDecide calculator addition forSearch sampleNow).isAllowed = false := by
  refine ⟨⟨by decide, by decide, ?_, by decide, ?_, ?_, ?_⟩, by decide⟩
  · exact fun needed => absurd needed (by decide)
  all_goals
    intro _ member
    cases member

end Zaion.Tools
