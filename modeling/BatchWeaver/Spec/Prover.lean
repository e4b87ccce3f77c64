import BatchWeaver.Spec.Snapshot

/-!
# The proof engine

`internal/proof`: the facts of a candidate are gathered from the snapshot (`newCandidateContext`), the
obligations are evaluated over them, every applicable strategy gets a status from the obligations it
requires, and the candidate a decision and a certificate (`prove`). `proveAll` is the exported `Prove`
over all candidates.

The loop of `newCandidateContext` puts facts into sets; a set is the list of what was put into it, sorted
without repetition where the source sorts the keys. `seenFn` only saves work and is left out. A
witness is carried by the result of its obligation; the diagnostics, the histograms of the report and
the list of requested assumptions, which are derived from the results, are left out.
-/

namespace BatchWeaver.Prover

variable (H : Sha256)

def schemaVersion : GoString := str "batchweaver.proof/v1alpha1"

def strategyRegistryVersion : GoString := str "1"

/-! ## Obligations -/

inductive ObligationID where
  | signatureCompatible
  | operationEnabled
  | resultContract
  | readCategory
  | freshnessNeutral
  | targetResolved
  | noObservableBarrier
  | earlyExitReplayable
  | keyIndependent
  | noLoopCarried
  | receiverInvariant
  | contextInvariant
  | partitionStable
  | duplicateMapping
  | firstErrorOrder
  | noDeferBarrier
  | noRecoverBoundary
  | noNewConcurrency
  | fanoutEnvelope
  deriving DecidableEq

def ObligationID.text : ObligationID → GoString
  | .signatureCompatible => str "BW-PROOF-DECL-001"
  | .operationEnabled => str "BW-PROOF-DECL-002"
  | .resultContract => str "BW-PROOF-DECL-003"
  | .readCategory => str "BW-PROOF-OP-001"
  | .freshnessNeutral => str "BW-PROOF-OP-002"
  | .targetResolved => str "BW-PROOF-TARGET-001"
  | .noObservableBarrier => str "BW-PROOF-ORDER-001"
  | .earlyExitReplayable => str "BW-PROOF-ORDER-002"
  | .keyIndependent => str "BW-PROOF-DEP-001"
  | .noLoopCarried => str "BW-PROOF-DEP-002"
  | .receiverInvariant => str "BW-PROOF-RECV-001"
  | .contextInvariant => str "BW-PROOF-CTX-001"
  | .partitionStable => str "BW-PROOF-PART-001"
  | .duplicateMapping => str "BW-PROOF-RESULT-001"
  | .firstErrorOrder => str "BW-PROOF-ERROR-001"
  | .noDeferBarrier => str "BW-PROOF-PANIC-001"
  | .noRecoverBoundary => str "BW-PROOF-PANIC-002"
  | .noNewConcurrency => str "BW-PROOF-CONC-001"
  | .fanoutEnvelope => str "BW-PROOF-CONC-002"

inductive Family where
  | declaration
  | order
  | dependency
  | effect
  | receiver
  | context
  | result
  | error
  | panic
  | transaction
  | concurrency

/-- The closed registry of obligations, in canonical order. -/
def obligationRegistry : List (ObligationID × Family) :=
  [(.signatureCompatible, .declaration), (.operationEnabled, .declaration), (.resultContract, .declaration),
    (.readCategory, .effect), (.freshnessNeutral, .effect), (.targetResolved, .dependency),
    (.noObservableBarrier, .order), (.earlyExitReplayable, .order), (.keyIndependent, .dependency),
    (.noLoopCarried, .dependency), (.receiverInvariant, .receiver), (.contextInvariant, .context),
    (.partitionStable, .transaction), (.duplicateMapping, .result), (.firstErrorOrder, .error),
    (.noDeferBarrier, .panic), (.noRecoverBoundary, .panic), (.noNewConcurrency, .concurrency),
    (.fanoutEnvelope, .concurrency)]

def ObligationID.family (o : ObligationID) : Option Family :=
  (obligationRegistry.find? fun e => e.1 = o).map Prod.snd

def obligationRank (o : ObligationID) : ℕ := obligationRegistry.findIdx fun e => e.1 = o

inductive ObligationStatus where
  | satisfied
  | violated
  | needsAssumption
  | unknown
  | notApplicable
  | deferred
  deriving DecidableEq

def ObligationStatus.text : ObligationStatus → GoString
  | .satisfied => str "satisfied"
  | .violated => str "violated"
  | .needsAssumption => str "needs_assumption"
  | .unknown => str "unknown"
  | .notApplicable => str "not_applicable"
  | .deferred => str "deferred"

structure Evidence where
  id : GoString
  kind : GoString
  detail : GoString
  location : GoString

structure Witness where
  id : GoString
  obligation : ObligationID
  summary : GoString
  steps : List GoString
  location : GoString
  truncated : Bool

structure ObligationResult where
  id : ObligationID
  family : Option Family := none
  status : ObligationStatus
  summary : GoString
  evidence : List Evidence := []
  assumptions : List GoString := []
  witness : Option Witness := none

/-! ## Strategies -/

inductive StrategyID where
  | staticLoopPrefetch
  | staticOrderedPrefetch
  | staticSiblingFusion
  | existingFanoutCoalescing
  | runtimeScopeCoalescing
  deriving DecidableEq

def StrategyID.text : StrategyID → GoString
  | .staticLoopPrefetch => str "static-loop-prefetch"
  | .staticOrderedPrefetch => str "static-ordered-prefetch"
  | .staticSiblingFusion => str "static-sibling-fusion"
  | .existingFanoutCoalescing => str "existing-fanout-coalescing"
  | .runtimeScopeCoalescing => str "runtime-scope-coalescing"

def staticCore : List ObligationID :=
  [.signatureCompatible, .operationEnabled, .resultContract, .readCategory, .freshnessNeutral,
    .targetResolved, .noObservableBarrier, .keyIndependent, .receiverInvariant, .contextInvariant,
    .partitionStable, .duplicateMapping, .noDeferBarrier, .noRecoverBoundary, .noNewConcurrency]

/-- The obligations a strategy requires (`strategyRegistry`). -/
def StrategyID.required : StrategyID → List ObligationID
  | .staticLoopPrefetch => staticCore ++ [.noLoopCarried, .earlyExitReplayable, .firstErrorOrder]
  | .staticOrderedPrefetch => staticCore ++ [.noLoopCarried, .earlyExitReplayable, .firstErrorOrder]
  | .staticSiblingFusion => staticCore ++ [.earlyExitReplayable, .firstErrorOrder]
  | .existingFanoutCoalescing =>
    [.signatureCompatible, .operationEnabled, .resultContract, .readCategory, .targetResolved,
      .partitionStable, .duplicateMapping, .fanoutEnvelope]
  | .runtimeScopeCoalescing =>
    [.signatureCompatible, .operationEnabled, .resultContract, .readCategory, .targetResolved,
      .partitionStable, .duplicateMapping]

def strategyRegistry : List StrategyID :=
  [.staticLoopPrefetch, .staticOrderedPrefetch, .staticSiblingFusion, .existingFanoutCoalescing,
    .runtimeScopeCoalescing]

def strategyRank (s : StrategyID) : ℕ := strategyRegistry.findIdx fun t => t = s

/-- The strategies to evaluate for the structural class of a candidate. -/
def applicableStrategies (state : GoString) : List StrategyID :=
  if state = statePotentialLoop then
    [.staticLoopPrefetch, .staticOrderedPrefetch, .runtimeScopeCoalescing]
  else if state = statePotentialSiblings then [.staticSiblingFusion, .runtimeScopeCoalescing]
  else if state = statePotentialFanout then [.existingFanoutCoalescing, .runtimeScopeCoalescing]
  else [.runtimeScopeCoalescing]

/-! ## The facts of a candidate -/

/-- The effects that block static movement of a call. -/
def staticBarrierEffects : List GoString :=
  [str "global-write", str "channel", str "synchronization", str "network", str "process",
    str "filesystem", str "unsafe", str "reflection", str "unknown-call", str "randomness", str "time",
    str "logging", str "goroutine"]

structure Limits where
  maxCandidates : ℤ := 0
  maxWitnessSteps : ℤ := 0

def Limits.withDefaults (l : Limits) : Limits where
  maxCandidates := if l.maxCandidates ≤ 0 then 5000 else l.maxCandidates
  maxWitnessSteps := if l.maxWitnessSteps ≤ 0 then 32 else l.maxWitnessSteps

structure CandidateContext where
  cand : Candidate
  op : Operation
  spec : Option OperationSpec
  sites : List CallSite
  contractDigest : GoString
  assumptions : Table GoString Assumption
  limits : Limits
  effects : List GoString
  effectsComplete : Bool
  dispatch : List GoString
  receivers : List GoString
  contexts : List GoString
  keyDeps : List GoString
  inGoroutine : Bool
  location : GoString

/-- The target of a call is not one known function. -/
def CallSite.ambiguous (s : CallSite) : Bool :=
  decide (s.targets ≠ 1 ∨ s.dispatch = dispatchInterface ∨ s.dispatch = dispatchUnknown)

/-- The effect summaries of the enclosing functions; none for a function without one. -/
def summaries (effByFn : Table GoString EffectSummary) (sites : List CallSite) :
    List (Option EffectSummary) :=
  (sites.filter fun s => s.enclosingFunctionID ≠ []).map fun s => effByFn.lookup s.enclosingFunctionID

/-- The non-empty values of a fact. -/
def present (l : List GoString) : List GoString := l.filter fun v => v ≠ []

def newCandidateContext (cand : Candidate) (op : Operation) (specs : Table GoString OperationSpec)
    (siteByID : Table GoString CallSite) (effByFn : Table GoString EffectSummary)
    (assumptions : Table GoString Assumption) (contractDigest : GoString) (limits : Limits) :
    CandidateContext :=
  let sites := cand.callSites.filterMap fun id => siteByID.lookup id
  { cand := cand, op := op, spec := specs.lookup cand.operation, sites := sites, contractDigest := contractDigest
    assumptions := assumptions
    limits := limits
    effects := (summaries effByFn sites).flatMap fun e => (e.map EffectSummary.effects).getD []
    effectsComplete := (summaries effByFn sites).all fun e => (e.map EffectSummary.complete).getD false
    dispatch := sortedKeys (sites.flatMap fun s =>
      s.dispatch :: if s.ambiguous then [str "ambiguous"] else [])
    receivers := sortedKeys (present (sites.map CallSite.receiver))
    contexts := sortedKeys (present (sites.map CallSite.contextArg))
    keyDeps := sortedKeys (present (sites.map CallSite.keyDependency))
    inGoroutine := sites.any CallSite.inGoroutine
    location := ((sites.map CallSite.location).find? fun l => l ≠ []).getD [] }

/-! ## Evaluating the obligations -/

namespace CandidateContext

variable (cc : CandidateContext)

def evidence (kind detail : GoString) : Evidence :=
  ⟨shortID H (str "bwev") [cc.cand.id, kind, detail], kind, detail, cc.location⟩

def addWitness (o : ObligationID) (summary : GoString) (steps : List GoString) : Option Witness :=
  some
    { id := shortID H (str "bwwit") [cc.cand.id, o.text], obligation := o, summary := summary
      steps := steps.take cc.limits.maxWitnessSteps.toNat
      location := cc.location
      truncated := decide (cc.limits.maxWitnessSteps < steps.length) }

/-- The barrier effects among the effects of the enclosing functions. -/
def barrierEffects : List GoString := sortedKeys (cc.effects.filter fun e => e ∈ staticBarrierEffects)

def oblSignatureCompatible : ObligationResult :=
  if cc.op.compatibility = str "valid" then
    { id := .signatureCompatible, status := .satisfied,
      summary := str "scalar and batch signatures are compatible",
      evidence := [cc.evidence H (str "compatibility")
        (str "analysis resolved both symbols and verified error results")] }
  else if cc.op.compatibility = str "unresolved" then
    { id := .signatureCompatible, status := .unknown,
      summary := str "scalar or batch symbol could not be resolved in the loaded program" }
  else
    { id := .signatureCompatible, status := .violated,
      summary := str "scalar and batch signatures are not compatible" }

def oblOperationEnabled : ObligationResult :=
  if cc.op.disabled then
    { id := .operationEnabled, status := .deferred, summary := str "operation is disabled" }
  else
    { id := .operationEnabled, status := .satisfied,
      summary := str "operation is enabled for transformation" }

def oblResultContract : ObligationResult :=
  match cc.spec with
  | none =>
    { id := .resultContract, status := .unknown,
      summary := str "no validated result contract is available for this operation" }
  | some spec =>
    { id := .resultContract, status := .satisfied,
      summary := str "result contract (" ++ spec.mode.text ++
        str ") is sufficient for scalar reconstruction",
      evidence := [cc.evidence H (str "contract")
        (str "result mode " ++ spec.mode.text ++ str ", missing policy " ++ spec.missing.text)] }

/-- The read/write/aggregate effect of the operation and a name for its kind. -/
def operationEffect : Effect × GoString :=
  match cc.spec with
  | some spec => (spec.kind.effect, spec.kind.text)
  | none =>
    if cc.op.kind = str "read-only" ∨ cc.op.kind = str "freshness-sensitive-read" then (.read, cc.op.kind)
    else if cc.op.kind = [] then (.unknown, str "unknown")
    else if cc.op.kind = str "commutative-aggregation" ∨ cc.op.kind = str "ordered-aggregation" then
      (.aggregate, cc.op.kind)
    else (.write, cc.op.kind)

def oblReadCategory : ObligationResult :=
  let kindName := cc.operationEffect.2
  match cc.operationEffect.1 with
  | .read =>
    { id := .readCategory, status := .satisfied, summary := str "operation is declared " ++ kindName,
      evidence := [cc.evidence H (str "operation-kind") kindName] }
  | .unknown =>
    { id := .readCategory, status := .unknown,
      summary := str "operation kind is unknown; a read/write classification is required" }
  | _ =>
    { id := .readCategory, status := .violated,
      summary := str "operation is a " ++ kindName ++ str "; the strategy does not support it",
      witness := cc.addWitness H .readCategory
        (str "operation is a " ++ kindName ++
          str "; core static and runtime coalescing do not batch writes or aggregations")
        [str "declared kind: " ++ kindName] }

def oblFreshnessNeutral : ObligationResult :=
  if (cc.spec.map OperationSpec.freshnessDependent).getD false then
    { id := .freshnessNeutral, status := .unknown,
      summary := str "operation is freshness-sensitive; reordering across observations is not proven safe" }
  else if cc.operationEffect.1 ≠ .read then
    { id := .freshnessNeutral, status := .notApplicable,
      summary := str "freshness does not apply to a non-read operation" }
  else
    { id := .freshnessNeutral, status := .satisfied, summary := str "operation is not freshness-sensitive" }

def oblTargetResolved : ObligationResult :=
  if cc.sites.any CallSite.ambiguous then
    { id := .targetResolved, status := .unknown,
      summary := str "call target does not resolve to a single implementation",
      witness := cc.addWitness H .targetResolved
        (str "call target includes an unresolved interface implementation")
        [str "dispatch: " ++ joinStrings cc.dispatch (str ", ")] }
  else
    { id := .targetResolved, status := .satisfied,
      summary := str "call target resolves to a single implementation",
      evidence := [cc.evidence H (str "dispatch") (str "direct call with a single static target")] }

def oblNoObservableBarrier : ObligationResult :=
  if !cc.effectsComplete then
    { id := .noObservableBarrier, status := .unknown,
      summary := str "the enclosing function has unresolved effects; a barrier cannot be excluded" }
  else if cc.barrierEffects ≠ [] then
    { id := .noObservableBarrier, status := .unknown,
      summary := str "an observable effect may occur between scalar calls: " ++
        joinStrings cc.barrierEffects (str ", "),
      witness := cc.addWitness H .noObservableBarrier
        (str "the enclosing function performs observable effects that may occur between scalar calls")
        [str "effects: " ++ joinStrings cc.barrierEffects (str ", ")] }
  else
    { id := .noObservableBarrier, status := .satisfied,
      summary := str "the enclosing function is observably effect-free around the scalar calls",
      evidence := [cc.evidence H (str "effects") (str "no observable effects in the enclosing function")] }

def oblEarlyExitReplayable : ObligationResult :=
  match cc.spec with
  | none =>
    { id := .earlyExitReplayable, status := .unknown,
      summary := str "no result contract is available to reconstruct early control flow" }
  | some spec =>
    if spec.errorMode = .perItem then
      { id := .earlyExitReplayable, status := .satisfied,
        summary := str "per-item errors allow early control flow to be reconstructed in source order" }
    else
      { id := .earlyExitReplayable, status := .unknown, summary := str
          "a global error contract does not preserve per-iteration early exit without further proof" }

/-- The symbol of the assumption on call-derived keys. -/
def keySymbol : GoString := str "key:" ++ cc.cand.operation

def oblKeyIndependent : ObligationResult :=
  if keyResultDependent ∈ cc.keyDeps then
    { id := .keyIndependent, status := .violated,
      summary := str "a key depends on a prior scalar result and cannot be collected ahead of the operation",
      witness := cc.addWitness H .keyIndependent
        (str "the key expression depends on the result of a prior scalar-operation call")
        [str "key dependency: " ++ keyResultDependent] }
  else if keyCallDerived ∈ cc.keyDeps then
    if assumed cc.assumptions cc.keySymbol factSideEffectFreeRead then
      { id := .keyIndependent, status := .satisfied,
        summary := str "key independence accepted by an explicit assumption",
        assumptions := [shortID H (str "BW-A") [cc.keySymbol, factSideEffectFreeRead]] }
    else
      { id := .keyIndependent, status := .needsAssumption,
        summary := str "a key is produced by a call whose independence requires an explicit assumption",
        assumptions := [shortID H (str "BW-A") [cc.keySymbol, factSideEffectFreeRead]],
        witness := cc.addWitness H .keyIndependent
          (str "the key expression calls another function or reads mutable global state")
          [str "key dependency: " ++ keyCallDerived] }
  else if keyUnknown ∈ cc.keyDeps ∨ cc.keyDeps = [] then
    { id := .keyIndependent, status := .unknown,
      summary := str "the key expression could not be classified" }
  else
    { id := .keyIndependent, status := .satisfied,
      summary := str "keys derive only from parameters, constants, and induction values",
      evidence := [cc.evidence H (str "key") (str "structural key dependency")] }

def oblNoLoopCarried : ObligationResult :=
  if cc.cand.state ≠ statePotentialLoop then
    { id := .noLoopCarried, status := .notApplicable, summary := str "candidate is not a loop" }
  else if keyResultDependent ∈ cc.keyDeps then
    { id := .noLoopCarried, status := .violated,
      summary := str "a loop-carried dependency crosses the operation result",
      witness := cc.addWitness H .noLoopCarried
        (str "a later iteration key depends on an earlier iteration operation result")
        [str "key dependency: " ++ keyResultDependent] }
  else if keyCallDerived ∈ cc.keyDeps ∨ keyUnknown ∈ cc.keyDeps then
    { id := .noLoopCarried, status := .unknown,
      summary := str "a loop-carried dependency cannot be excluded for this key" }
  else
    { id := .noLoopCarried, status := .satisfied,
      summary := str "no loop-carried dependency crosses the operation result" }

def oblReceiverInvariant : ObligationResult :=
  if cc.receivers = [] then
    { id := .receiverInvariant, status := .satisfied, summary := str "operation has no receiver to vary" }
  else if 1 < cc.receivers.length ∨ str "unknown" ∈ cc.receivers then
    { id := .receiverInvariant, status := .unknown,
      summary := str "receiver identity is not proven invariant across the region",
      witness := cc.addWitness H .receiverInvariant
        (str "the receiver expression is not proven to evaluate to the same instance")
        [str "receivers: " ++ joinStrings cc.receivers (str ", ")] }
  else
    { id := .receiverInvariant, status := .satisfied,
      summary := str "receiver identity is invariant across the region",
      evidence := [cc.evidence H (str "receiver") (cc.receivers.headD [])] }

def oblContextInvariant : ObligationResult :=
  if cc.contexts = [] then
    { id := .contextInvariant, status := .unknown, summary := str "no context argument was identified" }
  else if cc.contexts.length = 1 ∧ hasPrefix (cc.contexts.headD []) (str "parameter ") = true then
    { id := .contextInvariant, status := .satisfied,
      summary := str "context expression is a loop-invariant parameter",
      evidence := [cc.evidence H (str "context") (cc.contexts.headD [])] }
  else
    { id := .contextInvariant, status := .unknown,
      summary := str "context expression is not proven invariant across the region",
      witness := cc.addWitness H .contextInvariant
        (str "the context argument is derived or varies across the region")
        [str "contexts: " ++ joinStrings cc.contexts (str ", ")] }

/-- The loop over the required dimensions of a partition contract. -/
def partitionLoop (spec : OperationSpec) : List GoString → ObligationResult
  | [] =>
    { id := .partitionStable, status := .satisfied,
      summary := str "required partitions are invariant across the region",
      evidence := [cc.evidence H (str "partition") (str "scope " ++ spec.scope.text)] }
  | dim :: dims =>
    if dim = str "receiver" then
      if cc.receivers.length ≤ 1 ∧ str "unknown" ∉ cc.receivers then partitionLoop spec dims
      else
        { id := .partitionStable, status := .unknown,
          summary := str "receiver partition is not proven invariant" }
    else
      { id := .partitionStable, status := .unknown,
        summary := str "partition dimension " ++ dim ++ str " cannot be verified from static facts",
        witness := cc.addWitness H .partitionStable
          (str "partition dimension " ++ dim ++ str " is not resolvable without a contract")
          [str "required dimension: " ++ dim] }

def oblPartitionStable : ObligationResult :=
  match cc.spec with
  | none =>
    { id := .partitionStable, status := .unknown,
      summary := str "no partition contract is available to verify isolation" }
  | some spec => cc.partitionLoop H spec spec.required

def oblDuplicateMapping : ObligationResult :=
  match cc.spec with
  | none =>
    { id := .duplicateMapping, status := .unknown,
      summary := str "no result contract is available to reconstruct duplicates and missing results" }
  | some spec =>
    { id := .duplicateMapping, status := .satisfied, summary := str
        "duplicate keys and missing results reconstruct scalar outcomes per the result contract",
      evidence := [cc.evidence H (str "contract") (str "missing policy " ++ spec.missing.text)] }

def oblFirstErrorOrder : ObligationResult :=
  match cc.spec with
  | none =>
    { id := .firstErrorOrder, status := .unknown,
      summary := str "no error contract is available to reconstruct first-error order" }
  | some spec =>
    if spec.errorMode = .perItem then
      { id := .firstErrorOrder, status := .satisfied,
        summary := str "per-item errors allow source-order first-error reconstruction",
        evidence := [cc.evidence H (str "contract") (str "error mode per-item")] }
    else
      { id := .firstErrorOrder, status := .unknown, summary := str
          "a global or mixed error contract does not preserve source-order first-error without further proof" }

def oblNoDeferBarrier : ObligationResult :=
  if str "defer" ∈ cc.effects then
    { id := .noDeferBarrier, status := .unknown,
      summary := str "a defer registration in the enclosing function may fall within the candidate region",
      witness := cc.addWitness H .noDeferBarrier
        (str "the enclosing function registers a defer whose timing could move") [str "effect: defer"] }
  else
    { id := .noDeferBarrier, status := .satisfied, summary := str "no defer registration timing would move" }

def oblNoRecoverBoundary : ObligationResult :=
  if str "recover" ∈ cc.effects then
    { id := .noRecoverBoundary, status := .unknown,
      summary := str "the enclosing function crosses a recover boundary",
      witness := cc.addWitness H .noRecoverBoundary
        (str "a recover in the enclosing function may cross the candidate region")
        [str "effect: recover"] }
  else
    { id := .noRecoverBoundary, status := .satisfied, summary := str "no recover boundary is crossed" }

def oblNoNewConcurrency : ObligationResult :=
  { id := .noNewConcurrency, status := .satisfied,
    summary := str "the strategy introduces no new concurrency" }

def oblFanoutEnvelope : ObligationResult :=
  if !cc.inGoroutine then
    { id := .fanoutEnvelope, status := .notApplicable, summary := str "candidate is not existing fan-out" }
  else
    { id := .fanoutEnvelope, status := .satisfied, summary := str
        "calls are already concurrent; coalescing preserves the existing concurrency envelope",
      evidence := [cc.evidence H (str "concurrency") (str "calls occur inside launched goroutines")] }

/-- The evaluator of an obligation. -/
def evaluate : ObligationID → ObligationResult
  | .signatureCompatible => cc.oblSignatureCompatible H
  | .operationEnabled => cc.oblOperationEnabled
  | .resultContract => cc.oblResultContract H
  | .readCategory => cc.oblReadCategory H
  | .freshnessNeutral => cc.oblFreshnessNeutral
  | .targetResolved => cc.oblTargetResolved H
  | .noObservableBarrier => cc.oblNoObservableBarrier H
  | .earlyExitReplayable => cc.oblEarlyExitReplayable
  | .keyIndependent => cc.oblKeyIndependent H
  | .noLoopCarried => cc.oblNoLoopCarried H
  | .receiverInvariant => cc.oblReceiverInvariant H
  | .contextInvariant => cc.oblContextInvariant H
  | .partitionStable => cc.oblPartitionStable H
  | .duplicateMapping => cc.oblDuplicateMapping H
  | .firstErrorOrder => cc.oblFirstErrorOrder H
  | .noDeferBarrier => cc.oblNoDeferBarrier H
  | .noRecoverBoundary => cc.oblNoRecoverBoundary H
  | .noNewConcurrency => oblNoNewConcurrency
  | .fanoutEnvelope => cc.oblFanoutEnvelope H

/-- `evaluateObligations` and `orderedResults`: the evaluation order is the order of the registry. -/
def evaluateObligations : List ObligationResult :=
  obligationRegistry.map fun e => { cc.evaluate H e.1 with family := e.1.family }

end CandidateContext

/-! ## From obligations to decisions -/

inductive Decision where
  | provenEligible
  | provenIneligible
  | requiresAssumption
  | unknown
  | deferred
  deriving DecidableEq

def Decision.text : Decision → GoString
  | .provenEligible => str "proven_eligible"
  | .provenIneligible => str "proven_ineligible"
  | .requiresAssumption => str "requires_assumption"
  | .unknown => str "unknown"
  | .deferred => str "deferred"

/-- The status of a required obligation; one that was not evaluated is unknown. -/
def requiredStatus (results : List ObligationResult) (o : ObligationID) : ObligationStatus :=
  ((results.find? fun r => r.id = o).map ObligationResult.status).getD .unknown

/-- `sortObligations` -/
def sortObligations (l : List ObligationID) : List ObligationID :=
  l.insertionSort fun a b => obligationRank a ≤ obligationRank b

/-- `strategyStatus`: the decision and the obligations that block eligibility. -/
def strategyStatus (required : List ObligationID) (results : List ObligationResult) :
    Decision × List ObligationID :=
  let having := fun st => required.filter fun o => requiredStatus results o = st
  if having .violated ≠ [] then (.provenIneligible, sortObligations (having .violated))
  else if having .unknown ≠ [] then (.unknown, sortObligations (having .unknown))
  else if having .needsAssumption ≠ [] then
    (.requiresAssumption, sortObligations (having .needsAssumption))
  else if having .deferred ≠ [] then (.deferred, sortObligations (having .deferred))
  else (.provenEligible, [])

structure StrategyEligibility where
  strategy : StrategyID
  status : Decision
  reason : GoString
  blockingObligations : List ObligationID

/-- `aggregateDecision` -/
def aggregateDecision (l : List StrategyEligibility) : Decision :=
  if l = [] then .deferred
  else if l.any fun s => s.status = .provenEligible then .provenEligible
  else if l.any fun s => s.status = .requiresAssumption then .requiresAssumption
  else if l.any fun s => s.status = .unknown then .unknown
  else if (l.any fun s => s.status = .deferred) ∧ ¬(l.any fun s => s.status = .provenIneligible) then
    .deferred
  else .provenIneligible

def strategyReason (status : Decision) (blocking : List ObligationID) : GoString :=
  let names := joinStrings (blocking.map ObligationID.text) (str ", ")
  match status with
  | .provenEligible => str "all required obligations are satisfied"
  | .provenIneligible => str "a required obligation is violated: " ++ names
  | .unknown => str "a required obligation is unknown: " ++ names
  | .requiresAssumption => str "a required obligation needs an assumption: " ++ names
  | .deferred => str "a required obligation is deferred: " ++ names

/-- The reason code of the first obligation that blocks a strategy with the decision. -/
def blockingReason (o : ObligationID) : Option GoString :=
  if o = .readCategory then some (str "write_category")
  else if o = .targetResolved then some (str "ambiguous_target")
  else
    match o.family with
    | some .dependency => some (str "ambiguous_target")
    | some .order | some .effect => some (str "observable_barrier")
    | some .result | some .error | some .receiver | some .context | some .transaction =>
      some (str "missing_contract")
    | _ => none

def decisionReason (decision : Decision) (l : List StrategyEligibility) : GoString :=
  if decision = .provenEligible then []
  else
    (l.findSome? fun s =>
      if s.status = decision then s.blockingObligations.head?.bind blockingReason else none).getD []

/-! ## Certificates -/

structure CandidateFacts where
  id : GoString
  operation : GoString
  structure' : GoString
  compatibility : GoString := []
  disabled : Bool := false
  kind : GoString := []
  contractDigest : GoString
  dispatch : List GoString := []
  effects : List GoString := []
  effectsComplete : Bool := false
  receivers : List GoString := []
  contexts : List GoString := []

def boolStr (b : Bool) : GoString := if b then str "1" else str "0"

/-- The parts under the digest of a candidate. -/
def digestParts (f : CandidateFacts) : List GoString :=
  [str "candidate", f.id, f.operation, f.structure', str "compat", f.compatibility, str "disabled",
    boolStr f.disabled, str "kind", f.kind, str "contract", f.contractDigest,
    str "dispatch", joinStrings (sortStrings f.dispatch) (str ","),
    str "effects", joinStrings (sortStrings f.effects) (str ","),
    str "complete", boolStr f.effectsComplete,
    str "receiver", joinStrings (sortStrings f.receivers) (str ","),
    str "context", joinStrings (sortStrings f.contexts) (str ",")]

def candidateDigest (f : CandidateFacts) : GoString := hashParts H (digestParts f)

def proofID (candDigest : GoString) (obligations : List ObligationResult)
    (strategies : List StrategyEligibility) (contractDigest asmDigest : GoString) : GoString :=
  shortID H (str "bwproof")
    ([str "proof", schemaVersion, strategyRegistryVersion, str "candidate", candDigest, str "contract",
        contractDigest, str "assumptions", asmDigest] ++
      obligations.flatMap (fun o => [o.id.text, o.status.text]) ++
      strategies.flatMap fun s => [s.strategy.text, s.status.text])

structure InvalidationSet where
  analysisDigest : GoString
  contractDigest : GoString
  assumptionDigest : GoString
  candidateDigest : GoString
  proofSchema : GoString
  strategyRegistry : GoString
  deriving DecidableEq

structure CandidateProof where
  id : GoString
  proofID : GoString
  operation : GoString
  structure' : GoString
  location : GoString := []
  candidateDigest : GoString
  decision : Decision
  reasonCode : GoString
  allowedStrategies : List StrategyEligibility := []
  obligations : List ObligationResult := []
  assumptions : List GoString := []
  witnesses : List Witness := []
  limitations : List GoString := []
  invalidation : InvalidationSet

def structureLabel (state : GoString) : GoString :=
  if state = statePotentialLoop then str "range loop"
  else if state = statePotentialSiblings then str "sibling calls"
  else if state = statePotentialFanout then str "goroutine fan-out"
  else if state = stateAmbiguousTarget then str "ambiguous target"
  else if state = stateDirectIsolated then str "direct call"
  else if state = stateDisabledOperation then str "disabled operation"
  else if state = stateInvalidDeclaration then str "invalid declaration"
  else state

namespace CandidateContext

variable (cc : CandidateContext)

def facts : CandidateFacts where
  id := cc.cand.id
  operation := cc.cand.operation
  structure' := cc.cand.state
  compatibility := cc.op.compatibility
  disabled := cc.op.disabled
  kind := cc.op.kind
  contractDigest := cc.contractDigest
  dispatch := cc.dispatch
  effects := sortedKeys cc.effects
  effectsComplete := cc.effectsComplete
  receivers := cc.receivers
  contexts := cc.contexts

/-- The invalidation set of a certificate; the source fills both digests from the contract digest. -/
def invalidation : InvalidationSet where
  analysisDigest := cc.contractDigest
  contractDigest := cc.contractDigest
  assumptionDigest := assumptionDigest H cc.assumptions
  candidateDigest := candidateDigest H cc.facts
  proofSchema := schemaVersion
  strategyRegistry := strategyRegistryVersion

/-- The record of a decision reached before the strategies are evaluated. -/
def terminal (decision : Decision) (reason summary : GoString) : CandidateProof :=
  let res : List ObligationResult :=
    if decision = .provenIneligible then
      [{ id := .signatureCompatible, family := some .declaration, status := .violated, summary := summary }]
    else
      [{ id := .operationEnabled, family := some .declaration, status := .deferred, summary := summary }]
  let cd := candidateDigest H cc.facts
  { id := cc.cand.id, proofID := proofID H cd res [] cc.contractDigest (assumptionDigest H cc.assumptions)
    operation := cc.cand.operation
    structure' := structureLabel cc.cand.state
    location := cc.location
    candidateDigest := cd
    decision := decision
    reasonCode := reason
    obligations := res
    invalidation := cc.invalidation H }

/-- The status of every applicable strategy, in canonical order. -/
def eligibility : List StrategyEligibility :=
  ((applicableStrategies cc.cand.state).map fun s =>
    let st := strategyStatus s.required (cc.evaluateObligations H)
    { strategy := s, status := st.1, reason := strategyReason st.1 st.2,
      blockingObligations := st.2 : StrategyEligibility }).insertionSort
    fun a b => strategyRank a.strategy ≤ strategyRank b.strategy

def collectAssumptions (results : List ObligationResult) : List GoString :=
  sortedKeys (results.flatMap ObligationResult.assumptions ++ if cc.inGoroutine then [builtinRaceFree] else [])

def limitations : List GoString :=
  sortStrings ([str "provider performance is not guaranteed",
      str "provider side effects not declared in the operation contract are not modeled",
      str "behavior of code reached only through unresolved reflection is not modeled"] ++
    (if cc.inGoroutine then [str "correctness assumes the analyzed program is free of data races"] else []) ++
    if !cc.effectsComplete then
      [str "the enclosing function has unresolved effects; some obligations are unknown"] else [])

/-- `prove` -/
def prove : CandidateProof :=
  if cc.op.compatibility = str "invalid" then
    cc.terminal H .provenIneligible (str "invalid_declaration")
      (str "operation declaration is invalid; the scalar and batch signatures are not compatible")
  else if cc.op.disabled then
    cc.terminal H .deferred (str "disabled_operation")
      (str "operation is disabled; no transformation strategy is offered")
  else
    let results := cc.evaluateObligations H
    let elig := cc.eligibility H
    let cd := candidateDigest H cc.facts
    let decision := aggregateDecision elig
    { id := cc.cand.id, proofID := proofID H cd results elig cc.contractDigest (assumptionDigest H cc.assumptions)
      operation := cc.cand.operation
      structure' := structureLabel cc.cand.state
      location := cc.location
      candidateDigest := cd
      decision := decision
      reasonCode := decisionReason decision elig
      allowedStrategies := elig
      obligations := results
      assumptions := cc.collectAssumptions results
      witnesses := results.filterMap ObligationResult.witness
      limitations := cc.limitations
      invalidation := cc.invalidation H }

end CandidateContext

/-! ## A proof run -/

structure Input where
  snapshot : Option Snapshot
  specs : Table GoString OperationSpec := ∅
  contractDigest : GoString := []
  assumptions : List Assumption := []
  limits : Limits := {}

inductive ProveError where
  | nilSnapshot
  | cancelled (err : GoString)

structure Report where
  analysisDigest : GoString
  contractDigest : GoString
  assumptionDigest : GoString
  declaredOperations : ℕ
  operationCallSites : ℕ
  candidates : ℕ
  candidateProofs : List CandidateProof

/-- The record of a candidate beyond the budget. -/
def limitedProof (cand : Candidate) (contractDigest asmDigest : GoString) : CandidateProof :=
  let facts : CandidateFacts :=
    { id := cand.id, operation := cand.operation, structure' := cand.state, contractDigest := contractDigest }
  let cd := candidateDigest H facts
  { id := cand.id, proofID := proofID H cd [] [] contractDigest asmDigest, operation := cand.operation
    structure' := structureLabel cand.state
    candidateDigest := cd
    decision := .unknown
    reasonCode := str "resource_limit"
    limitations := [str "candidate exceeded the configured proof budget and was not evaluated"]
    invalidation :=
      { analysisDigest := contractDigest, contractDigest := contractDigest, assumptionDigest := asmDigest,
        candidateDigest := cd, proofSchema := schemaVersion, strategyRegistry := strategyRegistryVersion } }

/-- Entries by key; a later entry replaces an earlier one. -/
def indexBy {α : Type} (key : α → GoString) (l : List α) : Table GoString α :=
  l.foldl (fun m a => m.insert (key a) a) ∅

/-- The context of a candidate in a run. -/
def contextOf (input : Input) (snap : Snapshot) (cand : Candidate) : CandidateContext :=
  newCandidateContext cand (((indexBy Operation.id snap.operations).lookup cand.operation).getD {})
    input.specs (indexBy CallSite.id snap.callSites) (indexBy EffectSummary.function snap.effects)
    (newAssumptionSet input.assumptions) input.contractDigest input.limits.withDefaults

/-- The record of the candidate at position `i`. -/
def proofAt (input : Input) (snap : Snapshot) (i : ℕ) (cand : Candidate) : CandidateProof :=
  if input.limits.withDefaults.maxCandidates ≤ i then
    limitedProof H cand input.contractDigest (assumptionDigest H (newAssumptionSet input.assumptions))
  else (contextOf input snap cand).prove H

/-- `Prove`; `ctxErr i` is what the context says before the candidate at position `i`. -/
def proveAll (ctxErr : ℕ → Option GoString) (input : Input) : Except ProveError Report :=
  match input.snapshot with
  | none => .error .nilSnapshot
  | some snap =>
    match (List.range snap.candidates.length).findSome? ctxErr with
    | some err => .error (.cancelled err)
    | none =>
      .ok
        { analysisDigest := snap.buildDigest, contractDigest := input.contractDigest
          assumptionDigest := assumptionDigest H (newAssumptionSet input.assumptions)
          declaredOperations := snap.operations.length
          operationCallSites := snap.callSites.length
          candidates := snap.candidates.length
          candidateProofs := snap.candidates.mapIdx fun i cand => proofAt H input snap i cand }

end BatchWeaver.Prover
