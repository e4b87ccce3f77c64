import BatchWeaver.Lib.Table
import BatchWeaver.Spec.Strings

/-!
# Analysis facts and operation contracts

What the proof engine reads: the analysis snapshot (`internal/analysis/model.go`) and the validated
contract of an operation (`operation`). Facts of the snapshot are strings in the source and stay
strings here, because the digests are taken over them; the constants the engine compares with are named.
Fields of the snapshot and of a contract that the engine does not read are left out.
-/

namespace BatchWeaver.Prover

/-! ## The snapshot -/

def dispatchDirect : GoString := str "direct"

def dispatchInterface : GoString := str "interface"

def dispatchUnknown : GoString := str "unknown"

def stateDirectIsolated : GoString := str "direct_isolated"

def statePotentialLoop : GoString := str "potential_loop"

def statePotentialSiblings : GoString := str "potential_siblings"

def statePotentialFanout : GoString := str "potential_fanout"

def stateAmbiguousTarget : GoString := str "ambiguous_target"

def stateDisabledOperation : GoString := str "disabled_operation"

def stateInvalidDeclaration : GoString := str "invalid_declaration"

def keyStructural : GoString := str "structural"

def keyResultDependent : GoString := str "result-dependent"

def keyCallDerived : GoString := str "call-derived"

def keyUnknown : GoString := str "unknown"

structure Operation where
  id : GoString := []
  kind : GoString := []
  compatibility : GoString := []
  disabled : Bool := false

structure CallSite where
  id : GoString
  location : GoString
  enclosingFunctionID : GoString
  dispatch : GoString
  inGoroutine : Bool := false
  targets : ℤ
  contextArg : GoString
  keyDependency : GoString
  receiver : GoString
  deriving DecidableEq

structure EffectSummary where
  function : GoString
  effects : List GoString
  complete : Bool

structure Candidate where
  id : GoString
  operation : GoString
  state : GoString
  callSites : List GoString

structure Snapshot where
  buildDigest : GoString
  operations : List Operation
  callSites : List CallSite
  effects : List EffectSummary
  candidates : List Candidate

/-! ## Contracts -/

inductive Effect where
  | unknown
  | read
  | write
  | aggregate
  deriving DecidableEq

inductive Kind where
  | unknown
  | readOnly
  | freshnessSensitiveRead
  | idempotentWrite
  | nonIdempotentWrite
  | commutativeAggregation
  | orderedAggregation
  | atomicGroup
  | transactionBound
  | sessionBound
  deriving DecidableEq

def Kind.text : Kind → GoString
  | .unknown => str "unknown"
  | .readOnly => str "read-only"
  | .freshnessSensitiveRead => str "freshness-sensitive-read"
  | .idempotentWrite => str "idempotent-write"
  | .nonIdempotentWrite => str "non-idempotent-write"
  | .commutativeAggregation => str "commutative-aggregation"
  | .orderedAggregation => str "ordered-aggregation"
  | .atomicGroup => str "atomic-group"
  | .transactionBound => str "transaction-bound"
  | .sessionBound => str "session-bound"

def Kind.effect : Kind → Effect
  | .readOnly | .freshnessSensitiveRead => .read
  | .idempotentWrite | .nonIdempotentWrite | .atomicGroup | .transactionBound | .sessionBound => .write
  | .commutativeAggregation | .orderedAggregation => .aggregate
  | .unknown => .unknown

inductive ResultMode where
  | ordered
  | keyed
  | sparse
  deriving DecidableEq

def ResultMode.text : ResultMode → GoString
  | .ordered => str "ordered"
  | .keyed => str "keyed"
  | .sparse => str "sparse"

inductive MissingBehavior where
  | notFound
  | error
  | zeroValue
  | contractViolation
  deriving DecidableEq

def MissingBehavior.text : MissingBehavior → GoString
  | .notFound => str "not-found"
  | .error => str "error"
  | .zeroValue => str "zero-value"
  | .contractViolation => str "contract-violation"

inductive ErrorMode where
  | perItem
  | global
  | mixed
  deriving DecidableEq

inductive PartitionScope where
  | request
  | job
  | graphQLOperation
  | session
  | transaction
  | process
  | custom
  deriving DecidableEq

def PartitionScope.text : PartitionScope → GoString
  | .request => str "request"
  | .job => str "job"
  | .graphQLOperation => str "graphql-operation"
  | .session => str "session"
  | .transaction => str "transaction"
  | .process => str "process"
  | .custom => str "custom"

/-- What the engine reads of an `operation.Spec`. -/
structure OperationSpec where
  kind : Kind
  freshnessDependent : Bool := false
  mode : ResultMode := .ordered
  missing : MissingBehavior := .notFound
  errorMode : ErrorMode := .perItem
  scope : PartitionScope := .request
  required : List GoString := []

/-! ## Assumptions -/

def factSideEffectFreeRead : GoString := str "side_effect_free_read"

/-- The facts an assumption may declare. -/
def factNames : List GoString :=
  [factSideEffectFreeRead, str "panic_free", str "receiver_immutable", str "synchronization_equivalent",
    str "result_fresh_per_call"]

def builtinRaceFree : GoString := str "BW-A-RACEFREE"

structure Assumption where
  symbol : GoString
  facts : List GoString

/-- The assumptions by symbol; one without a symbol is dropped, a later one replaces an earlier one. -/
def newAssumptionSet (as : List Assumption) : Table GoString Assumption :=
  as.foldl (fun m a => if a.symbol = [] then m else m.insert a.symbol a) ∅

/-- `has` of an assumption set -/
def assumed (as : Table GoString Assumption) (symbol fact : GoString) : Bool :=
  match as.lookup symbol with
  | none => false
  | some a => decide (fact ∈ a.facts)

/-- `digest` of an assumption set: symbols in order, each followed by its facts. -/
def assumptionDigest (H : Sha256) (as : Table GoString Assumption) : GoString :=
  if as.keys.length = 0 then []
  else
    hashParts H ((sortStrings as.keys).flatMap fun k =>
      k :: sortStrings ((as.lookup k).map Assumption.facts |>.getD []))

end BatchWeaver.Prover
