import BatchWeaver.Spec.Loop
import BatchWeaver.Spec.Operation

/-!
# Binding an operation

`Bind` checks a declaration and a binding and builds the configuration the coordinator runs with: the scheduler policy
of the spec decides the flush mode and the batch limits, the queue limits are merged from the binding, the policy and
the engine.

Of the binding only what is checked or read by the coordinator is here: whether there is a provider and a scalar
fallback, the key strategy, limits and the overflow policy. Partitioner, weights, scopes and the parameters of
memoization are left out, the check that memoization is permitted is not.
-/

namespace BatchWeaver

variable {K : Type}

/-- Limits are well-formed when none is negative. -/
def QueueLimits.valid (l : QueueLimits) : Bool :=
  !(l.maxItems < 0 || l.maxWaiters < 0 || l.maxBytes < 0 || l.maxWeight < 0 || l.maxPartitions < 0)

/-- `merge`: a zero field is taken from the other limits. -/
def QueueLimits.merge (l other : QueueLimits) : QueueLimits where
  maxItems := if l.maxItems = 0 then other.maxItems else l.maxItems
  maxWaiters := if l.maxWaiters = 0 then other.maxWaiters else l.maxWaiters
  maxBytes := if l.maxBytes = 0 then other.maxBytes else l.maxBytes
  maxWeight := if l.maxWeight = 0 then other.maxWeight else l.maxWeight
  maxPartitions := if l.maxPartitions = 0 then other.maxPartitions else l.maxPartitions

/-- Adaptive, throughput and latency modes are treated as a fixed window. -/
def normalizeFlushMode : Operation.SchedulerMode → FlushMode
  | .immediateWave => .immediate
  | .manual => .manual
  | .deadlineAware => .deadlineAware
  | _ => .fixedWindow

/-- What `Bind` reads of an engine. -/
structure EngineView where
  isOpen : Bool := true
  ops : List GoString := []
  defaultLimits : QueueLimits := { maxItems := 100000, maxBytes := 67108864, maxPartitions := 10000 }
  defaultOverflow : OverflowPolicy := .reject

/-- `Binding` -/
structure Binding (K : Type) where
  provider : Bool := true
  keys : Option (KeyStrategy K)
  fallback : Bool := false
  limits : QueueLimits := {}
  overflow : Option OverflowPolicy := none
  enableMemoization : Bool := false

inductive BindError where
  | engineClosing
  /-- `ErrInvalidBinding` with the findings of the spec -/
  | invalidSpec (findings : List Diagnostic)
  /-- `ErrInvalidBinding` with a reason -/
  | invalidBinding (reason : GoString)
  /-- `ErrInvalidOption`: queue limits must not be negative -/
  | invalidLimits
  | alreadyBound (id : GoString)

/-- The text of an identifier, which is ASCII. -/
def idText (id : GoString) : String := String.ofList (id.map fun b => Char.ofNat b.toNat)

/-- The overflow policy of a scheduler policy; the engine's default is for values outside of the enumeration. -/
def overflowPolicy : Operation.OverflowBehavior → OverflowPolicy
  | .reject => .reject
  | .block => .block
  | .fallback => .fallback

/-- The configuration `Bind` builds. -/
def newBindingConfig (engine : EngineView) (spec : Operation.Spec) (b : Binding K) (keys : KeyStrategy K) :
    BindingConfig K :=
  let sp := spec.schedulerPolicy
  let specLimits : QueueLimits :=
    { maxItems := sp.queueItems, maxBytes := sp.queueBytes, maxWeight := sp.maxBatchWeight,
      maxPartitions := sp.activePartitions }
  { opID := idText spec.id, keys := keys, limits := (b.limits.merge specLimits).merge engine.defaultLimits
    overflow := b.overflow.getD (overflowPolicy sp.overflow)
    flushMode := normalizeFlushMode sp.mode
    maxBatchSize := if sp.maxBatchSize < 1 then 1 else sp.maxBatchSize
    maxBatchWeight := sp.maxBatchWeight
    maxBatchBytes := sp.maxPayloadBytes
    maxWait := sp.maxWait
    deadlineMargin := sp.deadlineMargin
    maxConcurrency := if sp.maxConcurrency < 1 then 1 else sp.maxConcurrency
    dedupEnabled := spec.deduplicationPolicy.inFlight
    maxBatchSize_pos := by split <;> omega
    maxConcurrency_pos := by split <;> omega }

/-- `Bind`: the configuration, and the engine with the operation registered. -/
def Binding.bind (L : Library) (engine : EngineView) (spec : Operation.Spec) (b : Binding K) :
    Except BindError (BindingConfig K × EngineView) :=
  let sem := spec.semantics
  let kind := Operation.Enumeration.text sem.kind
  if !engine.isOpen then .error .engineClosing
  else if spec.validate L ≠ [] then .error (.invalidSpec (spec.validate L))
  else if !b.provider then .error (.invalidBinding (str "provider is nil"))
  else
    match b.keys with
    | none => .error (.invalidBinding (str "key strategy is nil"))
    | some keys =>
      let cfg := newBindingConfig engine spec b keys
      if !b.limits.valid then .error .invalidLimits
      else if cfg.dedupEnabled && !sem.deduplicationAllowed then
        .error (.invalidBinding (str "in-flight deduplication is not permitted for " ++ kind ++ str " operations"))
      else if (spec.deduplicationPolicy.scopeMemoization || b.enableMemoization) &&
          (sem.effect ≠ .read || sem.freshnessDependent) then
        .error (.invalidBinding (str "memoization is not permitted for " ++ kind ++ str " operations"))
      else if cfg.overflow = .fallback ∧ b.fallback = false then
        .error (.invalidBinding (str "fallback overflow policy requires a scalar fallback"))
      -- `registerController`
      else if spec.id ∈ engine.ops then .error (.alreadyBound spec.id)
      else .ok (cfg, { engine with ops := engine.ops ++ [spec.id] })

end BatchWeaver
