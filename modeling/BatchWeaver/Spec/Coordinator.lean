import BatchWeaver.Spec.Batch
import BatchWeaver.Spec.Strings

/-!
# The coordinator's data

One coordinator owns all mutable state of a bound operation (`coordinator.go`,
`policy.go`, `adaptive.go`). Items and waiters are shared through pointers in the
source: an item sits in the deduplication index, in its partition's queue or in a
batch, and every holder sees its updates. Here both live in a heap: an item's
address is its request id, a waiter's its waiter id, and everything else holds
addresses.

What the coordinator sends (admission replies, results, provider calls,
context cancellations, barrier replies) is appended to `out`, in order. Event hooks and
cumulative statistics are left out; of the gauges, `queuedItems` and
`queuedWaiters` are kept.

Counters that only count up (`requestSeq`, `submitSeq`, `batchSeq`) are unbounded
naturals; sums of weights and of bytes wrap as `int64` does.
-/

namespace BatchWeaver

abbrev ItemId := ℕ

abbrev WaiterId := ℕ

abbrev BatchId := ℕ

/-- A flush, drain or close request, named by its reply channel. -/
abbrev ControlId := ℕ

/-- `int64` wrap-around. -/
def wrap64 (x : ℤ) : ℤ := Int.bmod x (2 ^ 64)

lemma wrap64_of_lt {x : ℤ} (h0 : 0 ≤ x) (h : x < 2 ^ 63) : wrap64 x = x := by
  unfold wrap64
  rw [Int.bmod_eq_of_le] <;> norm_num <;> omega

def maxInt : ℤ := 2 ^ 63 - 1

/-! ## Configuration -/

inductive FlushMode where
  | immediate
  | fixedWindow
  | deadlineAware
  | manual
  deriving DecidableEq

inductive OverflowPolicy where
  | reject
  | fallback
  | block
  deriving DecidableEq

/-- Why a batch was dispatched. -/
inductive FlushReason where
  | manual
  | size
  | weight
  | bytes
  | wait
  | deadline
  deriving DecidableEq

/-- The limit a refused submission ran into. -/
inductive LimitCategory where
  | partitions
  | items
  | waiters
  | bytes
  | weight
  deriving DecidableEq

/-- Queue limits; zero means no limit. -/
structure QueueLimits where
  maxItems : ℤ := 0
  maxWaiters : ℤ := 0
  maxBytes : ℤ := 0
  maxWeight : ℤ := 0
  maxPartitions : ℤ := 0

/-- How keys are hashed and compared. -/
structure KeyStrategy (K : Type) where
  hash : K → UInt64
  equal : K → K → Bool

/-- The contract of a key strategy: `equal` is an equivalence and equal keys hash
equally. -/
structure KeyStrategy.Lawful {K : Type} (s : KeyStrategy K) : Prop where
  refl : ∀ a, s.equal a a = true
  symm : ∀ a b, s.equal a b = true → s.equal b a = true
  trans : ∀ a b c, s.equal a b = true → s.equal b c = true → s.equal a c = true
  hash : ∀ a b, s.equal a b = true → s.hash a = s.hash b

/-- The normalized configuration of a bound operation. `Bind` raises the batch size
and the concurrency to at least one. -/
structure BindingConfig (K : Type) where
  opID : String
  keys : KeyStrategy K
  limits : QueueLimits
  overflow : OverflowPolicy
  flushMode : FlushMode
  maxBatchSize : ℤ
  maxBatchWeight : ℤ
  maxBatchBytes : ℤ
  maxWait : ℤ
  deadlineMargin : ℤ
  maxConcurrency : ℤ
  dedupEnabled : Bool
  maxBatchSize_pos : 1 ≤ maxBatchSize
  maxConcurrency_pos : 1 ≤ maxConcurrency

/-- Overrides an adaptive controller asks for; zero leaves a dimension as configured. -/
structure AdaptiveSettings where
  maxWait : ℤ := 0
  maxBatchSize : ℤ := 0
  maxConcurrency : ℤ := 0

/-- The clamped overrides the coordinator reads. -/
structure DynamicSettings where
  maxWait : ℤ
  maxBatchSize : ℤ
  maxConcurrency : ℤ

/-- `v` clamped to `[lo, hi]`; `hi ≤ 0` means no upper bound (`clampInt`, `clampDur`). -/
def clampInt (v lo hi : ℤ) : ℤ :=
  let v := if v < lo then lo else v
  if 0 < hi ∧ hi < v then hi else v

/-- `ApplyAdaptiveSettings`: the snapshot it stores. -/
def applyAdaptiveSettings {K : Type} (cfg : BindingConfig K) (s : AdaptiveSettings) :
    DynamicSettings where
  maxWait :=
    if 0 < s.maxWait ∧ s.maxWait < cfg.maxWait then s.maxWait
    else if s.maxWait = 0 then cfg.maxWait
    else clampInt s.maxWait 0 cfg.maxWait
  maxBatchSize :=
    if 0 < s.maxBatchSize then clampInt s.maxBatchSize 1 cfg.maxBatchSize else cfg.maxBatchSize
  maxConcurrency :=
    if 0 < s.maxConcurrency then clampInt s.maxConcurrency 1 cfg.maxConcurrency
    else cfg.maxConcurrency

/-! ## Errors and results -/

/-- The errors the runtime hands out. `foreign` is an error value made elsewhere (by
a provider, by a context). -/
inductive GoError (E : Type) where
  | engineClosed
  | engineClosing
  | itemTooLarge
  | fallback
  | queueFull (operation : String) (limit : LimitCategory)
  | partitionLimit (operation : String) (limit : ℤ)
  | providerPanic (operation : String) (value : String)
  | contract (operation : String) (reason : String)
  | flushTimeout (cause : GoError E)
  | drainTimeout (cause : GoError E)
  | foreign (e : E)
  deriving DecidableEq

/-- What a waiter is sent. `found` tells a not-found outcome from a successful zero
value. -/
structure Result (V E : Type) where
  value : V
  err : Option (GoError E)
  found : Bool
  deriving DecidableEq

def Result.error {V E : Type} [Inhabited V] (err : GoError E) : Result V E :=
  { value := default, err := some err, found := false }

/-! ## Items, partitions, batches -/

/-- One logical caller. Its channel is the waiter's part of `Coord.out`. -/
structure Waiter where
  active : Bool
  deadline : Time
  hasDeadline : Bool

/-- The waiter `Do` allocates for a context with the given deadline. -/
def Waiter.new : Option Time → Waiter
  | some dl => { active := true, deadline := dl, hasDeadline := true }
  | none => { active := true, deadline := 0, hasDeadline := false }

/-- A unique queued item; duplicates share it as further waiters. -/
structure QItem (K : Type) where
  seq : ℕ
  key : K
  hash : UInt64
  weight : ℤ
  bytes : ℤ
  enqueue : Time
  waiters : List WaiterId
  activeWaiters : ℤ
  dispatched : Bool
  batchID : BatchId

instance {K : Type} [Inhabited K] : Inhabited (QItem K) :=
  ⟨⟨0, default, 0, 0, 0, 0, [], 0, false, 0⟩⟩

/-- A batching boundary; equality is exact over the encoding. -/
structure Partition where
  encoded : GoString
  deriving DecidableEq

/-- The queue and the deduplication index of one partition. -/
structure PartitionState where
  part : Partition
  pending : List ItemId
  active : Table UInt64 (List ItemId)
  bytes : ℤ
  weight : ℤ
  waiters : ℤ
  live : ℤ

def PartitionState.new (part : Partition) : PartitionState :=
  { part := part, pending := [], active := ∅, bytes := 0, weight := 0, waiters := 0, live := 0 }

/-- The bucket of a hash. -/
def PartitionState.bucket (p : PartitionState) (h : UInt64) : List ItemId :=
  (p.active.lookup h).getD []

/-- The items of the index, bucket after bucket. -/
def PartitionState.indexed (p : PartitionState) : List ItemId := Table.gather p.active id

/-- The context of a provider call, derived from the engine's. -/
structure BatchCtx where
  deadline : Option Time
  /-- the batch's cancel function has been called -/
  canceled : Bool
  deriving DecidableEq

/-- A dispatched batch. `minSeq` is a minimum that starts from `^uint64(0)`, here `⊤`. -/
structure BatchInflight where
  id : BatchId
  ctx : BatchCtx
  items : List ItemId
  activeWaiters : ℤ
  partition : GoString
  minSeq : WithTop ℕ
  deriving DecidableEq

/-! ## Messages -/

structure SubmitReq (K : Type) where
  part : Partition
  key : K
  hash : UInt64
  weight : ℤ
  bytes : ℤ
  waiter : WaiterId
  deriving DecidableEq

structure CancelReq where
  part : GoString
  waiterID : WaiterId
  blocked : Bool
  deriving DecidableEq

structure CompleteReq (V E : Type) where
  batchID : BatchId
  response : BatchResponse V (GoError E)
  globalErr : Option (GoError E)
  panicked : Bool
  panicVal : String

inductive ControlKind where
  | flush
  | drain
  | close
  deriving DecidableEq

structure ControlReq where
  kind : ControlKind
  reply : ControlId

/-- A flush, drain or close that waits for its condition. -/
structure Barrier where
  kind : ControlKind
  seq : ℕ
  reply : ControlId
  dispatchOnly : Bool
  deriving DecidableEq

/-- What the coordinator does to the world outside of its own state. -/
inductive Effect (K V E : Type) where
  /-- `req.reply <- err` -/
  | reply (w : WaiterId) (err : Option (GoError E))
  /-- `w.ch <- r` -/
  | result (w : WaiterId) (r : Result V E)
  /-- `startWorker`, in a context marked with the partition -/
  | start (batchID : BatchId) (part : GoString) (reason : FlushReason) (deadline : Option Time)
      (req : BatchRequest K)
  /-- `b.cancel()` -/
  | cancel (batchID : BatchId)
  /-- `b.reply <- err` for a barrier -/
  | barrier (id : ControlId) (err : Option (GoError E))
  deriving DecidableEq

/-- The result an effect sends to a waiter. -/
def Effect.resultFor {K V E : Type} (w : WaiterId) : Effect K V E → Option (Result V E)
  | .result w' r => if w' = w then some r else none
  | _ => none

/-- The barrier an effect answers. -/
def Effect.answers {K V E : Type} : Effect K V E → Option ControlId
  | .barrier id _ => some id
  | _ => none

/-! ## The state -/

/-- The coordinator, with the parts of the engine and of the heap it works on. -/
structure Coord (K V E : Type) where
  items : ItemId → QItem K
  waiters : WaiterId → Option Waiter
  partitions : Table GoString PartitionState
  inflight : Table BatchId BatchInflight
  blocked : List (SubmitReq K)
  timer : Option Time
  timerActive : Bool
  activeProvider : ℤ
  batchSeq : ℕ
  submitSeq : ℕ
  closing : Bool
  done : Bool
  barriers : List Barrier
  dyn : Option DynamicSettings
  queuedItems : ℤ
  queuedWaiters : ℤ
  /-- `engine.requestSeq` -/
  requestSeq : ℕ
  /-- `engine.ctx` is done -/
  engineDone : Bool
  out : List (Effect K V E)

variable {K V E : Type}

/-- The coordinator `Bind` starts. -/
def Coord.init [Inhabited K] : Coord K V E where
  items := fun _ => default
  waiters := fun _ => none
  partitions := ∅
  inflight := ∅
  blocked := []
  timer := none
  timerActive := false
  activeProvider := 0
  batchSeq := 0
  submitSeq := 0
  closing := false
  done := false
  barriers := []
  dyn := none
  queuedItems := 0
  queuedWaiters := 0
  requestSeq := 0
  engineDone := false
  out := []

namespace Coord

variable (c : Coord K V E)

/-- The partition stored under a key; a fresh one when there is none. -/
def part (pk : GoString) : PartitionState :=
  (c.partitions.lookup pk).getD (PartitionState.new ⟨pk⟩)

def setPart (pk : GoString) (p : PartitionState) : Coord K V E :=
  { c with partitions := c.partitions.insert pk p }

def setItem (it : ItemId) (x : QItem K) : Coord K V E :=
  { c with items := Function.update c.items it x }

/-- Whether a waiter is active. -/
def active (w : WaiterId) : Bool :=
  match c.waiters w with
  | some x => x.active
  | none => false

/-- `w.active = false` -/
def deactivate (w : WaiterId) : Coord K V E :=
  let off := (c.waiters w).map fun x => { x with active := false }
  { c with waiters := Function.update c.waiters w off }

def emit (eff : Effect K V E) : Coord K V E := { c with out := c.out ++ [eff] }

/-- The results sent on a waiter's channel so far. -/
def results (w : WaiterId) : List (Result V E) := c.out.filterMap (Effect.resultFor w)

def effectiveMaxWait (cfg : BindingConfig K) : ℤ :=
  match c.dyn with
  | some ds => ds.maxWait
  | none => cfg.maxWait

def effectiveMaxBatchSize (cfg : BindingConfig K) : ℤ :=
  match c.dyn with
  | some ds => ds.maxBatchSize
  | none => cfg.maxBatchSize

def effectiveMaxConcurrency (cfg : BindingConfig K) : ℤ :=
  match c.dyn with
  | some ds => ds.maxConcurrency
  | none => cfg.maxConcurrency

/-- The earliest deadline among an item's active waiters. -/
def itemEarliestDeadline (it : ItemId) : Option Time :=
  (c.items it).waiters.foldl (fun best w =>
    match c.waiters w with
    | some x =>
      if x.active && x.hasDeadline then
        match best with
        | none => some x.deadline
        | some t => if x.deadline < t then some x.deadline else best
      else best
    | none => best) none

/-- The latest deadline among an item's active waiters, counted from the zero time,
and whether there is an active waiter and every one has a deadline. -/
def itemLatestDeadline (it : ItemId) : Time × Bool :=
  let r : Time × Bool × Bool := (c.items it).waiters.foldl (fun r w =>
    match c.waiters w with
    | some x =>
      if !x.active then r
      else if !x.hasDeadline then (r.1, false, true)
      else (if r.1 < x.deadline then x.deadline else r.1, r.2.1, true)
    | none => r) (0, true, false)
  (r.1, r.2.2 && r.2.1)

end Coord

end BatchWeaver
