import BatchWeaver.Spec.Handlers

/-!
# Dispatch, completion, barriers

The functions of `coordinator_dispatch.go`. `dispatchBatch` runs over the queue once:
an item is skipped, failed, selected or left over, and the selected ones become one
provider call. `schedule` repeats it per partition while the flush policy asks for a
batch and a provider slot is free.

Maps are iterated in the order of their tables; the source's order is unspecified
and no result depends on it (`partitionKeys` sorts).
-/

namespace BatchWeaver

variable {K V E : Type}

/-! ## Selecting a batch -/

/-- The item weight a provider sees: at least one. -/
def clampWeight (w : ℤ) : ℤ := if w < 1 then 1 else if maxInt < w then maxInt else w

/-- The local variables of the loop in `dispatchBatch`. -/
structure Selection (K : Type) where
  selected : List ItemId := []
  items : List (BatchItem K) := []
  count : ℤ := 0
  weight : ℤ := 0
  bytes : ℤ := 0
  minSeq : WithTop ℕ := ⊤
  remaining : List ItemId := []

namespace Coord

/-- Whether a single item exceeds a hard batch limit. -/
def itemTooLarge (cfg : BindingConfig K) (x : QItem K) : Bool :=
  if 0 < cfg.maxBatchWeight ∧ cfg.maxBatchWeight < x.weight then true
  else if 0 < cfg.maxBatchBytes ∧ cfg.maxBatchBytes < x.bytes then true
  else false

/-- Whether adding an item keeps the batch within the hard limits; `mbs` is the
effective maximum batch size. -/
def fits (cfg : BindingConfig K) (mbs : ℤ) (count weight bytes : ℤ) (x : QItem K) : Bool :=
  if 0 < mbs ∧ mbs < count + 1 then false
  else if 0 < cfg.maxBatchWeight ∧ cfg.maxBatchWeight < wrap64 (weight + x.weight) then false
  else if 0 < cfg.maxBatchBytes ∧ cfg.maxBatchBytes < wrap64 (bytes + x.bytes) then false
  else true

/-- `failItem`: every active waiter of the item gets the error, the item is removed. -/
def failItem [Inhabited V] (c : Coord K V E) (pk : GoString) (it : ItemId) (err : GoError E) :
    Coord K V E :=
  (c.deliverAll it (.error err)).dropItem pk it

section

variable (c : Coord K V E)

/-- The batch item of a queued item. -/
def batchItem (it : ItemId) : BatchItem K :=
  let x := c.items it
  let bi := (newBatchItem it x.key).withWeight (clampWeight x.weight)
  match c.itemEarliestDeadline it with
  | some t => bi.withDeadline t
  | none => bi

/-- One turn of the loop in `dispatchBatch`. -/
def selectItem [Inhabited V] (cfg : BindingConfig K) (pk : GoString)
    (s : Coord K V E × Selection K) (it : ItemId) : Coord K V E × Selection K :=
  let c := s.1
  let a := s.2
  let x := c.items it
  if x.activeWaiters = 0 then
    ({ c.dropItem pk it with queuedItems := c.queuedItems - 1 }, a)
  else if a.selected.length = 0 ∧ itemTooLarge cfg x = true then
    ({ c.failItem pk it .itemTooLarge with queuedItems := c.queuedItems - 1 }, a)
  else if 0 < a.selected.length ∧
      fits cfg (c.effectiveMaxBatchSize cfg) a.count a.weight a.bytes x = false then
    (c, { a with remaining := a.remaining ++ [it] })
  else
    (c, { a with
      selected := a.selected ++ [it]
      items := a.items ++ [c.batchItem it]
      count := a.count + 1
      weight := wrap64 (a.weight + x.weight)
      bytes := wrap64 (a.bytes + x.bytes)
      minSeq := if (x.seq : WithTop ℕ) < a.minSeq then (x.seq : WithTop ℕ) else a.minSeq })

/-- The deadline of a provider context: the latest active caller deadline when every
active caller of every item has one, else none. -/
def batchContext (selected : List ItemId) : Option Time :=
  let r : Time × Bool × Bool := selected.foldl (fun r it =>
    let d := c.itemLatestDeadline it
    if !d.2 then (r.1, false, r.2.2)
    else (if r.1 < d.1 then d.1 else r.1, r.2.1, true)) (0, true, false)
  if r.2.2 && r.2.1 then some r.1 else none

/-- The end of `dispatchBatch`: the selected items are in flight and a worker runs. -/
def startBatch (pk : GoString) (reason : FlushReason) (a : Selection K)
    (req : BatchRequest K) : Coord K V E :=
  let p := c.part pk
  let batchID := c.batchSeq + 1
  let deadline := c.batchContext a.selected
  let b : BatchInflight :=
    { id := batchID, ctx := { deadline := deadline, canceled := false }, items := a.selected
      activeWaiters := (a.selected.map fun it => (c.items it).activeWaiters).sum
      partition := p.part.encoded
      minSeq := a.minSeq }
  let c := c.setPart pk { p with
    bytes := wrap64 (p.bytes - a.bytes)
    weight := wrap64 (p.weight - a.weight) }
  { c.emit (.start batchID p.part.encoded reason deadline req) with
    items := fun it =>
      if it ∈ a.selected then { c.items it with dispatched := true, batchID := batchID }
      else c.items it
    inflight := c.inflight.insert batchID b
    batchSeq := batchID
    activeProvider := c.activeProvider + 1
    queuedItems := c.queuedItems - a.selected.length }

def dispatchBatch [Inhabited V] (cfg : BindingConfig K) (c : Coord K V E) (pk : GoString)
    (reason : FlushReason) : Coord K V E :=
  let s := (c.part pk).pending.foldl (selectItem cfg pk) (c, {})
  let c := s.1
  let a := s.2
  let c := c.setPart pk { c.part pk with pending := a.remaining }
  if a.selected.length = 0 then c
  else
    match newBatchRequest a.items with
    | .error err =>
      a.selected.foldl (fun c it =>
        { c.failItem pk it (.contract cfg.opID err.error) with
          queuedItems := c.queuedItems - 1 }) c
    | .ok req => c.startBatch pk reason a req

/-! ## Scheduling -/

/-- The leading queued items without active waiters are removed. -/
def pruneLoop (pk : GoString) : List ItemId → Coord K V E → Coord K V E
  | [], c => c
  | it :: rest, c =>
    if (c.items it).activeWaiters = 0 then pruneLoop pk rest (c.removePendingItem pk it) else c

def prune (pk : GoString) : Coord K V E := pruneLoop pk (c.part pk).pending c

/-- The earliest active caller deadline among the queued items. -/
def earliestDeadline (p : PartitionState) : Option Time :=
  p.pending.foldl (fun best it =>
    match c.itemEarliestDeadline it with
    | some t =>
      match best with
      | none => some t
      | some b => if t < b then some t else best
    | none => best) none

/-- `!now.Before(p.pending[0].enqueue.Add(maxWait))` with `maxWait > 0`. -/
def waitElapsed (p : PartitionState) (maxWait now : Time) : Bool :=
  match p.pending with
  | [] => false
  | it :: _ => decide (0 < maxWait ∧ (c.items it).enqueue + maxWait ≤ now)

end

/-- Whether and why to dispatch from a partition. -/
def shouldDispatch (cfg : BindingConfig K) (c : Coord K V E) (p : PartitionState) (force : Bool)
    (now : Time) : Option FlushReason :=
  if p.pending.length = 0 then none
  else if force then some .manual
  else if c.effectiveMaxBatchSize cfg ≤ p.pending.length then some .size
  else if 0 < cfg.maxBatchWeight ∧ cfg.maxBatchWeight ≤ p.weight then some .weight
  else if 0 < cfg.maxBatchBytes ∧ cfg.maxBatchBytes ≤ p.bytes then some .bytes
  else
    let maxWait := c.effectiveMaxWait cfg
    match cfg.flushMode with
    | .immediate => some .wait
    | .manual => none
    | .fixedWindow => if c.waitElapsed p maxWait now then some .wait else none
    | .deadlineAware =>
      if c.waitElapsed p maxWait now then some .wait
      else
        match c.earliestDeadline p with
        | some t => if t - cfg.deadlineMargin ≤ now then some .deadline else none
        | none => none

/-- The earlier of the next flush so far and another one. -/
def consider (next : Option Time) (t : Time) : Option Time :=
  match next with
  | none => some t
  | some n => if t < n then some t else next

/-- The earliest future time-based flush. -/
def nextFlush (cfg : BindingConfig K) (c : Coord K V E) : Option Time :=
  c.partitions.entries.foldl (fun next e =>
    match e.2.pending with
    | [] => next
    | it :: _ =>
      let maxWait := c.effectiveMaxWait cfg
      let window := if 0 < maxWait then consider next ((c.items it).enqueue + maxWait) else next
      match cfg.flushMode with
      | .fixedWindow => window
      | .deadlineAware =>
        match c.earliestDeadline e.2 with
        | some t => consider window (t - cfg.deadlineMargin)
        | none => window
      | _ => next) none

def computeNextTimer (cfg : BindingConfig K) (c : Coord K V E) (now : Time) : Coord K V E :=
  match c.nextFlush cfg with
  | none => { c with timer := none, timerActive := false }
  | some next =>
    let d := next - now
    let d := if d < 0 then 0 else d
    { c with timer := some (now + d), timerActive := true }

/-- The partition keys in sorted order. -/
def partitionKeys (c : Coord K V E) : List GoString :=
  c.partitions.keys.insertionSort (· ≤ ·)

/-- The inner loop of `schedule`. Every turn takes an item out of the queue, so as many
turns as the queue is long are enough. -/
def dispatchLoop [Inhabited V] (cfg : BindingConfig K) (pk : GoString) (force : Bool) (now : Time) :
    ℕ → Coord K V E → Coord K V E
  | 0, c => c
  | n + 1, c =>
    if 0 < (c.part pk).pending.length ∧ c.activeProvider < c.effectiveMaxConcurrency cfg then
      let c := c.prune pk
      if (c.part pk).pending.length = 0 then c
      else
        match c.shouldDispatch cfg (c.part pk) force now with
        | none => c
        | some reason => dispatchLoop cfg pk force now n (c.dispatchBatch cfg pk reason)
    else c

/-- One partition of `schedule`. -/
def schedulePart [Inhabited V] (cfg : BindingConfig K) (force : Bool) (now : Time)
    (c : Coord K V E) (pk : GoString) : Coord K V E :=
  match c.partitions.lookup pk with
  | none => c
  | some p => (dispatchLoop cfg pk force now p.pending.length c).maybeRetire pk

def schedule [Inhabited V] (cfg : BindingConfig K) (c : Coord K V E) (force : Bool) (now : Time) :
    Coord K V E :=
  (c.partitionKeys.foldl (schedulePart cfg force now) c).computeNextTimer cfg now

/-! ## Completion -/

/-- `failBatch`: every active waiter of every item of the batch gets the error. -/
def failBatch [Inhabited V] (c : Coord K V E) (b : BatchInflight) (err : GoError E) :
    Coord K V E :=
  let known := decide (b.partition ∈ c.partitions)
  let c := b.items.foldl (fun c it =>
    let c := c.deliverAll it (.error err)
    if known then c.dropItem b.partition it else c) c
  if known then c.maybeRetire b.partition else c

/-- What a waiter is sent for an outcome. -/
def outcomeResult [Inhabited V] (o : Outcome V (GoError E)) : Result V E :=
  if o.isSuccess then { value := o.value, err := none, found := true }
  else if o.isFailure then { value := default, err := o.err, found := false }
  else { value := default, err := none, found := false }

/-- The map from request ids to outcomes. -/
def byID (resp : BatchResponse V (GoError E)) : Table RequestID (Outcome V (GoError E)) :=
  resp.outcomes.foldl (fun m o => m.insert o.requestID o) ∅

def distribute [Inhabited V] (cfg : BindingConfig K) (c : Coord K V E) (b : BatchInflight)
    (resp : BatchResponse V (GoError E)) : Coord K V E :=
  match resp.validateAgainst b.items with
  | .error err => c.failBatch b (.contract cfg.opID err.error)
  | .ok () =>
    let known := decide (b.partition ∈ c.partitions)
    let c := b.items.foldl (fun c it =>
      let r := outcomeResult (((byID resp).lookup it).getD default)
      let c := c.deliverAll it r
      if known then c.dropItem b.partition it else c) c
    if known then c.maybeRetire b.partition else c

/-- `handleComplete` up to the retry of parked submissions. -/
def settle [Inhabited V] (cfg : BindingConfig K) (c : Coord K V E) (b : BatchInflight)
    (done : CompleteReq V E) : Coord K V E :=
  let c := { c.emit (.cancel done.batchID) with
    inflight := c.inflight.erase done.batchID
    activeProvider := c.activeProvider - 1 }
  if done.panicked then c.failBatch b (.providerPanic cfg.opID done.panicVal)
  else
    match done.globalErr with
    | some err => c.failBatch b err
    | none => c.distribute cfg b done.response

def handleComplete [Inhabited V] (cfg : BindingConfig K) (c : Coord K V E) (now : WaiterId → Time)
    (done : CompleteReq V E) : Coord K V E :=
  match c.inflight.lookup done.batchID with
  | none => c
  | some b => (c.settle cfg b done).retryBlocked cfg now

/-! ## Barriers and shutdown -/

variable (c : Coord K V E)

/-- Whether a queued item has a sequence number up to `seq`. -/
def anyPending (seq : ℕ) : Bool :=
  c.partitions.entries.any fun e => e.2.pending.any fun it => (c.items it).seq ≤ seq

/-- Whether an in-flight batch has an item with a sequence number up to `seq`. -/
def anyInflight (seq : ℕ) : Bool :=
  c.inflight.entries.any fun e => e.2.minSeq ≤ (seq : WithTop ℕ)

def barrierSatisfied (b : Barrier) : Bool :=
  if c.anyPending b.seq then false
  else if b.dispatchOnly then true
  else !c.anyInflight b.seq

def barrierTimeout (kind : ControlKind) (cause : GoError E) : GoError E :=
  match kind with
  | .flush => .flushTimeout cause
  | _ => .drainTimeout cause

/-- `tryCompleteBarriers`; `ctxErr` reads the contexts of the barriers. -/
def tryCompleteBarriers (ctxErr : ControlId → Option (GoError E)) :
    Coord K V E :=
  let s := c.barriers.foldl (fun (s : Coord K V E × List Barrier) b =>
    match ctxErr b.reply with
    | some err => (s.1.emit (.barrier b.reply (some (barrierTimeout b.kind err))), s.2)
    | none =>
      if s.1.barrierSatisfied b then (s.1.emit (.barrier b.reply none), s.2)
      else (s.1, s.2 ++ [b])) (c, [])
  { s.1 with barriers := s.2 }

def failBarriers (err : Option (GoError E)) : Coord K V E :=
  let c := c.barriers.foldl (fun c b => c.emit (.barrier b.reply err)) c
  { c with barriers := [] }

def handleControl [Inhabited V] (cfg : BindingConfig K) (c : Coord K V E) (now : Time)
    (ctrl : ControlReq) : Coord K V E :=
  let c := if ctrl.kind = .close then { c with closing := true } else c
  let c := c.schedule cfg true now
  let b : Barrier :=
    { kind := ctrl.kind, seq := c.submitSeq, reply := ctrl.reply, dispatchOnly := decide (ctrl.kind = .flush) }
  { c with barriers := c.barriers ++ [b] }

/-- The items of all indexes, partition after partition. -/
def allIndexed : List ItemId := Table.gather c.partitions PartitionState.indexed

def handleEngineCancel [Inhabited V] (c : Coord K V E) : Coord K V E :=
  let c := { c with closing := true }
  let c := c.allIndexed.foldl (fun c it => c.deliverAll it (.error .engineClosed)) c
  let c := c.inflight.keys.foldl cancelBatch c
  c.failBarriers (some .engineClosed)

/-- Whether no items or in-flight batches remain. -/
def drained : Bool :=
  if 0 < c.inflight.entries.length ∨ 0 < c.activeProvider then false
  else !(c.partitions.entries.any fun e => decide (0 < e.2.live))

end Coord

end BatchWeaver
