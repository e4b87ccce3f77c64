import BatchWeaver.Spec.Coordinator

/-!
# Submissions, cancellations, deliveries

The handlers of `coordinator_handlers.go`, each as a function of the state. The
partition an operation works on is named by its key: a pointer to a partition that
has left the map is never written again, so reading through the map agrees with
reading through the pointer.
-/

namespace BatchWeaver

namespace Coord

variable {K V E : Type}

variable (c : Coord K V E)

/-- `deliver`: a result goes to an active waiter, once. -/
def deliver (w : WaiterId) (r : Result V E) : Coord K V E :=
  if !c.active w then c
  else { (c.deactivate w).emit (.result w r) with queuedWaiters := c.queuedWaiters - 1 }

/-- The loop `for _, w := range it.waiters { c.deliver(w, r) }`. -/
def deliverAll (it : ItemId) (r : Result V E) : Coord K V E :=
  (c.items it).waiters.foldl (fun c w => c.deliver w r) c

/-! ## The deduplication index -/

def removeActive (p : PartitionState) (it : ItemId) : PartitionState :=
  let h := (c.items it).hash
  let bucket := (p.bucket h).erase it
  if bucket.length = 0 then { p with active := p.active.erase h }
  else { p with active := p.active.insert h bucket }

def maybeRetire (pk : GoString) : Coord K V E :=
  let p := c.part pk
  if p.live = 0 ∧ p.active.entries.length = 0 then
    { c with partitions := c.partitions.erase p.part.encoded }
  else c

/-- `c.removeActive(p, it)` followed by `p.live--`. -/
def dropItem (pk : GoString) (it : ItemId) : Coord K V E :=
  let p := c.removeActive (c.part pk) it
  c.setPart pk { p with live := p.live - 1 }

/-- `removePendingItem`, up to the retirement of the partition. -/
def unqueue (pk : GoString) (it : ItemId) : Coord K V E :=
  let x := c.items it
  let p := c.part pk
  let p := { p with pending := p.pending.erase it }
  let p := c.removeActive p it
  let p := { p with
    bytes := wrap64 (p.bytes - x.bytes)
    weight := wrap64 (p.weight - x.weight)
    live := p.live - 1 }
  { c.setPart pk p with queuedItems := c.queuedItems - 1 }

def removePendingItem (pk : GoString) (it : ItemId) : Coord K V E :=
  (c.unqueue pk it).maybeRetire pk

/-! ## Submissions -/

section

variable (cfg : BindingConfig K)

/-- Whether a new item would exceed a limit of the partition, and which. -/
def overLimits (p : PartitionState) (req : SubmitReq K) :
    Option LimitCategory :=
  let l := cfg.limits
  if 0 < l.maxItems ∧ l.maxItems < p.pending.length + 1 then some .items
  else if 0 < l.maxWaiters ∧ l.maxWaiters < p.waiters + 1 then some .waiters
  else if 0 < l.maxBytes ∧ l.maxBytes < wrap64 (p.bytes + req.bytes) then some .bytes
  else if 0 < l.maxWeight ∧ l.maxWeight < wrap64 (p.weight + req.weight) then some .weight
  else none

variable (c : Coord K V E)

/-- The configured overflow policy, applied to a refused submission. -/
def overflow (req : SubmitReq K)
    (category : LimitCategory) (partition : Bool) : Coord K V E :=
  match cfg.overflow with
  | .fallback => c.emit (.reply req.waiter (some .fallback))
  | .block => { c with blocked := c.blocked ++ [req] }
  | .reject =>
    if partition then
      c.emit (.reply req.waiter (some (.partitionLimit cfg.opID cfg.limits.maxPartitions)))
    else c.emit (.reply req.waiter (some (.queueFull cfg.opID category)))

/-- The item of the index that a submission would join. -/
def joinTarget (req : SubmitReq K) : Option ItemId :=
  if cfg.dedupEnabled then
    ((c.part req.part.encoded).bucket req.hash).find? fun it =>
      cfg.keys.equal (c.items it).key req.key
  else none

/-- The submission becomes a further waiter of an item. -/
def join (req : SubmitReq K) (it : ItemId) : Coord K V E :=
  let x := c.items it
  let x := { x with
    waiters := x.waiters ++ [req.waiter]
    activeWaiters := x.activeWaiters + 1 }
  let p := c.part req.part.encoded
  let p := { p with waiters := p.waiters + 1 }
  { ((c.setItem it x).setPart req.part.encoded p).emit (.reply req.waiter none) with
    queuedWaiters := c.queuedWaiters + 1 }

/-- The submission becomes a new item at the end of the queue. -/
def enqueue (now : Time) (req : SubmitReq K) : Coord K V E :=
  let id := c.requestSeq + 1
  let x : QItem K :=
    { seq := c.submitSeq + 1, key := req.key, hash := req.hash, weight := req.weight,
      bytes := req.bytes, enqueue := now, waiters := [req.waiter], activeWaiters := 1,
      dispatched := false, batchID := 0 }
  let p := c.part req.part.encoded
  let p := { p with
    active := p.active.insert req.hash (p.bucket req.hash ++ [id])
    pending := p.pending ++ [id]
    bytes := wrap64 (p.bytes + x.bytes)
    weight := wrap64 (p.weight + x.weight)
    waiters := p.waiters + 1
    live := p.live + 1 }
  { ((c.setItem id x).setPart req.part.encoded p).emit (.reply req.waiter none) with
    requestSeq := id
    submitSeq := c.submitSeq + 1
    queuedItems := c.queuedItems + 1
    queuedWaiters := c.queuedWaiters + 1 }

/-- `handleSubmit` once the partition is there: join an equal item, else enqueue. -/
def admission (now : Time) (req : SubmitReq K) :
    Coord K V E :=
  match c.joinTarget cfg req with
  | some it => c.join req it
  | none =>
    match overLimits cfg (c.part req.part.encoded) req with
    | some category => c.overflow cfg req category false
    | none => c.enqueue now req

def handleSubmit (now : Time) (req : SubmitReq K) :
    Coord K V E :=
  if c.closing then c.emit (.reply req.waiter (some .engineClosing))
  else
    match c.partitions.lookup req.part.encoded with
    | some _ => c.admission cfg now req
    | none =>
      if 0 < cfg.limits.maxPartitions ∧ cfg.limits.maxPartitions ≤ c.partitions.entries.length then
        c.overflow cfg req .partitions true
      else (c.setPart req.part.encoded (PartitionState.new req.part)).admission cfg now req

/-- Parked submissions are processed again, in order; `now` reads the clock for each. -/
def retryBlocked (now : WaiterId → Time) :
    Coord K V E :=
  c.blocked.foldl (fun c req => c.handleSubmit cfg (now req.waiter) req) { c with blocked := [] }

/-! ## Cancellations -/

end

/-- `b.cancel()` for an in-flight batch. -/
def cancelBatch (id : BatchId) : Coord K V E :=
  match c.inflight.lookup id with
  | none => c
  | some b =>
    { c.emit (.cancel id) with
      inflight := c.inflight.insert id { b with ctx := { b.ctx with canceled := true } } }

/-- The waiter leaves the item. -/
def cancelWaiter (pk : GoString) (it : ItemId) (w : WaiterId) : Coord K V E :=
  let x := c.items it
  let p := c.part pk
  { ((c.deactivate w).setItem it { x with activeWaiters := x.activeWaiters - 1 }).setPart pk
      { p with waiters := p.waiters - 1 } with
    queuedWaiters := c.queuedWaiters - 1 }

/-- A dispatched item lost its last active waiter: its batch counts one less, and is
canceled at zero. -/
def abandon (it : ItemId) : Coord K V E :=
  match c.inflight.lookup (c.items it).batchID with
  | none => c
  | some b =>
    let n := b.activeWaiters - 1
    let c := { c with
      inflight := c.inflight.insert (c.items it).batchID { b with activeWaiters := n } }
    if n = 0 then c.cancelBatch (c.items it).batchID else c

def handleCancel (cr : CancelReq) : Coord K V E :=
  if cr.blocked then { c with blocked := c.blocked.eraseP fun req => req.waiter = cr.waiterID }
  else
    match c.partitions.lookup cr.part with
    | none => c
    | some p =>
      -- the loops return at the first item with this waiter, still active
      match p.indexed.find? fun it =>
          (c.items it).waiters.contains cr.waiterID && c.active cr.waiterID with
      | none => c
      | some it =>
        let c := c.cancelWaiter cr.part it cr.waiterID
        if (c.items it).activeWaiters = 0 then
          if !(c.items it).dispatched then c.removePendingItem cr.part it else c.abandon it
        else c

end Coord

end BatchWeaver
