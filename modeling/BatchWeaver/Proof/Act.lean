import BatchWeaver.Proof.State

/-!
# Actions

A handler works in small steps: a submission joins an item, a waiter is canceled, an
item is resolved, a batch goes into flight. `Act` lists these steps with the facts that
hold where the code takes them; every move of the coordinator is a sequence of
them (`BatchWeaver.Proof.Moves`), so an invariant is proved once per action.

While a handler runs, some items and submissions are only in its local variables
(`Held`): the queue that `dispatchBatch` walks through, the items of the batch that
`handleComplete` took out of the in-flight table, the submissions that
`retryBlocked` took out of the parked list.

`es` are the moves so far, the current one included; `jn` is a condition that joins
are known to meet.
-/

namespace BatchWeaver

open List Relation
open Function (update update_of_ne update_self)

variable {K V E : Type}

/-- The local variables of a running handler: the items that stand for a partition's
queue, and the submissions taken up but not settled. -/
structure Held (K : Type) where
  queue : Option (GoString × List ItemId) := none
  reqs : List (SubmitReq K) := []

/-- The queue of a partition, as the running handler holds it. -/
def Held.queueOf (g : Held K) (c : Coord K V E) (pk : GoString) : List ItemId :=
  match g.queue with
  | some (k, l) => if k = pk then l else (c.part pk).pending
  | none => (c.part pk).pending

/-! ## What the moves so far contain -/

/-- The cancel message a move delivers. -/
def Move.cancellation : Move K V E → Option CancelReq
  | .turn ⟨.cancel cr, _, _⟩ => some cr
  | _ => none

def cancellations (es : List (Move K V E)) : List CancelReq := es.filterMap Move.cancellation

/-- The completion a move delivers. -/
def Move.completion : Move K V E → Option (CompleteReq V E)
  | .turn ⟨.complete _ done, _, _⟩ => some done
  | _ => none

def completed (es : List (Move K V E)) : List (CompleteReq V E) := es.filterMap Move.completion

/-- What a completed batch means for the item `it`: the result its waiters are sent. -/
def BatchVerdict [Inhabited V] (cfg : BindingConfig K) (done : CompleteReq V E)
    (req : BatchRequest K) (it : ItemId) (r : Result V E) : Prop :=
  done.panicked = true ∧ r = .error (.providerPanic cfg.opID done.panicVal) ∨
  done.panicked = false ∧ (∃ err, done.globalErr = some err ∧ r = .error err) ∨
  done.panicked = false ∧ done.globalErr = none ∧
    (∃ err, done.response.validateAgainst (req.items.map (·.id)) = .error err ∧
      r = .error (.contract cfg.opID err.error)) ∨
  done.panicked = false ∧ done.globalErr = none ∧
    (∃ o, done.response.outcomes.filter (fun o => o.requestID = it) = [o] ∧ r = Coord.outcomeResult o)

/-- Why an item is resolved with a result: the batch it was dispatched in completed. -/
structure Verdict [Inhabited V] (cfg : BindingConfig K) (es : List (Move K V E))
    (c : Coord K V E) (pk : GoString) (it : ItemId) (r : Result V E) : Prop where
  why : ∃ done ∈ completed es, ∃ reason dl req, Effect.start done.batchID pk reason dl req ∈ c.out ∧
    (∃ bi ∈ req.items, bi.id = it ∧ bi.key = (c.items it).key) ∧ BatchVerdict cfg done req it r

/-- What the loop of `dispatchBatch` leaves in its variables, over the queue `l`. -/
structure Selected (c : Coord K V E) (l : List ItemId) (a : Selection K) : Prop where
  perm : l.Perm (a.selected ++ a.remaining)
  items : a.items = a.selected.map c.batchItem
  minSeq_le : ∀ it ∈ a.selected, a.minSeq ≤ ((c.items it).seq : WithTop ℕ)

/-- The total of a quantity over a list of items. -/
def Coord.total (c : Coord K V E) (f : QItem K → ℤ) (l : List ItemId) : ℤ := (l.map fun it => f (c.items it)).sum

/-- The items together keep a hard limit on `f`, where no partial sum of `int64`s can wrap. -/
def Coord.Within (c : Coord K V E) (lim : ℤ) (f : QItem K → ℤ) (l : List ItemId) : Prop :=
  0 < lim → (∀ it ∈ l, 0 ≤ f (c.items it) ∧ lim + f (c.items it) < 2 ^ 63) → c.total f l ≤ lim

/-- What the loop of `dispatchBatch` knows of the items it selected. -/
structure Chosen (cfg : BindingConfig K) (c : Coord K V E) (a : Selection K) : Prop where
  count : a.count = a.selected.length
  weight : a.weight = wrap64 (c.total QItem.weight a.selected)
  bytes : a.bytes = wrap64 (c.total QItem.bytes a.selected)
  size : 0 < c.effectiveMaxBatchSize cfg → (a.selected.length : ℤ) ≤ c.effectiveMaxBatchSize cfg
  weight_le : c.Within cfg.maxBatchWeight QItem.weight a.selected
  bytes_le : c.Within cfg.maxBatchBytes QItem.bytes a.selected

/-! ## The actions -/

/-- Nothing that the invariants read changes, but for flags and counters that go one
way. -/
structure Quiet (cfg : BindingConfig K) (c c' : Coord K V E) : Prop where
  items : c'.items = c.items
  waiters : c'.waiters = c.waiters
  partitions : c'.partitions = c.partitions
  inflight : c'.inflight = c.inflight
  blocked : c'.blocked = c.blocked
  activeProvider : c'.activeProvider = c.activeProvider
  batchSeq : c'.batchSeq = c.batchSeq
  submitSeq : c'.submitSeq = c.submitSeq
  barriers : c'.barriers = c.barriers
  queuedWaiters : c'.queuedWaiters = c.queuedWaiters
  out : c'.out = c.out
  done : c'.done = c.done
  requestSeq : c.requestSeq ≤ c'.requestSeq
  closing : c.closing = true → c'.closing = true
  engineDone : c.engineDone = true → c'.engineDone = true
  dyn : c'.dyn = c.dyn

/-- A waiter of an item of the index is canceled, as a cancel message asked. -/
structure Cancels (es : List (Move K V E)) (c : Coord K V E) (pk : GoString) (it : ItemId)
    (w : WaiterId) : Prop where
  asked : ∃ cr ∈ cancellations es, cr.waiterID = w ∧ cr.blocked = false
  indexed : it ∈ (c.part pk).indexed
  waiter : w ∈ (c.items it).waiters
  active : c.active w = true

/-- **One small step of `schedule`.** -/
inductive SchedAct [Inhabited V] (cfg : BindingConfig K) : Held K → Coord K V E → Held K → Coord K V E → Prop
  | quiet {g c c'} : Quiet cfg c c' → SchedAct cfg g c g c'
  /-- A handler takes up a partition's queue. -/
  | hold {g c} (pk : GoString) : g.queue = none → (c.part pk).pending ≠ [] →
      SchedAct cfg g c { g with queue := some (pk, (c.part pk).pending) } c
  /-- What is left of the queue is written back. -/
  | release {g c} (pk : GoString) (l l' : List ItemId) : g.queue = some (pk, l) → l.Perm l' →
      (∀ it ∈ l', it ∈ (c.part pk).pending) →
      SchedAct cfg g c { g with queue := none } (c.setPart pk { c.part pk with pending := l' })
  | tooLarge {g c} (pk : GoString) (l l' : List ItemId) (it : ItemId) :
      g.queue = some (pk, l) → l.Perm (it :: l') → it ∈ (c.part pk).pending →
      Coord.itemTooLarge cfg (c.items it) = true →
      SchedAct cfg g c { g with queue := some (pk, l') } ((c.deliverAll it (.error .itemTooLarge)).dropItem pk it)
  | dispatch {g c} (pk : GoString) (l : List ItemId) (reason : FlushReason) (a : Selection K) :
      g.queue = some (pk, l) → Selected c l a → a.selected ≠ [] →
      (∀ it ∈ l, it ∈ (c.part pk).pending) → c.activeProvider < cfg.maxConcurrency →
      Chosen cfg c a →
      SchedAct cfg g c { g with queue := none }
        ((c.setPart pk { c.part pk with pending := a.remaining }).startBatch pk reason a ⟨a.items⟩)
  | retire {g c} (pk : GoString) : g.queue = none → (c.part pk).live = 0 → (c.part pk).active.entries.length = 0 →
      SchedAct cfg g c g { c with partitions := c.partitions.erase (c.part pk).part.encoded }

/-- What the contexts of control calls say. -/
abbrev CtxErrs (E : Type) := ControlId → Option (GoError E)

/-- Which submissions may join which items. -/
abbrev JoinRule (K V E : Type) := Coord K V E → SubmitReq K → ItemId → Prop

/-- Any may join. -/
abbrev anyJoin : JoinRule K V E := fun _ _ _ => True

/-- **One small step of a handler.** -/
inductive Act [Inhabited V] (cfg : BindingConfig K) (es : List (Move K V E))
    (jn : Coord K V E → SubmitReq K → ItemId → Prop) :
    Held K → Coord K V E → Held K → Coord K V E → Prop
  | sched {g c g' c'} : SchedAct cfg g c g' c' → Act cfg es jn g c g' c'
  /-- `Do` allocated a waiter and submitted. -/
  | spawn {g c} (req : SubmitReq K) (dl : Option Time) : c.waiters req.waiter = none →
      req ∈ submitted es → g.reqs = [] → Act cfg es jn g c { g with reqs := [req] } (c.spawn req dl)
  | refuse {g c} (req : SubmitReq K) (rest : List (SubmitReq K)) (err : GoError E) : g.reqs = req :: rest →
      Act cfg es jn g c { g with reqs := rest } (c.emit (.reply req.waiter (some err)))
  | park {g c} (req : SubmitReq K) (rest : List (SubmitReq K)) : g.reqs = req :: rest →
      Act cfg es jn g c { g with reqs := rest } { c with blocked := c.blocked ++ [req] }
  | unpark {g c} : g.reqs = [] → Act cfg es jn g c { g with reqs := c.blocked } { c with blocked := [] }
  | unblock {g c} (w : WaiterId) :
      Act cfg es jn g c g { c with blocked := c.blocked.eraseP fun req => req.waiter = w }
  | openPart {g c} (part : Partition) : c.partitions.lookup part.encoded = none →
      Act cfg es jn g c g (c.setPart part.encoded (PartitionState.new part))
  | join {g c} (req : SubmitReq K) (rest : List (SubmitReq K)) (it : ItemId) :
      g.reqs = req :: rest → c.closing = false → c.joinTarget cfg req = some it → jn c req it →
      Act cfg es jn g c { g with reqs := rest } (c.join req it)
  | enqueue {g c} (now : Time) (req : SubmitReq K) (rest : List (SubmitReq K)) :
      g.reqs = req :: rest → g.queue = none → c.closing = false →
      c.joinTarget cfg req = none → Coord.overLimits cfg (c.part req.part.encoded) req = none →
      Act cfg es jn g c { g with reqs := rest } (c.enqueue now req)
  | cancelKeep {g c} (pk : GoString) (it : ItemId) (w : WaiterId) : Cancels es c pk it w →
      (c.items it).activeWaiters ≠ 1 → Act cfg es jn g c g (c.cancelWaiter pk it w)
  | cancelDrop {g c} (pk : GoString) (it : ItemId) (w : WaiterId) : g.queue = none →
      Cancels es c pk it w → (c.items it).activeWaiters = 1 → (c.items it).dispatched = false →
      Act cfg es jn g c g ((c.cancelWaiter pk it w).unqueue pk it)
  | cancelFlight {g c} (pk : GoString) (it : ItemId) (w : WaiterId) (b : BatchInflight) :
      Cancels es c pk it w → (c.items it).activeWaiters = 1 → (c.items it).dispatched = true →
      c.inflight.lookup (c.items it).batchID = some b → it ∈ b.items →
      Act cfg es jn g c g ((c.cancelWaiter pk it w).abandon it)
  /-- A completed batch leaves the in-flight table. -/
  | finish {g c} (id : BatchId) (b : BatchInflight) : g.queue = none → c.inflight.lookup id = some b →
      Act cfg es jn g c { g with queue := some (b.partition, (c.part b.partition).pending ++ b.items) }
        { c.emit (.cancel id) with
          inflight := c.inflight.erase id
          activeProvider := c.activeProvider - 1 }
  /-- An item of the completed batch is settled: its waiters are answered and it leaves
  the index. -/
  | resolve {g c} (pk : GoString) (l l' : List ItemId) (it : ItemId) (r : Result V E) :
      g.queue = some (pk, l) → l.Perm (it :: l') → Verdict cfg es c pk it r →
      (c.items it).dispatched = true →
      Act cfg es jn g c { g with queue := some (pk, l') } ((c.deliverAll it r).dropItem pk it)
  | unhold {g c} (pk : GoString) (l : List ItemId) : g.queue = some (pk, l) →
      l.Perm (c.part pk).pending → Act cfg es jn g c { g with queue := none } c
  /-- The engine's context is done: an item's waiters are told, the item stays. -/
  | shut {g c} (pk : GoString) (it : ItemId) : c.engineDone = true → it ∈ (c.part pk).indexed →
      Act cfg es jn g c g (c.deliverAll it (.error .engineClosed))
  | cancelCtx {g c} (id : BatchId) : c.engineDone = true → Act cfg es jn g c g (c.cancelBatch id)
  | addBarrier {g c} (b : Barrier) : b.seq = c.submitSeq →
      (∀ x ∈ c.barriers, x.reply ≠ b.reply) → (∀ eff ∈ c.out, eff.answers ≠ some b.reply) →
      Act cfg es jn g c g { c with barriers := c.barriers ++ [b] }
  /-- Some barriers are answered, the others stay. -/
  | answer {g c} (kept : List Barrier) (effs : List (Effect K V E)) : (∀ b ∈ kept, b ∈ c.barriers) →
      (∀ eff ∈ effs, ∃ b ∈ c.barriers, ∃ err, eff = .barrier b.reply err ∧
        (err = none → c.barrierSatisfied b = true)) → g.queue = none →
      (∀ b ∈ c.barriers, b ∈ kept ∨ ∃ eff ∈ effs, eff.answers = some b.reply) →
      Act cfg es jn g c g { c with barriers := kept, out := c.out ++ effs }
  /-- The loop returns. -/
  | stop {g c} : c.closing = true → c.drained = true → Act cfg es jn g c g { c with done := true }
  /-- The adaptive controller sets or clears the dynamic settings. -/
  | adapt {g c} (d : Option DynamicSettings) : (d = none ∨ ∃ s, d = some (applyAdaptiveSettings cfg s)) →
      Act cfg es jn g c g { c with dyn := d }

/-- A sequence of steps of `schedule`. -/
def SchedActs [Inhabited V] (cfg : BindingConfig K) (g : Held K) (c : Coord K V E) (g' : Held K)
    (c' : Coord K V E) : Prop :=
  ReflTransGen (fun x y : Held K × Coord K V E => SchedAct cfg x.1 x.2 y.1 y.2) (g, c) (g', c')

/-- A sequence of actions. -/
def Acts [Inhabited V] (cfg : BindingConfig K) (es : List (Move K V E))
    (jn : Coord K V E → SubmitReq K → ItemId → Prop) (g : Held K) (c : Coord K V E) (g' : Held K)
    (c' : Coord K V E) : Prop :=
  ReflTransGen (fun x y : Held K × Coord K V E => Act cfg es jn x.1 x.2 y.1 y.2) (g, c) (g', c')

section

variable [Inhabited V] {cfg : BindingConfig K} {es : List (Move K V E)}
  {jn : JoinRule K V E} {g g' g'' : Held K} {c c' c'' : Coord K V E}

lemma SchedActs.acts (h : SchedActs cfg g c g' c') : Acts cfg es jn g c g' c' :=
  ReflTransGen.mono (fun _ _ ha => Act.sched ha) _ _ h

lemma SchedAct.one (h : SchedAct cfg g c g' c') : SchedActs cfg g c g' c' := ReflTransGen.single h

lemma Act.one (h : Act cfg es jn g c g' c') : Acts cfg es jn g c g' c' := ReflTransGen.single h

omit [Inhabited V] in
lemma keeps_of_steps {R : Held K × Coord K V E → Held K × Coord K V E → Prop} {I : Held K → Coord K V E → Prop}
    (hI : ∀ x y, R x y → I x.1 x.2 → I y.1 y.2) {x y} (h : ReflTransGen R x y) (h0 : I x.1 x.2) : I y.1 y.2 := by
  induction h with
  | refl => exact h0
  | tail _ ha ih => exact hI _ _ ha ih

/-- **A property that every step of `schedule` keeps is kept by a sequence of them.** -/
theorem SchedActs.keeps {I : Held K → Coord K V E → Prop} (hI : ∀ g c g' c', SchedAct cfg g c g' c' → I g c → I g' c')
    (h : SchedActs cfg g c g' c') (h0 : I g c) : I g' c' :=
  keeps_of_steps (fun _ _ => hI _ _ _ _) h h0

/-- **A property that every action keeps is kept by a sequence of them.** -/
theorem Acts.keeps {I : Held K → Coord K V E → Prop} (hI : ∀ g c g' c', Act cfg es jn g c g' c' → I g c → I g' c')
    (h : Acts cfg es jn g c g' c') (h0 : I g c) : I g' c' :=
  keeps_of_steps (fun _ _ => hI _ _ _ _) h h0

end

lemma Quiet.refl (cfg : BindingConfig K) (c : Coord K V E) : Quiet cfg c c :=
  ⟨rfl, rfl, rfl, rfl, rfl, rfl, rfl, rfl, rfl, rfl, rfl, rfl, le_rfl, id, id, rfl⟩

/-- The coordinator is closed or not. -/
lemma Quiet.close (cfg : BindingConfig K) (c : Coord K V E) (p : Prop) [Decidable p] :
    Quiet cfg c (if p then { c with closing := true } else c) := by
  split
  · exact { Quiet.refl cfg c with closing := fun _ => rfl }
  · exact Quiet.refl cfg c

lemma mem_filterMap_snoc {α β : Type} {f : α → Option β} {l a b} (h : f a = some b) : b ∈ (l ++ [a]).filterMap f :=
  mem_filterMap.2 ⟨a, mem_append_right _ (mem_singleton_self a), h⟩

/-! ## The states after an action, in closed form -/

namespace Coord

variable {pk : GoString}

lemma resolve_eq {c : Coord K V E} {it : ItemId} {r : Result V E}
    (hnd : ∀ x, (c.items x).waiters.Nodup) :
    (c.deliverAll it r).dropItem pk it = { c with
      waiters := c.quiet (c.items it).waiters
      out := c.out ++ ((c.items it).waiters.filter c.active).map (Effect.result · r)
      queuedWaiters := c.queuedWaiters - ((c.items it).waiters.filter c.active).length
      partitions := c.partitions.insert pk { c.part pk with
        active := unindex (c.part pk).active (c.items it).hash it
        live := (c.part pk).live - 1 } } := by
  rw [deliverAll_eq hnd]
  unfold dropItem setPart
  rw [removeActive_eq]
  rfl

section Admission

variable (c : Coord K V E) (now : Time) (req : SubmitReq K)

lemma items_join_self (it : ItemId) : (c.join req it).items it = { c.items it with
    waiters := (c.items it).waiters ++ [req.waiter]
    activeWaiters := (c.items it).activeWaiters + 1 } :=
  update_self it _ c.items

variable {c req} in
lemma items_join_ne {it x} (hx : x ≠ it) : (c.join req it).items x = c.items x :=
  update_of_ne hx _ _

variable {c req} in
lemma mem_waiters_join {it x w} : w ∈ ((c.join req it).items x).waiters ↔
      w ∈ (c.items x).waiters ∨ (x = it ∧ w = req.waiter) := by
  by_cases hx : x = it
  · subst hx
    rw [items_join_self, mem_append, mem_singleton]
    simp
  · rw [items_join_ne hx]
    simp [hx]

lemma items_enqueue_self : (c.enqueue now req).items (c.requestSeq + 1) =
    { seq := c.submitSeq + 1, key := req.key, hash := req.hash, weight := req.weight,
      bytes := req.bytes, enqueue := now, waiters := [req.waiter], activeWaiters := 1,
      dispatched := false, batchID := 0 } :=
  update_self _ _ c.items

variable {c now req} in
lemma items_enqueue_ne {x} (hx : x ≠ c.requestSeq + 1) : (c.enqueue now req).items x = c.items x :=
  update_of_ne hx _ _

lemma part_enqueue (k : GoString) : (c.enqueue now req).part k =
    if k = req.part.encoded then { c.part k with
      active := (c.part k).active.insert req.hash ((c.part k).bucket req.hash ++ [c.requestSeq + 1])
      pending := (c.part k).pending ++ [c.requestSeq + 1]
      bytes := wrap64 ((c.part k).bytes + req.bytes)
      weight := wrap64 ((c.part k).weight + req.weight)
      waiters := (c.part k).waiters + 1
      live := (c.part k).live + 1 } else c.part k := by
  rw [part_insert rfl]
  split
  · rename_i he; subst he; rfl
  · rfl

lemma indexed_enqueue_perm : ((c.enqueue now req).part req.part.encoded).indexed.Perm
    ((c.requestSeq + 1) :: (c.part req.part.encoded).indexed) := by
  rw [part_enqueue, if_pos rfl]
  exact PartitionState.indexed_insert _ req.hash _

variable {k : GoString}

variable {c now req} in
lemma mem_indexed_enqueue {x} : x ∈ ((c.enqueue now req).part k).indexed ↔
      x ∈ (c.part k).indexed ∨ (x = c.requestSeq + 1 ∧ k = req.part.encoded) := by
  by_cases hk : k = req.part.encoded
  · subst hk
    rw [(indexed_enqueue_perm c now req).mem_iff, mem_cons]
    tauto
  · rw [part_enqueue, if_neg hk]
    simp [hk]

variable {c now req} in
lemma mem_pending_enqueue {x} : x ∈ ((c.enqueue now req).part k).pending ↔
      x ∈ (c.part k).pending ∨ (x = c.requestSeq + 1 ∧ k = req.part.encoded) := by
  rw [part_enqueue]
  split
  · rename_i hk; simp [hk]
  · rename_i hk; simp [hk]

end Admission

lemma cancelDrop_eq (c : Coord K V E) (pk : GoString) (it : ItemId) (w : WaiterId) :
    (c.cancelWaiter pk it w).unqueue pk it = { c with
      waiters := (c.deactivate w).waiters
      items := update c.items it { c.items it with activeWaiters := (c.items it).activeWaiters - 1 }
      queuedWaiters := c.queuedWaiters - 1
      queuedItems := c.queuedItems - 1
      partitions := c.partitions.insert pk { c.part pk with
        pending := (c.part pk).pending.erase it
        active := unindex (c.part pk).active (c.items it).hash it
        bytes := wrap64 ((c.part pk).bytes - (c.items it).bytes)
        weight := wrap64 ((c.part pk).weight - (c.items it).weight)
        waiters := (c.part pk).waiters - 1
        live := (c.part pk).live - 1 } } := by
  have hp : (c.cancelWaiter pk it w).part pk = { c.part pk with waiters := (c.part pk).waiters - 1 } := by
    rw [part_insert rfl, if_pos rfl]
  have hx : (c.cancelWaiter pk it w).items it =
      { c.items it with activeWaiters := (c.items it).activeWaiters - 1 } := by
    show update c.items it _ it = _
    rw [update_self]
  unfold unqueue setPart
  simp only [removeActive_eq, hp, hx]
  unfold cancelWaiter setPart setItem
  simp only [AList.insert_insert]
  rfl

variable {b : BatchInflight}

lemma cancelFlight_eq {c : Coord K V E} {it : ItemId} {w : WaiterId}
    (hb : c.inflight.lookup (c.items it).batchID = some b) :
    (c.cancelWaiter pk it w).abandon it = { c.cancelWaiter pk it w with
      inflight := c.inflight.insert (c.items it).batchID { b with
        activeWaiters := b.activeWaiters - 1
        ctx := { b.ctx with
          canceled := if b.activeWaiters - 1 = 0 then true else b.ctx.canceled } }
      out := c.out ++ if b.activeWaiters - 1 = 0 then [.cancel (c.items it).batchID] else [] } := by
  have hx : ((c.cancelWaiter pk it w).items it).batchID = (c.items it).batchID := by
    show (update c.items it _ it).batchID = _
    rw [update_self]
  have hi : (c.cancelWaiter pk it w).inflight = c.inflight := rfl
  unfold abandon
  rw [hx, hi, hb]
  dsimp only
  split
  · unfold cancelBatch
    rw [hx, Table.lookup_insert_if, if_pos rfl]
    dsimp only
    rw [AList.insert_insert]
    rfl
  · simp only [append_nil]
    rfl

variable {id : BatchId}

lemma cancelBatch_none {c : Coord K V E} (hb : c.inflight.lookup id = none) : c.cancelBatch id = c := by
  unfold cancelBatch; rw [hb]

lemma cancelBatch_some {c : Coord K V E}
    (hb : c.inflight.lookup id = some b) : c.cancelBatch id = { c with
      inflight := c.inflight.insert id { b with ctx := { b.ctx with canceled := true } }
      out := c.out ++ [.cancel id] } := by
  unfold cancelBatch; rw [hb]; rfl

lemma cancelBatch_eq (c : Coord K V E) (id : BatchId) :
    ∃ inflight out, c.cancelBatch id = { c with inflight := inflight, out := out } := by
  cases hb : c.inflight.lookup id with
  | none => exact ⟨_, _, cancelBatch_none hb⟩
  | some b => exact ⟨_, _, cancelBatch_some hb⟩

lemma dispatch_eq (c : Coord K V E) (pk : GoString) (reason : FlushReason) (a : Selection K)
    (req : BatchRequest K) :
    (c.setPart pk { c.part pk with pending := a.remaining }).startBatch pk reason a req = { c with
      items := fun it =>
        if it ∈ a.selected then { c.items it with dispatched := true, batchID := c.batchSeq + 1 }
        else c.items it
      partitions := c.partitions.insert pk { c.part pk with
        pending := a.remaining
        bytes := wrap64 ((c.part pk).bytes - a.bytes)
        weight := wrap64 ((c.part pk).weight - a.weight) }
      inflight := c.inflight.insert (c.batchSeq + 1)
        { id := c.batchSeq + 1
          ctx := { deadline := c.batchContext a.selected, canceled := false }
          items := a.selected
          activeWaiters := (a.selected.map fun it => (c.items it).activeWaiters).sum
          partition := (c.part pk).part.encoded
          minSeq := a.minSeq }
      batchSeq := c.batchSeq + 1
      activeProvider := c.activeProvider + 1
      queuedItems := c.queuedItems - a.selected.length
      out := c.out ++ [.start (c.batchSeq + 1) (c.part pk).part.encoded reason (c.batchContext a.selected) req] } := by
  have hp : (c.setPart pk { c.part pk with pending := a.remaining }).part pk =
      { c.part pk with pending := a.remaining } := by rw [part_setPart, if_pos rfl]
  unfold startBatch
  rw [hp]
  unfold setPart emit
  simp only [AList.insert_insert]
  rfl

end Coord

end BatchWeaver
