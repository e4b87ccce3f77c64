import BatchWeaver.Spec.Call
import BatchWeaver.Spec.Memo
import BatchWeaver.Spec.Scope

/-!
# Bound operations in scopes

`Do` as a whole. Before it allocates a waiter a call checks its scope and the engine and looks
into the memo table of its scope; then it tells the scope that the operation is used there, and
exchanges messages with the coordinator; a result may be stored in the memo table. Each access
to something shared is one event, so calls interleave as goroutines do. `bound` is one bound
operation with its calls; what a call reads of its scope or of the engine comes with the event.

`engine` is an engine: its scopes, any number of bound operations with key and value types of
their own, and the calls of `Scope.Flush` and `Scope.Close`. These visit the operations of a
scope one after the other, send each a flush request and wait for the reply; `Close` then drops
the memo table. `bridge.Flush` and `bridge.Barrier` are `Scope.Flush` for the scope their context
carries.

Requests to the coordinators that come from elsewhere (`Drain`, `Engine.Close`) are among the
turns of `net`, and an id that another operation takes from the engine's counter is a
`newRequestID` there. The partitioner has run when a call starts. Left out are the calls without
a scope, which never reach the coordinator, and events and statistics.
-/

namespace BatchWeaver

/-- A call of `Do`. -/
abbrev DoId := ℕ

/-- The address of a memo table. -/
abbrev TableRef := ℕ

/-- A call of `Scope.Flush` or `Scope.Close`. -/
abbrev SweepId := ℕ

/-! ## One bound operation -/

section Bound

variable {K V E : Type}

/-- How `Do` returns. -/
inductive DoReturn (V E : Type) where
  /-- `ErrScopeClosed`, `ErrEngineClosing` or `ErrEngineClosed`, before the memo table is read -/
  | refused (err : ScopeError)
  /-- `ErrRecursiveOperation` -/
  | recursive
  /-- the error made of a panic of a key function -/
  | keyPanic
  | done (r : Return V E)
  deriving DecidableEq

/-- What a call of `Do` does next. -/
inductive DoStage (V E : Type) where
  /-- `scope.checkOpen()` -/
  | opening
  /-- `engine.acceptingSubmissions()` -/
  | accepting
  /-- `callClone` -/
  | cloning
  /-- `memoTableFor`, to look up -/
  | looking
  | getting (t : TableRef)
  /-- the recursion check and the other key functions, then `trackOp` -/
  | entering
  /-- waits in the exchange with the coordinator -/
  | calling
  /-- `memoTableFor`, to store -/
  | storing (value : V) (found : Bool)
  | putting (t : TableRef) (value : V) (found : Bool)
  | returned (r : DoReturn V E)
  deriving DecidableEq

/-- A call of `Do` whose context carries a scope. -/
structure DoCall (K V E : Type) where
  scope : ScopeID
  part : Partition
  key : K
  waiter : Option WaiterId
  stage : DoStage V E
  deriving DecidableEq

def DoStage.isGetting : DoStage V E → Bool
  | .getting _ => true
  | _ => false

def DoStage.isStoring : DoStage V E → Bool
  | .storing _ _ => true
  | _ => false

def DoStage.isPutting : DoStage V E → Bool
  | .putting _ _ _ => true
  | _ => false

/-- A bound operation: its coordinator with the callers, its memo tables, and its calls. -/
structure Bound (K V E : Type) where
  net : Net K V E
  memo : Table ScopeID TableRef
  tables : TableRef → MemoTable K V
  tableSeq : TableRef
  dos : Table DoId (DoCall K V E)

inductive BoundEvent (K V E : Type) where
  /-- `Do` is called in a scope, for a key of a partition -/
  | start (id : DoId) (scope : ScopeID) (part : Partition) (key : K)
  | checkOpen (id : DoId) (isOpen : Bool)
  | accept (id : DoId) (err : Option ScopeError)
  | clone (id : DoId) (ok : Bool)
  /-- `memoTableFor` before a lookup -/
  | lookup (id : DoId)
  | get (id : DoId)
  /-- the call comes from inside of a provider call of its own partition -/
  | recursive (id : DoId)
  /-- the hash, weight or size of the key panics -/
  | keyPanic (id : DoId)
  /-- the waiter is allocated, the operation is tracked, the call is about to submit -/
  | track (id : DoId) (part : Partition) (key : K) (weight bytes : ℤ) (deadline : Option Time)
  /-- the exchange of messages goes on -/
  | net (e : NetEvent K V E)
  /-- the exchange is over for a call -/
  | finish (id : DoId)
  /-- `memoTableFor` before a store -/
  | store (id : DoId)
  | put (id : DoId)
  | dropMemo (scope : ScopeID)

def NetEvent.isCall : NetEvent K V E → Bool
  | .call .. => true
  | _ => false

/-- What a memo record makes `Do` return. -/
def finishMemo (r : Result V E) : Return V E := if r.found then .value r.value else .missing

/-- What follows the exchange with the coordinator: `finish` stores a value, and a missing result
if the operation memoizes these. -/
def DoStage.ofReturn [Inhabited V] {K : Type} (cfg : OpConfig K) : Return V E → DoStage V E
  | .value v => if cfg.memoEnabled then .storing v true else .returned (.done (.value v))
  | .missing =>
    if cfg.memoEnabled && cfg.memoNegative then .storing default false else .returned (.done .missing)
  | r => .returned (.done r)

namespace Bound

variable (b : Bound K V E)

def init [Inhabited K] : Bound K V E where
  net := { coord := Coord.init, shown := 0, calls := fun _ => none, cancelCh := [] }
  memo := ∅
  tables := fun _ => MemoTable.empty
  tableSeq := 0
  dos := ∅

/-- The memo table of a scope, created on demand. -/
def memoTableFor (scope : ScopeID) : Bound K V E × TableRef :=
  match b.memo.lookup scope with
  | some t => (b, t)
  | none =>
    let t := b.tableSeq + 1
    ({ b with
        memo := b.memo.insert scope t
        tables := Function.update b.tables t MemoTable.empty
        tableSeq := t }, t)

def dropMemo (scope : ScopeID) : Bound K V E := { b with memo := b.memo.erase scope }

def setDo (id : DoId) (d : DoCall K V E) : Bound K V E := { b with dos := b.dos.insert id d }

def setStage (id : DoId) (stage : DoStage V E) : Bound K V E :=
  match b.dos.lookup id with
  | none => b
  | some d => b.setDo id { d with stage := stage }

def stage (id : DoId) : Option (DoStage V E) := (b.dos.lookup id).map DoCall.stage

/-- What the exchange with the coordinator returned to a call that waits for it. -/
def outcome (id : DoId) : Option (Return V E) :=
  match b.dos.lookup id with
  | none => none
  | some d =>
    match d.stage with
    | .calling =>
      match (d.waiter.bind b.net.calls).map Call.stage with
      | some (.returned r) => some r
      | _ => none
    | _ => none

/-- The call reads the table it holds. -/
def get (cfg : OpConfig K) (id : DoId) : Bound K V E :=
  match b.dos.lookup id with
  | none => b
  | some d =>
    match d.stage with
    | .getting t =>
      match (b.tables t).get cfg d.part d.key with
      | some r => b.setStage id (.returned (.done (finishMemo (r : Result V E))))
      | none => b.setStage id .entering
    | _ => b

/-- The call stores what it holds. -/
def put (cfg : OpConfig K) (id : DoId) : Bound K V E :=
  match b.dos.lookup id with
  | none => b
  | some d =>
    match d.stage with
    | .putting t value found =>
      { b with tables := Function.update b.tables t ((b.tables t).put cfg d.part d.key value found) }.setStage
        id (.returned (.done (if found then .value value else .missing)))
    | _ => b

/-- The call asks for the table to look up in. -/
def lookup (id : DoId) : Bound K V E :=
  match b.dos.lookup id with
  | none => b
  | some d =>
    let r := b.memoTableFor d.scope
    r.1.setStage id (.getting r.2)

/-- The call asks for the table to store in. -/
def store (id : DoId) : Bound K V E :=
  match b.dos.lookup id with
  | none => b
  | some d =>
    match d.stage with
    | .storing value found =>
      let r := b.memoTableFor d.scope
      r.1.setStage id (.putting r.2 value found)
    | _ => b

def next [Inhabited V] (cfg : OpConfig K) : BoundEvent K V E → Bound K V E
  | .start id scope part key =>
    b.setDo id { scope := scope, part := part, key := key, waiter := none, stage := .opening }
  | .checkOpen id isOpen => b.setStage id (if isOpen then .accepting else .returned (.refused .closed))
  | .accept id err =>
    match err with
    | none => b.setStage id .cloning
    | some err =>
      if cfg.hasFallback && !cfg.requireScope then b.setStage id (.returned (.done .fallback))
      else b.setStage id (.returned (.refused err))
  | .clone id ok =>
    if ok then b.setStage id (if cfg.memoEnabled then .looking else .entering)
    else b.setStage id (.returned .keyPanic)
  | .lookup id => b.lookup id
  | .get id => b.get cfg id
  | .recursive id => b.setStage id (.returned (if cfg.hasFallback then .done .fallback else .recursive))
  | .keyPanic id => b.setStage id (.returned .keyPanic)
  | .track id part key weight bytes deadline =>
    let w := b.net.coord.requestSeq + 1
    let b' := match b.dos.lookup id with
      | none => b
      | some d => b.setDo id { d with waiter := some w, stage := .calling }
    { b' with net := b.net.next cfg.toBindingConfig (.call part key weight bytes deadline) }
  | .net e => { b with net := b.net.next cfg.toBindingConfig e }
  | .finish id =>
    match b.outcome id with
    | none => b
    | some r => b.setStage id (.ofReturn cfg r)
  | .store id => b.store id
  | .put id => b.put cfg id
  | .dropMemo scope => b.dropMemo scope

/-- What may happen, as far as the operation decides. -/
def Ok (cfg : OpConfig K) : BoundEvent K V E → Prop
  | .start id _ _ _ => b.dos.lookup id = none
  | .checkOpen id _ => b.stage id = some .opening
  | .accept id _ => b.stage id = some .accepting
  | .clone id _ => b.stage id = some .cloning
  | .lookup id => b.stage id = some .looking
  | .get id => (b.stage id).any DoStage.isGetting = true
  | .recursive id => b.stage id = some .entering
  | .keyPanic id => b.stage id = some .entering
  | .track id part key weight bytes _ =>
    (b.dos.lookup id).map (fun d => (d.part, d.key, d.stage)) = some (part, key, .entering) ∧ 0 ≤ weight ∧ 0 ≤ bytes
  | .net e => e.isCall = false ∧ b.net.Ok cfg.toBindingConfig e
  | .finish id => (b.outcome id).isSome = true
  | .store id => (b.stage id).any DoStage.isStoring = true
  | .put id => (b.stage id).any DoStage.isPutting = true
  | .dropMemo _ => True

end Bound

/-- **A bound operation with its calls as a system.** -/
def bound [Inhabited K] [Inhabited V] (cfg : OpConfig K) : System (Bound K V E) (BoundEvent K V E) where
  init := Bound.init
  ok := fun _ b e => b.Ok cfg e
  next := fun b e => b.next cfg e

instance [DecidableEq K] [DecidableEq V] [DecidableEq E] (cfg : OpConfig K) (b : Bound K V E)
    (e : BoundEvent K V E) : Decidable (b.Ok cfg e) := by
  cases e <;> unfold Bound.Ok <;> infer_instance

/-- What is in the reply channel of a control request. -/
def Effect.barrierFor (id : ControlId) : Effect K V E → Option (Option (GoError E))
  | .barrier id' err => if id' = id then some err else none
  | _ => none

def Net.barrierReply (s : Net K V E) (id : ControlId) : Option (Option (GoError E)) :=
  s.visible.findSome? (Effect.barrierFor id)

/-- The turn in which the coordinator receives a flush request. -/
def flushTurn (now now' : Time) (reply : ControlId) (ctxErr : ControlId → Option (GoError E)) :
    Turn K V E :=
  ⟨.control now ⟨.flush, reply⟩, now', ctxErr⟩

end Bound

/-! ## Flush and Close of a scope -/

/-- What `op.flush` returns. -/
inductive SweepError (E : Type) where
  /-- `ctx.Err()` -/
  | ctx
  | reply (err : GoError E)
  deriving DecidableEq

inductive SweepStage (E : Type) where
  /-- the first `select` of `control` -/
  | sending
  /-- the second `select` of `control`. The coordinator had numbered its items up to `seq` when it
  received the request. -/
  | waiting (reply : ControlId) (seq : ℕ)
  /-- `op.dropMemo` -/
  | dropping
  | returned (err : Option (SweepError E))
  deriving DecidableEq

/-- A call of `Scope.Flush` or of `Scope.Close` that found the scope open. -/
structure Sweep (O E : Type) where
  scope : ScopeID
  /-- it is a `Close` -/
  closing : Bool
  /-- the operations to visit, in the order of the iteration -/
  ops : List O
  /-- those that are not done; the first is being visited -/
  todo : List O
  ctxDone : Bool
  /-- `firstErr` -/
  err : Option (SweepError E)
  stage : SweepStage E
  deriving DecidableEq

namespace Sweep

variable {O E : Type} (sw : Sweep O E)

/-- The loop goes on. -/
def proceed (todo : List O) : Sweep O E :=
  match todo with
  | [] => { sw with todo := [], stage := .returned sw.err }
  | o :: rest => { sw with todo := o :: rest, stage := .sending }

def start (scope : ScopeID) (closing : Bool) (ops : List O) : Sweep O E :=
  proceed { scope := scope, closing := closing, ops := ops, todo := ops, ctxDone := false, err := none,
            stage := .sending } ops

/-- `op.flush` has returned. -/
def flushed (err : Option (SweepError E)) : Sweep O E :=
  if sw.closing then { sw with err := sw.err.or err, stage := .dropping }
  else
    match err with
    | some err => { sw with err := some err, stage := .returned (some err) }
    | none => sw.proceed sw.todo.tail

end Sweep

/-! ## The engine -/

section Engine

variable {O : Type} {K V : O → Type} {E : Type}

structure Engine (O : Type) (K V : O → Type) (E : Type) where
  scopes : Scopes O
  bound : (o : O) → Bound (K o) (V o) E
  sweeps : Table SweepId (Sweep O E)

inductive EngineEvent (O : Type) (K V : O → Type) (E : Type) where
  | newScope (ctx : Option ScopeID) (nested : NestedPolicy)
  /-- `Engine.Close` moves on -/
  | engine (state : EngineState)
  | op (o : O) (e : BoundEvent (K o) (V o) E)
  /-- `Scope.Flush` is called and takes its snapshot of the operations -/
  | flush (id : SweepId) (scope : ScopeID) (order : List O)
  /-- `Scope.Close` is called and leaves its locked part -/
  | close (id : SweepId) (scope : ScopeID) (order : List O)
  /-- the context of a flush or close is done -/
  | expire (id : SweepId)
  /-- `o.coord.controlCh <- req`; the coordinator receives in the same step -/
  | send (id : SweepId) (o : O) (now now' : Time) (reply : ControlId)
      (ctxErr : ControlId → Option (GoError E))
  /-- a `select` of `control` takes another case -/
  | answer (id : SweepId) (o : O) (k : Case)
  | drop (id : SweepId) (o : O) (scope : ScopeID)

/-- The part of an event that one operation takes. -/
def EngineEvent.at [DecidableEq O] (o : O) : EngineEvent O K V E → Option (BoundEvent (K o) (V o) E)
  | .op o' e => if h : o' = o then some (h ▸ e) else none
  | .send _ o' now now' reply ctxErr =>
    if o' = o then some (.net (.turn (flushTurn now now' reply ctxErr))) else none
  | .drop _ o' scope => if o' = o then some (.dropMemo scope) else none
  | _ => none

namespace Engine

variable (s : Engine O K V E)

def setSweep (id : SweepId) (sw : Sweep O E) : Engine O K V E :=
  { s with sweeps := s.sweeps.insert id sw }

def setBound [DecidableEq O] (o : O) (b : Bound (K o) (V o) E) : Engine O K V E :=
  { s with bound := Function.update s.bound o b }

/-- The scopes after an event of an operation: `trackOp` changes them. -/
def scopesAfter [DecidableEq O] (o : O) : BoundEvent (K o) (V o) E → Scopes O
  | .track id .. =>
    match (s.bound o).dos.lookup id with
    | none => s.scopes
    | some d => s.scopes.trackOp d.scope o
  | _ => s.scopes

/-- What `op.flush` returns if a `select` of `control` takes the case; `none` if the case is not
ready. -/
def control (o : O) (sw : Sweep O E) : Case → Option (Option (SweepError E))
  | .value =>
    match sw.stage with
    | .waiting reply _ => ((s.bound o).net.barrierReply reply).map fun err => err.map .reply
    | _ => none
  | .ctxDone =>
    match sw.stage with
    | .sending => if sw.ctxDone then some (some .ctx) else none
    | .waiting _ _ => if sw.ctxDone then some (some .ctx) else none
    | _ => none
  | .done =>
    match sw.stage with
    | .sending => if (s.bound o).net.closed then some none else none
    | .waiting _ _ => if (s.bound o).net.closed then some none else none
    | _ => none

def next [DecidableEq O] [∀ o, Inhabited (V o)] (cfg : (o : O) → OpConfig (K o)) :
    EngineEvent O K V E → Engine O K V E
  | .newScope ctx nested =>
    match s.scopes.newScope ctx nested with
    | .error _ => s
    | .ok (scopes, _) => { s with scopes := scopes }
  | .engine state => { s with scopes := { s.scopes with engine := state } }
  | .op o e => { s.setBound o ((s.bound o).next (cfg o) e) with scopes := s.scopesAfter o e }
  | .flush id scope order => s.setSweep id (.start scope false order)
  | .close id scope order =>
    match s.scopes.close scope with
    | (_, none) => s
    | (scopes, some _) => { s.setSweep id (.start scope true order) with scopes := scopes }
  | .expire id =>
    match s.sweeps.lookup id with
    | none => s
    | some sw => s.setSweep id { sw with ctxDone := true }
  | .send id o now now' reply ctxErr =>
    match s.sweeps.lookup id with
    | none => s
    | some sw =>
      (s.setBound o ((s.bound o).next (cfg o) (.net (.turn (flushTurn now now' reply ctxErr))))).setSweep
        id { sw with stage := .waiting reply (s.bound o).net.coord.submitSeq }
  | .answer id o k =>
    match s.sweeps.lookup id with
    | none => s
    | some sw =>
      match s.control o sw k with
      | none => s
      | some err => s.setSweep id (sw.flushed err)
  | .drop id o scope =>
    match s.sweeps.lookup id with
    | none => s
    | some sw => (s.setBound o ((s.bound o).dropMemo scope)).setSweep id (sw.proceed sw.todo.tail)

/-- What a call of `Do` is told about its scope and the engine is the case. -/
def Tells (o : O) : BoundEvent (K o) (V o) E → Prop
  | .start _ scope _ _ => (s.scopes.heap scope).isSome = true
  | .checkOpen id isOpen => ∀ d ∈ (s.bound o).dos.lookup id,
      isOpen = decide (s.scopes.checkOpen d.scope = .ok ())
  | .accept _ err => (match err with | none => .ok () | some err => .error err) = s.scopes.acceptingSubmissions
  | .dropMemo _ => False
  | _ => True

/-- What may happen. -/
def Ok [DecidableEq O] (cfg : (o : O) → OpConfig (K o)) : EngineEvent O K V E → Prop
  | .newScope ctx _ => ∀ scope ∈ ctx, (s.scopes.heap scope).isSome = true
  | .engine _ => True
  | .op o e => (s.bound o).Ok (cfg o) e ∧ s.Tells o e
  | .flush id scope order => s.sweeps.lookup id = none ∧ (s.scopes.heap scope).isSome = true ∧
      order.Perm (s.scopes.ops scope)
  | .close id scope order => s.sweeps.lookup id = none ∧ (s.scopes.heap scope).isSome = true ∧
      order.Perm (s.scopes.ops scope)
  | .expire id => (s.sweeps.lookup id).isSome = true
  | .send id o now now' reply ctxErr =>
    (s.sweeps.lookup id).map (fun sw => (sw.todo.head?, sw.stage)) = some (some o, .sending) ∧
      (s.bound o).net.Ok (cfg o).toBindingConfig (.turn (flushTurn now now' reply ctxErr))
  | .answer id o k => ((s.sweeps.lookup id).bind fun sw =>
      if sw.todo.head? = some o then s.control o sw k else none).isSome = true
  | .drop id o scope => (s.sweeps.lookup id).map (fun sw => (sw.todo.head?, sw.scope, sw.stage)) =
      some (some o, scope, .dropping)

end Engine

/-- **An engine with its scopes, operations and calls as a system.** -/
def engine [DecidableEq O] [∀ o, Inhabited (K o)] [∀ o, Inhabited (V o)] (cfg : (o : O) → OpConfig (K o)) :
    System (Engine O K V E) (EngineEvent O K V E) where
  init := { scopes := Scopes.init, bound := fun _ => Bound.init, sweeps := ∅ }
  ok := fun _ s e => s.Ok cfg e
  next := fun s e => s.next cfg e

instance [DecidableEq O] [∀ o, DecidableEq (K o)] [∀ o, DecidableEq (V o)] [DecidableEq E]
    (s : Engine O K V E) (o : O) (e : BoundEvent (K o) (V o) E) : Decidable (s.Tells o e) := by
  cases e <;> unfold Engine.Tells <;> infer_instance

instance [DecidableEq O] [∀ o, DecidableEq (K o)] [∀ o, DecidableEq (V o)] [DecidableEq E]
    (cfg : (o : O) → OpConfig (K o)) (s : Engine O K V E) (e : EngineEvent O K V E) :
    Decidable (s.Ok cfg e) := by
  cases e <;> unfold Engine.Ok <;> infer_instance

end Engine

end BatchWeaver
