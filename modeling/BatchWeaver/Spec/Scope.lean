import BatchWeaver.Lib.Run
import BatchWeaver.Lib.Table

/-!
# Scopes

The scopes of an engine: `NewScope`, `checkOpen`, `trackOp` and the locked part of `Close`.
A context is modelled by the scope it carries, if any.

`Run` creates a scope, calls a function with the context that carries it, and closes the scope
when the function returns. `runs` is the system of all such calls: a call starts under the
context of a function that is running, or under one without a scope, and its function may
return at any time. Nested calls are the runs in which inner functions return first; a call
started in another goroutine may go on.

Operations are of any type `O`. Events and the counter of active scopes are left out.
-/

namespace BatchWeaver

abbrev ScopeID := ℕ

inductive ScopeState where
  | open
  | closed
  deriving DecidableEq

inductive EngineState where
  | open
  | closing
  | closed

inductive NestedPolicy where
  | isolateChild
  | reuseParent
  | rejectNested
  deriving DecidableEq

inductive ScopeError where
  | engineClosing
  | engineClosed
  /-- `ErrNestedScope` -/
  | nested
  /-- `ErrScopeClosed` -/
  | closed
  deriving DecidableEq

/-- `Scope`; `ops` lists the keys of its map. -/
structure Scope (O : Type) where
  state : ScopeState
  ops : List O

/-- The engine's state and its scopes. -/
structure Scopes (O : Type) where
  engine : EngineState
  scopeSeq : ScopeID
  heap : ScopeID → Option (Scope O)

namespace Scopes

variable {O : Type} (s : Scopes O)

def init : Scopes O := { engine := .open, scopeSeq := 0, heap := fun _ => none }

def acceptingSubmissions : Except ScopeError Unit :=
  match s.engine with
  | .open => .ok ()
  | .closing => .error .engineClosing
  | .closed => .error .engineClosed

def state (id : ScopeID) : Option ScopeState := (s.heap id).map Scope.state

def ops (id : ScopeID) : List O := ((s.heap id).map Scope.ops).getD []

def checkOpen (id : ScopeID) : Except ScopeError Unit :=
  if s.state id = some .open then .ok () else .error .closed

/-- A new scope; its context carries it. -/
def fresh : Scopes O × ScopeID :=
  let id := s.scopeSeq + 1
  ({ s with scopeSeq := id, heap := Function.update s.heap id (some { state := .open, ops := [] }) }, id)

/-- `NewScope` under a context that carries `ctx`: the scope it returns, which the returned
context carries. -/
def newScope (ctx : Option ScopeID) (nested : NestedPolicy) : Except ScopeError (Scopes O × ScopeID) :=
  match s.acceptingSubmissions with
  | .error err => .error err
  | .ok () =>
    match ctx with
    | none => .ok s.fresh
    | some existing =>
      match nested with
      | .reuseParent => .ok (s, existing)
      | .rejectNested => .error .nested
      | .isolateChild => .ok s.fresh

/-- `trackOp`, whatever the state of the scope. -/
def trackOp [DecidableEq O] (id : ScopeID) (op : O) : Scopes O :=
  { s with
    heap := Function.update s.heap id ((s.heap id).map fun sc => { sc with ops := sc.ops.insert op }) }

/-- `Close` up to the unlock; the operations it will visit, or `none` if the scope was closed. -/
def close (id : ScopeID) : Scopes O × Option (List O) :=
  if s.state id = some .closed then (s, none)
  else
    ({ s with
        heap := Function.update s.heap id ((s.heap id).map fun _ => { state := .closed, ops := [] }) },
      some (s.ops id))

end Scopes

/-! ## Run -/

abbrev FrameID := ℕ

/-- A call of `Run` whose function is running: the scope that its context carries and that it will
close. -/
structure Frame where
  scope : ScopeID
  deriving DecidableEq

/-- An engine and the calls of `Run` on it. -/
structure Runs (O : Type) where
  scopes : Scopes O
  frames : Table FrameID Frame

inductive RunEvent where
  /-- `Run`, called as `id` with the context of the function of `parent` or with one without a scope -/
  | run (id : FrameID) (parent : Option FrameID) (nested : NestedPolicy)
  /-- the function of a call returns -/
  | ret (id : FrameID)
  /-- `Engine.Close` moves on -/
  | engine (state : EngineState)

namespace Runs

variable {O : Type} (s : Runs O)

/-- The scope carried by the context that a call of `Run` is given. -/
def context (parent : Option FrameID) : Option ScopeID :=
  parent.bind fun id => (s.frames.lookup id).map Frame.scope

def next : RunEvent → Runs O
  | .run id parent nested =>
    match s.scopes.newScope (s.context parent) nested with
    | .error _ => s
    | .ok (scopes, scope) => { scopes := scopes, frames := s.frames.insert id { scope := scope } }
  | .ret id =>
    match s.frames.lookup id with
    | none => s
    | some f => { scopes := (s.scopes.close f.scope).1, frames := s.frames.erase id }
  | .engine state => { s with scopes := { s.scopes with engine := state } }

/-- What may happen: a call is started under a running function, a running function returns. -/
def Ok : RunEvent → Prop
  | .run id parent _ => s.frames.lookup id = none ∧ ∀ p ∈ parent, (s.frames.lookup p).isSome = true
  | .ret id => (s.frames.lookup id).isSome = true
  | .engine _ => True

instance : (e : RunEvent) → Decidable (s.Ok e)
  | .run id parent _ => inferInstanceAs (Decidable (s.frames.lookup id = none ∧
      ∀ p ∈ parent, (s.frames.lookup p).isSome = true))
  | .ret id => inferInstanceAs (Decidable ((s.frames.lookup id).isSome = true))
  | .engine _ => inferInstanceAs (Decidable True)

end Runs

/-- **Calls of `Run` on one engine as a system.** -/
def runs (O : Type) : System (Runs O) RunEvent where
  init := { scopes := Scopes.init, frames := ∅ }
  ok := fun _ s e => s.Ok e
  next := Runs.next

instance (O : Type) (es : List RunEvent) (s : Runs O) (e : RunEvent) : Decidable ((runs O).ok es s e) :=
  inferInstanceAs (Decidable (s.Ok e))

/-! ## Operations of gqlgen -/

namespace Gqlgen

variable {O R : Type}

/-- What `next` does: it panics, or returns a response handler, nil or one that yields the responses and then
nil forever. -/
inductive Next (R : Type) where
  | panicked
  | noHandler
  | handler (responses : List R)

/-- The handler that `InterceptOperation` returns: the scope, whether `once` has run, how often `Close` was called,
and the responses to come. -/
structure ResponseHandler (O R : Type) where
  scopes : Scopes O
  scope : ScopeID
  once : Bool := false
  closes : ℕ := 0
  inner : List R := []

def ResponseHandler.closeScope (h : ResponseHandler O R) : ResponseHandler O R :=
  if h.once then h
  else { h with once := true, scopes := (h.scopes.close h.scope).1, closes := h.closes + 1 }

/-- `InterceptOperation` under a context that carries `ctx`; without a scope it returns an error response. The
handler after a panic or for a nil one only returns nil. -/
def interceptOperation (s : Scopes O) (ctx : Option ScopeID) (nested : NestedPolicy) (next : Next R) :
    Except ScopeError (ResponseHandler O R) :=
  match s.newScope ctx nested with
  | .error err => .error err
  | .ok (scopes, scope) =>
    match next with
    | .panicked | .noHandler => .ok (ResponseHandler.closeScope { scopes, scope })
    | .handler responses => .ok { scopes, scope, inner := responses }

/-- One call of the handler: the response and the state after it. -/
def ResponseHandler.call (h : ResponseHandler O R) : Option R × ResponseHandler O R :=
  match h.inner with
  | [] => (none, h.closeScope)
  | response :: rest => (some response, { h with inner := rest })

/-- The transport calls the handler `n` times. -/
def ResponseHandler.calls (n : ℕ) (h : ResponseHandler O R) : ResponseHandler O R := (fun h => h.call.2)^[n] h

end Gqlgen

end BatchWeaver
