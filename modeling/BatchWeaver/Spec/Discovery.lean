import BatchWeaver.Spec.Snapshot

/-!
# Call sites and candidates

`callSiteDiscovery` and `matchOperation` (`internal/analysis/ssa.go`), which attribute the calls of a program to
declared operations, and `buildCandidates` (`internal/analysis/candidates.go`), which groups them.

Go visits a map in any order, and in another one each time: the orders are an argument.
-/

namespace BatchWeaver.Analysis

open Prover

/-- `shortDigest`; the first characters of the sum are taken to be as injective as the sum. -/
def shortDigest (H : Sha256) (parts : List GoString) : GoString := hashParts H parts

/-! ## Attributing calls -/

structure DeclaredOp extends Operation where
  scalarSymbol : GoString

/-- A function that a scalar symbol resolves to: the name of its object, and its signature without the receiver. -/
structure ScalarFunc (Sig : Type) where
  name : Option GoString
  sig : Option Sig
  method : Bool

/-- The target of a call: a static callee with its symbol, or a method of an interface. -/
inductive Target (Sig : Type) where
  | static (symbol : Option GoString)
  | invoke (method : GoString) (sig : Option Sig)
  | other

/-- The classes of the arguments: the receiver, the context and the key. -/
structure ArgClasses where
  receiver : GoString
  contextArg : GoString
  keyDependency : GoString

/-- A call instruction; `classify` is what `classifyArgs` says for a scalar function. -/
structure Call (Sig : Type) where
  target : Target Sig
  location : GoString
  isGo : Bool
  loopDepth : ℕ
  classify : Option (ScalarFunc Sig) → ArgClasses

/-- An application function: its key, its name in reports, whether it is launched asynchronously, and its calls in
the order of its blocks. -/
structure AppFunc (Sig : Type) where
  key : GoString
  display : GoString
  async : Bool
  calls : List (Call Sig)

structure Site extends CallSite where
  operation : GoString
  enclosingFunction : GoString
  loopDepth : ℕ

section

variable {Sig : Type} [DecidableEq Sig] (H : Sha256) (scalarFuncs : Table GoString (ScalarFunc Sig))

/-- The operations by scalar symbol; a later one replaces an earlier one. -/
def scalarToOp (ops : List DeclaredOp) : Table GoString GoString :=
  ops.foldl (fun m op => if op.scalarSymbol = [] ∨ op.disabled then m else m.insert op.scalarSymbol op.id) ∅

/-- The scalar functions by operation. -/
def scalarFnByOp (ops : List DeclaredOp) : Table GoString (ScalarFunc Sig) :=
  ops.foldl (fun m op =>
    if op.scalarSymbol = [] ∨ op.disabled then m
    else
      match scalarFuncs.lookup op.scalarSymbol with
      | some fn => m.insert op.id fn
      | none => m) ∅

/-- `sameParamsResults` -/
def sameParamsResults (a b : Option Sig) : Bool := a.isSome && decide (a = b)

/-- The function of a symbol has the name and the signature of the method that is called. -/
def fits (method : GoString) (sig : Option Sig) (symbol : GoString) : Bool :=
  match scalarFuncs.lookup symbol with
  | some fn => decide (fn.name = some method) && sameParamsResults sig fn.sig
  | none => false

/-- `matchOperation`: the operation, how it is called and the number of targets; `order` has the symbols in the
order in which the map is visited. -/
def matchOperation (toOp : Table GoString GoString) (order : List GoString) :
    Target Sig → GoString × GoString × ℤ
  | .static symbol =>
    match symbol.bind toOp.lookup with
    | some id => (id, dispatchDirect, 1)
    | none => ([], [], 0)
  | .invoke method sig =>
    match (order.find? (fits scalarFuncs method sig)).bind toOp.lookup with
    | some id => (id, dispatchInterface, 0)
    | none => ([], [], 0)
  | .other => ([], [], 0)

/-- One call: the site it adds to those found so far, if it is attributed to an operation. -/
def discover (ops : List DeclaredOp) (orders : ℕ → List GoString) (sites : List Site)
    (x : (AppFunc Sig × Call Sig) × ℕ) : List Site :=
  let (fn, call) := x.1
  let (opID, dispatch, targets) := matchOperation scalarFuncs (scalarToOp ops) (orders x.2) call.target
  if opID = [] then sites
  else
    let args := call.classify ((scalarFnByOp scalarFuncs ops).lookup opID)
    sites ++
      [{ id := str "bwcall_" ++
          shortDigest H [str "callsite", fn.key, call.location, opID, itoa sites.length]
         location := call.location
         enclosingFunctionID := shortDigest H [str "fn", fn.key]
         dispatch := dispatch
         inGoroutine := call.isGo || fn.async
         targets := targets
         contextArg := args.contextArg
         keyDependency := args.keyDependency
         receiver := args.receiver
         operation := opID
         enclosingFunction := fn.display
         loopDepth := call.loopDepth }]

/-- The calls of a program, numbered. -/
def numberedCalls (funcs : List (AppFunc Sig)) : List ((AppFunc Sig × Call Sig) × ℕ) :=
  (funcs.flatMap fun fn => fn.calls.map fun call => (fn, call)).zipIdx

/-- `callSiteDiscovery`: the sites by location, and the identifiers of those of an operation as they were found. -/
def callSiteDiscovery (funcs : List (AppFunc Sig)) (ops : List DeclaredOp) (orders : ℕ → List GoString) :
    List Site × (GoString → List GoString) :=
  let sites := (numberedCalls funcs).foldl (discover H scalarFuncs ops orders) []
  (sites.insertionSort fun a b => a.location < b.location ∨ a.location = b.location ∧ a.id ≤ b.id,
    fun opID => (sites.filter fun s => s.operation = opID).map fun s => s.id)

end

/-! ## Candidates -/

structure FoundCandidate extends Candidate where
  structuralContext : GoString
  evidence : List GoString

/-- `groupState` -/
def groupState (op : Operation) (g : List Site) : GoString :=
  if op.disabled then stateDisabledOperation
  else if op.compatibility = str "invalid" then stateInvalidDeclaration
  else if g.any fun s => s.dispatch = dispatchInterface then stateAmbiguousTarget
  else if g.any fun s => s.inGoroutine then statePotentialFanout
  else if g.any fun s => 0 < s.loopDepth then statePotentialLoop
  else if 1 < g.length then statePotentialSiblings
  else stateDirectIsolated

def Site.groupKey (s : Site) : GoString × GoString := (s.operation, s.enclosingFunction)

/-- The candidate of a group; an operation that is not declared counts as the empty one. -/
def candidateOf (H : Sha256) (ops : List Operation) (sites : List Site) (k : GoString × GoString) : FoundCandidate :=
  let g := sites.filter fun s => s.groupKey = k
  let state := groupState ((ops.reverse.find? fun op => op.id = k.1).getD {}) g
  { id := str "bwcand_" ++ shortDigest H [str "candidate", k.1, k.2, state], operation := k.1, state := state
    callSites := sortStrings (g.map fun s => s.id)
    structuralContext := k.2
    evidence := [str "semantic batching safety has not yet been proven"] }

/-- `buildCandidates` -/
def buildCandidates (H : Sha256) (ops : List Operation) (sites : List Site) : List FoundCandidate :=
  let order := (sites.map Site.groupKey).dedup.insertionSort fun a b => a.1 < b.1 ∨ a.1 = b.1 ∧ a.2 ≤ b.2
  (order.map (candidateOf H ops sites)).insertionSort fun a b => a.id ≤ b.id

end BatchWeaver.Analysis
