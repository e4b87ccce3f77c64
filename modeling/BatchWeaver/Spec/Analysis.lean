import BatchWeaver.Lib.Worklist
import BatchWeaver.Spec.Snapshot

/-!
# Effect summaries and key dependencies

`computeEffects` and `directEffects` (`internal/analysis/effects.go`) and `classifyKeyDependency`
(`internal/analysis/keydep.go`), over what they read of the SSA form: the instructions of a function by their
kind, the call graph, and the values a value is computed from.

A Go map is visited in an order that may differ from pass to pass: the order is an argument. The effects of a
function are the keys of a map, so their order does not matter; the summaries list them sorted.
-/

namespace BatchWeaver.Analysis

open Prover

/-! ## Direct effects -/

structure FuncEffects where
  effects : List GoString
  complete : Bool
  deriving DecidableEq

/-- What a call says about its target: the package of a static callee, the name of a builtin, and whether it is
a call through an interface or a value with a signature. -/
structure CallCommon where
  callee : Option (Option GoString)
  builtin : Option GoString
  dynamic : Bool

inductive Instr where
  | go
  | deferred
  | panicking
  | send
  | select
  | unOp (arrow : Bool)
  | store (global : Bool)
  | alloc (heap : Bool)
  | call (common : CallCommon)
  | other

def unknownCall : GoString := str "unknown-call"

def addEffect (effects : List GoString) (eff : GoString) : List GoString :=
  if eff ∈ effects then effects else effects ++ [eff]

section

variable (fe : FuncEffects)

def FuncEffects.add (eff : GoString) : FuncEffects :=
  { fe with effects := addEffect fe.effects eff }

def builtinEffect (name : GoString) : Option GoString :=
  if name = str "close" then some (str "channel")
  else if name = str "panic" then some (str "panic")
  else if name = str "recover" then some (str "recover")
  else if name = str "print" ∨ name = str "println" then some (str "logging")
  else none

def stdlibEffect (path : GoString) : Option GoString :=
  if path = str "os/exec" then some (str "process")
  else if path = str "os" ∨ path = str "io/ioutil" then some (str "filesystem")
  else if hasPrefix path (str "net") then some (str "network")
  else if path = str "time" then some (str "time")
  else if path = str "math/rand" ∨ path = str "math/rand/v2" ∨ path = str "crypto/rand" then
    some (str "randomness")
  else if hasPrefix path (str "sync") then some (str "synchronization")
  else if path = str "reflect" then some (str "reflection")
  else if path = str "unsafe" then some (str "unsafe")
  else if path = str "log" ∨ path = str "log/slog" then some (str "logging")
  else none

/-- Adds an effect if there is one. -/
def FuncEffects.addAny (eff : Option GoString) : FuncEffects :=
  match eff with
  | some eff => fe.add eff
  | none => fe

def addCallEffect (common : CallCommon) : FuncEffects :=
  match common.callee with
  | none =>
    match common.builtin with
    | some name => fe.addAny (builtinEffect name)
    | none => if common.dynamic then { fe.add unknownCall with complete := false } else fe
  | some none => fe
  | some (some path) => fe.addAny (stdlibEffect path)

def addInstr : Instr → FuncEffects
  | .go => fe.add (str "goroutine")
  | .deferred => fe.add (str "defer")
  | .panicking => fe.add (str "panic")
  | .send => fe.add (str "channel")
  | .select => fe.add (str "channel")
  | .unOp arrow => if arrow then fe.add (str "channel") else fe
  | .store global => if global then fe.add (str "global-write") else fe
  | .alloc heap => if heap then fe.add (str "heap-alloc") else fe
  | .call common => addCallEffect fe common
  | .other => fe

end

def directEffects (instrs : List Instr) : FuncEffects := instrs.foldl addInstr ⟨[], true⟩

/-! ## Effect summaries -/

section

variable {Fn : Type} [DecidableEq Fn]

def maxEffectIterations : ℕ := 32

/-- The first loop of `computeEffects`: the direct effects of the functions, each with its instructions. -/
def directState (funcs : List (Fn × List Instr)) : Table Fn FuncEffects :=
  funcs.foldl (fun state fn => state.insert fn.1 (directEffects fn.2)) ∅

/-- What the summary of a caller takes up from its callee, or from the lack of a summary. -/
def absorb (cs : FuncEffects) : Option FuncEffects → FuncEffects
  | none => if unknownCall ∈ cs.effects then cs else ⟨cs.effects ++ [unknownCall], false⟩
  | some es => ⟨es.effects.foldl addEffect cs.effects, cs.complete && es.complete⟩

/-- One edge of the call graph, with whether anything changed so far. -/
def visitCall (caller : Fn) (st : Table Fn FuncEffects × Bool) (callee : Fn) : Table Fn FuncEffects × Bool :=
  match st.1.lookup caller with
  | none => st
  | some cs =>
    let cs' := absorb cs (st.1.lookup callee)
    (st.1.insert caller cs', st.2 || cs' ≠ cs)

/-- A node of the call graph: a function and the functions it calls. -/
abbrev CallNode (Fn : Type) := Fn × List Fn

def visitNode (st : Table Fn FuncEffects × Bool) (node : CallNode Fn) : Table Fn FuncEffects × Bool :=
  node.2.foldl (visitCall node.1) st

def visitNodes (nodes : List (CallNode Fn)) (state : Table Fn FuncEffects) : Table Fn FuncEffects × Bool :=
  nodes.foldl visitNode (state, false)

/-- The passes that are left, from pass `i` on; `orders` gives the nodes in the order of each pass. -/
def iterate (orders : ℕ → List (CallNode Fn)) : ℕ → ℕ → Table Fn FuncEffects → Table Fn FuncEffects
  | 0, _, state => state
  | n + 1, i, state =>
    if (visitNodes (orders i) state).2 then iterate orders n (i + 1) (visitNodes (orders i) state).1
    else (visitNodes (orders i) state).1

/-- The summary of a function after the passes. -/
def summary (orders : ℕ → List (CallNode Fn)) (direct : Table Fn FuncEffects) (fn : Fn) : Option FuncEffects :=
  (iterate orders maxEffectIterations 0 direct).lookup fn

/-- `computeEffects` after its first loop, which gives `direct`; `funcID` is the identity of a function in a summary. -/
def computeEffects (orders : ℕ → List (CallNode Fn)) (direct : Table Fn FuncEffects) (funcID : Fn → GoString)
    (appFuncs : List Fn) : List EffectSummary :=
  (appFuncs.filterMap fun fn => (summary orders direct fn).map fun fe =>
    { function := funcID fn, effects := sortedKeys fe.effects, complete := fe.complete : EffectSummary }).insertionSort
      fun a b => a.function ≤ b.function

end

/-! ## Key dependencies -/

inductive UnaryOp where
  | negate
  | not
  | complement
  | load
  | receive
  deriving DecidableEq

/-- The kind of an SSA value. Kinds that the classifier does not know are `other`, with whether the value is an
instruction (a builtin is none). -/
inductive ValueKind (Fn : Type) where
  | parameter
  | const
  | freeVar
  | function
  | global
  | call (callee : Option Fn) (builtin : Bool)
  | phi
  | binOp
  | unOp (op : UnaryOp)
  | convert
  | changeType
  | field
  | fieldAddr
  | index
  | indexAddr
  | slice
  | extract
  | makeInterface
  | changeInterface
  | lookup (map : Bool)
  | typeAssert
  | other (instruction : Bool)
  deriving DecidableEq

def ValueKind.isInstruction {Fn : Type} : ValueKind Fn → Bool
  | .parameter => false
  | .const => false
  | .freeVar => false
  | .function => false
  | .global => false
  | .other instruction => instruction
  | _ => true

/-- The values of a program with what they are computed from; an operand may be nil. Only instructions have
operands. -/
structure ValueGraph (V Fn : Type) where
  kind : V → ValueKind Fn
  operands : V → List (Option V)
  leaves : ∀ v, (kind v).isInstruction = false → operands v = []

def ValueKind.isGlobal {Fn : Type} : ValueKind Fn → Bool
  | .global => true
  | _ => false

/-- An instruction of a body, with the value it writes through. -/
inductive BodyInstr (V : Type) where
  | store (addr : V)
  | mapUpdate (m : V)
  | plain (instr : Instr)

/-- The case of the type switch of `directEffects`: a store is told by its address, and a map update has none. -/
def BodyInstr.seen {V Fn : Type} (g : ValueGraph V Fn) : BodyInstr V → Instr
  | .store addr => .store (g.kind addr).isGlobal
  | .mapUpdate _ => .other
  | .plain instr => instr

/-- The direct effects of a function with these blocks; a function without a body has none. -/
def bodyEffects {V Fn : Type} (g : ValueGraph V Fn) (blocks : List (List (BodyInstr V))) : FuncEffects :=
  directEffects (blocks.flatten.map (BodyInstr.seen g))

structure Saw where
  scalarResult : Bool := false
  call : Bool := false
  globalRead : Bool := false
  unknown : Bool := false

section

variable {V Fn : Type} [DecidableEq V]

/-- What one value adds to what was seen. -/
def see (scalarFns : Fn → Bool) (s : Saw) : ValueKind Fn → Saw
  | .parameter => s
  | .const => s
  | .freeVar => s
  | .function => s
  | .global => { s with globalRead := true }
  | .call callee builtin =>
    if callee.any scalarFns then { s with scalarResult := true }
    else if builtin then s
    else { s with call := true }
  | .other _ => { s with unknown := true }
  | _ => s

/-- The operands that are pushed for a value. -/
def ValueGraph.pushed (g : ValueGraph V Fn) (v : V) : List V :=
  if (g.kind v).isInstruction then (g.operands v).filterMap id else []

/-- The loop over the stack; none if the turns run out. -/
def classifyLoop (g : ValueGraph V Fn) (scalarFns : Fn → Bool) : ℕ → Worklist.Work V → Saw → Option Saw
  | 0, _, _ => none
  | fuel + 1, w, s =>
    match Worklist.turn g.pushed w with
    | none => some s
    | some (v, w) => classifyLoop g scalarFns fuel w (see scalarFns s (g.kind v))

def Saw.class (s : Saw) : GoString :=
  if s.scalarResult then keyResultDependent
  else if s.call || s.globalRead then keyCallDerived
  else if s.unknown then keyUnknown
  else keyStructural

/-- `classifyKeyDependency` with a bound on the turns of its loop. -/
def classifyKeyDependency (g : ValueGraph V Fn) (scalarFns : Fn → Bool) (fuel : ℕ) (key : Option V) :
    Option GoString :=
  match key with
  | none => some keyUnknown
  | some v => (classifyLoop g scalarFns fuel (Worklist.start v) {}).map Saw.class

end

end BatchWeaver.Analysis
