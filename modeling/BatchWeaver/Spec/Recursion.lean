import BatchWeaver.Spec.Engine

/-!
# Recursive provider calls

`markExec` and `executing` of `binding.go`, the check that `Do` makes with them before it submits, and the
context that `dispatchBatch` gives to a provider. A context is kept as far as these read it: its frames, its
deadline and its scope. The key of the frames is private to the package, so contexts that a provider derives
from its own have the same frames.
-/

namespace BatchWeaver

/-- An operation and a partition under execution. -/
structure ExecFrame where
  opID : String
  part : GoString

/-- A context. The frames are linked by `parent`, here a list with the innermost first. -/
structure ExecContext where
  frames : List ExecFrame := []
  deadline : Option Time := none
  scope : Option ScopeID := none

def markExec (ctx : ExecContext) (opID : String) (part : GoString) : ExecContext :=
  { ctx with frames := ⟨opID, part⟩ :: ctx.frames }

def executing (ctx : ExecContext) (opID : String) (part : GoString) : Bool :=
  ctx.frames.any fun f => f.opID == opID && f.part == part

/-- `engine.ctx`, made of the background context. -/
def engineContext : ExecContext := {}

/-- The context of a provider call: the batch context, made of the engine's, is marked with the operation of the
coordinator and the partition of the batch. -/
def providerContext (opID : String) (part : GoString) (deadline : Option Time) : ExecContext :=
  markExec { engineContext with deadline := deadline } opID part

/-- The check of `Do`: what the call returns, or none if it goes on and submits. -/
def recursionCheck {V E : Type} (hasFallback : Bool) (ctx : ExecContext) (opID : String) (part : GoString) :
    Option (DoReturn V E) :=
  if executing ctx opID part then some (if hasFallback then .done .fallback else .recursive) else none

end BatchWeaver
