import BatchWeaver.Spec.Documents

/-!
# Outgoing calls

`Call`, `deliverResponse` and the loop of `Serve` in `internal/lsp/jsonrpc`. A call registers a channel with one slot
under its ID, writes its request and waits; on its way out it takes the channel out of the table again. The reader looks
a channel up under the lock of the table and sends to it after the lock is released.

What a response carries, and incoming requests and notifications, which have goroutines of their own, are left out.
-/

namespace BatchWeaver.Lsp

/-- Where a call is. Its channel is in the table `pending` from `writing` to `leaving`. -/
inductive Stage
  | unused
  | writing
  /-- in the `select` -/
  | waiting
  /-- about to return: the deferred removal is next -/
  | leaving
  | returned
deriving DecidableEq

def Stage.pending : Stage → Bool
  | .writing | .waiting | .leaving => true
  | .unused | .returned => false

structure Conn where
  calls : ID → Stage
  /-- the slot of a call's channel holds a response -/
  full : ID → Bool
  /-- the channel that `deliverResponse` sends to -/
  reader : Option ID

inductive ConnEvent
  /-- `seq` gives every call an ID of its own -/
  | call (id : ID)
  | written (id : ID)
  | writeFailed (id : ID)
  /-- the `select` takes the response -/
  | receive (id : ID)
  /-- the context is done, or the connection closed -/
  | abandon (id : ID)
  /-- the deferred removal -/
  | remove (id : ID)
  /-- `Serve` reads a response and looks its channel up -/
  | response (id : ID)
  | send
deriving DecidableEq

def Conn.setCall (s : Conn) (id : ID) (stage : Stage) : Conn := ⟨Function.update s.calls id stage, s.full, s.reader⟩

def Conn.enabled (s : Conn) : ConnEvent → Bool
  | .call id => s.calls id = .unused
  | .written id | .writeFailed id => s.calls id = .writing
  | .receive id => s.calls id = .waiting && s.full id
  | .abandon id => s.calls id = .waiting
  | .remove id => s.calls id = .leaving
  | .response _ => s.reader.isNone
  | .send => s.reader.any fun id => !s.full id

def Conn.next (s : Conn) : ConnEvent → Conn
  | .call id => s.setCall id .writing
  | .written id => s.setCall id .waiting
  | .writeFailed id | .abandon id => s.setCall id .leaving
  | .receive id => ⟨Function.update s.calls id .leaving, Function.update s.full id false, s.reader⟩
  | .remove id => s.setCall id .returned
  | .response id => ⟨s.calls, s.full, if (s.calls id).pending then some id else none⟩
  | .send => ⟨s.calls, s.reader.elim s.full fun id => Function.update s.full id true, none⟩

/-- A connection, with every interleaving of its calls and its reader. -/
def connection : System Conn ConnEvent where
  init := ⟨fun _ => .unused, fun _ => false, none⟩
  ok _ s e := s.enabled e = true
  next := Conn.next

/-- The reader waits for room in the channel of a call that takes nothing from it any more. -/
def Conn.Stuck (s : Conn) : Prop :=
  ∃ id, s.reader = some id ∧ s.full id = true ∧ (s.calls id = .leaving ∨ s.calls id = .returned)

end BatchWeaver.Lsp
