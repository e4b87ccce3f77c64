import BatchWeaver.Spec.Coordinator

/-!
# Memo tables

`memo.go`: the results of one scope, found by partition and key. Records are evicted in the
order they were stored. A record is shared by its bucket and the eviction order, so it has an
address here, and `evictOldest` looks for the address.

The hash of a partition is a hash of its encoding with a seed of the process: any function of
the encoding.
-/

namespace BatchWeaver

variable {K V E : Type}

/-- A bound operation's configuration as far as `Do` reads it beside the coordinator's. -/
structure OpConfig (K : Type) extends BindingConfig K where
  /-- there is a scalar fallback -/
  hasFallback : Bool
  requireScope : Bool
  memoEnabled : Bool
  memoNegative : Bool
  memoMaxItems : ℤ
  memoMaxBytes : ℤ
  /-- `keys.EstimateBytes` -/
  estimateBytes : K → ℤ
  /-- `newPartition(encoded).hash` -/
  partitionEncodedHash : GoString → UInt64

/-- One memoized result. -/
structure MemoRecord (K V : Type) where
  addr : ℕ
  part : GoString
  key : K
  value : V
  found : Bool
  bytes : ℤ

structure MemoTable (K V : Type) where
  byHash : Table UInt64 (List (MemoRecord K V))
  order : List (MemoRecord K V)
  bytes : ℤ
  /-- the address of the next record -/
  nextAddr : ℕ

namespace MemoTable

variable (cfg : OpConfig K) (t : MemoTable K V)

def empty : MemoTable K V := { byHash := ∅, order := [], bytes := 0, nextAddr := 0 }

def hashOf (part : Partition) (key : K) : UInt64 :=
  cfg.partitionEncodedHash part.encoded ^^^ cfg.keys.hash key

def bucket (h : UInt64) : List (MemoRecord K V) := (t.byHash.lookup h).getD []

/-- The record of a partition and key. -/
def find? (part : Partition) (key : K) : Option (MemoRecord K V) :=
  (t.bucket (hashOf cfg part key)).find? fun r => r.part == part.encoded && cfg.keys.equal r.key key

def get (part : Partition) (key : K) : Option (Result V E) :=
  (t.find? cfg part key).map fun r => { value := r.value, err := none, found := r.found }

def bucketKeyFor (r : MemoRecord K V) : UInt64 :=
  cfg.partitionEncodedHash r.part ^^^ cfg.keys.hash r.key

def evictOldest : MemoTable K V :=
  match t.order with
  | [] => t
  | old :: rest =>
    let h := bucketKeyFor cfg old
    let bucket := (t.bucket h).eraseP fun r => r.addr == old.addr
    { t with
      order := rest
      bytes := wrap64 (t.bytes - old.bytes)
      byHash := if bucket.length = 0 then t.byHash.erase h else t.byHash.insert h bucket }

/-- A limit is exceeded. -/
def exceeded : Bool :=
  decide (cfg.memoMaxItems < t.order.length ∨ 0 < cfg.memoMaxBytes ∧ cfg.memoMaxBytes < t.bytes)

/-- The loop at the end of `put`; every turn takes a record out of the order. -/
def evictLoop : ℕ → MemoTable K V → MemoTable K V
  | 0, t => t
  | n + 1, t =>
    if t.exceeded cfg then if t.order.length = 0 then t else evictLoop n (t.evictOldest cfg) else t

def put (part : Partition) (key : K) (value : V) (found : Bool) : MemoTable K V :=
  match t.find? cfg part key with
  | some _ => t
  | none =>
    let h := hashOf cfg part key
    let record : MemoRecord K V :=
      { addr := t.nextAddr, part := part.encoded, key := key, value := value, found := found,
        bytes := cfg.estimateBytes key }
    let t := { t with
      byHash := t.byHash.insert h (t.bucket h ++ [record])
      order := t.order ++ [record]
      bytes := wrap64 (t.bytes + record.bytes)
      nextAddr := t.nextAddr + 1 }
    evictLoop cfg t.order.length t

end MemoTable

end BatchWeaver
