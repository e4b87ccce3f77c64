import BatchWeaver.Lib.Table
import BatchWeaver.Spec.Strings

/-!
# Partitions from gRPC metadata

`MetadataPartition` of `adapters/grpcgo`. Outgoing metadata is a map from keys to lists of values;
`metadata.FromOutgoingContext` returns it with lower-case keys, which `Metadata` carries. The overrides
are a Go map as well, given here in the order in which the loop over it meets the entries.
-/

namespace BatchWeaver.Grpc

variable (H : Sha256)

/-- A `MetadataPolicy`: one of the three constants or any other string. -/
inductive MetadataPolicy where
  | partition
  | mergeable
  | forbidden
  | other (text : GoString)
  deriving DecidableEq

/-- `metadata.MD` as it comes from a context. -/
structure Metadata where
  entries : Table GoString (List GoString)
  lower : ∀ k ∈ entries.keys, toLower k = k

def Metadata.empty : Metadata := ⟨∅, nofun⟩

/-- `md.Get` -/
def Metadata.get (md : Metadata) (key : GoString) : List GoString :=
  (md.entries.lookup (toLower key)).getD []

def defaultMetadataPolicy (key : GoString) : MetadataPolicy :=
  let key := toLower key
  if key = str "traceparent" ∨ key = str "tracestate" ∨ key = str "grpc-trace-bin" ∨
      hasPrefix key (str "x-b3-") = true then .mergeable
  else .partition

inductive MetadataError where
  | forbidden (key : GoString)
  | invalidPolicy (policy key : GoString)
  deriving DecidableEq

def MetadataError.error : MetadataError → GoString
  | .forbidden key => str "batchweaver grpcgo: forbidden metadata: " ++ key
  | .invalidPolicy policy key =>
    str "batchweaver grpcgo: invalid metadata policy \"" ++ policy ++ str "\" for " ++ key

/-- The overrides under lower-case keys; a later entry replaces an earlier one. -/
def policies (overrides : List (GoString × MetadataPolicy)) : Table GoString MetadataPolicy :=
  overrides.foldl (fun m o => m.insert (toLower o.1) o.2) ∅

/-- The policy of a key. -/
def policyOf (overrides : List (GoString × MetadataPolicy)) (key : GoString) : MetadataPolicy :=
  ((policies overrides).lookup key).getD (defaultMetadataPolicy key)

/-- The loop over the sorted keys, with what was written to the hash. -/
def writeKeys (overrides : List (GoString × MetadataPolicy)) (md : Metadata) :
    List GoString → GoString → Except MetadataError GoString
  | [], written => .ok written
  | key :: keys, written =>
    match policyOf overrides key with
    | .mergeable => writeKeys overrides md keys written
    | .forbidden => .error (.forbidden key)
    | .other policy => .error (.invalidPolicy policy key)
    | .partition =>
      writeKeys overrides md keys (written ++ key ++ [0] ++ (md.get key).flatMap fun v => v ++ [0])

def metadataPartition (md : Option Metadata) (overrides : List (GoString × MetadataPolicy)) :
    Except MetadataError GoString :=
  match md with
  | none => .ok (str "grpc-metadata:none")
  | some md =>
    if md.entries.keys.length = 0 then .ok (str "grpc-metadata:none")
    else
      (writeKeys overrides md (sortStrings (md.entries.keys.map toLower)) []).map fun written =>
        str "grpc-metadata:sha256:" ++ hexEncode (H.sum written)

end BatchWeaver.Grpc
