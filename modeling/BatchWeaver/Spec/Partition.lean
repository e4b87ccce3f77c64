import BatchWeaver.Lib.Varint
import BatchWeaver.Spec.Coordinator

/-!
# Partitions

The constructors of `Partition`. A composite partition is a tag followed by its components, each
with its length in front. Lengths are `int`s: a Go string or slice has less than `2 ^ 63` bytes, which
`Bytes` carries. The process-wide hash that a partition keeps beside its encoding is a function of
the encoding and is left out.
-/

namespace BatchWeaver

def tagSingle : UInt8 := 0x01

def tagComposite : UInt8 := 0x02

/-- The contents of a Go string or byte slice. -/
@[ext]
structure Bytes where
  data : List UInt8
  short : data.length < 2 ^ 63

/-- A string component. -/
@[ext]
structure StringValue where
  bytes : Bytes

/-- A byte-slice component, as far as it is read. -/
@[ext]
structure SliceValue where
  bytes : Bytes

/-- The conversion `string(b)`. -/
def SliceValue.toString (b : SliceValue) : StringValue := ⟨b.bytes⟩

/-- `binary.PutUvarint` -/
def putUvarint (x : UInt64) : List UInt8 := Varint.encode x.toNat

def newPartition (encoded : GoString) : Partition := ⟨encoded⟩

/-- The loop of the two constructors, over what the builder holds. -/
def writeComponents (b : GoString) (values : List Bytes) : GoString :=
  values.foldl (fun b v => b ++ putUvarint (UInt64.ofNat v.data.length) ++ v.data) b

def partitionFromStrings (values : List StringValue) : Partition :=
  newPartition (writeComponents [tagComposite] (values.map StringValue.bytes))

def partitionFromBytes (values : List SliceValue) : Partition :=
  newPartition (writeComponents [tagComposite] (values.map SliceValue.bytes))

def singlePartition : Partition := newPartition [tagSingle]

/-- The zero value of the type. -/
def Partition.zero : Partition := ⟨[]⟩

def Partition.isZero (p : Partition) : Bool := decide (p.encoded = [])

end BatchWeaver
