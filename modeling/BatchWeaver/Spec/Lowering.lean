import BatchWeaver.Spec.Strings

/-!
# Lowering

The names that `internal/transform` gives the bridge of an operation. The identifiers of operations are ASCII text, so
runes are bytes.
-/

namespace BatchWeaver.Transform

def isAlnum (c : UInt8) : Bool := isLower c || isUpper c || isDigit c

/-- The loop of `bridgeVarName`. -/
def bridgeWords : Bool → GoString → GoString
  | _, [] => []
  | capNext, c :: rest =>
    if !isAlnum c then bridgeWords true rest
    else (if capNext then upperByte c else c) :: bridgeWords false rest

def bridgeVarName (op : GoString) : GoString := str "bwop" ++ bridgeWords true op

def bridgeFileName (op : GoString) : GoString :=
  str "zz_batchweaver_" ++ op.map (fun c => if isAlnum c then lowerByte c else 95) ++ str "_gen.go"

end BatchWeaver.Transform
