import BatchWeaver.Spec.Sql

/-!
# Synthesis of the batch query

`SynthesizeExactKey` (`internal/adapter/sqlsynth.go`): the text of a batch query for an exact-key select,
and the plan around it. The numbers of Go's `int` are integers; nothing here comes near their limits but
the limits of the caller, which are only compared.
-/

namespace BatchWeaver.Sql

variable (H : Sha256)

def codeCardinalityUnsupported : GoString := str "BW6106"

def codeParamLimitExceeded : GoString := str "BW6202"

def contractOrderedSparseMissing : GoString := str "ordered sparse-with-missing"

def joinCardinalityAtMostOne : GoString := str "at-most-one"

structure ParameterLimits where
  maxItems : ℤ := 0
  maxParameters : ℤ := 0
  maxPayloadKB : ℤ := 0
  deriving DecidableEq

def defaultLimits : ParameterLimits := ⟨1000, 32000, 4096⟩

def normalizedLimits (l : ParameterLimits) : ParameterLimits where
  maxItems := if l.maxItems ≤ 0 then defaultLimits.maxItems else l.maxItems
  maxParameters := if l.maxParameters ≤ 0 then defaultLimits.maxParameters else l.maxParameters
  maxPayloadKB := if l.maxPayloadKB ≤ 0 then defaultLimits.maxPayloadKB else l.maxPayloadKB

structure SynthInput where
  query : ParsedQuery
  keyType : GoString := []
  keyTypes : List GoString := []
  joinCardinality : GoString := []
  limits : ParameterLimits := {}

structure SynthPlan where
  dialect : GoString
  query : GoString
  keyType : GoString
  keyTypes : List GoString
  keyParams : List ℤ
  joinContract : GoString
  limits : ParameterLimits
  projection : List Column
  contract : GoString
  missingError : GoString
  keyParam : ℤ
  columnCount : ℕ
  digest : GoString
  deriving DecidableEq

/-- One part of a type name. The source goes over runes; a byte that is not ASCII is part of a rune that is
none of the letters. -/
def safePart : GoString → Bool
  | [] => false
  | c :: rest => isIdentStart c && rest.all isIdentPart

def safeSQLType (value : GoString) : Bool := (value.splitOn (ch '.')).all safePart

def requestedKeyName (index count : ℕ) : GoString :=
  if count = 1 then str "bw_key" else str "bw_key_" ++ itoa (index + 1)

def synthPlanDigest (p : SynthPlan) : GoString :=
  str "sha256:" ++ hashParts H ([p.dialect, p.query, p.contract, p.missingError, p.joinContract,
      str "limits:" ++ formatInt p.limits.maxItems ++ str ":" ++ formatInt p.limits.maxParameters ++ str ":" ++
        formatInt p.limits.maxPayloadKB] ++
      (p.keyParams.zip p.keyTypes).map (fun k => formatInt k.1 ++ str ":" ++ k.2) ++
      p.projection.map fun col => columnSQL col ++ str ":" ++ col.aliasName)

/-- The column with the reference of the base relation, if it has no table. -/
def qualify (relRef : GoString) (c : Column) : Column := if c.table = [] then { c with table := relRef } else c

/-- A relation in the `FROM` clause. -/
def relationSQL (r : Relation) : GoString := r.name ++ (if r.aliasName ≠ [] then str " " ++ r.aliasName else [])

def joinKeyword : JoinKind → GoString
  | .inner => str "INNER JOIN"
  | .left => str "LEFT JOIN"

/-- The line of the join. -/
def joinSQL (j : Join) : GoString :=
  joinKeyword j.kind ++ str " " ++ relationSQL j.relation ++ str " ON " ++ columnSQL j.left ++ str " = " ++
    columnSQL j.right ++ str "\n"

/-- The text of the batch query. -/
def synthQuery (q : ParsedQuery) (keys : List KeyPredicate) (keyTypes : List GoString) : GoString :=
  let relRef := q.relation.ref
  let requested := (List.range keys.length).map fun i => requestedKeyName i keys.length
  str "WITH bw_requested(" ++ joinStrings requested (str ", ") ++ str ", bw_ord) AS (\n" ++
  str "\tSELECT * FROM unnest(" ++
    joinStrings ((keys.zip keyTypes).map fun k => placeholder k.1.param ++ str "::" ++ k.2 ++ str "[]")
      (str ", ") ++ str ") WITH ORDINALITY\n" ++
  str ")\n" ++
  str "SELECT bw_requested.bw_ord, " ++
    joinStrings (q.projection.map fun c => columnSQL (qualify relRef c)) (str ", ") ++ str "\n" ++
  str "FROM bw_requested\n" ++
  str "LEFT JOIN " ++ relationSQL q.relation ++ str " ON " ++ joinStrings ((keys.zip requested).map fun k =>
      columnSQL (qualify relRef k.1.column) ++ str " = bw_requested." ++ k.2) (str " AND ") ++ str "\n" ++
  (q.join.map joinSQL).getD [] ++
  (if q.extra ≠ [] then str "WHERE " ++ joinStrings q.extra (str " AND ") ++ str "\n" else []) ++
  str "ORDER BY bw_requested.bw_ord"

def synthesizeExactKey (input : SynthInput) : Except Rejection SynthPlan :=
  let q := input.query
  let keyTypes := if input.keyTypes = [] ∧ input.keyType ≠ [] then [input.keyType] else input.keyTypes
  let keys := if q.keys = [] ∧ q.keyColumn.name ≠ [] then [⟨q.keyColumn, q.keyParam⟩] else q.keys
  if keyTypes.length ≠ keys.length ∨ keyTypes = [] then
    .error ⟨codeParamAmbiguous, str "one key SQL type is required per key predicate",
      itoa keys.length ++ str " key predicates, " ++ itoa keyTypes.length ++ str " types", 0⟩
  else
    match keyTypes.zipIdx.find? fun t => !safeSQLType t.1 with
    | some t =>
      .error ⟨codeParamAmbiguous, str "key SQL type must be a qualified identifier without array suffixes", t.1, t.2⟩
    | none =>
      if q.join.isSome ∧ input.joinCardinality ≠ joinCardinalityAtMostOne then
        .error ⟨codeCardinalityUnsupported,
          str "joined synthesis requires an explicit at-most-one cardinality contract", input.joinCardinality, 0⟩
      else
        let limits := normalizedLimits input.limits
        if limits.maxParameters < keys.length then
          .error ⟨codeParamLimitExceeded, str "composite key exceeds the backend parameter limit",
            itoa keys.length ++ str " > " ++ formatInt limits.maxParameters, 0⟩
        else
          let plan : SynthPlan :=
            { dialect := str "postgres", query := synthQuery q keys keyTypes, keyType := keyTypes.headD []
              keyTypes := keyTypes
              keyParams := keys.map KeyPredicate.param
              joinContract := input.joinCardinality
              limits := limits
              projection := q.projection
              contract := contractOrderedSparseMissing
              missingError := str "sql.ErrNoRows"
              keyParam := (keys.head?.map KeyPredicate.param).getD 0
              columnCount := q.projection.length
              digest := [] }
          .ok { plan with digest := synthPlanDigest H plan }

/-- `SynthPlan.Validate`; the error is its text. -/
def SynthPlan.validate (p : SynthPlan) : Except GoString Unit :=
  if p.dialect ≠ str "postgres" ∨ p.query = [] ∨ p.contract ≠ contractOrderedSparseMissing ∨ p.keyTypes = [] ∨
      p.keyTypes.length ≠ p.keyParams.length then .error (str "invalid SQL synthesis plan contract")
  else if p.digest = [] ∨ p.digest ≠ synthPlanDigest H p then .error (str "SQL synthesis plan digest mismatch")
  else .ok ()

end BatchWeaver.Sql
