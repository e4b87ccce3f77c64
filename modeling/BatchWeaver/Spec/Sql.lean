import Mathlib.Data.Int.Init
import BatchWeaver.Spec.Strings

/-!
# Exact-key SELECT: tokenizer and parser

`internal/adapter/sqlparse.go`. The tokenizer walks over the bytes of the text; here it is a recursion on
what is left, and the offset of a token is the length that was read. A parser function takes the tokens
that are left and returns what it read and the tokens after it, or a rejection.
-/

namespace BatchWeaver.Sql

/-- The byte of an ASCII character. -/
def ch (c : Char) : UInt8 := UInt8.ofNat c.toNat

structure Rejection where
  code : GoString
  reason : GoString
  node : GoString
  offset : ℕ := 0
  deriving DecidableEq

def codeSQLUnsupported : GoString := str "BW6102"

def codeSQLVolatile : GoString := str "BW6103"

def codeParamAmbiguous : GoString := str "BW6104"

def codeProjectionAmbiguous : GoString := str "BW6105"

def codeJoinUnsupported : GoString := str "BW6107"

/-! ## Parsed queries -/

structure Column where
  table : GoString := []
  name : GoString
  aliasName : GoString := []
  deriving DecidableEq

structure Relation where
  name : GoString
  aliasName : GoString := []
  deriving DecidableEq

structure KeyPredicate where
  column : Column
  param : ℤ
  deriving DecidableEq

inductive JoinKind where
  | inner
  | left
  deriving DecidableEq

structure Join where
  kind : JoinKind
  relation : Relation
  left : Column
  right : Column
  deriving DecidableEq

structure ParsedQuery where
  projection : List Column
  relation : Relation
  join : Option Join
  keys : List KeyPredicate
  keyColumn : Column
  keyParam : ℤ
  extra : List GoString
  deriving DecidableEq

/-- How a relation is referred to: by its alias if it has one. -/
def Relation.ref (r : Relation) : GoString := if r.aliasName ≠ [] then r.aliasName else r.name

def columnSQL (c : Column) : GoString := if c.table ≠ [] then c.table ++ str "." ++ c.name else c.name

/-! ## Tokens -/

inductive TokenKind where
  | eof
  | ident
  | keyword
  | punct
  | param
  | number
  | string
  | star
  deriving DecidableEq

structure Token where
  kind : TokenKind
  text : GoString := []
  up : GoString := []
  off : ℕ

def keywords : List GoString :=
  [str "SELECT", str "FROM", str "WHERE", str "AND", str "AS", str "IS", str "NOT", str "NULL", str "JOIN",
    str "INNER", str "LEFT", str "OUTER", str "RIGHT", str "FULL", str "CROSS", str "GROUP", str "ORDER",
    str "BY", str "LIMIT", str "OFFSET", str "UNION", str "INTERSECT", str "EXCEPT", str "HAVING",
    str "WINDOW", str "DISTINCT", str "FOR", str "WITH", str "INSERT", str "UPDATE", str "DELETE",
    str "MERGE", str "OR", str "ON", str "USING", str "IN", str "LATERAL", str "RETURNING"]

/-- Keywords that are rejected wherever they appear, with what they stand for. -/
def unsupportedKeywords : List (GoString × GoString) :=
  [(str "RIGHT", str "right joins"), (str "FULL", str "full joins"), (str "CROSS", str "cross joins"),
    (str "GROUP", str "GROUP BY"), (str "ORDER", str "ORDER BY"), (str "LIMIT", str "LIMIT"),
    (str "OFFSET", str "OFFSET"), (str "UNION", str "set operations"),
    (str "INTERSECT", str "set operations"), (str "EXCEPT", str "set operations"),
    (str "HAVING", str "HAVING"), (str "WINDOW", str "window functions"), (str "DISTINCT", str "DISTINCT"),
    (str "FOR", str "locking clauses"), (str "WITH", str "CTEs"), (str "OR", str "OR predicates"),
    (str "IN", str "IN predicates"), (str "INSERT", str "writes"), (str "UPDATE", str "writes"),
    (str "DELETE", str "writes"), (str "MERGE", str "writes"), (str "USING", str "USING joins"),
    (str "LATERAL", str "lateral joins"), (str "RETURNING", str "RETURNING")]

section

variable (c : UInt8)

def isIdentStart : Bool := c = ch '_' || isLower c || isUpper c

def isIdentPart : Bool := isIdentStart c || isDigit c

def isBlank : Bool := c = ch ' ' || c = 9 || c = 10 || c = 13

def isPunctByte : Bool :=
  c = ch ',' || c = ch '.' || c = ch '(' || c = ch ')' || c = ch '=' || c = ch ';'

/-- What follows a block comment; an open one takes the rest of the text. -/
def skipBlock : GoString → GoString
  | a :: b :: rest => if a = ch '*' ∧ b = ch '/' then rest else skipBlock (b :: rest)
  | _ => []

/-- `strings.Trim` of double quotes -/
def trimQuotes (s : GoString) : GoString :=
  ((s.dropWhile (fun c => c = ch '"')).reverse.dropWhile fun c => c = ch '"').reverse

/-- The text of a quoted identifier that starts with the quote `c`; an open one takes what is left. -/
def quotedText (rest : GoString) : GoString :=
  trimQuotes (c :: rest.takeWhile (fun b => b ≠ ch '"') ++ (rest.dropWhile fun b => b ≠ ch '"').take 1)

/-- `string(c)` of a byte: the UTF-8 encoding of the code point. -/
def byteString : GoString := if c < 128 then [c] else [(192 : UInt8) ||| (c >>> 6), (128 : UInt8) ||| (c &&& 63)]

end

lemma skipBlock_length (s : GoString) : (skipBlock s).length ≤ s.length := by
  fun_induction skipBlock s with
  | case1 a b rest h =>
    simp only [List.length_cons]
    omega
  | case2 a b rest h ih =>
    simp only [List.length_cons] at ih ⊢
    omega
  | case3 s h => exact Nat.zero_le _

lemma dropWhile_length {α : Type} (p : α → Bool) (l : List α) : (l.dropWhile p).length ≤ l.length :=
  (List.dropWhile_sublist p).length_le

/-- One turn of the loop of `tokenize` at the byte `c`: the token that was read, if it is one, and what is
left of the text. -/
def lexStep (off : ℕ) (c : UInt8) (rest : GoString) : Except Rejection (Option Token × GoString) :=
  if isBlank c then .ok (none, rest)
  else if c = ch '-' ∧ rest.head? = some (ch '-') then .ok (none, rest.dropWhile fun b => b ≠ 10)
  else if c = ch '/' ∧ rest.head? = some (ch '*') then .ok (none, skipBlock (rest.drop 1))
  else if c = ch '$' then
    if rest.takeWhile isDigit = [] then
      .error ⟨codeSQLUnsupported, str "unsupported placeholder syntax", str "$", off⟩
    else
      .ok (some { kind := .param, text := c :: rest.takeWhile isDigit, off := off }, rest.dropWhile isDigit)
  else if c = ch '*' then .ok (some { kind := .star, text := str "*", off := off }, rest)
  else if isPunctByte c then .ok (some { kind := .punct, text := [c], off := off }, rest)
  else if c = ch '\'' then
    let after := rest.dropWhile fun b => b ≠ ch '\''
    .ok (some { kind := .string, text := c :: rest.takeWhile (fun b => b ≠ ch '\'') ++ after.take 1, off := off },
      after.drop 1)
  else if c = ch '"' then
    .ok (some { kind := .ident, text := quotedText c rest, off := off },
      (rest.dropWhile fun b => b ≠ ch '"').drop 1)
  else if isIdentStart c then
    let word := c :: rest.takeWhile isIdentPart
    .ok (some (if toUpper word ∈ keywords then
        { kind := .keyword, text := word, up := toUpper word, off := off }
      else { kind := .ident, text := word, off := off }), rest.dropWhile isIdentPart)
  else if isDigit c then
    .ok (some { kind := .number, off := off, text := c :: rest.takeWhile fun b => isDigit b || b = ch '.' },
      rest.dropWhile fun b => isDigit b || b = ch '.')
  else .error ⟨codeSQLUnsupported, str "unrecognized character", byteString c, off⟩

lemma drop_dropWhile_length {α : Type} (p : α → Bool) (l : List α) :
    ((l.dropWhile p).drop 1).length ≤ l.length := by
  have := dropWhile_length p l
  rw [List.length_drop]
  omega

lemma skipBlock_drop_length (l : GoString) : (skipBlock (l.drop 1)).length ≤ l.length := by
  have := skipBlock_length (l.drop 1)
  rw [List.length_drop] at this
  omega

/-- The cases of one turn, with the condition under which each is reached. -/
inductive LexStep (off : ℕ) (c : UInt8) (rest : GoString) : Except Rejection (Option Token × GoString) → Prop
  | blank (h : isBlank c = true) : LexStep off c rest (.ok (none, rest))
  | line (h : c = ch '-' ∧ rest.head? = some (ch '-')) :
      LexStep off c rest (.ok (none, rest.dropWhile fun b => b ≠ 10))
  | block (h : c = ch '/' ∧ rest.head? = some (ch '*')) :
      LexStep off c rest (.ok (none, skipBlock (rest.drop 1)))
  | dollar (rej : Rejection) (hc : c = ch '$') (h : rest.takeWhile isDigit = []) :
      LexStep off c rest (.error rej)
  | param (hc : c = ch '$') (h : rest.takeWhile isDigit ≠ []) :
      LexStep off c rest (.ok (some { kind := .param, text := c :: rest.takeWhile isDigit, off := off },
        rest.dropWhile isDigit))
  | star (hc : c = ch '*') : LexStep off c rest (.ok (some { kind := .star, text := str "*", off := off }, rest))
  | punct (h : isPunctByte c = true) :
      LexStep off c rest (.ok (some { kind := .punct, text := [c], off := off }, rest))
  | string (text : GoString) (hc : c = ch '\'') :
      LexStep off c rest (.ok (some { kind := .string, text := text, off := off },
        (rest.dropWhile fun b => b ≠ ch '\'').drop 1))
  | quoted (hc : c = ch '"') :
      LexStep off c rest (.ok (some { kind := .ident, text := quotedText c rest, off := off },
        (rest.dropWhile fun b => b ≠ ch '"').drop 1))
  | keyword (h : isIdentStart c = true) (hk : toUpper (c :: rest.takeWhile isIdentPart) ∈ keywords) :
      LexStep off c rest (.ok (some { kind := .keyword, text := c :: rest.takeWhile isIdentPart,
                                      up := toUpper (c :: rest.takeWhile isIdentPart), off := off },
        rest.dropWhile isIdentPart))
  | word (h : isIdentStart c = true) (hk : toUpper (c :: rest.takeWhile isIdentPart) ∉ keywords) :
      LexStep off c rest (.ok (some { kind := .ident, text := c :: rest.takeWhile isIdentPart, off := off },
        rest.dropWhile isIdentPart))
  | number (text : GoString) (h : isDigit c = true) :
      LexStep off c rest (.ok (some { kind := .number, text := text, off := off },
        rest.dropWhile fun b => isDigit b || b = ch '.'))
  | other (rej : Rejection) (hb : ¬isBlank c = true) (hl : ¬(c = ch '-' ∧ rest.head? = some (ch '-')))
      (hk : ¬(c = ch '/' ∧ rest.head? = some (ch '*'))) (hd : c ≠ ch '$') (hs : c ≠ ch '*')
      (hp : ¬isPunctByte c = true) (hq : c ≠ ch '\'') (hqq : c ≠ ch '"') (hi : ¬isIdentStart c = true)
      (hn : ¬isDigit c = true) : LexStep off c rest (.error rej)

lemma lexStep_spec (off : ℕ) (c : UInt8) (rest : GoString) : LexStep off c rest (lexStep off c rest) := by
  unfold lexStep
  by_cases h1 : isBlank c = true
  · rw [if_pos h1]
    exact .blank h1
  rw [if_neg h1]
  by_cases h2 : c = ch '-' ∧ rest.head? = some (ch '-')
  · rw [if_pos h2]
    exact .line h2
  rw [if_neg h2]
  by_cases h3 : c = ch '/' ∧ rest.head? = some (ch '*')
  · rw [if_pos h3]
    exact .block h3
  rw [if_neg h3]
  by_cases h4 : c = ch '$'
  · rw [if_pos h4]
    by_cases h5 : rest.takeWhile isDigit = []
    · rw [if_pos h5]
      exact .dollar _ h4 h5
    · rw [if_neg h5]
      exact .param h4 h5
  rw [if_neg h4]
  by_cases h5 : c = ch '*'
  · rw [if_pos h5]
    exact .star h5
  rw [if_neg h5]
  by_cases h6 : isPunctByte c = true
  · rw [if_pos h6]
    exact .punct h6
  rw [if_neg h6]
  by_cases h7 : c = ch '\''
  · rw [if_pos h7]
    exact .string _ h7
  rw [if_neg h7]
  by_cases h8 : c = ch '"'
  · rw [if_pos h8]
    exact .quoted h8
  rw [if_neg h8]
  by_cases h9 : isIdentStart c = true
  · rw [if_pos h9]
    by_cases h10 : toUpper (c :: rest.takeWhile isIdentPart) ∈ keywords
    · simp only [if_pos h10]
      exact .keyword h9 h10
    · simp only [if_neg h10]
      exact .word h9 h10
  rw [if_neg h9]
  by_cases h10 : isDigit c = true
  · rw [if_pos h10]
    exact .number _ h10
  rw [if_neg h10]
  exact .other _ h1 h2 h3 h4 h5 h6 h7 h8 h9 h10

lemma lexStep_length {off : ℕ} {c : UInt8} {rest rest' : GoString} {t : Option Token}
    (h : lexStep off c rest = .ok (t, rest')) : rest'.length ≤ rest.length := by
  have hspec := lexStep_spec off c rest
  rw [h] at hspec
  cases hspec with
  | blank | star | punct => exact le_rfl
  | line | param | keyword | word | number => exact dropWhile_length _ _
  | block => exact skipBlock_drop_length _
  | string | quoted => exact drop_dropWhile_length _ _

/-- The loop of `tokenize` over a text of `n` bytes, with `sql` what is left of it. -/
def tokenizeFrom (n : ℕ) (sql : GoString) : Except Rejection (List Token) :=
  match sql with
  | [] => .ok [{ kind := .eof, off := n }]
  | c :: rest =>
    match _hstep : lexStep (n - (rest.length + 1)) c rest with
    | .error rej => .error rej
    | .ok (t, rest') => (tokenizeFrom n rest').map fun ts => t.toList ++ ts
termination_by sql.length
decreasing_by
  have := lexStep_length _hstep
  simp only [List.length_cons]
  omega

def tokenize (sql : GoString) : Except Rejection (List Token) := tokenizeFrom sql.length sql

/-! ## The parser -/

/-- `cur`; a token list ends with the end of the text. -/
def cur (ts : List Token) : Token := ts.headD { kind := .eof, off := 0 }

def Token.isPunct (t : Token) (s : GoString) : Bool := t.kind = .punct && t.text = s

/-- A rejection at the current token. -/
def rejectAt (code reason : GoString) (ts : List Token) : Rejection := ⟨code, reason, (cur ts).text, (cur ts).off⟩

/-- The end of `parseColumn`: no call, and an alias where one is allowed. -/
def finishColumn (allowAlias : Bool) (first : GoString) (col : Column) (ts : List Token) :
    Except Rejection (Column × List Token) :=
  if (cur ts).isPunct (str "(") then
    .error ⟨codeSQLVolatile,
      str "function calls are not supported (potential volatile or statement-level semantics)", first,
      (cur ts).off⟩
  else if allowAlias then
    if (cur ts).up = str "AS" then
      if (cur ts.tail).kind = .ident then .ok ({ col with aliasName := (cur ts.tail).text }, ts.tail.tail)
      else .ok (col, ts.tail)
    else if (cur ts).kind = .ident then .ok ({ col with aliasName := (cur ts).text }, ts.tail)
    else .ok (col, ts)
  else .ok (col, ts)

def parseColumn (allowAlias : Bool) (ts : List Token) : Except Rejection (Column × List Token) :=
  if (cur ts).kind ≠ .ident then
    .error (rejectAt codeSQLUnsupported (str "expected a column reference") ts)
  else
    let first := (cur ts).text
    if (cur ts.tail).isPunct (str ".") then
      if (cur ts.tail.tail).kind ≠ .ident then
        .error (rejectAt codeSQLUnsupported (str "expected a column name after '.'") ts.tail.tail)
      else finishColumn allowAlias first { table := first, name := (cur ts.tail.tail).text } ts.tail.tail.tail
    else finishColumn allowAlias first { name := first } ts.tail

variable {ts ts' : List Token}

variable {allowAlias : Bool} {col : Column}

lemma finishColumn_length {first : GoString} {col' : Column}
    (h : finishColumn allowAlias first col ts = .ok (col', ts')) : ts'.length ≤ ts.length := by
  unfold finishColumn at h
  split at h
  · exact nomatch h
  split at h
  · split at h
    · split at h
      · injection h with h
        rw [← (Prod.mk.inj h).2]
        simp only [List.length_tail]
        omega
      · injection h with h
        rw [← (Prod.mk.inj h).2, List.length_tail]
        omega
    · split at h
      · injection h with h
        rw [← (Prod.mk.inj h).2, List.length_tail]
        omega
      · injection h with h
        rw [← (Prod.mk.inj h).2]
  · injection h with h
    rw [← (Prod.mk.inj h).2]

/-- A column takes at least one token. -/
lemma parseColumn_length (h : parseColumn allowAlias ts = .ok (col, ts')) :
    ts'.length < ts.length := by
  unfold parseColumn at h
  split at h
  · exact nomatch h
  rename_i hident
  have hne : ts ≠ [] := by
    rintro rfl
    exact hident (by decide)
  have hpos := List.length_pos_iff.2 hne
  split at h
  · split at h
    · exact nomatch h
    · have := finishColumn_length h
      simp only [List.length_tail] at this
      omega
  · have := finishColumn_length h
    simp only [List.length_tail] at this
    omega

/-- The loop over the projection. -/
def parseProjection (ts : List Token) : Except Rejection (List Column × List Token) :=
  if (cur ts).kind = .star then
    .error ⟨codeProjectionAmbiguous, str "SELECT * is not supported for synthesis; list explicit columns",
      str "*", (cur ts).off⟩
  else
    match _hcol : parseColumn true ts with
    | .error rej => .error rej
    | .ok (col, rest) =>
      if (cur rest).isPunct (str ",") then
        match parseProjection rest.tail with
        | .error rej => .error rej
        | .ok (cols, rest') => .ok (col :: cols, rest')
      else .ok ([col], rest)
termination_by ts.length
decreasing_by
  have := parseColumn_length _hcol
  simp only [List.length_tail]
  omega

/-- A relation and its alias; `AS` may stand before the alias. -/
def parseRelation (code reason : GoString) (ts : List Token) : Except Rejection (Relation × List Token) :=
  if (cur ts).kind ≠ .ident then .error (rejectAt code reason ts)
  else
    let rest := if (cur ts.tail).up = str "AS" then ts.tail.tail else ts.tail
    if (cur rest).kind = .ident then .ok ({ name := (cur ts).text, aliasName := (cur rest).text }, rest.tail)
    else .ok ({ name := (cur ts).text }, rest)

/-- The words of a join: what it is, and the tokens after `JOIN`. -/
def parseJoinWords (ts : List Token) : Except Rejection (JoinKind × List Token) :=
  if (cur ts).up = str "LEFT" then
    let rest := if (cur ts.tail).up = str "OUTER" then ts.tail.tail else ts.tail
    if (cur rest).up ≠ str "JOIN" then
      .error (rejectAt codeJoinUnsupported (str "LEFT must be followed by JOIN") rest)
    else .ok (.left, rest.tail)
  else
    let rest := if (cur ts).up = str "INNER" then ts.tail else ts
    if (cur rest).up ≠ str "JOIN" then
      .error (rejectAt codeJoinUnsupported (str "INNER must be followed by JOIN") rest)
    else .ok (.inner, rest.tail)

/-- The equality of a join connects one qualified column of each relation. -/
def connects (baseRef joinRef : GoString) (left right : Column) : Bool :=
  left.table ≠ [] && right.table ≠ [] &&
    (left.table = baseRef && right.table = joinRef || left.table = joinRef && right.table = baseRef)

def parseJoin (baseRef : GoString) (ts : List Token) : Except Rejection (Join × List Token) :=
  match parseJoinWords ts with
  | .error rej => .error rej
  | .ok (kind, ts₁) =>
    match parseRelation codeJoinUnsupported (str "expected joined relation") ts₁ with
    | .error rej => .error rej
    | .ok (rel, ts₂) =>
      if rel.ref = baseRef then
        .error ⟨codeJoinUnsupported, str "base and joined relation references must be distinct", rel.ref, 0⟩
      else if (cur ts₂).up ≠ str "ON" then
        .error (rejectAt codeJoinUnsupported (str "join requires one ON equality") ts₂)
      else
        match parseColumn false ts₂.tail with
        | .error rej => .error rej
        | .ok (left, ts₃) =>
          if !(cur ts₃).isPunct (str "=") then
            .error (rejectAt codeJoinUnsupported (str "join condition must be a column equality") ts₃)
          else
            match parseColumn false ts₃.tail with
            | .error rej => .error rej
            | .ok (right, ts₄) =>
              if !connects baseRef rel.ref left right then
                .error ⟨codeJoinUnsupported,
                  str "join equality must connect one qualified column from each relation",
                  columnSQL left ++ str "=" ++ columnSQL right, 0⟩
              else .ok (⟨kind, rel, left, right⟩, ts₄)

/-- `paramNumber`: the digits in the 64-bit `int` of Go. -/
def paramNumber (text : GoString) : ℤ :=
  (text.drop 1).foldl (fun n c => Int.bmod (n * 10 + ((c.toNat : ℤ) - 48)) (2 ^ 64)) 0

def queryRelationRef (q : ParsedQuery) (ref : GoString) : Bool :=
  ref = q.relation.ref || q.join.any fun j => ref = j.relation.ref

/-- The text of a filter. -/
def filterSQL (c : Column) (neg : Bool) : GoString :=
  columnSQL c ++ str " IS " ++ (if neg then str "NOT " else []) ++ str "NULL"

/-- The end of a filter. -/
def parseNull (neg : Bool) (ts : List Token) : Except Rejection (Bool × List Token) :=
  if (cur ts).up ≠ str "NULL" then .error (rejectAt codeSQLUnsupported (str "expected NULL") ts)
  else .ok (neg, ts.tail)

/-- What follows the column of a filter: `IS [NOT] NULL`. -/
def parseFilter (predOff : ℕ) (ts : List Token) : Except Rejection (Bool × List Token) :=
  if (cur ts).up ≠ str "IS" then
    .error ⟨codeSQLUnsupported, str "predicates must be key equalities or 'IS [NOT] NULL' filters",
      (cur ts).text, predOff⟩
  else if (cur ts.tail).up = str "NOT" then parseNull true ts.tail.tail
  else parseNull false ts.tail

/-- One predicate, added to the keys or the filters of the query. -/
def parsePredicate (q : ParsedQuery) (ts : List Token) : Except Rejection (ParsedQuery × List Token) :=
  match parseColumn false ts with
  | .error rej => .error rej
  | .ok (ec, rest) =>
    if (cur rest).isPunct (str "=") then
      if (cur rest.tail).kind ≠ .param then
        .error (rejectAt codeParamAmbiguous (str "each key component must compare to a bound parameter") rest.tail)
      else
        .ok ({ q with keys := q.keys ++ [⟨ec, paramNumber (cur rest.tail).text⟩] }, rest.tail.tail)
    else if q.join.isSome ∧ ec.table = [] then
      .error ⟨codeProjectionAmbiguous, str "joined filters must qualify every column", ec.name, (cur ts).off⟩
    else if q.join.isSome ∧ queryRelationRef q ec.table = false then
      .error ⟨codeJoinUnsupported, str "filter references a relation outside the bounded join",
        columnSQL ec, (cur ts).off⟩
    else
      match parseFilter (cur ts).off rest with
      | .error rej => .error rej
      | .ok (neg, rest') => .ok ({ q with extra := q.extra ++ [filterSQL ec neg] }, rest')

lemma parseNull_length {neg neg' : Bool} (h : parseNull neg ts = .ok (neg', ts')) :
    ts'.length ≤ ts.length := by
  unfold parseNull at h
  split at h
  · exact nomatch h
  · injection h with h
    rw [← (Prod.mk.inj h).2, List.length_tail]
    omega

lemma parseFilter_length {predOff : ℕ} {neg : Bool} (h : parseFilter predOff ts = .ok (neg, ts')) :
    ts'.length ≤ ts.length := by
  unfold parseFilter at h
  split at h
  · exact nomatch h
  split at h
  · have := parseNull_length h
    simp only [List.length_tail] at this
    omega
  · have := parseNull_length h
    simp only [List.length_tail] at this
    omega

/-- A predicate takes at least one token. -/
lemma parsePredicate_length {q q' : ParsedQuery} (h : parsePredicate q ts = .ok (q', ts')) :
    ts'.length < ts.length := by
  unfold parsePredicate at h
  split at h
  · exact nomatch h
  rename_i ec rest hcol
  have hlt := parseColumn_length hcol
  split at h
  · split at h
    · exact nomatch h
    · injection h with h
      rw [← (Prod.mk.inj h).2]
      simp only [List.length_tail]
      omega
  split at h
  · exact nomatch h
  split at h
  · exact nomatch h
  split at h
  · exact nomatch h
  rename_i neg rest' hfilter
  injection h with h
  rw [← (Prod.mk.inj h).2]
  have := parseFilter_length hfilter
  omega

/-- The loop over the predicates. -/
def parsePredicates (q : ParsedQuery) (ts : List Token) : Except Rejection (ParsedQuery × List Token) :=
  match _hpred : parsePredicate q ts with
  | .error rej => .error rej
  | .ok (q', rest) => if (cur rest).up ≠ str "AND" then .ok (q', rest) else parsePredicates q' rest.tail
termination_by ts.length
decreasing_by
  have := parsePredicate_length _hpred
  simp only [List.length_tail]
  omega

/-- `fmt.Sprintf("$%d", n)` -/
def placeholder (n : ℤ) : GoString :=
  str "$" ++ (if n < 0 then str "-" ++ itoa n.natAbs else itoa n.natAbs)

/-- The loop of `validateKeyPredicates`; `seen` holds the placeholders before. -/
def validateKeys (count : ℕ) (baseRef : GoString) : List ℤ → List KeyPredicate → Except Rejection Unit
  | _, [] => .ok ()
  | seen, key :: keys =>
    if key.param < 1 ∨ (count : ℤ) < key.param ∨ key.param ∈ seen then
      .error ⟨codeParamAmbiguous, str "key placeholders must be unique and contiguous from $1",
        placeholder key.param, 0⟩
    else if key.column.table ≠ [] ∧ key.column.table ≠ baseRef then
      .error ⟨codeJoinUnsupported, str "batch key columns must belong to the base relation", columnSQL key.column, 0⟩
    else validateKeys count baseRef (key.param :: seen) keys

def validateKeyPredicates (q : ParsedQuery) (baseRef : GoString) : Except Rejection Unit :=
  validateKeys q.keys.length baseRef [] q.keys

/-- The loop of `validateProjection`. -/
def validateColumns (baseRef joinRef : GoString) : List Column → Except Rejection Unit
  | [] => .ok ()
  | col :: cols =>
    if col.table = [] then
      .error ⟨codeProjectionAmbiguous, str "joined projections must qualify every column", col.name, 0⟩
    else if col.table ≠ baseRef ∧ col.table ≠ joinRef then
      .error ⟨codeProjectionAmbiguous, str "projection references a relation outside the bounded join",
        columnSQL col, 0⟩
    else validateColumns baseRef joinRef cols

def validateProjection (q : ParsedQuery) : Except Rejection Unit :=
  match q.join with
  | none => .ok ()
  | some j => validateColumns q.relation.ref j.relation.ref q.projection

/-- The end of `parseSelect`: the checks on the whole query, and the end of the text. -/
def finishSelect (q : ParsedQuery) (ts : List Token) : Except Rejection ParsedQuery :=
  match q.keys with
  | [] => .error ⟨codeParamAmbiguous, str "at least one parameterized key equality is required", str "WHERE", 0⟩
  | key :: _ =>
    match validateKeyPredicates q q.relation.ref with
    | .error rej => .error rej
    | .ok () =>
      match validateProjection q with
      | .error rej => .error rej
      | .ok () =>
        let rest := if (cur ts).isPunct (str ";") then ts.tail else ts
        if (cur rest).kind ≠ .eof then
          .error (rejectAt codeSQLUnsupported (str "unexpected trailing tokens or multiple statements") rest)
        else .ok { q with keyColumn := key.column, keyParam := key.param }

/-- The optional join. -/
def parseJoins (baseRef : GoString) (ts : List Token) : Except Rejection (Option Join × List Token) :=
  if (cur ts).up = str "JOIN" ∨ (cur ts).up = str "INNER" ∨ (cur ts).up = str "LEFT" then
    match parseJoin baseRef ts with
    | .error rej => .error rej
    | .ok (join, rest) => .ok (some join, rest)
  else .ok (none, ts)

def parseSelect (ts : List Token) : Except Rejection ParsedQuery :=
  if (cur ts).up ≠ str "SELECT" then
    .error (rejectAt codeSQLUnsupported (str "only SELECT queries are supported") ts)
  else
    match parseProjection ts.tail with
    | .error rej => .error rej
    | .ok (projection, ts₁) =>
      if (cur ts₁).up ≠ str "FROM" then .error (rejectAt codeSQLUnsupported (str "expected FROM") ts₁)
      else
        match parseRelation codeSQLUnsupported (str "expected a table name") ts₁.tail with
        | .error rej => .error rej
        | .ok (relation, ts₂) =>
          if (cur ts₂).isPunct (str ",") then
            .error ⟨codeSQLUnsupported, str "multiple relations are not supported", str ",", (cur ts₂).off⟩
          else
            match parseJoins relation.ref ts₂ with
            | .error rej => .error rej
            | .ok (join, ts₃) =>
              if (cur ts₃).up ≠ str "WHERE" then
                .error (rejectAt codeSQLUnsupported (str "an exact-key WHERE clause is required") ts₃)
              else
                match parsePredicates ⟨projection, relation, join, [], { name := [] }, 0, []⟩ ts₃.tail with
                | .error rej => .error rej
                | .ok (q, ts₄) => finishSelect q ts₄

/-- The first keyword that is rejected anywhere. -/
def unsupportedKeyword (ts : List Token) : Option Rejection :=
  ts.findSome? fun t =>
    if t.kind = .keyword then
      (unsupportedKeywords.find? fun e => e.1 = t.up).map fun e =>
        ⟨codeSQLUnsupported, str "unsupported clause: " ++ e.2, t.text, t.off⟩
    else none

def parseExactKeySelect (sql : GoString) : Except Rejection ParsedQuery :=
  match tokenize sql with
  | .error rej => .error rej
  | .ok ts =>
    match unsupportedKeyword ts with
    | some rej => .error rej
    | none => parseSelect ts

end BatchWeaver.Sql
