import BatchWeaver.Spec.Sql

/-!
# PostgreSQL: lexical rules and the supported grammar

What the tokenizer and the parser are meant to agree with. The lexical rules are those of PostgreSQL, as
far as they can matter to a query of the subset: whitespace, line comments, nested block comments,
quoted identifiers with doubled quotes, strings, placeholders, words (folded to lower case unless they
are reserved). Literals with a prefix are read as a word and a literal.

The grammar of the supported queries (`docs/architecture/sql-synthesis.md`) is a type of trees with
the tokens of a tree, over any type of identifiers. A text is supported when PostgreSQL reads it as the
tokens of a tree that satisfies the side conditions of the document.
-/

namespace BatchWeaver.Sql

/-! ## Lexemes -/

/-- A piece of a text. The flags tell the cases in which a piece is no token, or is written in a way
that another reader may understand differently. -/
inductive Lexeme where
  | space (c : UInt8)
  | lineComment (bare : Bool)
  | blockComment (nested closed : Bool)
  | word (w : GoString)
  | quoted (name : GoString) (doubled closed : Bool)
  | param (digits : GoString) (junk : Bool)
  | string (closed : Bool)
  | number
  | symbol (c : UInt8)

def pgSpace (c : UInt8) : Bool := isBlank c || c = 11 || c = 12

def pgIdentStart (c : UInt8) : Bool := isIdentStart c || 128 ≤ c

def pgIdentPart (c : UInt8) : Bool := pgIdentStart c || isDigit c || c = ch '$'

/-- What was read up to a closing mark, and what is left. -/
structure Enclosed where
  content : GoString := []
  /-- a doubled quote, or a comment in a comment -/
  inner : Bool := false
  closed : Bool := false
  rest : GoString := []

def Enclosed.push (c : UInt8) (r : Enclosed) : Enclosed := { r with content := c :: r.content }

def Enclosed.mark (r : Enclosed) : Enclosed := { r with inner := true }

@[simp] theorem Enclosed.push_rest (c : UInt8) (r : Enclosed) : (r.push c).rest = r.rest := rfl

@[simp] theorem Enclosed.mark_rest (r : Enclosed) : r.mark.rest = r.rest := rfl

/-- The rest of a block comment, `depth` comments deep in it. -/
def readComment : ℕ → GoString → Enclosed
  | depth, a :: b :: rest =>
    if a = ch '*' ∧ b = ch '/' then
      match depth with
      | 0 => { closed := true, rest := rest }
      | depth + 1 => readComment depth rest
    else if a = ch '/' ∧ b = ch '*' then (readComment (depth + 1) rest).mark
    else readComment depth (b :: rest)
  | _, _ => {}

/-- The rest of a literal in quotes `q`; two quotes stand for one. -/
def readQuoted (q : UInt8) : GoString → Enclosed
  | [] => {}
  | [c] => if c = q then { closed := true } else { content := [c] }
  | c :: d :: rest =>
    if c = q then
      if d = q then ((readQuoted q rest).push q).mark
      else { closed := true, rest := d :: rest }
    else (readQuoted q (d :: rest)).push c

lemma readComment_length (depth : ℕ) (s : GoString) : (readComment depth s).rest.length ≤ s.length := by
  fun_induction readComment depth s <;> simp_all <;> omega

lemma readQuoted_length (q : UInt8) (s : GoString) : (readQuoted q s).rest.length ≤ s.length := by
  fun_induction readQuoted q s <;> simp_all <;> omega

/-- A carriage return that does not belong to a line end. -/
def bareReturn (s : GoString) : Bool := s.head? = some 13 && s.tail ≠ [] && s.tail.head? ≠ some 10

/-- The piece that starts with the byte `c`, and what is left of the text. -/
def pgStep (c : UInt8) (rest : GoString) : Lexeme × GoString :=
  if pgSpace c then (.space c, rest)
  else if c = ch '-' ∧ rest.head? = some (ch '-') then
    let after := rest.dropWhile fun b => b ≠ 10 && b ≠ 13
    (.lineComment (bareReturn after), after)
  else if c = ch '/' ∧ rest.head? = some (ch '*') then
    let r := readComment 0 (rest.drop 1)
    (.blockComment r.inner r.closed, r.rest)
  else if c = ch '"' then
    let r := readQuoted (ch '"') rest
    (.quoted r.content r.inner r.closed, r.rest)
  else if c = ch '\'' then
    let r := readQuoted (ch '\'') rest
    (.string r.closed, r.rest)
  else if c = ch '$' ∧ rest.takeWhile isDigit ≠ [] then
    let after := rest.dropWhile isDigit
    (.param (rest.takeWhile isDigit) (after.head?.any pgIdentStart), after)
  else if pgIdentStart c then (.word (c :: rest.takeWhile pgIdentPart), rest.dropWhile pgIdentPart)
  else if isDigit c then (.number, rest.dropWhile fun b => isDigit b || b = ch '.')
  else (.symbol c, rest)

lemma pgStep_length (c : UInt8) (rest : GoString) : (pgStep c rest).2.length ≤ rest.length := by
  have hcomment : (readComment 0 (rest.drop 1)).rest.length ≤ rest.length := by
    have := readComment_length 0 (rest.drop 1)
    rw [List.length_drop] at this
    omega
  unfold pgStep
  repeat' split
  all_goals first
    | exact le_rfl
    | exact dropWhile_length _ _
    | exact hcomment
    | exact readQuoted_length _ _

/-- The pieces of a text. -/
def pgLexemes (sql : GoString) : List Lexeme :=
  match sql with
  | [] => []
  | c :: rest => (pgStep c rest).1 :: pgLexemes (pgStep c rest).2
termination_by sql.length
decreasing_by
  have := pgStep_length c rest
  simp only [List.length_cons]
  omega

/-! ## Tokens -/

/-- A token of a query with identifiers in `α`. -/
inductive Tok (α : Type) where
  | keyword (k : GoString)
  | name (a : α)
  | param (n : ℤ)
  | symbol (c : UInt8)
  | literal
  deriving DecidableEq

/-- The words that PostgreSQL does not take as a name of a table or a column. -/
def reserved : List GoString :=
  [str "all", str "analyse", str "analyze", str "and", str "any", str "array", str "as", str "asc",
    str "asymmetric", str "authorization", str "binary", str "both", str "case", str "cast", str "check",
    str "collate", str "collation", str "column", str "concurrently", str "constraint", str "create",
    str "cross", str "current_catalog", str "current_date", str "current_role", str "current_schema",
    str "current_time", str "current_timestamp", str "current_user", str "default", str "deferrable",
    str "desc", str "distinct", str "do", str "else", str "end", str "except", str "false", str "fetch",
    str "for", str "foreign", str "freeze", str "from", str "full", str "grant", str "group", str "having",
    str "ilike", str "in", str "initially", str "inner", str "intersect", str "into", str "is",
    str "isnull", str "join", str "lateral", str "leading", str "left", str "like", str "limit",
    str "localtime", str "localtimestamp", str "natural", str "not", str "notnull", str "null",
    str "offset", str "on", str "only", str "or", str "order", str "outer", str "overlaps", str "placing",
    str "primary", str "references", str "returning", str "right", str "select", str "session_user",
    str "similar", str "some", str "symmetric", str "system_user", str "table", str "tablesample",
    str "then", str "to", str "trailing", str "true", str "union", str "unique", str "user", str "using",
    str "variadic", str "verbose", str "when", str "where", str "window", str "with"]

/-- The tokens of a piece; none if PostgreSQL reports an error. -/
def Lexeme.read : Lexeme → Option (List (Tok GoString))
  | .space _ => some []
  | .lineComment _ => some []
  | .blockComment _ closed => if closed then some [] else none
  | .word w => some [if toLower w ∈ reserved then .keyword (toUpper w) else .name (toLower w)]
  | .quoted name _ closed => if closed = true ∧ name ≠ [] then some [.name name] else none
  | .param digits junk => if junk then none else some [.param (digitsValue digits)]
  | .string closed => if closed then some [.literal] else none
  | .number => some [.literal]
  | .symbol c => some [.symbol c]

/-- The tokens of all pieces. -/
def readAll : List Lexeme → Option (List (Tok GoString))
  | [] => some []
  | l :: ls => l.read.bind fun ts => (readAll ls).map fun rest => ts ++ rest

/-- A text as PostgreSQL reads it. -/
def pgRead (sql : GoString) : Option (List (Tok GoString)) := readAll (pgLexemes sql)

/-- A piece that the tokenizer and PostgreSQL read alike: no vertical white space, no line comment that a
carriage return ends, closed comments without comments in them, words of ASCII letters, digits and
underscores on whose spelling the two lists of keywords agree, closed quoted identifiers that are not
empty and have no quote in them, and placeholders that end where a word cannot go on and fit an `int`. -/
def Lexeme.Plain : Lexeme → Prop
  | .space c => isBlank c = true
  | .lineComment bare => bare = false
  | .blockComment nested closed => nested = false ∧ closed = true
  | .word w => (∀ c ∈ w, isIdentPart c = true) ∧ (toLower w ∈ reserved ↔ toUpper w ∈ keywords)
  | .quoted name doubled closed => name ≠ [] ∧ doubled = false ∧ closed = true
  | .param digits junk => junk = false ∧ digitsValue digits < 2 ^ 63
  | .string _ => True
  | .number => True
  | .symbol _ => True

instance : (l : Lexeme) → Decidable l.Plain
  | .space _ => instDecidableEqBool _ _
  | .lineComment _ => instDecidableEqBool _ _
  | .blockComment _ _ => instDecidableAnd
  | .word _ => @instDecidableAnd _ _ (List.decidableBAll _ _) inferInstance
  | .quoted _ _ _ => instDecidableAnd
  | .param _ _ => instDecidableAnd
  | .string _ => instDecidableTrue
  | .number => instDecidableTrue
  | .symbol _ => instDecidableTrue

/-! ## The grammar -/

section

variable {α β : Type}

def kw (k : String) : Tok α := .keyword (str k)

def sym (c : Char) : Tok α := .symbol (ch c)

structure ColRef (α : Type) where
  table : Option α
  name : α

/-- An alias. One after `AS` that is missing is no part of the grammar, but of what a lenient parser
takes. -/
inductive Alias (α : Type) where
  | none
  | bare (a : α)
  | as (a : α)
  | dangling

structure Item (α : Type) where
  column : ColRef α
  label : Alias α

structure Rel (α : Type) where
  name : α
  label : Alias α

inductive JoinWords where
  | plain
  | inner
  | left
  | leftOuter

structure JoinTree (α : Type) where
  words : JoinWords
  relation : Rel α
  left : ColRef α
  right : ColRef α

inductive Pred (α : Type) where
  | key (column : ColRef α) (param : ℤ)
  | null (column : ColRef α) (neg : Bool)

/-- A query of the subset. The first item and the first predicate are fields of their own, so that there
is at least one of each. -/
structure Select (α : Type) where
  item : Item α
  items : List (Item α)
  relation : Rel α
  join : Option (JoinTree α)
  pred : Pred α
  preds : List (Pred α)
  semicolon : Bool

def ColRef.tokens (c : ColRef α) : List (Tok α) :=
  match c.table with
  | .none => [.name c.name]
  | .some t => [.name t, sym '.', .name c.name]

def Alias.tokens : Alias α → List (Tok α)
  | .none => []
  | .bare a => [.name a]
  | .as a => [kw "AS", .name a]
  | .dangling => [kw "AS"]

def Item.tokens (i : Item α) : List (Tok α) := i.column.tokens ++ i.label.tokens

def Rel.tokens (r : Rel α) : List (Tok α) := .name r.name :: r.label.tokens

def JoinWords.tokens : JoinWords → List (Tok α)
  | .plain => [kw "JOIN"]
  | .inner => [kw "INNER", kw "JOIN"]
  | .left => [kw "LEFT", kw "JOIN"]
  | .leftOuter => [kw "LEFT", kw "OUTER", kw "JOIN"]

def JoinTree.tokens (j : JoinTree α) : List (Tok α) :=
  j.words.tokens ++ (j.relation.tokens ++ (kw "ON" :: (j.left.tokens ++ sym '=' :: j.right.tokens)))

def Pred.tokens : Pred α → List (Tok α)
  | .key c n => c.tokens ++ [sym '=', .param n]
  | .null c neg => c.tokens ++ kw "IS" :: (if neg then [kw "NOT", kw "NULL"] else [kw "NULL"])

variable (q : Select α)

def Select.tokens : List (Tok α) :=
  kw "SELECT" :: (q.item.tokens ++ (q.items.flatMap (fun i => sym ',' :: i.tokens) ++
    (kw "FROM" :: (q.relation.tokens ++ ((q.join.map JoinTree.tokens).getD [] ++
      (kw "WHERE" :: (q.pred.tokens ++ (q.preds.flatMap (fun p => kw "AND" :: p.tokens) ++
        if q.semicolon then [sym ';'] else []))))))))

/-- The name an alias gives. -/
def Alias.name? : Alias α → Option α
  | .bare a => .some a
  | .as a => .some a
  | _ => .none

def Rel.ref (r : Rel α) : α := r.label.name?.getD r.name

def Pred.key? : Pred α → Option (ColRef α × ℤ)
  | .key c n => some (c, n)
  | .null _ _ => none

def Select.keys : List (ColRef α × ℤ) := (q.pred :: q.preds).filterMap Pred.key?

def Pred.filter? : Pred α → Option (ColRef α × Bool)
  | .key _ _ => none
  | .null c neg => some (c, neg)

def Select.filters : List (ColRef α × Bool) := (q.pred :: q.preds).filterMap Pred.filter?

def Select.labels : List (Alias α) :=
  (q.item :: q.items).map Item.label ++ q.relation.label :: (q.join.map fun j => j.relation.label).toList

/-- The join connects one column of each relation, and every other column is one of theirs. -/
structure Select.JoinOK (q : Select α) (j : JoinTree α) : Prop where
  distinct : j.relation.ref ≠ q.relation.ref
  connects : (j.left.table = some q.relation.ref ∧ j.right.table = some j.relation.ref) ∨
    (j.left.table = some j.relation.ref ∧ j.right.table = some q.relation.ref)
  items : ∀ i ∈ q.item :: q.items, i.column.table = some q.relation.ref ∨ i.column.table = some j.relation.ref
  filters : ∀ f ∈ q.filters, f.1.table = some q.relation.ref ∨ f.1.table = some j.relation.ref

/-- The side conditions of the subset: there is a key, placeholders are unique and contiguous from one,
keys belong to the base relation, and a join is bounded. -/
structure Select.OK (q : Select α) : Prop where
  key : q.keys ≠ []
  params : (q.keys.map Prod.snd).Nodup ∧ ∀ n ∈ q.keys.map Prod.snd, 1 ≤ n ∧ n ≤ q.keys.length
  base : ∀ k ∈ q.keys, k.1.table = none ∨ k.1.table = some q.relation.ref
  join : ∀ j, q.join = some j → q.JoinOK j

/-- Every `AS` has its alias. -/
def Select.Strict : Prop := ∀ a ∈ q.labels, a ≠ .dangling

end

/-! ## How identifiers are written -/

section

variable {α β : Type}

def Tok.map (f : α → β) : Tok α → Tok β
  | .keyword k => .keyword k
  | .name a => .name (f a)
  | .param n => .param n
  | .symbol c => .symbol c
  | .literal => .literal

/-- A name that scopes columns: a qualifier, or a name between `FROM` and `WHERE`. -/
def Scopes (toks : List (Tok α)) (a : α) : Prop :=
  [.name a, sym '.'] <:+: toks ∨ ∃ mid, kw "FROM" :: (mid ++ [.name a]) <:+: toks ∧ kw "WHERE" ∉ mid

/-- What stands after `AS` is a name. -/
def AsNamed (toks : List (Tok α)) : Prop := ∀ tok, [kw "AS", tok] <:+: toks → ∃ a, tok = .name a

end

/-- A token with its identifier as it is written and as PostgreSQL understands it. -/
abbrev Sym := Tok (GoString × GoString)

def Lexeme.sym? : Lexeme → Option Sym
  | .word w => some (if toLower w ∈ reserved then .keyword (toUpper w) else .name (w, toLower w))
  | .quoted name _ _ => some (.name (name, name))
  | .param digits _ => some (.param (digitsValue digits))
  | .string _ => some .literal
  | .number => some .literal
  | .symbol c => some (.symbol c)
  | _ => none

def pgSyms (sql : GoString) : List Sym := (pgLexemes sql).filterMap Lexeme.sym?

/-- Two names that scope columns are the same identifier just when they are written the same. -/
def SpelledAlike (syms : List Sym) : Prop :=
  ∀ a b, Scopes syms a → Scopes syms b → (a.1 = b.1 ↔ a.2 = b.2)

/-- A text of the supported grammar. -/
def Supported (sql : GoString) : Prop :=
  ∃ q : Select GoString, q.OK ∧ q.Strict ∧ pgRead sql = some q.tokens

/-! ## What the parser makes of a tree -/

def Item.toColumn (i : Item GoString) : Column :=
  { table := i.column.table.getD [], name := i.column.name, aliasName := i.label.name?.getD [] }

def ColRef.toColumn (c : ColRef GoString) : Column := { table := c.table.getD [], name := c.name }

def Rel.toRelation (r : Rel GoString) : Relation := { name := r.name, aliasName := r.label.name?.getD [] }

def JoinWords.kind : JoinWords → JoinKind
  | .plain => .inner
  | .inner => .inner
  | .left => .left
  | .leftOuter => .left

def JoinTree.toJoin (j : JoinTree GoString) : Join :=
  ⟨j.words.kind, j.relation.toRelation, j.left.toColumn, j.right.toColumn⟩

/-- The query with one more predicate. -/
def ParsedQuery.add (q : ParsedQuery) : Pred GoString → ParsedQuery
  | .key c n => { q with keys := q.keys ++ [⟨c.toColumn, n⟩] }
  | .null c neg => { q with extra := q.extra ++ [filterSQL c.toColumn neg] }

def Select.toQuery (q : Select GoString) : ParsedQuery where
  projection := (q.item :: q.items).map Item.toColumn
  relation := q.relation.toRelation
  join := q.join.map JoinTree.toJoin
  keys := q.keys.map fun k => ⟨k.1.toColumn, k.2⟩
  keyColumn := (q.keys.head?.map fun k => k.1.toColumn).getD { name := [] }
  keyParam := (q.keys.head?.map Prod.snd).getD 0
  extra := q.filters.map fun f => filterSQL f.1.toColumn f.2

/-- A token as a token of the grammar; the end of the text is none. -/
def Token.view (t : Token) : Option (Tok GoString) :=
  match t.kind with
  | .eof => none
  | .ident => some (.name t.text)
  | .keyword => some (.keyword t.up)
  | .punct => some (.symbol (t.text.headD 0))
  | .param => some (.param (paramNumber t.text))
  | .number => some .literal
  | .string => some .literal
  | .star => some (.symbol (ch '*'))

end BatchWeaver.Sql
