import BatchWeaver.Spec.Postgres

/-!
# The tokenizer and PostgreSQL's lexical rules

The tokenizer and PostgreSQL's lexer walk over a text in lockstep as long as every piece is written in a
way that both read alike (`Lexeme.Plain`). At the first literal or foreign character they may part, but
then neither reading is a query of the subset.

* `tokenizeFrom_ok`: the tokens of any text are well formed and end with the end of the text.
* `lockstep`: on plain pieces the two readings are images of one list of tokens, or both are broken.
-/

namespace BatchWeaver.Sql

open List

/-! ## Tokens -/

/-- What the tokenizer guarantees of a token. -/
structure Token.OK (t : Token) : Prop where
  up : t.kind ≠ .keyword → t.up = []
  punct : t.kind = .punct → ∃ c, t.text = [c] ∧ isPunctByte c = true

lemma Except.map_eq_ok {ε α β : Type} {x : Except ε α} {f : α → β} {b} (h : x.map f = .ok b) :
    ∃ a, x = .ok a ∧ b = f a := by
  cases x with
  | error e => simp [Except.map] at h
  | ok a =>
    simp only [Except.map, Except.ok.injEq] at h
    exact ⟨a, rfl, h.symm⟩

/-- The tokens of a text: well formed, and the end of the text last. -/
def Ended (n : ℕ) (ts : List Token) : Prop :=
  ∃ body, ts = body ++ [{ kind := .eof, off := n }] ∧ ∀ t ∈ body, t.OK ∧ t.kind ≠ .eof

variable {c : UInt8} {rest : GoString} {t : Token}

/-- A token that is neither a keyword nor a punctuation mark. -/
lemma Token.ok_of_kind (hup : t.up = []) (hp : t.kind ≠ .punct) : t.OK := ⟨fun _ => hup, fun h => absurd h hp⟩

variable {off : ℕ}

/-- A token of one turn of the loop. -/
lemma lexStep_ok {rest rest'} (h : lexStep off c rest = .ok (some t, rest')) : t.OK ∧ t.kind ≠ .eof := by
  have hspec := lexStep_spec off c rest
  rw [h] at hspec
  cases hspec with
  | param | star | string | quoted | word | number => exact ⟨Token.ok_of_kind rfl nofun, nofun⟩
  | punct hp => exact ⟨⟨fun _ => rfl, fun _ => ⟨c, rfl, hp⟩⟩, nofun⟩
  | keyword hs hk => exact ⟨⟨fun hne => absurd rfl hne, nofun⟩, nofun⟩

lemma tokenizeFrom_cons {n} : tokenizeFrom n (c :: rest) = (lexStep (n - (rest.length + 1)) c rest).bind fun r =>
      (tokenizeFrom n r.2).map fun ts => r.1.toList ++ ts := by
  rw [tokenizeFrom]
  split
  · rename_i rej hstep
    rw [hstep]
    rfl
  rename_i t rest' hstep
  rw [hstep]
  rfl

/-- What holds of the tokens of every turn holds of all tokens but the last, the end of the text. -/
lemma tokenizeFrom_all {n} {P : Token → Prop} (hP : ∀ {off c rest t rest'},
    lexStep off c rest = .ok (some t, rest') → P t) (sql : GoString) : ∀ ts, tokenizeFrom n sql = .ok ts →
      ∃ body, ts = body ++ [{ kind := .eof, off := n }] ∧ ∀ t ∈ body, P t := by
  induction hlen : sql.length using Nat.strong_induction_on generalizing sql with
  | _ len ih =>
    subst hlen
    intro ts h
    cases sql with
    | nil =>
      rw [tokenizeFrom] at h
      injection h with h
      exact ⟨[], by rw [← h]; rfl, fun t ht => absurd ht not_mem_nil⟩
    | cons c rest =>
      rw [tokenizeFrom_cons] at h
      cases hstep : lexStep (n - (rest.length + 1)) c rest with
      | error rej =>
        rw [hstep] at h
        cases h
      | ok r =>
        rw [hstep] at h
        obtain ⟨ts', hrec, rfl⟩ := Except.map_eq_ok h
        have hlen : r.2.length ≤ rest.length := lexStep_length hstep
        obtain ⟨body, rfl, hall⟩ := ih r.2.length (by simp only [length_cons]; omega) r.2 rfl ts' hrec
        obtain ⟨t, rest'⟩ := r
        cases t with
        | none => exact ⟨body, rfl, hall⟩
        | some t => exact ⟨t :: body, rfl, forall_mem_cons.2 ⟨hP hstep, hall⟩⟩

/-- **Tokens are well formed.** -/
theorem tokenizeFrom_ok (n : ℕ) (sql : GoString) : ∀ ts, tokenizeFrom n sql = .ok ts → Ended n ts :=
  tokenizeFrom_all lexStep_ok sql

/-! ## One piece -/

/-- A token that is in no query of the subset. -/
def Tok.Foreign {α : Type} : Tok α → Prop
  | .symbol c => isPunctByte c = false ∧ c ≠ ch '*'
  | .literal => True
  | _ => False

lemma skipBlock_plain (s : GoString) (h : (readComment 0 s).inner = false) : skipBlock s = (readComment 0 s).rest := by
  fun_induction skipBlock s with
  | case1 a b rest hclose =>
    rw [readComment, if_pos hclose]
  | case2 a b rest hclose ih =>
    rw [readComment, if_neg hclose] at h ⊢
    by_cases hopen : a = ch '/' ∧ b = ch '*'
    · rw [if_pos hopen] at h
      exact absurd h (by simp [Enclosed.mark])
    · rw [if_neg hopen] at h ⊢
      exact ih h
  | case3 s hshort =>
    rw [readComment]
    exact hshort

lemma readQuoted_plain (q : UInt8) (s : GoString) (hin : (readQuoted q s).inner = false)
    (hcl : (readQuoted q s).closed = true) : s.takeWhile (fun b => b ≠ q) = (readQuoted q s).content ∧
      s.dropWhile (fun b => b ≠ q) = q :: (readQuoted q s).rest := by
  fun_induction readQuoted q s with
  | case1 => exact absurd hcl Bool.false_ne_true
  | case2 => simp
  | case3 c hc => exact absurd hcl Bool.false_ne_true
  | case4 rest ih => exact absurd hin (by simp [Enclosed.mark])
  | case5 d rest hd => simp
  | case6 c d rest hc ih =>
    obtain ⟨htake, hdrop⟩ := ih hin hcl
    constructor
    · rw [takeWhile_cons_of_pos (by simpa using hc), htake]
      rfl
    · rw [dropWhile_cons_of_pos (by simpa using hc), hdrop]
      rfl

lemma takeWhile_ne_not_mem (q : UInt8) (s : GoString) : q ∉ s.takeWhile (fun b => b ≠ q) := by
  intro h
  have hall := all_eq_true.1 (all_takeWhile (l := s) (p := fun b => b ≠ q)) q h
  simp at hall

/-- Trimming the quotes of a closed identifier without quotes in it. -/
lemma trimQuotes_plain {body} (h : ch '"' ∉ body) : trimQuotes (ch '"' :: body ++ [ch '"']) = body := by
  have hdrop : ∀ l : GoString, ch '"' ∉ l → l.dropWhile (fun c => c = ch '"') = l := by
    intro l hl
    cases l with
    | nil => rfl
    | cons c l =>
      have hc : c ≠ ch '"' := fun hc => hl (hc ▸ mem_cons_self)
      rw [dropWhile_cons_of_neg (by simpa using hc)]
  have hfirst : (ch '"' :: body ++ [ch '"']).dropWhile (fun c => c = ch '"') =
      (body ++ [ch '"']).dropWhile (fun c => c = ch '"') := by
    rw [cons_append, dropWhile_cons_of_pos (by simp)]
  rw [trimQuotes, hfirst]
  cases body with
  | nil => rfl
  | cons c body =>
    have hc : c ≠ ch '"' := fun hc => h (hc ▸ mem_cons_self)
    have hkeep : (c :: body ++ [ch '"']).dropWhile (fun c => c = ch '"') = c :: body ++ [ch '"'] := by
      rw [cons_append, dropWhile_cons_of_neg (by simpa using hc)]
    rw [hkeep, reverse_append, reverse_singleton, singleton_append,
      dropWhile_cons_of_pos (by simp), hdrop _ (by rwa [mem_reverse]), reverse_reverse]

lemma isIdentPart_pg (h : isIdentPart c = true) : pgIdentPart c = true := by
  simp only [isIdentPart, Bool.or_eq_true] at h
  simp only [pgIdentPart, pgIdentStart, Bool.or_eq_true]
  rcases h with h | h
  · exact .inl (.inl (.inl h))
  · exact .inl (.inr h)

variable {p : UInt8 → Bool}

/-- A run of bytes that the wider class ends where the narrower one does. -/
lemma span_narrow {q : UInt8 → Bool} (hpq : ∀ c, p c = true → q c = true) {l : GoString}
    (h : ∀ c ∈ l.takeWhile q, p c = true) : l.takeWhile p = l.takeWhile q ∧ l.dropWhile p = l.dropWhile q := by
  induction l with
  | nil => exact ⟨rfl, rfl⟩
  | cons c l ih =>
    by_cases hq : q c = true
    · rw [takeWhile_cons_of_pos hq] at h
      have hp := h c mem_cons_self
      obtain ⟨htake, hdrop⟩ := ih fun x hx => h x (mem_cons_of_mem _ hx)
      rw [takeWhile_cons_of_pos hp, takeWhile_cons_of_pos hq, dropWhile_cons_of_pos hp,
        dropWhile_cons_of_pos hq, htake, hdrop]
      exact ⟨rfl, rfl⟩
    have hp : ¬p c = true := fun hp => hq (hpq c hp)
    rw [takeWhile_cons_of_neg hp, takeWhile_cons_of_neg hq, dropWhile_cons_of_neg hp, dropWhile_cons_of_neg hq]
    exact ⟨rfl, rfl⟩

lemma digits_le (digits : GoString) (n : ℕ) : n ≤ digits.foldl (fun n c => n * 10 + (c.toNat - 48)) n := by
  induction digits generalizing n with
  | nil => exact le_rfl
  | cons c digits ih =>
    have := ih (n * 10 + (c.toNat - 48))
    rw [foldl_cons]
    omega

/-- A placeholder that fits an `int` is read without wrapping. -/
lemma paramNumber_digits {digits} (hd : ∀ c ∈ digits, isDigit c = true)
    (h : digitsValue digits < 2 ^ 63) (c : UInt8) : paramNumber (c :: digits) = digitsValue digits := by
  suffices hfold : ∀ (n : ℕ), digits.foldl (fun n c => n * 10 + (c.toNat - 48)) n < 2 ^ 63 →
      digits.foldl (fun n c => Int.bmod (n * 10 + ((c.toNat : ℤ) - 48)) (2 ^ 64)) (n : ℤ) =
        (digits.foldl (fun n c => n * 10 + (c.toNat - 48)) n : ℕ) from hfold 0 h
  clear h
  induction digits with
  | nil => exact fun n _ => rfl
  | cons d digits ih =>
    intro n hn
    rw [foldl_cons] at hn ⊢
    rw [foldl_cons]
    have hdigit := hd d mem_cons_self
    simp only [isDigit, decide_eq_true_eq] at hdigit
    have hle := digits_le digits (n * 10 + (d.toNat - 48))
    have hstep : Int.bmod ((n : ℤ) * 10 + ((d.toNat : ℤ) - 48)) (2 ^ 64) = ((n * 10 + (d.toNat - 48) : ℕ) : ℤ) := by
      have hcast : (n : ℤ) * 10 + ((d.toNat : ℤ) - 48) = ((n * 10 + (d.toNat - 48) : ℕ) : ℤ) := by
        push_cast
        omega
      rw [hcast]
      apply Int.bmod_eq_of_le
      · omega
      · push_cast
        omega
    rw [hstep]
    exact ih (fun x hx => hd x (mem_cons_of_mem _ hx)) _ hn

/-- After a line comment that no bare carriage return ends, both readers go on at the same place. -/
lemma tokenizeFrom_line (n : ℕ) (s : GoString) (h : bareReturn (s.dropWhile fun b => b ≠ 10 && b ≠ 13) = false) :
    tokenizeFrom n (s.dropWhile fun b => b ≠ 10) = tokenizeFrom n (s.dropWhile fun b => b ≠ 10 && b ≠ 13) := by
  induction s with
  | nil => rfl
  | cons c s ih =>
    by_cases h10 : c = 10
    · subst h10
      rfl
    by_cases h13 : c = 13
    · subst h13
      have hafter : (13 :: s).dropWhile (fun b : UInt8 => b ≠ 10 && b ≠ 13) = 13 :: s := rfl
      have hline : (13 :: s).dropWhile (fun b : UInt8 => b ≠ 10) = s.dropWhile fun b => b ≠ 10 := rfl
      rw [hafter] at h ⊢
      rw [hline]
      -- the carriage return is white space, and what follows is the line end
      have hblank : tokenizeFrom n (13 :: s) = tokenizeFrom n s := by
        have hstep : lexStep (n - (s.length + 1)) 13 s = .ok (none, s) := by
          rw [lexStep, if_pos (by decide)]
        rw [tokenizeFrom_cons, hstep]
        cases hrec : tokenizeFrom n s with
        | error _ | ok _ => simp [Except.bind, hrec, Except.map]
      have hs : s.dropWhile (fun b => b ≠ 10) = s := by
        cases s with
        | nil => rfl
        | cons d s =>
          have hd : d = 10 := by
            by_contra hne
            simp [bareReturn, hne] at h
          subst hd
          rfl
      rw [hs, hblank]
    have hc : (c ≠ 10 && c ≠ 13) = true := by simp [h10, h13]
    have hafter : (c :: s).dropWhile (fun b => b ≠ 10 && b ≠ 13) = s.dropWhile fun b => b ≠ 10 && b ≠ 13 := by
      rw [dropWhile_cons, if_pos hc]
    rw [hafter] at h ⊢
    rw [dropWhile_cons_of_pos (by simpa using h10)]
    exact ih h

/-- The tokens are those of the list, with identifiers as they are written. -/
def Views (ts : List Token) (syms : List Sym) : Prop := ts.map Token.view = syms.map fun s => some (s.map Prod.fst)

/-- Both readers take one piece as the same tokens. -/
def Agree (off : ℕ) (c : UInt8) (rest : GoString) : Prop :=
  ∃ t rest', lexStep off c rest = .ok (t, rest') ∧ Views t.toList (pgStep c rest).1.sym?.toList ∧
    (pgStep c rest).1.read = some ((pgStep c rest).1.sym?.toList.map (Tok.map Prod.snd)) ∧
    ∀ n, tokenizeFrom n rest' = tokenizeFrom n (pgStep c rest).2

lemma Agree.of {c rest after after' l t}
    (hpg : pgStep c rest = (l, after)) (hstep : lexStep off c rest = .ok (t, after'))
    (hviews : Views t.toList l.sym?.toList) (hread : l.read = some (l.sym?.toList.map (Tok.map Prod.snd)))
    (hsame : ∀ n, tokenizeFrom n after' = tokenizeFrom n after) : Agree off c rest := by
  refine ⟨t, after', hstep, ?_⟩
  rw [hpg]
  exact ⟨hviews, hread, hsame⟩

/-- Neither reader can go on to a query of the subset. -/
def Breaks (off : ℕ) (c : UInt8) (rest : GoString) : Prop :=
  (∀ t rest', lexStep off c rest = .ok (t, rest') → ∃ t', t = some t' ∧ t'.view = some .literal) ∧
    ∃ s, (pgStep c rest).1.sym? = some s ∧ s.Foreign

/-- A byte of one class is no byte of another. -/
lemma ne_of_class {c x} (hc : p c = true) (hx : p x = false) : c ≠ x := by
  rintro rfl
  exact Bool.noConfusion (hc.symm.trans hx)

lemma not_and_of_ne {c x : UInt8} {q : Prop} (h : c ≠ x) : ¬(c = x ∧ q) := fun hand => h hand.1

lemma not_pgSpace_of_class (hc : p c = true) (hp : [ch ' ', 9, 10, 13, 11, 12].any p = false) : ¬pgSpace c = true := by
  intro hsp
  have hmem : c ∈ [ch ' ', 9, 10, 13, 11, 12] := by simpa [pgSpace, isBlank, or_assoc] using hsp
  exact any_eq_false.1 hp c hmem hc

/-- A punctuation mark is read as itself. -/
lemma pgStep_symbol (h : isPunctByte c = true ∨ c = ch '*') : pgStep c rest = (.symbol c, rest) := by
  have hall : ∀ x ∈ [ch ',', ch '.', ch '(', ch ')', ch '=', ch ';', ch '*'], pgStep x rest = (.symbol x, rest) := by
    simp only [forall_mem_cons, not_mem_nil, false_implies, implies_true, and_true]
    refine ⟨?_, ?_, ?_, ?_, ?_, ?_, ?_⟩
    all_goals rw [pgStep, if_neg (by decide), if_neg (not_and_of_ne (by decide)), if_neg (not_and_of_ne (by decide)),
        if_neg (by decide), if_neg (by decide), if_neg (not_and_of_ne (by decide)), if_neg (by decide),
        if_neg (by decide)]
  exact hall c (by simpa [isPunctByte, or_assoc] using h)

lemma pgStep_word (h : pgIdentStart c = true) :
    pgStep c rest = (.word (c :: rest.takeWhile pgIdentPart), rest.dropWhile pgIdentPart) := by
  rw [pgStep, if_neg (not_pgSpace_of_class h (by decide)), if_neg (not_and_of_ne (ne_of_class h (by decide))),
    if_neg (not_and_of_ne (ne_of_class h (by decide))), if_neg (ne_of_class h (by decide)),
    if_neg (ne_of_class h (by decide)), if_neg (not_and_of_ne (ne_of_class h (by decide))), if_pos h]

lemma pgStep_number (h : isDigit c = true) : (pgStep c rest).1 = .number := by
  have hstart : ¬pgIdentStart c = true := by
    have h95 : (ch '_').toNat = 95 := by decide
    have h128 : (128 : UInt8).toNat = 128 := by decide
    simp only [isDigit, pgIdentStart, isIdentStart, isLower, isUpper, Bool.or_eq_true, decide_eq_true_eq,
      UInt8.le_iff_toNat_le, ← UInt8.toNat_inj] at h ⊢
    omega
  rw [pgStep, if_neg (not_pgSpace_of_class h (by decide)), if_neg (not_and_of_ne (ne_of_class h (by decide))),
    if_neg (not_and_of_ne (ne_of_class h (by decide))), if_neg (ne_of_class h (by decide)),
    if_neg (ne_of_class h (by decide)), if_neg (not_and_of_ne (ne_of_class h (by decide))), if_neg hstart,
    if_pos h]

lemma isIdentStart_pg (h : isIdentStart c = true) : pgIdentStart c = true := by
  simp only [pgIdentStart, h, Bool.true_or]

/-- The characters of a word are those of both classes. -/
lemma word_span (h : ∀ x ∈ c :: rest.takeWhile pgIdentPart, isIdentPart x = true) :
    rest.takeWhile isIdentPart = rest.takeWhile pgIdentPart ∧ rest.dropWhile isIdentPart = rest.dropWhile pgIdentPart :=
  span_narrow (fun _ hc => isIdentPart_pg hc) fun x hx => h x (mem_cons_of_mem _ hx)

/-- A byte that the tokenizer does not know. -/
lemma breaks_other (hplain : (pgStep c rest).1.Plain) (hstep : ∀ r, lexStep off c rest ≠ .ok r)
    (hb : ¬isBlank c = true) (hl : ¬(c = ch '-' ∧ rest.head? = some (ch '-')))
    (hk : ¬(c = ch '/' ∧ rest.head? = some (ch '*'))) (hd : ¬(c = ch '$' ∧ rest.takeWhile isDigit ≠ []))
    (hs : c ≠ ch '*') (hp : ¬isPunctByte c = true) (hq : c ≠ ch '\'') (hqq : c ≠ ch '"')
    (hi : ¬isIdentStart c = true) (hn : ¬isDigit c = true) : Breaks off c rest := by
  refine ⟨fun t rest' h => absurd h (hstep _), ?_⟩
  by_cases hsp : pgSpace c = true
  · rw [pgStep, if_pos hsp] at hplain
    exact absurd hplain hb
  have hstart : ¬pgIdentStart c = true := by
    intro hstart
    rw [pgStep_word hstart] at hplain
    have hpart := hplain.1 c mem_cons_self
    simp only [isIdentPart, Bool.or_eq_true] at hpart
    exact hpart.elim hi hn
  rw [pgStep, if_neg hsp, if_neg hl, if_neg hk, if_neg hqq, if_neg hq, if_neg hd, if_neg hstart, if_neg hn]
  exact ⟨.symbol c, rfl, Bool.eq_false_iff.2 hp, hs⟩

/-- **One plain piece**: both readers agree on it, or neither can go on. -/
theorem step_agrees (off : ℕ) (c : UInt8) (rest : GoString) (hplain : (pgStep c rest).1.Plain) :
    Agree off c rest ∨ Breaks off c rest := by
  have hspec := lexStep_spec off c rest
  generalize hstep : lexStep off c rest = r at hspec
  cases hspec with
  | blank h =>
    have hpg : pgStep c rest = (.space c, rest) := by
      rw [pgStep, if_pos (by simp [pgSpace, h])]
    exact .inl (.of hpg hstep rfl rfl fun _ => rfl)
  | line h =>
    obtain ⟨rfl, hhead⟩ := h
    have hpg : pgStep (ch '-') rest = (.lineComment (bareReturn (rest.dropWhile fun b => b ≠ 10 && b ≠ 13)),
        rest.dropWhile fun b => b ≠ 10 && b ≠ 13) := by
      rw [pgStep, if_neg (by decide), if_pos ⟨rfl, hhead⟩]
    rw [hpg] at hplain
    exact .inl (.of hpg hstep rfl rfl fun n => tokenizeFrom_line n rest hplain)
  | block h =>
    obtain ⟨rfl, hhead⟩ := h
    have hpg : pgStep (ch '/') rest = (.blockComment (readComment 0 (rest.drop 1)).inner
        (readComment 0 (rest.drop 1)).closed, (readComment 0 (rest.drop 1)).rest) := by
      rw [pgStep, if_neg (by decide), if_neg (not_and_of_ne (by decide)), if_pos ⟨rfl, hhead⟩]
    rw [hpg] at hplain
    refine .inl (.of hpg hstep rfl ?_ fun n => by rw [skipBlock_plain _ hplain.1])
    simp only [Lexeme.read]
    rw [if_pos hplain.2]
    rfl
  | dollar rej hc h =>
    subst hc
    exact .inr (breaks_other hplain (fun r hr => by rw [hstep] at hr; cases hr) (by decide)
      (not_and_of_ne (by decide)) (not_and_of_ne (by decide)) (fun hand => hand.2 h) (by decide) (by decide)
      (by decide) (by decide) (by decide) (by decide))
  | param hc h =>
    subst hc
    have hpg : pgStep (ch '$') rest = (.param (rest.takeWhile isDigit)
        ((rest.dropWhile isDigit).head?.any pgIdentStart), rest.dropWhile isDigit) := by
      rw [pgStep, if_neg (by decide), if_neg (not_and_of_ne (by decide)), if_neg (not_and_of_ne (by decide)),
        if_neg (by decide), if_neg (by decide), if_pos ⟨rfl, h⟩]
    rw [hpg] at hplain
    have hdigits : ∀ x ∈ rest.takeWhile isDigit, isDigit x = true := all_eq_true.1 all_takeWhile
    refine .inl (.of hpg hstep ?_ ?_ fun _ => rfl)
    · simp [Views, Token.view, Tok.map, Lexeme.sym?, paramNumber_digits hdigits hplain.2]
    · simp [Lexeme.read, Lexeme.sym?, hplain.1, Tok.map]
  | star hc =>
    subst hc
    have hpg : pgStep (ch '*') rest = (.symbol (ch '*'), rest) := pgStep_symbol (.inr rfl)
    exact .inl (.of hpg hstep rfl rfl fun _ => rfl)
  | punct h =>
    have hpg : pgStep c rest = (.symbol c, rest) := pgStep_symbol (.inl h)
    exact .inl (.of hpg hstep rfl rfl fun _ => rfl)
  | string text hc =>
    subst hc
    refine .inr ⟨fun t rest' ht => ?_, ?_⟩
    · rw [hstep] at ht
      injection ht with ht
      exact ⟨_, (Prod.mk.inj ht).1.symm, rfl⟩
    rw [pgStep, if_neg (by decide), if_neg (not_and_of_ne (by decide)), if_neg (not_and_of_ne (by decide)),
      if_neg (by decide), if_pos rfl]
    exact ⟨.literal, rfl, trivial⟩
  | quoted hc =>
    subst hc
    have hpg : pgStep (ch '"') rest = (.quoted (readQuoted (ch '"') rest).content
        (readQuoted (ch '"') rest).inner (readQuoted (ch '"') rest).closed,
        (readQuoted (ch '"') rest).rest) := by
      rw [pgStep, if_neg (by decide), if_neg (not_and_of_ne (by decide)), if_neg (not_and_of_ne (by decide)),
        if_pos rfl]
    rw [hpg] at hplain
    obtain ⟨hne, hin, hcl⟩ := hplain
    obtain ⟨htake, hdrop⟩ := readQuoted_plain (ch '"') rest hin hcl
    have htext : quotedText (ch '"') rest = (readQuoted (ch '"') rest).content := by
      rw [quotedText, htake, hdrop]
      refine trimQuotes_plain ?_
      rw [← htake]
      exact takeWhile_ne_not_mem _ _
    refine .inl (.of hpg hstep ?_ ?_ fun n => by rw [hdrop]; rfl)
    · simp [Views, Token.view, Tok.map, Lexeme.sym?, htext]
    · simp [Lexeme.read, Tok.map, Lexeme.sym?, hcl, hne]
  | keyword h hk =>
    have hpg := @pgStep_word c rest (isIdentStart_pg h)
    rw [hpg] at hplain
    obtain ⟨hspan, hrest⟩ := word_span hplain.1
    rw [hspan] at hk
    refine .inl (.of hpg hstep ?_ ?_ fun n => by rw [hrest])
    · simp [Views, Token.view, Tok.map, Lexeme.sym?, hspan, hplain.2.2 hk]
    · simp [Lexeme.read, Tok.map, Lexeme.sym?, hplain.2.2 hk]
  | word h hk =>
    have hpg := @pgStep_word c rest (isIdentStart_pg h)
    rw [hpg] at hplain
    obtain ⟨hspan, hrest⟩ := word_span hplain.1
    rw [hspan] at hk
    have hres : toLower (c :: rest.takeWhile pgIdentPart) ∉ reserved := fun hr => hk (hplain.2.1 hr)
    refine .inl (.of hpg hstep ?_ ?_ fun n => by rw [hrest])
    · simp [Views, Token.view, Tok.map, Lexeme.sym?, hspan, hres]
    · simp [Lexeme.read, Tok.map, Lexeme.sym?, hres]
  | number text h =>
    refine .inr ⟨fun t rest' ht => ?_, ?_⟩
    · rw [hstep] at ht
      injection ht with ht
      exact ⟨_, (Prod.mk.inj ht).1.symm, rfl⟩
    · rw [pgStep_number h]
      exact ⟨.literal, rfl, trivial⟩
  | other rej hb hl hk hd hs hp hq hqq hi hn =>
    exact .inr (breaks_other hplain (fun r hr => by rw [hstep] at hr; cases hr) hb hl hk
      (not_and_of_ne hd) hs hp hq hqq hi hn)

/-! ## The whole text -/

lemma pgLexemes_cons (c : UInt8) (rest : GoString) :
    pgLexemes (c :: rest) = (pgStep c rest).1 :: pgLexemes (pgStep c rest).2 := by
  rw [pgLexemes]

variable {toks : List (Tok GoString)}

/-- PostgreSQL's tokens are the symbols with its own spelling, where it reports no error. -/
lemma Lexeme.read_eq {l : Lexeme} (h : l.read = some toks) : toks = l.sym?.toList.map (Tok.map Prod.snd) := by
  cases l with
  | word w =>
    injection h with h
    rw [← h, Lexeme.sym?]
    by_cases hw : toLower w ∈ reserved
    · rw [if_pos hw, if_pos hw]
      rfl
    · rw [if_neg hw, if_neg hw]
      rfl
  | space _ | lineComment _ | number | symbol _ =>
    injection h with h
    exact h.symm
  | param digits junk =>
    simp only [Lexeme.read, Option.ite_none_left_eq_some, Option.some.injEq] at h
    exact h.2.symm
  | _ =>
    simp only [Lexeme.read, Option.ite_none_right_eq_some, Option.some.injEq] at h
    exact h.2.symm

lemma pgRead_eq {sql} (h : pgRead sql = some toks) : toks = (pgSyms sql).map (Tok.map Prod.snd) := by
  rw [pgRead] at h
  rw [pgSyms]
  generalize pgLexemes sql = ls at h ⊢
  induction ls generalizing toks with
  | nil =>
    injection h with h
    exact h.symm
  | cons l ls ih =>
    simp only [readAll, Option.bind_eq_some_iff, Option.map_eq_some_iff] at h
    obtain ⟨ts, hl, rest, hrest, rfl⟩ := h
    rw [Lexeme.read_eq hl, ih hrest, filterMap_cons]
    cases l.sym? <;> rfl

lemma pgRead_cons (c : UInt8) (rest : GoString) : pgRead (c :: rest) =
    (pgStep c rest).1.read.bind fun ts => (pgRead (pgStep c rest).2).map fun rest => ts ++ rest := by
  rw [pgRead, pgLexemes_cons]
  rfl

/-- **The two readers in lockstep.** Over plain pieces both read one list of tokens, or the tokens of either
contain one that no query of the subset has. -/
theorem lockstep (n : ℕ) (sql : GoString) (hplain : ∀ l ∈ pgLexemes sql, l.Plain) :
    (∃ ts, tokenizeFrom n sql = .ok (ts ++ [{ kind := .eof, off := n }]) ∧ Views ts (pgSyms sql) ∧
      pgRead sql = some ((pgSyms sql).map (Tok.map Prod.snd))) ∨
    (∀ ts, tokenizeFrom n sql = .ok ts → ∃ t ∈ ts, t.view = some .literal) ∧ ∃ s ∈ pgSyms sql, s.Foreign := by
  induction hlen : sql.length using Nat.strong_induction_on generalizing sql with
  | _ len ih =>
    subst hlen
    cases sql with
    | nil =>
      have hnil : pgLexemes [] = [] := by rw [pgLexemes]
      refine .inl ⟨[], ?_, ?_, ?_⟩
      · rw [tokenizeFrom]
        rfl
      · rw [Views, pgSyms, hnil]
        rfl
      · rw [pgRead, pgSyms, hnil]
        rfl
    | cons c rest =>
      rw [pgLexemes_cons, forall_mem_cons] at hplain
      have hsyms : pgSyms (c :: rest) = (pgStep c rest).1.sym?.toList ++ pgSyms (pgStep c rest).2 := by
        rw [pgSyms, pgLexemes_cons, filterMap_cons]
        cases (pgStep c rest).1.sym? <;> rfl
      have hlen := pgStep_length c rest
      have hrec := ih (pgStep c rest).2.length (by simp only [length_cons]; omega) _ hplain.2 rfl
      rcases step_agrees (n - (rest.length + 1)) c rest hplain.1 with hagree | ⟨hlit, hforeign⟩
      · obtain ⟨t, rest', hstep, hviews, hread, hsame⟩ := hagree
        have htok : tokenizeFrom n (c :: rest) = (tokenizeFrom n (pgStep c rest).2).map fun ts => t.toList ++ ts := by
          rw [tokenizeFrom_cons, hstep, ← hsame n]
          rfl
        rcases hrec with ⟨ts, hts, hviews', hread'⟩ | ⟨hlit, hforeign⟩
        · refine .inl ⟨t.toList ++ ts, ?_, ?_, ?_⟩
          · rw [htok, hts]
            simp [Except.map]
          · rw [Views, hsyms, map_append, map_append, hviews, hviews']
          · rw [pgRead_cons, hread, hread', hsyms, map_append]
            rfl
        refine .inr ⟨fun ts hts => ?_, ?_⟩
        · rw [htok] at hts
          obtain ⟨ts', hts', rfl⟩ := Except.map_eq_ok hts
          obtain ⟨u, hu, hview⟩ := hlit ts' hts'
          exact ⟨u, mem_append_right _ hu, hview⟩
        · obtain ⟨s, hs, hf⟩ := hforeign
          exact ⟨s, by rw [hsyms]; exact mem_append_right _ hs, hf⟩
      refine .inr ⟨fun ts hts => ?_, ?_⟩
      · rw [tokenizeFrom_cons] at hts
        cases hstep : lexStep (n - (rest.length + 1)) c rest with
        | error rej =>
          rw [hstep] at hts
          cases hts
        | ok r =>
          rw [hstep] at hts
          obtain ⟨ts', -, rfl⟩ := Except.map_eq_ok hts
          obtain ⟨t', ht', hview⟩ := hlit r.1 r.2 hstep
          exact ⟨t', mem_append_left _ (by rw [ht']; exact mem_cons_self), hview⟩
      · obtain ⟨s, hs, hf⟩ := hforeign
        exact ⟨s, by rw [hsyms, hs]; exact mem_append_left _ mem_cons_self, hf⟩

end BatchWeaver.Sql
