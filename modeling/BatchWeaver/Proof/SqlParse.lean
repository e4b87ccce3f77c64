import BatchWeaver.Proof.SqlTree

/-!
# The parser, part by part

Every function of the recursive-descent parser is read as a statement about trees: what it returns comes
from a tree whose tokens it has consumed, and on the tokens of a tree it returns that tree's value. The
only lookahead the grammar needs is that no part is followed by a name, an `AS`, a dot or a parenthesis
(`Follow`).

For each part of the grammar there is a `_sound` lemma and a `_complete` lemma; loops of the parser are
inductions over the number of tokens in one direction and over the list of parts in the other.
-/

namespace BatchWeaver.Sql

open List

/-! ## Looking at tokens -/

/-- Well-formed tokens. -/
def Good (ts : List Token) : Prop := ∀ t ∈ ts, t.OK

/-- Identifiers that are not empty. -/
def Named (ts : List Token) : Prop := ∀ t ∈ ts, t.kind = .ident → t.text ≠ []

/-- The parser stands at a token. -/
def At (ts : List Token) (tok : Tok GoString) : Prop := (cur ts).view = some tok

/-- The parser goes from `ts` over the tokens to `ts'`. -/
def Reads : List Token → List (Tok GoString) → List Token → Prop
  | ts, [], ts' => ts = ts'
  | ts, tok :: toks, ts' => At ts tok ∧ Reads ts.tail toks ts'

lemma Good.cur {ts} (h : Good ts) : (cur ts).OK := by
  cases ts with
  | nil => exact Token.ok_of_kind rfl nofun
  | cons t ts => exact h t mem_cons_self

lemma Good.tail {ts : List Token} (h : Good ts) : Good ts.tail := fun t ht => h t (mem_of_mem_tail ht)

variable {t : Token}

variable {a : GoString}

lemma Token.view_name : t.view = some (.name a) ↔ t.kind = .ident ∧ t.text = a := by
  unfold Token.view
  cases t.kind <;> simp

lemma Token.view_param {n} : t.view = some (.param n) ↔ t.kind = .param ∧ paramNumber t.text = n := by
  unfold Token.view
  cases t.kind <;> simp

lemma Token.view_none : t.view = none ↔ t.kind = .eof := by
  unfold Token.view
  cases t.kind <;> simp

lemma Token.view_keyword (h : t.OK) {k} (hk : k ≠ []) : t.view = some (.keyword k) ↔ t.up = k := by
  by_cases hkind : t.kind = .keyword
  · simp [Token.view, hkind]
  rw [h.up hkind]
  refine ⟨fun hview => ?_, fun e => absurd e.symm hk⟩
  unfold Token.view at hview
  split at hview <;> simp_all

lemma Token.view_symbol (h : t.OK) {c} (hc : c ≠ ch '*') :
    t.view = some (.symbol c) ↔ t.isPunct [c] = true := by
  by_cases hkind : t.kind = .punct
  · obtain ⟨d, hd, -⟩ := h.punct hkind
    simp [Token.view, Token.isPunct, hkind, hd]
  have hno : t.isPunct [c] ≠ true := by simp [Token.isPunct, hkind]
  refine ⟨fun hview => ?_, fun e => absurd e hno⟩
  unfold Token.view at hview
  split at hview <;> simp_all

section

variable {ts ts' : List Token}
  {toks : List (Tok GoString)} {col : Column} {tok : Tok GoString} {i : Item GoString} {allow : Bool}
  {k : String}

lemma at_kw (h : Good ts) (hk : str k ≠ []) : (cur ts).up = str k ↔ At ts (kw k) :=
  (Token.view_keyword h.cur hk).symm

variable {s : String} {c : Char}

lemma at_sym (h : Good ts) (hs : str s = [ch c]) (hc : ch c ≠ ch '*') :
    (cur ts).isPunct (str s) = true ↔ At ts (sym c) := by
  rw [hs]
  exact (Token.view_symbol h.cur hc).symm

lemma at_name (h : (cur ts).kind = .ident) : At ts (.name (cur ts).text) := Token.view_name.2 ⟨h, rfl⟩

lemma At.ident (h : At ts (.name a)) : (cur ts).kind = .ident ∧ (cur ts).text = a :=
  Token.view_name.1 h

lemma At.unique {t u} (h : At ts t) (h' : At ts u) : t = u := Option.some.inj (h.symm.trans h')

lemma At.elim {t u} (h : At ts t) (h' : At ts u) (hne : t ≠ u) : False := hne (h.unique h')

lemma At.not_kw (hg : Good ts) (h : At ts tok) (hk : str k ≠ []) (hne : tok ≠ kw k) :
    (cur ts).up ≠ str k := fun e => hne (h.unique ((at_kw hg hk).1 e))

lemma At.not_sym (hg : Good ts) (h : At ts tok) (hs : str s = [ch c])
    (hc : ch c ≠ ch '*') (hne : tok ≠ sym c) : ¬(cur ts).isPunct (str s) = true :=
  fun e => hne (h.unique ((at_sym hg hs hc).1 e))

lemma reads_append {toks toks'} :
    Reads ts (toks ++ toks') ts' ↔ ∃ mid, Reads ts toks mid ∧ Reads mid toks' ts' := by
  induction toks generalizing ts with
  | nil => simp [Reads]
  | cons tok toks ih => simp [Reads, ih, and_assoc]

lemma Reads.good (h : Reads ts toks ts') (hg : Good ts) : Good ts' := by
  induction toks generalizing ts with
  | nil =>
    rw [← show ts = ts' from h]
    exact hg
  | cons tok toks ih => exact ih h.2 hg.tail

lemma Reads.named (h : Reads ts toks ts') (hn : Named ts) : ∀ a, .name a ∈ toks → a ≠ [] := by
  induction toks generalizing ts with
  | nil => exact nofun
  | cons tok toks ih =>
    intro a ha
    rcases mem_cons.1 ha with rfl | ha
    · have hid := h.1.ident
      cases ts with
      | nil => cases hid.1
      | cons t ts =>
        rw [← hid.2]
        exact hn t mem_cons_self hid.1
    · exact ih h.2 (fun t ht => hn t (mem_of_mem_tail ht)) a ha

/-- What has been read are the tokens before those left. -/
lemma reads_iff : Reads ts toks ts' ↔ ∃ body, ts = body ++ ts' ∧ body.map Token.view = toks.map some := by
  induction toks generalizing ts with
  | nil => simp [Reads]
  | cons tok toks ih =>
    rw [Reads, ih]
    constructor
    · rintro ⟨hat, body, htail, hviews⟩
      cases ts with
      | nil => cases hat
      | cons t ts =>
        refine ⟨t :: body, ?_, ?_⟩
        · rw [show ts = _ from htail]
          rfl
        · rw [map_cons, hviews, show t.view = some tok from hat]
          rfl
    rintro ⟨body, rfl, hviews⟩
    cases body with
    | nil => cases hviews
    | cons t body =>
      injection hviews with hview hviews
      exact ⟨hview, body, rfl, hviews⟩

/-- What may follow a column or a relation. -/
structure Follow (ts : List Token) : Prop where
  name : ∀ a, ¬At ts (.name a)
  as : ¬At ts (kw "AS")
  dot : ¬At ts (sym '.')
  paren : ¬At ts (sym '(')

lemma follow_kw (h : At ts (kw k)) (hk : str k ≠ str "AS") : Follow ts :=
  ⟨fun _ ha => h.elim ha nofun, fun ha => h.elim ha (kw_ne hk), fun ha => h.elim ha nofun, fun ha => h.elim ha nofun⟩

lemma follow_sym (h : At ts (sym c)) (hdot : ch c ≠ ch '.') (hparen : ch c ≠ ch '(') : Follow ts :=
  ⟨fun _ ha => h.elim ha nofun, fun ha => h.elim ha nofun,
    fun ha => hdot (Tok.symbol.inj (h.unique ha)), fun ha => hparen (Tok.symbol.inj (h.unique ha))⟩

lemma Follow.not_ident (h : Follow ts) : (cur ts).kind ≠ .ident := fun e => h.name _ (at_name e)

/-! ## Columns -/

section

variable (hg : Good ts)
include hg

variable {first : GoString}

lemma finishColumn_sound {col col' : Column} (hcol : col.aliasName = [])
    (h : finishColumn allow first col ts = .ok (col', ts')) :
    ∃ l : Alias GoString, Reads ts l.tokens ts' ∧ col' = { col with aliasName := l.name?.getD [] } ∧
      (allow = false → l = .none) := by
  have hsame : { col with aliasName := [] } = col := by rw [← hcol]
  unfold finishColumn at h
  split at h
  · cases h
  cases allow with
  | false =>
    cases h
    exact ⟨.none, rfl, hsame.symm, fun _ => rfl⟩
  | true =>
    simp only [if_true] at h
    split at h
    · rename_i has
      have hat := (at_kw hg (by decide)).1 has
      split at h
      · rename_i hid
        cases h
        exact ⟨.as _, ⟨hat, at_name hid, rfl⟩, rfl, nofun⟩
      · cases h
        exact ⟨.dangling, ⟨hat, rfl⟩, hsame.symm, nofun⟩
    split at h
    · rename_i hid
      cases h
      exact ⟨.bare _, ⟨at_name hid, rfl⟩, rfl, nofun⟩
    · cases h
      exact ⟨.none, rfl, hsame.symm, nofun⟩

lemma parseColumn_sound (h : parseColumn allow ts = .ok (col, ts')) :
    ∃ (c : ColRef GoString) (l : Alias GoString), Reads ts (c.tokens ++ l.tokens) ts' ∧
      col = Item.toColumn ⟨c, l⟩ ∧ (allow = false → l = .none) := by
  unfold parseColumn at h
  split at h
  · cases h
  rename_i hid
  have hname := at_name (not_not.1 hid)
  split at h
  · rename_i hdot
    split at h
    · cases h
    rename_i hid'
    obtain ⟨l, hreads, rfl, hnone⟩ := finishColumn_sound hg.tail.tail.tail rfl h
    have hat := (at_sym hg.tail rfl (by decide)).1 hdot
    exact ⟨⟨some _, _⟩, l, ⟨hname, hat, at_name (not_not.1 hid'), hreads⟩, rfl, hnone⟩
  · obtain ⟨l, hreads, rfl, hnone⟩ := finishColumn_sound hg.tail rfl h
    exact ⟨⟨none, _⟩, l, ⟨hname, hreads⟩, rfl, hnone⟩

lemma parseItem_sound (h : parseColumn true ts = .ok (col, ts')) :
    ∃ i : Item GoString, Reads ts i.tokens ts' ∧ col = i.toColumn := by
  obtain ⟨c, l, hreads, hcol, -⟩ := parseColumn_sound hg h
  exact ⟨⟨c, l⟩, hreads, hcol⟩

lemma parseColRef_sound (h : parseColumn false ts = .ok (col, ts')) :
    ∃ c : ColRef GoString, Reads ts c.tokens ts' ∧ col = c.toColumn := by
  obtain ⟨c, l, hreads, rfl, hnone⟩ := parseColumn_sound hg h
  rw [hnone rfl] at hreads ⊢
  rw [Alias.tokens, append_nil] at hreads
  exact ⟨c, hreads, rfl⟩

variable {l : Alias GoString}

lemma finishColumn_label (hcol : col.aliasName = []) (h : Reads ts l.tokens ts') (hf : Follow ts') :
    finishColumn true first col ts = .ok ({ col with aliasName := l.name?.getD [] }, ts') := by
  have hsame : { col with aliasName := [] } = col := by rw [← hcol]
  unfold finishColumn
  cases l with
  | none =>
    obtain rfl : ts = ts' := h
    rw [if_neg (fun e => hf.paren ((at_sym hg rfl (by decide)).1 e)), if_pos rfl,
      if_neg (fun e => hf.as ((at_kw hg (by decide)).1 e)), if_neg hf.not_ident]
    exact congrArg (fun c => Except.ok (c, ts)) hsame.symm
  | bare a =>
    obtain ⟨hat, rfl⟩ := h
    rw [if_neg (hat.not_sym hg rfl (by decide) nofun), if_pos rfl, if_neg (hat.not_kw hg (by decide) nofun),
      if_pos hat.ident.1, hat.ident.2]
    rfl
  | as a =>
    obtain ⟨hat, hname, rfl⟩ := h
    rw [if_neg (hat.not_sym hg rfl (by decide) nofun), if_pos rfl, if_pos ((at_kw hg (by decide)).2 hat),
      if_pos hname.ident.1, hname.ident.2]
    rfl
  | dangling =>
    obtain ⟨hat, rfl⟩ := h
    rw [if_neg (hat.not_sym hg rfl (by decide) nofun), if_pos rfl, if_pos ((at_kw hg (by decide)).2 hat),
      if_neg hf.not_ident]
    exact congrArg (fun c => Except.ok (c, ts.tail)) hsame.symm

variable {mid : List Token}

lemma parseColumn_of_ref {c : ColRef GoString} (h : Reads ts c.tokens mid)
    (hdot : ¬At mid (sym '.')) : ∃ first, parseColumn allow ts = finishColumn allow first c.toColumn mid := by
  obtain ⟨table, name⟩ := c
  unfold parseColumn
  cases table with
  | none =>
    obtain ⟨hat, rfl⟩ := h
    refine ⟨(cur ts).text, ?_⟩
    rw [if_neg (not_not.2 hat.ident.1)]
    rw [if_neg (fun e => hdot ((at_sym hg.tail rfl (by decide)).1 e)), hat.ident.2]
    rfl
  | some t =>
    obtain ⟨hat, hd, hname, rfl⟩ := h
    refine ⟨(cur ts).text, ?_⟩
    rw [if_neg (not_not.2 hat.ident.1)]
    rw [if_pos ((at_sym hg.tail rfl (by decide)).2 hd), if_neg (not_not.2 hname.ident.1), hat.ident.2, hname.ident.2]
    rfl

omit hg in
lemma alias_no_dot (h : Reads mid l.tokens ts') (hf : Follow ts') : ¬At mid (sym '.') := by
  cases l with
  | none =>
    obtain rfl : mid = ts' := h
    exact hf.dot
  | _ => exact fun e => h.1.elim e nofun

lemma parseColumn_item (h : Reads ts i.tokens ts') (hf : Follow ts') : parseColumn true ts = .ok (i.toColumn, ts') := by
  obtain ⟨mid, hcol, hlabel⟩ := reads_append.1 h
  obtain ⟨first, hparse⟩ := parseColumn_of_ref hg hcol (alias_no_dot hlabel hf)
  rw [hparse, finishColumn_label (hcol.good hg) rfl hlabel hf]
  rfl

lemma parseColumn_colRef {c : ColRef GoString} (h : Reads ts c.tokens ts') (hf : Follow ts') :
    parseColumn false ts = .ok (c.toColumn, ts') := by
  obtain ⟨first, hparse⟩ := parseColumn_of_ref hg h hf.dot
  rw [hparse, finishColumn, if_neg (fun e => hf.paren ((at_sym (h.good hg) rfl (by decide)).1 e))]
  rfl

end

/-! ## The projection -/

lemma parseProjection_eq (ts : List Token) : parseProjection ts = if (cur ts).kind = .star then
      .error ⟨codeProjectionAmbiguous, str "SELECT * is not supported for synthesis; list explicit columns",
        str "*", (cur ts).off⟩ else (parseColumn true ts).bind fun r => if (cur r.2).isPunct (str ",") then
        (parseProjection r.2.tail).map fun r' => (r.1 :: r'.1, r'.2) else .ok ([r.1], r.2) := by
  rw [parseProjection]
  split
  · rfl
  split
  · rename_i rej hcol
    rw [hcol]
    rfl
  rename_i col rest hcol
  rw [hcol]
  simp only [Except.bind]
  split
  · split
    · rename_i rej hrec
      rw [hrec]
      rfl
    rename_i cols rest' hrec
    rw [hrec]
    rfl
  · rfl

lemma parseProjection_sound (hg : Good ts) {cols}
    (h : parseProjection ts = .ok (cols, ts')) : ∃ (i : Item GoString) (is : List (Item GoString)),
      Reads ts (i.tokens ++ is.flatMap fun i => sym ',' :: i.tokens) ts' ∧ cols = (i :: is).map Item.toColumn := by
  induction hlen : ts.length using Nat.strong_induction_on generalizing ts cols ts' with
  | _ len ih =>
    subst hlen
    rw [parseProjection_eq] at h
    split at h
    · cases h
    cases hcol : parseColumn true ts with
    | error rej =>
      rw [hcol] at h
      cases h
    | ok r =>
      obtain ⟨col, mid⟩ := r
      rw [hcol] at h
      simp only [Except.bind] at h
      obtain ⟨i, hreads, rfl⟩ := parseItem_sound hg hcol
      have hmid := hreads.good hg
      split at h
      · rename_i hcomma
        obtain ⟨⟨cols', rest⟩, hrec, hr⟩ := Except.map_eq_ok h
        have hlt := parseColumn_length hcol
        have htail : mid.tail.length < ts.length := by
          rw [length_tail]
          omega
        obtain ⟨j, js, hjs, hcols⟩ := ih mid.tail.length htail hmid.tail hrec rfl
        cases hr
        refine ⟨i, j :: js, reads_append.2 ⟨mid, hreads, ?_⟩, by rw [hcols]; rfl⟩
        exact ⟨(at_sym hmid rfl (by decide)).1 hcomma, hjs⟩
      · cases h
        exact ⟨i, [], by simpa using hreads, rfl⟩

lemma item_not_star (h : Reads ts i.tokens ts') : (cur ts).kind ≠ .star := by
  have hat : ∃ a, At ts (.name a) := by
    obtain ⟨⟨table, name⟩, label⟩ := i
    cases table with
    | none => exact ⟨name, h.1⟩
    | some t => exact ⟨t, h.1⟩
  obtain ⟨a, hat⟩ := hat
  rw [hat.ident.1]
  exact nofun

lemma parseProjection_complete (hg : Good ts) {is : List (Item GoString)}
    (h : Reads ts (i.tokens ++ is.flatMap fun i => sym ',' :: i.tokens) ts') (hf : Follow ts')
    (hcomma : ¬At ts' (sym ',')) : parseProjection ts = .ok ((i :: is).map Item.toColumn, ts') := by
  induction is generalizing ts i with
  | nil =>
    rw [flatMap_nil, append_nil] at h
    rw [parseProjection_eq, if_neg (item_not_star h), parseColumn_item hg h hf]
    simp only [Except.bind]
    rw [if_neg (fun e => hcomma ((at_sym (h.good hg) rfl (by decide)).1 e))]
    rfl
  | cons j js ih =>
    obtain ⟨mid, hitem, hat, hrest⟩ := reads_append.1 h
    have hmid := hitem.good hg
    have hfollow : Follow mid := follow_sym hat (by decide) (by decide)
    rw [parseProjection_eq, if_neg (item_not_star hitem), parseColumn_item hg hitem hfollow]
    simp only [Except.bind]
    rw [if_pos ((at_sym hmid rfl (by decide)).2 hat), ih hmid.tail hrest]
    rfl

/-! ## Relations and joins -/

lemma parseRelation_sound (hg : Good ts) {code reason rel}
    (h : parseRelation code reason ts = .ok (rel, ts')) :
    ∃ r : Rel GoString, Reads ts r.tokens ts' ∧ rel = r.toRelation := by
  unfold parseRelation at h
  split at h
  · cases h
  rename_i hid
  have hname := at_name (not_not.1 hid)
  by_cases has : (cur ts.tail).up = str "AS"
  · have hat := (at_kw hg.tail (by decide)).1 has
    simp only [has, if_true] at h
    split at h
    · rename_i hid'
      cases h
      exact ⟨⟨_, .as _⟩, ⟨hname, hat, at_name hid', rfl⟩, rfl⟩
    · cases h
      exact ⟨⟨_, .dangling⟩, ⟨hname, hat, rfl⟩, rfl⟩
  simp only [has, if_false] at h
  split at h
  · rename_i hid'
    cases h
    exact ⟨⟨_, .bare _⟩, ⟨hname, at_name hid', rfl⟩, rfl⟩
  · cases h
    exact ⟨⟨_, .none⟩, ⟨hname, rfl⟩, rfl⟩

lemma parseRelation_complete (hg : Good ts) {code reason} {r : Rel GoString}
    (h : Reads ts r.tokens ts') (hf : Follow ts') : parseRelation code reason ts = .ok (r.toRelation, ts') := by
  obtain ⟨name, label⟩ := r
  obtain ⟨hname, h⟩ := h
  unfold parseRelation
  rw [if_neg (not_not.2 hname.ident.1), hname.ident.2]
  cases label with
  | none =>
    obtain rfl : ts.tail = ts' := h
    rw [if_neg (fun e => hf.as ((at_kw hg.tail (by decide)).1 e)), if_neg hf.not_ident]
    rfl
  | bare a =>
    obtain ⟨hat, rfl⟩ := h
    rw [if_neg (hat.not_kw hg.tail (by decide) nofun), if_pos hat.ident.1, hat.ident.2]
    rfl
  | as a =>
    obtain ⟨hat, hid, rfl⟩ := h
    rw [if_pos ((at_kw hg.tail (by decide)).2 hat), if_pos hid.ident.1, hid.ident.2]
    rfl
  | dangling =>
    obtain ⟨hat, rfl⟩ := h
    rw [if_pos ((at_kw hg.tail (by decide)).2 hat), if_neg hf.not_ident]
    rfl

lemma parseJoinWords_sound (hg : Good ts) {kind} (h : parseJoinWords ts = .ok (kind, ts')) :
    ∃ w : JoinWords, Reads ts w.tokens ts' ∧ kind = w.kind := by
  unfold parseJoinWords at h
  by_cases hleft : (cur ts).up = str "LEFT"
  · have hat := (at_kw hg (by decide)).1 hleft
    by_cases houter : (cur ts.tail).up = str "OUTER"
    · have hat' := (at_kw hg.tail (by decide)).1 houter
      simp only [hleft, houter, if_true] at h
      split at h
      · cases h
      rename_i hjoin
      cases h
      exact ⟨.leftOuter, ⟨hat, hat', (at_kw hg.tail.tail (by decide)).1 (not_not.1 hjoin), rfl⟩, rfl⟩
    simp only [hleft, houter, if_true, if_false] at h
    split at h
    · cases h
    rename_i hjoin
    cases h
    exact ⟨.left, ⟨hat, (at_kw hg.tail (by decide)).1 (not_not.1 hjoin), rfl⟩, rfl⟩
  by_cases hinner : (cur ts).up = str "INNER"
  · have hat := (at_kw hg (by decide)).1 hinner
    rw [if_neg hleft] at h
    simp only [hinner, if_true] at h
    split at h
    · cases h
    rename_i hjoin
    cases h
    exact ⟨.inner, ⟨hat, (at_kw hg.tail (by decide)).1 (not_not.1 hjoin), rfl⟩, rfl⟩
  simp only [hleft, hinner, if_false] at h
  split at h
  · cases h
  rename_i hjoin
  cases h
  exact ⟨.plain, ⟨(at_kw hg (by decide)).1 (not_not.1 hjoin), rfl⟩, rfl⟩

lemma parseJoinWords_complete (hg : Good ts) {w : JoinWords} (h : Reads ts w.tokens ts') :
    parseJoinWords ts = .ok (w.kind, ts') := by
  unfold parseJoinWords
  cases w with
  | plain =>
    obtain ⟨hjoin, rfl⟩ := h
    rw [if_neg (hjoin.not_kw hg (by decide) (kw_ne (by decide)))]
    rw [if_neg (hjoin.not_kw hg (by decide) (kw_ne (by decide))), if_neg (not_not.2 ((at_kw hg (by decide)).2 hjoin))]
    rfl
  | inner =>
    obtain ⟨hinner, hjoin, rfl⟩ := h
    rw [if_neg (hinner.not_kw hg (by decide) (kw_ne (by decide)))]
    rw [if_pos ((at_kw hg (by decide)).2 hinner), if_neg (not_not.2 ((at_kw hg.tail (by decide)).2 hjoin))]
    rfl
  | left =>
    obtain ⟨hleft, hjoin, rfl⟩ := h
    rw [if_pos ((at_kw hg (by decide)).2 hleft)]
    rw [if_neg (hjoin.not_kw hg.tail (by decide) (kw_ne (by decide))),
      if_neg (not_not.2 ((at_kw hg.tail (by decide)).2 hjoin))]
    rfl
  | leftOuter =>
    obtain ⟨hleft, houter, hjoin, rfl⟩ := h
    rw [if_pos ((at_kw hg (by decide)).2 hleft)]
    rw [if_pos ((at_kw hg.tail (by decide)).2 houter), if_neg (not_not.2 ((at_kw hg.tail.tail (by decide)).2 hjoin))]
    rfl

/-- What a join has to satisfy in the parser. -/
def JoinChecked (baseRef : GoString) (j : Join) : Prop :=
  j.relation.ref ≠ baseRef ∧ connects baseRef j.relation.ref j.left j.right = true

variable {baseRef : GoString}

lemma parseJoin_sound (hg : Good ts) {join} (h : parseJoin baseRef ts = .ok (join, ts')) :
    ∃ j : JoinTree GoString, Reads ts j.tokens ts' ∧ join = j.toJoin ∧ JoinChecked baseRef j.toJoin := by
  unfold parseJoin at h
  split at h
  · cases h
  rename_i kind ts₁ hwords
  obtain ⟨w, hw, rfl⟩ := parseJoinWords_sound hg hwords
  have hg₁ := hw.good hg
  split at h
  · cases h
  rename_i rel ts₂ hrel
  obtain ⟨r, hr, rfl⟩ := parseRelation_sound hg₁ hrel
  have hg₂ := hr.good hg₁
  split at h
  · cases h
  rename_i hdist
  split at h
  · cases h
  rename_i hon
  have hat := (at_kw hg₂ (by decide)).1 (not_not.1 hon)
  split at h
  · cases h
  rename_i left ts₃ hleft
  obtain ⟨a, ha, rfl⟩ := parseColRef_sound hg₂.tail hleft
  have hg₃ := ha.good hg₂.tail
  split at h
  · cases h
  rename_i heq
  rw [Bool.not_eq_true', Bool.not_eq_false] at heq
  have hat' := (at_sym hg₃ rfl (by decide)).1 heq
  split at h
  · cases h
  rename_i right ts₄ hright
  obtain ⟨b, hb, rfl⟩ := parseColRef_sound hg₃.tail hright
  split at h
  · cases h
  rename_i hconn
  rw [Bool.not_eq_true', Bool.not_eq_false] at hconn
  cases h
  refine ⟨⟨w, r, a, b⟩, ?_, rfl, hdist, hconn⟩
  exact reads_append.2 ⟨ts₁, hw, reads_append.2 ⟨ts₂, hr, hat, reads_append.2 ⟨ts₃, ha, hat', hb⟩⟩⟩

lemma parseJoin_complete (hg : Good ts) {j : JoinTree GoString}
    (h : Reads ts j.tokens ts') (hf : Follow ts') (hok : JoinChecked baseRef j.toJoin) :
    parseJoin baseRef ts = .ok (j.toJoin, ts') := by
  obtain ⟨ts₁, hw, h⟩ := reads_append.1 h
  obtain ⟨ts₂, hr, hon, h⟩ := reads_append.1 h
  obtain ⟨ts₃, ha, heq, hb⟩ := reads_append.1 h
  have hg₁ := hw.good hg
  have hg₂ := hr.good hg₁
  have hg₃ := ha.good hg₂.tail
  have hdist : j.relation.toRelation.ref ≠ baseRef := hok.1
  have hconn : connects baseRef j.relation.toRelation.ref j.left.toColumn j.right.toColumn = true := hok.2
  unfold parseJoin
  rw [parseJoinWords_complete hg hw]
  simp only
  rw [parseRelation_complete hg₁ hr (follow_kw hon (by decide))]
  simp only
  rw [if_neg hdist, if_neg (not_not.2 ((at_kw hg₂ (by decide)).2 hon)),
    parseColumn_colRef hg₂.tail ha (follow_sym heq (by decide) (by decide))]
  simp only
  rw [(at_sym hg₃ rfl (by decide)).2 heq, parseColumn_colRef hg₃.tail hb hf]
  simp only [Bool.not_true, hconn]
  rfl

/-! ## Predicates -/

/-- What a filter has to satisfy in the parser. -/
def FilterChecked (q : ParsedQuery) : Pred GoString → Prop
  | .key _ _ => True
  | .null c _ => q.join.isSome → c.toColumn.table ≠ [] ∧ queryRelationRef q c.toColumn.table = true

lemma add_checked (q : ParsedQuery) (p p' : Pred GoString) : FilterChecked (q.add p) p' ↔ FilterChecked q p' := by
  cases p <;> cases p' <;> rfl

section

variable (hg : Good ts)
include hg

variable {off : ℕ} {neg : Bool}

lemma parseFilter_sound (h : parseFilter off ts = .ok (neg, ts')) :
    Reads ts (kw "IS" :: if neg then [kw "NOT", kw "NULL"] else [kw "NULL"]) ts' := by
  unfold parseFilter at h
  split at h
  · cases h
  rename_i his
  have hat := (at_kw hg (by decide)).1 (not_not.1 his)
  split at h
  · rename_i hnot
    have hat' := (at_kw hg.tail (by decide)).1 hnot
    unfold parseNull at h
    split at h
    · cases h
    rename_i hnull
    cases h
    exact ⟨hat, hat', (at_kw hg.tail.tail (by decide)).1 (not_not.1 hnull), rfl⟩
  unfold parseNull at h
  split at h
  · cases h
  rename_i hnull
  cases h
  exact ⟨hat, (at_kw hg.tail (by decide)).1 (not_not.1 hnull), rfl⟩

lemma parseFilter_complete (h : Reads ts (kw "IS" :: if neg then [kw "NOT", kw "NULL"] else [kw "NULL"]) ts') :
    parseFilter off ts = .ok (neg, ts') := by
  unfold parseFilter parseNull
  cases neg with
  | true =>
    obtain ⟨his, hnot, hnull, rfl⟩ := h
    rw [if_neg (not_not.2 ((at_kw hg (by decide)).2 his)), if_pos ((at_kw hg.tail (by decide)).2 hnot),
      if_neg (not_not.2 ((at_kw hg.tail.tail (by decide)).2 hnull))]
  | false =>
    obtain ⟨his, hnull, rfl⟩ := h
    rw [if_neg (not_not.2 ((at_kw hg (by decide)).2 his)),
      if_neg (hnull.not_kw hg.tail (by decide) (kw_ne (by decide))),
      if_neg (not_not.2 ((at_kw hg.tail (by decide)).2 hnull))]

variable {q : ParsedQuery}

lemma parsePredicate_sound {q'} (h : parsePredicate q ts = .ok (q', ts')) :
    ∃ p : Pred GoString, Reads ts p.tokens ts' ∧ q' = q.add p ∧ FilterChecked q p := by
  unfold parsePredicate at h
  split at h
  · cases h
  rename_i ec rest hcol
  obtain ⟨c, hc, rfl⟩ := parseColRef_sound hg hcol
  have hrest := hc.good hg
  split at h
  · rename_i heq
    split at h
    · cases h
    rename_i hparam
    cases h
    refine ⟨.key c _, reads_append.2 ⟨rest, hc, (at_sym hrest rfl (by decide)).1 heq, ?_, rfl⟩, rfl, trivial⟩
    exact Token.view_param.2 ⟨not_not.1 hparam, rfl⟩
  split at h
  · cases h
  rename_i hqual
  split at h
  · cases h
  rename_i href
  split at h
  · cases h
  rename_i neg rest' hfilter
  cases h
  refine ⟨.null c neg, reads_append.2 ⟨rest, hc, parseFilter_sound hrest hfilter⟩, rfl, fun hjoin => ⟨?_, ?_⟩⟩
  · exact fun e => hqual ⟨hjoin, e⟩
  · exact Bool.not_eq_false _ ▸ fun e => href ⟨hjoin, e⟩

variable {p : Pred GoString}

lemma parsePredicate_complete (h : Reads ts p.tokens ts')
    (hok : FilterChecked q p) : parsePredicate q ts = .ok (q.add p, ts') := by
  unfold parsePredicate
  cases p with
  | key c n =>
    obtain ⟨rest, hc, heq, hparam, rfl⟩ := reads_append.1 h
    have hrest := hc.good hg
    have hview := Token.view_param.1 hparam
    rw [parseColumn_colRef hg hc (follow_sym heq (by decide) (by decide))]
    simp only
    rw [if_pos ((at_sym hrest rfl (by decide)).2 heq), if_neg (not_not.2 hview.1), hview.2]
    rfl
  | null c neg =>
    obtain ⟨rest, hc, hnull⟩ := reads_append.1 h
    have hrest := hc.good hg
    have his : At rest (kw "IS") := hnull.1
    rw [parseColumn_colRef hg hc (follow_kw his (by decide))]
    simp only
    rw [if_neg (his.not_sym hrest rfl (by decide) nofun), if_neg (fun e => (hok e.1).1 e.2),
      if_neg (fun e => Bool.noConfusion (e.2.symm.trans (hok e.1).2)), parseFilter_complete hrest hnull]
    rfl

omit hg in
lemma parsePredicates_eq (q : ParsedQuery) (ts : List Token) : parsePredicates q ts =
    (parsePredicate q ts).bind fun r => if (cur r.2).up ≠ str "AND" then .ok r else parsePredicates r.1 r.2.tail := by
  rw [parsePredicates]
  split
  · rename_i rej hpred
    rw [hpred]
    rfl
  rename_i q' rest hpred
  rw [hpred]
  rfl

lemma parsePredicates_sound {q'} (h : parsePredicates q ts = .ok (q', ts')) :
    ∃ (p : Pred GoString) (ps : List (Pred GoString)),
      Reads ts (p.tokens ++ ps.flatMap fun p => kw "AND" :: p.tokens) ts' ∧
      q' = (p :: ps).foldl ParsedQuery.add q ∧ ∀ p' ∈ p :: ps, FilterChecked q p' := by
  induction hlen : ts.length using Nat.strong_induction_on generalizing ts q with
  | _ len ih =>
    subst hlen
    rw [parsePredicates_eq] at h
    cases hpred : parsePredicate q ts with
    | error rej =>
      rw [hpred] at h
      cases h
    | ok r =>
      obtain ⟨q₁, mid⟩ := r
      rw [hpred] at h
      simp only [Except.bind] at h
      obtain ⟨p, hreads, rfl, hok⟩ := parsePredicate_sound hg hpred
      have hmid := hreads.good hg
      split at h
      · cases h
        exact ⟨p, [], by simpa using hreads, rfl, by simpa using hok⟩
      rename_i hand
      have hlt := parsePredicate_length hpred
      have htail : mid.tail.length < ts.length := by
        rw [length_tail]
        omega
      obtain ⟨p', ps, hps, rfl, hall⟩ := ih mid.tail.length htail hmid.tail h rfl
      refine ⟨p, p' :: ps, reads_append.2 ⟨mid, hreads, ?_⟩, rfl, forall_mem_cons.2 ⟨hok, ?_⟩⟩
      · exact ⟨(at_kw hmid (by decide)).1 (not_not.1 hand), hps⟩
      · exact fun x hx => (add_checked q p x).1 (hall x hx)

lemma parsePredicates_complete {ps : List (Pred GoString)}
    (h : Reads ts (p.tokens ++ ps.flatMap fun p => kw "AND" :: p.tokens) ts') (hand : ¬At ts' (kw "AND"))
    (hok : ∀ p' ∈ p :: ps, FilterChecked q p') :
    parsePredicates q ts = .ok ((p :: ps).foldl ParsedQuery.add q, ts') := by
  induction ps generalizing ts q p with
  | nil =>
    rw [flatMap_nil, append_nil] at h
    rw [parsePredicates_eq, parsePredicate_complete hg h (hok p mem_cons_self)]
    simp only [Except.bind]
    rw [if_pos (fun e => hand ((at_kw (h.good hg) (by decide)).1 e))]
    rfl
  | cons p' ps ih =>
    obtain ⟨mid, hpred, hat, hrest⟩ := reads_append.1 h
    have hmid := hpred.good hg
    have hok' : ∀ x ∈ p' :: ps, FilterChecked (q.add p) x :=
      fun x hx => (add_checked q p x).2 (hok x (mem_cons_of_mem _ hx))
    rw [parsePredicates_eq, parsePredicate_complete hg hpred (hok p mem_cons_self)]
    simp only [Except.bind]
    rw [if_neg (not_not.2 ((at_kw hmid (by decide)).2 hat)), ih hmid.tail hrest hok']
    rfl

end

end

end BatchWeaver.Sql
