import BatchWeaver.Proof.SqlLex

/-!
# Queries of the subset

Facts about the trees of the grammar that do not mention the parser: how their tokens behave when the
identifiers are read another way, which tokens they can have, and which of their names scope columns.

* `Select.lift`: a reading of the tokens of a tree that changes only identifiers is a tree of its own.
* `Select.OK.transfer`: two readings that agree on the names that scope columns satisfy the same side
  conditions.
* `Select.strict_of_asNamed`: if a name stands after every `AS`, no alias is missing.
-/

namespace BatchWeaver.Sql

open List

variable {α β γ : Type}

/-! ## Another reading of the identifiers -/

section

variable (f : α → β)

def ColRef.map (c : ColRef α) : ColRef β := ⟨c.table.map f, f c.name⟩

def Alias.map : Alias α → Alias β
  | .none => .none
  | .bare a => .bare (f a)
  | .as a => .as (f a)
  | .dangling => .dangling

def Item.map (i : Item α) : Item β := ⟨i.column.map f, i.label.map f⟩

def Rel.map (r : Rel α) : Rel β := ⟨f r.name, r.label.map f⟩

def JoinTree.map (j : JoinTree α) : JoinTree β := ⟨j.words, j.relation.map f, j.left.map f, j.right.map f⟩

def Pred.map : Pred α → Pred β
  | .key c n => .key (c.map f) n
  | .null c neg => .null (c.map f) neg

def Select.map (q : Select α) : Select β :=
  ⟨q.item.map f, q.items.map (Item.map f), q.relation.map f, q.join.map (JoinTree.map f), q.pred.map f,
    q.preds.map (Pred.map f), q.semicolon⟩

@[simp] theorem Tok.map_kw (k : String) : Tok.map f (kw k) = kw k := rfl

@[simp] theorem Tok.map_sym (c : Char) : Tok.map f (sym c) = sym c := rfl

end

variable {l : List (Tok α)} {f : α → β} {q : Select α} {t : Tok α} {j : JoinTree α} {g : γ → β}

@[simp] theorem Tok.map_eq_kw {k : String} : t.map f = kw k ↔ t = kw k := by
  cases t <;> simp [Tok.map, kw]

@[simp] theorem Tok.map_eq_sym {c : Char} : t.map f = sym c ↔ t = sym c := by
  cases t <;> simp [Tok.map, sym]

@[simp] theorem Tok.map_eq_name {b : β} : t.map f = .name b ↔ ∃ a, t = .name a ∧ f a = b := by
  cases t <;> simp [Tok.map]

@[simp] theorem Tok.map_eq_param {n : ℤ} : t.map f = .param n ↔ t = .param n := by
  cases t <;> simp [Tok.map]

section

variable (f : α → β)

lemma ColRef.tokens_map (c : ColRef α) : (c.map f).tokens = c.tokens.map (Tok.map f) := by
  obtain ⟨table, name⟩ := c
  cases table <;> rfl

lemma Alias.tokens_map (a : Alias α) : (a.map f).tokens = a.tokens.map (Tok.map f) := by
  cases a <;> rfl

lemma Item.tokens_map (i : Item α) : (i.map f).tokens = i.tokens.map (Tok.map f) := by
  simp [Item.tokens, Item.map, ColRef.tokens_map, Alias.tokens_map]

lemma Rel.tokens_map (r : Rel α) : (r.map f).tokens = r.tokens.map (Tok.map f) := by
  simp [Rel.tokens, Rel.map, Alias.tokens_map, Tok.map]

lemma JoinWords.tokens_map (w : JoinWords) : (w.tokens : List (Tok β)) = w.tokens.map (Tok.map f) := by
  cases w <;> rfl

lemma JoinTree.tokens_map (j : JoinTree α) : (j.map f).tokens = j.tokens.map (Tok.map f) := by
  simp [JoinTree.tokens, JoinTree.map, ColRef.tokens_map, Rel.tokens_map, ← JoinWords.tokens_map]

lemma Pred.tokens_map (p : Pred α) : (p.map f).tokens = p.tokens.map (Tok.map f) := by
  cases p with
  | key c n =>
    simp only [Pred.tokens, Pred.map, ColRef.tokens_map, map_append, map_cons, map_nil, Tok.map_sym]
    rfl
  | null c neg => cases neg <;> simp [Pred.tokens, Pred.map, ColRef.tokens_map]

lemma Select.tokens_map (q : Select α) : (q.map f).tokens = q.tokens.map (Tok.map f) := by
  have hitems : ∀ items : List (Item α), (items.map (Item.map f)).flatMap (fun i => sym ',' :: i.tokens) =
      (items.flatMap fun i => sym ',' :: i.tokens).map (Tok.map f) := by
    intro items
    simp [flatMap_map, map_flatMap, Item.tokens_map]
  have hpreds : ∀ preds : List (Pred α), (preds.map (Pred.map f)).flatMap (fun p => kw "AND" :: p.tokens) =
      (preds.flatMap fun p => kw "AND" :: p.tokens).map (Tok.map f) := by
    intro preds
    simp [flatMap_map, map_flatMap, Pred.tokens_map]
  obtain ⟨item, items, rel, join, pred, preds, semi⟩ := q
  have hjoin : ((join.map (JoinTree.map f)).map JoinTree.tokens).getD [] =
      ((join.map JoinTree.tokens).getD []).map (Tok.map f) := by
    cases join with
    | none => rfl
    | some j => exact JoinTree.tokens_map f j
  simp only [Select.tokens, Select.map, map_cons, map_append, Item.tokens_map, Rel.tokens_map,
    Pred.tokens_map, hitems, hpreds, hjoin, Tok.map_kw]
  cases semi <;> rfl

end

variable {c : ColRef α} {i : Item α} {p : Pred α}

/-! ## Tokens of a reading come from a tree -/

lemma ColRef.lift {c} (h : l.map (Tok.map f) = c.tokens) : ∃ c' : ColRef α, c'.map f = c ∧ c'.tokens = l := by
  obtain ⟨table, name⟩ := c
  cases table with
  | none =>
    simp only [ColRef.tokens, map_eq_cons_iff, Tok.map_eq_name, map_eq_nil_iff] at h
    obtain ⟨_, _, rfl, ⟨a, rfl, rfl⟩, rfl⟩ := h
    exact ⟨⟨none, a⟩, rfl, rfl⟩
  | some t =>
    simp only [ColRef.tokens, map_eq_cons_iff, Tok.map_eq_name, Tok.map_eq_sym, map_eq_nil_iff] at h
    obtain ⟨_, _, rfl, ⟨a, rfl, rfl⟩, _, _, rfl, rfl, _, _, rfl, ⟨b, rfl, rfl⟩, rfl⟩ := h
    exact ⟨⟨some a, b⟩, rfl, rfl⟩

lemma Alias.lift {a} (h : l.map (Tok.map f) = a.tokens) : ∃ a' : Alias α, a'.map f = a ∧ a'.tokens = l := by
  cases a with
  | none => exact ⟨.none, rfl, (map_eq_nil_iff.1 h).symm⟩
  | bare b =>
    simp only [Alias.tokens, map_eq_cons_iff, Tok.map_eq_name, map_eq_nil_iff] at h
    obtain ⟨_, _, rfl, ⟨a, rfl, rfl⟩, rfl⟩ := h
    exact ⟨.bare a, rfl, rfl⟩
  | as b =>
    simp only [Alias.tokens, map_eq_cons_iff, Tok.map_eq_name, Tok.map_eq_kw, map_eq_nil_iff] at h
    obtain ⟨_, _, rfl, rfl, _, _, rfl, ⟨a, rfl, rfl⟩, rfl⟩ := h
    exact ⟨.as a, rfl, rfl⟩
  | dangling =>
    simp only [Alias.tokens, map_eq_cons_iff, Tok.map_eq_kw, map_eq_nil_iff] at h
    obtain ⟨_, _, rfl, rfl, rfl⟩ := h
    exact ⟨.dangling, rfl, rfl⟩

lemma Item.lift {i} (h : l.map (Tok.map f) = i.tokens) : ∃ i' : Item α, i'.map f = i ∧ i'.tokens = l := by
  obtain ⟨l₁, l₂, rfl, h₁, h₂⟩ := map_eq_append_iff.1 h
  obtain ⟨c, hc, rfl⟩ := ColRef.lift h₁
  obtain ⟨a, ha, rfl⟩ := Alias.lift h₂
  exact ⟨⟨c, a⟩, by rw [Item.map, hc, ha], rfl⟩

lemma Rel.lift {r} (h : l.map (Tok.map f) = r.tokens) : ∃ r' : Rel α, r'.map f = r ∧ r'.tokens = l := by
  obtain ⟨_, l', rfl, hname, h'⟩ := map_eq_cons_iff.1 h
  obtain ⟨n, rfl, hn⟩ := Tok.map_eq_name.1 hname
  obtain ⟨a, ha, rfl⟩ := Alias.lift h'
  exact ⟨⟨n, a⟩, by rw [Rel.map, hn, ha], rfl⟩

/-- Lists of keywords are read back as they are. -/
lemma lift_words (ks : List String) (h : l.map (Tok.map f) = ks.map kw) : l = ks.map kw := by
  induction ks generalizing l with
  | nil => exact map_eq_nil_iff.1 h
  | cons k ks ih =>
    obtain ⟨t, l', rfl, ht, h'⟩ := map_eq_cons_iff.1 h
    rw [Tok.map_eq_kw.1 ht, ih h']
    rfl

lemma JoinWords.lift {w : JoinWords} (h : l.map (Tok.map f) = w.tokens) : l = w.tokens := by
  cases w with
  | plain => exact lift_words ["JOIN"] h
  | inner => exact lift_words ["INNER", "JOIN"] h
  | left => exact lift_words ["LEFT", "JOIN"] h
  | leftOuter => exact lift_words ["LEFT", "OUTER", "JOIN"] h

lemma JoinTree.lift {j : JoinTree β} (h : l.map (Tok.map f) = j.tokens) :
    ∃ j' : JoinTree α, j'.map f = j ∧ j'.tokens = l := by
  obtain ⟨l₁, l₂, rfl, hwords, h⟩ := map_eq_append_iff.1 h
  obtain ⟨l₃, l₄, rfl, hrel, h⟩ := map_eq_append_iff.1 h
  obtain ⟨t, l₅, rfl, hon, h⟩ := map_eq_cons_iff.1 h
  obtain ⟨l₆, l₇, rfl, hleft, h⟩ := map_eq_append_iff.1 h
  obtain ⟨u, l₈, rfl, heq, hright⟩ := map_eq_cons_iff.1 h
  obtain ⟨r, hr, rfl⟩ := Rel.lift hrel
  obtain ⟨a, ha, rfl⟩ := ColRef.lift hleft
  obtain ⟨b, hb, rfl⟩ := ColRef.lift hright
  refine ⟨⟨j.words, r, a, b⟩, by rw [JoinTree.map, hr, ha, hb], ?_⟩
  rw [JoinTree.tokens, JoinWords.lift hwords, Tok.map_eq_kw.1 hon, Tok.map_eq_sym.1 heq]

lemma Pred.lift {p} (h : l.map (Tok.map f) = p.tokens) : ∃ p' : Pred α, p'.map f = p ∧ p'.tokens = l := by
  cases p with
  | key c n =>
    obtain ⟨l₁, l₂, rfl, hcol, h⟩ := map_eq_append_iff.1 h
    simp only [map_eq_cons_iff, Tok.map_eq_sym, Tok.map_eq_param, map_eq_nil_iff] at h
    obtain ⟨_, _, rfl, rfl, _, _, rfl, rfl, rfl⟩ := h
    obtain ⟨c', hc, rfl⟩ := ColRef.lift hcol
    exact ⟨.key c' n, by rw [Pred.map, hc], rfl⟩
  | null c neg =>
    obtain ⟨l₁, l₂, rfl, hcol, hnull⟩ := map_eq_append_iff.1 h
    obtain ⟨c', hc, rfl⟩ := ColRef.lift hcol
    refine ⟨.null c' neg, by rw [Pred.map, hc], ?_⟩
    clear h
    cases neg with
    | true => rw [show l₂ = _ from lift_words ["IS", "NOT", "NULL"] hnull]; rfl
    | false => rw [show l₂ = _ from lift_words ["IS", "NULL"] hnull]; rfl

/-- Repeated parts are lifted one by one. -/
lemma lift_flatMap {ι κ : Type} {g : κ → ι} {sep sep'} {tok : ι → List (Tok β)}
    {tok' : κ → List (Tok α)} (hsep : ∀ t : Tok α, t.map f = sep → t = sep')
    (hone : ∀ (x : ι) (l : List (Tok α)), l.map (Tok.map f) = tok x → ∃ y, g y = x ∧ tok' y = l) {xs}
    (h : l.map (Tok.map f) = xs.flatMap fun x => sep :: tok x) :
    ∃ ys : List κ, ys.map g = xs ∧ ys.flatMap (fun y => sep' :: tok' y) = l := by
  induction xs generalizing l with
  | nil => exact ⟨[], rfl, (map_eq_nil_iff.1 h).symm⟩
  | cons x xs ih =>
    rw [flatMap_cons, cons_append] at h
    obtain ⟨t, l', rfl, ht, h⟩ := map_eq_cons_iff.1 h
    obtain ⟨l₁, l₂, rfl, h₁, h₂⟩ := map_eq_append_iff.1 h
    obtain ⟨y, rfl, rfl⟩ := hone x l₁ h₁
    obtain ⟨ys, rfl, rfl⟩ := ih h₂
    exact ⟨y :: ys, rfl, by rw [hsep t ht]; rfl⟩

/-- **A reading is a tree.** -/
theorem Select.lift {q : Select β} (h : l.map (Tok.map f) = q.tokens) :
    ∃ q' : Select α, q'.map f = q ∧ q'.tokens = l := by
  obtain ⟨t, l, rfl, hselect, h⟩ := map_eq_cons_iff.1 h
  obtain ⟨l₁, l, rfl, hitem, h⟩ := map_eq_append_iff.1 h
  obtain ⟨l₂, l, rfl, hitems, h⟩ := map_eq_append_iff.1 h
  obtain ⟨u, l, rfl, hfrom, h⟩ := map_eq_cons_iff.1 h
  obtain ⟨l₃, l, rfl, hrel, h⟩ := map_eq_append_iff.1 h
  obtain ⟨l₄, l, rfl, hjoin, h⟩ := map_eq_append_iff.1 h
  obtain ⟨v, l, rfl, hwhere, h⟩ := map_eq_cons_iff.1 h
  obtain ⟨l₅, l, rfl, hpred, h⟩ := map_eq_append_iff.1 h
  obtain ⟨l₆, l, rfl, hpreds, hsemi⟩ := map_eq_append_iff.1 h
  obtain ⟨item, ei, rfl⟩ := Item.lift hitem
  obtain ⟨items, eis, rfl⟩ := lift_flatMap (fun t ht => Tok.map_eq_sym.1 ht) (fun x l => Item.lift) hitems
  obtain ⟨rel, er, rfl⟩ := Rel.lift hrel
  obtain ⟨pred, ep, rfl⟩ := Pred.lift hpred
  obtain ⟨preds, eps, rfl⟩ := lift_flatMap (fun t ht => Tok.map_eq_kw.1 ht) (fun x l => Pred.lift) hpreds
  have hjoin' : ∃ join : Option (JoinTree α), join.map (JoinTree.map f) = q.join ∧
      (join.map JoinTree.tokens).getD [] = l₄ := by
    cases hj : q.join with
    | none =>
      rw [hj] at hjoin
      exact ⟨none, rfl, (map_eq_nil_iff.1 hjoin).symm⟩
    | some j =>
      rw [hj] at hjoin
      obtain ⟨j', rfl, hj'⟩ := JoinTree.lift hjoin
      exact ⟨some j', rfl, hj'⟩
  obtain ⟨join, ej, rfl⟩ := hjoin'
  have hsemi' : (if q.semicolon then [sym ';'] else []) = l := by
    cases hs : q.semicolon with
    | false =>
      rw [hs] at hsemi
      exact (map_eq_nil_iff.1 hsemi).symm
    | true =>
      simp only [hs, if_true, map_eq_cons_iff, Tok.map_eq_sym, map_eq_nil_iff] at hsemi
      obtain ⟨_, _, rfl, rfl, rfl⟩ := hsemi
      rfl
  subst hsemi'
  refine ⟨⟨item, items, rel, join, pred, preds, q.semicolon⟩, ?_, ?_⟩
  · rw [Select.map, ei, eis, er, ej, ep, eps]
  · rw [Select.tokens, Tok.map_eq_kw.1 hselect, Tok.map_eq_kw.1 hfrom, Tok.map_eq_kw.1 hwhere]

/-! ## The tokens of a tree -/

/-- The keywords of the grammar. -/
def grammarWords : List GoString :=
  [str "SELECT", str "AS", str "FROM", str "JOIN", str "INNER", str "LEFT", str "OUTER", str "ON", str "WHERE",
    str "IS", str "NOT", str "NULL", str "AND"]

/-- A token that a tree can have. -/
def Tok.Ours : Tok α → Prop
  | .keyword k => k ∈ grammarWords
  | .symbol c => isPunctByte c = true
  | .literal => False
  | _ => True

lemma Tok.Ours.not_foreign (h : t.Ours) : ¬t.Foreign := by
  cases t with
  | symbol c =>
    rintro ⟨hc, -⟩
    exact Bool.noConfusion (hc.symm.trans h)
  | literal => exact h.elim
  | _ => exact id

lemma ours_name (a : α) : (Tok.name a).Ours := trivial

lemma ours_kw {k} (h : str k ∈ grammarWords) : (kw k : Tok α).Ours := h

lemma ours_sym {c} (h : isPunctByte (ch c) = true) : (sym c : Tok α).Ours := h

lemma ColRef.ours (c : ColRef α) : ∀ t ∈ c.tokens, t.Ours := by
  obtain ⟨table, name⟩ := c
  cases table <;> simp [ColRef.tokens, ours_name, ours_sym (by decide : isPunctByte (ch '.') = true)]

lemma Alias.ours (a : Alias α) : ∀ t ∈ a.tokens, t.Ours := by
  cases a <;> simp [Alias.tokens, ours_name, ours_kw (by decide : str "AS" ∈ grammarWords)]

lemma Item.ours (i : Item α) : ∀ t ∈ i.tokens, t.Ours := by
  rw [Item.tokens, forall_mem_append]
  exact ⟨i.column.ours, i.label.ours⟩

lemma Rel.ours (r : Rel α) : ∀ t ∈ r.tokens, t.Ours := by
  rw [Rel.tokens, forall_mem_cons]
  exact ⟨ours_name _, r.label.ours⟩

lemma JoinWords.ours (w : JoinWords) : ∀ t ∈ (w.tokens : List (Tok α)), t.Ours := by
  cases w <;> simp [JoinWords.tokens, ours_kw (by decide : str "JOIN" ∈ grammarWords),
    ours_kw (by decide : str "INNER" ∈ grammarWords), ours_kw (by decide : str "LEFT" ∈ grammarWords),
    ours_kw (by decide : str "OUTER" ∈ grammarWords)]

lemma JoinTree.ours (j : JoinTree α) : ∀ t ∈ j.tokens, t.Ours := by
  simp only [JoinTree.tokens, forall_mem_append, forall_mem_cons]
  exact ⟨j.words.ours, j.relation.ours, ours_kw (by decide), j.left.ours, ours_sym (by decide), j.right.ours⟩

lemma Pred.ours (p : Pred α) : ∀ t ∈ p.tokens, t.Ours := by
  cases p with
  | key c n =>
    simp only [Pred.tokens, forall_mem_append, forall_mem_cons]
    exact ⟨c.ours, ours_sym (by decide), trivial, nofun⟩
  | null c neg =>
    simp only [Pred.tokens, forall_mem_append, forall_mem_cons]
    refine ⟨c.ours, ours_kw (by decide), ?_⟩
    cases neg <;> simp [ours_kw (by decide : str "NULL" ∈ grammarWords),
      ours_kw (by decide : str "NOT" ∈ grammarWords)]

/-- **The tokens of the grammar.** -/
theorem Select.ours (q : Select α) : ∀ t ∈ q.tokens, t.Ours := by
  simp only [Select.tokens, forall_mem_append, forall_mem_cons, forall_mem_flatMap]
  refine ⟨ours_kw (by decide), q.item.ours, fun i _ => ⟨ours_sym (by decide), i.ours⟩, ours_kw (by decide),
    q.relation.ours, ?_, ours_kw (by decide), q.pred.ours, fun p _ => ⟨ours_kw (by decide), p.ours⟩, ?_⟩
  · cases q.join with
    | none => exact nofun
    | some j => exact j.ours
  · cases q.semicolon <;> simp [ours_sym (by decide : isPunctByte (ch ';') = true)]

/-! ## Where the parts of a tree stand -/

lemma infix_left {l a b : List α} (h : l <:+: a) : l <:+: a ++ b := h.trans (prefix_append a b).isInfix

lemma infix_right {l a b : List α} (h : l <:+: b) : l <:+: a ++ b := h.trans (suffix_append a b).isInfix

lemma Select.item_infix (h : i ∈ q.item :: q.items) : i.tokens <:+: q.tokens := by
  rw [Select.tokens]
  refine infix_cons ?_
  rcases mem_cons.1 h with rfl | h
  · exact (prefix_append _ _).isInfix
  refine infix_right (infix_left ?_)
  have hin : sym ',' :: i.tokens <:+: q.items.flatMap fun i => sym ',' :: i.tokens :=
    infix_of_mem_flatten (mem_map_of_mem h)
  exact (suffix_cons _ _).isInfix.trans hin

lemma Select.pred_infix (h : p ∈ q.pred :: q.preds) : p.tokens <:+: q.tokens := by
  rw [Select.tokens]
  refine infix_cons (infix_right (infix_right (infix_cons (infix_right (infix_right (infix_cons ?_))))))
  rcases mem_cons.1 h with rfl | h
  · exact (prefix_append _ _).isInfix
  refine infix_right (infix_left ?_)
  have hin : kw "AND" :: p.tokens <:+: q.preds.flatMap fun p => kw "AND" :: p.tokens :=
    infix_of_mem_flatten (mem_map_of_mem h)
  exact (suffix_cons _ _).isInfix.trans hin

lemma Select.join_infix (h : q.join = some j) : j.tokens <:+: q.tokens := by
  rw [Select.tokens, h]
  exact infix_cons (infix_right (infix_right (infix_cons (infix_right (infix_left infix_rfl)))))

lemma Select.mem_keys {k} (h : k ∈ q.keys) : Pred.key k.1 k.2 ∈ q.pred :: q.preds := by
  obtain ⟨p, hp, hk⟩ := mem_filterMap.1 h
  cases p with
  | key c n =>
    cases hk
    exact hp
  | null c neg => cases hk

variable {k : ColRef α × Bool}

lemma Select.mem_filters (h : k ∈ q.filters) : Pred.null k.1 k.2 ∈ q.pred :: q.preds := by
  obtain ⟨p, hp, hk⟩ := mem_filterMap.1 h
  cases p with
  | key c n => cases hk
  | null c neg =>
    cases hk
    exact hp

variable {toks : List (Tok α)}

/-- The qualifier of a column scopes it. -/
lemma ColRef.scopes (hin : c.tokens <:+: toks) : ∀ t, c.table = some t → Scopes toks t := by
  intro t ht
  obtain ⟨table, name⟩ := c
  subst ht
  have hpre : [Tok.name t, sym '.'] <:+: [Tok.name t, sym '.', .name name] := ⟨[], [.name name], rfl⟩
  exact .inl (hpre.trans hin)

lemma Select.key_scopes {k} (h : k ∈ q.keys) : ∀ t, k.1.table = some t → Scopes q.tokens t :=
  ColRef.scopes ((prefix_append _ _).isInfix.trans (Select.pred_infix (Select.mem_keys h)))

lemma Select.filter_scopes (h : k ∈ q.filters) : ∀ t, k.1.table = some t → Scopes q.tokens t :=
  ColRef.scopes ((prefix_append _ _).isInfix.trans (Select.pred_infix (Select.mem_filters h)))

lemma Select.item_scopes (h : i ∈ q.item :: q.items) : ∀ t, i.column.table = some t → Scopes q.tokens t :=
  ColRef.scopes ((prefix_append _ _).isInfix.trans (Select.item_infix h))

lemma Select.join_scopes (h : q.join = some j) :
    (∀ t, j.left.table = some t → Scopes q.tokens t) ∧ ∀ t, j.right.table = some t → Scopes q.tokens t := by
  have hin := Select.join_infix h
  refine ⟨ColRef.scopes (IsInfix.trans ?_ hin), ColRef.scopes (IsInfix.trans ?_ hin)⟩
  · exact infix_right (infix_right (infix_cons (infix_left infix_rfl)))
  · exact infix_right (infix_right (infix_cons (infix_right (infix_cons infix_rfl))))

lemma kw_ne {k k'} (h : str k ≠ str k') : (kw k : Tok α) ≠ kw k' := fun e => h (Tok.keyword.inj e)

lemma Rel.no_where (r : Rel α) : kw "WHERE" ∉ r.tokens := by
  obtain ⟨name, label⟩ := r
  have hne : (kw "WHERE" : Tok α) ≠ kw "AS" := kw_ne (by decide)
  cases label <;> simp [Rel.tokens, Alias.tokens, hne] <;> simp [kw]

lemma JoinWords.no_where (w : JoinWords) : kw "WHERE" ∉ (w.tokens : List (Tok α)) := by
  have h1 : (kw "WHERE" : Tok α) ≠ kw "JOIN" := kw_ne (by decide)
  have h2 : (kw "WHERE" : Tok α) ≠ kw "INNER" := kw_ne (by decide)
  have h3 : (kw "WHERE" : Tok α) ≠ kw "LEFT" := kw_ne (by decide)
  have h4 : (kw "WHERE" : Tok α) ≠ kw "OUTER" := kw_ne (by decide)
  cases w <;> simp [JoinWords.tokens, h1, h2, h3, h4]

/-- The reference of a relation is one of its tokens. -/
lemma Rel.ref_split (r : Rel α) : ∃ mid post, r.tokens = mid ++ (.name r.ref :: post) ∧ mid ⊆ r.tokens := by
  obtain ⟨name, label⟩ := r
  cases label with
  | none => exact ⟨[], [], rfl, nil_subset _⟩
  | bare a => exact ⟨[.name name], [], rfl, by simp [Rel.tokens]⟩
  | as a => exact ⟨[.name name, kw "AS"], [], rfl, by simp [Rel.tokens, Alias.tokens]⟩
  | dangling => exact ⟨[], [kw "AS"], rfl, nil_subset _⟩

lemma Select.ref_scopes (q : Select α) : Scopes q.tokens q.relation.ref := by
  obtain ⟨mid, post, htok, hmid⟩ := q.relation.ref_split
  refine .inr ⟨mid, ?_, fun h => q.relation.no_where (hmid h)⟩
  rw [Select.tokens, htok]
  refine infix_cons (infix_right (infix_right (IsPrefix.isInfix ?_)))
  simp

lemma Select.joinRef_scopes (h : q.join = some j) : Scopes q.tokens j.relation.ref := by
  obtain ⟨mid, post, htok, hmid⟩ := j.relation.ref_split
  refine .inr ⟨q.relation.tokens ++ (j.words.tokens ++ mid), ?_, ?_⟩
  · rw [Select.tokens, h]
    simp only [Option.map_some, Option.getD_some, JoinTree.tokens, htok]
    refine infix_cons (infix_right (infix_right (IsPrefix.isInfix ?_)))
    simp
  · simp only [mem_append, not_or]
    exact ⟨q.relation.no_where, j.words.no_where, fun hm => j.relation.no_where (hmid hm)⟩

/-! ## The side conditions under another reading -/

section

variable (f : α → β)

lemma Rel.ref_map (r : Rel α) : (r.map f).ref = f r.ref := by
  obtain ⟨name, label⟩ := r
  cases label <;> rfl

lemma Select.keys_map (q : Select α) : (q.map f).keys = q.keys.map fun k => (k.1.map f, k.2) := by
  have hpreds : (q.map f).pred :: (q.map f).preds = (q.pred :: q.preds).map (Pred.map f) := rfl
  rw [Select.keys, hpreds, filterMap_map, Select.keys, map_filterMap]
  exact filterMap_congr fun p _ => by cases p <;> rfl

lemma Select.filters_map (q : Select α) : (q.map f).filters = q.filters.map fun k => (k.1.map f, k.2) := by
  have hpreds : (q.map f).pred :: (q.map f).preds = (q.pred :: q.preds).map (Pred.map f) := rfl
  rw [Select.filters, hpreds, filterMap_map, Select.filters, map_filterMap]
  exact filterMap_congr fun p _ => by cases p <;> rfl

lemma Select.params_map (q : Select α) : (q.map f).keys.map Prod.snd = q.keys.map Prod.snd := by
  rw [Select.keys_map, List.map_map]
  rfl

end

/-- A column belongs to a relation under one reading as under the other. -/
lemma table_iff {f : γ → α} {toks}
    (h : ∀ a b, Scopes toks a → Scopes toks b → (f a = f b ↔ g a = g b)) {c : ColRef γ} {r}
    (hc : ∀ t, c.table = some t → Scopes toks t) (hr : Scopes toks r) :
    (c.map f).table = some (f r) ↔ (c.map g).table = some (g r) := by
  cases htab : c.table with
  | none => simp [ColRef.map, htab]
  | some t => simpa [ColRef.map, htab] using h t r (hc t htab) hr

lemma Select.JoinOK.transfer {q : Select γ} {f : γ → α}
    (h : ∀ a b, Scopes q.tokens a → Scopes q.tokens b → (f a = f b ↔ g a = g b)) {j : JoinTree γ}
    (hj : q.join = some j) (hok : (q.map f).JoinOK (j.map f)) : (q.map g).JoinOK (j.map g) := by
  obtain ⟨hdist, hconn, hitems, hfilters⟩ := hok
  have hbase := q.ref_scopes
  have hjoin := Select.joinRef_scopes hj
  obtain ⟨hleft, hright⟩ := Select.join_scopes hj
  simp only [Select.map, JoinTree.map, Rel.ref_map] at hdist hconn
  refine ⟨?_, ?_, ?_, ?_⟩
  · simp only [Select.map, JoinTree.map, Rel.ref_map]
    exact fun e => hdist ((h _ _ hjoin hbase).2 e)
  · simp only [Select.map, JoinTree.map, Rel.ref_map]
    rw [← table_iff h hleft hbase, ← table_iff h hright hjoin, ← table_iff h hleft hjoin, ← table_iff h hright hbase]
    exact hconn
  · have hlist : ∀ f : γ → α, (q.map f).item :: (q.map f).items = (q.item :: q.items).map (Item.map f) := fun _ => rfl
    intro i' hi'
    have hi'' : i' ∈ (q.item :: q.items).map (Item.map g) := hi'
    obtain ⟨i, hi, rfl⟩ := mem_map.1 hi''
    have hof := hitems (i.map f) (by rw [hlist]; exact mem_map_of_mem hi)
    simp only [Select.map, JoinTree.map, Item.map, Rel.ref_map] at hof ⊢
    rw [← table_iff h (Select.item_scopes hi) hbase, ← table_iff h (Select.item_scopes hi) hjoin]
    exact hof
  intro k' hk'
  rw [Select.filters_map] at hk'
  obtain ⟨k, hk, rfl⟩ := mem_map.1 hk'
  have hof := hfilters (k.1.map f, k.2) (by rw [Select.filters_map]; exact mem_map.2 ⟨k, hk, rfl⟩)
  simp only [Select.map, JoinTree.map, Rel.ref_map] at hof ⊢
  rw [← table_iff h (Select.filter_scopes hk) hbase, ← table_iff h (Select.filter_scopes hk) hjoin]
  exact hof

/-- **Side conditions under two readings** that agree on the names that scope columns. -/
theorem Select.OK.transfer {q : Select γ} {f : γ → α}
    (h : ∀ a b, Scopes q.tokens a → Scopes q.tokens b → (f a = f b ↔ g a = g b)) (hok : (q.map f).OK) :
    (q.map g).OK := by
  obtain ⟨hkey, hparams, hbase, hjoin⟩ := hok
  have hlen : ∀ {δ : Type} (e : γ → δ), (q.map e).keys.length = q.keys.length := by
    intro δ e
    rw [Select.keys_map, length_map]
  refine ⟨?_, ?_, ?_, ?_⟩
  · rw [← length_pos_iff, hlen] at hkey ⊢
    exact hkey
  · rw [Select.params_map, hlen] at hparams ⊢
    exact hparams
  · intro k' hk'
    rw [Select.keys_map] at hk'
    obtain ⟨k, hk, rfl⟩ := mem_map.1 hk'
    have hof := hbase (k.1.map f, k.2) (by rw [Select.keys_map]; exact mem_map.2 ⟨k, hk, rfl⟩)
    simp only [Select.map, Rel.ref_map] at hof ⊢
    rw [← table_iff h (Select.key_scopes hk) q.ref_scopes]
    refine hof.imp_left fun hnone => ?_
    simpa [ColRef.map] using hnone
  intro j' hj'
  obtain ⟨j, hj, rfl⟩ := Option.map_eq_some_iff.1 hj'
  exact (hjoin (j.map f) (by simp [Select.map, hj])).transfer h hj

/-! ## Missing aliases -/

/-- After an item stands a comma or `FROM`. -/
lemma item_followed (i : Item α) (items : List (Item α)) (rest : List (Tok α)) {i' : Item α}
    (h : i' ∈ i :: items) : ∃ next, (next = sym ',' ∨ next = kw "FROM") ∧ i'.tokens ++ [next] <:+:
      i.tokens ++ (items.flatMap (fun i => sym ',' :: i.tokens) ++ kw "FROM" :: rest) := by
  induction items generalizing i with
  | nil =>
    rw [mem_singleton] at h
    subst h
    exact ⟨kw "FROM", .inr rfl, ⟨[], rest, by simp⟩⟩
  | cons j items ih =>
    rcases mem_cons.1 h with rfl | h
    · exact ⟨sym ',', .inl rfl, ⟨[], j.tokens ++ (items.flatMap (fun i => sym ',' :: i.tokens) ++
        kw "FROM" :: rest), by simp⟩⟩
    obtain ⟨next, hnext, hin⟩ := ih j h
    refine ⟨next, hnext, infix_right ?_⟩
    rw [flatMap_cons, cons_append, cons_append, append_assoc]
    exact infix_cons hin

lemma dangling_at {next} (h : (l ++ Alias.dangling.tokens) ++ [next] <:+: toks) : [kw "AS", next] <:+: toks := by
  refine IsInfix.trans ?_ h
  rw [append_assoc]
  exact (suffix_append _ _).isInfix

/-- **No alias is missing** if a name stands after every `AS`. -/
theorem Select.strict_of_asNamed (h : AsNamed q.tokens) : q.Strict := by
  intro a ha hdang
  subst hdang
  rw [Select.labels, mem_append, mem_cons] at ha
  rcases ha with ha | ha | ha
  · obtain ⟨i, hi, hlabel⟩ := mem_map.1 ha
    obtain ⟨next, hnext, hin⟩ := item_followed q.item q.items
      (q.relation.tokens ++ ((q.join.map JoinTree.tokens).getD [] ++
      (kw "WHERE" :: (q.pred.tokens ++ (q.preds.flatMap (fun p => kw "AND" :: p.tokens) ++
        if q.semicolon then [sym ';'] else []))))) hi
    rw [Item.tokens, hlabel] at hin
    obtain ⟨n, rfl⟩ := h next (dangling_at (infix_cons hin))
    rcases hnext with e | e <;> cases e
  · obtain ⟨next, rest, hnext, hne⟩ : ∃ next rest, ((q.join.map JoinTree.tokens).getD [] ++
        (kw "WHERE" :: (q.pred.tokens ++ (q.preds.flatMap (fun p => kw "AND" :: p.tokens) ++
          if q.semicolon then [sym ';'] else [])))) = next :: rest ∧ ∀ n : α, next ≠ .name n := by
      cases q.join with
      | none => exact ⟨_, _, rfl, fun n => nofun⟩
      | some j =>
        simp only [Option.map_some, Option.getD_some, JoinTree.tokens]
        cases j.words <;> exact ⟨_, _, rfl, fun n => nofun⟩
    have hin : ([Tok.name q.relation.name] ++ Alias.dangling.tokens) ++ [next] <:+: q.tokens := by
      rw [Select.tokens, hnext]
      refine infix_cons (infix_right (infix_right (infix_cons (IsPrefix.isInfix ?_))))
      rw [Rel.tokens, ← ha]
      simp [Alias.tokens]
    obtain ⟨n, hn⟩ := h next (dangling_at hin)
    exact hne n hn
  obtain ⟨j, hj, hlabel⟩ := Option.map_eq_some_iff.1 (Option.mem_toList.1 ha)
  have hin : ([Tok.name j.relation.name] ++ Alias.dangling.tokens) ++ [kw "ON"] <:+: j.tokens := by
    rw [JoinTree.tokens]
    refine infix_right (IsPrefix.isInfix ?_)
    rw [Rel.tokens, hlabel]
    simp [Alias.tokens]
  obtain ⟨n, hn⟩ := h (kw "ON") (dangling_at (hin.trans (Select.join_infix hj)))
  cases hn

end BatchWeaver.Sql
