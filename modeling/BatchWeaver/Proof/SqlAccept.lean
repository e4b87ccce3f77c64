import BatchWeaver.Proof.SqlParse

/-!
# What the parser accepts

The checks that the parser makes on a whole query are the side conditions of the subset, and the parser is
put together with the tokenizer.

* `parseSelect_iff`: the parser accepts the tokens of the trees that pass the checks, and no others; trees
  with a missing alias are among them.
* `parseExactKeySelect_iff`: the same for a plain text, with the query that is returned.
* `accepts_iff_supported`: on plain texts whose `AS` have their aliases, and whose names that scope columns
  are spelled alike, that is the grammar of the subset.
-/

namespace BatchWeaver.Sql

open List

/-! ## The checks -/

variable {ts : List Token} {q : Select GoString} {sql : GoString} {baseRef : GoString} {r : ParsedQuery}
  {α : Type} {n : ℕ}

lemma validateKeys_iff {count} (seen : List ℤ) (keys : List KeyPredicate) :
    validateKeys count baseRef seen keys = .ok () ↔ (keys.map KeyPredicate.param).Nodup ∧ (∀ k ∈ keys, k.param ∉ seen) ∧
      (∀ k ∈ keys, 1 ≤ k.param ∧ k.param ≤ count) ∧ ∀ k ∈ keys, k.column.table = [] ∨ k.column.table = baseRef := by
  induction keys generalizing seen with
  | nil => simp [validateKeys]
  | cons key keys ih =>
    rw [validateKeys]
    by_cases hparam : key.param < 1 ∨ (count : ℤ) < key.param ∨ key.param ∈ seen
    · rw [if_pos hparam]
      refine ⟨nofun, ?_⟩
      rintro ⟨-, hseen, hrange, -⟩
      have h1 := hseen key mem_cons_self
      have h2 := hrange key mem_cons_self
      rcases hparam with h | h | h
      · omega
      · omega
      · exact absurd h h1
    rw [if_neg hparam]
    simp only [not_or, not_lt] at hparam
    by_cases htable : key.column.table ≠ [] ∧ key.column.table ≠ baseRef
    · rw [if_pos htable]
      refine ⟨nofun, ?_⟩
      rintro ⟨-, -, -, hbase⟩
      exact (hbase key mem_cons_self).elim (fun e => absurd e htable.1) (fun e => absurd e htable.2)
    rw [if_neg htable, ih]
    have htab : key.column.table = [] ∨ key.column.table = baseRef := by
      by_contra hno
      exact htable (not_or.1 hno)
    rw [map_cons, nodup_cons, forall_mem_cons, forall_mem_cons, forall_mem_cons]
    constructor
    · rintro ⟨hnodup, hseen, hrange, hbase⟩
      have hnew : key.param ∉ keys.map KeyPredicate.param := by
        intro hmem
        obtain ⟨k, hk, e⟩ := mem_map.1 hmem
        exact hseen k hk (by rw [e]; exact mem_cons_self)
      exact ⟨⟨hnew, hnodup⟩, ⟨hparam.2.2, fun k hk hmem => hseen k hk (mem_cons_of_mem _ hmem)⟩,
        ⟨⟨hparam.1, hparam.2.1⟩, hrange⟩, htab, hbase⟩
    rintro ⟨⟨hnew, hnodup⟩, ⟨-, hseen⟩, ⟨-, hrange⟩, -, hbase⟩
    refine ⟨hnodup, fun k hk hmem => ?_, hrange, hbase⟩
    rcases mem_cons.1 hmem with e | hmem
    · exact hnew (mem_map.2 ⟨k, hk, e⟩)
    · exact hseen k hk hmem

lemma validateColumns_iff {baseRef joinRef} (cols : List Column) : validateColumns baseRef joinRef cols = .ok () ↔
      ∀ c ∈ cols, c.table ≠ [] ∧ (c.table = baseRef ∨ c.table = joinRef) := by
  induction cols with
  | nil => simp [validateColumns]
  | cons col cols ih =>
    rw [validateColumns, forall_mem_cons]
    by_cases hqual : col.table = []
    · rw [if_pos hqual]
      exact ⟨nofun, fun h => absurd hqual h.1.1⟩
    rw [if_neg hqual]
    by_cases href : col.table ≠ baseRef ∧ col.table ≠ joinRef
    · rw [if_pos href]
      exact ⟨nofun, fun h => h.1.2.elim (fun e => absurd e href.1) (fun e => absurd e href.2)⟩
    rw [if_neg href, ih]
    have hone : col.table = baseRef ∨ col.table = joinRef := by
      by_contra hno
      exact href (not_or.1 hno)
    exact ⟨fun h => ⟨⟨hqual, hone⟩, h⟩, fun h => h.2⟩

lemma connects_iff {baseRef joinRef left right} :
    connects baseRef joinRef left right = true ↔ left.table ≠ [] ∧ right.table ≠ [] ∧
      (left.table = baseRef ∧ right.table = joinRef ∨ left.table = joinRef ∧ right.table = baseRef) := by
  simp [connects, and_assoc]

lemma queryRelationRef_iff {q ref} : queryRelationRef q ref = true ↔
    ref = q.relation.ref ∨ ∃ j, q.join = some j ∧ ref = j.relation.ref := by
  cases hj : q.join with
  | none | some _ => simp [queryRelationRef, hj]

variable {toks : List (Tok α)}

lemma Scopes.mem {a} (h : Scopes toks a) : .name a ∈ toks := by
  rcases h with h | ⟨mid, h, -⟩
  · exact h.subset mem_cons_self
  · exact h.subset (by simp)

/-- The table of a column, for names that are not empty. -/
lemma toColumn_table {c : ColRef GoString} (hne : ∀ t, c.table = some t → t ≠ []) :
    (c.toColumn.table = [] ↔ c.table = none) ∧ ∀ r, r ≠ [] → (c.toColumn.table = r ↔ c.table = some r) := by
  obtain ⟨table, name⟩ := c
  cases table with
  | none => exact ⟨⟨fun _ => rfl, fun _ => rfl⟩, fun r hr => ⟨fun e => absurd e.symm hr, nofun⟩⟩
  | some t =>
    refine ⟨⟨fun e => absurd e (hne t rfl), nofun⟩, fun r _ => ⟨fun e => congrArg some e, fun e => ?_⟩⟩
    exact Option.some.inj e

lemma toRelation_ref {r : Rel GoString} (h : r.ref ≠ []) : r.toRelation.ref = r.ref := by
  obtain ⟨name, label⟩ := r
  have hempty : Relation.ref { name := name } = name := rfl
  have hfull : ∀ a : GoString, a ≠ [] → Relation.ref { name := name, aliasName := a } = a := fun a ha => if_pos ha
  cases label with
  | none | dangling => exact hempty
  | bare a | as a => exact hfull a h

/-- What the parser checks of a query. -/
structure Checked (q : Select GoString) : Prop where
  key : q.keys ≠ []
  keys : validateKeyPredicates q.toQuery q.toQuery.relation.ref = .ok ()
  projection : validateProjection q.toQuery = .ok ()
  filters : ∀ p ∈ q.pred :: q.preds, FilterChecked q.toQuery p
  join : ∀ j, q.join = some j → JoinChecked q.toQuery.relation.ref j.toJoin

lemma keys_checked (hne : ∀ a, Scopes q.tokens a → a ≠ []) :
    validateKeyPredicates q.toQuery q.toQuery.relation.ref = .ok () ↔
      ((q.keys.map Prod.snd).Nodup ∧ ∀ n ∈ q.keys.map Prod.snd, 1 ≤ n ∧ n ≤ q.keys.length) ∧
      ∀ k ∈ q.keys, k.1.table = none ∨ k.1.table = some q.relation.ref := by
  have href : q.toQuery.relation.ref = q.relation.ref := toRelation_ref (hne _ q.ref_scopes)
  have hparams : q.toQuery.keys.map KeyPredicate.param = q.keys.map Prod.snd := by
    simp [Select.toQuery]
  have htable : ∀ k ∈ q.keys, (k.1.toColumn.table = [] ∨ k.1.toColumn.table = q.relation.ref ↔
      k.1.table = none ∨ k.1.table = some q.relation.ref) := by
    intro k hk
    have htab := toColumn_table fun t ht => hne t (Select.key_scopes hk t ht)
    rw [htab.1, htab.2 _ (hne _ q.ref_scopes)]
  rw [validateKeyPredicates, validateKeys_iff, href, hparams]
  simp only [Select.toQuery, forall_mem_map, length_map, not_mem_nil, not_false_iff, implies_true, true_and, and_assoc]
  refine and_congr_right fun _ => and_congr_right fun _ => ?_
  exact forall₂_congr htable

lemma join_checked {j : JoinTree GoString} (hj : q.join = some j) (hne : ∀ a, Scopes q.tokens a → a ≠ []) :
    q.JoinOK j ↔ validateProjection q.toQuery = .ok () ∧
      (∀ p ∈ q.pred :: q.preds, FilterChecked q.toQuery p) ∧ JoinChecked q.toQuery.relation.ref j.toJoin := by
  have href : q.toQuery.relation.ref = q.relation.ref := toRelation_ref (hne _ q.ref_scopes)
  have hjne := hne _ (Select.joinRef_scopes hj)
  have hjref : j.toJoin.relation.ref = j.relation.ref := toRelation_ref hjne
  have hqjoin : q.toQuery.join = some j.toJoin := by simp [Select.toQuery, hj]
  obtain ⟨hleft, hright⟩ := Select.join_scopes hj
  -- a column is qualified by one of the two relations, in the tree and in what the parser returns
  have htable : ∀ c : ColRef GoString, (∀ t, c.table = some t → Scopes q.tokens t) →
      (c.toColumn.table ≠ [] ∧ (c.toColumn.table = q.relation.ref ∨ c.toColumn.table = j.relation.ref) ↔
        c.table = some q.relation.ref ∨ c.table = some j.relation.ref) := by
    intro c hc
    have htab := toColumn_table fun t ht => hne t (hc t ht)
    rw [ne_eq, htab.1, htab.2 _ (hne _ q.ref_scopes), htab.2 _ hjne, and_iff_right_iff_imp]
    rintro (e | e) <;> simp [e]
  have hproj : validateProjection q.toQuery = .ok () ↔
      ∀ i ∈ q.item :: q.items, i.column.table = some q.relation.ref ∨ i.column.table = some j.relation.ref := by
    rw [validateProjection, hqjoin]
    rw [validateColumns_iff, href, hjref]
    simp only [Select.toQuery, forall_mem_map]
    exact forall₂_congr fun i hi => htable i.column (Select.item_scopes hi)
  have hfilters : (∀ p ∈ q.pred :: q.preds, FilterChecked q.toQuery p) ↔
      ∀ f ∈ q.filters, f.1.table = some q.relation.ref ∨ f.1.table = some j.relation.ref := by
    constructor
    · intro h f hf
      have hchk := h _ (Select.mem_filters hf) (by rw [hqjoin]; rfl)
      refine (htable f.1 (Select.filter_scopes hf)).1 ⟨hchk.1, ?_⟩
      rcases queryRelationRef_iff.1 hchk.2 with e | ⟨j', hj', e⟩
      · exact .inl (e.trans href)
      rw [hqjoin] at hj'
      injection hj' with hj'
      exact .inr (e.trans (by rw [← hj']; exact hjref))
    intro h p hp
    cases p with
    | key c n => trivial
    | null c neg =>
      intro _
      have hf : (c, neg) ∈ q.filters := mem_filterMap.2 ⟨_, hp, rfl⟩
      obtain ⟨hqual, hor⟩ := (htable c (Select.filter_scopes hf)).2 (h _ hf)
      refine ⟨hqual, queryRelationRef_iff.2 ?_⟩
      exact hor.imp (fun e => e.trans href.symm) fun e => ⟨_, hqjoin, e.trans hjref.symm⟩
  have hconn : JoinChecked q.toQuery.relation.ref j.toJoin ↔ j.relation.ref ≠ q.relation.ref ∧
      ((j.left.table = some q.relation.ref ∧ j.right.table = some j.relation.ref) ∨
        (j.left.table = some j.relation.ref ∧ j.right.table = some q.relation.ref)) := by
    have hl := toColumn_table fun t ht => hne t (hleft t ht)
    have hr := toColumn_table fun t ht => hne t (hright t ht)
    rw [JoinChecked, connects_iff, href, hjref]
    refine and_congr_right fun _ => ?_
    rw [show j.toJoin.left = j.left.toColumn from rfl, show j.toJoin.right = j.right.toColumn from rfl,
      hl.2 _ (hne _ q.ref_scopes), hl.2 _ hjne, hr.2 _ (hne _ q.ref_scopes), hr.2 _ hjne, ne_eq, hl.1, ne_eq,
      hr.1]
    constructor
    · exact fun h => h.2.2
    · rintro (⟨h1, h2⟩ | ⟨h1, h2⟩) <;> simp [h1, h2]
  rw [hproj, hfilters, hconn]
  exact ⟨fun h => ⟨h.items, h.filters, h.distinct, h.connects⟩, fun ⟨h1, h2, h3, h4⟩ => ⟨h3, h4, h1, h2⟩⟩

/-- **The checks are the side conditions**, for names that are not empty. -/
theorem checked_iff (hne : ∀ a, Scopes q.tokens a → a ≠ []) : Checked q ↔ q.OK := by
  constructor
  · rintro ⟨hkey, hkeys, hproj, hfilters, hjoin⟩
    obtain ⟨hparams, hbase⟩ := (keys_checked hne).1 hkeys
    exact ⟨hkey, hparams, hbase, fun j hj => (join_checked hj hne).2 ⟨hproj, hfilters, hjoin j hj⟩⟩
  rintro ⟨hkey, hparams, hbase, hjoin⟩
  have hkeys := (keys_checked hne).2 ⟨hparams, hbase⟩
  cases hj : q.join with
  | some j =>
    obtain ⟨hproj, hfilters, hchk⟩ := (join_checked hj hne).1 (hjoin j hj)
    refine ⟨hkey, hkeys, hproj, hfilters, fun j' hj' => ?_⟩
    rw [hj] at hj'
    rw [← Option.some.inj hj']
    exact hchk
  | none =>
    have hqjoin : q.toQuery.join = none := by simp [Select.toQuery, hj]
    refine ⟨hkey, hkeys, ?_, fun p _ => ?_, fun j hj' => ?_⟩
    · rw [validateProjection, hqjoin]
    · cases p with
      | key c n => trivial
      | null c neg =>
        intro hsome
        rw [hqjoin] at hsome
        cases hsome
    · rw [hj] at hj'
      cases hj'

/-! ## The whole query -/

lemma foldl_add (ps : List (Pred GoString)) (q : ParsedQuery) : ps.foldl ParsedQuery.add q =
    { q with keys := q.keys ++ (ps.filterMap Pred.key?).map fun k => ⟨k.1.toColumn, k.2⟩
             extra := q.extra ++ (ps.filterMap Pred.filter?).map fun f => filterSQL f.1.toColumn f.2 } := by
  induction ps generalizing q with
  | nil => simp
  | cons p ps ih =>
    rw [foldl_cons, ih]
    cases p <;> simp [ParsedQuery.add, filterMap_cons, Pred.key?, Pred.filter?]

/-- The query before its first key is singled out. -/
def Select.draft (q : Select GoString) : ParsedQuery := (q.pred :: q.preds).foldl ParsedQuery.add
    ⟨(q.item :: q.items).map Item.toColumn, q.relation.toRelation, q.join.map JoinTree.toJoin, [],
      { name := [] }, 0, []⟩

lemma draft_eq (q : Select GoString) : q.draft = { q.toQuery with keyColumn := { name := [] }, keyParam := 0 } := by
  rw [Select.draft, foldl_add]
  rfl

/-- The text ends here, but for one semicolon. -/
lemma ends_iff (hg : Good ts) : (cur (if (cur ts).isPunct (str ";") then ts.tail else ts)).kind = .eof ↔
      ∃ (semi : Bool) (ts' : List Token), Reads ts (if semi then [sym ';'] else []) ts' ∧ (cur ts').kind = .eof := by
  by_cases hsemi : (cur ts).isPunct (str ";") = true
  · have hat := (at_sym hg rfl (by decide)).1 hsemi
    rw [if_pos hsemi]
    refine ⟨fun h => ⟨true, ts.tail, ⟨hat, rfl⟩, h⟩, ?_⟩
    rintro ⟨semi, ts', hreads, heof⟩
    cases semi with
    | false =>
      obtain rfl : ts = ts' := hreads
      have hnone : (cur ts).view = none := Token.view_none.2 heof
      rw [At, hnone] at hat
      cases hat
    | true =>
      obtain ⟨-, rfl⟩ := hreads
      exact heof
  rw [if_neg hsemi]
  refine ⟨fun h => ⟨false, ts, rfl, h⟩, ?_⟩
  rintro ⟨semi, ts', hreads, heof⟩
  cases semi with
  | false =>
    obtain rfl : ts = ts' := hreads
    exact heof
  | true => exact absurd ((at_sym hg rfl (by decide)).2 hreads.1) hsemi

lemma finishSelect_eq_ok {q r} : finishSelect q ts = .ok r ↔
    ∃ key keys, q.keys = key :: keys ∧ validateKeyPredicates q q.relation.ref = .ok () ∧ validateProjection q = .ok () ∧
      (cur (if (cur ts).isPunct (str ";") then ts.tail else ts)).kind = .eof ∧
      r = { q with keyColumn := key.column, keyParam := key.param } := by
  obtain ⟨projection, relation, join, keys, keyColumn, keyParam, extra⟩ := q
  unfold finishSelect
  cases keys with
  | nil => simp
  | cons key keys =>
    simp only
    cases validateKeyPredicates ⟨projection, relation, join, key :: keys, keyColumn, keyParam, extra⟩ relation.ref with
    | error rej => simp
    | ok _ =>
      cases validateProjection ⟨projection, relation, join, key :: keys, keyColumn, keyParam, extra⟩ with
      | error rej => simp
      | ok _ =>
        by_cases heof : (cur (if (cur ts).isPunct (str ";") then ts.tail else ts)).kind = .eof
        · rw [if_neg (not_not.2 heof)]
          constructor
          · exact fun h => ⟨key, keys, rfl, rfl, rfl, heof, (Except.ok.inj h).symm⟩
          · rintro ⟨key', keys', hcons, -, -, -, rfl⟩
            rw [(List.cons.inj hcons).1]
        rw [if_pos heof]
        refine ⟨nofun, ?_⟩
        rintro ⟨-, -, -, -, -, h, -⟩
        exact absurd h heof

lemma finishSelect_iff (hg : Good ts) (q : Select GoString) (r : ParsedQuery) :
    finishSelect q.draft ts = .ok r ↔ q.keys ≠ [] ∧
      validateKeyPredicates q.toQuery q.toQuery.relation.ref = .ok () ∧ validateProjection q.toQuery = .ok () ∧
      (∃ (semi : Bool) (ts' : List Token), Reads ts (if semi then [sym ';'] else []) ts' ∧
        (cur ts').kind = .eof) ∧ r = q.toQuery := by
  have hvk : validateKeyPredicates q.draft q.draft.relation.ref =
      validateKeyPredicates q.toQuery q.toQuery.relation.ref := by rw [draft_eq]; rfl
  have hvp : validateProjection q.draft = validateProjection q.toQuery := by rw [draft_eq]; rfl
  have hkeys : q.draft.keys = q.keys.map fun k => ⟨k.1.toColumn, k.2⟩ := by rw [draft_eq]; rfl
  have hfinal : ∀ k ks, q.keys = k :: ks → { q.draft with keyColumn := k.1.toColumn, keyParam := k.2 } = q.toQuery := by
    intro k ks hq
    rw [draft_eq, Select.toQuery, hq]
    rfl
  rw [finishSelect_eq_ok, hvk, hvp, ends_iff hg]
  constructor
  · rintro ⟨key, keys, hcons, hvalid, hproj, hend, rfl⟩
    rw [hkeys] at hcons
    obtain ⟨k, ks, hq, rfl, -⟩ := map_eq_cons_iff.1 hcons
    exact ⟨by rw [hq]; exact nofun, hvalid, hproj, hend, hfinal k ks hq⟩
  rintro ⟨hne, hvalid, hproj, hend, rfl⟩
  obtain ⟨k, ks, hq⟩ := exists_cons_of_ne_nil hne
  exact ⟨⟨k.1.toColumn, k.2⟩, ks.map fun k => ⟨k.1.toColumn, k.2⟩, by rw [hkeys, hq]; rfl, hvalid, hproj,
    hend, (hfinal k ks hq).symm⟩

lemma parseJoins_sound {ts ts'} (hg : Good ts) {join}
    (h : parseJoins baseRef ts = .ok (join, ts')) : ∃ j : Option (JoinTree GoString),
      Reads ts ((j.map JoinTree.tokens).getD []) ts' ∧ join = j.map JoinTree.toJoin ∧
      ∀ j', j = some j' → JoinChecked baseRef j'.toJoin := by
  unfold parseJoins at h
  split at h
  · split at h
    · cases h
    rename_i join' rest hjoin
    cases h
    obtain ⟨j, hreads, rfl, hok⟩ := parseJoin_sound hg hjoin
    refine ⟨some j, hreads, rfl, fun j' hj' => ?_⟩
    rw [← Option.some.inj hj']
    exact hok
  · cases h
    exact ⟨none, rfl, rfl, nofun⟩

lemma parseJoins_complete {ts ts'} (hg : Good ts) {j}
    (h : Reads ts ((j.map JoinTree.tokens).getD []) ts') (hwhere : At ts' (kw "WHERE"))
    (hok : ∀ j', j = some j' → JoinChecked baseRef j'.toJoin) :
    parseJoins baseRef ts = .ok (j.map JoinTree.toJoin, ts') := by
  unfold parseJoins
  cases j with
  | none =>
    obtain rfl : ts = ts' := h
    have hno : ∀ k : String, str k ≠ [] → str "WHERE" ≠ str k → (cur ts).up ≠ str k :=
      fun k hk hne => hwhere.not_kw hg hk (kw_ne hne)
    rw [if_neg]
    · rfl
    rintro (e | e | e)
    · exact hno "JOIN" (by decide) (by decide) e
    · exact hno "INNER" (by decide) (by decide) e
    · exact hno "LEFT" (by decide) (by decide) e
  | some j =>
    have hstart : (cur ts).up = str "JOIN" ∨ (cur ts).up = str "INNER" ∨ (cur ts).up = str "LEFT" := by
      obtain ⟨mid, hw, -⟩ := reads_append.1 h
      cases hwords : j.words with
      | plain =>
        rw [hwords] at hw
        exact .inl ((at_kw hg (by decide)).2 hw.1)
      | inner =>
        rw [hwords] at hw
        exact .inr (.inl ((at_kw hg (by decide)).2 hw.1))
      | left | leftOuter =>
        rw [hwords] at hw
        exact .inr (.inr ((at_kw hg (by decide)).2 hw.1))
    rw [if_pos hstart, parseJoin_complete hg h (follow_kw hwhere (by decide)) (hok j rfl)]
    rfl

/-- What the parser returns comes from a tree. -/
lemma parseSelect_sound (hg : Good ts) (h : parseSelect ts = .ok r) :
    ∃ (q : Select GoString) (ts' : List Token), Reads ts q.tokens ts' ∧ (cur ts').kind = .eof ∧ Checked q ∧
      r = q.toQuery := by
  unfold parseSelect at h
  split at h
  · cases h
  rename_i hselect
  have hat := (at_kw hg (by decide)).1 (not_not.1 hselect)
  split at h
  · cases h
  rename_i projection ts₁ hproj
  obtain ⟨i, is, hitems, rfl⟩ := parseProjection_sound hg.tail hproj
  have hg₁ := hitems.good hg.tail
  split at h
  · cases h
  rename_i hfrom
  have hat₁ := (at_kw hg₁ (by decide)).1 (not_not.1 hfrom)
  split at h
  · cases h
  rename_i relation ts₂ hrel
  obtain ⟨r', hr', rfl⟩ := parseRelation_sound hg₁.tail hrel
  have hg₂ := hr'.good hg₁.tail
  split at h
  · cases h
  split at h
  · cases h
  rename_i join ts₃ hjoins
  obtain ⟨j, hj, rfl, hjok⟩ := parseJoins_sound hg₂ hjoins
  have hg₃ := hj.good hg₂
  split at h
  · cases h
  rename_i hwhere
  have hat₃ := (at_kw hg₃ (by decide)).1 (not_not.1 hwhere)
  split at h
  · cases h
  rename_i q₄ ts₄ hpreds
  obtain ⟨p, ps, hps, rfl, hfilters⟩ := parsePredicates_sound hg₃.tail hpreds
  have hg₄ := hps.good hg₃.tail
  -- the tree is complete up to its semicolon, on which the checks do not depend
  obtain ⟨hkey, hkeys, hvalid, ⟨semi, ts', hsemi, heof⟩, rfl⟩ :=
    (finishSelect_iff hg₄ ⟨i, is, r', j, p, ps, false⟩ r).1 h
  have hreads : Reads ts (Select.mk i is r' j p ps semi).tokens ts' := by
    rw [Select.tokens, ← append_assoc]
    refine ⟨hat, reads_append.2 ⟨ts₁, hitems, hat₁, ?_⟩⟩
    refine reads_append.2 ⟨ts₂, hr', reads_append.2 ⟨ts₃, hj, hat₃, ?_⟩⟩
    rw [← append_assoc]
    exact reads_append.2 ⟨ts₄, hps, hsemi⟩
  refine ⟨_, ts', hreads, heof, ⟨hkey, hkeys, hvalid, fun p' hp' => ?_, hjok⟩, rfl⟩
  have hp := hfilters p' hp'
  cases p' with
  | key c n => trivial
  | null c neg => exact hp

/-- The tokens of a tree that passes the checks are accepted. -/
lemma parseSelect_complete {ts ts'} (hg : Good ts) (h : Reads ts q.tokens ts')
    (heof : (cur ts').kind = .eof) (hchk : Checked q) : parseSelect ts = .ok q.toQuery := by
  rw [Select.tokens, ← append_assoc] at h
  obtain ⟨hselect, h⟩ := h
  obtain ⟨ts₁, hitems, hfrom, h⟩ := reads_append.1 h
  obtain ⟨ts₂, hrel, h⟩ := reads_append.1 h
  obtain ⟨ts₃, hjoin, hwhere, h⟩ := reads_append.1 h
  rw [← append_assoc] at h
  obtain ⟨ts₄, hpreds, hsemi⟩ := reads_append.1 h
  have hg₁ := hitems.good hg.tail
  have hg₂ := hrel.good hg₁.tail
  have hg₃ := hjoin.good hg₂
  have hg₄ := hpreds.good hg₃.tail
  have hafter : At ts₂ (kw "WHERE") ∨ ∃ w : JoinWords, ∃ mid, Reads ts₂ w.tokens mid := by
    cases hj : q.join with
    | none =>
      rw [hj] at hjoin
      obtain rfl : ts₂ = ts₃ := hjoin
      exact .inl hwhere
    | some j =>
      rw [hj] at hjoin
      obtain ⟨mid, hw, -⟩ := reads_append.1 hjoin
      exact .inr ⟨j.words, mid, hw⟩
  have hkw : ∃ k : String, At ts₂ (kw k) ∧ str k ≠ str "AS" := by
    rcases hafter with h | ⟨w, mid, hw⟩
    · exact ⟨"WHERE", h, by decide⟩
    cases w with
    | plain => exact ⟨"JOIN", hw.1, by decide⟩
    | inner => exact ⟨"INNER", hw.1, by decide⟩
    | left | leftOuter => exact ⟨"LEFT", hw.1, by decide⟩
  obtain ⟨k, hk, hkne⟩ := hkw
  have hand : ¬At ts₄ (kw "AND") := by
    intro hat
    cases hs : q.semicolon with
    | false =>
      rw [hs] at hsemi
      obtain rfl : ts₄ = ts' := hsemi
      have hnone : (cur ts₄).view = none := Token.view_none.2 heof
      rw [At, hnone] at hat
      cases hat
    | true =>
      rw [hs] at hsemi
      exact hsemi.1.elim hat (by intro e; cases e)
  have hfilters : ∀ p ∈ q.pred :: q.preds, FilterChecked
      ⟨(q.item :: q.items).map Item.toColumn, q.relation.toRelation, q.join.map JoinTree.toJoin, [],
        { name := [] }, 0, []⟩ p := by
    intro p hp
    have hp' := hchk.filters p hp
    cases p with
    | key c n => trivial
    | null c neg => exact hp'
  have hjoined : ∀ j, q.join = some j → JoinChecked q.relation.toRelation.ref j.toJoin := hchk.join
  unfold parseSelect
  have hcomma : ¬At ts₁ (.symbol (ch ',')) := fun hat => hfrom.elim hat (by intro e; cases e)
  rw [if_neg (not_not.2 ((at_kw hg (by decide)).2 hselect)), parseProjection_complete hg.tail hitems
    (follow_kw hfrom (by decide)) hcomma]
  simp only
  rw [if_neg (not_not.2 ((at_kw hg₁ (by decide)).2 hfrom)), parseRelation_complete hg₁.tail hrel (follow_kw hk hkne)]
  simp only
  rw [if_neg (hk.not_sym hg₂ rfl (by decide) (by intro e; cases e)), parseJoins_complete hg₂ hjoin hwhere hjoined]
  simp only
  rw [if_neg (not_not.2 ((at_kw hg₃ (by decide)).2 hwhere)), parsePredicates_complete hg₃.tail hpreds hand hfilters]
  exact (finishSelect_iff hg₄ q _).2 ⟨hchk.key, hchk.keys, hchk.projection, ⟨_, ts', hsemi, heof⟩, rfl⟩

/-! ## Whole texts -/

/-- Reading up to the end of the text reads all tokens before it. -/
lemma ended_split {ts body ts' e} (hts : ∀ t ∈ ts, t.kind ≠ .eof) (he : e.kind = .eof)
    (hbody : ∀ t ∈ body, t.kind ≠ .eof) (h : ts ++ [e] = body ++ ts') (hcur : (cur ts').kind = .eof) : body = ts := by
  rcases append_eq_append_iff.1 h with ⟨a, rfl, ha⟩ | ⟨c, rfl, rfl⟩
  · cases a with
    | nil => rw [append_nil]
    | cons x a =>
      have hx : e = x := (List.cons.inj ha).1
      exact absurd he (hbody e (by rw [hx]; simp))
  cases c with
  | nil => rw [append_nil]
  | cons x c => exact absurd hcur (hts x (by simp))

lemma views_not_eof {body : List Token} {toks : List (Tok GoString)}
    (h : body.map Token.view = toks.map some) : ∀ t ∈ body, t.kind ≠ .eof := by
  intro t ht he
  have hmem : t.view ∈ toks.map some := by
    rw [← h]
    exact mem_map_of_mem ht
  obtain ⟨tok, -, htok⟩ := mem_map.1 hmem
  rw [Token.view_none.2 he] at htok
  cases htok

/-- **The parser on the tokens of a text**: what is accepted are the trees that pass the checks. -/
theorem parseSelect_iff (hg : Good ts) (hts : ∀ t ∈ ts, t.kind ≠ .eof) :
    parseSelect (ts ++ [{ kind := .eof, off := n }]) = .ok r ↔
      ∃ q : Select GoString, ts.map Token.view = q.tokens.map some ∧ Checked q ∧ r = q.toQuery := by
  have hg' : Good (ts ++ [{ kind := .eof, off := n }]) := by
    intro t ht
    rcases mem_append.1 ht with ht | ht
    · exact hg t ht
    · rw [mem_singleton.1 ht]
      exact Token.ok_of_kind rfl nofun
  constructor
  · intro h
    obtain ⟨q, ts', hreads, heof, hchk, rfl⟩ := parseSelect_sound hg' h
    obtain ⟨body, hsplit, hviews⟩ := reads_iff.1 hreads
    have hbody := ended_split hts rfl (views_not_eof hviews) hsplit heof
    exact ⟨q, by rw [← hbody]; exact hviews, hchk, rfl⟩
  · rintro ⟨q, hviews, hchk, rfl⟩
    exact parseSelect_complete hg' (reads_iff.2 ⟨ts, rfl, hviews⟩) rfl hchk

/-- No keyword of the grammar is rejected up front. -/
lemma unsupportedKeyword_none (h : ts.map Token.view = q.tokens.map some) :
    unsupportedKeyword (ts ++ [{ kind := .eof, off := n }]) = none := by
  have hdisjoint : ∀ e ∈ unsupportedKeywords, e.1 ∉ grammarWords := by decide
  rw [unsupportedKeyword, findSome?_eq_none_iff]
  intro t ht
  rcases mem_append.1 ht with ht | ht
  · by_cases hk : t.kind = .keyword
    · have hmem : t.view ∈ q.tokens.map some := by
        rw [← h]
        exact mem_map_of_mem ht
      obtain ⟨tok, htok, hview⟩ := mem_map.1 hmem
      have hword : t.view = some (.keyword t.up) := by simp [Token.view, hk]
      rw [hword] at hview
      have hours := q.ours tok htok
      rw [Option.some.inj hview] at hours
      rw [if_pos hk, Option.map_eq_none_iff, find?_eq_none]
      intro e he heq
      refine hdisjoint e he ?_
      rw [of_decide_eq_true heq]
      exact hours
    · rw [if_neg hk]
  · rw [mem_singleton.1 ht]
    rfl

lemma pgStep_word_shape {c rest w} (h : (pgStep c rest).1 = .word w) :
    pgIdentStart c = true ∧ w = c :: rest.takeWhile pgIdentPart := by
  unfold pgStep at h
  split_ifs at h with h1 h2 h3 h4 h5 h6 h7 h8
  all_goals cases h
  exact ⟨h7, rfl⟩

lemma mem_pgLexemes : ∀ l ∈ pgLexemes sql, ∃ c rest, l = (pgStep c rest).1 := by
  fun_induction pgLexemes sql with
  | case1 => exact nofun
  | case2 c rest ih =>
    intro l hl
    rcases mem_cons.1 hl with rfl | hl
    · exact ⟨c, rest, rfl⟩
    · exact ih l hl

variable {syms : List Sym}

section

variable (hplain : ∀ l ∈ pgLexemes sql, l.Plain)
include hplain

/-- No identifier of a plain text is empty. -/
lemma pgSyms_named : ∀ s, .name s ∈ pgSyms sql → s.1 ≠ [] := by
  intro s hs
  obtain ⟨l, hl, hsym⟩ := mem_filterMap.1 hs
  cases l with
  | word w =>
    obtain ⟨c, rest, hstep⟩ := mem_pgLexemes _ hl
    simp only [Lexeme.sym?, Option.some.injEq] at hsym
    split at hsym
    · cases hsym
    injection hsym with hsym
    rw [← hsym, (pgStep_word_shape hstep.symm).2]
    exact cons_ne_nil _ _
  | quoted name inner closed =>
    injection hsym with hsym
    cases hsym
    exact (hplain _ hl).1
  | _ => cases hsym

omit hplain in
/-- What the lexer returns for a text both readers agree on. -/
lemma tokens_good (h : tokenizeFrom n sql = .ok (ts ++ [{ kind := .eof, off := n }])) :
    Good ts ∧ ∀ t ∈ ts, t.kind ≠ .eof := by
  obtain ⟨body, hbody, hall⟩ := tokenizeFrom_ok n sql _ h
  rw [(append_inj' hbody rfl).1]
  exact ⟨fun t ht => (hall t ht).1, fun t ht => (hall t ht).2⟩

omit hplain in
lemma views_named (h : Views ts syms) (hs : ∀ s, Tok.name s ∈ syms → s.1 ≠ []) : Named ts := by
  intro t ht hk
  have hmem : t.view ∈ syms.map fun s => some (s.map Prod.fst) := by
    rw [← h]
    exact mem_map_of_mem ht
  obtain ⟨s, hsym, hview⟩ := mem_map.1 hmem
  rw [Token.view_name.2 ⟨hk, rfl⟩] at hview
  obtain ⟨a, rfl, ha⟩ := Tok.map_eq_name.1 (Option.some.inj hview)
  rw [← ha]
  exact hs a hsym

/-- **The parser on a plain text.** It accepts the texts whose symbols are those of a tree that satisfies the
side conditions, identifiers taken as they are written. -/
theorem parseExactKeySelect_iff :
    parseExactKeySelect sql = .ok r ↔ ∃ q : Select (GoString × GoString), pgSyms sql = q.tokens ∧
      (q.map Prod.fst).OK ∧ r = (q.map Prod.fst).toQuery := by
  rw [parseExactKeySelect, tokenize]
  rcases lockstep sql.length sql hplain with ⟨ts, htok, hviews, -⟩ | ⟨hlit, s, hs, hforeign⟩
  · obtain ⟨hgood, hneof⟩ := tokens_good htok
    have hnamed := views_named hviews (pgSyms_named hplain)
    rw [htok]
    simp only
    constructor
    · intro h
      split at h
      · cases h
      obtain ⟨q, hq, hchk, rfl⟩ := (parseSelect_iff hgood hneof).1 h
      have hraw : (pgSyms sql).map (Tok.map Prod.fst) = q.tokens := by
        have : (pgSyms sql).map (fun s => some (s.map Prod.fst)) = q.tokens.map some := hviews.symm.trans hq
        rw [← List.map_inj_right (fun _ _ => Option.some.inj), List.map_map]
        exact this
      have hne : ∀ a, Scopes q.tokens a → a ≠ [] := by
        intro a ha
        exact (reads_iff.2 ⟨ts, (append_nil ts).symm, hq⟩ : Reads ts q.tokens []).named hnamed a ha.mem
      obtain ⟨q', rfl, htokens⟩ := Select.lift hraw
      exact ⟨q', htokens.symm, (checked_iff hne).1 hchk, rfl⟩
    rintro ⟨q, hq, hok, rfl⟩
    have hmap : ts.map Token.view = (q.map Prod.fst).tokens.map some := by
      rw [hviews, hq, Select.tokens_map, List.map_map]
      rfl
    have hne : ∀ a, Scopes (q.map Prod.fst).tokens a → a ≠ [] := by
      intro a ha
      exact (reads_iff.2 ⟨ts, (append_nil ts).symm, hmap⟩ : Reads ts _ []).named hnamed a ha.mem
    rw [unsupportedKeyword_none hmap]
    exact (parseSelect_iff hgood hneof).2 ⟨_, hmap, (checked_iff hne).2 hok, rfl⟩
  constructor
  · -- the parser would have read the literal as part of a tree
    intro h
    split at h
    · cases h
    rename_i ts htok
    split at h
    · cases h
    obtain ⟨body, rfl, hall⟩ := tokenizeFrom_ok _ _ _ htok
    obtain ⟨q, hq, -, -⟩ := (parseSelect_iff (fun t ht => (hall t ht).1) fun t ht => (hall t ht).2).1 h
    obtain ⟨t, ht, hview⟩ := hlit _ htok
    rcases mem_append.1 ht with ht | ht
    · have hmem : t.view ∈ q.tokens.map some := by
        rw [← hq]
        exact mem_map_of_mem ht
      obtain ⟨tok, htok', heq⟩ := mem_map.1 hmem
      rw [hview] at heq
      have hours := q.ours tok htok'
      rw [Option.some.inj heq] at hours
      exact hours.elim
    · rw [mem_singleton.1 ht] at hview
      cases hview
  rintro ⟨q, hq, -, -⟩
  rw [hq] at hs
  exact absurd hforeign (q.ours s hs).not_foreign

/-- PostgreSQL reads a plain text whose symbols are those of a tree. -/
lemma pgRead_of_tree {q : Select (GoString × GoString)} (hq : pgSyms sql = q.tokens) :
    pgRead sql = some (q.map Prod.snd).tokens := by
  rcases lockstep sql.length sql hplain with ⟨ts, -, -, hread⟩ | ⟨-, s, hs, hforeign⟩
  · rw [hread, hq, Select.tokens_map]
  · rw [hq] at hs
    exact absurd hforeign (q.ours s hs).not_foreign

/-- The grammar on a plain text, identifiers taken as PostgreSQL understands them. -/
lemma supported_iff : Supported sql ↔ ∃ q : Select (GoString × GoString), pgSyms sql = q.tokens ∧ (q.map Prod.snd).OK ∧
      (q.map Prod.snd).Strict := by
  constructor
  · rintro ⟨q, hok, hstrict, hread⟩
    obtain ⟨q', rfl, htokens⟩ := Select.lift (pgRead_eq hread).symm
    exact ⟨q', htokens.symm, hok, hstrict⟩
  · rintro ⟨q, hq, hok, hstrict⟩
    exact ⟨_, hok, hstrict, pgRead_of_tree hplain hq⟩

end

/-- Reading identifiers another way keeps the aliases. -/
lemma Select.strict_map {α β : Type} (f : α → β) {q : Select α} (h : q.Strict) : (q.map f).Strict := by
  have hlabels : (q.map f).labels = q.labels.map (Alias.map f) := by
    simp only [Select.labels, Select.map, map_append, map_cons, List.map_map]
    cases q.join <;> rfl
  intro a ha
  rw [hlabels] at ha
  obtain ⟨a', ha', rfl⟩ := mem_map.1 ha
  have hne := h a' ha'
  cases a' with
  | dangling => exact absurd rfl hne
  | _ =>
    intro e
    cases e

/-! ## Missing aliases -/

/-- Put in front of tokens in which a name stands after every `AS`, these keep it so. -/
def Whole (toks : List (Tok α)) : Prop := ∀ rest, AsNamed rest → AsNamed (toks ++ rest)

lemma Whole.nil : Whole ([] : List (Tok α)) := fun _ h => h

lemma Whole.cons {tok : Tok α} (htok : tok ≠ kw "AS") {toks} (h : Whole toks) : Whole (tok :: toks) := by
  intro rest hrest next hnext
  rcases infix_cons_iff.1 hnext with hpre | hin
  · obtain ⟨tail, htail⟩ := hpre
    injection htail with hhead
    exact absurd hhead.symm htok
  · exact h rest hrest next hin

lemma Whole.append {l k : List (Tok α)} (hl : Whole l) (hk : Whole k) : Whole (l ++ k) := by
  intro rest hrest
  rw [append_assoc]
  exact hl _ (hk rest hrest)

lemma Whole.flatMap {β : Type} {l : List β} {f : β → List (Tok α)} (h : ∀ b ∈ l, Whole (f b)) : Whole (l.flatMap f) := by
  induction l with
  | nil => exact Whole.nil
  | cons b l ih => exact (h b mem_cons_self).append (ih fun x hx => h x (mem_cons_of_mem _ hx))

lemma Whole.name {a : α} {toks} (h : Whole toks) : Whole (.name a :: toks) := Whole.cons (by intro e; cases e) h

lemma Whole.sym {c : Char} {toks : List (Tok α)} (h : Whole toks) : Whole (sym c :: toks) :=
  Whole.cons (by intro e; cases e) h

lemma Whole.kw {k : String} (hk : str k ≠ str "AS") {toks : List (Tok α)} (h : Whole toks) : Whole (kw k :: toks) :=
  Whole.cons (fun e => hk (Tok.keyword.inj e)) h

lemma Alias.whole {a : Alias α} (h : a ≠ .dangling) : Whole a.tokens := by
  cases a with
  | none => exact Whole.nil
  | bare n => exact Whole.nil.name
  | dangling => exact absurd rfl h
  | as n =>
    intro rest hrest next hnext
    rcases infix_cons_iff.1 hnext with hpre | hin
    · obtain ⟨tail, htail⟩ := hpre
      injection htail with _ htail
      injection htail with hname
      exact ⟨n, hname⟩
    · exact Whole.nil.name rest hrest next hin

lemma ColRef.whole (c : ColRef α) : Whole c.tokens := by
  obtain ⟨table, name⟩ := c
  cases table with
  | none => exact Whole.nil.name
  | some t => exact Whole.nil.name.sym.name

lemma Rel.whole {r : Rel α} (h : r.label ≠ .dangling) : Whole r.tokens := (Alias.whole h).name

lemma JoinTree.whole {j : JoinTree α} (h : j.relation.label ≠ .dangling) : Whole j.tokens := by
  have hwords : Whole (j.words.tokens : List (Tok α)) := by
    have hjoin : Whole ([kw "JOIN"] : List (Tok α)) := Whole.nil.kw (by decide)
    cases j.words
    · exact hjoin
    · exact hjoin.kw (by decide)
    · exact hjoin.kw (by decide)
    · exact (hjoin.kw (by decide)).kw (by decide)
  exact hwords.append ((Rel.whole h).append (((ColRef.whole _).append (ColRef.whole _).sym).kw (by decide)))

lemma Pred.whole (p : Pred α) : Whole p.tokens := by
  cases p with
  | key c n => exact (ColRef.whole c).append (Whole.sym (Whole.cons (by intro e; cases e) Whole.nil))
  | null c neg =>
    have hnull : Whole ([kw "NULL"] : List (Tok α)) := Whole.nil.kw (by decide)
    refine (ColRef.whole c).append (Whole.kw (by decide) ?_)
    cases neg
    · exact hnull
    · exact hnull.kw (by decide)

/-- **A name stands after every `AS`** if no alias is missing. -/
theorem Select.asNamed_of_strict {q : Select α} (h : q.Strict) : AsNamed q.tokens := by
  have hitem : ∀ i ∈ q.item :: q.items, Whole i.tokens := fun i hi =>
    (ColRef.whole _).append (Alias.whole (h _ (mem_append_left _ (mem_map_of_mem hi))))
  have hrel : Whole q.relation.tokens := Rel.whole (h _ (mem_append_right _ mem_cons_self))
  have hjoin : Whole ((q.join.map JoinTree.tokens).getD []) := by
    cases hj : q.join with
    | none => exact Whole.nil
    | some j =>
      refine JoinTree.whole (h _ (mem_append_right _ (mem_cons_of_mem _ ?_)))
      rw [hj]
      exact mem_singleton.2 rfl
  have hend : Whole (if q.semicolon then [sym ';'] else [] : List (Tok α)) := by
    split
    · exact Whole.nil.sym
    · exact Whole.nil
  have hall : Whole q.tokens := by
    have hpreds : Whole (q.preds.flatMap fun p => kw "AND" :: p.tokens) :=
      Whole.flatMap fun p _ => (Pred.whole p).kw (by decide)
    have hitems : Whole (q.items.flatMap fun i => sym ',' :: i.tokens) :=
      Whole.flatMap fun i hi => (hitem i (mem_cons_of_mem _ hi)).sym
    have hfilter := ((Pred.whole q.pred).append (hpreds.append hend)).kw (k := "WHERE") (by decide)
    have hfrom := (hrel.append (hjoin.append hfilter)).kw (k := "FROM") (by decide)
    exact ((hitem _ mem_cons_self).append (hitems.append hfrom)).kw (by decide)
  have hnil := hall [] fun _ hnext => absurd hnext.length_le (by simp)
  rwa [append_nil] at hnil

/-- The text is a query of the grammar in which the alias after some `AS` is missing. -/
def AliasMissing (sql : GoString) : Prop := ∃ q : Select (GoString × GoString), pgSyms sql = q.tokens ∧
  (q.map Prod.snd).OK ∧ ¬(q.map Prod.snd).Strict

/-- A name that is written as PostgreSQL understands it. -/
def Tok.folded : Sym → Bool
  | .name s => s.1 = s.2
  | _ => true

lemma spelledAlike_of_folded (h : ∀ s ∈ syms, s.folded = true) : SpelledAlike syms := by
  have hname : ∀ a, Scopes syms a → a.1 = a.2 := fun a ha => of_decide_eq_true (h _ ha.mem)
  intro a b ha hb
  rw [hname a ha, hname b hb]

lemma mem_zip_tail {x y : α} {l : List α} (h : [x, y] <:+: l) : (x, y) ∈ l.zip l.tail := by
  induction l with
  | nil =>
    have := h.length_le
    simp at this
  | cons a l ih =>
    rcases infix_cons_iff.1 h with h | h
    · obtain ⟨rest, hrest⟩ := h
      injection hrest with hx hl
      rw [← hl, ← hx]
      exact mem_cons_self
    cases l with
    | nil =>
      have := h.length_le
      simp at this
    | cons b l => exact mem_cons_of_mem _ (ih h)

def Tok.isName {α : Type} : Tok α → Bool
  | .name _ => true
  | _ => false

lemma asNamed_of_pairs (h : ∀ p ∈ toks.zip toks.tail, p.1 = kw "AS" → p.2.isName = true) : AsNamed toks := by
  intro tok htok
  have hname := h _ (mem_zip_tail htok) rfl
  cases tok with
  | name a => exact ⟨a, rfl⟩
  | _ => cases hname

lemma exists_ok {ε α : Type} {x : Except ε α} (h : x.isOk = true) : ∃ r, x = .ok r := by
  cases x with
  | error e => cases h
  | ok a => exact ⟨a, rfl⟩

/-- No query of the grammar has `FROM` after its first `AS`. -/
lemma Select.tokens_ne_dangling {q : Select α} (h : q.Strict) (a : α) (rest : List (Tok α)) :
    q.tokens ≠ kw "SELECT" :: .name a :: kw "AS" :: kw "FROM" :: rest := by
  obtain ⟨⟨⟨table, name⟩, label⟩, items, rel, join, pred, preds, semi⟩ := q
  have hlabel : label ≠ .dangling := h label (by simp [Select.labels])
  have hfrom : str "FROM" ≠ str "AS" := by decide
  intro htok
  cases label with
  | dangling => exact hlabel rfl
  | none =>
    cases table <;> cases items <;>
      simp [Select.tokens, Item.tokens, ColRef.tokens, Alias.tokens, kw, sym, hfrom] at htok
  | bare _ | as _ =>
    cases table <;> simp [Select.tokens, Item.tokens, ColRef.tokens, Alias.tokens, kw, sym] at htok

end BatchWeaver.Sql
