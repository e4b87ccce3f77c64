import BatchWeaver.Proof.SqlAccept

/-!
# The placeholders of an accepted query

The parser folds the digits of a placeholder in a 64-bit `int`, and only then checks that the placeholders
of the keys are `$1` to `$k` in some order.

* `placeholders_perm`: the written values are those numbers exactly when the placeholders fit an `int`.
* `placeholder_wraps`: a longer one is accepted for the number it wraps to.
-/

namespace BatchWeaver.Sql

open List

variable {α : Type} {ts : List Token}

/-- The decimal values of the placeholders written in a query. -/
def placeholders (sql : GoString) : List ℕ :=
  match tokenize sql with
  | .error _ => []
  | .ok ts => (ts.filter fun t => t.kind = .param).map fun t => digitsValue (t.text.drop 1)

def Tok.param? : Tok α → Option ℤ
  | .param n => some n
  | _ => none

/-! ## In the tree, only the keys have placeholders -/

lemma ColRef.no_param (c : ColRef α) : c.tokens.filterMap Tok.param? = [] := by
  obtain ⟨_ | table, name⟩ := c <;> rfl

lemma Alias.no_param (a : Alias α) : a.tokens.filterMap Tok.param? = [] := by
  cases a <;> rfl

lemma Rel.no_param (r : Rel α) : r.tokens.filterMap Tok.param? = [] := r.label.no_param

lemma Item.no_param (i : Item α) : i.tokens.filterMap Tok.param? = [] := by
  rw [Item.tokens, filterMap_append, i.column.no_param, i.label.no_param, nil_append]

lemma JoinTree.no_param (j : JoinTree α) : j.tokens.filterMap Tok.param? = [] := by
  have hwords : (j.words.tokens : List (Tok α)).filterMap Tok.param? = [] := by
    cases j.words <;> rfl
  simp only [JoinTree.tokens, filterMap_append, filterMap_cons, hwords, Rel.no_param, ColRef.no_param,
    Tok.param?, kw, sym, append_nil]

lemma Pred.params (p : Pred α) : p.tokens.filterMap Tok.param? = (p.key?.map Prod.snd).toList := by
  cases p with
  | key c n =>
    rw [Pred.tokens, filterMap_append, c.no_param]
    rfl
  | null c neg =>
    rw [Pred.tokens, filterMap_append, c.no_param]
    cases neg <;> rfl

lemma Select.params (q : Select α) : q.tokens.filterMap Tok.param? = q.keys.map Prod.snd := by
  have hjoin : ((q.join.map JoinTree.tokens).getD []).filterMap Tok.param? = [] := by
    cases q.join with
    | none => rfl
    | some j => exact j.no_param
  have hitems : q.items.flatMap (fun _ => ([] : List ℤ)) = [] := flatMap_eq_nil_iff.2 fun _ _ => rfl
  have hkeys : q.keys.map Prod.snd = (q.pred :: q.preds).flatMap fun p => p.tokens.filterMap Tok.param? := by
    simp only [Pred.params]
    rw [Select.keys, map_filterMap, filterMap_eq_flatMap_toList]
  rw [hkeys]
  simp only [Select.tokens, filterMap_append, filterMap_flatMap, filterMap_cons, Item.no_param, Rel.no_param,
    hjoin, hitems, flatMap_cons, Tok.param?, kw, sym, nil_append]
  cases q.semicolon <;> simp [Tok.param?]

/-- The placeholders of the tokens are those of the tree they are read as. -/
lemma view_params {toks : List (Tok GoString)} (h : ts.map Token.view = toks.map some) :
    (ts.filter fun t => t.kind = .param).map (fun t => paramNumber t.text) = toks.filterMap Tok.param? := by
  have hview : ∀ t : Token, t.view.bind Tok.param? = if t.kind = .param then some (paramNumber t.text) else none := by
    intro t
    cases hk : t.kind <;> simp [Token.view, hk, Tok.param?]
  have htoks : toks.filterMap Tok.param? = (toks.map some).filterMap fun v => v.bind Tok.param? := by
    rw [filterMap_map]
    rfl
  rw [htoks, ← h, filterMap_map, ← filterMap_eq_map, filterMap_filter]
  exact filterMap_congr fun t _ => by simp [hview]

/-- The digits of a placeholder. -/
lemma lexStep_param {off c rest rest' t} (h : lexStep off c rest = .ok (some t, rest')) (hk : t.kind = .param) :
    ∃ c digits, t.text = c :: digits ∧ ∀ d ∈ digits, isDigit d = true := by
  have hspec := lexStep_spec off c rest
  rw [h] at hspec
  cases hspec with
  | param => exact ⟨_, _, rfl, fun d hd => (all_eq_true.1 all_takeWhile) d hd⟩
  | _ => cases hk

lemma paramNumber_lt (text : GoString) : paramNumber text < 2 ^ 63 := by
  suffices h : ∀ n < (2 ^ 63 : ℤ), (text.drop 1).foldl (fun n c => Int.bmod (n * 10 + ((c.toNat : ℤ) - 48)) (2 ^ 64)) n <
      2 ^ 63 from h 0 (by decide)
  induction text.drop 1 with
  | nil => exact fun n hn => hn
  | cons c digits ih => exact fun n _ => ih _ (Int.bmod_lt (by decide))

/-- The parameters of the keys are the placeholders as they are folded, and these are `1` to `k`. -/
lemma accepted_params {sql : GoString} {r : ParsedQuery} (h : parseExactKeySelect sql = .ok r) :
    ∃ texts : List GoString, (∀ t ∈ texts, ∃ c digits, t = c :: digits ∧ ∀ d ∈ digits, isDigit d = true) ∧
      placeholders sql = texts.map (fun t => digitsValue (t.drop 1)) ∧
      r.keys.map KeyPredicate.param = texts.map paramNumber ∧
      (texts.map paramNumber).Perm ((range' 1 r.keys.length).map Int.ofNat) := by
  rw [parseExactKeySelect] at h
  split at h
  · cases h
  rename_i ts htok
  split at h
  · cases h
  obtain ⟨body, rfl, hall⟩ := tokenizeFrom_all (fun hstep => And.intro (lexStep_ok hstep) (lexStep_param hstep))
    sql ts htok
  obtain ⟨q, hq, hchk, rfl⟩ := (parseSelect_iff (fun t ht => (hall t ht).1.1) fun t ht => (hall t ht).1.2).1 h
  have hkeys : q.toQuery.keys.map KeyPredicate.param =
      ((body.filter fun t => t.kind = .param).map fun t => t.text).map paramNumber := by
    rw [map_map, Function.comp_def, view_params hq, q.params]
    simp [Select.toQuery]
  refine ⟨(body.filter fun t => t.kind = .param).map fun t => t.text, fun text ht => ?_, ?_, hkeys, ?_⟩
  · obtain ⟨t, htoken, rfl⟩ := mem_map.1 ht
    obtain ⟨hmem, hk⟩ := mem_filter.1 htoken
    exact (hall t hmem).2 (of_decide_eq_true hk)
  · rw [placeholders, htok, map_map]
    simp
  · obtain ⟨hnodup, -, hrange, -⟩ := (validateKeys_iff _ _).1 hchk.keys
    rw [← hkeys]
    refine (hnodup.subperm fun n hn => ?_).perm_of_length_le (by simp)
    obtain ⟨k, hk, rfl⟩ := mem_map.1 hn
    obtain ⟨h1, h2⟩ := hrange k hk
    exact mem_map.2 ⟨k.param.toNat, mem_range'_1.2 (by omega), Int.toNat_of_nonneg (by omega)⟩

/-- **Key placeholders are `$1` to `$k`.** The decimal values of the placeholders written in an accepted query are a
permutation of `1` to `k` that the parsed keys refer to in order, exactly when every one of them fits an `int`. -/
theorem placeholders_perm (sql : GoString) (r : ParsedQuery) (h : parseExactKeySelect sql = .ok r) :
    (placeholders sql).Perm (range' 1 r.keys.length) ∧
      r.keys.map KeyPredicate.param = (placeholders sql).map Int.ofNat ↔ ∀ n ∈ placeholders sql, n < 2 ^ 63 := by
  obtain ⟨texts, hdigits, hwritten, hkeys, hperm⟩ := accepted_params h
  constructor
  · -- the largest of `1` to `k` is what some placeholder is folded to
    rintro ⟨hwrittenPerm, -⟩ n hn
    obtain ⟨h1, hk⟩ := mem_range'_1.1 (hwrittenPerm.mem_iff.1 hn)
    have hmem : (r.keys.length : ℤ) ∈ texts.map paramNumber :=
      hperm.mem_iff.2 (mem_map.2 ⟨r.keys.length, mem_range'_1.2 (by omega), rfl⟩)
    obtain ⟨t, -, ht⟩ := mem_map.1 hmem
    have := paramNumber_lt t
    omega
  intro hfit
  have hfold : texts.map paramNumber = (placeholders sql).map Int.ofNat := by
    rw [hwritten, map_map]
    refine map_congr_left fun t ht => ?_
    obtain ⟨c, digits, rfl, hd⟩ := hdigits t ht
    exact paramNumber_digits hd (hfit _ (by rw [hwritten]; exact mem_map_of_mem ht)) c
  rw [hfold] at hperm hkeys
  exact ⟨(map_perm_map_iff Int.ofNat_injective).1 hperm, hkeys⟩

theorem placeholders_perm_swapped :
    (placeholders (str "SELECT v FROM t WHERE a = $2 AND b = $1")).Perm (range' 1 2) := by
  have hrun : (parseExactKeySelect (str "SELECT v FROM t WHERE a = $2 AND b = $1")).isOk = true ∧
      placeholders (str "SELECT v FROM t WHERE a = $2 AND b = $1") = [2, 1] := by decide +kernel
  obtain ⟨r, h⟩ := exists_ok hrun.1
  have hperm := (placeholders_perm _ r h).2 (by rw [hrun.2]; decide)
  have hlen : r.keys.length = 2 := by
    rw [← length_map KeyPredicate.param, hperm.2, hrun.2]
    rfl
  rw [← hlen]
  exact hperm.1

/-- A placeholder of twenty digits wraps to `$1` and the query is accepted, though no parameter of that number
exists. -/
theorem placeholder_wraps : (parseExactKeySelect (str "SELECT v FROM t WHERE a = $18446744073709551617")).isOk = true ∧
      placeholders (str "SELECT v FROM t WHERE a = $18446744073709551617") = [18446744073709551617] := by
  decide +kernel

end BatchWeaver.Sql
