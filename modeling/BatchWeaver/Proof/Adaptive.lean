import BatchWeaver.Spec.Adaptive

/-!
# Histograms that add up, and decisions that are found

* `decode_exact`: a decoded histogram holds as many samples as it counts, exactly if the true sum of its counters is
  below `2 ^ 64` or one of the checks fails. `decode_wraps` is one that is decoded because its counters wrap around.
* `decisions_found`: the log finds the decisions it retains, as long as no decision that it evicts shares its
  ID with one that stays. `decision_lost` is a retained decision that it does not find.
-/

namespace BatchWeaver.Adaptive

open List

/-! ## Histograms -/

/-- The samples that `Quantile` and `CDF` run through. -/
def Histogram.mass {F : Type} (h : Histogram F) : ℕ :=
  h.zeroCount.toNat + (h.buckets.entries.map fun e => e.2.toNat).sum

/-- The buckets are filled once each; the total is the sum of the counts in 64 bits. -/
lemma fillBuckets_spec {entries buckets buckets' total total'}
    (h : fillBuckets entries buckets total = .ok (buckets', total')) :
    (∀ e ∈ entries, e.1 ∉ buckets) ∧ (entries.map Prod.fst).Nodup ∧
      total'.toNat = (total.toNat + (entries.map fun e => e.2.toNat).sum) % 2 ^ 64 ∧
      (buckets'.entries.map fun e => e.2.toNat).sum =
        (buckets.entries.map fun e => e.2.toNat).sum + (entries.map fun e => e.2.toNat).sum := by
  induction entries generalizing buckets total with
  | nil =>
    cases h
    simp [Nat.mod_eq_of_lt (UInt64.toNat_lt _)]
  | cons e entries ih =>
    obtain ⟨k, n⟩ := e
    rw [fillBuckets] at h
    split at h
    · cases h
    rename_i hnew
    have hk : k ∉ buckets := fun hmem => hnew (AList.lookup_isSome.2 hmem)
    obtain ⟨hfresh, hnodup, htotal, hsum⟩ := ih h
    simp only [AList.mem_insert, not_or] at hfresh
    refine ⟨forall_mem_cons.2 ⟨hk, fun e he => (hfresh e he).2⟩, ?_, ?_, ?_⟩
    · refine nodup_cons.2 ⟨fun hmem => ?_, hnodup⟩
      obtain ⟨e, he, rfl⟩ := mem_map.1 hmem
      exact (hfresh e he).1 rfl
    · rw [htotal, UInt64.toNat_add, Nat.mod_add_mod, map_cons, sum_cons, Nat.add_assoc]
    rw [hsum, AList.entries_insert_of_notMem hk]
    simp only [map_cons, sum_cons]
    omega

lemma fillBuckets_ok {entries buckets} (total) (hfresh : ∀ e ∈ entries, e.1 ∉ buckets)
    (hnodup : (entries.map Prod.fst).Nodup) : ∃ r, fillBuckets entries buckets total = .ok r := by
  induction entries generalizing buckets total with
  | nil => exact ⟨_, rfl⟩
  | cons e entries ih =>
    obtain ⟨k, n⟩ := e
    obtain ⟨hk, hfresh⟩ := forall_mem_cons.1 hfresh
    obtain ⟨hnot, hnodup⟩ := nodup_cons.1 hnodup
    rw [fillBuckets, if_neg fun h => hk (AList.lookup_isSome.1 h)]
    refine ih _ (fun e he hmem => ?_) hnodup
    rcases (AList.mem_insert _).1 hmem with heq | hmem
    · exact hnot (mem_map.2 ⟨e, he, heq⟩)
    · exact hfresh e he hmem

section

variable {F : Type} {d : HistogramData F}

/-- The sum of the counters over unbounded integers. -/
def HistogramData.trueTotal (d : HistogramData F) : ℕ := (d.bucketCounts.map UInt64.toNat).sum + d.zeroCount.toNat

/-- What the checks of `Decode` ask for. -/
structure HistogramData.Checked (d : HistogramData F) : Prop where
  length : d.bucketIndex.length = d.bucketCounts.length
  bound : d.bucketIndex.length ≤ histogramMaxBuckets
  sorted : d.bucketIndex.Pairwise (· ≤ ·)
  nodup : d.bucketIndex.Nodup
  total : d.trueTotal % 2 ^ 64 = d.count.toNat

lemma zip_counts (h : d.bucketIndex.length = d.bucketCounts.length) :
    (d.bucketIndex.zip d.bucketCounts).map Prod.fst = d.bucketIndex ∧
      (d.bucketIndex.zip d.bucketCounts).map (fun e => e.2.toNat) = d.bucketCounts.map UInt64.toNat := by
  refine ⟨map_fst_zip (by omega), ?_⟩
  have := congrArg (map UInt64.toNat) (map_snd_zip (by omega : d.bucketCounts.length ≤ d.bucketIndex.length))
  rwa [map_map] at this

/-- The total in 64 bits is the recorded count when the true one is so modulo `2 ^ 64`. -/
lemma total_eq_iff {total : UInt64} (h : total.toNat = (d.bucketCounts.map UInt64.toNat).sum % 2 ^ 64) :
    total + d.zeroCount = d.count ↔ d.trueTotal % 2 ^ 64 = d.count.toNat := by
  rw [← UInt64.toNat_inj, UInt64.toNat_add, h, Nat.mod_add_mod, HistogramData.trueTotal]

variable [Zero F] [One F] [Add F] [LT F] [DecidableLT F] {log : F → F} {defaultAccuracy : F}

lemma decode_checked {h : Histogram F} (hd : d.decode log defaultAccuracy = .ok h) :
    d.Checked ∧ h.mass = d.trueTotal ∧ h.count = d.count := by
  unfold HistogramData.decode at hd
  split at hd
  · cases hd
  rename_i hlen
  split at hd
  · cases hd
  rename_i hbound
  split at hd
  · cases hd
  rename_i hsorted
  dsimp only at hd
  split at hd
  · cases hd
  rename_i buckets total hfill
  split at hd
  · cases hd
  rename_i hcount
  cases hd
  obtain ⟨hfst, hsnd⟩ := zip_counts (not_not.1 hlen)
  obtain ⟨-, hnodup, htotal, hsum⟩ := fillBuckets_spec hfill
  rw [hfst] at hnodup
  rw [hsnd, UInt64.toNat_zero, Nat.zero_add] at htotal
  refine ⟨⟨not_not.1 hlen, not_lt.1 hbound, not_not.1 hsorted, hnodup, (total_eq_iff htotal).1 (not_not.1 hcount)⟩, ?_, rfl⟩
  simp only [Histogram.mass, hsum, hsnd, newHistogram, HistogramData.trueTotal]
  simp only [AList.empty_entries, map_nil, sum_nil]
  omega

lemma HistogramData.Checked.decode (h : d.Checked) : ∃ r, d.decode log defaultAccuracy = .ok r := by
  obtain ⟨hfst, hsnd⟩ := zip_counts h.length
  obtain ⟨⟨buckets, total⟩, hfill⟩ : ∃ r, fillBuckets (d.bucketIndex.zip d.bucketCounts) ∅ 0 = .ok r := fillBuckets_ok 0
    (fun _ _ => AList.notMem_empty _) (by rw [hfst]; exact h.nodup)
  obtain ⟨-, -, htotal, -⟩ := fillBuckets_spec hfill
  rw [hsnd, UInt64.toNat_zero, Nat.zero_add] at htotal
  unfold HistogramData.decode
  rw [if_neg (not_not.2 h.length), if_neg (not_lt.2 h.bound), if_neg (not_not.2 h.sorted)]
  simp only [newHistogram, hfill, ne_eq, (total_eq_iff htotal).2 h.total, not_true_eq_false, if_false]
  exact ⟨_, rfl⟩

/-- **Decoding checks the total** exactly where the true sum of the counters is below `2 ^ 64` or a check fails: then a
decoded histogram has every bucket once, and its counters add up to its count, which is what its readers run
through. -/
theorem decode_exact (log : F → F) (defaultAccuracy : F) (d : HistogramData F) :
    (∀ h, d.decode log defaultAccuracy = .ok h →
      d.bucketIndex.Nodup ∧ d.trueTotal = d.count.toNat ∧ h.mass = h.count.toNat) ↔
    (d.Checked → d.trueTotal < 2 ^ 64) := by
  constructor
  · intro hall hchecked
    obtain ⟨h, hd⟩ : ∃ h, d.decode log defaultAccuracy = .ok h := hchecked.decode
    rw [(hall h hd).2.1]
    exact d.count.toNat_lt
  · intro hfit h hd
    obtain ⟨hchecked, hmass, hcount⟩ := decode_checked hd
    have htotal : d.trueTotal = d.count.toNat := by
      rw [← hchecked.total, Nat.mod_eq_of_lt (hfit hchecked)]
    exact ⟨hchecked.nodup, htotal, by rw [hmass, hcount, htotal]⟩

end

/-- Two buckets and a zero count. -/
def threeSamples : HistogramData ℤ := ⟨0, 3, 3, 0, 2, 1, false, [1, 2], [1, 1]⟩

theorem decode_exact_three : threeSamples.bucketIndex.Nodup ∧ threeSamples.trueTotal = threeSamples.count.toNat := by
  have h := (decode_exact (fun x => x) 0 threeSamples).2 (fun _ => by decide) _ rfl
  exact ⟨h.1, h.2.1⟩

/-- Two counts of `2 ^ 63` add up to nothing, and a histogram of no samples is decoded with them. -/
theorem decode_wraps :
    ((⟨0, 0, 0, 0, 0, 0, false, [0, 1], [9223372036854775808, 9223372036854775808]⟩ : HistogramData ℤ).decode
      (fun x => x) 0).toOption.map (fun h => (h.mass, h.count)) = some (18446744073709551616, 0) := by
  decide +kernel

/-! ## The decision log -/

variable {B : Type} {es : List (Decision B)} {l : DecisionLog B} {max : ℤ} {d : Decision B}

/-- The retained decision of an ID that was recorded last. -/
def DecisionLog.newest (l : DecisionLog B) (id : GoString) : Option (Decision B) :=
  l.items.reverse.find? fun d => d.id = id

/-- The decision that goes when `d` is recorded, if one does, leaves no other of its ID behind. -/
def EvictsLast (l : DecisionLog B) (d : Decision B) : Prop :=
  l.max < l.items.length + 1 → ∀ d' ∈ (l.items ++ [d]).tail, (l.items ++ [d]).head?.map Decision.id ≠ some d'.id

instance (max : ℤ) (es : List (Decision B)) (l : DecisionLog B) (d : Decision B) :
    Decidable ((decisionLog max).ok es l d) := inferInstanceAs (Decidable True)

instance (l : DecisionLog B) (d : Decision B) : Decidable (EvictsLast l d) := inferInstanceAs (Decidable (_ → _))

lemma record_get (h : ∀ id, l.get id = l.newest id) (hd : EvictsLast l d) (id : GoString) :
    (l.record d).get id = (l.record d).newest id := by
  have hnew : (l.byID.insert d.id d).lookup id = (l.items ++ [d]).reverse.find? fun d => d.id = id := by
    rw [Table.lookup_insert_if, reverse_append, reverse_singleton, singleton_append, find?_cons, ← DecisionLog.newest,
      ← h, DecisionLog.get]
    by_cases e : id = d.id
    · simp [e]
    · simp [e, Ne.symm e]
  rw [DecisionLog.record]
  split
  · rename_i hfull
    have hlast := hd (by simpa using hfull)
    simp only [DecisionLog.get, DecisionLog.newest]
    generalize l.items ++ [d] = items at hnew hlast hfull ⊢
    cases items with
    | nil => exact hnew
    | cons evicted rest =>
      simp only [head?_cons, tail_cons, Option.map_some, Option.getD_some] at hlast ⊢
      rw [Table.lookup_erase_if, hnew, reverse_cons, find?_append]
      split
      · rename_i e
        symm
        rw [find?_eq_none]
        intro d' hd' e'
        exact hlast d' (mem_reverse.1 hd') (by rw [← e, ← of_decide_eq_true e'])
      · rename_i e
        simp [Ne.symm e]
  · exact hnew

lemma record_items {cap : ℕ} (hmax : l.max = cap) (h : l.items = es.drop (es.length - cap)) :
    (l.record d).items = (es ++ [d]).drop ((es ++ [d]).length - cap) := by
  have hsnoc : l.items ++ [d] = (es ++ [d]).drop (es.length - cap) := by
    rw [h, drop_append_of_le_length (by omega)]
  have hlen : l.items.length = es.length - (es.length - cap) := by rw [h, length_drop]
  rw [DecisionLog.record]
  split
  · rename_i hfull
    rw [hmax, length_append, length_singleton] at hfull
    rw [hsnoc, tail_drop, length_append, length_singleton]
    exact congrArg (drop · (es ++ [d])) (by omega)
  rename_i hfull
  rw [hmax, length_append, length_singleton] at hfull
  rw [hsnoc, length_append, length_singleton]
  exact congrArg (drop · (es ++ [d])) (by omega)

lemma record_max : (l.record d).max = l.max := by
  rw [DecisionLog.record]
  split <;> rfl

/-- What a log that finds its decisions keeps. -/
structure DecisionLog.Kept (cap : ℕ) (es : List (Decision B)) (l : DecisionLog B) : Prop where
  max : l.max = cap
  items : l.items = es.drop (es.length - cap)
  get : ∀ id, l.get id = l.newest id

/-- **The log finds what it retains**: as long as no evicted decision shares its ID with one that stays, it
retains the most recent decisions up to its capacity, and finds the last of them with an ID. -/
theorem decisions_found (max : ℤ) (es : List (Decision B)) (l : DecisionLog B)
    (h : ((decisionLog max).only fun _ l d => EvictsLast l d).Reach es l) (id : GoString) :
    l.items = es.drop (es.length - (if max ≤ 0 then 256 else max.toNat)) ∧
      l.get id = l.items.reverse.find? fun d => d.id = id := by
  have hkept : l.Kept (if max ≤ 0 then 256 else max.toNat) es := by
    refine System.Reach.invariant ?_ ?_ h
    · refine ⟨?_, drop_nil.symm, fun _ => rfl⟩
      show (if max ≤ 0 then 256 else max) = _
      split <;> omega
    · rintro es l d - ⟨-, hd⟩ ⟨hmax, hitems, hget⟩
      exact ⟨record_max.trans hmax, record_items hmax hitems, record_get hget hd⟩
  exact ⟨hkept.items, hkept.get id⟩

/-- A log for two decisions, and three of them. -/
def decision (id : String) : Decision Unit := ⟨str id, ()⟩

theorem decisions_found_two : ∃ l : DecisionLog Unit, l.get (str "b") = some (decision "b") ∧ l.items.length = 2 := by
  obtain ⟨l, hreach⟩ : ∃ l, ((decisionLog 2).only fun _ l d => EvictsLast l d).Reach
      [decision "a", decision "b", decision "c"] l := ⟨_, System.reach_of_allowed (by decide)⟩
  have hfound := decisions_found 2 _ l hreach (str "b")
  refine ⟨l, ?_, by rw [hfound.1]; rfl⟩
  rw [hfound.2, hfound.1]
  decide

/-- A log for one decision is given the same one twice: it retains it, but does not find it. -/
theorem decision_lost : (((newDecisionLog 1).record (decision "a")).record (decision "a")).items = [decision "a"] ∧
    (((newDecisionLog 1).record (decision "a")).record (decision "a")).get (str "a") = none := by
  decide

end BatchWeaver.Adaptive
