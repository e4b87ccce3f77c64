import BatchWeaver.Spec.Config

/-!
# What the semantic digest determines

The digest is taken over lines. Every value in them is a single line, the lines of an operation begin with its
identifier, and all but the lines of extensions are the same for every operation, so the lines can be read off
the text again.

* `digest_determines`: configurations with the same digest have the same settings at the top, and operations with
  the same identifiers and the same lines in the same order.
* `nodup_ids`: no two operations of a catalog have the same identifier.
-/

namespace BatchWeaver.Operation

open Prover List

/-! ## Lines -/

lemma text_line {α : Type} [Enumeration α] (a : α) : 10 ∉ Enumeration.text a :=
  (Enumeration.text_plain a).1

lemma formatBool_line (b : Bool) : 10 ∉ formatBool b := by cases b <;> decide

lemma join_line {l} (h : ∀ w ∈ l, 10 ∉ w) : 10 ∉ joinStrings (sortStrings l) (str ",") := by
  intro hmem
  rcases Words.mem_intercalate hmem with h10 | ⟨w, hw, h10⟩
  · exact absurd h10 (by decide)
  · exact h w (mem_sortStrings.1 hw) h10

/-- A spec with texts that are single lines. -/
structure Spec.Tidy (s : Spec) : Prop where
  id : 10 ∉ s.id
  scalar : 10 ∉ symbolOrDash s.scalarSymbol
  batch : 10 ∉ symbolOrDash s.batchSymbol
  key : 10 ∉ symbolOrDash s.keyContract.canonicalKeySymbol
  required : ∀ d ∈ s.partitionContract.required, 10 ∉ d
  optional : ∀ d ∈ s.partitionContract.optional, 10 ∉ d
  canonicalizer : 10 ∉ symbolOrDash s.deduplicationPolicy.canonicalizer
  idempotencyKey : 10 ∉ symbolOrDash s.retryPolicy.idempotencyKey
  extensions : ∀ e ∈ s.extensions, 10 ∉ e.namespaceName

variable (L : Library)

/-- The names of the lines that every spec has. -/
def fixedKeys : List GoString :=
  [str "kind", str "effect", str "idempotency", str "ordering", str "atomicity", str "retry_allowed",
    str "dedup_allowed", str "cross_scope_allowed", str "freshness_dependent", str "scalar", str "batch",
    str "key_comparable", str "key_canonicalizer", str "result_mode", str "result_missing", str "result_error",
    str "result_duplicate", str "result_unexpected", str "result_order_significant",
    str "result_unknown_representable", str "partition_scope", str "partition_required", str "partition_optional",
    str "partition_cross_root_scope", str "partition_receiver_policy", str "partition_missing_dimension",
    str "partition_max_active", str "partition_public", str "sched_mode", str "sched_min", str "sched_max",
    str "sched_weight", str "sched_payload", str "sched_wait", str "sched_deadline_margin", str "sched_concurrency",
    str "sched_queue_items", str "sched_queue_bytes", str "sched_active_partitions", str "sched_waiters_per_key",
    str "sched_fairness", str "sched_priority", str "sched_overflow", str "dedup_mode", str "dedup_inflight",
    str "dedup_scope_memo", str "dedup_negative_memo", str "dedup_error_memo", str "dedup_max_items",
    str "dedup_max_bytes", str "dedup_canonicalizer", str "retry_enabled", str "retry_max_attempts",
    str "retry_initial_backoff", str "retry_max_backoff", str "retry_jitter", str "retry_classes",
    str "retry_respect_after", str "retry_partial", str "retry_unknown_outcome", str "retry_idempotency_key",
    str "fallback_mode", str "fallback_max_concurrency", str "fallback_on_overflow", str "fallback_on_unavailable",
    str "fallback_on_unsupported_partition"]

lemma fixedLines_keys (s : Spec) : (s.fixedLines L).map Prod.fst = fixedKeys := rfl

lemma nodup_fixedKeys : fixedKeys.Nodup := by decide

variable {L}

/-- Lines with the same names and the same texts have the same values. -/
lemma map_line_inj {l l' : List (GoString × GoString)} (hkeys : l.map Prod.fst = l'.map Prod.fst)
    (h : l.map line = l'.map line) : l = l' := by
  induction l generalizing l' with
  | nil =>
    cases l' with
    | nil => rfl
    | cons kv l' => cases hkeys
  | cons kv l ih =>
    cases l' with
    | nil => cases hkeys
    | cons kv' l' =>
      obtain ⟨k, v⟩ := kv
      obtain ⟨k', v'⟩ := kv'
      rw [map_cons, map_cons] at hkeys h
      injection hkeys with hk hkeys
      injection h with hline h
      have hkk : k = k' := hk
      subst hkk
      have hv : v = v' := append_cancel_left hline
      rw [hv, ih hkeys h]

lemma fixedLines_line {s : Spec} (h : s.Tidy) : ∀ kv ∈ s.fixedLines L, 10 ∉ line kv := by
  have hkeys : ∀ kv ∈ s.fixedLines L, 10 ∉ kv.1 := by
    intro kv hkv
    have hmem : kv.1 ∈ fixedKeys := fixedLines_keys L s ▸ mem_map_of_mem hkv
    have hall : fixedKeys.all (fun k => 10 ∉ k) = true := by decide
    exact of_decide_eq_true (all_eq_true.1 hall _ hmem)
  have hvalues : ∀ kv ∈ s.fixedLines L, 10 ∉ kv.2 := by
    have hrequired := join_line h.required
    have hoptional := join_line h.optional
    have hclasses : 10 ∉ joinClassifications s.retryPolicy.retryable := by
      refine join_line fun w hw => ?_
      obtain ⟨c, -, rfl⟩ := mem_map.1 hw
      exact text_line c
    simp only [Spec.fixedLines, Spec.headLines, ResultContract.lines, PartitionContract.lines, SchedulerParams.lines,
      DeduplicationParams.lines, RetryParams.lines, FallbackParams.lines, forall_mem_append, forall_mem_cons,
      text_line, formatBool_line, formatInt_line, L.durationString_line, joinDimensions, h.scalar, h.batch, h.key,
      h.canonicalizer, h.idempotencyKey, hrequired, hoptional, hclasses, not_false_eq_true,
      not_mem_nil, false_implies, implies_true, and_true]
  intro kv hkv
  simp only [line, mem_append, not_or]
  exact ⟨⟨hkeys kv hkv, by decide⟩, hvalues kv hkv⟩

lemma extensionLines_line {exts} (h : ∀ e ∈ exts, 10 ∉ e.namespaceName) :
    ∀ kv ∈ extensionLines L exts, 10 ∉ line kv := by
  intro kv hkv
  obtain ⟨e, he, rfl⟩ := mem_map.1 hkv
  have hns := h e ((mem_insertionSort _).1 he)
  simp only [line, mem_append, not_or]
  exact ⟨⟨⟨by decide, hns⟩, by decide⟩, L.base64_line _⟩

/-- The lines of a spec after the first one. -/
def Spec.tailLines (L : Library) (s : Spec) : List GoString :=
  (s.fixedLines L ++ extensionLines L s.extensions).map line

lemma Spec.canonical_eq (s : Spec) :
    s.canonical L = Words.terminate 10 (line (str "id", s.id) :: s.tailLines L) := rfl

lemma tailLines_line {s : Spec} (h : s.Tidy) : ∀ x ∈ s.tailLines L, 10 ∉ x := by
  intro x hx
  obtain ⟨kv, hkv, rfl⟩ := mem_map.1 hx
  rcases mem_append.1 hkv with hkv | hkv
  · exact fixedLines_line h kv hkv
  · exact extensionLines_line h.extensions kv hkv

lemma idLine_line {s : Spec} (h : s.Tidy) : 10 ∉ line (str "id", s.id) := by
  simp only [line, mem_append, not_or]
  exact ⟨⟨by decide, by decide⟩, h.id⟩

lemma tailLines_inj {s s' : Spec} (h : s.tailLines L = s'.tailLines L) : s.fixedLines L = s'.fixedLines L := by
  have hkeys : (s.fixedLines L).map Prod.fst = (s'.fixedLines L).map Prod.fst := rfl
  refine map_line_inj hkeys ?_
  rw [Spec.tailLines, Spec.tailLines, map_append, map_append] at h
  exact (append_inj h rfl).1

/-! ## Catalogs -/

lemma addSpec_nodup {b} (h : (b.1.map Spec.id).Nodup) (spec : Spec) : ((addSpec L b spec).1.map Spec.id).Nodup := by
  unfold addSpec
  split
  · exact h
  rename_i hnone
  rw [map_append, map_cons, map_nil]
  refine nodup_append.2 ⟨h, nodup_singleton _, fun a ha a' ha' => ?_⟩
  rw [mem_singleton.1 ha']
  obtain ⟨s, hs, rfl⟩ := mem_map.1 ha
  have hne := find?_eq_none.1 hnone s hs
  simpa using hne

/-- **No two operations of a catalog have the same identifier.** -/
theorem nodup_ids (specs : List Spec) : ((catalogList (specs.foldl (addSpec L) ([], [])).1).map Spec.id).Nodup := by
  have hfold : ((specs.foldl (addSpec L) ([], [])).1.map Spec.id).Nodup :=
    foldlRecOn (motive := fun b => (b.1.map Spec.id).Nodup) specs (addSpec L) nodup_nil
      fun b hb s _ => addSpec_nodup hb s
  exact ((perm_insertionSort _ _).map Spec.id).nodup_iff.2 hfold

end BatchWeaver.Operation

namespace BatchWeaver.Configuration

open Prover Operation List

variable {E : Env}

/-- A configuration with texts that are single lines. -/
structure Config.Tidy (cfg : Config) : Prop where
  extensions : ∀ e ∈ cfg.extensions, 10 ∉ e.namespaceName
  specs : ∀ s ∈ cfg.catalog, s.Tidy

/-! ## The digest as lines -/

/-- The lines at the top of the text. -/
def topLines (E : Env) (cfg : Config) : List GoString :=
  (cfg.lines ++ extensionLines E.toLibrary cfg.extensions).map line

/-- The first line of a spec with the rest of its lines. -/
def block (E : Env) (s : Spec) : GoString × List GoString := (line (str "id", s.id), s.tailLines E.toLibrary)

/-- The same for a spec after the first one, where the end of the previous spec comes first. -/
def nextBlock (E : Env) (s : Spec) : GoString × List GoString := (0 :: (block E s).1, (block E s).2)

lemma zero_specs (specs : List Spec) : 0 :: specs.flatMap (fun s => s.canonical E.toLibrary ++ [0]) =
      Words.terminate 10 (Words.groups (specs.map (nextBlock E))) ++ [0] := by
  induction specs with
  | nil => rfl
  | cons s specs ih =>
    have hmark : 0 :: s.canonical E.toLibrary = Words.terminate 10 ((nextBlock E s).1 :: (nextBlock E s).2) := rfl
    have hsplit : Words.groups ((s :: specs).map (nextBlock E)) =
        ((nextBlock E s).1 :: (nextBlock E s).2) ++ Words.groups (specs.map (nextBlock E)) := by
      rw [map_cons, Words.groups_cons, cons_append]
    rw [hsplit, Words.terminate_append, append_assoc, ← ih, ← hmark, flatMap_cons]
    simp only [append_assoc, cons_append, nil_append]

variable {cfg : Config} {specs : List Spec}

lemma digestText_cons {s} (h : cfg.catalog = s :: specs) : digestText E cfg =
      Words.terminate 10 (topLines E cfg ++ Words.groups (block E s :: specs.map (nextBlock E))) ++ [0] := by
  have htext : digestText E cfg = Words.terminate 10 (topLines E cfg) ++
      (s.canonical E.toLibrary ++ (0 :: specs.flatMap fun s => s.canonical E.toLibrary ++ [0])) := by
    rw [digestText, h, flatMap_cons, append_assoc]
    rfl
  rw [htext, zero_specs, Spec.canonical_eq, Words.terminate_append, Words.groups_cons, ← cons_append,
    Words.terminate_append]
  simp only [append_assoc]
  rfl

lemma digestText_nil (h : cfg.catalog = []) : digestText E cfg = Words.terminate 10 (topLines E cfg) := by
  rw [digestText, h]
  exact append_nil _

/-! ## Reading the lines back -/

lemma config_lines_keys (cfg cfg' : Config) : cfg.lines.map Prod.fst = cfg'.lines.map Prod.fst := rfl

lemma topLines_line (h : cfg.Tidy) : ∀ x ∈ topLines E cfg, 10 ∉ x := by
  intro x hx
  obtain ⟨kv, hkv, rfl⟩ := mem_map.1 hx
  rcases mem_append.1 hkv with hkv | hkv
  · have hall : ∀ kv ∈ cfg.lines, 10 ∉ kv.1 ∧ 10 ∉ kv.2 := by
      simp only [Config.lines, forall_mem_cons, text_line, formatBool_line, formatInt_line, not_false_eq_true,
        and_true, not_mem_nil, false_implies, implies_true]
      decide
    simp only [line, mem_append, not_or]
    exact ⟨⟨(hall kv hkv).1, by decide⟩, (hall kv hkv).2⟩
  · exact extensionLines_line h.extensions kv hkv

/-- How the first line of a spec begins. -/
def IsHead (x : GoString) : Prop := x.take 3 = str "id=" ∨ x.head? = some 0

lemma not_isHead {k v} (hlen : 3 ≤ k.length) (hk : k.take 3 ≠ str "id=") (h0 : k.head? ≠ some 0) :
    ¬IsHead (line (k, v)) := by
  have htake : (line (k, v)).take 3 = k.take 3 := by
    rw [line, append_assoc, take_append_of_le_length hlen]
  have hhead : (line (k, v)).head? = k.head? := by
    cases k with
    | nil => cases hlen
    | cons c k => rfl
  rintro (h | h)
  · exact hk (htake ▸ h)
  · exact h0 (hhead ▸ h)

lemma ext_not_head {exts} : ∀ kv ∈ extensionLines E.toLibrary exts, ¬IsHead (line kv) := by
  intro kv hkv
  obtain ⟨e, -, rfl⟩ := mem_map.1 hkv
  have hk : (str "ext:" ++ e.namespaceName).take 3 = str "ext" := by
    rw [take_append_of_le_length (by decide)]
    decide
  refine not_isHead ?_ (hk ▸ by decide) ?_
  · rw [length_append]
    exact Nat.le_add_right_of_le (by decide)
  · rw [show str "ext:" = 101 :: str "xt:" by decide, cons_append, head?_cons]
    decide

lemma lines_not_head {lines keys exts} (hkeys : lines.map Prod.fst = keys)
    (hall : keys.all (fun k => 3 ≤ k.length ∧ k.take 3 ≠ str "id=" ∧ k.head? ≠ some 0) = true) :
    ∀ x ∈ (lines ++ extensionLines E.toLibrary exts).map line, ¬IsHead x := by
  intro x hx
  obtain ⟨kv, hkv, rfl⟩ := mem_map.1 hx
  rcases mem_append.1 hkv with hkv | hkv
  · have hmem : kv.1 ∈ keys := hkeys ▸ mem_map_of_mem hkv
    obtain ⟨hlen, hk, h0⟩ := of_decide_eq_true (all_eq_true.1 hall _ hmem)
    exact not_isHead hlen hk h0
  · exact ext_not_head kv hkv

lemma topLines_not_head (cfg : Config) : ∀ x ∈ topLines E cfg, ¬IsHead x :=
  lines_not_head (config_lines_keys cfg {}) (by decide)

lemma tailLines_not_head (s : Spec) : ∀ x ∈ s.tailLines E.toLibrary, ¬IsHead x :=
  lines_not_head (fixedLines_keys E.toLibrary s) (by decide)

lemma blocks_heads (s : Spec) (specs : List Spec) :
    ∀ g ∈ block E s :: specs.map (nextBlock E), IsHead g.1 ∧ ∀ x ∈ g.2, ¬IsHead x := by
  intro g hg
  rcases mem_cons.1 hg with rfl | hg
  · exact ⟨.inl rfl, tailLines_not_head s⟩
  · obtain ⟨t, -, rfl⟩ := mem_map.1 hg
    exact ⟨.inr rfl, tailLines_not_head t⟩

lemma blocks_line {s : Spec} (h : ∀ t ∈ s :: specs, t.Tidy) :
    ∀ x ∈ Words.groups (block E s :: specs.map (nextBlock E)), 10 ∉ x := by
  intro x hx
  obtain ⟨g, hg, hx⟩ := Words.mem_groups.1 hx
  rcases mem_cons.1 hg with rfl | hg
  · rcases hx with rfl | hx
    · exact idLine_line (h s mem_cons_self)
    · exact tailLines_line (h s mem_cons_self) x hx
  obtain ⟨t, ht, rfl⟩ := mem_map.1 hg
  have htidy := h t (mem_cons_of_mem _ ht)
  rcases hx with rfl | hx
  · rw [nextBlock, mem_cons, not_or]
    exact ⟨by decide, idLine_line htidy⟩
  · exact tailLines_line htidy x hx

/-- What the digest tells of an operation. -/
def told (E : Env) (s : Spec) : GoString × List (GoString × GoString) := (s.id, s.fixedLines E.toLibrary)

lemma block_inj {s s' : Spec} (h : block E s = block E s') : told E s = told E s' := by
  have hid : s.id = s'.id := append_cancel_left (congrArg Prod.fst h)
  have htail : s.tailLines E.toLibrary = s'.tailLines E.toLibrary := congrArg Prod.snd h
  rw [told, told, hid, tailLines_inj htail]

lemma nextBlocks_inj {specs' : List Spec} (h : specs.map (nextBlock E) = specs'.map (nextBlock E)) :
    specs.map (told E) = specs'.map (told E) := by
  induction specs generalizing specs' with
  | nil =>
    cases specs' with
    | nil => rfl
    | cons s' specs' => cases h
  | cons s specs ih =>
    cases specs' with
    | nil => cases h
    | cons s' specs' =>
      rw [map_cons, map_cons] at h
      injection h with hs h
      have hblock : block E s = block E s' :=
        Prod.ext (List.cons.inj (congrArg Prod.fst hs)).2 (show (nextBlock E s).2 = (nextBlock E s').2 by rw [hs])
      rw [map_cons, map_cons, block_inj hblock, ih h]

lemma topLines_inj {cfg' : Config} (h : topLines E cfg = topLines E cfg') : cfg.lines = cfg'.lines := by
  refine map_line_inj (config_lines_keys cfg cfg') ?_
  rw [topLines, topLines, map_append, map_append] at h
  exact (append_inj h rfl).1

lemma terminate_getLast {ws} (h : ws ≠ []) : (Words.terminate (10 : UInt8) ws).getLast? = some 10 := by
  obtain ⟨ws', w, rfl⟩ := (eq_nil_or_concat ws).resolve_left h
  rw [concat_eq_append, Words.terminate_append, Words.terminate_cons, Words.terminate_nil, ← append_assoc,
    getLast?_concat]

/-- A text that ends a spec is not the text of settings alone. -/
lemma spec_text_ne {ws vs} (h : ws ≠ []) : Words.terminate (10 : UInt8) ws ≠ Words.terminate 10 vs ++ [0] := by
  intro heq
  have hlast := terminate_getLast h
  rw [heq, getLast?_concat] at hlast
  exact absurd hlast (by decide)

lemma topLines_ne_nil (cfg : Config) : topLines E cfg ≠ [] := cons_ne_nil _ _

/-- **The digest determines the settings**: those at the top and those of every operation. -/
theorem digest_determines (H : Sha256) {cfg cfg' : Config} (htidy : cfg.Tidy) (htidy' : cfg'.Tidy)
    (h : digest E H cfg = digest E H cfg') :
    cfg.lines = cfg'.lines ∧ cfg.catalog.map (told E) = cfg'.catalog.map (told E) := by
  have htext : digestText E cfg = digestText E cfg' := hashBytes_injective H h
  cases hc : cfg.catalog with
  | nil =>
    cases hc' : cfg'.catalog with
    | nil =>
      rw [digestText_nil hc, digestText_nil hc'] at htext
      exact ⟨topLines_inj (Words.terminate_inj (topLines_line htidy) (topLines_line htidy') htext), rfl⟩
    | cons s' specs' =>
      rw [digestText_nil hc, digestText_cons hc'] at htext
      exact absurd htext (spec_text_ne (topLines_ne_nil cfg))
  | cons s specs =>
    cases hc' : cfg'.catalog with
    | nil =>
      rw [digestText_cons hc, digestText_nil hc'] at htext
      exact absurd htext.symm (spec_text_ne (topLines_ne_nil cfg'))
    | cons s' specs' =>
      rw [digestText_cons hc, digestText_cons hc'] at htext
      have hlines := Words.terminate_inj (forall_mem_append.2 ⟨topLines_line htidy, blocks_line (hc ▸ htidy.specs)⟩)
        (forall_mem_append.2 ⟨topLines_line htidy', blocks_line (hc' ▸ htidy'.specs)⟩)
        (append_cancel_right htext)
      have htop := Words.append_cut_inj (topLines_not_head cfg) (topLines_not_head cfg')
        (Words.head?_groups fun g hg => (blocks_heads s specs g hg).1)
        (Words.head?_groups fun g hg => (blocks_heads s' specs' g hg).1) hlines
      rw [htop] at hlines
      have hblocks := Words.groups_inj (blocks_heads s specs) (blocks_heads s' specs') (append_cancel_left hlines)
      injection hblocks with hfirst hrest
      refine ⟨topLines_inj htop, ?_⟩
      rw [map_cons, map_cons, block_inj hfirst, nextBlocks_inj hrest]

end BatchWeaver.Configuration
