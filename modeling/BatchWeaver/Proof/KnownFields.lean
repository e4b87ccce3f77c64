import BatchWeaver.Proof.Settings

/-!
# Recognized fields have an effect

* `spec_told`: the canonical text of an accepted operation shows the setting of every field that is read.
* `known_fields_matter`: a value that stands for no setting is rejected, and values that stand for different
  settings give different digests, for all recognized fields but three. Whatever is written at those
  (`normalize_put`), or in the place of the classes to retry without being a list, is passed over.
* `ignored_fields`: such values.
-/

namespace BatchWeaver.Configuration

open Prover Operation List

variable {E : Env} {lines : List (GoString × GoString)}

/-! ## Sections and loops -/

variable {node : Node} {m : Node} {v : Node} {n : Node} {p : Position} {key : String} {sem : Semantics}
  {ty : FieldType} {sec : Section}

lemma get_isMapping {key r} (h : m.get key = some r) : m.isMapping = true := by
  cases m with
  | mapping entries pos => rfl
  | scalar _ _ _ | sequence _ _ => cases h

lemma asMapping_some {m a} (h : asMapping m = some a) : a = m ∧ m.isMapping = true := by
  cases m with
  | mapping entries pos => exact ⟨(Option.some.inj h).symm, rfl⟩
  | scalar _ _ _ | sequence _ _ => cases h

lemma mapping_typed (h : (mapping E node key).diags = []) (hm : node.get (str key) = some (m, p)) :
    m.isNull = true ∨ m.isMapping = true := by
  rcases field_ok h hm with ⟨hnull, -⟩ | ⟨-, a, ha, -⟩
  · exact .inl hnull
  · exact .inr (asMapping_some ha).2

lemma mapping_some (h : (mapping E node key).diags = []) (hm : node.get (str key) = some (m, p))
    (hmap : m.isMapping = true) : (mapping E node key).val = some (m, m) := by
  rcases field_ok h hm with ⟨hnull, -⟩ | ⟨-, a, ha, hval⟩
  · cases m with
    | mapping entries pos => cases hnull
    | scalar _ _ _ | sequence _ _ => cases hmap
  · rw [mapping, hval, (asMapping_some ha).1]

section

variable {α : Type} {node : Node} {key : String} {known : List GoString} {absent : α} {read : Node → Out α}
  {m : Node}

section

variable (h : (sectionOr E node key known absent read).diags = [])
include h

lemma sectionOr_typed {p} (hm : node.get (str key) = some (m, p)) : m.isNull = true ∨ m.isMapping = true :=
  mapping_typed (bind_accepted h).1 hm

lemma sectionOr_read {p} (hm : node.get (str key) = some (m, p)) (hmap : m.isMapping = true) :
    (read m).diags = [] ∧ (sectionOr E node key known absent read).val = (read m).val := by
  obtain ⟨hmapping, h⟩ := bind_accepted h
  have hval := mapping_some hmapping hm hmap
  rw [hval] at h
  rw [sectionOr, Out.bind_val, hval]
  exact ⟨(bind_accepted h).2, rfl⟩

lemma sectionOr_cases : (sectionOr E node key known absent read).val = absent ∨
      ∃ m, (read m).diags = [] ∧ (sectionOr E node key known absent read).val = (read m).val := by
  obtain ⟨-, h⟩ := bind_accepted h
  rw [sectionOr, Out.bind_val]
  cases hval : (mapping E node key).val with
  | none => exact .inl rfl
  | some r =>
    rw [hval] at h
    exact .inr ⟨r.1, (bind_accepted h).2, rfl⟩

end

lemma checked_ok {dflt params : α} {error : Option GoString} (h : (checked m dflt error params).diags = []) :
    (checked m dflt error params).val = params := by
  cases error with
  | some e => exact absurd h report_diags
  | none => rfl

end

section

variable {α β : Type} {read : β → Out (Option α)}

variable {bs : List β}

lemma collect_ok (h : (collect read bs).diags = []) :
    (∀ b ∈ bs, (read b).diags = [] ∧ ∀ a, (read b).val = some a → a ∈ (collect read bs).val) ∧
      ∀ a ∈ (collect read bs).val, ∃ b ∈ bs, (read b).diags = [] ∧ (read b).val = some a := by
  induction bs with
  | nil => exact ⟨nofun, nofun⟩
  | cons b bs ih =>
    rw [collect] at h
    obtain ⟨hb, h⟩ := bind_accepted h
    obtain ⟨hall, hmem⟩ := ih (bind_accepted h).1
    have hval : (collect read (b :: bs)).val = (read b).val.toList ++ (collect read bs).val := rfl
    rw [hval]
    refine ⟨forall_mem_cons.2 ⟨⟨hb, fun a ha => ?_⟩, fun c hc => ⟨(hall c hc).1, fun a ha => ?_⟩⟩, fun a ha => ?_⟩
    · exact mem_append_left _ (Option.mem_toList.2 ha)
    · exact mem_append_right _ ((hall c hc).2 a ha)
    rcases mem_append.1 ha with ha | ha
    · exact ⟨b, mem_cons_self, hb, Option.mem_toList.1 ha⟩
    · obtain ⟨c, hc, hread⟩ := hmem a ha
      exact ⟨c, mem_cons_of_mem _ hc, hread⟩

/-- A loop whose steps all return something reads the texts of a sequence. -/
lemma collect_mapM {f : β → Option GoString} {g : α → GoString}
    (hread : ∀ b, (read b).diags = [] → ∃ a, (read b).val = some a ∧ f b = some (g a))
    (h : (collect read bs).diags = []) : bs.mapM f = some ((collect read bs).val.map g) := by
  induction bs with
  | nil => rfl
  | cons b bs ih =>
    rw [collect] at h
    obtain ⟨hb, h⟩ := bind_accepted h
    obtain ⟨a, ha, hf⟩ := hread b hb
    have hval : (collect read (b :: bs)).val = a :: (collect read bs).val := by
      rw [collect]
      simp only [Out.bind_val, Out.pure_val, ha]
      rfl
    rw [mapM_cons, hf, ih (bind_accepted h).1, hval]
    rfl

end

/-! ## Sequences -/

lemma elems_notNull {elems} (h : v.elems? = some elems) : v.isNull = false := by
  cases v with
  | sequence elems pos => rfl
  | scalar _ _ _ | mapping _ _ => cases h

lemma dimensions_shows (h : (dimensions E m).diags = []) (hv : m.get (str "dimensions") = some (v, p)) :
    Shows E .dimensions v (joinDimensions (dimensions E m).val) ∧ ∀ d ∈ (dimensions E m).val, Word d := by
  have hread : ∀ e, (dimension E e).diags = [] → ∃ a, (dimension E e).val = some a ∧
      (asString e).filter (fun s => validateDimension E.toLibrary s = none) = some (id a) := by
    intro e he
    unfold dimension at he ⊢
    cases hs : asString e with
    | none =>
      rw [hs] at he
      exact absurd he report_diags
    | some s =>
      rw [hs] at he
      simp only at he ⊢
      cases hvalid : validateDimension E.toLibrary s with
      | some err =>
        rw [hvalid] at he
        exact absurd he report_diags
      | none =>
        refine ⟨s, rfl, Option.filter_some_pos ?_⟩
        exact decide_eq_true hvalid
  unfold dimensions at h ⊢
  rw [hv] at h ⊢
  simp only at h ⊢
  cases helems : v.elems? with
  | none =>
    rw [helems] at h
    exact absurd h report_diags
  | some elems =>
    rw [helems] at h
    have htexts := collect_mapM hread h
    rw [map_id] at htexts
    constructor
    · refine shows_read (x := .names (sortStrings (collect (dimension E) elems).val)) (elems_notNull helems) ?_ rfl
      rw [readSetting, textsOf, helems, Option.bind_some, htexts]
      rfl
    · exact mapM_filter_words (fun s hs => validateDimension_none (of_decide_eq_true hs)) htexts

lemma classifications_shows (h : (classifications E m).diags = [])
    (hv : m.get (str "retryable") = some (v, p)) (hlist : v.isNull = true ∨ v.elems?.isSome = true) :
    Shows E .classes v (joinClassifications (classifications E m).val) := by
  have hread : ∀ e, (classification E e).diags = [] → ∃ a, (classification E e).val = some a ∧
      (asString e).filter (· ∈ namesOf RetryClassification) = some (Enumeration.text a) := by
    intro e he
    unfold classification at he ⊢
    cases hs : asString e with
    | none =>
      rw [hs] at he
      exact absurd he report_diags
    | some s =>
      rw [hs] at he
      simp only at he ⊢
      cases hparse : (parseEnum s : Option RetryClassification) with
      | none =>
        rw [hparse] at he
        exact absurd he report_diags
      | some cls =>
        refine ⟨cls, rfl, ?_⟩
        rw [(parseEnum_some hparse).1]
        exact Option.filter_some_pos (decide_eq_true (parseEnum_mem hparse))
  unfold classifications at h ⊢
  rw [hv] at h ⊢
  simp only at h ⊢
  cases helems : v.elems? with
  | none =>
    rw [helems] at hlist
    exact shows_null (hlist.resolve_right Bool.false_ne_true) rfl rfl
  | some elems =>
    rw [helems] at h
    have htexts := collect_mapM hread h
    refine shows_read (x := .names (sortStrings ((collect (classification E) elems).val.map Enumeration.text)))
      (elems_notNull helems) ?_ rfl
    rw [readSetting, textsOf, helems, Option.bind_some, htexts]
    rfl

/-! ## Tables of fields -/

/-- A field: its name, its type, and the name of the line that shows it. -/
abbrev Row := GoString × FieldType × GoString

/-- The value can be a list: what the reader of the classes to retry does not check. -/
def ListOrNull (field : GoString) (v : Node) : Prop :=
  field = str "retryable" → v.isNull = true ∨ v.elems?.isSome = true

/-- The lines show the fields of a section. -/
def Told (E : Env) (rows : List Row) (m : Node) (lines : List (GoString × GoString)) : Prop :=
  ∀ row ∈ rows, ∀ v p, m.get row.1 = some (v, p) → ListOrNull row.1 v →
    ∃ text, (row.2.2, text) ∈ lines ∧ Shows E row.2.1 v text

lemma told_nil : Told E [] m lines := nofun

variable {rows : List Row} {field : GoString}

lemma Told.cons {key text} (i : ℕ) (hline : lines[i]? = some (key, text))
    (hshows : ∀ v p, m.get field = some (v, p) → ListOrNull field v → Shows E ty v text)
    (rest : Told E rows m lines) : Told E ((field, ty, key) :: rows) m lines :=
  forall_mem_cons.2 ⟨fun v p hv hlist => ⟨text, mem_of_getElem? hline, hshows v p hv hlist⟩, rest⟩

lemma Told.shown {key text} (i : ℕ)
    (hline : lines[i]? = some (key, text)) (hshows : ∀ {v p}, m.get field = some (v, p) → Shows E ty v text)
    (rest : Told E rows m lines) : Told E ((field, ty, key) :: rows) m lines :=
  Told.cons i hline (fun _ _ hv _ => hshows hv) rest

lemma Told.mono {lines lines'} (h : Told E rows m lines) (hsub : lines ⊆ lines') : Told E rows m lines' := by
  intro row hrow v p hv hlist
  obtain ⟨text, hline, hshows⟩ := h row hrow v p hv hlist
  exact ⟨text, hsub hline, hshows⟩

open Told (shown)

/-- The type of a field with the names of an enumeration. -/
def enumType {α : Type} [Enumeration α] (dflt : α) : FieldType := .enum (namesOf α) (some (Enumeration.text dflt))

def compilerRows : List Row := [(str "mode", enumType CompilerMode.transparent, str "compiler.mode")]

def runtimeRows : List Row := [(str "default_scope", enumType PartitionScope.request, str "runtime.default_scope")]

def securityRows : List Row := [(str "cross_scope_batching", .flag false, str "security.cross_scope_batching"),
    (str "raw_key_observability", .flag false, str "security.raw_key_observability")]

def observeRows : List Row := [(str "metrics", .flag false, str "observability.metrics"),
    (str "tracing", .flag false, str "observability.tracing"),
    (str "logging", enumType LoggingLevel.warnings, str "observability.logging")]

def symbolRows (key : GoString) : List Row := [(str "symbol", .symbol, key)]

def resultsRows : List Row := [(str "mode", enumType ResultMode.ordered, str "result_mode"),
    (str "missing", enumType MissingBehavior.contractViolation, str "result_missing"),
    (str "errors", enumType ErrorMode.perItem, str "result_error")]

def partitionRows : List Row := [(str "scope", enumType PartitionScope.request, str "partition_scope"),
    (str "dimensions", .dimensions, str "partition_required")]

def schedulerRows : List Row := [(str "mode", enumType SchedulerMode.immediateWave, str "sched_mode"),
    (str "min_size", .number 1, str "sched_min"),
    (str "max_size", .number 256, str "sched_max"),
    (str "max_weight", .number 4096, str "sched_weight"),
    (str "max_payload", .bytes 4194304, str "sched_payload"),
    (str "max_wait", .duration 0, str "sched_wait"),
    (str "deadline_margin", .duration 0, str "sched_deadline_margin"),
    (str "max_concurrency", .number 1, str "sched_concurrency"),
    (str "queue_items", .number 100000, str "sched_queue_items"),
    (str "queue_bytes", .bytes 67108864, str "sched_queue_bytes"),
    (str "active_partitions", .number 1024, str "sched_active_partitions"),
    (str "waiters_per_key", .number 1024, str "sched_waiters_per_key")]

def dedupRows : List Row := [(str "mode", enumType DeduplicationMode.disabled, str "dedup_mode"),
    (str "inflight", .flag false, str "dedup_inflight"),
    (str "scope_memoization", .flag false, str "dedup_scope_memo"),
    (str "negative_memoization", .flag false, str "dedup_negative_memo"),
    (str "error_memoization", .flag false, str "dedup_error_memo"),
    (str "max_items", .number 0, str "dedup_max_items"),
    (str "max_bytes", .bytes 0, str "dedup_max_bytes"),
    (str "canonicalizer", .symbol, str "dedup_canonicalizer")]

/-- The fields of `retry` that are read. -/
def retryRows : List Row := [(str "enabled", .flag false, str "retry_enabled"),
    (str "maximum_attempts", .number 0, str "retry_max_attempts"),
    (str "initial_backoff", .duration 0, str "retry_initial_backoff"),
    (str "maximum_backoff", .duration 0, str "retry_max_backoff"),
    (str "retryable", .classes, str "retry_classes"),
    (str "respect_retry_after", .flag false, str "retry_respect_after"),
    (str "partial_item_retry", .flag false, str "retry_partial")]

def fallbackRows : List Row := [(str "mode", enumType FallbackMode.scalar, str "fallback_mode"),
    (str "max_scalar_concurrency", .number 0, str "fallback_max_concurrency"),
    (str "on_queue_overflow", .flag false, str "fallback_on_overflow"),
    (str "on_provider_unavailable", .flag false, str "fallback_on_unavailable"),
    (str "on_unsupported_partition", .flag false, str "fallback_on_unsupported_partition")]

/-- The type of `kind`, which must be there and cannot be `unknown`. -/
def kindType : FieldType := .enum ((namesOf Kind).tail) none

/-- A section: its name, the fields that are recognized in it, and those that are read. -/
abbrev Section := GoString × List GoString × List Row

def topSections : List Section :=
  [(str "compiler", compilerFields, compilerRows), (str "runtime", runtimeFields, runtimeRows),
    (str "security", securityFields, securityRows), (str "observability", observeFields, observeRows)]

def opSections : List Section :=
  [(str "scalar", symbolFields, symbolRows (str "scalar")), (str "batch", symbolFields, symbolRows (str "batch")),
    (str "results", resultsFields, resultsRows), (str "partition", partitionFields, partitionRows),
    (str "scheduler", schedulerFields, schedulerRows), (str "deduplication", dedupFields, dedupRows),
    (str "retry", retryFields, retryRows), (str "fallback", fallbackFields, fallbackRows)]

/-- The fields that are recognized and not read. -/
def unreadFields : List (GoString × GoString) :=
  [(str "retry", str "jitter"), (str "retry", str "unknown_outcome"), (str "retry", str "idempotency_key")]

/-- Every recognized field is read or in the list of those that are not. -/
lemma rows_complete (hsec : sec ∈ topSections ++ opSections) (hfield : field ∈ sec.2.1)
    (hread : (sec.1, field) ∉ unreadFields) : ∃ row ∈ sec.2.2, row.1 = field := by
  have hall : (topSections ++ opSections).all (fun sec => sec.2.1.all fun field =>
      (sec.1, field) ∈ unreadFields ∨ field ∈ sec.2.2.map Prod.fst) = true := by decide
  have hor := of_decide_eq_true (all_eq_true.1 (all_eq_true.1 hall sec hsec) field hfield)
  obtain ⟨row, hrow, rfl⟩ := mem_map.1 (hor.resolve_left hread)
  exact ⟨row, hrow, rfl⟩

/-! ## Sections at the top -/

section

variable {node m : Node} {p : Position} {cfg : Config} (hmap : m.isMapping = true)
include hmap

lemma compiler_told (h : (compiler E node).diags = []) (hm : node.get (str "compiler") = some (m, p))
    (hcfg : cfg.compilerMode = (compiler E node).val) : Told E compilerRows m cfg.lines := by
  obtain ⟨hread, hval⟩ := sectionOr_read h hm hmap
  rw [compiler, hval] at hcfg
  exact shown 1 rfl (by rw [hcfg]; exact enumOr_shows hread) told_nil

lemma runtime_told (h : (runtime E node).diags = []) (hm : node.get (str "runtime") = some (m, p))
    (hcfg : cfg.defaultScope = (runtime E node).val) : Told E runtimeRows m cfg.lines := by
  obtain ⟨hread, hval⟩ := sectionOr_read h hm hmap
  rw [runtime, hval] at hcfg
  exact shown 2 rfl (by rw [hcfg]; exact enumOr_shows hread) told_nil

lemma security_told (h : (security E node).diags = []) (hm : node.get (str "security") = some (m, p))
    (hcfg : cfg.security = (security E node).val) : Told E securityRows m cfg.lines := by
  obtain ⟨hread, hval⟩ := sectionOr_read h hm hmap
  rw [security, hval] at hcfg
  obtain ⟨hcross, hread⟩ := bind_accepted hread
  obtain ⟨hraw, -⟩ := bind_accepted hread
  exact shown 3 rfl (by rw [hcfg]; exact boolOr_shows hcross)
    (shown 4 rfl (by rw [hcfg]; exact boolOr_shows hraw) told_nil)

lemma observability_told (h : (observability E node).diags = []) (hm : node.get (str "observability") = some (m, p))
    (hcfg : cfg.observability = (observability E node).val) : Told E observeRows m cfg.lines := by
  obtain ⟨hread, hval⟩ := sectionOr_read h hm hmap
  rw [observability, hval] at hcfg
  simp only [bind_ok] at hread
  obtain ⟨hmetrics, htracing, hlogging, -⟩ := hread
  exact shown 5 rfl (by rw [hcfg]; exact boolOr_shows hmetrics) (shown 6 rfl (by rw [hcfg]; exact boolOr_shows htracing)
    (shown 7 rfl (by rw [hcfg]; exact enumOr_shows hlogging) told_nil))

/-! ## Sections of an operation -/

lemma symbol_shows {key} (h : (symbol E node key).diags = []) (hm : node.get (str key) = some (m, p))
    {v} {q} (hv : m.get (str "symbol") = some (v, q)) : Shows E .symbol v (symbolOrDash (symbol E node key).val) := by
  obtain ⟨hread, hval⟩ := sectionOr_read h hm hmap
  rw [symbol, hval]
  exact symbolField_shows hread hv

omit hmap in
lemma resultContractOf_ok {mode missing errMode} (h : (resultContractOf m mode missing errMode).diags = []) :
    (resultContractOf m mode missing errMode).val.mode = mode ∧
      (resultContractOf m mode missing errMode).val.missing = missing.getD .contractViolation ∧
      (resultContractOf m mode missing errMode).val.errorMode = errMode := by
  cases mode with
  | sparse =>
    unfold resultContractOf at h ⊢
    simp only at h ⊢
    split at h
    · exact absurd h report_diags
    rename_i hne
    rw [if_neg hne]
    exact ⟨rfl, rfl, rfl⟩
  | keyed | ordered => exact ⟨rfl, rfl, rfl⟩

lemma results_told (h : (resultContract E node).diags = []) (hm : node.get (str "results") = some (m, p)) :
    Told E resultsRows m (resultContract E node).val.lines := by
  obtain ⟨hread, hval⟩ := sectionOr_read h hm hmap
  rw [resultContract, hval]
  simp only [bind_ok] at hread
  obtain ⟨hmode, hmissing, herrors, hread⟩ := hread
  obtain ⟨hm1, hm2, hm3⟩ := resultContractOf_ok hread
  exact shown 0 rfl (by simp only [Out.bind_val, hm1]; exact enumOr_shows hmode)
    (shown 1 rfl (by simp only [Out.bind_val, hm2]; exact enumField_shows .contractViolation hmissing)
    (shown 2 rfl (by simp only [Out.bind_val, hm3]; exact enumOr_shows herrors) told_nil))

lemma partition_told (h : (partitionContract E node).diags = []) (hm : node.get (str "partition") = some (m, p)) :
    Told E partitionRows m (partitionContract E node).val.lines := by
  obtain ⟨hread, hval⟩ := sectionOr_read h hm hmap
  rw [partitionContract, hval]
  obtain ⟨hscope, hread⟩ := bind_accepted hread
  obtain ⟨hdims, -⟩ := bind_accepted hread
  exact shown 0 rfl (enumOr_shows hscope) (shown 1 rfl (fun hv => (dimensions_shows hdims hv).1) told_nil)

lemma scheduler_told (h : (schedulerPolicy E node).diags = []) (hm : node.get (str "scheduler") = some (m, p)) :
    Told E schedulerRows m ((schedulerPolicy E node).val.lines E.toLibrary) := by
  obtain ⟨hread, hval⟩ := sectionOr_read h hm hmap
  rw [schedulerPolicy, hval]
  simp only [bind_ok] at hread
  obtain ⟨hmode, hmin, hmax, hweight, hconcurrency, hitems, hpartitions, hwaiters, hpayload, hbytes, hwait, hmargin, hread⟩ := hread
  simp only [Out.bind_val, checked_ok hread]
  exact shown 0 rfl (enumOr_shows hmode) (shown 1 rfl (intOr_shows hmin) (shown 2 rfl (intOr_shows hmax)
    (shown 3 rfl (intOr_shows hweight)
    (shown 4 rfl (byteSizeOr_shows hpayload)
    (shown 5 rfl (durationOr_shows hwait)
    (shown 6 rfl (durationOr_shows hmargin)
    (shown 7 rfl (intOr_shows hconcurrency)
    (shown 8 rfl (intOr_shows hitems)
    (shown 9 rfl (byteSizeOr_shows hbytes)
    (shown 10 rfl (intOr_shows hpartitions)
    (shown 11 rfl (intOr_shows hwaiters) told_nil)))))))))))

lemma dedup_told (h : (deduplicationPolicy E node).diags = []) (hm : node.get (str "deduplication") = some (m, p)) :
    Told E dedupRows m (deduplicationPolicy E node).val.lines := by
  obtain ⟨hread, hval⟩ := sectionOr_read h hm hmap
  rw [deduplicationPolicy, hval]
  simp only [bind_ok] at hread
  obtain ⟨hmode, hinflight, hscope, hnegative, herror, hitems, hbytes, hsymbol, hread⟩ := hread
  simp only [Out.bind_val, checked_ok hread]
  exact shown 0 rfl (enumOr_shows hmode) (shown 1 rfl (boolOr_shows hinflight) (shown 2 rfl (boolOr_shows hscope)
    (shown 3 rfl (boolOr_shows hnegative)
    (shown 4 rfl (boolOr_shows herror)
    (shown 5 rfl (intOr_shows hitems)
    (shown 6 rfl (byteSizeOr_shows hbytes)
    (shown 7 rfl (symbolField_shows hsymbol) told_nil)))))))

lemma retry_told (h : (retryPolicy E node).diags = []) (hm : node.get (str "retry") = some (m, p)) :
    Told E retryRows m ((retryPolicy E node).val.lines E.toLibrary) := by
  obtain ⟨hread, hval⟩ := sectionOr_read h hm hmap
  rw [retryPolicy, hval]
  simp only [bind_ok] at hread
  obtain ⟨henabled, hattempts, hinitial, hmaximum, hafter, hitem, hclasses, hread⟩ := hread
  simp only [Out.bind_val, checked_ok hread]
  exact shown 0 rfl (boolOr_shows henabled) (shown 1 rfl (intOr_shows hattempts)
    (shown 2 rfl (durationOr_shows hinitial)
    (shown 3 rfl (durationOr_shows hmaximum)
    (Told.cons 5 rfl (fun v p hv hlist => classifications_shows hclasses hv (hlist rfl))
    (shown 6 rfl (boolOr_shows hafter)
    (shown 7 rfl (boolOr_shows hitem) told_nil))))))

lemma fallback_told (h : (fallbackPolicy E node).diags = []) (hm : node.get (str "fallback") = some (m, p)) :
    Told E fallbackRows m (fallbackPolicy E node).val.lines := by
  obtain ⟨hread, hval⟩ := sectionOr_read h hm hmap
  rw [fallbackPolicy, hval]
  simp only [bind_ok] at hread
  obtain ⟨hmode, hconcurrency, hoverflow, hunavailable, hunsupported, hread⟩ := hread
  simp only [Out.bind_val, checked_ok hread]
  exact shown 0 rfl (enumOr_shows hmode) (shown 1 rfl (intOr_shows hconcurrency) (shown 2 rfl (boolOr_shows hoverflow)
    (shown 3 rfl (boolOr_shows hunavailable)
    (shown 4 rfl (boolOr_shows hunsupported) told_nil))))

end

/-! ## Operations -/

lemma semanticsOf_kind {kind} (h : semanticsOf kind = some sem) : sem.kind = kind ∧ kind ≠ .unknown := by
  cases kind with
  | unknown => cases h
  | _ =>
    cases h
    exact ⟨rfl, by decide⟩

lemma semantics_ok (h : (semantics E node).diags = []) : ∃ sem, (semantics E node).val = some sem ∧
      ∀ v p, node.get (str "kind") = some (v, p) → Shows E kindType v (Enumeration.text sem.kind) := by
  rw [semantics] at h ⊢
  obtain ⟨hfield, h⟩ := bind_accepted h
  rw [Out.bind_val]
  cases hval : (strField E node "kind").val with
  | none =>
    rw [hval] at h
    exact absurd h report_diags
  | some r =>
    rw [hval] at h
    simp only at h ⊢
    cases hkind : (parseEnum r.1 : Option Kind) with
    | none =>
      rw [hkind] at h
      exact absurd h report_diags
    | some kind =>
      rw [hkind] at h
      simp only at h ⊢
      cases hsem : semanticsOf kind with
      | none =>
        rw [hsem] at h
        exact absurd h report_diags
      | some sem =>
        refine ⟨sem, rfl, fun v p hv => ?_⟩
        obtain ⟨rfl, hne⟩ := semanticsOf_kind hsem
        rcases field_ok hfield hv with ⟨-, hnone⟩ | ⟨hnull, s, hs, hsome⟩
        · rw [strField, hnone] at hval
          cases hval
        rw [strField, hsome] at hval
        injection hval with hval
        rw [← hval] at hkind
        have htext : Enumeration.text sem.kind = s := (parseEnum_some hkind).1
        have hmem : decide (s ∈ (namesOf Kind).tail) = true := by
          rw [← htext]
          revert hne
          cases sem.kind <;> decide
        refine shows_read (x := .name s) hnull ?_ htext.symm
        show ((asString v).filter (· ∈ (namesOf Kind).tail)).map Setting.name = _
        rw [hs, Option.filter_some_pos (p := fun x => decide (x ∈ (namesOf Kind).tail)) hmem]
        rfl

/-- The sections of an operation add no diagnostic. -/
structure SpecOK (E : Env) (node : Node) : Prop where
  scalar : (symbol E node "scalar").diags = []
  batch : (symbol E node "batch").diags = []
  results : (resultContract E node).diags = []
  partition : (partitionContract E node).diags = []
  scheduler : (schedulerPolicy E node).diags = []
  dedup : (deduplicationPolicy E node).diags = []
  retry : (retryPolicy E node).diags = []
  fallback : (fallbackPolicy E node).diags = []
  extensions : (extensions E node "extensions").diags = []

lemma specOf_ok {idText idPos} (h : (specOf E idText idPos node sem).diags = []) : SpecOK E node := by
  rw [specOf] at h
  simp only [bind_ok] at h
  obtain ⟨hscalar, hbatch, hresults, hpartition, hscheduler, hdedup, hretry, hfallback, hexts, -⟩ := h
  exact ⟨hscalar, hbatch, hresults, hpartition, hscheduler, hdedup, hretry, hfallback, hexts⟩

/-- The parts of the lines of a spec are among them. -/
lemma fixedLines_parts (L : Library) (s : Spec) :
    s.headLines ⊆ s.fixedLines L ∧ s.resultContract.lines ⊆ s.fixedLines L ∧
      s.partitionContract.lines ⊆ s.fixedLines L ∧ s.schedulerPolicy.lines L ⊆ s.fixedLines L ∧
      s.deduplicationPolicy.lines ⊆ s.fixedLines L ∧ s.retryPolicy.lines L ⊆ s.fixedLines L ∧
      s.fallbackPolicy.lines ⊆ s.fixedLines L := by
  unfold Spec.fixedLines
  refine ⟨?_, ?_, ?_, ?_, ?_, ?_, ?_⟩ <;> intro kv hkv <;> simp only [mem_append, hkv, true_or, or_true]

/-- **The text of an operation shows its fields.** -/
theorem spec_told (idText : GoString) (idPos : Position) (sem : Semantics) (h : SpecOK E node) :
    ∀ sec ∈ opSections, ∀ m p, node.get sec.1 = some (m, p) → m.isMapping = true →
      Told E sec.2.2 m ((specOf E idText idPos node sem).val.fixedLines E.toLibrary) := by
  obtain ⟨hhead, hresults, hpartition, hscheduler, hdedup, hretry, hfallback⟩ :=
    fixedLines_parts E.toLibrary (specOf E idText idPos node sem).val
  simp only [opSections, forall_mem_cons]
  refine ⟨?_, ?_, ?_, ?_, ?_, ?_, ?_, ?_, nofun⟩ <;> intro m p hm hmap
  · exact (shown 9 rfl (symbol_shows hmap h.scalar hm) told_nil).mono hhead
  · exact (shown 10 rfl (symbol_shows hmap h.batch hm) told_nil).mono hhead
  · exact (results_told hmap h.results hm).mono hresults
  · exact (partition_told hmap h.partition hm).mono hpartition
  · exact (scheduler_told hmap h.scheduler hm).mono hscheduler
  · exact (dedup_told hmap h.dedup hm).mono hdedup
  · exact (retry_told hmap h.retry hm).mono hretry
  · exact (fallback_told hmap h.fallback hm).mono hfallback

/-- An entry of `operations` that is accepted with these semantics. -/
structure OpOK (E : Env) (e : Entry) (sem : Semantics) : Prop where
  id : idError E.toLibrary e.1 = none
  kind : ∀ v p, e.2.2.get (str "kind") = some (v, p) → Shows E kindType v (Enumeration.text sem.kind)
  spec : SpecOK E e.2.2

lemma operation_ok {e} (h : (operation E e).diags = []) :
    ∃ sem, OpOK E e sem ∧ (operation E e).val = some (specOf E e.1 e.2.1 e.2.2 sem).val := by
  unfold operation at h ⊢
  cases hid : idError E.toLibrary e.1 with
  | some err =>
    rw [hid] at h
    exact absurd h report_diags
  | none =>
    rw [hid] at h
    simp only at h ⊢
    split at h
    · exact absurd h report_diags
    rename_i hmap
    rw [if_neg hmap]
    obtain ⟨-, h⟩ := bind_accepted h
    obtain ⟨hsem, h⟩ := bind_accepted h
    obtain ⟨sem, hval, hkind⟩ := semantics_ok hsem
    rw [hval] at h
    obtain ⟨hspec, hvalid⟩ := bind_accepted h
    refine ⟨sem, ⟨hid, hkind, specOf_ok hspec⟩, ?_⟩
    have hnone : ((specOf E e.1 e.2.1 e.2.2 sem).val.validate E.toLibrary) = [] := hvalid
    simp only [Out.bind_val, hval, reportAll, hnone, if_true]

lemma addSpec_all {L} {specs : List Spec} {b : List Spec × List Diagnostic}
    (h : (specs.foldl (addSpec L) b).2 = []) : (specs.foldl (addSpec L) b).1 = b.1 ++ specs ∧ b.2 = [] := by
  induction specs generalizing b with
  | nil => exact ⟨(append_nil _).symm, h⟩
  | cons s specs ih =>
    obtain ⟨hspecs, hdiags⟩ := ih h
    rw [foldl_cons, hspecs]
    unfold addSpec at hdiags ⊢
    cases hfind : b.1.find? (fun t => t.id = s.id) with
    | some prev =>
      rw [hfind] at hdiags
      exact absurd hdiags (append_ne_nil_of_right_ne_nil _ (cons_ne_nil _ _))
    | none =>
      rw [hfind] at hdiags
      exact ⟨by simp only [append_assoc, singleton_append], hdiags⟩

lemma operations_cases (h : (operations E node).diags = []) : ((operations E node).val.map Spec.id).Nodup ∧
      (∀ m p, node.get (str "operations") = some (m, p) → m.isNull = true ∨ m.isMapping = true) ∧
      (∀ m p, node.get (str "operations") = some (m, p) → m.isMapping = true → ∀ e ∈ m.entries, ∃ sem,
        OpOK E e sem ∧ (specOf E e.1 e.2.1 e.2.2 sem).val ∈ (operations E node).val) ∧
      ∀ s ∈ (operations E node).val, ∃ e sem, OpOK E e sem ∧ s = (specOf E e.1 e.2.1 e.2.2 sem).val := by
  have hmapping : (mapping E node "operations").diags = [] := by
    rw [operations] at h
    exact (bind_accepted h).1
  refine ⟨?_, fun m p hm => mapping_typed hmapping hm, fun m p hm hmap => ?_, ?_⟩
  · rw [operations, Out.bind_val]
    cases (mapping E node "operations").val with
    | none => exact nodup_nil
    | some r => exact nodup_ids _
  · have hval := mapping_some hmapping hm hmap
    rw [operations] at h ⊢
    obtain ⟨-, h⟩ := bind_accepted h
    rw [Out.bind_val, hval]
    rw [hval] at h
    obtain ⟨hcollect, h⟩ := bind_accepted h
    obtain ⟨hspecs, -⟩ := addSpec_all (append_eq_nil_iff.1 h).1
    intro e he
    obtain ⟨hop, hmem⟩ := (collect_ok hcollect).1 e he
    obtain ⟨sem, hok, hspec⟩ := operation_ok hop
    refine ⟨sem, hok, (mem_insertionSort _).2 ?_⟩
    rw [hspecs]
    exact hmem _ hspec
  rw [operations] at h ⊢
  obtain ⟨-, h⟩ := bind_accepted h
  rw [Out.bind_val]
  cases hval : (mapping E node "operations").val with
  | none => exact fun s hs => absurd hs not_mem_nil
  | some r =>
    rw [hval] at h
    obtain ⟨hcollect, h⟩ := bind_accepted h
    obtain ⟨hspecs, -⟩ := addSpec_all (append_eq_nil_iff.1 h).1
    intro s hs
    have hs' := (mem_insertionSort _).1 hs
    rw [hspecs] at hs'
    obtain ⟨e, -, hop, hspec⟩ := (collect_ok hcollect).2 s hs'
    obtain ⟨sem, hok, hval'⟩ := operation_ok hop
    rw [hspec] at hval'
    exact ⟨e, sem, hok, Option.some.inj hval'⟩

/-! ## Texts of accepted configurations are single lines -/

lemma symbolField_line {what} (h : (symbolField E what m key).diags = []) :
    10 ∉ symbolOrDash (symbolField E what m key).val := by
  rw [symbolField] at h ⊢
  obtain ⟨-, h⟩ := bind_accepted h
  rw [Out.bind_val]
  cases hval : (strField E m key).val with
  | none => exact (by decide : 10 ∉ symbolOrDash {})
  | some r =>
    rw [hval] at h
    simp only at h ⊢
    cases hsym : parseSymbol E.toLibrary r.1 with
    | error e =>
      rw [hsym] at h
      exact absurd h report_diags
    | ok sym =>
      obtain ⟨htext, hline, -⟩ := parseSymbol_ok hsym
      simp only [Out.pure_val, htext]
      exact hline

lemma symbol_line (h : (symbol E node key).diags = []) : 10 ∉ symbolOrDash (symbol E node key).val := by
  rcases sectionOr_cases h with hval | ⟨m, hread, hval⟩
  · rw [symbol, hval]
    decide
  · rw [symbol, hval]
    exact symbolField_line hread

lemma required_line (h : (partitionContract E node).diags = []) :
    (∀ d ∈ (partitionContract E node).val.required, 10 ∉ d) ∧ (partitionContract E node).val.optional = [] := by
  rcases sectionOr_cases h with hval | ⟨m, hread, hval⟩
  · rw [partitionContract, hval]
    exact ⟨nofun, rfl⟩
  rw [partitionContract, hval]
  obtain ⟨-, hread⟩ := bind_accepted hread
  obtain ⟨hdims, -⟩ := bind_accepted hread
  refine ⟨fun d hd => ?_, rfl⟩
  cases hget : m.get (str "dimensions") with
  | none =>
    have hnil : (dimensions E m).val = [] := by
      rw [dimensions, hget]
      rfl
    exact absurd (show d ∈ (dimensions E m).val from hd) (by rw [hnil]; exact not_mem_nil)
  | some r => exact ((dimensions_shows hdims hget).2 d hd).2

lemma canonicalizer_line (h : (deduplicationPolicy E node).diags = []) :
    10 ∉ symbolOrDash (deduplicationPolicy E node).val.canonicalizer := by
  rcases sectionOr_cases h with hval | ⟨m, hread, hval⟩
  · rw [deduplicationPolicy, hval]
    decide
  rw [deduplicationPolicy, hval]
  simp only [bind_ok] at hread
  obtain ⟨-, -, -, -, -, -, -, hsymbol, hread⟩ := hread
  simp only [Out.bind_val, checked_ok hread]
  exact symbolField_line hsymbol

lemma idempotencyKey_zero (h : (retryPolicy E node).diags = []) : (retryPolicy E node).val.idempotencyKey = {} := by
  rcases sectionOr_cases h with hval | ⟨m, hread, hval⟩
  · rw [retryPolicy, hval]
  rw [retryPolicy, hval]
  simp only [bind_ok] at hread
  obtain ⟨-, -, -, -, -, -, -, hread⟩ := hread
  simp only [Out.bind_val, checked_ok hread]

lemma extensions_line (h : (extensions E node key).diags = []) :
    ∀ e ∈ (extensions E node key).val, 10 ∉ e.namespaceName := by
  rw [extensions] at h ⊢
  obtain ⟨-, h⟩ := bind_accepted h
  rw [Out.bind_val]
  cases hval : (mapping E node key).val with
  | none => exact nofun
  | some r =>
    rw [hval] at h
    obtain ⟨hcollect, -⟩ := bind_accepted h
    intro e he
    obtain ⟨entry, -, hread, hsome⟩ := (collect_ok hcollect).2 e ((mem_insertionSort _).1 he)
    unfold extension at hread hsome
    cases hvalid : Extension.validate E.toLibrary ⟨entry.1, encodeNodeJSON E entry.2.2⟩ with
    | some err =>
      simp only [hvalid] at hread
      exact absurd hread report_diags
    | none =>
      simp only [hvalid] at hsome
      cases hsome
      exact extension_line hvalid

lemma spec_tidy {e} (h : OpOK E e sem) : (specOf E e.1 e.2.1 e.2.2 sem).val.Tidy where
  id := idError_none h.id
  scalar := symbol_line h.spec.scalar
  batch := symbol_line h.spec.batch
  key := (by decide : 10 ∉ symbolOrDash {})
  required := (required_line h.spec.partition).1
  optional := by
    intro d hd
    have hnil : d ∈ (partitionContract E e.2.2).val.optional := hd
    rw [(required_line h.spec.partition).2] at hnil
    cases hnil
  canonicalizer := canonicalizer_line h.spec.dedup
  idempotencyKey := by
    have hzero : (specOf E e.1 e.2.1 e.2.2 sem).val.retryPolicy.idempotencyKey = {} :=
      idempotencyKey_zero h.spec.retry
    rw [hzero]
    decide
  extensions := extensions_line h.spec.extensions

/-! ## Accepted configurations -/

/-- A configuration without errors. -/
def Accepted (E : Env) (n : Node) : Prop := (normalize E (some n)).diags = []

/-- The parts of an accepted configuration. -/
structure Parts (E : Env) (n : Node) : Prop where
  compiler : (compiler E n).diags = []
  runtime : (runtime E n).diags = []
  security : (security E n).diags = []
  observability : (observability E n).diags = []
  extensions : (extensions E n "extensions").diags = []
  operations : (operations E n).diags = []
  val : (normalize E (some n)).val = ⟨(version E n).val, (Configuration.compiler E n).val,
    (Configuration.runtime E n).val, (Configuration.security E n).val, (Configuration.observability E n).val,
    (Configuration.operations E n).val, (Configuration.extensions E n "extensions").val⟩

lemma accepted_parts (h : Accepted E n) : Parts E n := by
  unfold Accepted at h
  have hmap : ¬n.isMapping = false := by
    intro hmap
    rw [normalize, if_pos hmap] at h
    exact absurd h report_diags
  have hval := congrArg Out.val (show normalize E (some n) = _ by rw [normalize, if_neg hmap])
  rw [normalize, if_neg hmap] at h
  simp only [bind_ok] at h
  obtain ⟨-, -, hcompiler, hruntime, hsecurity, hobservability, hexts, hoperations, -⟩ := h
  exact ⟨hcompiler, hruntime, hsecurity, hobservability, hexts, hoperations, hval⟩

lemma config_tidy (h : Accepted E n) : (normalize E (some n)).val.Tidy := by
  have hparts := accepted_parts h
  rw [hparts.val]
  refine ⟨extensions_line hparts.extensions, fun s hs => ?_⟩
  obtain ⟨-, -, -, hfrom⟩ := operations_cases hparts.operations
  obtain ⟨e, sem, hok, rfl⟩ := hfrom s hs
  exact spec_tidy hok

/-- The settings at the top show their fields. -/
lemma top_told (h : Accepted E n) : ∀ sec ∈ topSections, ∀ m p, n.get sec.1 = some (m, p) →
    m.isMapping = true → Told E sec.2.2 m (normalize E (some n)).val.lines := by
  have hparts := accepted_parts h
  rw [hparts.val]
  simp only [topSections, forall_mem_cons]
  exact ⟨fun m p hm hmap => compiler_told hmap hparts.compiler hm rfl,
    fun m p hm hmap => runtime_told hmap hparts.runtime hm rfl,
    fun m p hm hmap => security_told hmap hparts.security hm rfl,
    fun m p hm hmap => observability_told hmap hparts.observability hm rfl,
    nofun⟩

/-! ## Leaves -/

/-- The node at the end of a path of keys. -/
def Node.find : List GoString → Node → Option Node
  | [], n => some n
  | key :: path, n => (n.get key).bind fun r => r.1.find path

/-- A field with a value of its own: of a section at the top, the kind of an operation, or of one of its sections. -/
inductive Leaf where
  | top (sec field : GoString)
  | kind (name : GoString)
  | op (name sec field : GoString)

def Leaf.path : Leaf → List GoString
  | .top sec field => [sec, field]
  | .kind name => [str "operations", name, str "kind"]
  | .op name sec field => [str "operations", name, sec, field]

/-- The name of the field is in the list for its section. -/
def Leaf.Known : Leaf → Prop
  | .top sec field => ∃ s ∈ topSections, s.1 = sec ∧ field ∈ s.2.1
  | .kind _ => True
  | .op _ sec field => ∃ s ∈ opSections, s.1 = sec ∧ field ∈ s.2.1

/-- One of the three fields of `retry` that are not read. -/
def Leaf.Unread : Leaf → Prop
  | .op _ sec field => (sec, field) ∈ unreadFields
  | _ => False

/-- The classes to retry are a sequence or null. -/
def Leaf.Listed : Leaf → Node → Prop
  | .op _ _ field, v => ListOrNull field v
  | _, _ => True

def typeIn (sections : List Section) (sec field : GoString) : Option FieldType :=
  (sections.find? fun s => s.1 = sec).bind fun s => (s.2.2.find? fun row => row.1 = field).map fun row => row.2.1

def Leaf.type : Leaf → Option FieldType
  | .top sec field => typeIn topSections sec field
  | .kind _ => some kindType
  | .op _ sec field => typeIn opSections sec field

/-- The row of a field in a list of sections. -/
structure RowOf (sections : List Section) (sec : Section) (row : Row) : Prop where
  mem : sec ∈ sections
  mem_rows : row ∈ sec.2.2
  type : typeIn sections sec.1 row.1 = some row.2.1

lemma find_nodup {α : Type} {key : α → GoString} {l : List α} (hnodup : (l.map key).Nodup) {a} (ha : a ∈ l) :
    l.find? (fun b => key b = key a) = some a := by
  cases hfind : l.find? (fun b => key b = key a) with
  | none => exact absurd (decide_eq_true rfl) (find?_eq_none.1 hfind a ha)
  | some b =>
    have hkey : key b = key a := of_decide_eq_true (by simpa using find?_some hfind)
    rw [inj_on_of_nodup_map hnodup (mem_of_find?_eq_some hfind) ha hkey]

lemma rowOf_known {sections : List Section} (hsub : sections ⊆ topSections ++ opSections)
    (hnodup : (sections.map Prod.fst).Nodup) (hrows : ∀ s ∈ sections, (s.2.2.map Prod.fst).Nodup) {sec}
    (h : ∃ s ∈ sections, s.1 = sec ∧ field ∈ s.2.1) (hread : (sec, field) ∉ unreadFields) :
    ∃ s row, RowOf sections s row ∧ s.1 = sec ∧ row.1 = field := by
  obtain ⟨s, hs, rfl, hfield⟩ := h
  obtain ⟨row, hrow, rfl⟩ := rows_complete (hsub hs) hfield hread
  refine ⟨s, row, ⟨hs, hrow, ?_⟩, rfl, rfl⟩
  rw [typeIn, find_nodup hnodup hs, Option.bind_some, find_nodup (hrows s hs) hrow]
  rfl

lemma value_unique {l : List (GoString × GoString)} (hnodup : (l.map Prod.fst).Nodup) {k a b}
    (ha : (k, a) ∈ l) (hb : (k, b) ∈ l) : a = b :=
  congrArg Prod.snd (inj_on_of_nodup_map hnodup ha hb rfl)

lemma setting_eq {v v' text} (h : Shows E ty v text) (h' : Shows E ty v' text) : setting E ty v = setting E ty v' := by
  obtain ⟨x, hx, htext⟩ := h
  obtain ⟨y, hy, htext'⟩ := h'
  rw [hx, hy, text_inj (setting_ofType hx) (setting_ofType hy) (htext.trans htext'.symm)]

lemma shows_isSome {text} (h : Shows E ty v text) : (setting E ty v).isSome = true := by
  obtain ⟨x, hx, -⟩ := h
  rw [hx]
  rfl

/-- The sections of a path that must be mappings. -/
def SectionPath : List GoString → Prop
  | [sec] => sec ∈ [str "compiler", str "runtime", str "security", str "observability", str "operations",
      str "extensions"]
  | [ops, _, sec] => ops = str "operations" ∧ sec ∈ [str "scalar", str "batch", str "results", str "partition",
      str "scheduler", str "deduplication", str "retry", str "fallback", str "extensions"]
  | _ => False

variable {path : List GoString}

lemma find_cons {key} {n v : Node} (h : n.find (key :: path) = some v) :
    ∃ m p, n.get key = some (m, p) ∧ m.find path = some v := by
  obtain ⟨r, hr, hv⟩ := Option.bind_eq_some_iff.1 h
  exact ⟨r.1, r.2, hr, hv⟩

lemma find_single {key} {n v : Node} (h : n.find [key] = some v) : ∃ p, n.get key = some (v, p) := by
  obtain ⟨m, p, hm, hv⟩ := find_cons h
  injection hv with hv
  exact ⟨p, hv ▸ hm⟩

lemma get_entry {key} (h : m.get key = some (v, p)) : (key, p, v) ∈ m.entries := by
  obtain ⟨e, he, hpair⟩ := Option.map_eq_some_iff.1 h
  have hkey : e.1 = key := of_decide_eq_true (by simpa using find?_some he)
  have hmem := mem_of_find?_eq_some he
  injection hpair with hv hp
  rwa [← hkey, ← hv, ← hp]

/-- The operation that a path goes through. -/
lemma find_operation (h : Accepted E n) {id} (hv : n.find (str "operations" :: id :: path) = some v) :
    ∃ node p sem, OpOK E (id, p, node) sem ∧ node.find path = some v ∧
      (specOf E id p node sem).val ∈ (normalize E (some n)).val.catalog := by
  have hparts := accepted_parts h
  obtain ⟨m, q, hm, hv⟩ := find_cons hv
  obtain ⟨node, p, hnode, hv⟩ := find_cons hv
  obtain ⟨-, -, hentries, -⟩ := operations_cases hparts.operations
  obtain ⟨sem, hok, hmem⟩ := hentries m q hm (get_isMapping hnode) _ (get_entry hnode)
  refine ⟨node, p, sem, hok, hv, ?_⟩
  rw [hparts.val]
  exact hmem

lemma extensions_typed (h : (extensions E n "extensions").diags = [])
    (hm : n.get (str "extensions") = some (m, p)) : m.isNull = true ∨ m.isMapping = true := by
  rw [extensions] at h
  exact mapping_typed (bind_accepted h).1 hm

/-- Wrongly typed sections are rejected. -/
lemma sections_typed (h : Accepted E n) (hpath : SectionPath path)
    (hv : n.find path = some v) : v.isNull = true ∨ v.isMapping = true := by
  match path, hpath with
  | [sec], hpath =>
    have hparts := accepted_parts h
    obtain ⟨p, hget⟩ := find_single hv
    simp only [SectionPath, mem_cons, not_mem_nil, or_false] at hpath
    rcases hpath with rfl | rfl | rfl | rfl | rfl | rfl
    · exact sectionOr_typed hparts.compiler hget
    · exact sectionOr_typed hparts.runtime hget
    · exact sectionOr_typed hparts.security hget
    · exact sectionOr_typed hparts.observability hget
    · exact (operations_cases hparts.operations).2.1 v p hget
    · exact extensions_typed hparts.extensions hget
  | [ops, name, sec], hpath =>
    obtain ⟨rfl, hsec⟩ := hpath
    obtain ⟨node, p, sem, hok, hv, -⟩ := find_operation h hv
    obtain ⟨q, hget⟩ := find_single hv
    simp only [mem_cons, not_mem_nil, or_false] at hsec
    rcases hsec with rfl | rfl | rfl | rfl | rfl | rfl | rfl | rfl | rfl
    · exact sectionOr_typed hok.spec.scalar hget
    · exact sectionOr_typed hok.spec.batch hget
    · exact sectionOr_typed hok.spec.results hget
    · exact sectionOr_typed hok.spec.partition hget
    · exact sectionOr_typed hok.spec.scheduler hget
    · exact sectionOr_typed hok.spec.dedup hget
    · exact sectionOr_typed hok.spec.retry hget
    · exact sectionOr_typed hok.spec.fallback hget
    · exact extensions_typed hok.spec.extensions hget

/-! ## Fields that are passed over -/

/-- The first entry with a key gets another value. -/
def putEntry (key : GoString) (f : Node → Node) : List Entry → List Entry
  | [] => []
  | e :: es => if e.1 = key then (e.1, e.2.1, f e.2.2) :: es else e :: putEntry key f es

/-- The value at the end of a path of keys is replaced. -/
def Node.put : List GoString → Node → Node → Node
  | [], _, w => w
  | key :: path, .mapping entries pos, w => .mapping (putEntry key (fun n => Node.put path n w) entries) pos
  | _ :: _, n, _ => n

section Put

variable {w : Node} {k k' : GoString}

lemma find_putEntry (f : Node → Node) (k key : GoString) (es : List Entry) :
    (putEntry k f es).find? (fun e => e.1 = key) = if key = k then
      (es.find? fun e => e.1 = k).map fun e => (e.1, e.2.1, f e.2.2) else es.find? fun e => e.1 = key := by
  induction es with
  | nil => simp [putEntry]
  | cons e es ih =>
    unfold putEntry
    by_cases he : e.1 = k <;> by_cases hk : key = k <;> by_cases hek : e.1 = key <;> simp_all

lemma get_put (n : Node) (k key : GoString) (path : List GoString) (w : Node) : (n.put (k :: path) w).get key =
    if key = k then (n.get k).map fun r => (r.1.put path w, r.2) else n.get key := by
  cases n with
  | mapping entries pos =>
    show ((putEntry k (fun n => n.put path w) entries).find? fun e => e.1 = key).map (fun e => (e.2.2, e.2.1)) = _
    rw [find_putEntry]
    split
    · show _ = ((entries.find? fun e => e.1 = k).map fun e => (e.2.2, e.2.1)).map _
      rw [Option.map_map, Option.map_map]
      rfl
    · rfl
  | scalar _ _ _ | sequence _ _ => exact (ite_self _).symm

lemma get_put_ne {key} (h : key ≠ k) : (n.put (k :: path) w).get key = n.get key := by rw [get_put, if_neg h]

lemma unknown_put (known : List GoString) :
    checkUnknownFields E (n.put (k :: path) w) known = checkUnknownFields E n known := by
  cases n with
  | mapping entries pos =>
    unfold checkUnknownFields Node.put Node.entries
    dsimp only
    congr 1
    induction entries with
    | nil => rfl
    | cons e es ih =>
      unfold putEntry
      by_cases he : e.1 = k <;> by_cases hk : e.1 ∈ known <;> simp_all
  | scalar _ _ _ | sequence _ _ => rfl

lemma pos_put : (n.put (k :: path) w).pos = n.pos := by cases n <;> rfl

lemma isMapping_put : (n.put (k :: path) w).isMapping = n.isMapping := by cases n <;> rfl

lemma field_congr {α : Type} {as : Node → Option α} {what} {m' : Node} (h : m'.get (str key) = m.get (str key)) :
    Configuration.field E as what m' key = Configuration.field E as what m key := by
  unfold Configuration.field
  rw [h]

lemma sectionOr_other {α : Type} {known} {absent : α} {read} (h : str key ≠ k) :
    sectionOr E (node.put (k :: path) w) key known absent read = sectionOr E node key known absent read := by
  unfold sectionOr mapping
  rw [field_congr (get_put_ne h)]

/-- A section with a value replaced in it. -/
lemma sectionOr_put {α : Type} {known} {absent : α} {read}
    (h : ∀ m p, node.get (str key) = some (m, p) → read (m.put (k' :: path) w) = read m) :
    sectionOr E (node.put (str key :: k' :: path) w) key known absent read = sectionOr E node key known absent read := by
  unfold sectionOr mapping Configuration.field
  rw [get_put, if_pos rfl]
  cases hm : node.get (str key) with
  | none => rfl
  | some r =>
    obtain ⟨m, p⟩ := r
    cases hcase : m with
    | mapping entries pos =>
      have hread := h m p hm
      rw [hcase] at hread
      have hunknown : checkUnknownFields E ((Node.mapping entries pos).put (k' :: path) w) known =
        checkUnknownFields E (.mapping entries pos) known := unknown_put known
      show (checkUnknownFields E ((Node.mapping entries pos).put (k' :: path) w) known >>= fun _ =>
        read ((Node.mapping entries pos).put (k' :: path) w) : Out α) = _
      rw [hread, hunknown]
      rfl
    | scalar _ _ _ | sequence _ _ => rfl

/-- The value of a field of `retry` is passed over, and so is another one in its place: the field is not read, or both
are no lists of classes to retry. -/
def Skipped (field : GoString) (m w : Node) : Prop :=
  (str "retry", field) ∈ unreadFields ∨
    field = str "retryable" ∧ w.elems? = none ∧ ∀ v p, m.get field = some (v, p) → v.elems? = none

lemma Skipped.cases (h : Skipped field m w) : field = str "jitter" ∨ field = str "unknown_outcome" ∨
    field = str "idempotency_key" ∨ field = str "retryable" := by
  rcases h with h | ⟨h, -⟩
  · simp only [unreadFields, mem_cons, Prod.mk.injEq, true_and, not_mem_nil, or_false] at h
    tauto
  · tauto

/-- A value that is no list is passed over. -/
lemma classifications_passed (h : ∀ v p, m.get (str "retryable") = some (v, p) → v.elems? = none) :
    classifications E m = pure [] := by
  unfold classifications
  split
  · rfl
  · rename_i seq p hseq
    rw [h seq p hseq]

lemma classifications_put (h : Skipped field m w) : classifications E (m.put [field] w) = classifications E m := by
  by_cases hf : field = str "retryable"
  · rcases h with h | ⟨-, hw, hv⟩
    · rw [hf] at h
      exact absurd h (by decide)
    rw [hf] at hv ⊢
    rw [classifications_passed hv, classifications_passed]
    intro v p hget
    rw [get_put, if_pos rfl] at hget
    obtain ⟨r, -, hr⟩ := Option.map_eq_some_iff.1 hget
    rw [← (Prod.mk.inj hr).1]
    exact hw
  · unfold classifications
    rw [get_put_ne (Ne.symm hf)]

lemma retryPolicy_put (h : ∀ m p, node.get (str "retry") = some (m, p) → Skipped field m w) :
    retryPolicy E (node.put [str "retry", field] w) = retryPolicy E node := by
  unfold retryPolicy
  refine sectionOr_put fun m p hm => ?_
  have hskip := h m p hm
  -- the fields that are read
  have hread : ∀ {α : Type} (as : Node → Option α) (what key : String), str key ∈ [str "enabled",
      str "maximum_attempts", str "initial_backoff", str "maximum_backoff", str "respect_retry_after",
      str "partial_item_retry"] → Configuration.field E as what (m.put [field] w) key =
        Configuration.field E as what m key := by
    intro α as what key hkey
    refine field_congr (get_put_ne ?_)
    rintro rfl
    rcases hskip.cases with hf | hf | hf | hf <;> rw [hf] at hkey <;> exact absurd hkey (by decide)
  simp only [boolOr, boolField, intOr, durationOr, parsedField, strField, hread _ _ "enabled" (by decide),
    hread _ _ "maximum_attempts" (by decide), hread _ _ "initial_backoff" (by decide),
    hread _ _ "maximum_backoff" (by decide), hread _ _ "respect_retry_after" (by decide),
    hread _ _ "partial_item_retry" (by decide), classifications_put hskip, checked, pos_put]

lemma operation_put (e : Entry) (h : ∀ m p, e.2.2.get (str "retry") = some (m, p) → Skipped field m w) :
    operation E (e.1, e.2.1, e.2.2.put [str "retry", field] w) = operation E e := by
  obtain ⟨id, p, node⟩ := e
  have hspec : ∀ sem, specOf E id p (node.put [str "retry", field] w) sem = specOf E id p node sem := by
    intro sem
    unfold specOf symbol resultContract partitionContract schedulerPolicy deduplicationPolicy fallbackPolicy
      extensions mapping
    simp only [sectionOr_other (show str "scalar" ≠ str "retry" by decide),
      sectionOr_other (show str "batch" ≠ str "retry" by decide),
      sectionOr_other (show str "results" ≠ str "retry" by decide),
      sectionOr_other (show str "partition" ≠ str "retry" by decide),
      sectionOr_other (show str "scheduler" ≠ str "retry" by decide),
      sectionOr_other (show str "deduplication" ≠ str "retry" by decide),
      sectionOr_other (show str "fallback" ≠ str "retry" by decide), retryPolicy_put h,
      field_congr (get_put_ne (show str "extensions" ≠ str "retry" by decide))]
  have hkind : semantics E (node.put [str "retry", field] w) = semantics E node := by
    unfold semantics strField
    rw [field_congr (get_put_ne (show str "kind" ≠ str "retry" by decide)), pos_put]
  unfold operation
  simp only [isMapping_put, pos_put, unknown_put, hkind, hspec]

lemma collect_putEntry {α : Type} {read : Entry → Out (Option α)} {f : Node → Node} {es : List Entry}
    (h : ∀ e, es.find? (fun e => e.1 = k) = some e → read (e.1, e.2.1, f e.2.2) = read e) :
    collect read (putEntry k f es) = collect read es := by
  induction es with
  | nil => rfl
  | cons e es ih =>
    unfold putEntry
    by_cases he : e.1 = k
    · rw [if_pos he, collect, collect, h e (by simp [he])]
    · rw [if_neg he, collect, collect, ih fun x hx => h x (by rw [find?_cons_of_neg (by simpa using he)]; exact hx)]

lemma operations_put {id} (h : ∀ m, n.find [str "operations", id, str "retry"] = some m → Skipped field m w) :
    operations E (n.put [str "operations", id, str "retry", field] w) = operations E n := by
  unfold operations mapping Configuration.field
  rw [get_put, if_pos rfl]
  cases hm : n.get (str "operations") with
  | none => rfl
  | some r =>
    obtain ⟨m, p⟩ := r
    cases hcase : m with
    | mapping entries pos =>
      have hcollect : collect (operation E) (putEntry id (fun n => n.put [str "retry", field] w) entries) =
          collect (operation E) entries := by
        refine collect_putEntry fun e he => operation_put e fun r q hr => h r ?_
        rw [hcase] at hm
        unfold Node.find
        rw [hm, Option.bind_some, Node.find, Node.get, Node.entries, he, Option.map_some, Option.bind_some, Node.find, hr]
        rfl
      show (collect (operation E) (putEntry id (fun n => n.put [str "retry", field] w) entries) >>= fun specs =>
        let b := specs.foldl (addSpec E.toLibrary) ([], [])
        reportAll (b.2 ++ b.1.flatMap fun s => s.validate E.toLibrary) (catalogList b.1)) = _
      rw [hcollect]
      rfl
    | scalar _ _ _ | sequence _ _ => rfl

/-- **A value that is passed over changes nothing**: neither the settings nor the diagnostics. -/
theorem normalize_put {id} (h : ∀ m, n.find [str "operations", id, str "retry"] = some m → Skipped field m w) :
    normalize E (some (n.put [str "operations", id, str "retry", field] w)) = normalize E (some n) := by
  have hversion : version E (n.put [str "operations", id, str "retry", field] w) = version E n := by
    unfold version
    rw [get_put_ne (by decide), pos_put]
  unfold normalize compiler runtime security observability extensions mapping
  simp only [isMapping_put, pos_put, unknown_put, hversion, operations_put h,
    sectionOr_other (show str "compiler" ≠ str "operations" by decide),
    sectionOr_other (show str "runtime" ≠ str "operations" by decide),
    sectionOr_other (show str "security" ≠ str "operations" by decide),
    sectionOr_other (show str "observability" ≠ str "operations" by decide),
    field_congr (get_put_ne (show str "extensions" ≠ str "operations" by decide))]

end Put

lemma find_append (n : Node) (path path' : List GoString) :
    n.find (path ++ path') = (n.find path).bind fun m => m.find path' := by
  induction path generalizing n with
  | nil => rfl
  | cons key path ih =>
    rw [cons_append, Node.find, Node.find, Option.bind_assoc]
    exact congrArg _ (funext fun r => ih r.1)

lemma not_listOrNull {field v} (h : ¬ListOrNull field v) : field = str "retryable" ∧ v.elems? = none := by
  unfold ListOrNull at h
  push Not at h
  exact ⟨h.1, by simpa using h.2.2⟩

/-- Only `retry` has a field of the name. -/
lemma retryable_section {sec : GoString} (h : ∃ s ∈ opSections, s.1 = sec ∧ str "retryable" ∈ s.2.1) : sec = str "retry" := by
  obtain ⟨s, hs, rfl, hfield⟩ := h
  have hall : opSections.all (fun s => str "retryable" ∉ s.2.1 ∨ s.1 = str "retry") = true := by decide
  exact (of_decide_eq_true (all_eq_true.1 hall s hs)).resolve_left (not_not.2 hfield)

/-- **Ignored values**: whatever is written there, the configuration is read as before. -/
theorem ignored_put {leaf : Leaf} (hknown : leaf.Known) {v w} (hv : n.find leaf.path = some v)
    (h : leaf.Unread ∨ ¬leaf.Listed v ∧ ¬leaf.Listed w) :
    normalize E (some (n.put leaf.path w)) = normalize E (some n) := by
  cases leaf with
  | top _ _ | kind _ =>
    rcases h with h | ⟨h, -⟩
    · cases h
    · exact absurd trivial h
  | op id sec field =>
    have hsec : sec = str "retry" ∧ ∀ m, n.find [str "operations", id, str "retry"] = some m → Skipped field m w := by
      rcases h with h | ⟨h, hw⟩
      · have hsec : sec = str "retry" := by
          have h' : (sec, field) ∈ unreadFields := h
          simp only [unreadFields, mem_cons, Prod.mk.injEq, not_mem_nil, or_false] at h'
          tauto
        exact ⟨hsec, fun m _ => .inl (hsec ▸ h)⟩
      · obtain ⟨hf, hv'⟩ := not_listOrNull h
        obtain rfl : sec = str "retry" := retryable_section (hf ▸ hknown)
        refine ⟨rfl, fun m hm => .inr ⟨hf, (not_listOrNull hw).2, fun x p hx => ?_⟩⟩
        have hfind : n.find [str "operations", id, str "retry", field] = some x := by
          rw [show [str "operations", id, str "retry", field] = [str "operations", id, str "retry"] ++ [field] from rfl,
            find_append, hm, Option.bind_some, Node.find, hx]
          rfl
        rw [show (Leaf.op id (str "retry") field).path = [str "operations", id, str "retry", field] from rfl, hfind] at hv
        cases hv
        exact hv'
    obtain ⟨rfl, hskip⟩ := hsec
    exact normalize_put hskip

/-! ## Leaves and the digest -/

/-- A line of a configuration: at the top, or of the operation with an identifier. -/
def LineOf (E : Env) (cfg : Config) (id : Option GoString) (kv : GoString × GoString) : Prop :=
  match id with
  | none => kv ∈ cfg.lines
  | some id => ∃ s ∈ cfg.catalog, s.id = id ∧ kv ∈ s.fixedLines E.toLibrary

lemma top_leaf (h : Accepted E n) {row : Row} (hrow : RowOf topSections sec row)
    (hv : n.find [sec.1, row.1] = some v) (hlist : ListOrNull row.1 v) :
    ∃ text, LineOf E (normalize E (some n)).val none (row.2.2, text) ∧ Shows E row.2.1 v text := by
  obtain ⟨m, p, hm, hv⟩ := find_cons hv
  obtain ⟨q, hget⟩ := find_single hv
  exact top_told h sec hrow.mem m p hm (get_isMapping hget) row hrow.mem_rows v q hget hlist

lemma op_leaf (h : Accepted E n) {id} {row : Row} (hrow : RowOf opSections sec row)
    (hv : n.find [str "operations", id, sec.1, row.1] = some v) (hlist : ListOrNull row.1 v) :
    ∃ text, LineOf E (normalize E (some n)).val (some id) (row.2.2, text) ∧ Shows E row.2.1 v text := by
  obtain ⟨node, p, sem, hok, hv, hmem⟩ := find_operation h hv
  obtain ⟨m, q, hm, hv⟩ := find_cons hv
  obtain ⟨r, hget⟩ := find_single hv
  obtain ⟨text, hline, hshows⟩ :=
    spec_told id p sem hok.spec sec hrow.mem m q hm (get_isMapping hget) row hrow.mem_rows v r hget hlist
  exact ⟨text, ⟨_, hmem, rfl, hline⟩, hshows⟩

lemma kind_leaf (h : Accepted E n) {id} (hv : n.find [str "operations", id, str "kind"] = some v) :
    ∃ text, LineOf E (normalize E (some n)).val (some id) (str "kind", text) ∧ Shows E kindType v text := by
  obtain ⟨node, p, sem, hok, hv, hmem⟩ := find_operation h hv
  obtain ⟨r, hget⟩ := find_single hv
  exact ⟨_, ⟨_, hmem, rfl, mem_of_getElem? (i := 0) rfl⟩, hok.kind v r hget⟩

/-- **Configurations with the same digest have the same lines.** -/
theorem line_unique (H : Sha256) {n n' : Node} (h : Accepted E n) (h' : Accepted E n')
    (hdigest : digest E H (normalize E (some n)).val = digest E H (normalize E (some n')).val) {id : Option GoString}
    {key text text' : GoString} (hline : LineOf E (normalize E (some n)).val id (key, text))
    (hline' : LineOf E (normalize E (some n')).val id (key, text')) : text = text' := by
  obtain ⟨htop, hops⟩ := digest_determines H (config_tidy h) (config_tidy h') hdigest
  cases id with
  | none =>
    have hnodup : ((normalize E (some n')).val.lines.map Prod.fst).Nodup := by
      rw [config_lines_keys _ {}]
      decide
    rw [LineOf, htop] at hline
    exact value_unique hnodup hline hline'
  | some id =>
    obtain ⟨s, hs, hid, hline⟩ := hline
    obtain ⟨s', hs', hid', hline'⟩ := hline'
    -- the operation at the same place of the other catalog
    have hmem : told E s ∈ (normalize E (some n')).val.catalog.map (told E) := hops ▸ mem_map_of_mem hs
    obtain ⟨t, ht, htold⟩ := mem_map.1 hmem
    have htid : t.id = s'.id := (congrArg Prod.fst htold).trans (hid.trans hid'.symm)
    have hnodup : ((normalize E (some n')).val.catalog.map Spec.id).Nodup := by
      rw [(accepted_parts h').val]
      exact (operations_cases (accepted_parts h').operations).1
    have heq : t = s' := inj_on_of_nodup_map hnodup ht hs' htid
    have hlines : s'.fixedLines E.toLibrary = s.fixedLines E.toLibrary := heq ▸ congrArg Prod.snd htold
    rw [hlines] at hline'
    exact value_unique (fixedLines_keys E.toLibrary s ▸ nodup_fixedKeys) hline hline'

lemma rows_nodup : ∀ s ∈ topSections ++ opSections, (s.2.2.map Prod.fst).Nodup := by
  intro s hs
  have hall : (topSections ++ opSections).all (fun s => (s.2.2.map Prod.fst).Nodup) = true := by decide
  exact of_decide_eq_true (all_eq_true.1 hall s hs)

/-- The place of a field in the canonical text. -/
lemma leaf_shown {leaf : Leaf} (hknown : leaf.Known) (hread : ¬leaf.Unread) : ∃ ty, leaf.type = some ty ∧
    ∃ id key, ∀ n v, Accepted E n → n.find leaf.path = some v → leaf.Listed v →
      ∃ text, LineOf E (normalize E (some n)).val id (key, text) ∧ Shows E ty v text := by
  cases leaf with
  | top sec field =>
    have hnot : (sec, field) ∉ unreadFields := by
      obtain ⟨s, hs, rfl, -⟩ := hknown
      have hall : topSections.all (fun s => s.1 ≠ str "retry") = true := by decide
      have hne := of_decide_eq_true (all_eq_true.1 hall s hs)
      simp [unreadFields, hne]
    obtain ⟨s, row, hrow, rfl, rfl⟩ := rowOf_known (subset_append_left _ _) (by decide)
      (fun s hs => rows_nodup s (mem_append_left _ hs)) hknown hnot
    have hplain : ∀ w, ListOrNull row.1 w := by
      intro w hretry
      have hall : topSections.all (fun s => s.2.2.all fun row => row.1 ≠ str "retryable") = true := by decide
      exact absurd hretry (of_decide_eq_true (all_eq_true.1 (all_eq_true.1 hall s hrow.mem) row hrow.mem_rows))
    exact ⟨row.2.1, hrow.type, none, row.2.2, fun n v hacc hv _ => top_leaf hacc hrow hv (hplain v)⟩
  | kind name => exact ⟨kindType, rfl, some name, str "kind", fun n v hacc hv _ => kind_leaf hacc hv⟩
  | op name sec field =>
    obtain ⟨s, row, hrow, rfl, rfl⟩ := rowOf_known (subset_append_right _ _) (by decide)
      (fun s hs => rows_nodup s (mem_append_right _ hs)) hknown hread
    exact ⟨row.2.1, hrow.type, some name, row.2.2, fun n v hacc hv hlist => op_leaf hacc hrow hv hlist⟩

/-- A value of a list type stands for a setting only if it is a list or null. -/
lemma listOrNull_of_setting (h : (setting E .classes v).isSome = true) : v.isNull = true ∨ v.elems?.isSome = true := by
  by_cases hnull : v.isNull = true
  · exact .inl hnull
  rw [setting, if_neg hnull, readSetting, textsOf, Option.isSome_map] at h
  cases he : v.elems? with
  | none =>
    rw [he] at h
    cases h
  | some elems => exact .inr rfl

lemma unread_type {leaf : Leaf} (h : leaf.Unread) : leaf.type = none := by
  cases leaf with
  | top _ _ | kind _ => cases h
  | op id sec field =>
    have h' : (sec, field) ∈ unreadFields := h
    have hall : unreadFields.all (fun f => typeIn opSections f.1 f.2 matches none) = true := by decide
    have := all_eq_true.1 hall _ h'
    show typeIn opSections sec field = none
    split at this <;> simp_all

/-- The leaf of the classes to retry has their type. -/
lemma listed_of_setting {leaf : Leaf} (hknown : leaf.Known) {ty} (hty : leaf.type = some ty)
    (h : (setting E ty v).isSome = true) : leaf.Listed v := by
  cases leaf with
  | top _ _ | kind _ => trivial
  | op id sec field =>
    intro hf
    subst hf
    obtain rfl : sec = str "retry" := retryable_section hknown
    obtain rfl : FieldType.classes = ty := Option.some.inj hty
    exact listOrNull_of_setting h

/-- **Recognized fields have an effect.** In an accepted configuration every section is a mapping. For every recognized
field and two accepted configurations, one with the value replaced in particular: the values stand for settings, and for
the same one if the digests are the same, exactly if the field is read and the classes to retry are lists or null. Whatever
else is written at a field that is not read, or in the place of such a list, is accepted and leaves the digest as it is. -/
theorem known_fields_matter (E : Env) (H : Sha256) (n : Node) (hacc : Accepted E n) :
    (∀ path, SectionPath path → ∀ v, n.find path = some v → v.isNull = true ∨ v.isMapping = true) ∧
    ∀ leaf : Leaf, leaf.Known → ∀ v, n.find leaf.path = some v →
      (∀ n' v', Accepted E n' → n'.find leaf.path = some v' →
        ((∃ ty, leaf.type = some ty ∧ (setting E ty v).isSome = true ∧ (setting E ty v').isSome = true ∧
          (digest E H (normalize E (some n)).val = digest E H (normalize E (some n')).val →
            setting E ty v = setting E ty v')) ↔ ¬leaf.Unread ∧ leaf.Listed v ∧ leaf.Listed v')) ∧
      ∀ w, leaf.Unread ∨ ¬leaf.Listed v ∧ ¬leaf.Listed w → Accepted E (n.put leaf.path w) ∧
        digest E H (normalize E (some (n.put leaf.path w))).val = digest E H (normalize E (some n)).val := by
  refine ⟨fun path hpath v hv => sections_typed hacc hpath hv, fun leaf hknown v hv => ⟨fun n' v' hacc' hv' => ⟨?_, ?_⟩,
    fun w hw => ?_⟩⟩
  · rintro ⟨ty, hty, hset, hset', -⟩
    refine ⟨fun hun => ?_, listed_of_setting hknown hty hset, listed_of_setting hknown hty hset'⟩
    rw [unread_type hun] at hty
    cases hty
  · rintro ⟨hread, hlist, hlist'⟩
    obtain ⟨ty, hty, id, key, htext⟩ := leaf_shown hknown hread
    obtain ⟨text, hline, hshows⟩ := htext n v hacc hv hlist
    obtain ⟨text', hline', hshows'⟩ := htext n' v' hacc' hv' hlist'
    refine ⟨ty, hty, shows_isSome hshows, shows_isSome hshows', fun hdigest => ?_⟩
    exact setting_eq (line_unique H hacc hacc' hdigest hline hline' ▸ hshows) hshows'
  · have hsame : normalize E (some (n.put leaf.path w)) = normalize E (some n) := ignored_put hknown hv hw
    unfold Accepted
    rw [hsame]
    exact ⟨hacc, rfl⟩

/-! ## Examples of both kinds -/

def plainEnv : Env := { Library.plain with closest := fun _ _ => none }

def text (s : String) : Node := .scalar .string (str s) {}

def keyed (entries : List (String × Node)) : Node := .mapping (entries.map fun e => (str e.1, {}, e.2)) {}

/-- A configuration with a mode. -/
def modeConfig (mode : String) : Node :=
  keyed [("version", .scalar .int (str "1") {}), ("compiler", keyed [("mode", text mode)])]

theorem known_fields_matter_mode :
    digest plainEnv Sha256.plain (normalize plainEnv (some (modeConfig "disabled"))).val ≠
      digest plainEnv Sha256.plain (normalize plainEnv (some (modeConfig "transparent"))).val := by
  obtain ⟨-, hleaves⟩ := known_fields_matter plainEnv Sha256.plain (modeConfig "disabled") (by unfold Accepted; decide)
  obtain ⟨hread, -⟩ := hleaves (.top (str "compiler") (str "mode")) ⟨_, mem_cons_self, rfl, by decide⟩
    (text "disabled") rfl
  obtain ⟨ty, hty, -, -, hsame⟩ := (hread (modeConfig "transparent") (text "transparent")
    (by unfold Accepted; decide) rfl).2 ⟨id, trivial, trivial⟩
  intro hdigest
  have heq := hsame hdigest
  injection hty with hty
  rw [← hty] at heq
  exact absurd heq (by decide)

/-- A configuration with one operation and these fields of `retry`. -/
def retryConfig (fields : List (String × Node)) : Node := keyed [("version", .scalar .int (str "1") {}),
    ("operations", keyed [("a.b", keyed [("kind", text "read-only"), ("retry", keyed fields)])])]

/-- **Fields of `retry` that are passed over.** The three fields that are not read take any value, and a text for
the classes to retry leaves them at their default. -/
theorem ignored_fields : [[("jitter", text "full")], [("jitter", .scalar .int (str "42") {})],
    [("unknown_outcome", .scalar .bool (str "true") {})], [("idempotency_key", text "no symbol")],
    [("retryable", text "timeout")]].all (fun fields => (normalize plainEnv (some (retryConfig fields))).diags = [] ∧
        digest plainEnv Sha256.plain (normalize plainEnv (some (retryConfig fields))).val =
          digest plainEnv Sha256.plain (normalize plainEnv (some (retryConfig []))).val) = true := by
  -- one evaluation for each field
  simp only [all_cons, all_nil, Bool.and_eq_true]
  refine ⟨?_, ?_, ?_, ?_, ?_, trivial⟩ <;> decide +kernel

end BatchWeaver.Configuration
