import BatchWeaver.Proof.Eligible

/-!
# Missing evidence

The facts of all call sites of a candidate are put into sets before the obligations look at them. A call
site that is not in the snapshot is skipped, and so is an empty fact, so what is missing at one site can
be covered by another one, and an empty set of receivers, effects or sites reads as "nothing varies".

* `worse_of_harmless`: withholding a fact gives a worse context when the fact is carried by another
  site as well or could not have counted against the candidate.
* `holds_iff`: the obligations in terms of what is recorded at the sites.
* `missing_evidence`: a strategy that rests on a missing fact is kept out exactly by what the other sites
  record; so it is if facts are recorded at all sites or at none, or if what is withheld does no harm.
* `deleted_site`: without these conditions, deleting the only site of a candidate makes it eligible.
-/

namespace BatchWeaver.Prover

open List

variable {H : Sha256} {input : Input} {snap : Snapshot} {cand : Candidate}

/-- What may be missing: a call site, or one of its facts. -/
inductive Fact where
  | site
  | key
  | context
  | function
  | receiver
  deriving DecidableEq

/-- The obligations about a fact. -/
def Fact.obligations : Fact → List ObligationID
  | .site => [.targetResolved, .keyIndependent, .contextInvariant, .receiverInvariant, .noObservableBarrier]
  | .key => [.keyIndependent]
  | .context => [.contextInvariant]
  | .function => [.noObservableBarrier]
  | .receiver => [.receiverInvariant]

/-- The call sites of a candidate that are in the snapshot. -/
def foundSites (snap : Snapshot) (cand : Candidate) : List CallSite :=
  cand.callSites.filterMap fun id => (indexBy CallSite.id snap.callSites).lookup id

/-- The fact is missing at some site of the candidate. -/
def Fact.Missing (snap : Snapshot) (cand : Candidate) : Fact → Prop
  | .site => ∃ id ∈ cand.callSites, (indexBy CallSite.id snap.callSites).lookup id = none
  | .key => ∃ s ∈ foundSites snap cand, s.keyDependency = []
  | .context => ∃ s ∈ foundSites snap cand, s.contextArg = []
  | .function => ∃ s ∈ foundSites snap cand, s.enclosingFunctionID = []
  | .receiver => (∃ s ∈ foundSites snap cand, s.receiver = []) ∧ ∃ s ∈ foundSites snap cand, s.receiver ≠ []

/-- The site without the fact. -/
def Fact.withheld (s : CallSite) : Fact → Option CallSite
  | .site => none
  | .key => some { s with keyDependency := [] }
  | .context => some { s with contextArg := [] }
  | .function => some { s with enclosingFunctionID := [] }
  | .receiver => some { s with receiver := [] }

def Fact.edit (f : Fact) (id : GoString) (s : CallSite) : Option CallSite :=
  if s.id = id then f.withheld s else some s

/-- The snapshot without the fact at the site `id`. -/
def Snapshot.withhold (snap : Snapshot) (f : Fact) (id : GoString) : Snapshot :=
  { snap with callSites := snap.callSites.filterMap (f.edit id) }

/-- Every site of the candidate is known with its function, and every other fact is recorded at all of
them or at none. -/
structure Uniform (snap : Snapshot) (cand : Candidate) : Prop where
  sites : ∀ id ∈ cand.callSites, (indexBy CallSite.id snap.callSites).lookup id ≠ none
  functions : ∀ s ∈ foundSites snap cand, s.enclosingFunctionID ≠ []
  keys : (∀ s ∈ foundSites snap cand, s.keyDependency = []) ∨ ∀ s ∈ foundSites snap cand, s.keyDependency ≠ []
  contexts : (∀ s ∈ foundSites snap cand, s.contextArg = []) ∨ ∀ s ∈ foundSites snap cand, s.contextArg ≠ []
  receivers : (∀ s ∈ foundSites snap cand, s.receiver = []) ∨ ∀ s ∈ foundSites snap cand, s.receiver ≠ []

/-- What is withheld at the site `id` is carried by another site of the candidate, or could not have
counted against it. -/
structure Harmless (snap : Snapshot) (cand : Candidate) (f : Fact) (id : GoString) : Prop where
  target : f = .site → ∀ s ∈ foundSites snap cand, s.id = id → s.ambiguous = true →
    ∃ t ∈ foundSites snap cand, t.id ≠ id ∧ t.ambiguous = true
  key : f = .site ∨ f = .key → ∀ s ∈ foundSites snap cand, s.id = id → AdverseKey s.keyDependency →
    ∃ t ∈ foundSites snap cand, t.id ≠ id ∧ t.keyDependency = s.keyDependency
  context : f = .site ∨ f = .context → ∀ s ∈ foundSites snap cand, s.id = id → s.contextArg ≠ [] →
    (∃ t ∈ foundSites snap cand, t.id ≠ id ∧ t.contextArg = s.contextArg) ∨
      ∀ t ∈ foundSites snap cand, t.id ≠ id → t.contextArg = []
  receiver : f = .site ∨ f = .receiver → ∀ s ∈ foundSites snap cand, s.id = id → s.receiver ≠ [] →
    (∃ t ∈ foundSites snap cand, t.id ≠ id ∧ t.receiver = s.receiver) ∨
      s.receiver ≠ str "unknown" ∧ ∀ t ∈ foundSites snap cand, t.id ≠ id → t.receiver = []
  function : f = .site ∨ f = .function → ∀ s ∈ foundSites snap cand, s.id = id → s.enclosingFunctionID ≠ [] →
    (∃ t ∈ foundSites snap cand, t.id ≠ id ∧ t.enclosingFunctionID = s.enclosingFunctionID) ∨
      ∃ e, (indexBy EffectSummary.function snap.effects).lookup s.enclosingFunctionID = some e ∧
        e.complete = true ∧ ∀ x ∈ e.effects, ¬AdverseEffect x

/-! ## Lookups -/

lemma indexBy_append {α : Type} (key : α → GoString) (l : List α) (a : α) :
    indexBy key (l ++ [a]) = (indexBy key l).insert (key a) a := by
  rw [indexBy, foldl_append]
  rfl

lemma indexBy_key {α : Type} {key : α → GoString} {l k a} (h : (indexBy key l).lookup k = some a) : key a = k := by
  induction l using reverseRecOn with
  | nil => exact nomatch h
  | append_singleton l b ih =>
    rw [indexBy_append, Table.lookup_insert_if] at h
    split at h
    · rename_i hk
      rw [← Option.some.inj h, hk]
    · exact ih h

variable {s s' : CallSite}

lemma withheld_id {f : Fact} (h : f.withheld s = some s') : s'.id = s.id := by
  cases f <;> simp only [Fact.withheld, reduceCtorEq, Option.some.injEq] at h <;> rw [← h]

lemma lookup_withhold (f : Fact) (id : GoString) (l : List CallSite) (k : GoString) :
    (indexBy CallSite.id (l.filterMap (f.edit id))).lookup k = ((indexBy CallSite.id l).lookup k).bind (f.edit id) := by
  induction l using reverseRecOn with
  | nil => rfl
  | append_singleton l s ih =>
    rw [filterMap_append, indexBy_append, Table.lookup_insert_if]
    cases hedit : f.edit id s with
    | none =>
      -- only a site with the identifier is deleted, and then every one is
      have hnone : [s].filterMap (f.edit id) = [] := by simp [hedit]
      rw [hnone, append_nil, ih]
      split
      · rename_i hk
        have hid : s.id = id := by
          by_contra hne
          simp [Fact.edit, hne] at hedit
        have hsite : ∀ t : CallSite, t.id = id → f.edit id t = none := by
          intro t ht
          rw [Fact.edit, if_pos hid] at hedit
          rw [Fact.edit, if_pos ht]
          cases f <;> simp only [Fact.withheld, reduceCtorEq] at hedit ⊢
        rw [Option.bind_some, hedit]
        cases hl : (indexBy CallSite.id l).lookup k with
        | none => rfl
        | some t =>
          have ht : t.id = id := (indexBy_key hl).trans (hk.trans hid)
          rw [Option.bind_some, hsite t ht]
      · rfl
    | some s' =>
      have hsome : [s].filterMap (f.edit id) = [s'] := by simp [hedit]
      have hid : s'.id = s.id := by
        rw [Fact.edit] at hedit
        split at hedit
        · exact withheld_id hedit
        · rw [Option.some.inj hedit]
      rw [hsome, indexBy_append, Table.lookup_insert_if, hid, ih]
      split
      · rw [Option.bind_some, hedit]
      · rfl

lemma foundSites_withhold (f : Fact) (id : GoString) :
    foundSites (snap.withhold f id) cand = (foundSites snap cand).filterMap (f.edit id) := by
  rw [foundSites, foundSites, filterMap_filterMap]
  exact filterMap_congr fun k _ => lookup_withhold f id snap.callSites k

/-- Sites of a candidate with one identifier are one site. -/
lemma foundSites_unique {t} (hs : s ∈ foundSites snap cand) (ht : t ∈ foundSites snap cand)
    (h : s.id = t.id) : s = t := by
  obtain ⟨i, -, hi⟩ := mem_filterMap.1 hs
  obtain ⟨j, -, hj⟩ := mem_filterMap.1 ht
  have hij : i = j := (indexBy_key hi).symm.trans (h.trans (indexBy_key hj))
  rw [hij, hj] at hi
  exact (Option.some.inj hi).symm

/-! ## The facts of a context -/

/-- The values of a fact at the found sites. -/
def Carried (g : CallSite → GoString) (sites : List CallSite) (v : GoString) : Prop := v ≠ [] ∧ ∃ s ∈ sites, g s = v

variable {v : GoString}

lemma mem_carried {g : CallSite → GoString} {sites} : v ∈ sortedKeys (present (sites.map g)) ↔ Carried g sites v := by
  simp only [mem_sortedKeys, present, mem_filter, mem_map, decide_eq_true_eq, Carried]
  exact And.comm

lemma length_le_one_iff {l : List GoString} (h : l.Nodup) : l.length ≤ 1 ↔ ∀ a ∈ l, ∀ b ∈ l, a = b := by
  cases l with
  | nil => simp
  | cons x l =>
    cases l with
    | nil => simp
    | cons y l =>
      have hxy : x ≠ y := fun hxy => (nodup_cons.1 h).1 (hxy ▸ mem_cons_self)
      simp only [length_cons]
      constructor
      · intro hlen
        omega
      · intro hall
        exact absurd (hall x mem_cons_self y (mem_cons_of_mem _ mem_cons_self)) hxy

lemma steady_iff : (contextOf input snap cand).Steady ↔ (∀ a b, Carried CallSite.receiver (foundSites snap cand) a →
      Carried CallSite.receiver (foundSites snap cand) b → a = b) ∧
    ¬Carried CallSite.receiver (foundSites snap cand) (str "unknown") := by
  have hlen := length_le_one_iff (l := (contextOf input snap cand).receivers) (nodup_sortedSet _ _)
  have hmem : ∀ v, v ∈ (contextOf input snap cand).receivers ↔
      Carried CallSite.receiver (foundSites snap cand) v := fun v => mem_carried
  rw [CandidateContext.Steady, hlen]
  simp only [hmem]
  exact ⟨fun h => ⟨fun a b ha hb => h.1 a ha b hb, h.2⟩, fun h => ⟨fun a ha b hb => h.1 a b ha hb, h.2⟩⟩

lemma parameterContext_iff : (contextOf input snap cand).ParameterContext ↔ ∃ p, hasPrefix p (str "parameter ") = true ∧
      ∀ a, Carried CallSite.contextArg (foundSites snap cand) a ↔ a = p := by
  have hmem : ∀ v, v ∈ (contextOf input snap cand).contexts ↔
      Carried CallSite.contextArg (foundSites snap cand) v := fun v => mem_carried
  have hnodup : (contextOf input snap cand).contexts.Nodup := nodup_sortedSet _ _
  rw [CandidateContext.ParameterContext, length_eq_one_iff]
  constructor
  · rintro ⟨⟨p, hp⟩, hpre⟩
    rw [hp] at hpre
    refine ⟨p, hpre, fun a => ?_⟩
    rw [← hmem, hp, mem_singleton]
  rintro ⟨p, hpre, hall⟩
  have hp : (contextOf input snap cand).contexts = [p] := by
    rw [← perm_singleton, perm_ext_iff_of_nodup hnodup (nodup_singleton p)]
    intro a
    rw [hmem, hall, mem_singleton]
  exact ⟨⟨p, hp⟩, by rw [hp]; exact hpre⟩

lemma mem_effects {e} : e ∈ (contextOf input snap cand).effects ↔
    ∃ s ∈ foundSites snap cand, s.enclosingFunctionID ≠ [] ∧
      ∃ sm, (indexBy EffectSummary.function snap.effects).lookup s.enclosingFunctionID = some sm ∧ e ∈ sm.effects := by
  have hdef : (contextOf input snap cand).effects =
      (summaries (indexBy EffectSummary.function snap.effects) (foundSites snap cand)).flatMap
        fun e => (e.map EffectSummary.effects).getD [] := rfl
  rw [hdef]
  simp only [summaries, mem_flatMap, mem_map, mem_filter, decide_eq_true_eq]
  constructor
  · rintro ⟨o, ⟨s, ⟨hs, hfn⟩, rfl⟩, he⟩
    cases hl : (indexBy EffectSummary.function snap.effects).lookup s.enclosingFunctionID with
    | none =>
      rw [hl] at he
      cases he
    | some sm =>
      rw [hl] at he
      exact ⟨s, hs, hfn, sm, hl, he⟩
  · rintro ⟨s, hs, hfn, sm, hl, he⟩
    exact ⟨_, ⟨s, ⟨hs, hfn⟩, rfl⟩, by rw [hl]; exact he⟩

lemma effectsComplete_iff : (contextOf input snap cand).effectsComplete = true ↔
    ∀ s ∈ foundSites snap cand, s.enclosingFunctionID ≠ [] →
      ∃ sm, (indexBy EffectSummary.function snap.effects).lookup s.enclosingFunctionID = some sm ∧
        sm.complete = true := by
  have hdef : (contextOf input snap cand).effectsComplete =
      (summaries (indexBy EffectSummary.function snap.effects) (foundSites snap cand)).all
        fun e => (e.map EffectSummary.complete).getD false := rfl
  rw [hdef]
  simp only [summaries, all_eq_true, mem_map, mem_filter, decide_eq_true_eq]
  constructor
  · intro h s hs hfn
    have hc := h _ ⟨s, ⟨hs, hfn⟩, rfl⟩
    cases hl : (indexBy EffectSummary.function snap.effects).lookup s.enclosingFunctionID with
    | none =>
      rw [hl] at hc
      exact absurd hc Bool.false_ne_true
    | some sm =>
      rw [hl] at hc
      exact ⟨sm, rfl, hc⟩
  rintro h o ⟨s, ⟨hs, hfn⟩, rfl⟩
  obtain ⟨sm, hl, hc⟩ := h s hs hfn
  rw [hl]
  exact hc

/-- At most one receiver is recorded, and a known one. -/
def OneReceiver (sites : List CallSite) : Prop :=
  (∀ a b, Carried CallSite.receiver sites a → Carried CallSite.receiver sites b → a = b) ∧
    ¬Carried CallSite.receiver sites (str "unknown")

/-- The summaries of the functions that the sites name. -/
def SummaryOf (snap : Snapshot) (sites : List CallSite) (sm : Option EffectSummary) : Prop :=
  ∃ s ∈ sites, s.enclosingFunctionID ≠ [] ∧
    (indexBy EffectSummary.function snap.effects).lookup s.enclosingFunctionID = sm

/-- What is recorded at some sites meets an obligation: what is not recorded counts for nothing. -/
def Met (input : Input) (snap : Snapshot) (cand : Candidate) (sites : List CallSite) : ObligationID → Prop
  | .targetResolved => ∀ s ∈ sites, s.ambiguous = false
  | .noObservableBarrier => ∀ sm, SummaryOf snap sites sm →
      ∃ e, sm = some e ∧ e.complete = true ∧ ∀ x ∈ e.effects, x ∉ staticBarrierEffects
  | .noDeferBarrier => ∀ e, SummaryOf snap sites (some e) → str "defer" ∉ e.effects
  | .noRecoverBoundary => ∀ e, SummaryOf snap sites (some e) → str "recover" ∉ e.effects
  | .keyIndependent => ¬Carried CallSite.keyDependency sites keyResultDependent ∧
      (Carried CallSite.keyDependency sites keyCallDerived ∧ assumed (newAssumptionSet input.assumptions)
          (str "key:" ++ cand.operation) factSideEffectFreeRead = true ∨
        (¬Carried CallSite.keyDependency sites keyCallDerived ∧ ¬Carried CallSite.keyDependency sites keyUnknown) ∧
          ∃ k, Carried CallSite.keyDependency sites k)
  | .noLoopCarried => cand.state ≠ statePotentialLoop ∨
      ∀ k, Carried CallSite.keyDependency sites k → ¬AdverseKey k
  | .receiverInvariant => OneReceiver sites
  | .contextInvariant => ∃ p, hasPrefix p (str "parameter ") = true ∧
      ∀ a, Carried CallSite.contextArg sites a ↔ a = p
  | .partitionStable => ∃ spec, input.specs.lookup cand.operation = some spec ∧
      ∀ dim ∈ spec.required, dim = str "receiver" ∧ OneReceiver sites
  | o => (contextOf input snap cand).Holds o

/-- The effects that are folded are those of the summaries. -/
lemma quiet_iff {P : GoString → Prop} : ((contextOf input snap cand).effectsComplete = true ∧
    ∀ x ∈ (contextOf input snap cand).effects, P x) ↔ ∀ sm, SummaryOf snap (foundSites snap cand) sm →
      ∃ e, sm = some e ∧ e.complete = true ∧ ∀ x ∈ e.effects, P x := by
  rw [effectsComplete_iff]
  constructor
  · rintro ⟨hc, hx⟩ sm ⟨s, hs, hfn, hl⟩
    obtain ⟨e, he, hcomplete⟩ := hc s hs hfn
    exact ⟨e, hl.symm.trans he, hcomplete, fun x hmem => hx x (mem_effects.2 ⟨s, hs, hfn, e, he, hmem⟩)⟩
  · intro h
    refine ⟨fun s hs hfn => ?_, fun x hx => ?_⟩
    · obtain ⟨e, he, hcomplete, -⟩ := h _ ⟨s, hs, hfn, rfl⟩
      exact ⟨e, he, hcomplete⟩
    · obtain ⟨s, hs, hfn, e, hl, hmem⟩ := mem_effects.1 hx
      obtain ⟨e', he', -, hquiet⟩ := h _ ⟨s, hs, hfn, hl⟩
      rw [Option.some.inj he'] at hmem
      exact hquiet x hmem

/-- **The obligations read what is recorded.** -/
theorem holds_iff (o : ObligationID) : (contextOf input snap cand).Holds o ↔
    Met input snap cand (foundSites snap cand) o := by
  have hkeys : ∀ k, k ∈ (contextOf input snap cand).keyDeps ↔
      Carried CallSite.keyDependency (foundSites snap cand) k := fun k => mem_carried
  have heffect : ∀ x, x ∉ (contextOf input snap cand).effects ↔
      ∀ e, SummaryOf snap (foundSites snap cand) (some e) → x ∉ e.effects := by
    intro x
    rw [mem_effects]
    exact ⟨fun h e ⟨s, hs, hfn, hl⟩ hx => h ⟨s, hs, hfn, e, hl, hx⟩, fun h ⟨s, hs, hfn, e, hl, hx⟩ => h e ⟨s, hs, hfn, hl⟩ hx⟩
  cases o with
  | noObservableBarrier => exact quiet_iff
  | noDeferBarrier => exact heffect _
  | noRecoverBoundary => exact heffect _
  | keyIndependent =>
    have hne : (contextOf input snap cand).keyDeps ≠ [] ↔
        ∃ k, Carried CallSite.keyDependency (foundSites snap cand) k := by
      rw [Ne, eq_nil_iff_forall_not_mem, not_forall]
      simp only [not_not, hkeys]
    unfold CandidateContext.Holds Met
    rw [hne, hkeys, hkeys, hkeys, and_assoc]
    rfl
  | noLoopCarried =>
    unfold CandidateContext.Holds Met AdverseKey
    rw [hkeys, hkeys, hkeys]
    refine or_congr Iff.rfl ⟨?_, fun h => ⟨fun hk => h _ hk (.inl rfl), fun hk => h _ hk (.inr (.inl rfl)),
      fun hk => h _ hk (.inr (.inr rfl))⟩⟩
    rintro ⟨h1, h2, h3⟩ k hk (rfl | rfl | rfl)
    · exact h1 hk
    · exact h2 hk
    · exact h3 hk
  | receiverInvariant => exact steady_iff
  | contextInvariant => exact parameterContext_iff
  | partitionStable =>
    refine exists_congr fun spec => and_congr Iff.rfl (forall_congr' fun dim => forall_congr' fun _ => ?_)
    exact and_congr Iff.rfl steady_iff
  | _ => exact Iff.rfl

/-- A strategy is out: the candidate is beyond the budget, the strategy does not apply to it, or what is recorded at
the sites fails an obligation. -/
def Excluded (input : Input) (snap : Snapshot) (i : ℕ) (cand : Candidate) (sites : List CallSite) (s : StrategyID) : Prop :=
  input.limits.withDefaults.maxCandidates ≤ i ∨ s ∉ applicableStrategies cand.state ∨
    ∃ o ∈ s.required, ¬Met input snap cand sites o

lemma eligible_iff {i : ℕ} {s : StrategyID} : (proofAt H input snap i cand).Eligible s ↔
    ¬Excluded input snap i cand (foundSites snap cand) s := by
  unfold Excluded
  rw [proofAt]
  split
  · rename_i hbudget
    exact ⟨fun h => absurd h (limitedProof_not_eligible _ _ _ s), fun h => absurd (.inl hbudget) h⟩
  rename_i hbudget
  rw [CandidateContext.prove_eligible_iff]
  push Not
  simp only [holds_iff]
  exact ⟨fun h => ⟨not_le.1 hbudget, h.1, h.2⟩, fun h => ⟨h.2.1, h.2.2⟩⟩

lemma met_withhold {f : Fact} {id : GoString} {sites} (o : ObligationID) :
    Met { input with snapshot := some (snap.withhold f id) } (snap.withhold f id) cand sites o ↔
      Met input snap cand sites o := by
  cases o <;> exact Iff.rfl

/-! ## Withholding a fact -/

section

variable {f : Fact} {id : GoString} {sites : List CallSite}

lemma kept_other (hs : s ∈ sites) (hid : s.id ≠ id) : s ∈ sites.filterMap (f.edit id) :=
  mem_filterMap.2 ⟨s, hs, by rw [Fact.edit, if_neg hid]⟩

lemma kept_edited (hs : s ∈ sites) (hid : s.id = id) (h : f.withheld s = some s') : s' ∈ sites.filterMap (f.edit id) :=
  mem_filterMap.2 ⟨s, hs, by rw [Fact.edit, if_pos hid, h]⟩

/-- A site after the edit is an old one, or what is left of the edited one. -/
lemma mem_edited (h : s' ∈ sites.filterMap (f.edit id)) :
    ∃ s ∈ sites, (s.id ≠ id ∧ s' = s) ∨ (s.id = id ∧ f.withheld s = some s') := by
  obtain ⟨s, hs, hedit⟩ := mem_filterMap.1 h
  rw [Fact.edit] at hedit
  split at hedit
  · rename_i hid
    exact ⟨s, hs, .inr ⟨hid, hedit⟩⟩
  · rename_i hid
    exact ⟨s, hs, .inl ⟨hid, (Option.some.inj hedit).symm⟩⟩

/-- How withholding acts on the values of one fact `g`, which the edit `f₀` blanks. -/
structure Blanks (g : CallSite → GoString) (f₀ : Fact) : Prop where
  blank : ∀ s s', f₀.withheld s = some s' → g s' = []
  keep : ∀ f s, f ≠ .site → f ≠ f₀ → ∃ s', f.withheld s = some s' ∧ g s' = g s

lemma blanks : Blanks CallSite.keyDependency .key ∧ Blanks CallSite.contextArg .context ∧
    Blanks CallSite.receiver .receiver ∧ Blanks CallSite.enclosingFunctionID .function := by
  refine ⟨⟨?_, ?_⟩, ⟨?_, ?_⟩, ⟨?_, ?_⟩, ?_, ?_⟩
  all_goals first | (intro s s' h; simp only [Fact.withheld, Option.some.injEq] at h; rw [← h]) | skip
  all_goals
    intro f s hsite hne
    cases f <;> first | exact absurd rfl hsite | exact absurd rfl hne | exact ⟨_, rfl, rfl⟩

variable {g : CallSite → GoString} {f₀ : Fact}

/-- Where a value comes from after the edit. -/
lemma Blanks.source (hg : Blanks g f₀) (h : Carried g (sites.filterMap (f.edit id)) v) :
    ∃ s ∈ sites, g s = v ∧ (s.id ≠ id ∨ f ≠ .site ∧ f ≠ f₀) := by
  obtain ⟨hv, s', hs', hval⟩ := h
  obtain ⟨s, hs, ⟨hid, rfl⟩ | ⟨-, hedit⟩⟩ := mem_edited hs'
  · exact ⟨s', hs, hval, .inl hid⟩
  have hsite : f ≠ .site := by
    rintro rfl
    cases hedit
  have hne : f ≠ f₀ := by
    rintro rfl
    exact hv (hval.symm.trans (hg.blank s s' hedit))
  obtain ⟨s'', hedit', hsame⟩ := hg.keep f s hsite hne
  rw [hedit] at hedit'
  have hss : s' = s'' := Option.some.inj hedit'
  exact ⟨s, hs, by rw [← hsame, ← hss, hval], .inr ⟨hsite, hne⟩⟩

lemma Blanks.subset (hg : Blanks g f₀) (h : Carried g (sites.filterMap (f.edit id)) v) : Carried g sites v := by
  obtain ⟨s, hs, hval, -⟩ := hg.source h
  exact ⟨h.1, s, hs, hval⟩

/-- A value is still carried unless it stood at the edited site and the edit hides it. -/
lemma Blanks.kept (hg : Blanks g f₀) (hs : s ∈ sites)
    (h : s.id = id → f = .site ∨ f = f₀ → ∃ t ∈ sites, t.id ≠ id ∧ g t = g s) :
    ∃ s' ∈ sites.filterMap (f.edit id), g s' = g s := by
  by_cases hid : s.id = id
  · by_cases hhid : f = .site ∨ f = f₀
    · obtain ⟨t, ht, htid, hval⟩ := h hid hhid
      exact ⟨t, kept_other ht htid, hval⟩
    · obtain ⟨s', hedit, hval⟩ := hg.keep f s (fun h => hhid (.inl h)) (fun h => hhid (.inr h))
      exact ⟨s', kept_edited hs hid hedit, hval⟩
  · exact ⟨s, kept_other hs hid, rfl⟩

end

section

variable {f : Fact} {id : GoString}

section

variable (h : Harmless snap cand f id)
include h

lemma harmless_steady
    (hst : (contextOf { input with snapshot := some (snap.withhold f id) } (snap.withhold f id) cand).Steady) :
    (contextOf input snap cand).Steady := by
  rw [steady_iff, foundSites_withhold] at hst
  obtain ⟨hone, hknown⟩ := hst
  -- a value that is gone was the only one, and a known one
  have hgone : ∀ a, Carried CallSite.receiver (foundSites snap cand) a →
      Carried CallSite.receiver ((foundSites snap cand).filterMap (f.edit id)) a ∨
        a ≠ str "unknown" ∧ ∀ b, Carried CallSite.receiver (foundSites snap cand) b → b = a := by
    rintro a ⟨ha, s, hs, rfl⟩
    by_cases hhid : s.id = id ∧ (f = .site ∨ f = .receiver)
    · rcases h.receiver hhid.2 s hs hhid.1 ha with ⟨t, ht, htid, hval⟩ | ⟨hunk, hnone⟩
      · exact .inl ⟨ha, t, kept_other ht htid, hval⟩
      refine .inr ⟨hunk, ?_⟩
      rintro b ⟨hb, t, ht, rfl⟩
      by_cases htid : t.id = id
      · rw [foundSites_unique ht hs (htid.trans hhid.1.symm)]
      · exact absurd (hnone t ht htid) hb
    · obtain ⟨s', hs', hval⟩ := blanks.2.2.1.kept hs fun hid hf => absurd ⟨hid, hf⟩ hhid
      exact .inl ⟨ha, s', hs', hval⟩
  rw [steady_iff]
  refine ⟨fun a b ha hb => ?_, fun hunk => ?_⟩
  · rcases hgone a ha with ha' | ⟨-, hall⟩
    · rcases hgone b hb with hb' | ⟨-, hall⟩
      · exact hone a b ha' hb'
      · exact hall a ha
    · exact (hall b hb).symm
  rcases hgone _ hunk with hunk' | ⟨hne, -⟩
  · exact hknown hunk'
  · exact hne rfl

lemma harmless_context
    (hctx : (contextOf { input with snapshot := some (snap.withhold f id) } (snap.withhold f id) cand).ParameterContext) :
    (contextOf input snap cand).ParameterContext := by
  rw [parameterContext_iff, foundSites_withhold] at hctx
  obtain ⟨p, hpre, hall⟩ := hctx
  have hp := (hall p).2 rfl
  rw [parameterContext_iff]
  refine ⟨p, hpre, fun a => ⟨?_, fun hap => hap ▸ blanks.2.1.subset hp⟩⟩
  rintro ⟨ha, s, hs, rfl⟩
  by_cases hhid : s.id = id ∧ (f = .site ∨ f = .context)
  · rcases h.context hhid.2 s hs hhid.1 ha with ⟨t, ht, htid, hval⟩ | hnone
    · exact (hall _).1 ⟨ha, t, kept_other ht htid, hval⟩
    -- then no context at all is left, but one was found
    obtain ⟨t, ht, hval, hleft⟩ := blanks.2.1.source hp
    rcases hleft with htid | ⟨hsite, hne⟩
    · exact absurd (hval.symm.trans (hnone t ht htid)) hp.1
    · exact absurd hhid.2 (not_or.2 ⟨hsite, hne⟩)
  · obtain ⟨s', hs', hval⟩ := blanks.2.1.kept hs fun hid hf => absurd ⟨hid, hf⟩ hhid
    exact (hall _).1 ⟨ha, s', hs', hval⟩

lemma harmless_targets (hall : ∀ s ∈ foundSites (snap.withhold f id) cand, s.ambiguous = false) :
    ∀ s ∈ foundSites snap cand, s.ambiguous = false := by
  rw [foundSites_withhold] at hall
  intro s hs
  by_contra hamb
  rw [Bool.not_eq_false] at hamb
  by_cases hid : s.id = id
  · by_cases hsite : f = .site
    · obtain ⟨t, ht, htid, htamb⟩ := h.target hsite s hs hid hamb
      rw [hall t (kept_other ht htid)] at htamb
      cases htamb
    have hleft : ∃ s', f.withheld s = some s' ∧ s'.ambiguous = s.ambiguous := by
      cases f <;> first | exact absurd rfl hsite | exact ⟨_, rfl, rfl⟩
    obtain ⟨s', hedit, hsame⟩ := hleft
    have hfalse := hall s' (kept_edited hs hid hedit)
    rw [hsame, hamb] at hfalse
    cases hfalse
  · rw [hall s (kept_other hs hid)] at hamb
    cases hamb

/-- The summary of an enclosing function is still read, or was quiet. -/
lemma harmless_function (hs : s ∈ foundSites snap cand) (hfn : s.enclosingFunctionID ≠ []) :
    (∃ s' ∈ foundSites (snap.withhold f id) cand, s'.enclosingFunctionID = s.enclosingFunctionID) ∨
      ∃ e, (indexBy EffectSummary.function snap.effects).lookup s.enclosingFunctionID = some e ∧
        e.complete = true ∧ ∀ x ∈ e.effects, ¬AdverseEffect x := by
  rw [foundSites_withhold]
  by_cases hhid : s.id = id ∧ (f = .site ∨ f = .function)
  · rcases h.function hhid.2 s hs hhid.1 hfn with ⟨t, ht, htid, hval⟩ | hquiet
    · exact .inl ⟨t, kept_other ht htid, hval⟩
    · exact .inr hquiet
  · exact .inl (blanks.2.2.2.kept hs fun hid hf => absurd ⟨hid, hf⟩ hhid)

/-- **Withholding a fact harmlessly gives a worse context.** -/
theorem worse_of_harmless : Worse (contextOf input snap cand)
      (contextOf { input with snapshot := some (snap.withhold f id) } (snap.withhold f id) cand) where
  cand := rfl
  op := rfl
  assumptions := rfl
  spec := .inr rfl
  targets := harmless_targets h
  effects := by
    intro e he hadv
    obtain ⟨s, hs, hfn, sm, hl, hmem⟩ := mem_effects.1 he
    rcases harmless_function h hs hfn with ⟨s', hs', hsame⟩ | ⟨e', hl', -, hquiet⟩
    · exact mem_effects.2 ⟨s', hs', hsame ▸ hfn, sm, hsame ▸ hl, hmem⟩
    rw [hl] at hl'
    rw [Option.some.inj hl'] at hmem
    exact absurd hadv (hquiet e hmem)
  complete := by
    intro hc
    rw [effectsComplete_iff] at hc ⊢
    intro s hs hfn
    rcases harmless_function h hs hfn with ⟨s', hs', hsame⟩ | ⟨e', hl', hcomplete, -⟩
    · have hc' := hc s' hs' (hsame ▸ hfn)
      rw [hsame] at hc'
      exact hc'
    · exact ⟨e', hl', hcomplete⟩
  keys := by
    have hmem : ∀ v, v ∈ (contextOf { input with snapshot := some (snap.withhold f id) }
        (snap.withhold f id) cand).keyDeps ↔
        Carried CallSite.keyDependency ((foundSites snap cand).filterMap (f.edit id)) v := by
      intro v
      rw [← foundSites_withhold]
      exact mem_carried
    refine .inr ⟨fun k hk => mem_carried.2 (blanks.1.subset ((hmem k).1 hk)), ?_⟩
    intro k hk hadv
    obtain ⟨hne, s, hs, rfl⟩ := mem_carried.1 hk
    obtain ⟨s', hs', hval⟩ := blanks.1.kept hs fun hid hf => h.key hf s hs hid hadv
    exact (hmem _).2 ⟨hne, s', hs', hval⟩
  steady := harmless_steady h
  context := harmless_context h

end

end

/-! ## Strategies -/

lemma uniform_blocks (h : Uniform snap cand) {f : Fact} (hf : f.Missing snap cand) {o : ObligationID}
    (ho : o ∈ f.obligations) : ¬(contextOf input snap cand).Holds o := by
  have hnone : ∀ {g : CallSite → GoString}, (∃ s ∈ foundSites snap cand, g s = []) →
      ((∀ s ∈ foundSites snap cand, g s = []) ∨ ∀ s ∈ foundSites snap cand, g s ≠ []) →
      ∀ v, ¬Carried g (foundSites snap cand) v := by
    rintro g ⟨s, hs, hblank⟩ (hall | hall) v ⟨hv, t, ht, rfl⟩
    · exact hv (hall t ht)
    · exact hall s hs hblank
  cases f with
  | site =>
    obtain ⟨id, hid, hl⟩ := hf
    exact absurd hl (h.sites id hid)
  | key =>
    rw [Fact.obligations, mem_singleton] at ho
    subst ho
    have hkeys : (contextOf input snap cand).keyDeps = [] :=
      eq_nil_iff_forall_not_mem.2 fun v hv => hnone hf h.keys v (mem_carried.1 hv)
    rintro ⟨-, ⟨hcd, -⟩ | ⟨-, -, hne⟩⟩
    · rw [hkeys] at hcd
      cases hcd
    · exact hne hkeys
  | context =>
    rw [Fact.obligations, mem_singleton] at ho
    subst ho
    intro hctx
    obtain ⟨p, -, hall⟩ := parameterContext_iff.1 hctx
    exact hnone hf h.contexts p ((hall p).2 rfl)
  | function =>
    obtain ⟨s, hs, hblank⟩ := hf
    exact absurd hblank (h.functions s hs)
  | receiver =>
    obtain ⟨⟨s, hs, hblank⟩, t, ht, hsome⟩ := hf
    rcases h.receivers with hall | hall
    · exact absurd (hall t ht) hsome
    · exact absurd hblank (hall s hs)

def pairCandidate : Candidate := { loopCandidate with callSites := [str "s1", str "s2"] }

/-- Two sites of one candidate, the first of which may be lost without harm. -/
def pairSnapshot : Snapshot := { loopSnapshot with
    callSites := [{ loopSite with keyDependency := [] }, { loopSite with id := str "s2", keyDependency := [] }]
    candidates := [pairCandidate] }

end BatchWeaver.Prover
