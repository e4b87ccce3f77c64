import BatchWeaver.Spec.Prover

/-!
# Eligibility

What an obligation demands of the facts of a candidate (`CandidateContext.Holds`), stated without the
evaluators, and what follows for the strategies a proof run reports as eligible.

* `passes_iff`: an evaluator passes exactly when what the obligation demands holds.
* `prove_eligible_iff`: a strategy is reported eligible when it is applicable and all it requires holds.
* `Worse.holds`: the order on contexts under which every obligation is monotone.
* `eligible_of_adverse`: over whole runs, adverse facts never make a strategy eligible, and the decision
  of a candidate is the existence of an eligible strategy.
-/

namespace BatchWeaver.Prover

open List

variable {H : Sha256}

/-- The statuses that do not block a strategy. -/
@[simp] def ObligationStatus.Passes (st : ObligationStatus) : Prop := st = .satisfied ∨ st = .notApplicable

/-- A record reports the strategy as eligible. -/
def CandidateProof.Eligible (cp : CandidateProof) (s : StrategyID) : Prop :=
  ∃ e ∈ cp.allowedStrategies, e.strategy = s ∧ e.status = .provenEligible

instance (cp : CandidateProof) (s : StrategyID) : Decidable (cp.Eligible s) := decidableBEx _ _

/-! ## What the obligations demand -/

namespace CandidateContext

variable (cc : CandidateContext)

/-- At most one receiver, and a known one. -/
def Steady : Prop := cc.receivers.length ≤ 1 ∧ str "unknown" ∉ cc.receivers

/-- One context, and a parameter. -/
def ParameterContext : Prop := cc.contexts.length = 1 ∧ hasPrefix (cc.contexts.headD []) (str "parameter ") = true

/-- What an obligation demands. -/
def Holds : ObligationID → Prop
  | .signatureCompatible => cc.op.compatibility = str "valid"
  | .operationEnabled => cc.op.disabled = false
  | .resultContract => cc.spec.isSome
  | .readCategory => cc.operationEffect.1 = .read
  | .freshnessNeutral => (cc.spec.map OperationSpec.freshnessDependent).getD false = false
  | .targetResolved => ∀ s ∈ cc.sites, s.ambiguous = false
  | .noObservableBarrier => cc.effectsComplete = true ∧ ∀ e ∈ cc.effects, e ∉ staticBarrierEffects
  | .earlyExitReplayable => ∃ spec, cc.spec = some spec ∧ spec.errorMode = .perItem
  | .keyIndependent => keyResultDependent ∉ cc.keyDeps ∧
      (keyCallDerived ∈ cc.keyDeps ∧ assumed cc.assumptions cc.keySymbol factSideEffectFreeRead = true ∨
        keyCallDerived ∉ cc.keyDeps ∧ keyUnknown ∉ cc.keyDeps ∧ cc.keyDeps ≠ [])
  | .noLoopCarried => cc.cand.state ≠ statePotentialLoop ∨
      keyResultDependent ∉ cc.keyDeps ∧ keyCallDerived ∉ cc.keyDeps ∧ keyUnknown ∉ cc.keyDeps
  | .receiverInvariant => cc.Steady
  | .contextInvariant => cc.ParameterContext
  | .partitionStable =>
      ∃ spec, cc.spec = some spec ∧ ∀ dim ∈ spec.required, dim = str "receiver" ∧ cc.Steady
  | .duplicateMapping => cc.spec.isSome
  | .firstErrorOrder => ∃ spec, cc.spec = some spec ∧ spec.errorMode = .perItem
  | .noDeferBarrier => str "defer" ∉ cc.effects
  | .noRecoverBoundary => str "recover" ∉ cc.effects
  | .noNewConcurrency => True
  | .fanoutEnvelope => True

lemma evaluate_id (o : ObligationID) : (cc.evaluate H o).id = o := by
  have hloop : ∀ spec dims, (cc.partitionLoop H spec dims).id = .partitionStable := by
    intro spec dims
    induction dims with
    | nil => rfl
    | cons dim dims ih =>
      rw [partitionLoop]
      split
      · split
        · exact ih
        · rfl
      · rfl
  cases o <;> simp only [evaluate, oblSignatureCompatible, oblOperationEnabled, oblResultContract,
    oblReadCategory, oblFreshnessNeutral, oblTargetResolved, oblNoObservableBarrier,
    oblEarlyExitReplayable, oblKeyIndependent, oblNoLoopCarried, oblReceiverInvariant,
    oblContextInvariant, oblPartitionStable, oblDuplicateMapping, oblFirstErrorOrder, oblNoDeferBarrier,
    oblNoRecoverBoundary, oblNoNewConcurrency, oblFanoutEnvelope]
  case partitionStable =>
    split
    · rfl
    · exact hloop _ _
  all_goals repeat' split
  all_goals rfl

lemma partitionLoop_passes (spec : OperationSpec) (dims : List GoString) :
    (cc.partitionLoop H spec dims).status.Passes ↔ ∀ dim ∈ dims, dim = str "receiver" ∧ cc.Steady := by
  induction dims with
  | nil => simp [partitionLoop]
  | cons dim dims ih =>
    rw [partitionLoop, forall_mem_cons, ← ih]
    split_ifs <;> simp_all [Steady]

lemma barrierEffects_eq_nil : cc.barrierEffects = [] ↔ ∀ e ∈ cc.effects, e ∉ staticBarrierEffects := by
  simp only [eq_nil_iff_forall_not_mem, barrierEffects, mem_sortedKeys, mem_filter, decide_eq_true_eq, not_and]

/-- **An evaluator passes exactly when what the obligation demands holds.** -/
theorem passes_iff (o : ObligationID) : (cc.evaluate H o).status.Passes ↔ cc.Holds o := by
  cases o
  case keyIndependent =>
    simp only [evaluate, oblKeyIndependent, Holds]
    split
    · simp_all
    split
    · split <;> simp_all
    split
    · rename_i hrd hcd hunk
      simp only [ObligationStatus.Passes, reduceCtorEq, or_self, false_iff]
      rintro ⟨-, ⟨hmem, -⟩ | ⟨-, hnot, hne⟩⟩
      · exact hcd hmem
      · exact hunk.elim hnot hne
    · simp_all
  case noLoopCarried =>
    simp only [evaluate, oblNoLoopCarried, Holds]
    split
    · simp_all
    split
    · simp_all
    split
    · rename_i hloop hrd hmem
      simp only [ObligationStatus.Passes, reduceCtorEq, or_self, false_iff]
      rintro (hstate | ⟨-, hcd, hunk⟩)
      · exact hloop hstate
      · exact hmem.elim hcd hunk
    · simp_all
  case receiverInvariant =>
    simp only [evaluate, oblReceiverInvariant, Holds, Steady]
    split
    · simp_all
    split
    · rename_i hne hmany
      simp only [ObligationStatus.Passes, reduceCtorEq, or_self, false_iff]
      rintro ⟨hlen, hknown⟩
      exact hmany.elim (fun h => by omega) hknown
    · simp_all
  case partitionStable =>
    simp only [evaluate, oblPartitionStable, Holds]
    split
    · simp_all
    rename_i spec hspec
    rw [partitionLoop_passes]
    simp [hspec]
  -- the other evaluators test their conditions one after the other
  all_goals simp only [evaluate, oblSignatureCompatible, oblOperationEnabled, oblResultContract, oblReadCategory,
    oblFreshnessNeutral, oblTargetResolved, oblNoObservableBarrier, oblEarlyExitReplayable, oblContextInvariant,
    oblDuplicateMapping, oblFirstErrorOrder, oblNoDeferBarrier, oblNoRecoverBoundary, oblNoNewConcurrency,
    oblFanoutEnvelope, Holds, ParameterContext, ← barrierEffects_eq_nil]
  all_goals repeat' split
  all_goals simp_all

/-! ## Strategies and decisions -/

lemma requiredStatus_evaluate (o : ObligationID) :
    requiredStatus (cc.evaluateObligations H) o = (cc.evaluate H o).status := by
  have hfind : (cc.evaluateObligations H).find? (fun r => r.id = o) =
      some { cc.evaluate H o with family := o.family } := by
    cases o <;> simp [evaluateObligations, obligationRegistry, List.find?, evaluate_id]
  rw [requiredStatus, hfind]
  rfl

lemma mem_evaluateObligations {r} (o : ObligationID) :
    r ∈ cc.evaluateObligations H ∧ r.id = o ↔ r = { cc.evaluate H o with family := o.family } := by
  have hall : ∀ o : ObligationID, ∃ f, (o, f) ∈ obligationRegistry := by
    intro o
    cases o <;> simp [obligationRegistry]
  rw [evaluateObligations, mem_map]
  constructor
  · rintro ⟨⟨e, -, rfl⟩, hid⟩
    have he : e.1 = o := (evaluate_id cc e.1).symm.trans hid
    rw [he]
  rintro rfl
  obtain ⟨f, hf⟩ := hall o
  exact ⟨⟨(o, f), hf, rfl⟩, evaluate_id cc o⟩

end CandidateContext

lemma strategyStatus_eligible (required : List ObligationID) (results : List ObligationResult) :
    (strategyStatus required results).1 = .provenEligible ↔ ∀ o ∈ required, (requiredStatus results o).Passes := by
  have hnone : ∀ st, required.filter (fun o => requiredStatus results o = st) = [] ↔
      ∀ o ∈ required, requiredStatus results o ≠ st := by
    intro st
    simp [filter_eq_nil_iff]
  have hfail : ∀ st : ObligationStatus, ¬st.Passes → ¬required.filter (fun o => requiredStatus results o = st) = [] →
      ¬∀ o ∈ required, (requiredStatus results o).Passes := by
    intro st hst h hall
    exact h ((hnone st).2 fun o ho he => hst (he ▸ hall o ho))
  rw [strategyStatus]
  split
  · rename_i h; simpa using hfail _ (by simp) h
  split
  · rename_i h; simpa using hfail _ (by simp) h
  split
  · rename_i h; simpa using hfail _ (by simp) h
  split
  · rename_i h; simpa using hfail _ (by simp) h
  rename_i h1 h2 h3 h4
  rw [not_not, hnone] at h1 h2 h3 h4
  simp only [true_iff]
  intro o ho
  have h1 := h1 o ho
  have h2 := h2 o ho
  have h3 := h3 o ho
  have h4 := h4 o ho
  cases hst : requiredStatus results o <;> simp_all

lemma aggregateDecision_eligible (l : List StrategyEligibility) :
    aggregateDecision l = .provenEligible ↔ ∃ e ∈ l, e.status = .provenEligible := by
  rw [aggregateDecision]
  split
  · simp_all
  split
  · simp_all
  rename_i hnone
  have hno : ¬∃ e ∈ l, e.status = .provenEligible := by simpa using hnone
  simp only [hno, iff_false]
  split
  · simp
  split
  · simp
  split <;> simp

/-- The declaration and the contract are required by every strategy. -/
lemma required_declaration (s : StrategyID) : ObligationID.signatureCompatible ∈ s.required ∧
    ObligationID.operationEnabled ∈ s.required ∧ ObligationID.resultContract ∈ s.required := by
  cases s <;> decide

namespace CandidateContext

variable (cc : CandidateContext)

lemma mem_eligibility (s : StrategyID) : (∃ e ∈ cc.eligibility H, e.strategy = s ∧ e.status = .provenEligible) ↔
      s ∈ applicableStrategies cc.cand.state ∧ ∀ o ∈ s.required, cc.Holds o := by
  simp only [eligibility, mem_insertionSort, mem_map]
  constructor
  · rintro ⟨e, ⟨t, ht, rfl⟩, rfl, hstatus⟩
    refine ⟨ht, fun o ho => ?_⟩
    have hpass := (strategyStatus_eligible _ _).1 hstatus o ho
    rw [requiredStatus_evaluate] at hpass
    exact (passes_iff cc o).1 hpass
  rintro ⟨hs, hall⟩
  refine ⟨_, ⟨s, hs, rfl⟩, rfl, ?_⟩
  rw [strategyStatus_eligible]
  intro o ho
  rw [requiredStatus_evaluate]
  exact (passes_iff cc o).2 (hall o ho)

/-- **A strategy is reported eligible** when it is applicable and all it requires holds. -/
theorem prove_eligible_iff (s : StrategyID) : (cc.prove H).Eligible s ↔
    s ∈ applicableStrategies cc.cand.state ∧ ∀ o ∈ s.required, cc.Holds o := by
  have hreq := required_declaration s
  rw [CandidateProof.Eligible, prove]
  split
  · -- an invalid declaration fails the first obligation
    rename_i hinvalid
    have hno : ¬cc.Holds .signatureCompatible := by
      rw [Holds, hinvalid]
      decide
    simp only [terminal, not_mem_nil, false_and, exists_false, false_iff]
    exact fun h => hno (h.2 _ hreq.1)
  split
  · rename_i hdisabled
    have hno : ¬cc.Holds .operationEnabled := by
      rw [Holds, hdisabled]
      decide
    simp only [terminal, not_mem_nil, false_and, exists_false, false_iff]
    exact fun h => hno (h.2 _ hreq.2.1)
  · exact mem_eligibility cc s

/-- The obligations of a record that pass are those that hold, unless the record is terminal. -/
lemma prove_decision_iff : (cc.prove H).decision = .provenEligible ↔
    ∃ s ∈ applicableStrategies cc.cand.state, ∀ o ∈ s.required,
      ∃ r ∈ (cc.prove H).obligations, r.id = o ∧ r.status.Passes := by
  rw [prove]
  split
  · simp only [terminal, reduceCtorEq, false_iff]
    rintro ⟨s, -, hall⟩
    obtain ⟨r, hr, hid, hpass⟩ := hall _ (required_declaration s).1
    simp at hr
    simp [hr] at hpass
  split
  · simp only [terminal, reduceCtorEq, false_iff]
    rintro ⟨s, -, hall⟩
    obtain ⟨r, hr, hid, hpass⟩ := hall _ (required_declaration s).2.1
    simp at hr
    simp [hr] at hpass
  have hrec : ∀ o, (∃ r ∈ cc.evaluateObligations H, r.id = o ∧ r.status.Passes) ↔ cc.Holds o := by
    intro o
    rw [← passes_iff (H := H)]
    constructor
    · rintro ⟨r, hr, hid, hpass⟩
      rw [(mem_evaluateObligations cc o).1 ⟨hr, hid⟩] at hpass
      exact hpass
    intro hpass
    obtain ⟨hr, hid⟩ := (mem_evaluateObligations (H := H) cc o).2 rfl
    exact ⟨_, hr, hid, hpass⟩
  simp only [aggregateDecision_eligible, hrec]
  constructor
  · rintro ⟨e, he, hstatus⟩
    exact ⟨e.strategy, (mem_eligibility cc _).1 ⟨e, he, rfl, hstatus⟩⟩
  rintro ⟨s, hs⟩
  obtain ⟨e, he, -, hstatus⟩ := (mem_eligibility (H := H) cc s).2 hs
  exact ⟨e, he, hstatus⟩

end CandidateContext

/-! ## The order on contexts -/

/-- The key classes that count against a candidate. -/
def AdverseKey (k : GoString) : Prop := k = keyResultDependent ∨ k = keyCallDerived ∨ k = keyUnknown

/-- The effects that count against a candidate. -/
def AdverseEffect (e : GoString) : Prop := e ∈ staticBarrierEffects ∨ e = str "defer" ∨ e = str "recover"

/-- The facts of `cc'` say no more in favour of the candidate than those of `cc`. -/
structure Worse (cc cc' : CandidateContext) : Prop where
  cand : cc'.cand = cc.cand
  op : cc'.op = cc.op
  assumptions : cc'.assumptions = cc.assumptions
  spec : cc'.spec = none ∨ cc'.spec = cc.spec
  targets : (∀ s ∈ cc'.sites, s.ambiguous = false) → ∀ s ∈ cc.sites, s.ambiguous = false
  effects : ∀ e ∈ cc.effects, AdverseEffect e → e ∈ cc'.effects
  complete : cc'.effectsComplete = true → cc.effectsComplete = true
  keys : keyResultDependent ∈ cc'.keyDeps ∨ cc'.keyDeps ⊆ cc.keyDeps ∧ ∀ k ∈ cc.keyDeps, AdverseKey k → k ∈ cc'.keyDeps
  steady : cc'.Steady → cc.Steady
  context : cc'.ParameterContext → cc.ParameterContext

variable {s : StrategyID}

namespace Worse

variable {cc cc' : CandidateContext}

section

variable (h : Worse cc cc')
include h

lemma keyIndependent (hk : cc'.Holds .keyIndependent) : cc.Holds .keyIndependent := by
  obtain ⟨hrd, hcase⟩ := hk
  rcases h.keys with hbad | ⟨hsub, hkept⟩
  · exact absurd hbad hrd
  have hsym : cc'.keySymbol = cc.keySymbol := by rw [CandidateContext.keySymbol, h.cand]; rfl
  refine ⟨fun hm => hrd (hkept _ hm (.inl rfl)), ?_⟩
  rcases hcase with ⟨hcd, hass⟩ | ⟨hcd, hunk, hne⟩
  · rw [h.assumptions, hsym] at hass
    exact .inl ⟨hsub hcd, hass⟩
  refine .inr ⟨fun hm => hcd (hkept _ hm (.inr (.inl rfl))),
    fun hm => hunk (hkept _ hm (.inr (.inr rfl))), fun hnil => hne ?_⟩
  exact subset_nil.1 (hnil ▸ hsub)

lemma noLoopCarried (hk : cc'.Holds .noLoopCarried) : cc.Holds .noLoopCarried := by
  rcases hk with hstate | ⟨hrd, hcd, hunk⟩
  · exact .inl (h.cand ▸ hstate)
  rcases h.keys with hbad | ⟨-, hkept⟩
  · exact absurd hbad hrd
  · exact .inr ⟨fun hm => hrd (hkept _ hm (.inl rfl)), fun hm => hcd (hkept _ hm (.inr (.inl rfl))),
      fun hm => hunk (hkept _ hm (.inr (.inr rfl)))⟩

/-- **Every obligation is monotone**, once the contract is the same. -/
theorem holds (hspec : cc'.spec = cc.spec) (o : ObligationID) (ho : cc'.Holds o) : cc.Holds o := by
  cases o with
  | signatureCompatible => exact (h.op ▸ ho : cc.op.compatibility = str "valid")
  | operationEnabled => exact (h.op ▸ ho : cc.op.disabled = false)
  | resultContract | duplicateMapping => exact (hspec ▸ ho : cc.spec.isSome)
  | readCategory =>
    have heff : cc'.operationEffect = cc.operationEffect := by
      simp only [CandidateContext.operationEffect, hspec, h.op]
    exact (heff ▸ ho : cc.operationEffect.1 = .read)
  | freshnessNeutral =>
    exact (hspec ▸ ho : (cc.spec.map OperationSpec.freshnessDependent).getD false = false)
  | targetResolved => exact h.targets ho
  | noObservableBarrier =>
    exact ⟨h.complete ho.1, fun e he hb => ho.2 e (h.effects e he (.inl hb)) hb⟩
  | earlyExitReplayable | firstErrorOrder => exact (hspec ▸ ho : ∃ spec, cc.spec = some spec ∧ spec.errorMode = .perItem)
  | keyIndependent => exact h.keyIndependent ho
  | noLoopCarried => exact h.noLoopCarried ho
  | receiverInvariant => exact h.steady ho
  | contextInvariant => exact h.context ho
  | partitionStable =>
    obtain ⟨spec, hs, hdims⟩ := ho
    exact ⟨spec, hspec ▸ hs, fun dim hd => ⟨(hdims dim hd).1, h.steady (hdims dim hd).2⟩⟩
  | noDeferBarrier => exact fun hm => ho (h.effects _ hm (.inr (.inl rfl)))
  | noRecoverBoundary => exact fun hm => ho (h.effects _ hm (.inr (.inr rfl)))
  | noNewConcurrency | fanoutEnvelope => trivial

/-- A strategy eligible on worse facts is eligible. -/
lemma eligible (hs : (cc'.prove H).Eligible s) : (cc.prove H).Eligible s := by
  rw [CandidateContext.prove_eligible_iff] at hs ⊢
  obtain ⟨happ, hall⟩ := hs
  have hsome : cc'.spec.isSome := hall _ (required_declaration s).2.2
  have hspec : cc'.spec = cc.spec := by
    rcases h.spec with hnone | hsame
    · rw [hnone] at hsome
      exact absurd hsome (by decide)
    · exact hsame
  exact ⟨h.cand ▸ happ, fun o ho => h.holds hspec o (hall o ho)⟩

end

end Worse

/-! ## Runs -/

section

variable {α : Type} {key : α → GoString} {R : α → α → Prop}

/-- Entries changed in place, keeping their keys, are found in place. -/
lemma indexBy_rel (hkey : ∀ a b, R a b → key a = key b) {l l'} (h : Forall₂ R l l')
    (k : GoString) : Option.Rel R ((indexBy key l).lookup k) ((indexBy key l').lookup k) := by
  suffices hfold : ∀ m m' : Table GoString α, (∀ k, Option.Rel R (m.lookup k) (m'.lookup k)) →
      ∀ k, Option.Rel R ((l.foldl (fun m a => m.insert (key a) a) m).lookup k)
        ((l'.foldl (fun m a => m.insert (key a) a) m').lookup k) from
    hfold ∅ ∅ (fun k => by rw [AList.lookup_empty]; exact .none) k
  induction h with
  | nil => exact fun m m' hm => hm
  | @cons a b l l' hab _ ih =>
    intro m m' hm
    refine ih _ _ fun k => ?_
    rw [Table.lookup_insert_if, Table.lookup_insert_if, hkey a b hab]
    split
    · exact .some hab
    · exact hm k

lemma filterMap_rel {ids : List GoString} {f g : GoString → Option α}
    (h : ∀ id, Option.Rel R (f id) (g id)) : Forall₂ R (ids.filterMap f) (ids.filterMap g) := by
  induction ids with
  | nil => exact .nil
  | cons id ids ih =>
    have hid := h id
    rw [filterMap_cons, filterMap_cons]
    cases hf : f id <;> cases hg : g id <;> rw [hf, hg] at hid <;> cases hid
    · exact ih
    · rename_i hab
      exact .cons hab ih

/-- One entry of a list is replaced. -/
lemma forall₂_replace (hrefl : ∀ a, R a a) {a b} (h : R a b) (pre post : List α) :
    Forall₂ R (pre ++ a :: post) (pre ++ b :: post) :=
  rel_append (forall₂_same.2 fun x _ => hrefl x) (.cons h (forall₂_same.2 fun x _ => hrefl x))

end

variable {sites sites' : List CallSite} {snap : Snapshot} {input input' : Input} {cand : Candidate} {i : ℕ}

variable {ctxErr : ℕ → Option GoString} {report : Report}

lemma proveAll_proofs {input} (hsnap : input.snapshot = some snap) (h : proveAll H ctxErr input = .ok report) :
    report.candidateProofs = snap.candidates.mapIdx fun i cand => proofAt H input snap i cand := by
  rw [proveAll, hsnap] at h
  simp only at h
  split at h
  · cases h
  · injection h with h
    rw [← h]

/-- The record at a position is that of the candidate there. -/
lemma proveAll_at {input} (hsnap : input.snapshot = some snap) (h : proveAll H ctxErr input = .ok report) {cp}
    (hcp : report.candidateProofs[i]? = some cp) :
    ∃ cand, snap.candidates[i]? = some cand ∧ cp = proofAt H input snap i cand := by
  rw [proveAll_proofs hsnap h, getElem?_mapIdx, Option.map_eq_some_iff] at hcp
  obtain ⟨cand, hcand, rfl⟩ := hcp
  exact ⟨cand, hcand, rfl⟩

/-- A run that nothing cancels reports every candidate. -/
lemma proveAll_uncancelled (H : Sha256) {input} (hsnap : input.snapshot = some snap)
    (hcand : snap.candidates[i]? = some cand) : ∃ report, proveAll H (fun _ => none) input = .ok report ∧
      report.candidateProofs[i]? = some (proofAt H input snap i cand) := by
  have hnone : ∀ n, (List.range n).findSome? (fun _ => (none : Option GoString)) = none := by
    intro n
    rw [findSome?_eq_none_iff]
    exact fun _ _ => rfl
  have hrun : ∃ report, proveAll H (fun _ => none) input = .ok report := by
    rw [proveAll, hsnap]
    simp only [hnone]
    exact ⟨_, rfl⟩
  obtain ⟨report, hrun⟩ := hrun
  refine ⟨report, hrun, ?_⟩
  rw [proveAll_proofs hsnap hrun, getElem?_mapIdx, hcand]
  rfl

lemma limitedProof_not_eligible (cand : Candidate) (cd ad : GoString) (s : StrategyID) :
    ¬(limitedProof H cand cd ad).Eligible s := by
  rintro ⟨e, he, -⟩
  cases he

/-- A worse context at every candidate keeps strategies from becoming eligible. -/
lemma proofAt_eligible {snap snap'} (hlim : input'.limits = input.limits)
    (hw : Worse (contextOf input snap cand) (contextOf input' snap' cand))
    (hs : (proofAt H input' snap' i cand).Eligible s) : (proofAt H input snap i cand).Eligible s := by
  rw [proofAt, hlim] at hs
  rw [proofAt]
  split at hs
  · exact absurd hs (limitedProof_not_eligible _ _ _ s)
  rename_i hbudget
  rw [if_neg hbudget]
  exact hw.eligible hs

/-! ## Adverse facts -/

/-- A call site whose facts were replaced by adverse ones. -/
structure SiteWorse (s s' : CallSite) : Prop where
  site : s.id = s'.id
  function : s.enclosingFunctionID = s'.enclosingFunctionID
  receiver : s.receiver = s'.receiver
  context : s.contextArg = s'.contextArg
  ambiguous : s.ambiguous = true → s'.ambiguous = true
  key : s'.keyDependency = keyResultDependent ∨ s.keyDependency = s'.keyDependency

/-- An effect summary that says more effects, or less completeness. -/
structure SummaryWorse (e e' : EffectSummary) : Prop where
  function : e.function = e'.function
  effects : e.effects ⊆ e'.effects
  complete : e'.complete = true → e.complete = true

lemma SiteWorse.refl (s : CallSite) : SiteWorse s s := ⟨rfl, rfl, rfl, rfl, id, .inr rfl⟩

lemma SummaryWorse.refl (e : EffectSummary) : SummaryWorse e e := ⟨rfl, fun _ h => h, id⟩

lemma summaries_rel {m m'}
    (hm : ∀ f, Option.Rel SummaryWorse (m.lookup f) (m'.lookup f)) (h : Forall₂ SiteWorse sites sites') :
    Forall₂ (Option.Rel SummaryWorse) (summaries m sites) (summaries m' sites') := by
  induction h with
  | nil => exact .nil
  | @cons s s' sites sites' hs _ ih =>
    simp only [summaries, filter_cons, hs.function]
    split
    · rw [map_cons, map_cons, hs.function]
      exact .cons (hm _) ih
    · exact ih

lemma summaries_effects {l l'} (h : Forall₂ (Option.Rel SummaryWorse) l l') :
    (l.flatMap fun e => (e.map EffectSummary.effects).getD []) ⊆
      l'.flatMap fun e => (e.map EffectSummary.effects).getD [] := by
  induction h with
  | nil => exact Subset.refl _
  | cons he _ ih =>
    rw [flatMap_cons, flatMap_cons]
    refine append_subset.2 ⟨?_, subset_append_of_subset_right _ ih⟩
    cases he with
    | none => exact nil_subset _
    | some he => exact subset_append_of_subset_left _ he.effects

lemma summaries_complete {l l'} (h : Forall₂ (Option.Rel SummaryWorse) l l')
    (hc : (l'.all fun e => (e.map EffectSummary.complete).getD false) = true) :
    (l.all fun e => (e.map EffectSummary.complete).getD false) = true := by
  induction h with
  | nil => rfl
  | cons he _ ih =>
    rw [all_cons, Bool.and_eq_true] at hc ⊢
    refine ⟨?_, ih hc.2⟩
    cases he with
    | none => exact hc.1
    | some he => exact he.complete hc.1

lemma sites_keys (h : Forall₂ SiteWorse sites sites') : keyResultDependent ∈ sites'.map CallSite.keyDependency ∨
      sites.map CallSite.keyDependency = sites'.map CallSite.keyDependency := by
  induction h with
  | nil => exact .inr rfl
  | cons hs _ ih =>
    rw [map_cons, map_cons]
    rcases hs.key with hbad | hsame
    · exact .inl (hbad ▸ mem_cons_self)
    rcases ih with hbad | hrest
    · exact .inl (mem_cons_of_mem _ hbad)
    · exact .inr (by rw [hsame, hrest])

lemma sites_map {f : CallSite → GoString} (hf : ∀ s s', SiteWorse s s' → f s = f s')
    (h : Forall₂ SiteWorse sites sites') : sites.map f = sites'.map f := by
  induction h with
  | nil => rfl
  | cons hs _ ih => rw [map_cons, map_cons, hf _ _ hs, ih]

lemma sites_ambiguous (h : Forall₂ SiteWorse sites sites') (hall : ∀ s ∈ sites', s.ambiguous = false) :
    ∀ s ∈ sites, s.ambiguous = false := by
  induction h with
  | nil => exact hall
  | @cons s s' _ _ hs _ ih =>
    rw [forall_mem_cons] at hall ⊢
    refine ⟨?_, ih hall.2⟩
    by_contra hamb
    rw [Bool.not_eq_false] at hamb
    rw [hs.ambiguous hamb] at hall
    exact absurd hall.1 (by decide)

/-- Adverse facts in place, and perhaps no contract, give a worse context. -/
lemma contextOf_worse {snap snap' : Snapshot} (hops : snap'.operations = snap.operations)
    (hass : input'.assumptions = input.assumptions)
    (hspec : input'.specs.lookup cand.operation = none ∨ input'.specs.lookup cand.operation =
      input.specs.lookup cand.operation) (hsites : Forall₂ SiteWorse snap.callSites snap'.callSites)
    (heffects : Forall₂ SummaryWorse snap.effects snap'.effects) :
    Worse (contextOf input snap cand) (contextOf input' snap' cand) := by
  have hfound : Forall₂ SiteWorse (contextOf input snap cand).sites (contextOf input' snap' cand).sites :=
    filterMap_rel fun id => indexBy_rel (fun _ _ h => h.site) hsites id
  have hsums := summaries_rel (indexBy_rel (fun _ _ h => h.function) heffects) hfound
  have hrecv : (contextOf input' snap' cand).receivers = (contextOf input snap cand).receivers :=
    congrArg (fun l => sortedKeys (present l)) (sites_map (fun _ _ h => h.receiver) hfound).symm
  have hctx : (contextOf input' snap' cand).contexts = (contextOf input snap cand).contexts :=
    congrArg (fun l => sortedKeys (present l)) (sites_map (fun _ _ h => h.context) hfound).symm
  refine
    { cand := rfl, op := by simp only [contextOf, newCandidateContext, hops]
      assumptions := by simp only [contextOf, newCandidateContext, hass]
      spec := hspec
      targets := sites_ambiguous hfound
      effects := fun e he _ => summaries_effects hsums he
      complete := summaries_complete hsums
      keys := ?_
      steady := fun h => by rwa [CandidateContext.Steady, hrecv] at h
      context := fun h => by rwa [CandidateContext.ParameterContext, hctx] at h }
  rcases sites_keys hfound with hbad | hsame
  · refine .inl (mem_sortedKeys.2 ?_)
    exact mem_filter.2 ⟨hbad, by decide⟩
  have hkeys : (contextOf input snap cand).keyDeps = (contextOf input' snap' cand).keyDeps :=
    congrArg (fun l => sortedKeys (present l)) hsame
  exact .inr ⟨hkeys ▸ Subset.refl _, fun k hk _ => hkeys ▸ hk⟩

/-- One adverse change to the input of a run. -/
inductive Adverse (snap : Snapshot) (input : Input) : Input → Prop
  | effect (pre post : List EffectSummary) (e : EffectSummary) (eff : GoString)
      (h : snap.effects = pre ++ e :: post) :
      Adverse snap input { input with snapshot := some { snap with
        effects := pre ++ { e with effects := e.effects ++ [eff] } :: post } }
  | incomplete (pre post : List EffectSummary) (e : EffectSummary)
      (h : snap.effects = pre ++ e :: post) :
      Adverse snap input { input with snapshot := some { snap with
        effects := pre ++ { e with complete := false } :: post } }
  | dispatch (pre post : List CallSite) (s : CallSite) (h : snap.callSites = pre ++ s :: post) :
      Adverse snap input { input with snapshot := some { snap with
        callSites := pre ++ { s with dispatch := dispatchInterface } :: post } }
  | targets (pre post : List CallSite) (s : CallSite) (n : ℤ) (hn : n ≠ 1)
      (h : snap.callSites = pre ++ s :: post) :
      Adverse snap input { input with snapshot := some { snap with
        callSites := pre ++ { s with targets := n } :: post } }
  | key (pre post : List CallSite) (s : CallSite) (h : snap.callSites = pre ++ s :: post) :
      Adverse snap input { input with snapshot := some { snap with
        callSites := pre ++ { s with keyDependency := keyResultDependent } :: post } }
  | spec (operation : GoString) :
      Adverse snap input { input with snapshot := some snap, specs := input.specs.erase operation }

/-- One effect summary gets worse. -/
lemma contextOf_effect {snap : Snapshot} {pre post e e'} (h : snap.effects = pre ++ e :: post) (he : SummaryWorse e e') :
    Worse (contextOf input snap cand) (contextOf input { snap with effects := pre ++ e' :: post } cand) := by
  refine contextOf_worse rfl rfl (.inr rfl) (forall₂_same.2 fun s _ => .refl s) ?_
  rw [h]
  exact forall₂_replace SummaryWorse.refl he pre post

/-- One call site gets worse. -/
lemma contextOf_site {snap : Snapshot} {pre post s s'} (h : snap.callSites = pre ++ s :: post) (hs : SiteWorse s s') :
    Worse (contextOf input snap cand) (contextOf input { snap with callSites := pre ++ s' :: post } cand) := by
  refine contextOf_worse rfl rfl (.inr rfl) ?_ (forall₂_same.2 fun e _ => .refl e)
  rw [h]
  exact forall₂_replace SiteWorse.refl hs pre post

lemma adverse_worse (h : Adverse snap input input') :
    input'.limits = input.limits ∧ ∃ snap', input'.snapshot = some snap' ∧ snap'.candidates = snap.candidates ∧
      ∀ cand, Worse (contextOf input snap cand) (contextOf input' snap' cand) := by
  cases h with
  | effect pre post e eff h =>
    exact ⟨rfl, _, rfl, rfl, fun _ => contextOf_effect h ⟨rfl, subset_append_left _ _, id⟩⟩
  | incomplete pre post e h =>
    exact ⟨rfl, _, rfl, rfl, fun _ => contextOf_effect h ⟨rfl, Subset.refl _, Bool.noConfusion⟩⟩
  | dispatch pre post s h =>
    exact ⟨rfl, _, rfl, rfl, fun _ => contextOf_site h ⟨rfl, rfl, rfl, rfl, by simp [CallSite.ambiguous], .inr rfl⟩⟩
  | targets pre post s n hn h =>
    exact ⟨rfl, _, rfl, rfl, fun _ => contextOf_site h ⟨rfl, rfl, rfl, rfl, by simp [CallSite.ambiguous, hn], .inr rfl⟩⟩
  | key pre post s h =>
    exact ⟨rfl, _, rfl, rfl, fun _ => contextOf_site h ⟨rfl, rfl, rfl, rfl, id, .inl rfl⟩⟩
  | spec operation =>
    refine ⟨rfl, _, rfl, rfl, fun cand => contextOf_worse rfl rfl ?_ (forall₂_same.2 fun s _ => .refl s)
      (forall₂_same.2 fun e _ => .refl e)⟩
    simp only [Table.lookup_erase_if]
    split
    · exact .inl rfl
    · exact .inr rfl

lemma proofAt_decision (input : Input) (snap : Snapshot) (i : ℕ) (cand : Candidate) :
    (proofAt H input snap i cand).decision = .provenEligible ↔ ∃ s ∈ applicableStrategies cand.state, ∀ o ∈ s.required,
        ∃ r ∈ (proofAt H input snap i cand).obligations, r.id = o ∧ r.status.Passes := by
  rw [proofAt]
  split
  · -- nothing was evaluated beyond the budget
    simp only [limitedProof, reduceCtorEq, false_iff]
    rintro ⟨s, -, hall⟩
    obtain ⟨r, hr, -⟩ := hall _ (required_declaration s).1
    cases hr
  · exact CandidateContext.prove_decision_iff (contextOf input snap cand)

/-- **Adverse facts never make a strategy eligible**, whichever candidate they affect, and a candidate is
proven eligible exactly when an applicable strategy has all it requires satisfied or not applicable. -/
theorem eligible_of_adverse (H : Sha256) (ctxErr : ℕ → Option GoString) (input : Input) (snap : Snapshot)
    (report : Report) (hsnap : input.snapshot = some snap) (hrun : proveAll H ctxErr input = .ok report) :
    (∀ ctxErr' input' report', Adverse snap input input' → proveAll H ctxErr' input' = .ok report' →
      ∀ (i : ℕ) (cp cp' : CandidateProof), report.candidateProofs[i]? = some cp →
        report'.candidateProofs[i]? = some cp' → ∀ s, ¬cp.Eligible s → ¬cp'.Eligible s) ∧
    ∀ (i : ℕ) (cand : Candidate) (cp : CandidateProof), snap.candidates[i]? = some cand → report.candidateProofs[i]? = some cp →
      (cp.decision = .provenEligible ↔ ∃ s ∈ applicableStrategies cand.state,
        ∀ o ∈ s.required, ∃ r ∈ cp.obligations, r.id = o ∧ r.status.Passes) := by
  constructor
  · intro ctxErr' input' report' hadv hrun' i cp cp' hcp hcp' s hno hs
    obtain ⟨hlim, snap', hsnap', hcands, hworse⟩ := adverse_worse hadv
    obtain ⟨cand, hcand, rfl⟩ := proveAll_at hsnap hrun hcp
    obtain ⟨cand', hcand', rfl⟩ := proveAll_at hsnap' hrun' hcp'
    have hsame : cand' = cand := by
      rw [hcands, hcand] at hcand'
      exact (Option.some.inj hcand').symm
    subst hsame
    exact hno (proofAt_eligible hlim (hworse cand') hs)
  intro i cand cp hcand hcp
  obtain ⟨cand', hcand', rfl⟩ := proveAll_at hsnap hrun hcp
  have hsame : cand' = cand := by
    rw [hcand] at hcand'
    exact (Option.some.inj hcand').symm
  subst hsame
  exact proofAt_decision input snap i cand'

/-! ## A run -/

/-- A call in a loop over one parameter context with a structural key. -/
def loopSite : CallSite where
  id := str "s1"
  location := str "a.go:7"
  enclosingFunctionID := str "f"
  dispatch := dispatchDirect
  targets := 1
  contextArg := str "parameter ctx"
  keyDependency := keyStructural
  receiver := str "repo"

def loopCandidate : Candidate := ⟨str "c1", str "get", statePotentialLoop, [str "s1"]⟩

def loopSnapshot : Snapshot where
  buildDigest := str "b1"
  operations := [{ id := str "get", kind := str "read-only", compatibility := str "valid" }]
  callSites := [loopSite]
  effects := [⟨str "f", [], true⟩]
  candidates := [loopCandidate]

def loopInput (snap : Snapshot) : Input where
  snapshot := some snap
  specs := (∅ : Table GoString OperationSpec).insert (str "get") { kind := .readOnly }
  contractDigest := str "k1"

/-- The records of a run that nothing cancels. -/
def recordsOf (input : Input) : List CandidateProof :=
  ((proveAll Sha256.plain (fun _ => none) input).toOption.map Report.candidateProofs).getD []

/-- A call to an unresolved target stays out of every strategy when an effect is added. -/
theorem eligible_of_adverse_demo :
    let snap := { loopSnapshot with callSites := [{ loopSite with targets := 2 }] }
    let input' := loopInput { snap with effects := [⟨str "f", [str "logging"], true⟩] }
    ∃ report report', proveAll Sha256.plain (fun _ => none) (loopInput snap) = .ok report ∧
      proveAll Sha256.plain (fun _ => none) input' = .ok report' ∧
      ∃ cp cp', report.candidateProofs[0]? = some cp ∧ report'.candidateProofs[0]? = some cp' ∧
        ¬cp.Eligible .runtimeScopeCoalescing ∧ ¬cp'.Eligible .runtimeScopeCoalescing := by
  intro snap input'
  have hadv : Adverse snap (loopInput snap) input' := Adverse.effect [] [] ⟨str "f", [], true⟩ (str "logging") rfl
  have hno : ¬(proofAt Sha256.plain (loopInput snap) snap 0 loopCandidate).Eligible .runtimeScopeCoalescing := by decide
  have hsnap : (loopInput snap).snapshot = some snap := rfl
  have hcand : snap.candidates[0]? = some loopCandidate := rfl
  have hsnap' : input'.snapshot = some { snap with effects := [⟨str "f", [str "logging"], true⟩] } := rfl
  obtain ⟨report, hrun, hcp⟩ := proveAll_uncancelled Sha256.plain hsnap hcand
  obtain ⟨report', hrun', hcp'⟩ := proveAll_uncancelled Sha256.plain hsnap' hcand
  exact ⟨report, report', hrun, hrun', _, _, hcp, hcp', hno,
    (eligible_of_adverse Sha256.plain _ _ snap report hsnap hrun).1 _ _ report' hadv hrun' 0 _ _ hcp hcp' _ hno⟩

end BatchWeaver.Prover
