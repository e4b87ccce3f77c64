import BatchWeaver.Proof.Evidence

/-!
# What a certificate is bound to

A certificate carries an invalidation set: digests whose change invalidates it. Two certificates of one
candidate with equal invalidation sets should rest on the same facts. The digest of a candidate covers
its dispatch, effects, receivers and contexts, but neither its key dependencies nor whether it runs in
a goroutine, and the field for the digest of the analysis is filled with the contract digest.

* `candidateDigest_inj`: what equal candidate digests say, for strings that can be told apart.
* `assumptionDigest_inj`: equal assumption digests come from sets that assume the same.
* `certificate_binds`: what equal invalidation sets bind: everything but the build, the contract of the
  operation, the key dependencies and the goroutine flag. If these agree too, so do all obligations.
* `unbound_facts`: two runs that differ in the build and in a key have equal sets.
-/

namespace BatchWeaver.Prover

open List CandidateContext

variable {H : Sha256}

/-! ## Strings that can be told apart -/

def NulFree (x : GoString) : Prop := 0 ∉ x

/-- An element of a set that is written with commas between the elements. -/
def Element (x : GoString) : Prop := 0 ∉ x ∧ 44 ∉ x

/-- No string under the digests of a candidate contains a mark the digests use. -/
structure Readable (input : Input) (snap : Snapshot) (cand : Candidate) : Prop where
  id : NulFree cand.id
  operation : NulFree cand.operation
  state : NulFree cand.state
  contract : NulFree input.contractDigest
  op : ∀ o ∈ snap.operations, NulFree o.compatibility ∧ NulFree o.kind
  dispatch : ∀ s ∈ foundSites snap cand, s.dispatch ≠ [] ∧ Element s.dispatch ∧ s.dispatch ≠ str "ambiguous"
  receiver : ∀ s ∈ foundSites snap cand, Element s.receiver
  context : ∀ s ∈ foundSites snap cand, Element s.contextArg
  effects : ∀ e ∈ snap.effects, ∀ x ∈ e.effects, x ≠ [] ∧ Element x
  assumptions : ∀ a ∈ input.assumptions, NulFree a.symbol ∧ a.symbol ∉ factNames ∧ ∀ fact ∈ a.facts, fact ∈ factNames

lemma join_inj {l k} (hl : ∀ x ∈ l, x ≠ [] ∧ Element x) (hk : ∀ x ∈ k, x ≠ [] ∧ Element x)
    (h : joinStrings (sortStrings l) (str ",") = joinStrings (sortStrings k) (str ",")) : ∀ x, x ∈ l ↔ x ∈ k := by
  have hcomma : str "," = [44] := by decide
  rw [joinStrings, joinStrings, hcomma] at h
  have hlists : sortStrings l = sortStrings k :=
    Words.intercalate_inj (fun w hw => ⟨(hl w (mem_sortStrings.1 hw)).1, (hl w (mem_sortStrings.1 hw)).2.2⟩)
      (fun w hw => ⟨(hk w (mem_sortStrings.1 hw)).1, (hk w (mem_sortStrings.1 hw)).2.2⟩) h
  intro x
  rw [← mem_sortStrings, hlists, mem_sortStrings]

lemma join_nulFree {l} (hl : ∀ x ∈ l, NulFree x) : NulFree (joinStrings (sortStrings l) (str ",")) := by
  have hcomma : str "," = [44] := by decide
  intro hmem
  rw [joinStrings, hcomma] at hmem
  rcases Words.mem_intercalate hmem with hzero | ⟨w, hw, hx⟩
  · exact absurd hzero (by decide)
  · exact hl w (mem_sortStrings.1 hw) hx

lemma boolStr_injective : Function.Injective boolStr := by decide

/-! ## The digest of a candidate -/

/-- The facts under a candidate digest can be told apart. -/
structure CandidateFacts.OK (f : CandidateFacts) : Prop where
  id : NulFree f.id
  operation : NulFree f.operation
  structure' : NulFree f.structure'
  compatibility : NulFree f.compatibility
  kind : NulFree f.kind
  contract : NulFree f.contractDigest
  dispatch : ∀ x ∈ f.dispatch, x ≠ [] ∧ Element x
  effects : ∀ x ∈ f.effects, x ≠ [] ∧ Element x
  receivers : ∀ x ∈ f.receivers, x ≠ [] ∧ Element x
  contexts : ∀ x ∈ f.contexts, x ≠ [] ∧ Element x

lemma digestParts_nulFree {f} (h : f.OK) : ∀ p ∈ digestParts f, 0 ∉ p := by
  have hbool : ∀ b, NulFree (boolStr b) := by
    unfold NulFree
    decide
  have hlabels : ∀ p ∈ [str "candidate", str "compat", str "disabled", str "kind", str "contract",
      str "dispatch", str "effects", str "complete", str "receiver", str "context"], 0 ∉ p := by
    decide
  simp only [forall_mem_cons] at hlabels
  obtain ⟨h1, h2, h3, h4, h5, h6, h7, h8, h9, h10, -⟩ := hlabels
  simp only [digestParts, forall_mem_cons]
  exact ⟨h1, h.id, h.operation, h.structure', h2, h.compatibility, h3, hbool _, h4, h.kind, h5, h.contract,
    h6, join_nulFree fun x hx => (h.dispatch x hx).2.1, h7, join_nulFree fun x hx => (h.effects x hx).2.1,
    h8, hbool _, h9, join_nulFree fun x hx => (h.receivers x hx).2.1, h10,
    join_nulFree fun x hx => (h.contexts x hx).2.1, nofun⟩

/-- The facts two candidate digests agree on. -/
structure CandidateFacts.Agree (f g : CandidateFacts) : Prop where
  operation : f.operation = g.operation
  structure' : f.structure' = g.structure'
  compatibility : f.compatibility = g.compatibility
  disabled : f.disabled = g.disabled
  kind : f.kind = g.kind
  dispatch : ∀ x, x ∈ f.dispatch ↔ x ∈ g.dispatch
  effects : ∀ x, x ∈ f.effects ↔ x ∈ g.effects
  complete : f.effectsComplete = g.effectsComplete
  receivers : ∀ x, x ∈ f.receivers ↔ x ∈ g.receivers
  contexts : ∀ x, x ∈ f.contexts ↔ x ∈ g.contexts

/-- **Equal candidate digests** come from facts that agree. -/
theorem candidateDigest_inj {f g : CandidateFacts} (hf : f.OK) (hg : g.OK)
    (h : candidateDigest H f = candidateDigest H g) : f.Agree g := by
  have hparts : digestParts f = digestParts g := hashParts_inj H (digestParts_nulFree hf) (digestParts_nulFree hg) h
  simp only [digestParts, List.cons.injEq, true_and, and_true] at hparts
  obtain ⟨-, hop, hstruct, hcompat, hdis, hkind, -, hdisp, heff, hcomp, hrecv, hctx⟩ := hparts
  exact
    { operation := hop, structure' := hstruct, compatibility := hcompat, disabled := boolStr_injective hdis
      kind := hkind
      dispatch := join_inj hf.dispatch hg.dispatch hdisp
      effects := join_inj hf.effects hg.effects heff
      complete := boolStr_injective hcomp
      receivers := join_inj hf.receivers hg.receivers hrecv
      contexts := join_inj hf.contexts hg.contexts hctx }

/-! ## The digest of the assumptions -/

lemma newAssumptionSet_append (as : List Assumption) (a : Assumption) : newAssumptionSet (as ++ [a]) =
      if a.symbol = [] then newAssumptionSet as else (newAssumptionSet as).insert a.symbol a := by
  rw [newAssumptionSet, foldl_append]
  rfl

lemma lookup_newAssumptionSet {as symbol a}
    (h : (newAssumptionSet as).lookup symbol = some a) : a ∈ as ∧ a.symbol = symbol := by
  induction as using reverseRecOn with
  | nil => exact nomatch h
  | append_singleton as b ih =>
    rw [newAssumptionSet_append] at h
    split at h
    · exact ⟨mem_append_left _ (ih h).1, (ih h).2⟩
    rw [Table.lookup_insert_if] at h
    split at h
    · rename_i hsym
      rw [← Option.some.inj h]
      exact ⟨mem_append_right _ mem_cons_self, hsym.symm⟩
    · exact ⟨mem_append_left _ (ih h).1, (ih h).2⟩

section

variable (as : Table GoString Assumption)

/-- The facts assumed of a symbol. -/
def assumedFacts (symbol : GoString) : List GoString :=
  ((as.lookup symbol).map Assumption.facts).getD []

lemma assumed_iff (symbol fact : GoString) : assumed as symbol fact = true ↔ fact ∈ assumedFacts as symbol := by
  rw [assumed, assumedFacts]
  cases as.lookup symbol with
  | none | some _ => simp

/-- Symbols and facts of an assumption set that its digest keeps apart. -/
def AssumptionsOK : Prop :=
  ∀ symbol ∈ as.keys, (NulFree symbol ∧ symbol ∉ factNames) ∧ ∀ fact ∈ assumedFacts as symbol, fact ∈ factNames

def assumptionGroups : List (GoString × List GoString) :=
  (sortStrings as.keys).map fun k => (k, sortStrings (assumedFacts as k))

lemma assumptionDigest_groups : assumptionDigest H as =
    if as.keys.length = 0 then [] else hashParts H (Words.groups (assumptionGroups as)) := by
  rw [assumptionDigest, assumptionGroups, Words.groups, flatMap_map]
  rfl

end

lemma assumptionGroups_inj {as bs} (h : assumptionGroups as = assumptionGroups bs) (symbol fact : GoString) :
    fact ∈ assumedFacts as symbol → fact ∈ assumedFacts bs symbol := by
  intro hfact
  have hsym : symbol ∈ as.keys := by
    by_contra hno
    rw [assumedFacts, AList.lookup_eq_none.2 fun hm => hno (AList.mem_keys.1 hm)] at hfact
    cases hfact
  have hgroup : (symbol, sortStrings (assumedFacts as symbol)) ∈ assumptionGroups bs := by
    rw [← h]
    exact mem_map.2 ⟨symbol, mem_sortStrings.2 hsym, rfl⟩
  obtain ⟨k, -, hk⟩ := mem_map.1 hgroup
  obtain ⟨rfl, hfacts⟩ := Prod.mk.inj hk
  rw [← mem_sortStrings, hfacts, mem_sortStrings]
  exact hfact

/-- **Equal assumption digests** come from sets that assume the same. -/
theorem assumptionDigest_inj {as bs : Table GoString Assumption} (has : AssumptionsOK as)
    (hbs : AssumptionsOK bs) (h : assumptionDigest H as = assumptionDigest H bs) (symbol fact : GoString) :
    assumed as symbol fact = assumed bs symbol fact := by
  have hempty : ∀ cs : Table GoString Assumption, cs.keys.length = 0 → assumptionGroups cs = [] := by
    intro cs hcs
    rw [assumptionGroups, length_eq_zero_iff.1 hcs]
    rfl
  have hgroups : assumptionGroups as = assumptionGroups bs := by
    rw [assumptionDigest_groups, assumptionDigest_groups] at h
    split at h
    · split at h
      · rw [hempty as ‹_›, hempty bs ‹_›]
      · exact absurd h.symm (hashParts_ne_nil H _)
    split at h
    · exact absurd h (hashParts_ne_nil H _)
    have hnames : ∀ f ∈ factNames, NulFree f := by
      unfold NulFree
      decide
    have hnul : ∀ cs : Table GoString Assumption, AssumptionsOK cs →
        ∀ p ∈ Words.groups (assumptionGroups cs), 0 ∉ p := by
      intro cs hcs p hp
      obtain ⟨g, hg, hpg⟩ := Words.mem_groups.1 hp
      obtain ⟨k, hk, rfl⟩ := mem_map.1 hg
      have hkeys := hcs k (mem_sortStrings.1 hk)
      rcases hpg with rfl | hfact
      · exact hkeys.1.1
      · exact hnames p (hkeys.2 p (mem_sortStrings.1 hfact))
    have hapart : ∀ cs : Table GoString Assumption, AssumptionsOK cs → ∀ g ∈ assumptionGroups cs,
        g.1 ∉ factNames ∧ ∀ x ∈ g.2, ¬x ∉ factNames := by
      intro cs hcs g hg
      obtain ⟨k, hk, rfl⟩ := mem_map.1 hg
      have hkeys := hcs k (mem_sortStrings.1 hk)
      exact ⟨hkeys.1.2, fun x hx => not_not.2 (hkeys.2 x (mem_sortStrings.1 hx))⟩
    exact Words.groups_inj (P := fun x => x ∉ factNames) (hapart as has) (hapart bs hbs)
      (hashParts_inj H (hnul as has) (hnul bs hbs) h)
  rw [Bool.eq_iff_iff, assumed_iff, assumed_iff]
  exact ⟨assumptionGroups_inj hgroups symbol fact, assumptionGroups_inj hgroups.symm symbol fact⟩

lemma readable_assumptions {input snap cand}
    (h : Readable input snap cand) : AssumptionsOK (newAssumptionSet input.assumptions) := by
  intro symbol hsym
  obtain ⟨a, ha⟩ := Option.isSome_iff_exists.1 (AList.lookup_isSome.2 (AList.mem_keys.2 hsym))
  obtain ⟨hmem, rfl⟩ := lookup_newAssumptionSet ha
  have hok := h.assumptions a hmem
  refine ⟨⟨hok.1, hok.2.1⟩, fun fact hfact => hok.2.2 fact ?_⟩
  rw [assumedFacts, ha] at hfact
  exact hfact

/-! ## Certificates -/

section

variable {input : Input} {snap : Snapshot} {cand : Candidate}

lemma indexBy_mem {α : Type} {key : α → GoString} {l k a} (h : (indexBy key l).lookup k = some a) : a ∈ l := by
  induction l using reverseRecOn with
  | nil => exact nomatch h
  | append_singleton l b ih =>
    rw [indexBy_append, Table.lookup_insert_if] at h
    split at h
    · rw [← Option.some.inj h]
      exact mem_append_right _ mem_cons_self
    · exact mem_append_left _ (ih h)

lemma mem_dispatch {x} : x ∈ (contextOf input snap cand).dispatch ↔
    ∃ s ∈ foundSites snap cand, x = s.dispatch ∨ s.ambiguous = true ∧ x = str "ambiguous" := by
  have hdef : (contextOf input snap cand).dispatch = sortedKeys ((foundSites snap cand).flatMap fun s =>
      s.dispatch :: if s.ambiguous then [str "ambiguous"] else []) := rfl
  rw [hdef, mem_sortedKeys, mem_flatMap]
  refine exists_congr fun s => and_congr_right fun _ => ?_
  rw [mem_cons]
  split <;> simp_all

lemma facts_ok (h : Readable input snap cand) : (contextOf input snap cand).facts.OK := by
  have hop : NulFree (contextOf input snap cand).op.compatibility ∧ NulFree (contextOf input snap cand).op.kind := by
    have hdef : (contextOf input snap cand).op =
        ((indexBy Operation.id snap.operations).lookup cand.operation).getD {} := rfl
    rw [hdef]
    cases hl : (indexBy Operation.id snap.operations).lookup cand.operation with
    | none => exact ⟨not_mem_nil, not_mem_nil⟩
    | some o => exact h.op o (indexBy_mem hl)
  have hcarried : ∀ {g : CallSite → GoString}, (∀ s ∈ foundSites snap cand, Element (g s)) →
      ∀ x ∈ sortedKeys (present ((foundSites snap cand).map g)), x ≠ [] ∧ Element x := by
    intro g hg x hx
    obtain ⟨hne, s, hs, rfl⟩ := mem_carried.1 hx
    exact ⟨hne, hg s hs⟩
  refine
    { id := h.id, operation := h.operation, structure' := h.state, compatibility := hop.1, kind := hop.2
      contract := h.contract
      dispatch := fun x hx => ?_
      effects := fun x hx => ?_
      receivers := hcarried h.receiver
      contexts := hcarried h.context }
  · have hmem : x ∈ (contextOf input snap cand).dispatch := hx
    obtain ⟨s, hs, rfl | ⟨-, rfl⟩⟩ := mem_dispatch.1 hmem
    · exact ⟨(h.dispatch s hs).1, (h.dispatch s hs).2.1⟩
    · unfold Element
      decide
  have hread := mem_sortedKeys.1 hx
  obtain ⟨s, -, -, sm, hl, hmem⟩ := mem_effects.1 hread
  exact h.effects sm (indexBy_mem hl) x hmem

/-- A readable candidate is ambiguous exactly when its dispatch says so. -/
lemma ambiguous_iff (h : Readable input snap cand) : (contextOf input snap cand).sites.any CallSite.ambiguous = true ↔
      str "ambiguous" ∈ (contextOf input snap cand).dispatch := by
  rw [mem_dispatch, any_eq_true]
  refine exists_congr fun s => and_congr_right fun hs => ?_
  exact ⟨fun ha => .inr ⟨ha, rfl⟩, fun hd => hd.elim (fun heq => absurd heq.symm (h.dispatch s hs).2.2) fun ha => ha.1⟩

lemma prove_invalidation (cc : CandidateContext) : (cc.prove H).invalidation = cc.invalidation H := by
  rw [prove]
  split
  · rfl
  split <;> rfl

end

/-- Two contexts agree on all that the obligations read. -/
structure SameFacts (cc cc' : CandidateContext) : Prop where
  operation : cc.cand.operation = cc'.cand.operation
  state : cc.cand.state = cc'.cand.state
  compatibility : cc.op.compatibility = cc'.op.compatibility
  disabled : cc.op.disabled = cc'.op.disabled
  kind : cc.op.kind = cc'.op.kind
  spec : cc.spec = cc'.spec
  ambiguous : cc.sites.any CallSite.ambiguous = cc'.sites.any CallSite.ambiguous
  dispatch : cc.dispatch = cc'.dispatch
  effects : ∀ e, e ∈ cc.effects ↔ e ∈ cc'.effects
  complete : cc.effectsComplete = cc'.effectsComplete
  receivers : cc.receivers = cc'.receivers
  contexts : cc.contexts = cc'.contexts
  keyDeps : cc.keyDeps = cc'.keyDeps
  goroutine : cc.inGoroutine = cc'.inGoroutine
  contract : cc.contractDigest = cc'.contractDigest
  assumptions : ∀ symbol fact, assumed cc.assumptions symbol fact = assumed cc'.assumptions symbol fact

namespace SameFacts

variable {cc cc' : CandidateContext}

section

variable (h : SameFacts cc cc')
include h

lemma operationEffect : cc.operationEffect = cc'.operationEffect := by
  simp only [CandidateContext.operationEffect, h.spec, h.kind]

lemma barrierEffects : cc.barrierEffects = cc'.barrierEffects := by
  rw [CandidateContext.barrierEffects, CandidateContext.barrierEffects, sortedKeys_inj]
  intro e
  rw [mem_filter, mem_filter, h.effects]

lemma partitionLoop (spec : OperationSpec) (dims : List GoString) :
    (cc.partitionLoop H spec dims).status = (cc'.partitionLoop H spec dims).status := by
  induction dims with
  | nil => rfl
  | cons dim dims ih =>
    simp only [CandidateContext.partitionLoop, h.receivers]
    split
    · split
      · exact ih
      · rfl
    · rfl

/-- **Equal facts give equal outcomes**, obligation by obligation. -/
theorem status (o : ObligationID) : (cc.evaluate H o).status = (cc'.evaluate H o).status := by
  have hsym : cc.keySymbol = cc'.keySymbol := by
    rw [keySymbol, keySymbol, h.operation]
  cases o
  case partitionStable =>
    simp only [evaluate, oblPartitionStable, h.spec]
    cases cc'.spec with
    | none => rfl
    | some spec => exact h.partitionLoop spec spec.required
  -- the other evaluators branch on equal facts
  all_goals simp only [evaluate, oblSignatureCompatible, oblOperationEnabled, oblResultContract, oblReadCategory,
    oblFreshnessNeutral, oblTargetResolved, oblNoObservableBarrier, oblEarlyExitReplayable, oblKeyIndependent,
    oblNoLoopCarried, oblReceiverInvariant, oblContextInvariant, oblDuplicateMapping, oblFirstErrorOrder,
    oblNoDeferBarrier, oblNoRecoverBoundary, oblNoNewConcurrency, oblFanoutEnvelope, hsym, h.compatibility, h.disabled,
    h.spec, h.operationEffect, h.ambiguous, h.complete, h.barrierEffects, h.keyDeps, h.assumptions, h.state,
    h.receivers, h.contexts, h.effects, h.goroutine]
  all_goals repeat' split
  all_goals rfl

end

end SameFacts

lemma proveAll_digest {ctxErr : ℕ → Option GoString} {input snap report}
    (hsnap : input.snapshot = some snap) (hrun : proveAll H ctxErr input = .ok report) :
    report.analysisDigest = snap.buildDigest := by
  rw [proveAll, hsnap] at hrun
  simp only at hrun
  split at hrun
  · simp at hrun
  · injection hrun with hrun
    rw [← hrun]

/-- A certificate with the run it comes from: the candidate is within the budget and its strings are readable. -/
structure Certified (H : Sha256) where
  ctxErr : ℕ → Option GoString
  input : Input
  snap : Snapshot
  report : Report
  pos : ℕ
  cand : Candidate
  proof : CandidateProof
  snapshot : input.snapshot = some snap
  run : proveAll H ctxErr input = .ok report
  candidate : snap.candidates[pos]? = some cand
  certificate : report.candidateProofs[pos]? = some proof
  budget : pos < input.limits.withDefaults.maxCandidates
  readable : Readable input snap cand

/-- What a certificate rests on. -/
inductive Basis where
  | analysisDigest
  | operation
  | spec
  | dispatch
  | effects
  | completeness
  | receivers
  | contexts
  | keyDependencies
  | goroutine
  | contract
  | assumptions

/-- The facts that go into the invalidation set. -/
def Basis.bound : Basis → Bool
  | .analysisDigest | .spec | .keyDependencies | .goroutine => false
  | _ => true

namespace Certified

variable (r r' : Certified H)

/-- The facts the obligations read. -/
def context : CandidateContext := contextOf r.input r.snap r.cand

/-- Two certificates rest on the same fact. -/
def Same : Basis → Prop
  | .analysisDigest => r.report.analysisDigest = r'.report.analysisDigest
  | .operation => (r.cand.operation = r'.cand.operation ∧ r.cand.state = r'.cand.state) ∧
    r.context.op.compatibility = r'.context.op.compatibility ∧ r.context.op.disabled = r'.context.op.disabled ∧
    r.context.op.kind = r'.context.op.kind
  | .spec => r.context.spec = r'.context.spec
  | .dispatch => r.context.dispatch = r'.context.dispatch ∧
    r.context.sites.any CallSite.ambiguous = r'.context.sites.any CallSite.ambiguous
  | .effects => ∀ e, e ∈ r.context.effects ↔ e ∈ r'.context.effects
  | .completeness => r.context.effectsComplete = r'.context.effectsComplete
  | .receivers => r.context.receivers = r'.context.receivers
  | .contexts => r.context.contexts = r'.context.contexts
  | .keyDependencies => r.context.keyDeps = r'.context.keyDeps
  | .goroutine => r.context.inGoroutine = r'.context.inGoroutine
  | .contract => r.input.contractDigest = r'.input.contractDigest
  | .assumptions => ∀ symbol fact,
    assumed r.context.assumptions symbol fact = assumed r'.context.assumptions symbol fact

variable {r r'}

lemma invalidation_eq (r : Certified H) : r.proof.invalidation = r.context.invalidation H := by
  obtain ⟨c, hc, hproof⟩ := proveAll_at r.snapshot r.run r.certificate
  obtain rfl : c = r.cand := Option.some.inj (hc.symm.trans r.candidate)
  rw [hproof, proofAt, if_neg (not_le.2 r.budget), prove_invalidation]
  rfl

/-- Equal sets bind the facts that go into them. -/
lemma same_of_bound (h : r.proof.invalidation = r'.proof.invalidation) {f : Basis} (hf : f.bound = true) :
    Same r r' f := by
  rw [invalidation_eq, invalidation_eq] at h
  have hagree := candidateDigest_inj (facts_ok r.readable) (facts_ok r'.readable)
    (congrArg InvalidationSet.candidateDigest h)
  -- sorted lists without repetition are equal when they have the same elements
  have hsets : ∀ {l k : List GoString}, (∀ x, x ∈ sortedKeys l ↔ x ∈ sortedKeys k) → sortedKeys l = sortedKeys k := by
    intro l k hlk
    rw [sortedKeys_inj]
    intro x
    rw [← mem_sortedKeys, hlk, mem_sortedKeys]
  have hdisp : r.context.dispatch = r'.context.dispatch := hsets hagree.dispatch
  cases f with
  | analysisDigest | spec | keyDependencies | goroutine => cases hf
  | operation =>
    exact ⟨⟨hagree.operation, hagree.structure'⟩, hagree.compatibility, hagree.disabled, hagree.kind⟩
  | dispatch =>
    refine ⟨hdisp, ?_⟩
    rw [Bool.eq_iff_iff, context, context, ambiguous_iff r.readable, ambiguous_iff r'.readable]
    exact iff_of_eq (congrArg (str "ambiguous" ∈ ·) hdisp)
  | effects =>
    intro e
    have he := hagree.effects e
    rwa [facts, facts, mem_sortedKeys, mem_sortedKeys] at he
  | completeness => exact hagree.complete
  | receivers => exact hsets hagree.receivers
  | contexts => exact hsets hagree.contexts
  | contract => exact congrArg InvalidationSet.contractDigest h
  | assumptions =>
    exact assumptionDigest_inj (readable_assumptions r.readable) (readable_assumptions r'.readable)
      (congrArg InvalidationSet.assumptionDigest h)

lemma sameFacts (h : ∀ f, Same r r' f) : SameFacts r.context r'.context :=
  { operation := (h .operation).1.1, state := (h .operation).1.2
    compatibility := (h .operation).2.1, disabled := (h .operation).2.2.1, kind := (h .operation).2.2.2
    spec := h .spec, ambiguous := (h .dispatch).2, dispatch := (h .dispatch).1, effects := h .effects
    complete := h .completeness, receivers := h .receivers, contexts := h .contexts
    keyDeps := h .keyDependencies, goroutine := h .goroutine, contract := h .contract, assumptions := h .assumptions }

/-- The first candidate of a run that nothing cancels. -/
lemma of_first (H : Sha256) {input snap cand} (hsnap : input.snapshot = some snap)
    (hcand : snap.candidates[0]? = some cand) (hbudget : 0 < input.limits.withDefaults.maxCandidates)
    (hread : Readable input snap cand) : ∃ r : Certified H, r.input = input ∧ r.snap = snap ∧ r.cand = cand := by
  obtain ⟨report, hrun, hcp⟩ := proveAll_uncancelled H hsnap hcand
  exact ⟨⟨_, input, snap, report, 0, cand, _, hsnap, hrun, hcand, hcp, hbudget, hread⟩, rfl, rfl, rfl⟩

end Certified

/-! ### Facts that are left out -/

/-- The run over a loop with another call site, another build or another contract. -/
def changedInput (build : GoString) (site : CallSite) (spec : OperationSpec) : Input :=
  { loopInput { loopSnapshot with buildDigest := build, callSites := [site] } with
    specs := (∅ : Table GoString OperationSpec).insert (str "get") spec }

def changedContext (build : GoString) (site : CallSite) (spec : OperationSpec) : CandidateContext :=
  contextOf (changedInput build site spec) { loopSnapshot with buildDigest := build, callSites := [site] } loopCandidate

lemma changed_readable (build : GoString) {site : CallSite} (spec : OperationSpec)
    (hdispatch : site.dispatch = loopSite.dispatch) (hreceiver : site.receiver = loopSite.receiver)
    (hcontext : site.contextArg = loopSite.contextArg) : Readable (changedInput build site spec)
      { loopSnapshot with buildDigest := build, callSites := [site] } loopCandidate := by
  have hfound : ∀ s ∈ foundSites { loopSnapshot with buildDigest := build, callSites := [site] } loopCandidate,
      s = site := by
    intro s hs
    obtain ⟨id, -, hl⟩ := mem_filterMap.1 hs
    exact mem_singleton.1 (indexBy_mem hl)
  refine ⟨?_, ?_, ?_, ?_, ?_, fun s hs => ?_, fun s hs => ?_, fun s hs => ?_, ?_, nofun⟩
  case refine_4 => exact (by decide : (0 : UInt8) ∉ str "k1")
  case refine_6 => rw [hfound s hs, hdispatch]; simp only [Element]; decide
  case refine_7 => rw [hfound s hs, hreceiver]; simp only [Element]; decide
  case refine_8 => rw [hfound s hs, hcontext]; simp only [Element]; decide
  all_goals simp only [NulFree, Element]
  all_goals decide

/-- The contract of the operation of the loop. -/
def loopSpec : OperationSpec := { kind := .readOnly }

/-- Two runs over the loop whose digests are taken over the same parts. -/
lemma changed_pair (H : Sha256) (build : GoString) (site : CallSite) (spec : OperationSpec)
    (hdispatch : site.dispatch = loopSite.dispatch) (hreceiver : site.receiver = loopSite.receiver)
    (hcontext : site.contextArg = loopSite.contextArg)
    (hparts : digestParts (changedContext (str "b1") loopSite loopSpec).facts =
      digestParts (changedContext build site spec).facts) :
    ∃ r r' : Certified H, r.proof.invalidation = r'.proof.invalidation ∧
      (r.context = changedContext (str "b1") loopSite loopSpec ∧ r.report.analysisDigest = str "b1") ∧
      r'.context = changedContext build site spec ∧ r'.report.analysisDigest = build := by
  have hbudget : ∀ build site spec, 0 < (changedInput build site spec).limits.withDefaults.maxCandidates :=
    fun _ _ _ => (by decide : (0 : ℤ) < 5000)
  obtain ⟨r, hi, hs, hc⟩ := Certified.of_first H rfl rfl (hbudget _ _ _)
    (changed_readable (str "b1") loopSpec (show loopSite.dispatch = loopSite.dispatch from rfl) rfl rfl)
  obtain ⟨r', hi', hs', hc'⟩ := Certified.of_first H rfl rfl (hbudget _ _ _)
    (changed_readable build spec hdispatch hreceiver hcontext)
  have hr : r.context = changedContext (str "b1") loopSite loopSpec := by
    rw [Certified.context, hi, hs, hc]
    rfl
  have hr' : r'.context = changedContext build site spec := by
    rw [Certified.context, hi', hs', hc']
    rfl
  refine ⟨r, r', ?_, ⟨hr, ?_⟩, hr', ?_⟩
  · rw [r.invalidation_eq, r'.invalidation_eq, hr, hr', CandidateContext.invalidation, CandidateContext.invalidation,
      candidateDigest, candidateDigest, hparts]
    rfl
  · rw [proveAll_digest r.snapshot r.run, hs]
  · rw [proveAll_digest r'.snapshot r'.run, hs']

/-- Nothing else is bound. -/
lemma bound_of_same (H : Sha256) (f : Basis)
    (h : ∀ r r' : Certified H, r.proof.invalidation = r'.proof.invalidation → r.Same r' f) : f.bound = true := by
  cases f with
  | analysisDigest =>
    obtain ⟨r, r', hinv, ⟨-, hb⟩, -, hb'⟩ := changed_pair H (str "b2") loopSite loopSpec rfl rfl rfl rfl
    have hsame : r.report.analysisDigest = r'.report.analysisDigest := h r r' hinv
    rw [hb, hb'] at hsame
    exact absurd hsame (by decide)
  | spec =>
    obtain ⟨r, r', hinv, ⟨hr, -⟩, hr', -⟩ := changed_pair H (str "b1") loopSite
      { loopSpec with freshnessDependent := true } rfl rfl rfl rfl
    have hsame : r.context.spec = r'.context.spec := h r r' hinv
    rw [hr, hr'] at hsame
    exact absurd (congrArg (Option.map OperationSpec.freshnessDependent) hsame) (by decide)
  | keyDependencies =>
    obtain ⟨r, r', hinv, ⟨hr, -⟩, hr', -⟩ := changed_pair H (str "b1")
      { loopSite with keyDependency := keyResultDependent } loopSpec rfl rfl rfl (by decide +kernel)
    have hsame : r.context.keyDeps = r'.context.keyDeps := h r r' hinv
    rw [hr, hr'] at hsame
    exact absurd hsame (by decide)
  | goroutine =>
    obtain ⟨r, r', hinv, ⟨hr, -⟩, hr', -⟩ := changed_pair H (str "b1")
      { loopSite with inGoroutine := true } loopSpec rfl rfl rfl (by decide +kernel)
    have hsame : r.context.inGoroutine = r'.context.inGoroutine := h r r' hinv
    rw [hr, hr'] at hsame
    exact absurd hsame (by decide)
  | _ => rfl

/-- **What a certificate is bound to.** Equal invalidation sets mean that a fact is the same in both runs, for all runs
that evaluate the candidate and can be read back, exactly for the facts that go into the set: not for the digest of the
analysis, the contract of the operation, the key dependencies and the goroutine flag. If these four are the same as well,
every obligation has the same outcome. -/
theorem certificate_binds (H : Sha256) :
    (∀ f : Basis, (∀ r r' : Certified H, r.proof.invalidation = r'.proof.invalidation → r.Same r' f) ↔ f.bound = true) ∧
    ∀ r r' : Certified H, r.proof.invalidation = r'.proof.invalidation → (∀ f, f.bound = false → r.Same r' f) →
      ∀ o, (r.context.evaluate H o).status = (r'.context.evaluate H o).status := by
  refine ⟨fun f => ⟨bound_of_same H f, fun hf r r' h => Certified.same_of_bound h hf⟩, fun r r' h hrest => ?_⟩
  refine (Certified.sameFacts fun f => ?_).status
  cases hf : f.bound with
  | true => exact Certified.same_of_bound h hf
  | false => exact hrest f hf

/-- The same call on another line of the file: all obligations have the same outcome. -/
theorem certificate_binds_moved : ∃ r r' : Certified Sha256.plain, r.context.location ≠ r'.context.location ∧
    ∀ o, (r.context.evaluate Sha256.plain o).status = (r'.context.evaluate Sha256.plain o).status := by
  obtain ⟨r, r', hinv, ⟨hr, hb⟩, hr', hb'⟩ := changed_pair Sha256.plain (str "b1")
    { loopSite with location := str "a.go:9" } loopSpec rfl rfl rfl (by decide +kernel)
  refine ⟨r, r', by rw [hr, hr']; decide, (certificate_binds Sha256.plain).2 r r' hinv fun f hf => ?_⟩
  cases f with
  | analysisDigest => exact hb.trans hb'.symm
  | spec | keyDependencies | goroutine =>
    unfold Certified.Same
    rw [hr, hr']
    rfl
  | _ => cases hf

/-- The analysed program changes: another build, in which the key depends on an earlier result. An
obligation that was satisfied is violated, but the invalidation set is the same. -/
theorem unbound_facts :
    let changed : Snapshot := { loopSnapshot with
      buildDigest := str "b2", callSites := [{ loopSite with keyDependency := keyResultDependent }] }
    let old := contextOf (loopInput loopSnapshot) loopSnapshot loopCandidate
    let new := contextOf (loopInput changed) changed loopCandidate
    (recordsOf (loopInput loopSnapshot)).map CandidateProof.invalidation =
        (recordsOf (loopInput changed)).map CandidateProof.invalidation ∧
      (recordsOf (loopInput loopSnapshot)).map CandidateProof.id =
        (recordsOf (loopInput changed)).map CandidateProof.id ∧
      loopSnapshot.buildDigest ≠ changed.buildDigest ∧ old.keyDeps ≠ new.keyDeps ∧
      (old.evaluate Sha256.plain .keyIndependent).status = .satisfied ∧
      (new.evaluate Sha256.plain .keyIndependent).status = .violated := by
  intro changed old new
  refine ⟨by decide +kernel, by decide, by decide, by decide +kernel, by decide +kernel, by decide +kernel⟩

end BatchWeaver.Prover
