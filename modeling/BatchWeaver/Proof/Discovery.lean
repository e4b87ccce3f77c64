import BatchWeaver.Spec.Discovery

/-!
# Call sites and candidates

* `attribution_deterministic`: the call sites do not depend on the order of the maps exactly when the operations that
  fit an interface call are one.
* `attribution_varies`: two operations with a method of one name and signature.
* `candidates_partition`: the candidates are the groups by operation and function exactly when names tell functions
  apart.
* `candidates_merged`: functions of one name in two packages.
-/

namespace BatchWeaver.Analysis

open Prover List

/-! ## Attribution -/

section

variable {Sig : Type} [DecidableEq Sig] {scalarFuncs : Table GoString (ScalarFunc Sig)}

/-- All the symbols that fit an interface call stand for one operation. -/
def Unambiguous (scalarFuncs : Table GoString (ScalarFunc Sig)) (toOp : Table GoString GoString) (t : Target Sig) :
    Prop :=
  ∀ method sig, t = .invoke method sig → ∀ s ∈ toOp.keys, ∀ s' ∈ toOp.keys,
    fits scalarFuncs method sig s = true → fits scalarFuncs method sig s' = true → toOp.lookup s = toOp.lookup s'

lemma matchOperation_perm {toOp order order' t}
    (h : order.Perm toOp.keys) (h' : order'.Perm toOp.keys) (hone : Unambiguous scalarFuncs toOp t) :
    matchOperation scalarFuncs toOp order t = matchOperation scalarFuncs toOp order' t := by
  cases t with
  | static symbol | other => rfl
  | invoke method sig =>
    have hfind : (order.find? (fits scalarFuncs method sig)).bind toOp.lookup =
        (order'.find? (fits scalarFuncs method sig)).bind toOp.lookup := by
      cases hs : order.find? (fits scalarFuncs method sig) with
      | none =>
        have hnone : order'.find? (fits scalarFuncs method sig) = none := by
          rw [find?_eq_none] at hs ⊢
          exact fun s hmem => hs s ((h.trans h'.symm).mem_iff.2 hmem)
        rw [hnone]
      | some s =>
        have hmem := mem_of_find?_eq_some hs
        have hfit := find?_some hs
        obtain ⟨s', hs'⟩ := Option.isSome_iff_exists.1 (find?_isSome.2 ⟨s, (h.trans h'.symm).mem_iff.1 hmem, hfit⟩)
        rw [hs', Option.bind_some, Option.bind_some]
        exact hone method sig rfl s (h.mem_iff.1 hmem) s' (h'.mem_iff.1 (mem_of_find?_eq_some hs')) hfit (find?_some hs')
    rw [matchOperation, hfind, matchOperation]

/-- The symbol that the map yields first decides, if it fits. -/
lemma matchOperation_first {toOp : Table GoString GoString} {method sig s} (order)
    (hs : s ∈ toOp.keys) (hfit : fits scalarFuncs method sig s = true) :
    ∃ id, toOp.lookup s = some id ∧
      matchOperation scalarFuncs toOp (s :: order) (.invoke method sig) = (id, dispatchInterface, 0) := by
  obtain ⟨id, hid⟩ := Option.isSome_iff_exists.1 (AList.lookup_isSome.2 (AList.mem_keys.1 hs))
  exact ⟨id, hid, by simp [matchOperation, hfit, hid]⟩

/-- **Attribution is deterministic** exactly when the operations that fit an interface call are one. -/
theorem attribution_deterministic (H : Sha256) (scalarFuncs : Table GoString (ScalarFunc Sig))
    (funcs : List (AppFunc Sig)) (ops : List DeclaredOp) :
    (∀ orders orders' : ℕ → List GoString, (∀ n, (orders n).Perm (scalarToOp ops).keys) →
      (∀ n, (orders' n).Perm (scalarToOp ops).keys) →
      (∀ fn ∈ funcs, ∀ call ∈ fn.calls, ∀ n m, matchOperation scalarFuncs (scalarToOp ops) (orders n) call.target =
        matchOperation scalarFuncs (scalarToOp ops) (orders' m) call.target) ∧
      callSiteDiscovery H scalarFuncs funcs ops orders = callSiteDiscovery H scalarFuncs funcs ops orders') ↔
    ∀ fn ∈ funcs, ∀ call ∈ fn.calls, Unambiguous scalarFuncs (scalarToOp ops) call.target := by
  constructor
  · intro hdet fn hfn call hcall method sig ht s hs s' hs' hfit hfit'
    have hsame := (hdet (fun _ => s :: (scalarToOp ops).keys.erase s) (fun _ => s' :: (scalarToOp ops).keys.erase s')
      (fun _ => (perm_cons_erase hs).symm) (fun _ => (perm_cons_erase hs').symm)).1 fn hfn call hcall 0 0
    obtain ⟨id, hid, hmatch⟩ := matchOperation_first ((scalarToOp ops).keys.erase s) hs hfit
    obtain ⟨id', hid', hmatch'⟩ := matchOperation_first ((scalarToOp ops).keys.erase s') hs' hfit'
    rw [ht, hmatch, hmatch', Prod.mk.injEq] at hsame
    rw [hid, hid', hsame.1]
  intro hone orders orders' h h'
  have hmatch := fun fn hfn call hcall n m => matchOperation_perm (h n) (h' m) (hone fn hfn call hcall)
  refine ⟨hmatch, ?_⟩
  have hfold : (numberedCalls funcs).foldl (discover H scalarFuncs ops orders) [] =
      (numberedCalls funcs).foldl (discover H scalarFuncs ops orders') [] := by
    refine foldl_ext _ _ _ fun sites x hx => ?_
    obtain ⟨y, n⟩ := x
    obtain ⟨fn, hfn, hy⟩ := mem_flatMap.1 (fst_mem_of_mem_zipIdx hx)
    obtain ⟨call, hcall, rfl : _ = y⟩ := mem_map.1 hy
    simp only [discover]
    rw [hmatch fn hfn call hcall n n]
  rw [callSiteDiscovery, hfold, callSiteDiscovery]

end

/-- The scalar functions `a.Get` and `b.Get`, with one signature. -/
def twoGets : Table GoString (ScalarFunc Unit) :=
  ((∅ : Table _ _).insert (str "a.Get") ⟨some (str "Get"), some (), true⟩).insert (str "b.Get")
    ⟨some (str "Get"), some (), true⟩

/-- The operations of the two symbols. -/
def getOps (a b : GoString) : List DeclaredOp :=
  [{ id := a, scalarSymbol := str "a.Get" }, { id := b, scalarSymbol := str "b.Get" }]

def getCall : List (AppFunc Unit) :=
  [⟨str "main.f", str "f", false, [⟨.invoke (str "Get") (some ()), str "m.go:1", false, 0, fun _ => ⟨[], [], []⟩⟩]⟩]

/-- Both symbols fit the call and stand for one operation. -/
theorem attribution_deterministic_shared :
    let ops := getOps (str "op") (str "op")
    callSiteDiscovery Sha256.plain twoGets getCall ops (fun _ => [str "a.Get", str "b.Get"]) =
      callSiteDiscovery Sha256.plain twoGets getCall ops (fun _ => [str "b.Get", str "a.Get"]) := by
  intro ops
  refine ((attribution_deterministic Sha256.plain twoGets getCall ops).2
    (fun fn hfn call hcall method sig _ s hs s' hs' _ _ => ?_) _ _ (fun _ => by decide) (fun _ => by decide)).2
  have hall : ∀ s ∈ (scalarToOp ops).keys, (scalarToOp ops).lookup s = some (str "op") := by decide
  rw [hall s hs, hall s' hs']

/-- **An interface call that fits two operations** goes to the one that the map yields first. -/
theorem attribution_varies :
    let ops := getOps (str "opA") (str "opB")
    let sites := fun order => (callSiteDiscovery Sha256.plain twoGets getCall ops fun _ => order).1.map fun s => s.operation
    [str "a.Get", str "b.Get"].Perm (scalarToOp ops).keys ∧ [str "b.Get", str "a.Get"].Perm (scalarToOp ops).keys ∧
    sites [str "a.Get", str "b.Get"] = [str "opA"] ∧ sites [str "b.Get", str "a.Get"] = [str "opB"] := by
  decide

/-! ## Candidates -/

section

variable {H : Sha256} {ops : List Operation} {sites : List Site}

lemma mem_buildCandidates {c} :
    c ∈ buildCandidates H ops sites ↔ ∃ s ∈ sites, c = candidateOf H ops sites s.groupKey := by
  simp only [buildCandidates, mem_insertionSort, mem_map, mem_dedup, exists_exists_and_eq_and]
  exact exists_congr fun s => and_congr_right fun _ => eq_comm

/-- The parts of a candidate's digest. -/
def Site.candidateParts (H : Sha256) (ops : List Operation) (sites : List Site) (s : Site) : List GoString :=
  [s.operation, s.enclosingFunction, (candidateOf H ops sites s.groupKey).state]

/-- An identifier stands for sites of one group, names tell the functions of an operation apart, and the groups differ
in what is digested. -/
structure Named (H : Sha256) (ops : List Operation) (sites : List Site) : Prop where
  ids : ∀ s ∈ sites, ∀ t ∈ sites, s.id = t.id → s.groupKey = t.groupKey
  functions : ∀ s ∈ sites, ∀ t ∈ sites, s.operation = t.operation →
    (s.enclosingFunction = t.enclosingFunction ↔ s.enclosingFunctionID = t.enclosingFunctionID)
  parts : ∀ s ∈ sites, ∀ t ∈ sites, Words.terminate 0 (s.candidateParts H ops sites) =
    Words.terminate 0 (t.candidateParts H ops sites) → s.groupKey = t.groupKey

lemma mem_callSites {s} (hs : s ∈ sites) : s.id ∈ (candidateOf H ops sites s.groupKey).callSites := by
  rw [candidateOf, mem_sortStrings, mem_map]
  exact ⟨s, mem_filter.2 ⟨hs, decide_eq_true rfl⟩, rfl⟩

lemma groupKey_of_mem_callSites (h : ∀ s ∈ sites, ∀ t ∈ sites, s.id = t.id → s.groupKey = t.groupKey) {s} (hs : s ∈ sites)
    {k} (hid : s.id ∈ (candidateOf H ops sites k).callSites) : s.groupKey = k := by
  rw [candidateOf, mem_sortStrings, mem_map] at hid
  obtain ⟨t, ht, hid⟩ := hid
  obtain ⟨hmem, hkey⟩ := mem_filter.1 ht
  rw [h s hs t hmem hid.symm]
  exact of_decide_eq_true hkey

lemma candidateOf_inj {k k'} (h : candidateOf H ops sites k = candidateOf H ops sites k') : k = k' :=
  Prod.ext (congrArg (fun c => c.operation) h) (congrArg (fun c => c.structuralContext) h)

lemma candidateOf_id_eq_iff {s t : Site} :
    (candidateOf H ops sites s.groupKey).id = (candidateOf H ops sites t.groupKey).id ↔
      Words.terminate 0 (s.candidateParts H ops sites) = Words.terminate 0 (t.candidateParts H ops sites) := by
  have hid : ∀ u : Site, (candidateOf H ops sites u.groupKey).id =
      str "bwcand_" ++ hashParts H (str "candidate" :: u.candidateParts H ops sites) := fun _ => rfl
  rw [hid, hid, append_cancel_left_eq, hashParts_eq_iff, Words.terminate_cons, Words.terminate_cons,
    append_cancel_left_eq, cons_inj_right]

/-- Two sites are in one candidate when their groups are one. -/
lemma same_candidate_iff (h : ∀ s ∈ sites, ∀ t ∈ sites, s.id = t.id → s.groupKey = t.groupKey) {s t} (hs : s ∈ sites)
    (ht : t ∈ sites) : (∃ c ∈ buildCandidates H ops sites, s.id ∈ c.callSites ∧ t.id ∈ c.callSites) ↔
      s.groupKey = t.groupKey := by
  constructor
  · rintro ⟨c, hc, hids, hidt⟩
    obtain ⟨u, -, rfl⟩ := mem_buildCandidates.1 hc
    rw [groupKey_of_mem_callSites h hs hids, groupKey_of_mem_callSites h ht hidt]
  · intro heq
    exact ⟨_, mem_buildCandidates.2 ⟨s, hs, rfl⟩, mem_callSites hs, heq ▸ mem_callSites ht⟩

lemma ids_nodup_iff : ((buildCandidates H ops sites).map fun c => c.id).Nodup ↔
    ∀ s ∈ sites, ∀ t ∈ sites, Words.terminate 0 (s.candidateParts H ops sites) =
      Words.terminate 0 (t.candidateParts H ops sites) → s.groupKey = t.groupKey := by
  have hkeys : ∀ k, k ∈ ((sites.map Site.groupKey).dedup.insertionSort fun a b => a.1 < b.1 ∨ a.1 = b.1 ∧ a.2 ≤ b.2) ↔
      ∃ s ∈ sites, s.groupKey = k := fun k => by rw [mem_insertionSort, mem_dedup, mem_map]
  rw [buildCandidates, ((perm_insertionSort _ _).map _).nodup_iff, map_map,
    nodup_map_iff_inj_on ((perm_insertionSort _ _).nodup_iff.2 (nodup_dedup _))]
  constructor
  · intro hinj s hs t ht hparts
    exact hinj _ ((hkeys _).2 ⟨s, hs, rfl⟩) _ ((hkeys _).2 ⟨t, ht, rfl⟩) (candidateOf_id_eq_iff.2 hparts)
  · intro hparts k hk k' hk' heq
    obtain ⟨s, hs, rfl⟩ := (hkeys k).1 hk
    obtain ⟨t, ht, rfl⟩ := (hkeys k').1 hk'
    exact hparts s hs t ht (candidateOf_id_eq_iff.1 heq)

/-- **Candidates partition the call sites** by operation and function, and have identifiers of their own, exactly when
names tell functions apart and the digested parts tell groups apart. -/
theorem candidates_partition (H : Sha256) (ops : List Operation) (sites : List Site) :
    ((∀ s ∈ sites, ∃! c, c ∈ buildCandidates H ops sites ∧ s.id ∈ c.callSites) ∧
      (∀ s ∈ sites, ∀ t ∈ sites, (∃ c ∈ buildCandidates H ops sites, s.id ∈ c.callSites ∧ t.id ∈ c.callSites) ↔
        s.operation = t.operation ∧ s.enclosingFunctionID = t.enclosingFunctionID) ∧
      ((buildCandidates H ops sites).map fun c => c.id).Nodup) ↔
    Named H ops sites := by
  have hkey : ∀ s t : Site, s.groupKey = t.groupKey ↔
      s.operation = t.operation ∧ s.enclosingFunction = t.enclosingFunction := fun s t => by
    rw [Site.groupKey, Site.groupKey, Prod.mk.injEq]
  constructor
  · rintro ⟨hone, hsame, hids⟩
    have hgroup : ∀ s ∈ sites, ∀ t ∈ sites, s.id = t.id → s.groupKey = t.groupKey := by
      intro s hs t ht hid
      refine candidateOf_inj ((hone s hs).unique ⟨mem_buildCandidates.2 ⟨s, hs, rfl⟩, mem_callSites hs⟩
        ⟨mem_buildCandidates.2 ⟨t, ht, rfl⟩, ?_⟩)
      rw [hid]
      exact mem_callSites ht
    refine ⟨hgroup, fun s hs t ht hop => ?_, ids_nodup_iff.1 hids⟩
    have hiff := (same_candidate_iff hgroup hs ht).symm.trans (hsame s hs t ht)
    rw [hkey] at hiff
    exact (and_congr_right_iff.1 hiff) hop
  · intro h
    refine ⟨fun s hs => ?_, fun s hs t ht => ?_, ids_nodup_iff.2 h.parts⟩
    · refine ⟨_, ⟨mem_buildCandidates.2 ⟨s, hs, rfl⟩, mem_callSites hs⟩, ?_⟩
      rintro c ⟨hc, hid⟩
      obtain ⟨t, -, rfl⟩ := mem_buildCandidates.1 hc
      rw [groupKey_of_mem_callSites h.ids hs hid]
    · rw [same_candidate_iff h.ids hs ht, hkey]
      exact and_congr_right fun hop => h.functions s hs t ht hop

end

/-- A direct call in a function of a package. -/
def getSite (id fn display : GoString) : Site where
  id := id
  location := id
  enclosingFunctionID := fn
  dispatch := dispatchDirect
  targets := 1
  contextArg := []
  keyDependency := []
  receiver := []
  operation := str "get"
  enclosingFunction := display
  loopDepth := 0

/-- Two calls in one function and one in another. -/
def namedSites : List Site :=
  [getSite (str "s1") (str "a.Load") (str "Load"), getSite (str "s2") (str "a.Load") (str "Load"),
    getSite (str "s3") (str "a.Save") (str "Save")]

theorem candidates_partition_three :
    ((buildCandidates Sha256.plain [] namedSites).map fun c => c.id).Nodup :=
  ((candidates_partition Sha256.plain [] namedSites).2 ⟨by decide, by decide, by decide⟩).2.2

/-- **Functions of one name are merged**: the single calls of two packages become siblings. -/
theorem candidates_merged :
    let s := getSite (str "s1") (str "a.Load") (str "Load")
    let t := getSite (str "s2") (str "b.Load") (str "Load")
    s.enclosingFunctionID ≠ t.enclosingFunctionID ∧
    ((buildCandidates Sha256.plain [] [s, t]).map fun c => (c.callSites, c.state)) =
      [([str "s1", str "s2"], statePotentialSiblings)] ∧
    ((buildCandidates Sha256.plain [] [s]).map fun c => (c.callSites, c.state)) = [([str "s1"], stateDirectIsolated)] := by
  decide

end BatchWeaver.Analysis
