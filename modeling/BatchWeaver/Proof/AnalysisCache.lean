import BatchWeaver.Proof.SourceDigest

/-!
# The analysis cache is content-addressed

* `cache_sound`: as long as no file changes while a request is between the start of its digest and the end of its
  analysis, everything in the cache is what a fresh analysis would return.
* `content_addressed`: then the sources that an analysis reads have the digest of its key, and every payload that a
  request gets is that of a fresh analysis of any workspace with the request's digest.
* `stale_payload`: a file that changes in between leaves a payload of other sources under the key.
-/

namespace BatchWeaver.Daemon

open List

variable {H : Sha256} {E : Env}

/-- The digest that a request has come to. -/
def Phase.digest : Phase → Option GoString
  | .walking _ => none
  | .keyed d => some d
  | .waiting d _ => some d
  | .loading d => some d
  | .loaded d _ => some d
  | .computing d _ _ => some d
  | .computed d _ _ => some d
  | .inserted d _ _ => some d
  | .finishing d _ _ => some d
  | .done d _ => some d
  | .failed _ => none

/-- A request that is between the start of its digest and the end of its analysis. -/
def Phase.reading : Phase → Bool
  | .walking _ => true
  | .keyed _ => true
  | .loading _ => true
  | .computing _ _ _ => true
  | _ => false

/-- A payload that an analysis returns for sources with the digest of the key. -/
def Genuine (H : Sha256) (E : Env) (key value : GoString) : Prop :=
  ∃ (params : AnalysisParams) (w : Workspace) (d : GoString), Tidy E params ∧ key = keyOf H E params d ∧
    HasDigest H E params.overlay w d ∧ (params.program E).run (view E params.overlay w) = .ok value

/-- The request `leader` computes the key. -/
def Led (H : Sha256) (E : Env) (calls : List Call) (key : GoString) (leader : ℕ) : Prop :=
  ∃ call d, calls[leader]? = some call ∧ call.phase.digest = some d ∧ keyOf H E call.params d = key

/-- What is known of a request in a workspace `w`. -/
def PhaseOK (H : Sha256) (E : Env) (w : Workspace) (calls : List Call) (params : AnalysisParams) : Phase → Prop
  | .walking k => Relation.ReflTransGen (WalkStep E w) (startWalk params.overlay) k
  | .keyed d => HasDigest H E params.overlay w d
  | .waiting d leader => Led H E calls (keyOf H E params d) leader
  | .loading d => HasDigest H E params.overlay w d
  | .loaded d value => Genuine H E (keyOf H E params d) value
  | .computing d seen rest =>
    HasDigest H E params.overlay w d ∧ Follows (view E params.overlay w) (params.program E) seen rest
  | .computed d seen value | .inserted d seen value =>
    ∃ w', HasDigest H E params.overlay w' d ∧ (∀ pc ∈ seen, view E params.overlay w' pc.1 = pc.2) ∧
      (params.program E).run (view E params.overlay w') = .ok value
  | .finishing d (.ok value) _ => Genuine H E (keyOf H E params d) value
  | .finishing _ (.error _) _ => True
  | .done d (.ok r) => Genuine H E (keyOf H E params d) r.1
  | .done _ (.error _) => True
  | .failed _ => True

/-- A sound cache. -/
structure ServerOK (H : Sha256) (E : Env) (s : Server) : Prop where
  items : ∀ e ∈ s.items, Genuine H E e.key e.value
  disk : ∀ key stored, s.disk.lookup key = some stored → Genuine H E key stored.payload
  inflight : ∀ key leader, s.inflight.lookup key = some leader → Led H E s.calls key leader
  calls : ∀ call ∈ s.calls, Tidy E call.params ∧ PhaseOK H E s.workspace s.calls call.params call.phase

/-- Requests are tidy, and no file changes while one is between the start of its digest and the end of its
analysis. -/
def Quiet (E : Env) (_ : List Event) (s : Server) : Event → Prop
  | .request params => Tidy E params
  | .change _ => ∀ call ∈ s.calls, call.phase.reading = false
  | _ => True

/-! ## Stable facts -/

variable {params : AnalysisParams} {es : List Event} {w : Workspace} {d value : GoString} {calls : List Call}
  {phase : Phase}

variable {key : GoString} {leader : ℕ}

lemma Led.snoc (h : Led H E calls key leader) (call : Call) : Led H E (calls ++ [call]) key leader := by
  obtain ⟨c, d, hget, hd, hkey⟩ := h
  refine ⟨c, d, ?_, hd, hkey⟩
  rw [getElem?_append_left (List.getElem?_eq_some_iff.1 hget).1]
  exact hget

/-- A request keeps its digest. -/
lemma Led.set {i call} (h : Led H E calls key leader)
    (hcall : calls[i]? = some call) (hdigest : ∀ d, call.phase.digest = some d → phase.digest = some d) :
    Led H E (calls.set i ⟨call.params, phase⟩) key leader := by
  obtain ⟨c, d, hget, hd, hkey⟩ := h
  have hlt := (List.getElem?_eq_some_iff.1 hcall).1
  by_cases hi : i = leader
  · subst hi
    rw [hcall] at hget
    cases hget
    exact ⟨⟨call.params, phase⟩, d, getElem?_set_self hlt, hdigest d hd, hkey⟩
  · exact ⟨c, d, by rw [getElem?_set_ne hi]; exact hget, hd, hkey⟩

lemma PhaseOK.mono {calls calls'} (h : PhaseOK H E w calls params phase)
    (hled : ∀ key leader, Led H E calls key leader → Led H E calls' key leader) :
    PhaseOK H E w calls' params phase := by
  cases phase with
  | waiting d leader => exact hled _ _ h
  | finishing d result source =>
    cases result with
    | ok value => exact h
    | error err => trivial
  | done d result =>
    cases result with
    | ok r => exact h
    | error err => trivial
  | _ => exact h

/-- What is known of a request that reads nothing does not depend on the workspace. -/
lemma PhaseOK.change {w w'} (h : PhaseOK H E w calls params phase)
    (hquiet : phase.reading = false) : PhaseOK H E w' calls params phase := by
  cases phase with
  | walking _ | keyed _ | loading _ | computing _ _ _ => cases hquiet
  | finishing d result source =>
    cases result with
    | ok value => exact h
    | error err => trivial
  | done d result =>
    cases result with
    | ok r => exact h
    | error err => trivial
  | _ => exact h

/-! ## The memory tier -/

variable {config : Config} {items : List Entry} {e : Entry}

lemma mem_evictBack (h : e ∈ evictBack config items) : e ∈ items := by
  induction items using evictBack.induct config with
  | case1 items hover ih =>
    rw [evictBack, dif_pos hover] at h
    exact dropLast_subset _ (ih h)
  | case2 items hfits =>
    rw [evictBack, dif_neg hfits] at h
    exact h

lemma mem_insertLocked {value} (h : e ∈ insertLocked config items key value) : e = ⟨key, value⟩ ∨ e ∈ items := by
  unfold insertLocked at h
  split at h
  · exact .inr h
  split at h
  · rcases mem_cons.1 h with h | h
    · exact .inl h
    · exact .inr (mem_filter.1 h).1
  rcases mem_cons.1 (mem_evictBack h) with h | h
  · exact .inl h
  · exact .inr h

/-! ## Steps of a request -/

/-- What a step of a request leaves as it was, and what it may store. -/
structure StepOK (H : Sha256) (E : Env) (s : Server) (i : ℕ) (call : Call) (s' : Server) (phase : Phase) : Prop where
  workspace : s'.workspace = s.workspace
  calls : s'.calls = s.calls
  items : ∀ e ∈ s'.items, Genuine H E e.key e.value
  disk : ∀ key stored, s'.disk.lookup key = some stored → Genuine H E key stored.payload
  inflight : ∀ key leader, s'.inflight.lookup key = some leader → s.inflight.lookup key = some leader ∨
    leader = i ∧ ∃ d, call.phase.digest = some d ∧ keyOf H E call.params d = key
  digest : ∀ d, call.phase.digest = some d → phase.digest = some d
  phase : PhaseOK H E s.workspace s.calls call.params phase

variable {seen : List (RelPath × Option GoString)}

lemma genuine_of_computed (htidy : Tidy E params)
    (h : ∃ w', HasDigest H E params.overlay w' d ∧ (∀ pc ∈ seen, view E params.overlay w' pc.1 = pc.2) ∧
      (params.program E).run (view E params.overlay w') = .ok value) : Genuine H E (keyOf H E params d) value := by
  obtain ⟨w', hdigest, -, hrun⟩ := h
  exact ⟨params, w', d, htidy, rfl, hdigest, hrun⟩

section

variable {s s' : Server} {i : ℕ} {call : Call} {phase : Phase}

/-- A step that only moves the request on. -/
lemma stepOK_stay (hs : ServerOK H E s) (hdigest : ∀ d, call.phase.digest = some d → phase.digest = some d)
    (hphase : PhaseOK H E s.workspace s.calls call.params phase) : StepOK H E s i call s phase :=
  ⟨rfl, rfl, hs.items, hs.disk, fun _ _ h => .inl h, hdigest, hphase⟩

lemma digest_kept {p p' : Phase} (hcall : call.phase = p) (h : p.digest = p'.digest) :
    ∀ d, call.phase.digest = some d → p'.digest = some d := by
  rw [hcall, h]
  exact fun _ h => h

variable {d : GoString}

section

variable (hs : ServerOK H E s) (hphase : PhaseOK H E s.workspace s.calls call.params call.phase)
include hs hphase

lemma stepWalk_ok {k} (hcall : call.phase = .walking k) : StepOK H E s i call s (stepWalk H E s.workspace k) := by
  rw [hcall] at hphase
  have hruns := hphase
  refine stepOK_stay hs (fun d hd => ?_) ?_
  · rw [hcall] at hd
    cases hd
  unfold stepWalk
  split
  · rename_i hdone
    exact ⟨k, hruns, hdone, rfl⟩
  rename_i htodo
  split
  · trivial
  · rename_i k' hstep
    exact hruns.tail ⟨by rw [htodo]; exact cons_ne_nil _ _, hstep⟩

lemma stepLookup_ok (hcall : call.phase = .keyed d)
    (hstep : stepLookup H E s i call.params d = (s', phase)) : StepOK H E s i call s' phase := by
  rw [hcall] at hphase
  unfold stepLookup at hstep
  simp only at hstep
  split at hstep
  · rename_i e hfind
    cases hstep
    have hmem := mem_of_find?_eq_some hfind
    have hkey : e.key = keyOf H E call.params d := by simpa using find?_some hfind
    refine ⟨rfl, rfl, fun e' he' => ?_, hs.disk, fun _ _ h => .inl h, digest_kept hcall rfl, ?_⟩
    · rcases mem_cons.1 he' with rfl | he'
      · exact hs.items _ hmem
      · exact hs.items e' (mem_filter.1 he').1
    have hgenuine := hs.items e hmem
    rw [hkey] at hgenuine
    exact hgenuine
  split at hstep
  · rename_i leader hleader
    cases hstep
    exact stepOK_stay hs (digest_kept hcall rfl) (hs.inflight _ _ hleader)
  cases hstep
  refine ⟨rfl, rfl, hs.items, hs.disk, fun key leader hl => ?_, digest_kept hcall rfl, hphase⟩
  rw [Table.lookup_insert_if] at hl
  split at hl
  · rename_i hkey
    exact .inr ⟨(Option.some.inj hl).symm, d, by rw [hcall]; rfl, hkey.symm⟩
  · exact .inl hl

lemma stepLoad_ok {readable : Bool} (hcall : call.phase = .loading d)
    (hstep : stepLoad H E s call.params d readable = (s', phase)) : StepOK H E s i call s' phase := by
  rw [hcall] at hphase
  have hcompute : PhaseOK H E s.workspace s.calls call.params (.computing d [] (call.params.program E)) :=
    ⟨hphase, Follows.start⟩
  unfold stepLoad at hstep
  simp only at hstep
  split at hstep
  · cases hstep
    exact stepOK_stay hs (digest_kept hcall rfl) hcompute
  rename_i stored hstored
  split at hstep
  · cases hstep
    exact stepOK_stay hs (digest_kept hcall rfl) hcompute
  split at hstep
  · rename_i value hvalue
    cases hstep
    refine stepOK_stay hs (digest_kept hcall rfl) ?_
    have hpayload : stored.payload = value := by
      unfold openEnvelope at hvalue
      split at hvalue
      · cases hvalue
      · exact Option.some.inj hvalue
    rw [← hpayload]
    exact hs.disk _ _ hstored
  cases hstep
  refine ⟨rfl, rfl, hs.items, fun key stored' hlookup => ?_, fun _ _ h => .inl h, digest_kept hcall rfl, hcompute⟩
  obtain ⟨-, hlookup⟩ := Table.of_lookup_erase hlookup
  exact hs.disk key stored' hlookup

lemma stepWake_ok (hcall : call.phase = .waiting d leader) : StepOK H E s i call s (stepWake s d leader) := by
  rw [hcall] at hphase
  obtain ⟨lead, d', hget, hd', hkey⟩ := hphase
  have hlead := (hs.calls lead (mem_of_getElem? hget)).2
  unfold stepWake
  rw [hget]
  split
  · rename_i params d'' r heq
    cases heq
    injection hd' with hd'
    subst hd'
    refine stepOK_stay hs (digest_kept hcall rfl) ?_
    have hgenuine : Genuine H E (keyOf H E params d'') r.1 := hlead
    rw [hkey] at hgenuine
    exact hgenuine
  · exact stepOK_stay hs (digest_kept hcall rfl) trivial
  · exact stepOK_stay hs (digest_kept hcall rfl) ⟨lead, d', hget, hd', hkey⟩

lemma stepLook_ok {rest : Program} (hcall : call.phase = .computing d seen rest) :
    StepOK H E s i call s (stepLook E s.workspace call.params d seen rest) := by
  rw [hcall] at hphase
  obtain ⟨hdigest, hfollows⟩ := hphase
  cases rest with
  | stop result =>
    obtain ⟨hrun, hseen⟩ := hfollows.spec
    cases result with
    | ok value => exact stepOK_stay hs (digest_kept hcall rfl) ⟨s.workspace, hdigest, hseen, hrun⟩
    | error err => exact stepOK_stay hs (digest_kept hcall rfl) trivial
  | look p next => exact stepOK_stay hs (digest_kept hcall rfl) ⟨hdigest, hfollows.look⟩

omit hphase in
lemma insertLocked_ok {value} (hgenuine : Genuine H E key value) :
    ∀ e ∈ insertLocked E.config s.items key value, Genuine H E e.key e.value := by
  intro e he
  rcases mem_insertLocked he with rfl | he
  · exact hgenuine
  · exact hs.items e he

/-- **One step of a request.** -/
theorem stepCall_ok (htidy : Tidy E call.params)
    {e : Event} (hstep : stepCall H E s i call e = some (s', phase)) : StepOK H E s i call s' phase := by
  cases e with
  | request _ | change _ | evict _ => cases hstep
  | walk j =>
    rw [stepCall] at hstep
    split at hstep
    · rename_i k hcall
      cases hstep
      exact stepWalk_ok hs hphase hcall
    · cases hstep
  | lookup j =>
    rw [stepCall] at hstep
    split at hstep
    · rename_i d hcall
      injection hstep with hstep
      exact stepLookup_ok hs hphase hcall hstep
    · cases hstep
  | wake j =>
    rw [stepCall] at hstep
    split at hstep
    · rename_i d leader hcall
      cases hstep
      exact stepWake_ok hs hphase hcall
    · cases hstep
  | cancel j =>
    rw [stepCall] at hstep
    split at hstep
    · rename_i d leader hcall
      cases hstep
      exact stepOK_stay hs (digest_kept hcall rfl) trivial
    · rename_i d seen rest hcall
      cases hstep
      exact stepOK_stay hs (digest_kept hcall rfl) trivial
    · cases hstep
  | load j readable =>
    rw [stepCall] at hstep
    split at hstep
    · rename_i d hcall
      injection hstep with hstep
      exact stepLoad_ok hs hphase hcall hstep
    · cases hstep
  | look j =>
    rw [stepCall] at hstep
    split at hstep
    · rename_i d seen rest hcall
      cases hstep
      exact stepLook_ok hs hphase hcall
    · cases hstep
  | insert j =>
    rw [stepCall] at hstep
    split at hstep
    · rename_i d value hcall
      cases hstep
      rw [hcall] at hphase
      exact ⟨rfl, rfl, insertLocked_ok hs hphase, hs.disk, fun _ _ h => .inl h, digest_kept hcall rfl, hphase⟩
    · rename_i d seen value hcall
      cases hstep
      rw [hcall] at hphase
      exact ⟨rfl, rfl, insertLocked_ok hs (genuine_of_computed htidy hphase), hs.disk, fun _ _ h => .inl h,
        digest_kept hcall rfl, hphase⟩
    · cases hstep
  | persist j written =>
    rw [stepCall] at hstep
    split at hstep
    · rename_i d seen value hcall
      cases hstep
      rw [hcall] at hphase
      have hgenuine := genuine_of_computed htidy hphase
      refine ⟨rfl, rfl, hs.items, fun key stored hlookup => ?_, fun _ _ h => .inl h, digest_kept hcall rfl, hgenuine⟩
      split at hlookup
      · rw [Table.lookup_insert_if] at hlookup
        split at hlookup
        · rename_i hkey
          rw [← Option.some.inj hlookup, hkey]
          exact hgenuine
        · exact hs.disk key stored hlookup
      · exact hs.disk key stored hlookup
    · cases hstep
  | finish j =>
    rw [stepCall] at hstep
    split at hstep
    · rename_i d result source hcall
      cases hstep
      rw [hcall] at hphase
      refine ⟨rfl, rfl, hs.items, hs.disk, fun key leader hlookup => ?_, digest_kept hcall rfl, ?_⟩
      · obtain ⟨-, hlookup⟩ := Table.of_lookup_erase hlookup
        exact .inl hlookup
      cases result with
      | ok value => exact hphase
      | error err => trivial
    · cases hstep

omit hphase in
/-- The request's new phase in its place. -/
lemma serverOK_set (hcall : s.calls[i]? = some call) (h : StepOK H E s i call s' phase) :
    ServerOK H E ⟨s'.workspace, s'.calls.set i ⟨call.params, phase⟩, s'.items, s'.inflight, s'.disk⟩ := by
  have hled : ∀ key leader, Led H E s.calls key leader → Led H E (s.calls.set i ⟨call.params, phase⟩) key leader :=
    fun key leader hl => hl.set hcall h.digest
  rw [h.calls, h.workspace]
  refine ⟨h.items, h.disk, fun key leader hlookup => ?_, fun c hc => ?_⟩
  · rcases h.inflight key leader hlookup with hold | ⟨rfl, d, hd, hkey⟩
    · exact hled key leader (hs.inflight key leader hold)
    · exact hled key leader ⟨call, d, hcall, hd, hkey⟩
  rcases mem_or_eq_of_mem_set hc with hc | rfl
  · obtain ⟨htidy, hphase⟩ := hs.calls c hc
    exact ⟨htidy, hphase.mono hled⟩
  · exact ⟨(hs.calls call (mem_of_getElem? hcall)).1, h.phase.mono hled⟩

end

end

/-- One event. -/
lemma serverOK_step {s s' e} (hs : ServerOK H E s) (hquiet : Quiet E es s e)
    (hstep : step H E s e = some s') : ServerOK H E s' := by
  have hactor : ∀ i, stepActor H E s e i = some s' → ServerOK H E s' := by
    intro i h
    unfold stepActor at h
    split at h
    · cases h
    rename_i call hcall
    split at h
    · cases h
    rename_i s₁ phase hcallstep
    cases h
    obtain ⟨htidy, hphase⟩ := hs.calls call (mem_of_getElem? hcall)
    exact serverOK_set hs hcall (stepCall_ok hs hphase htidy hcallstep)
  cases e with
  | request params =>
    cases hstep
    refine ⟨hs.items, hs.disk, fun key leader h => (hs.inflight key leader h).snoc _, fun call hcall => ?_⟩
    rcases mem_append.1 hcall with hcall | hcall
    · obtain ⟨htidy, hphase⟩ := hs.calls call hcall
      exact ⟨htidy, hphase.mono fun _ _ h => h.snoc _⟩
    rw [mem_singleton] at hcall
    subst hcall
    exact ⟨hquiet, Relation.ReflTransGen.refl⟩
  | change w =>
    cases hstep
    refine ⟨hs.items, hs.disk, hs.inflight, fun call hcall => ?_⟩
    obtain ⟨htidy, hphase⟩ := hs.calls call hcall
    exact ⟨htidy, hphase.change (hquiet call hcall)⟩
  | evict key =>
    cases hstep
    refine ⟨hs.items, fun key' stored hlookup => ?_, hs.inflight, hs.calls⟩
    obtain ⟨-, hlookup⟩ := Table.of_lookup_erase hlookup
    exact hs.disk key' stored hlookup
  | _ => exact hactor _ hstep

/-- **A quiet daemon has a sound cache.** -/
theorem cache_sound {s : Server} (h : ((server H E w).only (Quiet E)).Reach es s) : ServerOK H E s := by
  refine h.invariant (I := fun _ s => ServerOK H E s) ⟨?_, ?_, ?_, ?_⟩ ?_
  · exact nofun
  · exact nofun
  · exact nofun
  · exact nofun
  intro es s e _ hok hs
  obtain ⟨s', hs'⟩ := Option.isSome_iff_exists.1 hok.1
  change ServerOK H E ((step H E s e).getD s)
  rw [hs']
  exact serverOK_step hs hok.2 hs'

/-- A genuine payload is what a fresh analysis returns, in every workspace with the digest. -/
lemma genuine_fresh (hH : H.Delimited) (hE : EnvOK E) (htidy : Tidy E params)
    (h : Genuine H E (keyOf H E params d) value) (hw : HasDigest H E params.overlay w d) :
    (params.program E).run (view E params.overlay w) = .ok value := by
  obtain ⟨params', w', d', htidy', hkey, hw', hrun⟩ := h
  obtain ⟨rfl, hprogram⟩ := keyOf_inj hE htidy htidy' (zero_notMem_digest hw) (zero_notMem_digest hw') hkey
  rw [← hrun, hprogram]
  exact Program.run_congr (fun p hp => digest_view hH htidy.overlay htidy'.overlay hw hw' hp) (hE.covered _)

/-- **The analysis cache is content-addressed** as long as requests are tidy and no file changes while a request is
between the start of its digest and the end of its analysis: what an analysis has read when its payload is stored has
the digest of the key, and a payload from the cache is that of a fresh analysis. -/
theorem content_addressed (H : Sha256) (hH : H.Delimited) (E : Env) (hE : EnvOK E) (w₀ : Workspace) (es : List Event)
    (s : Server) (h : ((server H E w₀).only (Quiet E)).Reach es s) :
    (∀ call ∈ s.calls, ∀ d seen value, call.phase = .computed d seen value ∨ call.phase = .inserted d seen value →
      ∃ w, HasDigest H E call.params.overlay w d ∧ ∀ pc ∈ seen, view E call.params.overlay w pc.1 = pc.2) ∧
    ∀ call ∈ s.calls, ∀ d value source, call.phase = .done d (.ok (value, source)) →
      ∀ w, HasDigest H E call.params.overlay w d →
        (call.params.program E).run (view E call.params.overlay w) = .ok value := by
  have hs := cache_sound h
  constructor
  · intro call hcall d seen value hstored
    obtain ⟨-, hphase⟩ := hs.calls call hcall
    rcases hstored with hstored | hstored
    · rw [hstored] at hphase
      obtain ⟨w, hw, hseen, -⟩ := hphase
      exact ⟨w, hw, hseen⟩
    rw [hstored] at hphase
    obtain ⟨w, hw, hseen, -⟩ := hphase
    exact ⟨w, hw, hseen⟩
  intro call hcall d value source hdone w hw
  obtain ⟨htidy, hphase⟩ := hs.calls call hcall
  rw [hdone] at hphase
  exact genuine_fresh hH hE htidy hphase hw

/-! ## A workspace of one file -/

def demoName : Name := ⟨str "a.go", by decide⟩

/-- An analysis that returns the content of `a.go`. -/
def demoEnv : Env where
  root := str "/w"
  goVersion := str "go1"
  goos := str "linux"
  goarch := str "amd64"
  config := normalizedConfig ⟨0, 0⟩
  resolve _ _ := .error .io
  analyze _ := .look [demoName] fun c => .stop (.ok (c.getD []))

def demoWorkspace (data : GoString) : Workspace where
  nodes := (∅ : Table RelPath Node).insert [demoName] (.file data)
  closed p n h hp := by
    rw [Table.lookup_insert_if] at h
    split at h
    · rename_i heq
      have hlen := congrArg List.length heq
      simp only [length_append, length_cons, length_nil] at hlen
      exact absurd (length_eq_zero_iff.1 (by omega)) hp
    · cases h

def demoParams : AnalysisParams := ⟨[], ⟨[], [], false, [], false⟩, str "t", ∅⟩

lemma demoEnv_ok : EnvOK demoEnv where
  goVersion := by decide
  goos := by decide
  goarch := by decide
  covered _ := .look [demoName] _ ⟨[], demoName, rfl, by decide, nofun⟩ fun _ => .stop _

lemma demoParams_tidy : Tidy demoEnv demoParams where
  toolVersion := by decide
  goos := by decide
  goarch := by decide
  patterns _ h := absurd h not_mem_nil
  tags _ h := absurd h not_mem_nil
  sorted := rfl
  overlay _ _ h := by cases h

/-- The first request, up to the analysis. -/
def demoDigest : List Event := [.request demoParams, .walk 0, .walk 0, .walk 0, .lookup 0, .load 0 true]

/-- The analysis and the end of the first request, and a second one up to its lookup. -/
def demoRest (data : GoString) : List Event :=
  [.look 0, .look 0, .insert 0, .persist 0 true, .finish 0, .change (demoWorkspace data), .request demoParams,
    .walk 1, .walk 1, .walk 1, .lookup 1]

instance (H : Sha256) (E : Env) (w : Workspace) (es : List Event) (s : Server) (e : Event) :
    Decidable ((server H E w).ok es s e) := inferInstanceAs (Decidable (_ = true))

/-- The part of `Quiet` that is about changes. -/
def QuietChange (_ : List Event) (s : Server) : Event → Prop
  | .change _ => ∀ call ∈ s.calls, call.phase.reading = false
  | _ => True

instance (es : List Event) (s : Server) (e : Event) : Decidable (QuietChange es s e) :=
  match e with
  | .change _ => inferInstanceAs (Decidable (∀ call ∈ s.calls, call.phase.reading = false))
  | .request _ => .isTrue trivial
  | .evict _ => .isTrue trivial
  | .walk _ => .isTrue trivial
  | .lookup _ => .isTrue trivial
  | .wake _ => .isTrue trivial
  | .cancel _ => .isTrue trivial
  | .load _ _ => .isTrue trivial
  | .look _ => .isTrue trivial
  | .insert _ => .isTrue trivial
  | .persist _ _ => .isTrue trivial
  | .finish _ => .isTrue trivial

lemma reach_quiet {s} (h : ((server H E w).only QuietChange).Reach es s)
    (htidy : ∀ params, .request params ∈ es → Tidy E params) : ((server H E w).only (Quiet E)).Reach es s := by
  induction h with
  | init => exact System.Reach.init
  | step e _ hok ih =>
    refine (ih fun params hp => htidy params (mem_append_left _ hp)).step e ⟨hok.1, ?_⟩
    cases e with
    | request params => exact htidy params (by simp)
    | change w' => exact hok.2
    | _ => trivial

/-- The digest of the workspace with one file. -/
lemma demo_digest (H : Sha256) (data : GoString) :
    HasDigest H demoEnv demoParams.overlay (demoWorkspace data) (digestOf H [(str "a.go", data)]) := by
  refine ⟨⟨[], ∅, [(str "a.go", data)]⟩, ?_, rfl, rfl⟩
  have henter : WalkStep demoEnv (demoWorkspace data) (startWalk ∅) ⟨[.readFile [demoName]], ∅, []⟩ :=
    ⟨cons_ne_nil _ _, rfl⟩
  have hread : WalkStep demoEnv (demoWorkspace data) ⟨[.readFile [demoName]], ∅, []⟩ ⟨[], ∅, [(str "a.go", data)]⟩ :=
    ⟨cons_ne_nil _ _, rfl⟩
  exact (Relation.ReflTransGen.single henter).tail hread

/-- What a request got, with its digest. -/
def Call.payload (call : Call) : Option (GoString × GoString × Source) :=
  match call.phase with
  | .done d (.ok r) => some (d, r)
  | _ => none

lemma Call.phase_of_payload {call : Call} {source : Source} (h : call.payload = some (d, value, source)) :
    call.phase = .done d (.ok (value, source)) := by
  unfold Call.payload at h
  split at h
  · rename_i d' r hphase
    injection h with h
    injection h with hd hr
    rw [hphase, hd, hr]
  · cases h

/-- What a fresh analysis of the workspace with one file returns. -/
def demoFresh (data : GoString) : Except GoString GoString :=
  (demoParams.program demoEnv).run (view demoEnv demoParams.overlay (demoWorkspace data))

lemma demo_tidy (hes : es = demoDigest ++ demoRest (str "1")) (params : AnalysisParams)
    (hp : .request params ∈ es) : Tidy demoEnv params := by
  subst hes
  simp only [demoDigest, demoRest, mem_append, mem_cons, not_mem_nil, or_false, reduceCtorEq,
    Event.request.injEq, false_or, or_self] at hp
  rw [hp]
  exact demoParams_tidy

theorem content_addressed_demo : ∃ s, ((server .marked demoEnv (demoWorkspace (str "1"))).only (Quiet demoEnv)).Reach
      (demoDigest ++ demoRest (str "1")) s ∧
    ∃ call ∈ s.calls, call.payload = some (digestOf .marked [(str "a.go", str "1")], str "1", .memory) ∧
      (call.params.program demoEnv).run (view demoEnv call.params.overlay (demoWorkspace (str "1"))) =
        .ok (str "1") := by
  have hallowed : ((server .marked demoEnv (demoWorkspace (str "1"))).only QuietChange).Allowed []
      (server .marked demoEnv (demoWorkspace (str "1"))).init (demoDigest ++ demoRest (str "1")) := by
    decide
  have hreach := reach_quiet (System.reach_of_allowed hallowed) (demo_tidy rfl)
  obtain ⟨call, hcall, hparams, hpayload⟩ : ∃ call ∈ (System.run ((server .marked demoEnv (demoWorkspace (str "1"))).only
      QuietChange) (server .marked demoEnv (demoWorkspace (str "1"))).init (demoDigest ++ demoRest (str "1"))).calls,
      call.params.overlay.entries = [] ∧
      call.payload = some (digestOf .marked [(str "a.go", str "1")], str "1", .memory) := by
    decide +kernel
  have hdigest := demo_digest .marked (str "1")
  refine ⟨_, hreach, call, hcall, hpayload, ?_⟩
  refine (content_addressed .marked Sha256.marked_delimited demoEnv demoEnv_ok _ _ _ hreach).2 call hcall _ _ _
    (Call.phase_of_payload hpayload) _ ?_
  rw [show call.params.overlay = ∅ from AList.ext hparams]
  exact hdigest

/-- **A stale payload**: `a.go` changes between the digest and the analysis and then changes back. The second request
gets from the cache what was read in between, not what a fresh analysis returns. -/
theorem stale_payload : ∃ s, (server .marked demoEnv (demoWorkspace (str "1"))).Reach
      (demoDigest ++ .change (demoWorkspace (str "2")) :: demoRest (str "1")) s ∧
    s.workspace.nodes.entries = (demoWorkspace (str "1")).nodes.entries ∧
    (∃ call ∈ s.calls, call.payload = some (digestOf .marked [(str "a.go", str "1")], str "2", .memory)) ∧
    HasDigest .marked demoEnv demoParams.overlay (demoWorkspace (str "1")) (digestOf .marked [(str "a.go", str "1")]) ∧
    demoFresh (str "1") = .ok (str "1") := by
  have hreach : (server .marked demoEnv (demoWorkspace (str "1"))).Reach
      (demoDigest ++ .change (demoWorkspace (str "2")) :: demoRest (str "1")) _ :=
    System.reach_of_allowed (by decide)
  exact ⟨_, hreach, by decide +kernel, by decide +kernel, demo_digest .marked (str "1"), by decide +kernel⟩

end BatchWeaver.Daemon
