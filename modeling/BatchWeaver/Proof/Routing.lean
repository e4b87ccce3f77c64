import BatchWeaver.Proof.Effects
import BatchWeaver.Proof.Reachable

/-!
# Result routing

Where items, provider calls and results come from.

* `OriginOK`: every waiter of an item submitted an equal key in the item's partition; every
  item of an index, and every item of a provider call, has a key that was submitted in
  that partition.
* `submitted_nodup`: no two submissions share a waiter.
* `result_routed`: what a caller receives is the outcome of its own key, in a provider
  call of its own partition.
-/

namespace BatchWeaver

open List Coord

variable {K V E : Type} {cfg : BindingConfig K} {es : List (Move K V E)}
  {jn : JoinRule K V E} {g g' : Held K} {c c' : Coord K V E}

/-! ## Submissions and their waiters -/

variable {done : CompleteReq V E}

section Submissions

lemma submitted_append (m : Move K V E) : submitted (es ++ [m]) = submitted es ++ m.submission.toList := by
  unfold submitted
  rw [filterMap_append]
  cases h : m.submission with
  | none => rw [filterMap_cons_none h]; rfl
  | some r => rw [filterMap_cons_some h]; rfl

lemma mem_submitted_mono {req} (h : req ∈ submitted es) (m : Move K V E) : req ∈ submitted (es ++ [m]) := by
  rw [submitted_append]
  exact mem_append_left _ h

variable {m : Move K V E}

section

variable [Inhabited V]

lemma Acts.born (hok : CoordOK cfg es g c) (ha : Acts cfg es jn g c g' c') {w}
    (hw : (c.waiters w).isSome = true) : (c'.waiters w).isSome = true := by
  refine (ha.keeps (I := fun g c => CoordOK cfg es g c ∧ (c.waiters w).isSome = true) ?_ ⟨hok, hw⟩).2
  rintro g c g' c' hact ⟨hok, hw⟩
  refine ⟨hok.act hact, ?_⟩
  rcases hact.delivers hok with hm | ⟨it, r, hd⟩
  · exact hm.born w hw
  · rw [hd.waiters, isSome_quiet]; exact hw

/-- The waiter of a submission exists once the turn is over. -/
lemma born_of_submission (hok : CoordOK cfg es {} c) (hl : m.Legal cfg es c)
    {req} (hm : m.submission = some req) : ((c.move cfg m).waiters req.waiter).isSome = true := by
  cases m with
  | turn t =>
    obtain ⟨event, now', ctxErr⟩ := t
    cases event with
    | submit now r dl =>
      obtain rfl : r = req := by simpa [Move.submission] using hm
      have hok' := hok.mono (.turn ⟨.submit now r dl, now', ctxErr⟩)
      have hsub : r ∈ submitted (es ++ [.turn ⟨.submit now r dl, now', ctxErr⟩]) := mem_filterMap_snoc rfl
      have hsp : Act cfg (es ++ [.turn ⟨.submit now r dl, now', ctxErr⟩]) anyJoin {} c
          ⟨none, [r]⟩ (c.spawn r dl) := Act.spawn r dl hl.2.1 hsub rfl
      have h1 : Acts cfg (es ++ [.turn ⟨.submit now r dl, now', ctxErr⟩]) anyJoin
          ⟨none, [r]⟩ (c.spawn r dl) {} ((c.spawn r dl).handleSubmit cfg now r) :=
        handleSubmit_acts rfl rfl now (fun _ _ => trivial)
      have hok₁ := (hok'.act hsp).acts h1
      refine Acts.born (hok'.act hsp) (h1.trans (finishTurn_acts hok₁ rfl now' ctxErr)) ?_
      show (Function.update c.waiters r.waiter _ r.waiter).isSome = true
      rw [Function.update_self]
      rfl
    | _ => cases hm
  | _ => cases hm

end

lemma completed_append (m : Move K V E) : completed (es ++ [m]) = completed es ++ m.completion.toList := by
  unfold completed
  rw [filterMap_append]
  cases h : m.completion with
  | none => rw [filterMap_cons_none h]; rfl
  | some r => rw [filterMap_cons_some h]; rfl

lemma completion_eq_some (h : m.completion = some done) :
    ∃ now now' ctxErr, m = .turn ⟨.complete now done, now', ctxErr⟩ := by
  cases m with
  | turn t =>
    obtain ⟨event, now', ctxErr⟩ := t
    cases event with
    | complete now d =>
      obtain rfl : d = done := by simpa [Move.completion] using h
      exact ⟨now, now', ctxErr, rfl⟩
    | _ => cases h
  | _ => cases h

variable [Inhabited V]

/-- What follows the settling of a completed batch, up to the end of the turn. -/
lemma complete_acts (hok : CoordOK cfg es {} c) (now : WaiterId → Time)
    (now' : Time) (ctxErr : CtxErrs E) {b}
    (hb : c.inflight.lookup done.batchID = some b) :
    let m : Move K V E := .turn ⟨.complete now done, now', ctxErr⟩
    CoordOK cfg (es ++ [m]) {} (c.settle cfg b done) ∧ Gone (c.settle cfg b done) done.batchID ∧
      Acts cfg (es ++ [m]) anyJoin {} (c.settle cfg b done) {} (c.move cfg m) := by
  intro m
  have hok' := hok.mono m
  have hdone : done ∈ completed (es ++ [m]) := mem_filterMap_snoc rfl
  obtain ⟨g₁, c₁, h1, -, -, h2⟩ : ∃ g₁ c₁, Act cfg _ anyJoin {} c g₁ c₁ ∧ _ ∧ _ ∧ _ :=
    settle_acts hok' rfl hdone hb
  have hok₁ := (hok'.act h1).acts h2
  have h3 : Acts cfg (es ++ [m]) anyJoin {} (c.settle cfg b done) {} ((c.settle cfg b done).retryBlocked cfg now) :=
    retryBlocked_acts rfl rfl now (fun _ _ _ _ => trivial)
  refine ⟨hok₁, settle_gone hok' rfl hdone hb, ?_⟩
  have hmove : c.move cfg m = ((c.settle cfg b done).retryBlocked cfg now).finishTurn cfg now' ctxErr := by
    show (c.handleComplete cfg now done).finishTurn cfg now' ctxErr = _
    unfold handleComplete
    rw [hb]
  rw [hmove]
  exact h3.trans (finishTurn_acts (hok₁.acts h3) rfl now' ctxErr)

end Submissions

section Runs

variable [Inhabited K] [Inhabited V] {c : Coord K V E}

section

variable (h : (coordinator cfg).Reach es c)
include h

/-- The waiters of all submissions exist. -/
lemma submitted_born : ∀ req ∈ submitted es, (c.waiters req.waiter).isSome = true := by
  refine h.invariant (I := fun es c => ∀ req ∈ submitted es, (c.waiters req.waiter).isSome = true) nofun ?_
  intro es c m hr hl ih req hreq
  have hok := reach_ok hr
  rw [submitted_append, mem_append] at hreq
  rcases hreq with hreq | hreq
  · exact Acts.born (hok.mono m) (move_acts hok hl joinsOnly_true) (ih req hreq)
  · exact born_of_submission hok hl (Option.mem_toList.1 hreq)

/-- Only a submission makes a waiter. -/
lemma born_submitted : ∀ w, (c.waiters w).isSome = true → ∃ req ∈ submitted es, req.waiter = w := by
  refine reach_always (J := fun es _ c => ∀ w, (c.waiters w).isSome = true →
    ∃ req ∈ submitted es, req.waiter = w) nofun ?_ ?_ h
  · intro es m g c hJ w hw
    obtain ⟨req, hreq, he⟩ := hJ w hw
    exact ⟨req, mem_submitted_mono hreq m, he⟩
  intro es g c g' c' hok ha hJ w hw
  rcases ha.delivers hok with hm | ⟨it, r, hd⟩
  · exact (hm.origin w hw).elim (hJ w) id
  · rw [hd.waiters, isSome_quiet] at hw
    exact hJ w hw

/-- **No two submissions share a waiter.** -/
theorem submitted_nodup : ((submitted es).map (·.waiter)).Nodup := by
  refine h.invariant (I := fun es _ => ((submitted es).map (·.waiter)).Nodup) nodup_nil ?_
  intro es c m hr hl ih
  rw [submitted_append]
  cases hm : m.submission with
  | none => simpa using ih
  | some req =>
    rw [Option.toList_some, map_append, map_singleton, nodup_append]
    refine ⟨ih, nodup_singleton _, ?_⟩
    rintro a ha b hb rfl
    rw [mem_singleton.1 hb] at ha
    obtain ⟨r, hr', he⟩ := mem_map.1 ha
    have hborn := submitted_born hr r hr'
    have hnew : c.waiters req.waiter = none := by
      cases m with
      | turn t =>
        obtain ⟨event, now', ctxErr⟩ := t
        cases event with
        | submit now r dl =>
          obtain rfl : r = req := by simpa [Move.submission] using hm
          exact hl.2.1
        | _ => cases hm
      | _ => cases hm
    rw [he, hnew] at hborn
    cases hborn

lemma submitted_unique {req req'} (hr : req ∈ submitted es) (hr' : req' ∈ submitted es)
    (hw : req.waiter = req'.waiter) : req = req' :=
  inj_on_of_nodup_map (submitted_nodup h) hr hr' hw

/-- A completed batch is never in flight again. -/
lemma completed_gone : ∀ done ∈ completed es, Gone c done.batchID := by
  refine h.invariant (I := fun es c => ∀ done ∈ completed es, Gone c done.batchID) nofun ?_
  intro es c m hr hl ih done hd
  have hok := reach_ok hr
  rw [completed_append, mem_append] at hd
  rcases hd with hd | hd
  · exact Acts.gone (hok.mono m) (move_acts hok hl joinsOnly_true) (ih done hd)
  obtain ⟨now, now', ctxErr, rfl⟩ := completion_eq_some (Option.mem_toList.1 hd)
  obtain ⟨b, hb⟩ := Option.isSome_iff_exists.1 hl.2
  obtain ⟨hok₁, hgone, hacts⟩ := complete_acts hok now now' ctxErr hb
  exact hacts.gone hok₁ hgone

/-- **A batch completes once.** -/
theorem completed_nodup : ((completed es).map (·.batchID)).Nodup := by
  refine h.invariant (I := fun es _ => ((completed es).map (·.batchID)).Nodup) nodup_nil ?_
  intro es c m hr hl ih
  rw [completed_append]
  cases hm : m.completion with
  | none => simpa using ih
  | some done =>
    rw [Option.toList_some, map_append, map_singleton, nodup_append]
    refine ⟨ih, nodup_singleton _, ?_⟩
    rintro a ha b hb rfl
    rw [mem_singleton.1 hb] at ha
    obtain ⟨d, hd, he⟩ := mem_map.1 ha
    obtain ⟨now, now', ctxErr, rfl⟩ := completion_eq_some hm
    obtain ⟨b, hb⟩ := Option.isSome_iff_exists.1 hl.2
    have hgone := (completed_gone hr d hd).1
    rw [he, hb] at hgone
    cases hgone

end

end Runs

/-! ## Where items and provider calls come from -/

/-- The submission of a key to a partition. -/
def SubmittedTo (es : List (Move K V E)) (pk : GoString) (key : K) : Prop :=
  ∃ req ∈ submitted es, req.part.encoded = pk ∧ req.key = key

/-- **Waiters, items and provider calls go back to submissions.** -/
structure OriginOK (cfg : BindingConfig K) (es : List (Move K V E)) (c : Coord K V E) : Prop where
  waiter : ∀ it w, w ∈ (c.items it).waiters → ∃ req ∈ submitted es, req.waiter = w ∧
    (req.key = (c.items it).key ∨ cfg.keys.equal (c.items it).key req.key = true) ∧
    ∀ pk, it ∈ (c.part pk).indexed → pk = req.part.encoded
  item : ∀ pk it, it ∈ (c.part pk).indexed → SubmittedTo es pk (c.items it).key
  call : ∀ id pk reason dl req, Effect.start id pk reason dl req ∈ c.out → ∀ bi ∈ req.items, SubmittedTo es pk bi.key

section Origin

lemma SubmittedTo.mono {pk key} (h : SubmittedTo es pk key) (m : Move K V E) : SubmittedTo (es ++ [m]) pk key := by
  obtain ⟨req, h1, h2⟩ := h
  exact ⟨req, mem_submitted_mono h1 m, h2⟩

section

variable (h : OriginOK cfg es c)
include h

lemma OriginOK.mono (m : Move K V E) : OriginOK cfg (es ++ [m]) c := by
  refine ⟨?_, fun pk it hit => (h.item pk it hit).mono m,
    fun id pk reason dl req hs bi hbi => (h.call id pk reason dl req hs bi hbi).mono m⟩
  intro it w hw
  obtain ⟨req, h1, h2⟩ := h.waiter it w hw
  exact ⟨req, mem_submitted_mono h1 m, h2⟩

lemma OriginOK.still (hs : Still c c')
    (ho : ∀ id pk reason dl req, Effect.start id pk reason dl req ∈ c'.out → ∀ bi ∈ req.items, SubmittedTo es pk bi.key) :
    OriginOK cfg es c' := by
  refine ⟨?_, ?_, ho⟩
  · intro it w hw
    rw [hs.waiters] at hw
    obtain ⟨req, h1, h2, h3, h4⟩ := h.waiter it w hw
    exact ⟨req, h1, h2, by rw [hs.key]; exact h3, fun pk hit => h4 pk (hs.indexed pk it hit)⟩
  intro pk it hit
  rw [hs.key]
  exact h.item pk it (hs.indexed pk it hit)

variable [Inhabited V]

/-- **Every action keeps track of where things come from.** -/
theorem OriginOK.act (hok : CoordOK cfg es g c) (ha : Act cfg es jn g c g' c') : OriginOK cfg es c' := by
  have hcall : ∀ id pk reason dl req, Effect.start id pk reason dl req ∈ c'.out →
      ∀ bi ∈ req.items, SubmittedTo es pk bi.key := by
    intro id pk reason dl req hs bi hbi
    rcases ha.mem_out hok hs with hs | hs
    · exact h.call id pk reason dl req hs bi hbi
    cases hs with
    | start _ l _ a hg hsel hp _ _ _ =>
      rw [hsel.items] at hbi
      obtain ⟨it, hit, rfl⟩ := mem_map.1 hbi
      rw [batchItem_key]
      exact h.item pk it (hok.struct.held_indexed hg (hsel.perm.mem_iff.2 (mem_append_left _ hit)))
  rcases ha.still hok with hs | ⟨req, rest, it, hg, -, hj, -, rfl⟩ | ⟨now, req, rest, hg, -, -, rfl⟩
  · exact h.still hs hcall
  · -- the submission joins an item of its own partition
    have hreq := (hok.waiter.held req (by rw [hg]; simp)).1
    obtain ⟨hbk, heq⟩ := joinTarget_some hj
    have hin : it ∈ (c.part req.part.encoded).indexed := PartitionState.mem_indexed.2 ⟨_, hbk⟩
    have hp : ∀ pk, SamePart (c.part pk) ((c.join req it).part pk) :=
      SamePart.insert (p := { c.part req.part.encoded with
        waiters := (c.part req.part.encoded).waiters + 1 }) ⟨rfl, rfl, rfl, rfl⟩ rfl
    have hkey : ∀ x, ((c.join req it).items x).key = (c.items x).key := fun x => view_update _ (by rfl) x
    refine ⟨?_, ?_, hcall⟩
    · intro x w hw
      rw [hkey]
      rcases mem_waiters_join.1 hw with hw | ⟨rfl, rfl⟩
      · obtain ⟨r, h1, h2, h3, h4⟩ := h.waiter x w hw
        exact ⟨r, h1, h2, h3, fun pk hit => h4 pk (by rw [← (hp pk).indexed]; exact hit)⟩
      refine ⟨req, hreq, rfl, .inr heq, fun pk hit => ?_⟩
      rw [(hp pk).indexed] at hit
      exact hok.struct.home pk _ x hit hin
    intro pk x hx
    rw [(hp pk).indexed] at hx
    rw [hkey]
    exact h.item pk x hx
  -- the submission becomes an item of its partition
  have hreq := (hok.waiter.held req (by rw [hg]; simp)).1
  have hold : ∀ pk x, x ∈ (c.part pk).indexed → x ≠ c.requestSeq + 1 := by
    rintro pk x hx rfl
    exact absurd (hok.struct.range pk _ hx).2 (Nat.not_succ_le_self _)
  have hself := items_enqueue_self c now req
  refine ⟨?_, ?_, hcall⟩
  · intro x w hw
    by_cases hx : x = c.requestSeq + 1
    · rw [hx, hself] at hw
      rw [hx, hself]
      obtain rfl : w = req.waiter := mem_singleton.1 hw
      refine ⟨req, hreq, rfl, .inl rfl, fun pk hit => ?_⟩
      rcases mem_indexed_enqueue.1 hit with h1 | ⟨-, h1⟩
      · exact absurd rfl (hold pk _ h1)
      · exact h1
    rw [items_enqueue_ne hx] at hw ⊢
    obtain ⟨r, h1, h2, h3, h4⟩ := h.waiter x w hw
    refine ⟨r, h1, h2, h3, fun pk hit => ?_⟩
    exact h4 pk ((mem_indexed_enqueue.1 hit).resolve_right (fun h5 => hx h5.1))
  intro pk x hx
  rcases mem_indexed_enqueue.1 hx with h1 | ⟨rfl, rfl⟩
  · rw [items_enqueue_ne (hold pk x h1)]; exact h.item pk x h1
  · rw [hself]; exact ⟨req, hreq, rfl, rfl⟩

end

end Origin

/-! ## What results say -/

/-- A provider call of the submission's partition, all of whose items were submitted to
that partition, had an item with an equal key and completed as `P` says. -/
def AnsweredBy (cfg : BindingConfig K) (es : List (Move K V E)) (c : Coord K V E) (req : SubmitReq K)
    (P : CompleteReq V E → BatchRequest K → RequestID → Prop) : Prop :=
  ∃ done ∈ completed es, ∃ reason dl call, Effect.start done.batchID req.part.encoded reason dl call ∈ c.out ∧
    (∀ bi ∈ call.items, SubmittedTo es req.part.encoded bi.key) ∧
    ∃ bi ∈ call.items, cfg.keys.equal bi.key req.key = true ∧ P done call bi.id

/-- Why a submission's waiter is sent a result. -/
def Explained [Inhabited V] (cfg : BindingConfig K) (es : List (Move K V E)) (c : Coord K V E)
    (req : SubmitReq K) (r : Result V E) : Prop :=
  r = .error .itemTooLarge ∨ r = .error .engineClosed ∨
    AnsweredBy cfg es c req fun done call id => BatchVerdict cfg done call id r

section Results

variable {req : SubmitReq K}

variable {P : CompleteReq V E → BatchRequest K → RequestID → Prop}

lemma AnsweredBy.mono (h : AnsweredBy cfg es c req P) (m : Move K V E) : AnsweredBy cfg (es ++ [m]) c req P := by
  obtain ⟨done, hd, reason, dl, call, h1, h2, h3⟩ := h
  refine ⟨done, ?_, reason, dl, call, h1, fun bi hbi => (h2 bi hbi).mono m, h3⟩
  rw [completed_append]
  exact mem_append_left _ hd

lemma AnsweredBy.later (h : AnsweredBy cfg es c req P) (ho : c.out <+: c'.out) : AnsweredBy cfg es c' req P := by
  obtain ⟨done, hd, reason, dl, call, h1, h2⟩ := h
  exact ⟨done, hd, reason, dl, call, ho.subset h1, h2⟩

lemma AnsweredBy.imp {Q : CompleteReq V E → BatchRequest K → RequestID → Prop}
    (h : AnsweredBy cfg es c req P) (hPQ : ∀ done call id, P done call id → Q done call id) :
    AnsweredBy cfg es c req Q := by
  obtain ⟨done, hd, reason, dl, call, h1, h2, bi, h3, h4, h5⟩ := h
  exact ⟨done, hd, reason, dl, call, h1, h2, bi, h3, h4, hPQ done call bi.id h5⟩

variable [Inhabited V]

/-- Every result sent has an explanation. -/
def ResultsOK (cfg : BindingConfig K) (es : List (Move K V E)) (c : Coord K V E) : Prop :=
  ∀ w r, Effect.result w r ∈ c.out → ∃ req ∈ submitted es, req.waiter = w ∧ Explained cfg es c req r

lemma ResultsOK.mono (h : ResultsOK cfg es c) (m : Move K V E) : ResultsOK cfg (es ++ [m]) c := by
  intro w r hr
  obtain ⟨req, h1, h2, h3⟩ := h w r hr
  refine ⟨req, mem_submitted_mono h1 m, h2, ?_⟩
  rcases h3 with h3 | h3 | h3
  · exact .inl h3
  · exact .inr (.inl h3)
  · exact .inr (.inr (h3.mono m))

lemma ResultsOK.act (hk : cfg.keys.Lawful) (h : ResultsOK cfg es c) (ho : OriginOK cfg es c)
    (hok : CoordOK cfg es g c) (ha : Act cfg es jn g c g' c') : ResultsOK cfg es c' := by
  have hpre := ha.out_prefix hok.nodup
  intro w r hr
  rcases ha.mem_out hok hr with hr | hr
  · obtain ⟨req, h1, h2, h3⟩ := h w r hr
    refine ⟨req, h1, h2, ?_⟩
    rcases h3 with h3 | h3 | h3
    · exact .inl h3
    · exact .inr (.inl h3)
    · exact .inr (.inr (h3.later hpre))
  cases hr with
  | result it _ _ hw hact hreason =>
    obtain ⟨req, h1, h2, h3, h4⟩ := ho.waiter it w hw
    refine ⟨req, h1, h2, ?_⟩
    cases hreason with
    | tooLarge he => exact .inl he
    | closed _ he => exact .inr (.inl he)
    | verdict pk hin hv =>
      obtain ⟨done, hd, reason, dl, call, h5, ⟨bi, h6, rfl, h7⟩, h8⟩ := hv.why
      obtain rfl := h4 pk hin
      have heq : cfg.keys.equal bi.key req.key = true := by
        rw [h7]
        rcases h3 with h3 | h3
        · rw [h3]; exact hk.refl _
        · exact h3
      exact .inr (.inr ⟨done, hd, reason, dl, call, hpre.subset h5, ho.call _ _ _ _ _ h5, bi, h6, heq, h8⟩)

end Results

section Outcomes

variable [Inhabited V]

lemma outcomeResult_cases (o : Outcome V (GoError E)) :
    (o = .success o.requestID o.value ∧ outcomeResult o = ⟨o.value, none, true⟩) ∨
    (∃ err, o.err = some err ∧ outcomeResult o = .error err) ∨
    (o.isNotFound = true ∧ outcomeResult o = ⟨default, none, false⟩) := by
  obtain ⟨id, value, err, found⟩ := o
  unfold outcomeResult Outcome.isSuccess Outcome.isFailure Outcome.isNotFound
  cases err with
  | some e => exact .inr (.inl ⟨e, rfl, by simp [Result.error]⟩)
  | none =>
    cases found with
    | true => exact .inl ⟨rfl, by simp⟩
    | false => exact .inr (.inr ⟨rfl, by simp⟩)

/-- The provider call returned normally with exactly one outcome for the request, of the
kind `P`. -/
def HasOutcome (done : CompleteReq V E) (id : RequestID)
    (P : Outcome V (GoError E) → Prop) : Prop :=
  done.panicked = false ∧ done.globalErr = none ∧
    ∃ o, done.response.outcomes.filter (fun o => o.requestID = id) = [o] ∧ o.requestID = id ∧ P o

/-- An error that settles a whole provider call: a panic, an error of the call, or a
response that violates the contract. -/
def CallError (cfg : BindingConfig K) (done : CompleteReq V E) (call : BatchRequest K)
    (err : GoError E) : Prop :=
  done.panicked = true ∧ err = .providerPanic cfg.opID done.panicVal ∨
  done.panicked = false ∧ done.globalErr = some err ∨
  done.panicked = false ∧ done.globalErr = none ∧
    ∃ e, done.response.validateAgainst (call.items.map (·.id)) = .error e ∧ err = .contract cfg.opID e.error

lemma BatchVerdict.outcome {cfg} {call : BatchRequest K} {id r} (h : BatchVerdict cfg done call id r) :
    (∃ err, r = .error err ∧ CallError cfg done call err) ∨ HasOutcome done id fun o => r = outcomeResult o := by
  rcases h with ⟨h1, h2⟩ | ⟨h1, err, h2, h3⟩ | ⟨h1, h2, err, h3, h4⟩ | ⟨h1, h2, o, h3, h4⟩
  · exact .inl ⟨_, h2, .inl ⟨h1, rfl⟩⟩
  · exact .inl ⟨err, h3, .inr (.inl ⟨h1, h2⟩)⟩
  · exact .inl ⟨_, h4, .inr (.inr ⟨h1, h2, err, h3, rfl⟩)⟩
  have ho : o ∈ done.response.outcomes.filter (fun o => o.requestID = id) := by
    rw [h3]; exact mem_singleton.2 rfl
  exact .inr ⟨h1, h2, o, h3, by simpa using (mem_filter.1 ho).2, h4⟩

end Outcomes

section Routing

variable [Inhabited K] [Inhabited V]

lemma reach_results (hk : cfg.keys.Lawful) {es} {c : Coord K V E}
    (h : (coordinator cfg).Reach es c) : OriginOK cfg es c ∧ ResultsOK cfg es c := by
  refine reach_always (J := fun es _ c => OriginOK cfg es c ∧ ResultsOK cfg es c) ?_ ?_ ?_ h
  · refine ⟨⟨?_, ?_, ?_⟩, ?_⟩
    · intro it w hw; cases hw
    · intro pk it hit; cases hit
    · intro id pk reason dl req hs; cases hs
    · intro w r hr; cases hr
  · intro es m g c hJ
    exact ⟨hJ.1.mono m, hJ.2.mono m⟩
  · intro es g c g' c' hok ha hJ
    exact ⟨hJ.1.act hok ha, hJ.2.act hk hJ.1 hok ha⟩

/-- **Result routing.** What is sent to the waiter of a submission: a value only if a
provider call of the submission's partition returned, for an item with an equal key, exactly
one outcome, a success with that value; not-found only for a not-found outcome; an error
only for a failure outcome with that error, for an error of that whole call, or because
the item was too large or the engine closed. -/
theorem result_routed (hk : cfg.keys.Lawful) {es : List (Move K V E)} {c : Coord K V E}
    (h : (coordinator cfg).Reach es c) {req : SubmitReq K} (hreq : req ∈ submitted es)
    {r : Result V E} (hr : Effect.result req.waiter r ∈ c.out) :
    (r.err = none → r.found = true → AnsweredBy cfg es c req fun done _ id =>
      HasOutcome done id fun o => o = .success id r.value) ∧
    (r.err = none → r.found = false → AnsweredBy cfg es c req fun done _ id =>
      HasOutcome done id fun o => o.isNotFound = true) ∧
    (∀ err, r.err = some err → AnsweredBy cfg es c req (fun done call id =>
        HasOutcome done id (fun o => o.err = some err) ∨ CallError cfg done call err) ∨
      err = .itemTooLarge ∨ err = .engineClosed) ∧ ((completed es).map (·.batchID)).Nodup := by
  obtain ⟨req', h1, h2, h3⟩ := (reach_results hk h).2 _ _ hr
  obtain rfl : req' = req := submitted_unique h h1 hreq h2
  -- what the verdict on the batch says about the result, by kind of result
  have hout : ∀ {done : CompleteReq V E} {call : BatchRequest K} {id : RequestID}, BatchVerdict cfg done call id r →
      (r.err = none → r.found = true → HasOutcome done id fun o => o = .success id r.value) ∧
      (r.err = none → r.found = false → HasOutcome done id fun o => o.isNotFound = true) ∧
      ∀ err, r.err = some err → HasOutcome done id (fun o => o.err = some err) ∨ CallError cfg done call err := by
    intro done call id hv
    rcases hv.outcome with ⟨e, rfl, he⟩ | ⟨h4, h5, o, h6, h7, h8⟩
    · refine ⟨nofun, nofun, fun err herr => .inr ?_⟩
      cases herr
      exact he
    rcases outcomeResult_cases o with ⟨ho, hr'⟩ | ⟨e, ho, hr'⟩ | ⟨ho, hr'⟩ <;> rw [hr'] at h8 <;> subst h8
    · refine ⟨fun _ _ => ⟨h4, h5, o, h6, h7, by rw [h7] at ho; exact ho⟩, nofun, nofun⟩
    · refine ⟨nofun, nofun, fun err h => .inl ?_⟩
      cases h
      exact ⟨h4, h5, o, h6, h7, ho⟩
    · exact ⟨nofun, fun _ _ => ⟨h4, h5, o, h6, h7, ho⟩, nofun⟩
  rcases h3 with rfl | rfl | h3
  · exact ⟨nofun, nofun, fun err h => .inr (.inl (Option.some.inj h).symm), completed_nodup ‹_›⟩
  · exact ⟨nofun, nofun, fun err h => .inr (.inr (Option.some.inj h).symm), completed_nodup ‹_›⟩
  exact ⟨fun he hf => h3.imp fun _ _ _ hv => (hout hv).1 he hf, fun he hf => h3.imp fun _ _ _ hv => (hout hv).2.1 he hf,
    fun err he => .inl (h3.imp fun _ _ _ hv => (hout hv).2.2 err he), completed_nodup h⟩

lemma demoKeys_lawful : demoKeys.Lawful := by
  have he : ∀ a b, demoKeys.equal a b = true ↔ a = b := fun a b => beq_iff_eq
  refine ⟨fun a => (he a a).2 rfl, fun a b h => (he b a).2 ((he a b).1 h).symm, ?_, ?_⟩
  · intro a b c h1 h2; exact (he a c).2 (((he a b).1 h1).trans ((he b c).1 h2))
  · intro a b h; rw [(he a b).1 h]

/-- Two keys of one bucket in one call; the caller of the second gets its value. -/
def demoRouted : List (Move ℕ ℕ ℕ) := [demoSubmit [1] 1 1 none, demoSubmit [1] 9 2 none, demoControl .flush 1,
    demoComplete 1 [.success 2 90, .notFound 1]]

set_option maxRecDepth 4000 in
theorem result_routed_demo : AnsweredBy (demo .manual) demoRouted (demoRun .manual demoRouted)
    (demoReq [1] 9 2) fun done _ id => HasOutcome done id fun o => o = .success id 90 :=
  (result_routed (r := ⟨90, none, true⟩) demoKeys_lawful (System.reach_of_allowed (show _ by decide))
    (show demoReq [1] 9 2 ∈ submitted demoRouted from mem_cons_of_mem _ (mem_cons_self ..))
    (by decide)).1 rfl rfl

end Routing

end BatchWeaver
