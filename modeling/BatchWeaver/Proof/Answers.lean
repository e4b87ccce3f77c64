import BatchWeaver.Proof.Flush
import BatchWeaver.Proof.Release

/-!
# Where the answers of `Do` come from

A value reaches a call of `Do` through the coordinator, or from a memo table that another call of the scope has
filled. Either way it is what a provider returned for an equal key of the same partition (`do_sound`): a record holds
the answer of the call that stored it, and a lookup finds records of its own partition and key only (`AnswersOK`).
-/

namespace BatchWeaver

open List Coord
open Function (update update_apply)

variable {K V E : Type}

/-! ## Memo tables -/

section Memo

variable {cfg : OpConfig K} {t : MemoTable K V} {x : MemoRecord K V} {h : UInt64}

lemma MemoTable.mem_evictOldest (hx : x ∈ (t.evictOldest cfg).bucket h) : x ∈ t.bucket h := by
  unfold evictOldest at hx
  split at hx
  · exact hx
  · grind [bucket, Table.lookup_erase_if, Table.lookup_insert_if, mem_of_mem_eraseP]

lemma MemoTable.mem_evictLoop (n : ℕ) (hx : x ∈ (evictLoop cfg n t).bucket h) : x ∈ t.bucket h := by
  induction n generalizing t with
  | zero => exact hx
  | succ n ih =>
    unfold evictLoop at hx
    split_ifs at hx
    · exact hx
    · exact mem_evictOldest (ih hx)
    · exact hx

/-- A record was there before, or is the one that is stored. -/
lemma MemoTable.mem_put {part key value found} (hx : x ∈ (t.put cfg part key value found).bucket h) :
    x ∈ t.bucket h ∨ ∃ addr bytes, x = ⟨addr, part.encoded, key, value, found, bytes⟩ := by
  unfold put at hx
  split at hx
  · exact .inl hx
  · have hmem := mem_evictLoop _ hx
    grind [bucket, Table.lookup_insert_if]

end Memo

/-! ## One operation -/

section Bound

variable {cfg : OpConfig K} {b : Bound K V E}

/-- The coordinator has answered a request of the partition, with an equal key. -/
def Backed (cfg : OpConfig K) (b : Bound K V E) (part : GoString) (key : K) (r : Return V E) : Prop :=
  ∃ w req x, Effect.result w x ∈ b.net.coord.out ∧ b.net.reqOf w = some req ∧ req.part.encoded = part ∧
    cfg.keys.equal req.key key = true ∧ finish x = r

/-- The answer a call holds or has returned. -/
def DoStage.answer : DoStage V E → Option (Return V E)
  | .storing value found => some (finishMemo ⟨value, none, found⟩)
  | .putting _ value found => some (finishMemo ⟨value, none, found⟩)
  | .returned (.done r) => if r.isAnswer then some r else none
  | _ => none

/-- **Every answer, of a call or in a memo table, is one of the coordinator.** -/
structure AnswersOK (cfg : OpConfig K) (b : Bound K V E) : Prop where
  calls : ∀ id d r, b.dos.lookup id = some d → d.stage.answer = some r → Backed cfg b d.part.encoded d.key r
  records : ∀ t h, ∀ x ∈ (b.tables t).bucket h, Backed cfg b x.part x.key (finishMemo ⟨x.value, none, x.found⟩)

lemma answer_memo (x : Result V E) : (DoStage.returned (.done (finishMemo x))).answer = some (finishMemo x) := by
  unfold finishMemo
  split <;> rfl

lemma tables_memoTableFor {scope t h x} (hx : x ∈ ((b.memoTableFor scope).1.tables t).bucket h) :
    x ∈ (b.tables t).bucket h := by
  unfold Bound.memoTableFor at hx
  split at hx
  · exact hx
  · dsimp only at hx
    rw [update_apply] at hx
    split at hx
    · cases hx
    · exact hx

variable [Inhabited V]

lemma answer_ofReturn {r r' : Return V E} (h : (DoStage.ofReturn cfg r).answer = some r') : r = r' ∧ r.isAnswer = true := by
  cases r <;> simp only [DoStage.ofReturn] at h <;> (try split at h) <;> cases h <;> exact ⟨rfl, rfl⟩

/-- A stage with an answer: it comes from a record, or from the exchange. -/
lemma backed_of_goes [Inhabited K] (hk : cfg.keys.Lawful) (h : AnswersOK cfg b) {es} (hr : (bound cfg).Reach es b) {id d}
    (hd : b.dos.lookup id = some d) {e st stage} (hg : Goes cfg b id d e st stage) {r} (ha : stage.answer = some r) :
    Backed cfg b d.part.encoded d.key r := by
  cases hg with
  | hit t x hx =>
    obtain ⟨rec, hrec, rfl⟩ := Option.map_eq_some_iff.1 hx
    have hkey := find?_some hrec
    rw [Bool.and_eq_true, beq_iff_eq] at hkey
    cases (answer_memo _).symm.trans ha
    obtain ⟨w, req, x, h1, h2, h3, h4, h5⟩ := h.records t _ rec (mem_of_find?_eq_some hrec)
    exact ⟨w, req, x, h1, h2, h3.trans hkey.1, hk.trans _ _ _ h4 hkey.2, h5⟩
  | finish w call r' hw hc hs =>
    obtain ⟨rfl, hans⟩ := answer_ofReturn ha
    obtain ⟨req, h1, h2, h3⟩ := reach_agrees hr id d w hd hw
    have hcall := (net_refines ((bound_net cfg).reach hr)).2.calls w call hc
    have hst := hcall.stage
    rw [hs] at hst
    obtain ⟨x, h4, h5⟩ := hst hans
    rw [hcall.waiter] at h4
    exact ⟨w, req, x, h4, h1, congrArg _ h2, by rw [h3]; exact hk.refl _, h5⟩
  | recursive r' hr' => rcases hr' with rfl | rfl <;> cases ha
  | _ => cases ha

lemma Backed.next [Inhabited K] {es e part key r} (hr : (bound cfg).Reach es b) (hok : b.Ok cfg e)
    (h : Backed cfg b part key r) : Backed cfg (b.next cfg e) part key r := by
  obtain ⟨w, req, x, h1, h2, h3⟩ := h
  refine ⟨w, req, x, ?_, b.reqOf_next hr hok h2, h3⟩
  rcases (bound_net cfg).next_cases hr hok with heq | ⟨ne, hne, heq⟩ <;> change (b.next cfg e).net = _ at heq <;> rw [heq]
  · exact h1
  · exact (Net.out_next ((bound_net cfg).reach hr) hne).subset h1

/-- **In every run an answer is one of the coordinator.** -/
theorem reach_answers [Inhabited K] (hk : cfg.keys.Lawful) {es} (h : (bound cfg).Reach es b) : AnswersOK cfg b := by
  refine h.invariant (I := fun _ b => AnswersOK cfg b)
    ⟨fun _ _ _ hd => (by cases hd), fun _ _ _ hx => by cases hx⟩ ?_
  intro es b e hr hok ih
  have hkeep : ∀ {part key r}, Backed cfg b part key r → Backed cfg (b.next cfg e) part key r := Backed.next hr hok
  have hs := boundStep_of_ok hok
  show AnswersOK cfg (b.next cfg e)
  generalize b.next cfg e = b' at hs hkeep
  have hset : ∀ {id d' dos}, dos = b.dos.insert id d' →
      (∀ r, d'.stage.answer = some r → Backed cfg b d'.part.encoded d'.key r) →
      ∀ i x r, dos.lookup i = some x → x.stage.answer = some r → Backed cfg b' x.part.encoded x.key r := by
    rintro id d' dos rfl hd' i x r hx hr
    rcases Table.of_lookup_insert hx with ⟨-, rfl⟩ | ⟨-, hx⟩
    · exact hkeep (hd' r hr)
    · exact hkeep (ih.calls i x r hx hr)
  have hrecords := fun t h x hx => hkeep (ih.records t h x hx)
  cases hs with
  | start _ | track _ _ => exact ⟨hset rfl nofun, hrecords⟩
  | stage hd hst hg => exact ⟨hset rfl fun r ha => backed_of_goes hk ih hr hd hg ha, hrecords⟩
  | table hd hst hf =>
    refine ⟨hset (congrArg (AList.insert _ _) (b.dos_memoTableFor _)) fun r ha => ?_,
      fun t h x hx => hrecords t h x (tables_memoTableFor hx)⟩
    have hold := ih.calls _ _ r hd
    rw [hst] at hold
    cases hf with
    | lookup => cases ha
    | store value found => exact hold ha
  | put hd hst =>
    have hb := ih.calls _ _ _ hd (by rw [hst]; rfl)
    refine ⟨hset rfl fun r ha => ?_, fun t h x hx => ?_⟩
    · cases (answer_memo ⟨_, none, _⟩).symm.trans ha
      exact hb
    change x ∈ (update b.tables _ _ t).bucket h at hx
    rw [update_apply] at hx
    split at hx
    · rcases MemoTable.mem_put hx with hx | ⟨addr, bytes, rfl⟩
      · exact hrecords _ h x hx
      · exact hkeep hb
    · exact hrecords t h x hx
  | net | dropMemo => exact ⟨fun i x r hx ha => hkeep (ih.calls i x r hx ha), hrecords⟩

end Bound

/-! ## Engines -/

section Engine

variable {O : Type} [DecidableEq O] {K V : O → Type} [∀ o, Inhabited (K o)] [∀ o, Inhabited (V o)]
  {cfg : (o : O) → OpConfig (K o)}

/-- **`Do` returns what a provider returned**, through deduplication, batching and memo tables: for every call that
returned a value or `ErrMissingResult`, a request of its partition with an equal key was answered by a provider call
of that partition with exactly one outcome for it, the one that makes `Do` return this. -/
theorem do_sound {o : O} (hk : (cfg o).keys.Lawful) {es : List (EngineEvent O K V E)} {s : Engine O K V E}
    (h : (engine cfg).Reach es s) {id : DoId} {d : DoCall (K o) (V o) E} (hd : (s.bound o).dos.lookup id = some d)
    {r : Return (V o) E} (hst : d.stage = .returned (.done r)) (hr : r.isAnswer = true) :
    let ms := es.filterMap (EngineEvent.move o)
    ∃ req ∈ submitted ms, req.part.encoded = d.part.encoded ∧ (cfg o).keys.equal req.key d.key = true ∧
      AnsweredBy (cfg o).toBindingConfig ms (s.bound o).net.coord req fun done _ id =>
        HasOutcome done id fun oc => finish (outcomeResult oc) = r := by
  intro ms
  have hb := (engine_bound cfg o).reach h
  have hans : d.stage.answer = some r := by
    rw [hst]
    exact if_pos hr
  obtain ⟨w, req, x, h1, h2, h3, h4, rfl⟩ := (reach_answers hk hb).calls id d r hd hans
  obtain ⟨req', h5, rfl, h6⟩ := (reach_results hk ((engine_coord cfg o).reach h)).2 w x h1
  have hsub := net_submitted (((engine_bound cfg o).comp (bound_net (cfg o))).reach h)
  rw [moves, filterMap_filterMap] at hsub
  obtain rfl : req' = req := Option.some.inj ((hsub req' h5).symm.trans h2)
  refine ⟨req', h5, h3, h4, ?_⟩
  rcases h6 with rfl | rfl | h6
  · cases hr
  · cases hr
  refine h6.imp fun done call id hv => ?_
  rcases hv.outcome with ⟨err, rfl, -⟩ | ⟨h7, h8, oc, h9, h10, rfl⟩
  · cases hr
  · exact ⟨h7, h8, oc, h9, h10, rfl⟩

set_option maxRecDepth 8000 in
/-- The second call of a scope finds in the memo table what the first was sent. -/
theorem do_sound_memo :
    let es := demoMemoized.take 21 ++ demoLookup 2 1 [1] 7 ++ [.op () (.get 2)]
    let s := (demoEngine true).run (demoEngine true).init es
    ∃ req ∈ submitted (es.filterMap (EngineEvent.move ())), req.part.encoded = [1] ∧
      (demoOp .manual true).keys.equal req.key 7 = true ∧
      AnsweredBy (demoOp .manual true).toBindingConfig (es.filterMap (EngineEvent.move ())) (s.bound ()).net.coord req
        fun done _ id => HasOutcome done id fun oc => finish (outcomeResult oc) = .value 5 := by
  intro es s
  have hr : (demoEngine true).Reach es s := System.reach_of_allowed (by decide)
  have hd : (s.bound ()).dos.lookup 2 = some ⟨1, ⟨[1]⟩, 7, none, .returned (.done (.value 5))⟩ := by
    decide +kernel
  refine do_sound (o := ()) ?_ hr hd rfl rfl
  exact demoKeys_lawful

end Engine

end BatchWeaver
