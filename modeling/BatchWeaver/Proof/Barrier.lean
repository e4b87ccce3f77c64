import BatchWeaver.Proof.Flight

/-!
# Barriers

A barrier remembers how many items had been queued when its request was handled. It is
answered once no queued item, and for a drain or close no batch, goes back that far.

* `SeqOK`: items are numbered as they are queued, and a batch knows its lowest number.
* `Awaits`: a control request has one barrier, until it is answered.
* `barrier_sound`: when a flush was answered, every item admitted before it has left the
  queues; when a drain or close was answered, every caller admitted before it is settled.
-/

namespace BatchWeaver

open List Coord

variable {K V E : Type} {cfg : BindingConfig K} {es : List (Move K V E)} {id : ControlId} {it : ℕ}

/-- **Sequence numbers.** -/
structure SeqOK (c : Coord K V E) : Prop where
  bound : ∀ it, (c.items it).seq ≤ c.submitSeq
  min : ∀ id b, c.inflight.lookup id = some b → ∀ it ∈ b.items, b.minSeq ≤ ((c.items it).seq : WithTop ℕ)

/-- The request `id` has a barrier with these values, or has been answered. -/
structure Awaits (id : ControlId) (seq : ℕ) (dispatchOnly : Bool) (c : Coord K V E) : Prop where
  known : ∀ b ∈ c.barriers, b.reply = id → b.seq = seq ∧ b.dispatchOnly = dispatchOnly
  used : (∃ b ∈ c.barriers, b.reply = id) ∨ ∃ eff ∈ c.out, eff.answers = some id

section Acts

variable {jn : JoinRule K V E} {g g' : Held K} {c c' : Coord K V E}

lemma pending_join (req : SubmitReq K) (x : ItemId) (pk : GoString) :
    ((c.join req x).part pk).pending = (c.part pk).pending := by
  have hpart := part_insert (show (c.join req x).partitions =
    c.partitions.insert req.part.encoded { c.part req.part.encoded with
      waiters := (c.part req.part.encoded).waiters + 1 } from rfl) pk
  rw [hpart]
  split
  · rename_i he; rw [he]
  · rfl

lemma seq_join (req : SubmitReq K) (x it : ItemId) : ((c.join req x).items it).seq = (c.items it).seq := by
  by_cases hx : it = x
  · subst hx; rw [items_join_self]
  · rw [items_join_ne hx]

variable {ws : List WaiterId} {it : ItemId} {k : Bool} {n : ℕ} {seq : ℕ}

lemma anyPending_iff : c.anyPending seq = true ↔ ∃ pk, ∃ it ∈ (c.part pk).pending, (c.items it).seq ≤ seq := by
  unfold anyPending
  rw [any_eq_true]
  constructor
  · rintro ⟨e, he, hany⟩
    obtain ⟨it, hit, hle⟩ := any_eq_true.1 hany
    refine ⟨e.1, it, ?_, by simpa using hle⟩
    rw [part_eq_of_lookup c (Table.mem_entries.1 he)]
    exact hit
  rintro ⟨pk, it, hit, hle⟩
  cases hp : c.partitions.lookup pk with
  | none => rw [part_of_none c hp] at hit; cases hit
  | some p =>
    rw [part_eq_of_lookup c hp] at hit
    exact ⟨⟨pk, p⟩, Table.mem_entries.2 hp, any_eq_true.2 ⟨it, hit, by simpa using hle⟩⟩

lemma anyInflight_iff : c.anyInflight seq = true ↔
    ∃ id b, c.inflight.lookup id = some b ∧ b.minSeq ≤ (seq : WithTop ℕ) := by
  unfold anyInflight
  rw [any_eq_true]
  constructor
  · rintro ⟨e, he, hle⟩
    exact ⟨e.1, e.2, Table.mem_entries.1 he, by simpa using hle⟩
  · rintro ⟨id, b, hb, hle⟩
    exact ⟨⟨id, b⟩, Table.mem_entries.2 hb, by simpa using hle⟩

/-- Without a batch in flight that goes back to a number, an item up to that number is settled once it
is not queued. -/
lemma not_indexed_of_seq (hok : CoordOK cfg es g c) (hg : g.queue = none) (hS : SeqOK c)
    (hf : c.anyInflight seq = false) (hit : (c.items it).seq ≤ seq) (hpend : ∀ pk, it ∉ (c.part pk).pending)
    (pk : GoString) : it ∉ (c.part pk).indexed := by
  intro hin
  rcases mem_append.1 ((hok.struct.perm pk).mem_iff.1 hin) with hq | hq
  · rw [Held.queueOf_none hg] at hq
    exact hpend pk hq
  obtain ⟨id, x, hx, -, hxi⟩ := mem_flight.1 hq
  have := anyInflight_iff.2 ⟨id, x, hx, (hS.min id x hx it hxi).trans (by exact_mod_cast hit)⟩
  rw [hf] at this
  cases this

/-- The callers of an item that has left the index are settled. -/
lemma DeliveryOK.settled (hD : DeliveryOK es c) (hok : CoordOK cfg es g c)
    (hno : ∀ pk, it ∉ (c.part pk).indexed) {w} (hw : w ∈ (c.items it).waiters) : c.results w ≠ [] ∨ Canceled es w := by
  refine hD.answered it w hw ?_
  cases hact : c.active w with
  | false => rfl
  | true =>
    obtain ⟨pk, hpk⟩ := hok.waiter.home it w hw hact
    exact absurd hpk (hno pk)

/-- What a satisfied barrier says about an item numbered up to its own number. -/
lemma barrierSatisfied_item (hok : CoordOK cfg es g c) (hg : g.queue = none) (hS : SeqOK c) {b}
    (hb : c.barrierSatisfied b = true) (hit : (c.items it).seq ≤ b.seq) : (∀ pk, it ∉ (c.part pk).pending) ∧
      (b.dispatchOnly = false → ∀ pk, it ∉ (c.part pk).indexed) := by
  unfold barrierSatisfied at hb
  split at hb
  · cases hb
  rename_i hp
  have hpend : ∀ pk, it ∉ (c.part pk).pending := fun pk hin => hp (anyPending_iff.2 ⟨pk, it, hin, hit⟩)
  refine ⟨hpend, fun hd => ?_⟩
  rw [hd] at hb
  have hf : c.anyInflight b.seq = false := by simpa using hb
  exact not_indexed_of_seq hok hg hS hf hit hpend

/-- **What an answered control request says about an item admitted before it**: it left the
queues, and, unless only its dispatch was awaited, the callers `ws` are settled. -/
structure Passed (es : List (Move K V E)) (c : Coord K V E) (id : ControlId) (n : ℕ) (k : Bool)
    (it : ℕ) (ws : List WaiterId) : Prop where
  awaits : Awaits id n k c
  seq : (c.items it).seq ≤ n
  range : it ≤ c.requestSeq
  waiters : ∀ w ∈ ws, w ∈ (c.items it).waiters
  dispatched : Effect.barrier id none ∈ c.out → ∀ pk, it ∉ (c.part pk).pending
  settled : Effect.barrier id none ∈ c.out → k = false → ∀ w ∈ ws, c.results w ≠ [] ∨ Canceled es w

lemma Passed.mono (h : Passed es c id n k it ws) (m : Move K V E) : Passed (es ++ [m]) c id n k it ws :=
  ⟨h.awaits, h.seq, h.range, h.waiters, h.dispatched, fun hr hk w hw => (h.settled hr hk w hw).imp_right (·.mono m)⟩

variable [Inhabited V]

/-- An item keeps its number. -/
lemma Act.seq_eq (hok : CoordOK cfg es g c) (ha : Act cfg es jn g c g' c')
    (hit : it ≤ c.requestSeq) : (c'.items it).seq = (c.items it).seq := by
  rcases ha.still hok with hs | ⟨req, rest, x, -, -, -, -, rfl⟩ | ⟨now, req, rest, -, -, -, rfl⟩
  · exact hs.seq it
  · exact seq_join req x it
  · rw [items_enqueue_ne (by rintro rfl; exact Nat.not_succ_le_self _ hit)]

/-- An item that has left the queues does not come back. -/
lemma Act.pending_origin (hok : CoordOK cfg es g c) (ha : Act cfg es jn g c g' c')
    (hit : it ≤ c.requestSeq) {pk} (hp : it ∈ (c'.part pk).pending) : it ∈ (c.part pk).pending := by
  rcases ha.still hok with hs | ⟨req, rest, x, -, -, -, -, rfl⟩ | ⟨now, req, rest, -, -, -, rfl⟩
  · exact hs.pending pk it hp
  · rw [pending_join] at hp; exact hp
  rcases mem_pending_enqueue.1 hp with hp | ⟨rfl, -⟩
  · exact hp
  · exact absurd hit (Nat.not_succ_le_self _)

lemma SeqOK.act (h : SeqOK c) (hok : CoordOK cfg es g c) (ha : Act cfg es jn g c g' c') : SeqOK c' := by
  refine ⟨fun it => ?_, fun id b' hb' it hit => ?_⟩
  · rcases ha.still hok with hs | ⟨req, rest, x, -, -, -, -, rfl⟩ | ⟨now, req, rest, -, -, -, rfl⟩
    · rw [hs.seq, hs.submitSeq]; exact h.bound it
    · rw [seq_join]; exact h.bound it
    by_cases hx : it = c.requestSeq + 1
    · rw [hx, items_enqueue_self]; exact le_rfl
    · rw [items_enqueue_ne hx]; exact (h.bound it).trans (Nat.le_succ _)
  rcases (ha.batch hok hb').minSeq with ⟨b, hb, hits, hmin⟩ | hmin
  · rw [hits] at hit
    rw [hmin, ha.seq_eq hok (hok.struct.range _ it (hok.struct.batch_indexed hb hit)).2]
    exact h.min id b hb it hit
  · exact hmin it hit

lemma Awaits.act (h : Awaits id n k c) (hok : CoordOK cfg es g c)
    (ha : Act cfg es jn g c g' c') : Awaits id n k c' := by
  have hout : ∀ eff ∈ c.out, eff ∈ c'.out := (ha.out_prefix hok.nodup).subset
  have same : c'.barriers = c.barriers → Awaits id n k c' := by
    intro hb
    refine ⟨by rw [hb]; exact h.known, ?_⟩
    rw [hb]
    exact h.used.imp_right fun ⟨eff, he, hans⟩ => ⟨eff, hout eff he, hans⟩
  cases ha with
  | sched hs =>
    cases hs with
    | quiet hq => exact same hq.barriers
    | tooLarge pk l l' it _ _ _ =>
      exact same (by rw [resolve_eq hok.nodup])
    | _ => exact same rfl
  | addBarrier b _ hfresh hans =>
    refine ⟨fun x hx hid => ?_, h.used.imp_left fun ⟨x, hx, hid⟩ => ⟨x, mem_append_left _ hx, hid⟩⟩
    rcases mem_append.1 hx with hx | hx
    · exact h.known x hx hid
    -- the name is taken
    rw [mem_singleton.1 hx] at hid
    rcases h.used with ⟨y, hy, hyid⟩ | ⟨eff, he, heid⟩
    · exact absurd (hyid.trans hid.symm) (hfresh y hy)
    · exact absurd (heid.trans (congrArg some hid.symm)) (hans eff he)
  | answer kept effs hkept heffs hg hall =>
    refine ⟨fun x hx hid => h.known x (hkept x hx) hid, ?_⟩
    rcases h.used with ⟨x, hx, hid⟩ | ⟨eff, he, hans⟩
    · rcases hall x hx with hx | ⟨eff, he, hans⟩
      · exact .inl ⟨x, hx, hid⟩
      · exact .inr ⟨eff, mem_append_right _ he, by rw [hans, hid]⟩
    · exact .inr ⟨eff, mem_append_left _ he, hans⟩
  | resolve pk l l' it r _ _ _ =>
    exact same (by rw [resolve_eq hok.nodup])
  | shut pk it _ _ => exact same (by rw [deliverAll_eq hok.nodup])
  | cancelFlight pk it w b _ _ _ hl _ =>
    exact same (by rw [cancelFlight_eq hl]; rfl)
  | cancelCtx bid _ =>
    obtain ⟨_, _, hl⟩ := c.cancelBatch_eq bid
    exact same (by rw [hl])
  | _ => exact same rfl

lemma Passed.act (h : Passed es c id n k it ws) (hok : CoordOK cfg es g c)
    (hD : DeliveryOK es c) (hS : SeqOK c) (ha : Act cfg es jn g c g' c') : Passed es c' id n k it ws := by
  have hpend : (∀ pk, it ∉ (c.part pk).pending) → ∀ pk, it ∉ (c'.part pk).pending :=
    fun hn pk hp => hn pk (ha.pending_origin hok h.range hp)
  have hres : (∀ w ∈ ws, c.results w ≠ [] ∨ Canceled es w) → ∀ w ∈ ws, c'.results w ≠ [] ∨ Canceled es w := by
    intro hw w hin
    refine (hw w hin).imp_left fun hne => ?_
    obtain ⟨effs, ho, -⟩ := ha.emits hok
    rw [results_append ho]
    exact append_ne_nil_of_left_ne_nil hne _
  -- the answer is given now: the barrier's condition holds
  have hnow : Emits cfg es g c c' (.barrier id none) → (∀ pk, it ∉ (c.part pk).pending) ∧
      (k = false → ∀ w ∈ ws, c.results w ≠ [] ∨ Canceled es w) := by
    intro he
    cases he with
    | barrier b err hb hsat hg =>
      obtain ⟨hseq, hdo⟩ := h.awaits.known b hb rfl
      obtain ⟨h1, h2⟩ := barrierSatisfied_item hok hg hS (hsat rfl) (by rw [hseq]; exact h.seq)
      exact ⟨h1, fun hk w hw => hD.settled hok (h2 (hdo.trans hk)) (h.waiters w hw)⟩
  refine ⟨h.awaits.act hok ha, by rw [ha.seq_eq hok h.range]; exact h.seq,
    h.range.trans (ha.requestSeq_le hok), fun w hw => ha.waiters_mono hok (h.waiters w hw), ?_, ?_⟩
  · intro hr
    rcases ha.mem_out hok hr with hr | hr
    · exact hpend (h.dispatched hr)
    · exact hpend (hnow hr).1
  intro hr hk
  rcases ha.mem_out hok hr with hr | hr
  · exact hres (h.settled hr hk)
  · exact hres ((hnow hr).2 hk)

lemma Passed.acts (h : Passed es c id n k it ws) (hok : CoordOK cfg es g c)
    (hD : DeliveryOK es c) (hS : SeqOK c) (ha : Acts cfg es jn g c g' c') : Passed es c' id n k it ws :=
  (ha.keeps (I := fun g c => CoordOK cfg es g c ∧ DeliveryOK es c ∧ SeqOK c ∧ Passed es c id n k it ws)
    (fun _ _ _ _ ha ⟨h1, h2, h3, h4⟩ => ⟨h1.act ha, h2.act h1 ha, h3.act h1 ha, h4.act h1 h2 h3 ha⟩)
    ⟨hok, hD, hS, h⟩).2.2.2

/-- `handleControl` adds one barrier. -/
lemma handleControl_barriers (hok : CoordOK cfg es {} c) (now : Time) (ctrl : ControlReq) :
    (c.handleControl cfg now ctrl).barriers = c.barriers ++
        [⟨ctrl.kind, c.submitSeq, ctrl.reply, decide (ctrl.kind = .flush)⟩] ∧
      (c.handleControl cfg now ctrl).submitSeq = c.submitSeq ∧
      ∀ eff ∈ (c.handleControl cfg now ctrl).out, eff ∈ c.out ∨ eff.answers = none := by
  unfold handleControl
  dsimp only
  obtain ⟨hb, hs, ho⟩ := (control_scheds hok rfl (ctrl.kind = .close) now).answers hok
  rw [hb, hs]
  exact ⟨rfl, rfl, ho⟩

/-- At the end of the turn that handles a control request. -/
lemma handleControl_passed (hok : CoordOK cfg es {} c) (hD : DeliveryOK es c) (hS : SeqOK c) {now}
    {ctrl} (hl : Event.Legal cfg es c (.control now ctrl)) (now' : Time)
    (ctxErr : CtxErrs E) (hit : (c.items it).waiters ≠ []) : Passed (es ++ [.turn ⟨.control now ctrl, now', ctxErr⟩])
      (c.move cfg (.turn ⟨.control now ctrl, now', ctxErr⟩)) ctrl.reply c.submitSeq
      (decide (ctrl.kind = .flush)) it (c.items it).waiters := by
  set es₁ := es ++ [Move.turn ⟨.control now ctrl, now', ctxErr⟩] with hes
  have hok' : CoordOK cfg es₁ {} c := hok.mono _
  obtain ⟨hbar, hsub, hout⟩ := handleControl_barriers hok now ctrl
  have hacts : Acts cfg es₁ anyJoin {} c {} (c.handleControl cfg now ctrl) :=
    handleControl_acts hok' rfl now hl
  obtain ⟨hok₁, hD₁, hS₁, hrange⟩ := hacts.keeps
    (I := fun g c => CoordOK cfg es₁ g c ∧ DeliveryOK es₁ c ∧ SeqOK c ∧ it ≤ c.requestSeq)
    (fun _ _ _ _ ha ⟨h1, h2, h3, h4⟩ =>
      ⟨h1.act ha, h2.act h1 ha, h3.act h1 ha, h4.trans (ha.requestSeq_le h1)⟩)
    ⟨hok', hD.mono _, hS, not_lt.1 fun hlt => hit (hok.waiter.fresh it hlt)⟩
  have hfin : Acts cfg es₁ anyJoin {} (c.handleControl cfg now ctrl) {}
      (c.turn cfg ⟨.control now ctrl, now', ctxErr⟩) :=
    turn_acts (t := ⟨.control now ctrl, now', ctxErr⟩) hok₁
  have hwait : ∀ w ∈ (c.items it).waiters, w ∈ ((c.handleControl cfg now ctrl).items it).waiters :=
    fun w hw => hacts.waiters_mono hok' hw
  obtain ⟨c₁, hc₁⟩ : ∃ c₁, c₁ = c.handleControl cfg now ctrl := ⟨_, rfl⟩
  rw [← hc₁] at hbar hsub hout hok₁ hD₁ hS₁ hrange hfin hwait
  have hnot : Effect.barrier ctrl.reply none ∉ c₁.out := by
    intro he
    rcases hout _ he with he | he
    · exact hl.2 _ he rfl
    · cases he
  have hin : ∃ b ∈ c₁.barriers, b.reply = ctrl.reply := by
    rw [hbar]
    exact ⟨_, mem_append_right _ (mem_singleton.2 rfl), rfl⟩
  have h₁ : Passed es₁ c₁ ctrl.reply c.submitSeq (decide (ctrl.kind = .flush)) it (c.items it).waiters := by
    refine ⟨⟨fun b hb hid => ?_, .inl hin⟩, by rw [← hsub]; exact hS₁.bound it, hrange, hwait,
      fun he => absurd he hnot, fun he => absurd he hnot⟩
    rw [hbar, mem_append] at hb
    rcases hb with hb | hb
    · exact absurd hid (hl.1 b hb)
    · rw [mem_singleton.1 hb]; exact ⟨rfl, rfl⟩
  exact h₁.acts hok₁ hD₁ hS₁ hfin

end Acts

/-! ## Runs -/

section Runs

variable [Inhabited K] [Inhabited V] {c : Coord K V E}

lemma reach_seq (h : (coordinator cfg).Reach es c) : SeqOK c :=
  reach_always (J := fun _ _ c => SeqOK c) ⟨fun _ => le_rfl, nofun⟩
    (fun _ _ _ _ hJ => hJ) (fun _ _ _ _ _ hok ha hJ => hJ.act hok ha) h

section

variable (h : (coordinator cfg).Reach es c) {now now' : Time} {ctrl : ControlReq}
  {ctxErr : CtxErrs E} (hl : Move.Legal cfg es c (.turn ⟨.control now ctrl, now', ctxErr⟩))
  {es' : List (Move K V E)} {c' : Coord K V E}
  (hs : (coordinator cfg).Steps (es ++ [.turn ⟨.control now ctrl, now', ctxErr⟩])
    (c.move cfg (.turn ⟨.control now ctrl, now', ctxErr⟩)) es' c')
include h hl hs

/-- After a control request was handled in state `c`. -/
lemma control_passed {it} (hit : (c.items it).waiters ≠ []) :
    Passed es' c' ctrl.reply c.submitSeq (decide (ctrl.kind = .flush)) it (c.items it).waiters := by
  have hr₁ := reach_move h hl
  have h₁ := handleControl_passed (reach_ok h) (reach_delivery h) (reach_seq h) hl.2 now' ctxErr hit
  obtain ⟨-, -, h₂⟩ := steps_always (J := fun es _ c₁ => DeliveryOK es c₁ ∧ SeqOK c₁ ∧
      Passed es c₁ ctrl.reply c.submitSeq (decide (ctrl.kind = .flush)) it (c.items it).waiters)
    hr₁ ⟨reach_delivery hr₁, reach_seq hr₁, h₁⟩
    (fun es m g c ⟨h1, h2, h3⟩ => ⟨h1.mono m, h2, h3.mono m⟩)
    (fun es g c g' c' hok ha ⟨h1, h2, h3⟩ => ⟨h1.act hok ha, h2.act hok ha, h3.act hok h1 h2 ha⟩) hs
  exact h₂

/-- **Barrier soundness.** After a flush, drain or close request was handled in state `c`
and answered without an error, every item that had been admitted in `c` has left the
pending queues; after a drain or close every caller admitted in `c` was sent its result or
was canceled. -/
theorem barrier_sound (hr : Effect.barrier ctrl.reply none ∈ c'.out) {it : ItemId} (hit : (c.items it).waiters ≠ []) :
    (∀ pk, it ∉ (c'.part pk).pending) ∧
      (ctrl.kind ≠ .flush → ∀ w ∈ (c.items it).waiters, c'.results w ≠ [] ∨ Canceled es' w) := by
  have h₁ := control_passed h hl hs hit
  exact ⟨h₁.dispatched hr, fun hk => h₁.settled hr (decide_eq_false hk)⟩

end

set_option maxRecDepth 4000 in
/-- A drain with one call queued; it is answered when the call's batch has completed. -/
theorem barrier_sound_demo :
    let es := [demoSubmit [1] 1 1 none, demoControl .drain 7, demoComplete 1 [.success 1 5]]
    (demoRun .manual es).results 1 ≠ [] ∨ Canceled es 1 := by
  intro es
  have hr : (coordinator (demo .manual)).Reach [demoSubmit [1] 1 1 none]
      (demoRun .manual [demoSubmit [1] 1 1 none]) := System.reach_of_allowed (by decide)
  have hs : (coordinator (demo .manual)).Steps [demoSubmit [1] 1 1 none, demoControl .drain 7]
      (demoRun .manual [demoSubmit [1] 1 1 none, demoControl .drain 7]) es (demoRun .manual es) :=
    System.Steps.refl.step (demoComplete 1 [.success 1 5]) (show _ by decide)
  have hl : Move.Legal (demo .manual) [demoSubmit [1] 1 1 none]
      (demoRun .manual [demoSubmit [1] 1 1 none]) (demoControl .drain 7) := by decide
  have hit : ((demoRun .manual [demoSubmit [1] 1 1 none]).items 1).waiters ≠ [] := by decide
  exact (barrier_sound hr hl hs (by decide) hit).2 (by decide) 1 (by decide)

end Runs

end BatchWeaver
