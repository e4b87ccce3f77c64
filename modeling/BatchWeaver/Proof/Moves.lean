import BatchWeaver.Proof.Schedule

/-!
# Every move is a sequence of actions

The handlers, taken apart under the invariant.

* `handleSubmit_acts`, `handleCancel_acts`, `handleComplete_acts`, `handleControl_acts`,
  `handleEngineCancel_acts`: the five handlers.
* `move_acts`: every legal move.
* `reach_ok`: the invariant holds in every reachable state; `reach_keeps`: so does whatever
  holds at the start and every action keeps.
-/

namespace BatchWeaver

open List Coord Relation

variable {K V E : Type} {cfg : BindingConfig K} {es : List (Move K V E)}

/-! ## The calls of `handleSubmit` in a move -/

/-- The calls `retryBlocked` makes, each with the state it is made in. -/
def retryCalls (cfg : BindingConfig K) (now : WaiterId → Time) :
    List (SubmitReq K) → Coord K V E → List (Coord K V E × SubmitReq K)
  | [], _ => []
  | req :: rest, c => (c, req) :: retryCalls cfg now rest (c.handleSubmit cfg (now req.waiter) req)

/-- The calls of `handleSubmit` that a move makes, each with the state it is made in. -/
def submitCalls [Inhabited V] (cfg : BindingConfig K) (c : Coord K V E) :
    Move K V E → List (Coord K V E × SubmitReq K)
  | .turn ⟨.submit _ req dl, _, _⟩ => [(c.spawn req dl, req)]
  | .turn ⟨.complete now done, _, _⟩ =>
    match c.inflight.lookup done.batchID with
    | none => []
    | some b =>
      let c := c.settle cfg b done
      retryCalls cfg now c.blocked { c with blocked := [] }
  | _ => []

/-- Every submission of the move that joins an item meets the condition `jn`. -/
def JoinsOnly [Inhabited V] (cfg : BindingConfig K)
    (jn : Coord K V E → SubmitReq K → ItemId → Prop) (c : Coord K V E) (m : Move K V E) : Prop :=
  ∀ x ∈ submitCalls cfg c m, ∀ it, x.1.joinTarget cfg x.2 = some it → jn x.1 x.2 it

instance [Inhabited V] (cfg : BindingConfig K) (jn : Coord K V E → SubmitReq K → ItemId → Prop)
    [∀ c req it, Decidable (jn c req it)] (c : Coord K V E) (m : Move K V E) :
    Decidable (JoinsOnly cfg jn c m) :=
  inferInstanceAs (Decidable (∀ x ∈ submitCalls cfg c m, ∀ it ∈ x.1.joinTarget cfg x.2, jn x.1 x.2 it))

/-! ## What handlers end in -/

/-- There is no room for another partition. -/
def Coord.Full (cfg : BindingConfig K) (c : Coord K V E) : Prop :=
  0 < cfg.limits.maxPartitions ∧ cfg.limits.maxPartitions ≤ c.partitions.entries.length

/-- `handleSubmit` finds no item to join and no room. -/
def Exceeds (cfg : BindingConfig K) (c : Coord K V E) (req : SubmitReq K) : Prop :=
  (c.partitions.lookup req.part.encoded = none ∧ c.Full cfg) ∨
    (c.joinTarget cfg req = none ∧ overLimits cfg (c.part req.part.encoded) req ≠ none)

instance (cfg : BindingConfig K) (c : Coord K V E) (req : SubmitReq K) : Decidable (Exceeds cfg c req) :=
  inferInstanceAs (Decidable ((_ ∧ _ ∧ _) ∨ _))

section

variable {c : Coord K V E} {req : SubmitReq K}

lemma joinTarget_opened : (c.setPart req.part.encoded (PartitionState.new req.part)).joinTarget cfg req = none := by
  unfold joinTarget
  rw [part_setPart, if_pos rfl]
  split <;> rfl

/-- **The ends of `handleSubmit`.** `P` holds of the state as it is and with the partition of the submission
opened, and `Q` of what comes of it. -/
theorem handleSubmit_rule {P Q : Coord K V E → Prop} (now : Time) (hc : P c)
    (hopen : c.closing = false → c.partitions.lookup req.part.encoded = none → ¬c.Full cfg →
      P (c.setPart req.part.encoded (PartitionState.new req.part)))
    (hrefuse : ∀ c₁ err, P c₁ → c₁.closing = true ∨ Exceeds cfg c₁ req → Q (c₁.emit (.reply req.waiter (some err))))
    (hpark : ∀ c₁, P c₁ → Exceeds cfg c₁ req → Q { c₁ with blocked := c₁.blocked ++ [req] })
    (hjoin : ∀ it, c.closing = false → c.partitions.lookup req.part.encoded ≠ none →
      c.joinTarget cfg req = some it → Q (c.join req it))
    (hqueue : ∀ c₁, P c₁ → c₁.closing = false → c₁.partitions.lookup req.part.encoded ≠ none →
      c₁.joinTarget cfg req = none → overLimits cfg (c₁.part req.part.encoded) req = none →
      Q (c₁.enqueue now req)) : Q (c.handleSubmit cfg now req) := by
  have hover : ∀ c₁ category partition, P c₁ → Exceeds cfg c₁ req → Q (c₁.overflow cfg req category partition) := by
    intro c₁ category partition hP hex
    unfold Coord.overflow
    split
    · exact hrefuse c₁ _ hP (.inr hex)
    · exact hpark c₁ hP hex
    · split <;> exact hrefuse c₁ _ hP (.inr hex)
  have hadm : ∀ c₁, P c₁ → c₁.closing = false → c₁.partitions.lookup req.part.encoded ≠ none →
      (∀ it, c₁.joinTarget cfg req = some it → Q (c₁.join req it)) → Q (c₁.admission cfg now req) := by
    intro c₁ hP hc hknown hjoin
    unfold Coord.admission
    split
    · exact hjoin _ ‹_›
    rename_i hj
    split
    · rename_i cat hl
      exact hover c₁ _ _ hP (.inr ⟨hj, by rw [hl]; exact Option.some_ne_none cat⟩)
    · exact hqueue c₁ hP hc hknown hj ‹_›
  unfold handleSubmit
  split
  · exact hrefuse c _ hc (.inl ‹_›)
  rename_i hclosing
  have hclosing' : c.closing = false := by simpa using hclosing
  split
  · rename_i p hp
    have hknown : c.partitions.lookup req.part.encoded ≠ none := by rw [hp]; exact Option.some_ne_none p
    exact hadm c hc hclosing' hknown fun it => hjoin it hclosing' hknown
  rename_i hnone
  split
  · exact hover c _ _ hc (.inl ⟨hnone, ‹_›⟩)
  refine hadm _ (hopen hclosing' hnone ‹_›) hclosing' ?_ fun it hit => ?_
  · show (c.partitions.insert _ _).lookup _ ≠ none
    rw [AList.lookup_insert]
    exact Option.some_ne_none _
  · rw [joinTarget_opened] at hit
    cases hit

lemma cancelWaiter_item (pk : GoString) (it : ItemId) (w : WaiterId) : (c.cancelWaiter pk it w).items it =
      { c.items it with activeWaiters := (c.items it).activeWaiters - 1 } :=
  Function.update_self it _ c.items

/-- A cancel message finds its waiter, still active, in an item. -/
structure Finds (c : Coord K V E) (cr : CancelReq) (it : ItemId) : Prop where
  blocked : cr.blocked = false
  indexed : it ∈ (c.part cr.part).indexed
  waits : cr.waiterID ∈ (c.items it).waiters
  active : c.active cr.waiterID = true

/-- **The ends of `handleCancel`.** -/
theorem handleCancel_rule {P : Coord K V E → Prop} {cr : CancelReq}
    (hblocked : cr.blocked = true → P { c with blocked := c.blocked.eraseP fun req => req.waiter = cr.waiterID })
    (hnone : (∀ it, ¬Finds c cr it) → P c)
    (hdrop : ∀ it, Finds c cr it → (c.items it).activeWaiters = 1 → (c.items it).dispatched = false →
      P ((c.cancelWaiter cr.part it cr.waiterID).removePendingItem cr.part it))
    (hflight : ∀ it, Finds c cr it → (c.items it).activeWaiters = 1 → (c.items it).dispatched = true →
      P ((c.cancelWaiter cr.part it cr.waiterID).abandon it))
    (hkeep : ∀ it, Finds c cr it → (c.items it).activeWaiters ≠ 1 → P (c.cancelWaiter cr.part it cr.waiterID)) :
    P (c.handleCancel cr) := by
  unfold handleCancel
  split
  · exact hblocked ‹_›
  rename_i hb
  have hb' : cr.blocked = false := by simpa using hb
  split
  · rename_i hlook
    refine hnone fun it hf => ?_
    have hin := hf.indexed
    rw [part_of_none c hlook] at hin
    cases hin
  rename_i p hp
  have hpart := part_eq_of_lookup c hp
  split
  · rename_i hfind
    refine hnone fun it hf => ?_
    have := find?_eq_none.1 hfind it (hpart ▸ hf.indexed)
    simp [hf.waits, hf.active] at this
  rename_i it hfind
  have hfound := find?_some hfind
  simp only [Bool.and_eq_true, contains_iff_mem] at hfound
  have hf : Finds c cr it := ⟨hb', hpart ▸ mem_of_find?_eq_some hfind, hfound.1, hfound.2⟩
  dsimp only
  rw [cancelWaiter_item]
  dsimp only
  split
  · have hone : (c.items it).activeWaiters = 1 := by omega
    split
    · rename_i hd
      exact hdrop it hf hone (by simpa using hd)
    · rename_i hd
      exact hflight it hf hone (by simpa using hd)
  · exact hkeep it hf (by omega)

end

section

variable {jn : JoinRule K V E} {g : Held K} {c : Coord K V E}

/-! ## Submissions -/

variable {b : BatchInflight} {done : CompleteReq V E} {rest : List (SubmitReq K)} {req : SubmitReq K}

section

variable [Inhabited V]

/-- **`handleSubmit` settles the first submission in hand.** -/
theorem handleSubmit_acts (hg : g.queue = none) (hr : g.reqs = req :: rest) (now : Time)
    (hjn : ∀ it, c.joinTarget cfg req = some it → jn c req it) :
    Acts cfg es jn g c { g with reqs := rest } (c.handleSubmit cfg now req) :=
  handleSubmit_rule now .refl (fun _ hnone _ => (Act.openPart req.part hnone).one)
    (fun _ err h _ => h.trans (Act.refuse req rest err hr).one)
    (fun _ h _ => h.trans (Act.park req rest hr).one)
    (fun it hc _ hit => (Act.join req rest it hr hc hit (hjn it hit)).one)
    (fun _ h hc _ hj hl => h.trans (Act.enqueue now req rest hr hg hc hj hl).one)

lemma retry_acts (hg : g.queue = none) (now : WaiterId → Time) : ∀ (reqs : List (SubmitReq K)) (c : Coord K V E),
      (∀ x ∈ retryCalls cfg now reqs c, ∀ it, x.1.joinTarget cfg x.2 = some it → jn x.1 x.2 it) →
      Acts cfg es jn { g with reqs := reqs } c { g with reqs := [] }
        (reqs.foldl (fun c req => c.handleSubmit cfg (now req.waiter) req) c) := by
  intro reqs
  induction reqs with
  | nil => intro c _; exact ReflTransGen.refl
  | cons req rest ih =>
    intro c hjn
    rw [foldl_cons]
    refine ReflTransGen.trans (handleSubmit_acts (g := { g with reqs := req :: rest })
      hg rfl (now req.waiter) (hjn (c, req) (mem_cons_self ..))) ?_
    exact ih _ (fun x hx => hjn x (mem_cons_of_mem _ hx))

lemma retryBlocked_acts (hg : g.queue = none) (hr : g.reqs = []) (now : WaiterId → Time)
    (hjn : ∀ x ∈ retryCalls cfg now c.blocked { c with blocked := [] }, ∀ it,
      x.1.joinTarget cfg x.2 = some it → jn x.1 x.2 it) :
    Acts cfg es jn g c g (c.retryBlocked cfg now) := by
  obtain ⟨q, rs⟩ := g
  obtain rfl : rs = [] := hr
  exact (Act.unpark rfl).one.trans (retry_acts hg now c.blocked _ hjn)

/-! ## Cancellations -/

lemma handleCancel_acts (hok : CoordOK cfg es g c) (hg : g.queue = none) {cr}
    (hcr : cr ∈ cancellations es) : Acts cfg es jn g c g (c.handleCancel cr) := by
  have hc : ∀ {it}, Finds c cr it → Cancels es c cr.part it cr.waiterID :=
    fun hf => ⟨⟨cr, hcr, rfl, hf.blocked⟩, hf.indexed, hf.waits, hf.active⟩
  refine handleCancel_rule (fun _ => (Act.unblock cr.waiterID).one) (fun _ => .refl) (fun it hf hone hd => ?_)
    (fun it hf hone hd => ?_) (fun it hf hne => (Act.cancelKeep cr.part it cr.waiterID (hc hf) hne).one)
  · exact (Act.cancelDrop cr.part it cr.waiterID hg (hc hf) hone hd).one.trans (maybeRetire_acts hg cr.part).acts
  · obtain ⟨b, hlb, -, hin⟩ := hok.struct.flight_of_dispatched hg hf.indexed hd
    exact (Act.cancelFlight cr.part it cr.waiterID b (hc hf) hone hd hlb hin).one

/-! ## Completions -/

/-- The items of a completed batch are settled one after the other. -/
lemma resolveAll_acts {pk rs reason dl} {req} {q} (f : ItemId → Result V E) (hdone : done ∈ completed es) :
    ∀ (its : List ItemId) (c : Coord K V E) (l : List ItemId), CoordOK cfg es ⟨some (pk, l), rs⟩ c → l.Perm (its ++ q) →
      Effect.start done.batchID pk reason dl req ∈ c.out →
      (∀ it ∈ its, (∃ bi ∈ req.items, bi.id = it ∧ bi.key = (c.items it).key) ∧
        BatchVerdict cfg done req it (f it) ∧ (c.items it).dispatched = true) →
      ∃ l', Acts cfg es jn ⟨some (pk, l), rs⟩ c ⟨some (pk, l'), rs⟩
          (its.foldl (fun c it => (c.deliverAll it (f it)).dropItem pk it) c) ∧ l'.Perm q ∧
        ((its.foldl (fun c it => (c.deliverAll it (f it)).dropItem pk it) c).part pk).pending =
          (c.part pk).pending := by
  intro its
  induction its with
  | nil => intro c l _ hl _ _; exact ⟨l, ReflTransGen.refl, hl, rfl⟩
  | cons it its ih =>
    intro c l hok hl hst hv
    rw [foldl_cons]
    obtain ⟨hbi, hver, hdis⟩ := hv it (mem_cons_self ..)
    have hact : Act cfg es jn ⟨some (pk, l), rs⟩ c ⟨some (pk, its ++ q), rs⟩
        ((c.deliverAll it (f it)).dropItem pk it) :=
      Act.resolve pk l (its ++ q) it (f it) rfl hl ⟨⟨done, hdone, reason, dl, req, hst, hbi, hver⟩⟩ hdis
    obtain ⟨c₁, hc₁⟩ : ∃ c₁, c₁ = (c.deliverAll it (f it)).dropItem pk it := ⟨_, rfl⟩
    rw [← hc₁] at hact ⊢
    rw [resolve_eq hok.nodup] at hc₁
    have hitems : c₁.items = c.items := by rw [hc₁]
    have hout : Effect.start done.batchID pk reason dl req ∈ c₁.out := by
      rw [hc₁]; exact mem_append_left _ hst
    have hpend : (c₁.part pk).pending = (c.part pk).pending := by
      rw [part_insert (congrArg Coord.partitions hc₁), if_pos rfl]
    obtain ⟨l', h1, h2, h3⟩ := ih c₁ (its ++ q) (hok.act hact) (Perm.refl _) hout
      (fun x hx => by rw [hitems]; exact hv x (mem_cons_of_mem _ hx))
    exact ⟨l', hact.one.trans h1, h2, h3.trans hpend⟩

omit [Inhabited V] in
/-- The end of `failBatch` and `distribute` when the partition is known. -/
lemma settleItems_eq (f : ItemId → Result V E) (hk : b.partition ∈ c.partitions) :
    (let known := decide (b.partition ∈ c.partitions)
      let c := b.items.foldl (fun c it =>
        let c := c.deliverAll it (f it)
        if known then c.dropItem b.partition it else c) c
      if known then c.maybeRetire b.partition else c) =
      (b.items.foldl (fun c it => (c.deliverAll it (f it)).dropItem b.partition it) c).maybeRetire b.partition := by
  simp [hk]

/-- A batch leaves the in-flight table. -/
def Coord.land (c : Coord K V E) (id : BatchId) : Coord K V E := { c.emit (.cancel id) with
    inflight := c.inflight.erase id
    activeProvider := c.activeProvider - 1 }

/-- **`handleComplete` up to the retries, in closed form**: whatever the verdict on the batch, its
items are settled in order, each with a result, and the partition retires if it is empty. -/
theorem settle_eq (done : CompleteReq V E) {req : BatchRequest K} (hids : req.items.map (·.id) = b.items)
    (hknown : b.partition ∈ c.partitions) :
    ∃ f : ItemId → Result V E, (∀ it ∈ b.items, BatchVerdict cfg done req it (f it)) ∧
      c.settle cfg b done = (b.items.foldl (fun c it => (c.deliverAll it (f it)).dropItem b.partition it)
        (c.land done.batchID)).maybeRetire b.partition := by
  have hknown' : b.partition ∈ (c.land done.batchID).partitions := hknown
  have hfail : ∀ err : GoError E, (c.land done.batchID).failBatch b err =
      (b.items.foldl (fun c it => (c.deliverAll it (.error err)).dropItem b.partition it)
        (c.land done.batchID)).maybeRetire b.partition := by
    intro err
    unfold failBatch
    exact settleItems_eq (fun _ => .error err) hknown'
  unfold settle
  split
  · rename_i hpan
    exact ⟨fun _ => _, fun it _ => .inl ⟨hpan, rfl⟩, hfail _⟩
  rename_i hpan
  have hpan' : done.panicked = false := by simpa using hpan
  split
  · rename_i err herr
    exact ⟨fun _ => _, fun it _ => .inr (.inl ⟨hpan', err, herr, rfl⟩), hfail _⟩
  rename_i hnone
  unfold distribute
  split
  · rename_i err herr
    exact ⟨fun _ => _, fun it _ => .inr (.inr (.inl ⟨hpan', hnone, err, by rw [hids]; exact herr, rfl⟩)), hfail _⟩
  rename_i hval
  refine ⟨fun it => outcomeResult (((byID done.response).lookup it).getD default),
    fun it hit => ?_, settleItems_eq _ hknown'⟩
  obtain ⟨o, ho, -, -⟩ := validateAgainst_ok hval hit
  refine .inr (.inr (.inr ⟨hpan', hnone, o, ho, ?_⟩))
  dsimp only
  rw [lookup_byID ho]
  rfl

omit [Inhabited V] in
/-- The partition of a batch in flight is in the table. -/
lemma StructOK.batch_known (hS : StructOK cfg g c) {id} (hb : c.inflight.lookup id = some b) :
    b.partition ∈ c.partitions := by
  obtain ⟨it, hit⟩ := exists_mem_of_ne_nil _ (hS.batch _ b hb).2.2
  exact mem_partitions_of_indexed (hS.batch_indexed hb hit)

section

variable (hok : CoordOK cfg es g c)
include hok

/-- **The items of a completed batch are settled** once it has left the table. -/
theorem settleItems_acts (hg : g.queue = none) (hdone : done ∈ completed es)
    (hb : c.inflight.lookup done.batchID = some b) :
    ∃ (f : ItemId → Result V E) (g₁ : Held K), Act cfg es jn g c g₁ (c.land done.batchID) ∧
      Acts cfg es jn g₁ (c.land done.batchID) g (b.items.foldl
        (fun c it => (c.deliverAll it (f it)).dropItem b.partition it) (c.land done.batchID)) ∧
      c.settle cfg b done = (b.items.foldl (fun c it => (c.deliverAll it (f it)).dropItem b.partition it)
        (c.land done.batchID)).maybeRetire b.partition := by
  obtain ⟨q, rs⟩ := g
  obtain rfl : q = none := hg
  obtain ⟨reason, dl, req, hst, hids, hkeys⟩ := hok.started _ b hb
  have hfin : Act cfg es jn ⟨none, rs⟩ c ⟨some (b.partition, (c.part b.partition).pending ++ b.items), rs⟩
      (c.land done.batchID) := Act.finish done.batchID b rfl hb
  obtain ⟨f, hf, heq⟩ : ∃ f : ItemId → Result V E, (∀ it ∈ b.items, BatchVerdict cfg done req it (f it)) ∧
      c.settle cfg b done = _ := settle_eq done hids (hok.struct.batch_known hb)
  have hitem : ∀ it ∈ b.items, ∃ bi ∈ req.items, bi.id = it ∧ bi.key = ((c.land done.batchID).items it).key := by
    intro it hit
    rw [← hids] at hit
    obtain ⟨bi, hbi, rfl⟩ := mem_map.1 hit
    exact ⟨bi, hbi, rfl, hkeys bi hbi⟩
  obtain ⟨l', h1, h2, h3⟩ := resolveAll_acts f hdone b.items (c.land done.batchID) _ (hok.act hfin)
    perm_append_comm (mem_append_left _ hst)
    (fun it hit => ⟨hitem it hit, hf it hit, (hok.struct.flying _ b it hb hit).1⟩)
  set c₂ := b.items.foldl (fun c it => (c.deliverAll it (f it)).dropItem b.partition it) (c.land done.batchID) with hc₂
  have hun : Act cfg es jn ⟨some (b.partition, l'), rs⟩ c₂ ⟨none, rs⟩ c₂ :=
    Act.unhold b.partition l' rfl (by rw [h3]; exact h2)
  exact ⟨f, _, hfin, h1.trans hun.one, heq⟩

/-- **`handleComplete` up to the retries**: the batch leaves the table, then its items are
settled. -/
theorem settle_acts (hg : g.queue = none) (hdone : done ∈ completed es) (hb : c.inflight.lookup done.batchID = some b) :
    ∃ g₁ c₁, Act cfg es jn g c g₁ c₁ ∧ c₁.inflight = c.inflight.erase done.batchID ∧
      c₁.batchSeq = c.batchSeq ∧ Acts cfg es jn g₁ c₁ g (c.settle cfg b done) := by
  obtain ⟨f, g₁, h1, h2, heq⟩ := settleItems_acts hok hg hdone hb
  refine ⟨g₁, _, h1, rfl, rfl, ?_⟩
  rw [heq]
  exact h2.trans (maybeRetire_acts hg b.partition).acts

lemma handleComplete_acts (hg : g.queue = none) (hr : g.reqs = []) (now : WaiterId → Time)
    (hdone : done ∈ completed es)
    (hjn : ∀ b, c.inflight.lookup done.batchID = some b → ∀ x ∈ retryCalls cfg now (c.settle cfg b done).blocked { c.settle cfg b done with blocked := [] }, ∀ it, x.1.joinTarget cfg x.2 = some it → jn x.1 x.2 it) :
    Acts cfg es jn g c g (c.handleComplete cfg now done) := by
  unfold handleComplete
  split
  · exact ReflTransGen.refl
  rename_i b hb
  obtain ⟨g₁, c₁, h1, -, -, h2⟩ := settle_acts hok hg hdone hb
  exact (h1.one.trans h2).trans (retryBlocked_acts hg hr now (hjn b hb))

end

end

/-! ## Barriers -/

lemma failBarriers_eq (err : Option (GoError E)) : c.failBarriers err = { c with
    barriers := []
    out := c.out ++ c.barriers.map fun b => .barrier b.reply err } := by
  have key : ∀ (bs : List Barrier) (c : Coord K V E), bs.foldl (fun c b => c.emit (.barrier b.reply err)) c =
        { c with out := c.out ++ bs.map fun b => .barrier b.reply err } := by
    intro bs
    induction bs with
    | nil => intro c; simp
    | cons b bs ih =>
      intro c
      rw [foldl_cons, ih]
      simp [emit]
  unfold failBarriers
  rw [key]

/-- What `tryCompleteBarriers` answers to a barrier, if anything. -/
def Coord.answerTo (c : Coord K V E) (ctxErr : ControlId → Option (GoError E)) (b : Barrier) :
    Option (Effect K V E) :=
  match ctxErr b.reply with
  | some err => some (.barrier b.reply (some (barrierTimeout b.kind err)))
  | none => if c.barrierSatisfied b then some (.barrier b.reply none) else none

/-- `tryCompleteBarriers`, in closed form. -/
lemma tryCompleteBarriers_eq (ctxErr : CtxErrs E) : c.tryCompleteBarriers ctxErr = { c with
      barriers := c.barriers.filter fun b => (c.answerTo ctxErr b).isNone
      out := c.out ++ c.barriers.filterMap (c.answerTo ctxErr) } := by
  have key : ∀ (bs : List Barrier) (effs : List (Effect K V E)) (kept : List Barrier),
      bs.foldl (fun (s : Coord K V E × List Barrier) b =>
        match ctxErr b.reply with
        | some err => (s.1.emit (.barrier b.reply (some (barrierTimeout b.kind err))), s.2)
        | none =>
          if s.1.barrierSatisfied b then (s.1.emit (.barrier b.reply none), s.2)
          else (s.1, s.2 ++ [b])) ({ c with out := c.out ++ effs }, kept) =
      ({ c with out := c.out ++ (effs ++ bs.filterMap (c.answerTo ctxErr)) },
        kept ++ bs.filter fun b => (c.answerTo ctxErr b).isNone) := by
    intro bs
    induction bs with
    | nil => intro effs kept; simp
    | cons b bs ih =>
      intro effs kept
      rw [foldl_cons]
      have hsat : barrierSatisfied { c with out := c.out ++ effs } b = c.barrierSatisfied b := rfl
      cases hctx : ctxErr b.reply with
      | some err =>
        have hb : c.answerTo ctxErr b = some (.barrier b.reply (some (barrierTimeout b.kind err))) := by
          unfold answerTo; rw [hctx]
        have := ih (effs ++ [.barrier b.reply (some (barrierTimeout b.kind err))]) kept
        simp only [emit, ← append_assoc] at this ⊢
        rw [this]
        simp [hb]
      | none =>
        dsimp only
        rw [hsat]
        split
        · rename_i hs
          have hb : c.answerTo ctxErr b = some (.barrier b.reply none) := by
            unfold answerTo; rw [hctx]; exact if_pos hs
          have := ih (effs ++ [.barrier b.reply none]) kept
          simp only [emit, ← append_assoc] at this ⊢
          rw [this]
          simp [hb]
        rename_i hs
        have hb : c.answerTo ctxErr b = none := by
          unfold answerTo; rw [hctx]; exact if_neg hs
        rw [ih effs (kept ++ [b])]
        simp [hb]
  have h := key c.barriers [] []
  rw [show ({ c with out := c.out ++ [] } : Coord K V E) = c by rw [append_nil]] at h
  rw [nil_append, nil_append] at h
  exact congrArg (fun s : Coord K V E × List Barrier => { s.1 with barriers := s.2 }) h

lemma answerTo_some {ctxErr b eff} (h : c.answerTo ctxErr b = some eff) :
    ∃ err, eff = .barrier b.reply err ∧ (err = none → c.barrierSatisfied b = true) := by
  unfold answerTo at h
  split at h
  · cases h
    exact ⟨_, rfl, nofun⟩
  split at h
  · rename_i hs
    cases h
    exact ⟨_, rfl, fun _ => hs⟩
  · cases h

section

variable [Inhabited V]

lemma tryCompleteBarriers_act (hg : g.queue = none) (ctxErr : CtxErrs E) :
    Act cfg es jn g c g (c.tryCompleteBarriers ctxErr) := by
  rw [tryCompleteBarriers_eq]
  refine Act.answer _ _ (fun b hb => mem_of_mem_filter hb) ?_ hg ?_
  · intro eff heff
    obtain ⟨b, hb, h⟩ := mem_filterMap.1 heff
    exact ⟨b, hb, answerTo_some h⟩
  intro b hb
  cases ha : c.answerTo ctxErr b with
  | none => exact .inl (mem_filter.2 ⟨hb, by rw [ha]; rfl⟩)
  | some eff =>
    obtain ⟨err, rfl, -⟩ := answerTo_some ha
    exact .inr ⟨_, mem_filterMap.2 ⟨b, hb, ha⟩, rfl⟩

/-- All barriers are answered. -/
lemma failBarriers_act (hg : g.queue = none) (err : Option (GoError E))
    (h : err = none → ∀ b, c.barrierSatisfied b = true) : Act cfg es jn g c g (c.failBarriers err) := by
  rw [failBarriers_eq]
  refine Act.answer _ _ nofun ?_ hg ?_
  · intro eff heff
    obtain ⟨b, hb, rfl⟩ := mem_map.1 heff
    exact ⟨b, hb, err, rfl, fun he => h he b⟩
  · intro b hb
    exact .inr ⟨_, mem_map_of_mem hb, rfl⟩

end

/-- Nothing is queued or in flight once `drained`. -/
lemma drained_iff (hS : StructOK cfg g c) : c.drained = true ↔ c.inflight = ∅ ∧ ∀ pk, (c.part pk).indexed = [] := by
  have hslots := hS.slots
  unfold Coord.drained
  constructor
  · intro h
    split at h
    · cases h
    rename_i hz
    refine ⟨?_, fun pk => ?_⟩
    · apply AList.ext
      exact eq_nil_of_length_eq_zero (by omega)
    by_contra hne
    obtain ⟨it, hit⟩ := exists_mem_of_ne_nil _ hne
    obtain ⟨p, hp⟩ := Option.isSome_iff_exists.1 (AList.lookup_isSome.2 (mem_partitions_of_indexed hit))
    have hlive := hS.live pk
    have hpos := length_pos_of_mem hit
    rw [part_eq_of_lookup c hp] at hlive hpos
    have : (c.partitions.entries.any fun e => decide (0 < e.2.live)) = true := by
      rw [any_eq_true]
      exact ⟨⟨pk, p⟩, Table.mem_entries.2 hp, by simp only [decide_eq_true_eq]; omega⟩
    rw [this] at h
    cases h
  rintro ⟨hi, hidx⟩
  have hlen : c.inflight.entries.length = 0 := by rw [hi]; rfl
  rw [if_neg (by omega), Bool.not_eq_true', any_eq_false]
  intro e he
  have hlive := hS.live e.1
  rw [hidx, part_eq_of_lookup c (Table.mem_entries.1 he)] at hlive
  simp only [length_nil, Nat.cast_zero] at hlive
  simp [hlive]

lemma barrierSatisfied_of_drained (hS : StructOK cfg g c) (hg : g.queue = none)
    (hd : c.drained = true) (b : Barrier) : c.barrierSatisfied b = true := by
  obtain ⟨hi, hidx⟩ := (drained_iff hS).1 hd
  have hp : c.anyPending b.seq = false := by
    unfold anyPending
    rw [any_eq_false]
    intro e he hany
    rw [any_eq_true] at hany
    obtain ⟨it, hit, -⟩ := hany
    have hin : it ∈ (c.part e.1).indexed := by
      refine hS.queue_indexed ?_
      rw [Held.queueOf_none hg, part_eq_of_lookup c (Table.mem_entries.1 he)]
      exact hit
    rw [hidx] at hin
    cases hin
  have hf : c.anyInflight b.seq = false := by
    unfold anyInflight
    rw [hi]
    rfl
  unfold barrierSatisfied
  rw [hp, hf]
  simp

variable [Inhabited V]

/-- A turn ends with `schedule`, but for barriers, answers and the end of the loop. -/
lemma finishTurn_eq (cfg : BindingConfig K) (c : Coord K V E) (now : Time) (ctxErr : CtxErrs E) :
    ∃ bs out d, c.finishTurn cfg now ctxErr =
      { c.schedule cfg false now with barriers := bs, out := out, done := d } := by
  unfold finishTurn
  dsimp only
  rw [tryCompleteBarriers_eq, failBarriers_eq]
  split <;> exact ⟨_, _, _, rfl⟩

lemma finishTurn_acts (hok : CoordOK cfg es g c) (hg : g.queue = none) (now : Time)
    (ctxErr : CtxErrs E) : Acts cfg es jn g c g (c.finishTurn cfg now ctxErr) := by
  unfold finishTurn
  dsimp only
  have h1 : Acts cfg es jn g c g _ := (schedule_acts hok hg false now).acts
  have h2 : Act cfg es jn g _ g _ := tryCompleteBarriers_act (c := c.schedule cfg false now) hg ctxErr
  have h3 := h1.trans h2.one
  have hok₁ := (hok.acts h1).act h2
  set c₁ := (c.schedule cfg false now).tryCompleteBarriers ctxErr with hc₁
  split
  · rename_i hcd
    obtain ⟨hcl, hd⟩ : c₁.closing = true ∧ c₁.drained = true := by
      rw [Bool.and_eq_true] at hcd
      exact hcd
    have h4 : Act cfg es jn g c₁ g (c₁.failBarriers none) :=
      failBarriers_act hg none fun _ => barrierSatisfied_of_drained hok₁.struct hg hd
    have hcl' : (c₁.failBarriers none).closing = true := by rw [failBarriers_eq]; exact hcl
    have hd' : (c₁.failBarriers none).drained = true := by rw [failBarriers_eq]; exact hd
    exact (h3.trans h4.one).trans (Act.stop hcl' hd').one
  · exact h3

/-! ## Control requests and the engine's cancellation -/

section

variable (hok : CoordOK cfg es g c)
include hok

/-- `schedule` answers no barrier. -/
lemma SchedActs.answers {g' c'} (h : SchedActs cfg g c g' c') :
    c'.barriers = c.barriers ∧ c'.submitSeq = c.submitSeq ∧ ∀ eff ∈ c'.out, eff ∈ c.out ∨ eff.answers = none := by
  refine (h.keeps (I := fun g₁ c₁ => CoordOK cfg es g₁ c₁ ∧ c₁.barriers = c.barriers ∧
    c₁.submitSeq = c.submitSeq ∧ ∀ eff ∈ c₁.out, eff ∈ c.out ∨ eff.answers = none) ?_
    ⟨hok, rfl, rfl, fun _ he => .inl he⟩).2
  rintro g₁ c₁ g₂ c₂ ha ⟨hok₁, hb, hs, ho⟩
  refine ⟨hok₁.sched ha, ?_⟩
  cases ha with
  | quiet hq => rw [hq.barriers, hq.submitSeq, hq.out]; exact ⟨hb, hs, ho⟩
  | tooLarge pk l l' it _ _ _ =>
    rw [resolve_eq hok₁.nodup]
    refine ⟨hb, hs, fun eff he => ?_⟩
    rcases mem_append.1 he with he | he
    · exact ho eff he
    · obtain ⟨w, -, rfl⟩ := mem_map.1 he
      exact .inr rfl
  | dispatch pk l reason a _ _ _ _ _ =>
    rw [dispatch_eq]
    refine ⟨hb, hs, fun eff he => ?_⟩
    rcases mem_append.1 he with he | he
    · exact ho eff he
    · rw [mem_singleton.1 he]
      exact .inr rfl
  | _ => exact ⟨hb, hs, ho⟩

lemma timer_scheds (hg : g.queue = none) (now : Time) :
    SchedActs cfg g c g ({ c with timerActive := false }.schedule cfg false now) := by
  have hq : SchedAct cfg g c g { c with timerActive := false } := SchedAct.quiet { Quiet.refl cfg c with }
  exact hq.one.trans (schedule_acts (hok.sched hq) hg false now)

lemma control_scheds (hg : g.queue = none) (p : Prop) [Decidable p] (now : Time) :
    SchedActs cfg g c g ((if p then { c with closing := true } else c).schedule cfg true now) :=
  (SchedAct.quiet (.close cfg c p)).one.trans (schedule_acts (hok.sched (.quiet (.close cfg c p))) hg true now)

lemma handleControl_acts (hg : g.queue = none) (now : Time) {ctrl}
    (hl : Event.Legal cfg es c (.control now ctrl)) : Acts cfg es jn g c g (c.handleControl cfg now ctrl) := by
  unfold handleControl
  have h2 := control_scheds hok hg (ctrl.kind = .close) now
  obtain ⟨hb, -, ho⟩ := h2.answers hok
  refine ReflTransGen.trans h2.acts (Act.addBarrier _ rfl ?_ ?_).one
  · rw [hb]; exact hl.1
  intro eff he
  rcases ho eff he with he | he
  · exact hl.2 eff he
  · rw [he]; exact Option.some_ne_none _ ∘ Eq.symm

end

variable {it : ItemId}

/-- One step of `handleEngineCancel` over the items of the index. -/
lemma shut_step (jn : JoinRule K V E) {its} (hok : CoordOK cfg es g c)
    (he : c.engineDone = true) (hin : ∀ x ∈ it :: its, ∃ pk, x ∈ (c.part pk).indexed) :
    ∃ c₁, c₁ = c.deliverAll it (.error .engineClosed) ∧ Act cfg es jn g c g c₁ ∧ c₁.items = c.items ∧
      c₁.partitions = c.partitions ∧ c₁.waiters = c.quiet (c.items it).waiters ∧ c₁.engineDone = true ∧
      ∀ x ∈ its, ∃ pk, x ∈ (c₁.part pk).indexed := by
  obtain ⟨pk, hpk⟩ := hin it (mem_cons_self ..)
  refine ⟨_, rfl, Act.shut pk it he hpk, ?_⟩
  rw [deliverAll_eq hok.nodup]
  exact ⟨rfl, rfl, rfl, he, fun x hx => hin x (mem_cons_of_mem _ hx)⟩

lemma shutAll_acts : ∀ (its : List ItemId) (c : Coord K V E), CoordOK cfg es g c →
    c.engineDone = true → (∀ it ∈ its, ∃ pk, it ∈ (c.part pk).indexed) →
    Acts cfg es jn g c g (its.foldl (fun c it => c.deliverAll it (.error .engineClosed)) c) ∧
      (its.foldl (fun c it => c.deliverAll it (.error .engineClosed)) c).engineDone = true := by
  intro its
  induction its with
  | nil => intro c _ he _; exact ⟨ReflTransGen.refl, he⟩
  | cons it its ih =>
    intro c hok he hin
    obtain ⟨c₁, hc₁, hact, -, -, -, he₁, hin₁⟩ := shut_step jn hok he hin
    rw [foldl_cons, ← hc₁]
    obtain ⟨h1, h2⟩ := ih c₁ (hok.act hact) he₁ hin₁
    exact ⟨hact.one.trans h1, h2⟩

lemma cancelAll_acts : ∀ (ids : List BatchId) (c : Coord K V E), c.engineDone = true →
    Acts cfg es jn g c g (ids.foldl Coord.cancelBatch c) := by
  intro ids
  induction ids with
  | nil => intro c _; exact ReflTransGen.refl
  | cons id ids ih =>
    intro c he
    rw [foldl_cons]
    refine (Act.cancelCtx id he).one.trans (ih _ ?_)
    obtain ⟨_, _, hb⟩ := c.cancelBatch_eq id
    rw [hb]
    exact he

omit [Inhabited V] in
lemma mem_allIndexed : it ∈ c.allIndexed ↔ ∃ pk, it ∈ (c.part pk).indexed := by
  unfold allIndexed
  rw [Table.mem_gather]
  constructor
  · rintro ⟨pk, p, hp, hit⟩
    exact ⟨pk, by rw [part_eq_of_lookup c hp]; exact hit⟩
  rintro ⟨pk, hit⟩
  obtain ⟨p, hp⟩ := Option.isSome_iff_exists.1 (AList.lookup_isSome.2 (mem_partitions_of_indexed hit))
  exact ⟨pk, p, hp, by rw [part_eq_of_lookup c hp] at hit; exact hit⟩

lemma handleEngineCancel_acts (hok : CoordOK cfg es g c) (hg : g.queue = none)
    (he : c.engineDone = true) : Acts cfg es jn g c g c.handleEngineCancel := by
  unfold handleEngineCancel
  set c₁ : Coord K V E := { c with closing := true } with hc₁
  have h1 : Act cfg es jn g c g c₁ := Act.sched (SchedAct.quiet { Quiet.refl cfg c with closing := fun _ => rfl })
  obtain ⟨h2, he₂⟩ : Acts cfg es jn g c₁ g _ ∧ _ :=
    shutAll_acts c₁.allIndexed c₁ (hok.act h1) he (fun it hit => mem_allIndexed.1 hit)
  set c₂ := c₁.allIndexed.foldl (fun c it => c.deliverAll it (.error .engineClosed)) c₁ with hc₂
  have h3 : Acts cfg es jn g c₂ g (c₂.inflight.keys.foldl Coord.cancelBatch c₂) :=
    cancelAll_acts c₂.inflight.keys c₂ he₂
  set c₃ := c₂.inflight.keys.foldl Coord.cancelBatch c₂ with hc₃
  have h4 : Act cfg es jn g c₃ g (c₃.failBarriers (some .engineClosed)) := failBarriers_act hg _ nofun
  exact ((h1.one.trans h2).trans h3).trans h4.one

/-! ## Moves -/

variable {t : Turn K V E}

lemma handle_acts (hok : CoordOK cfg es {} c) (hl : t.event.Legal cfg es c)
    (hjn : JoinsOnly cfg jn c (.turn t)) : Acts cfg (es ++ [.turn t]) jn {} c {} (c.handle cfg t.event) := by
  have hok' := hok.mono (.turn t)
  obtain ⟨event, now', ctxErr⟩ := t
  unfold Coord.handle
  cases event with
  | submit now req dl =>
    exact (Act.spawn req dl hl.1 (mem_filterMap_snoc rfl) rfl).one.trans
      (handleSubmit_acts rfl rfl now (hjn _ (mem_singleton.2 rfl)))
  | cancel cr =>
    exact handleCancel_acts hok' rfl (mem_filterMap_snoc rfl)
  | complete now done =>
    refine handleComplete_acts hok' rfl rfl now (mem_filterMap_snoc rfl) fun b hb x hx => hjn x ?_
    unfold submitCalls
    dsimp only
    rw [hb]
    exact hx
  | control now ctrl => exact handleControl_acts hok' rfl now hl
  | timer now => exact (timer_scheds hok' rfl now).acts
  | engine => exact handleEngineCancel_acts hok' rfl hl

lemma closing_handleEngineCancel (c : Coord K V E) : c.handleEngineCancel.closing = true := by
  unfold handleEngineCancel
  rw [failBarriers_eq]
  refine (foldl_view Coord.closing (fun c id => ?_) _ _).trans
    (foldl_view Coord.closing (fun c it => ?_) _ { c with closing := true })
  · unfold Coord.cancelBatch
    split <;> rfl
  refine foldl_view Coord.closing (fun c w => ?_) _ c
  unfold deliver
  split <;> rfl

/-- A turn handles its event and ends, or it ends the loop. -/
lemma turn_cases (cfg : BindingConfig K) (c : Coord K V E) (t : Turn K V E) :
    c.turn cfg t = (c.handle cfg t.event).finishTurn cfg t.now t.ctxErr ∨
      ((c.handle cfg t.event).closing = true ∧ (c.handle cfg t.event).drained = true) ∧
        c.turn cfg t = { c.handle cfg t.event with done := true } := by
  unfold Coord.turn
  dsimp only
  split
  · rename_i he
    rw [he]
    split
    · rename_i hd
      exact .inr ⟨⟨closing_handleEngineCancel c, hd⟩, rfl⟩
    · exact .inl rfl
  · exact .inl rfl

/-- The end of a turn. -/
lemma turn_acts (hok : CoordOK cfg es {} (c.handle cfg t.event)) :
    Acts cfg es jn {} (c.handle cfg t.event) {} (c.turn cfg t) := by
  rcases turn_cases cfg c t with h | ⟨⟨hc, hd⟩, h⟩
  · rw [h]; exact finishTurn_acts hok rfl t.now t.ctxErr
  · rw [h]; exact (Act.stop hc hd).one

/-- **Every legal move is a sequence of actions.** -/
theorem move_acts (hok : CoordOK cfg es {} c) {m : Move K V E} (hl : m.Legal cfg es c)
    (hjn : JoinsOnly cfg jn c m) : Acts cfg (es ++ [m]) jn {} c {} (c.move cfg m) := by
  have hok' := hok.mono m
  cases m with
  | turn t =>
    have h1 := handle_acts hok hl.2 hjn
    exact h1.trans (turn_acts (hok'.acts h1))
  | cancelEngine =>
    have hq : Quiet cfg c { c with engineDone := true } := { Quiet.refl cfg c with engineDone := fun _ => rfl }
    exact (Act.sched (SchedAct.quiet hq)).one
  | adapt s =>
    exact (Act.adapt _ (.inr ⟨s, rfl⟩)).one
  | clearAdaptive => exact (Act.adapt none (.inl rfl)).one
  | newRequestID =>
    have hq : Quiet cfg c { c with requestSeq := c.requestSeq + 1 } :=
      { Quiet.refl cfg c with requestSeq := Nat.le_succ _ }
    exact (Act.sched (SchedAct.quiet hq)).one

end

/-! ## Runs -/

section Runs

variable [Inhabited K] [Inhabited V]

variable {m : Move K V E}

omit [Inhabited K] in
lemma joinsOnly_true {c} : JoinsOnly cfg anyJoin c m := fun _ _ _ _ => trivial

variable {J : List (Move K V E) → Held K → Coord K V E → Prop} {c : Coord K V E}

/-- **The invariant holds in every reachable state.** -/
theorem reach_ok (h : (coordinator cfg).Reach es c) : CoordOK cfg es {} c :=
  h.invariant (I := fun es c => CoordOK cfg es {} c) CoordOK.init fun _ _ m _ hl hok =>
    (hok.mono m).acts (move_acts hok hl joinsOnly_true)

omit [Inhabited K] in
/-- The actions of a move keep what every action keeps. -/
lemma Acts.retains {jn : JoinRule K V E} {c' : Coord K V E} (ha : Acts cfg (es ++ [m]) jn {} c {} c')
    (hok : CoordOK cfg es {} c) (hmono : ∀ es m g c, J es g c → J (es ++ [m]) g c)
    (hact : ∀ es g c g' c', CoordOK cfg es g c → Act cfg es jn g c g' c' → J es g c → J es g' c') (hJ : J es {} c) :
    J (es ++ [m]) {} c' :=
  (ha.keeps (I := fun g c => CoordOK cfg (es ++ [m]) g c ∧ J (es ++ [m]) g c)
    (fun g c g' c' ha hI => ⟨hI.1.act ha, hact _ g c g' c' hI.1 ha hI.2⟩) ⟨hok.mono m, hmono es m {} c hJ⟩).2

/-- **What holds at the start and every action keeps holds in every reachable state**, in
the runs whose joins meet a condition. -/
theorem reach_keeps {jn : JoinRule K V E}
    {Q : List (Move K V E) → Coord K V E → Move K V E → Prop} (hQ : ∀ es c m, Q es c m → JoinsOnly cfg jn c m)
    (h0 : J [] {} Coord.init) (hmono : ∀ es m g c, J es g c → J (es ++ [m]) g c)
    (hact : ∀ es g c g' c', CoordOK cfg es g c → Act cfg es jn g c g' c' → J es g c → J es g' c')
    (h : ((coordinator cfg).only Q).Reach es c) : J es {} c := by
  refine h.invariant (I := fun es c => J es {} c) h0 ?_
  intro es c m hr hl hJ
  have hok := reach_ok hr.of_only
  exact (move_acts hok hl.1 (hQ es c m hl.2)).retains hok hmono hact hJ

/-- **What holds at the start and every action keeps holds in every reachable state.** -/
theorem reach_always (h0 : J [] {} Coord.init) (hmono : ∀ es m g c, J es g c → J (es ++ [m]) g c)
    (hact : ∀ es g c g' c', CoordOK cfg es g c → Act cfg es anyJoin g c g' c' → J es g c → J es g' c')
    (h : (coordinator cfg).Reach es c) : J es {} c :=
  reach_keeps (fun _ _ _ _ => joinsOnly_true) h0 hmono hact h.of_true

lemma reach_move (h : (coordinator cfg).Reach es c) (hl : m.Legal cfg es c) :
    (coordinator cfg).Reach (es ++ [m]) (c.move cfg m) :=
  h.step m hl

/-- **What holds in a reachable state and every action keeps holds from there on.** -/
theorem steps_always (h : (coordinator cfg).Reach es c) (h0 : J es {} c)
    (hmono : ∀ es m g c, J es g c → J (es ++ [m]) g c)
    (hact : ∀ es g c g' c', CoordOK cfg es g c → Act cfg es anyJoin g c g' c' → J es g c → J es g' c')
    {es' : List (Move K V E)} {c' : Coord K V E} (hs : (coordinator cfg).Steps es c es' c') : J es' {} c' := by
  refine hs.invariant h (I := fun es c => J es {} c) h0 ?_
  intro es c m hr hl hJ
  have hok := reach_ok hr
  exact (move_acts hok hl joinsOnly_true).retains hok hmono hact hJ

end Runs

end BatchWeaver
