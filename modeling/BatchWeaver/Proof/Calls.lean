import BatchWeaver.Spec.Call
import BatchWeaver.Proof.Flight

/-!
# Calls and the coordinator

* `net_refines`: with its callers, the coordinator is the system of its own turns; what the
  callers send is what `Legal` asks for.
* `canceled_call_gone`: if no cancel message marked blocked comes after its submission was
  admitted, a call whose cancel message was handled has left nothing behind.
* `cancel_lost`: a cancellation that is lost.
-/

namespace BatchWeaver

open List

variable {K V E : Type} {cfg : BindingConfig K} {cr : CancelReq}

/-- The moves of the coordinator in a run. -/
def moves (es : List (NetEvent K V E)) : List (Move K V E) := es.filterMap NetEvent.move

lemma moves_append (es : List (NetEvent K V E)) (e : NetEvent K V E) :
    moves (es ++ [e]) = moves es ++ e.move.toList := by
  unfold moves
  rw [filterMap_append]
  cases hm : e.move with
  | none => rw [filterMap_cons_none hm]; rfl
  | some m => rw [filterMap_cons_some hm]; rfl

/-- The call has returned the error of its context. -/
def Net.Quit (s : Net K V E) (w : WaiterId) : Prop := (s.calls w).map Call.stage = some (.returned .canceled)

/-! ## What the stage of a call says -/

/-- A value, or that there is none. -/
def Return.isAnswer : Return V E → Bool
  | .value _ => true
  | .missing => true
  | _ => false

/-- What the coordinator has received and sent, by the stage of the call. -/
def StageOK (ms : List (Move K V E)) (c : Coord K V E) (req : SubmitReq K) : Stage V E → Prop
  | .submitting => ∀ r ∈ submitted ms, r.waiter ≠ req.waiter
  | .waitAdmit => req ∈ submitted ms
  | .waitResult => req ∈ submitted ms ∧ Effect.reply req.waiter none ∈ c.out
  | .sending cr => Sent ms c cr ∧ cr.waiterID = req.waiter
  | .returned r => r.isAnswer = true → ∃ x, Effect.result req.waiter x ∈ c.out ∧ finish x = r

/-- A call is as `Do` made it, and where its stage says. -/
structure CallOK (cfg : BindingConfig K) (ms : List (Move K V E)) (c : Coord K V E) (w : WaiterId)
    (call : Call K V E) : Prop where
  waiter : call.req.waiter = w
  old : w ≤ c.requestSeq
  hash : call.req.hash = cfg.keys.hash call.req.key
  weight : 0 ≤ call.req.weight
  bytes : 0 ≤ call.req.bytes
  stage : StageOK ms c call.req call.stage

/-- **Callers and coordinator agree.** -/
structure NetOK (cfg : BindingConfig K) (ms : List (Move K V E)) (s : Net K V E) : Prop where
  calls : ∀ w call, s.calls w = some call → CallOK cfg ms s.coord w call
  known : ∀ req ∈ submitted ms, req.waiter ≤ s.coord.requestSeq
  queued : ∀ cr ∈ s.cancelCh, Sent ms s.coord cr ∧ s.Quit cr.waiterID
  handled : ∀ cr ∈ cancellations ms, s.Quit cr.waiterID

section

variable {ms : List (Move K V E)} {s : Net K V E} {c c' : Coord K V E}

lemma Sent.mono (h : Sent ms c cr) (hout : c.out ⊆ c'.out) (m : Move K V E) : Sent (ms ++ [m]) c' cr := by
  obtain ⟨req, hreq, hw, hor⟩ := h
  exact ⟨req, mem_submitted_mono hreq m, hw, hor.imp_right fun h => ⟨h.1, hout h.2⟩⟩

variable {w : WaiterId} {m : Move K V E} {stage : Stage V E}

lemma StageOK.mono {req} (h : StageOK ms c req stage) (hout : c.out ⊆ c'.out)
    (hm : ∀ r, m.submission = some r → r.waiter ≠ req.waiter) : StageOK (ms ++ [m]) c' req stage := by
  cases stage with
  | submitting =>
    intro r hr
    rw [submitted_append, mem_append] at hr
    exact hr.elim (h r) fun hr => hm r (Option.mem_toList.1 hr)
  | waitAdmit => exact mem_submitted_mono h m
  | waitResult => exact ⟨mem_submitted_mono h.1 m, hout h.2⟩
  | sending cr => exact ⟨h.1.mono hout m, h.2⟩
  | returned r => exact fun ha => (h ha).imp fun x hx => ⟨hout hx.1, hx.2⟩

lemma CallOK.mono {call} (h : CallOK cfg ms c w call) (hr : c.requestSeq ≤ c'.requestSeq)
    (hout : c.out ⊆ c'.out) (hm : ∀ r, m.submission = some r → r.waiter ≠ w) : CallOK cfg (ms ++ [m]) c' w call :=
  ⟨h.waiter, h.old.trans hr, h.hash, h.weight, h.bytes, h.stage.mono hout fun r hr => by rw [h.waiter]; exact hm r hr⟩

/-! ## Steps of the callers -/

lemma Net.calls_setCall (s : Net K V E) (w v : WaiterId) (f : Call K V E → Call K V E) :
    (s.setCall w f).calls v = if v = w then (s.calls w).map f else s.calls v :=
  Function.update_apply ..

/-- A call that has returned stays so. -/
lemma Net.Quit.setCall {v w} {f : Call K V E → Call K V E} (hv : s.Quit v)
    (hq : ∀ call, s.calls w = some call → call.stage = .returned .canceled →
      (f call).stage = .returned .canceled) : (s.setCall w f).Quit v := by
  unfold Net.Quit at hv ⊢
  rw [Net.calls_setCall]
  split
  · rename_i he
    subst he
    cases hc : s.calls v with
    | none => rw [hc] at hv; cases hv
    | some call =>
      rw [hc] at hv
      exact congrArg some (hq call hc (Option.some.inj hv))
  · exact hv

lemma NetOK.setCall (h : NetOK cfg ms s) {f : Call K V E → Call K V E}
    (hf : ∀ call, s.calls w = some call → CallOK cfg ms s.coord w (f call))
    (hq : ∀ call, s.calls w = some call → call.stage = .returned .canceled → (f call).stage = .returned .canceled) :
    NetOK cfg ms (s.setCall w f) := by
  refine ⟨fun v call hv => ?_, h.known, fun cr hcr => ⟨(h.queued cr hcr).1, (h.queued cr hcr).2.setCall hq⟩,
    fun cr hcr => (h.handled cr hcr).setCall hq⟩
  rw [Net.calls_setCall] at hv
  split at hv
  · rename_i he
    subst he
    obtain ⟨call', hc, rfl⟩ := Option.map_eq_some_iff.1 hv
    exact hf call' hc
  · exact h.calls v call hv

lemma NetOK.setStage (h : NetOK cfg ms s) {call} (hc : s.calls w = some call)
    (hn : call.stage ≠ .returned .canceled) (hst : StageOK ms s.coord call.req stage) :
    NetOK cfg ms (s.setStage w stage) := by
  refine h.setCall (fun call' hc' => ?_) fun call' hc' hq => ?_
  · obtain rfl : call = call' := Option.some.inj (hc.symm.trans hc')
    have hw := h.calls w call hc
    exact ⟨hw.waiter, hw.old, hw.hash, hw.weight, hw.bytes, hst⟩
  · obtain rfl : call = call' := Option.some.inj (hc.symm.trans hc')
    exact absurd hq hn

lemma Net.mem_of_reply {err} (h : s.reply w = some err) : Effect.reply w err ∈ s.coord.out := by
  obtain ⟨eff, he, hr⟩ := exists_of_findSome?_eq_some h
  cases eff <;> simp only [Effect.replyFor, Option.ite_none_right_eq_some, Option.some.injEq, reduceCtorEq] at hr
  obtain ⟨rfl, rfl⟩ := hr
  exact mem_of_mem_take he

lemma Net.mem_of_result {x} (h : s.result w = some x) : Effect.result w x ∈ s.coord.out := by
  obtain ⟨eff, he, hr⟩ := exists_of_findSome?_eq_some h
  cases eff <;> simp only [Effect.resultFor, Option.ite_none_right_eq_some, Option.some.injEq, reduceCtorEq] at hr
  obtain ⟨rfl, rfl⟩ := hr
  exact mem_of_mem_take he

lemma StageOK.ofAdmit {req err} (h : req ∈ submitted ms)
    (hr : s.reply req.waiter = some err) : StageOK ms s.coord req (.ofAdmit err) := by
  have hmem := Net.mem_of_reply hr
  unfold Stage.ofAdmit
  split
  · exact ⟨h, hmem⟩
  · exact nofun
  · exact nofun

/-- **A `select` leads to a stage that says what is the case**, and not from a call that has
returned. -/
theorem doSelect_ok (h : NetOK cfg ms s) {call : Call K V E} (hc : s.calls w = some call) {k : Case}
    (hs : s.doSelect call k = some stage) : call.stage ≠ .returned .canceled ∧ StageOK ms s.coord call.req stage := by
  have hst := (h.calls w call hc).stage
  unfold Net.doSelect at hs
  cases k with
  | value =>
    cases hcs : call.stage with
    | waitAdmit =>
      rw [hcs] at hs hst
      obtain ⟨err, hr, rfl⟩ := Option.map_eq_some_iff.1 hs
      exact ⟨by simp, StageOK.ofAdmit hst hr⟩
    | waitResult =>
      rw [hcs] at hs
      obtain ⟨r, hr, rfl⟩ := Option.map_eq_some_iff.1 hs
      exact ⟨by simp, fun _ => ⟨r, Net.mem_of_result hr, rfl⟩⟩
    | _ => rw [hcs] at hs; cases hs
  | ctxDone =>
    dsimp only at hs
    split at hs
    · cases hcs : call.stage with
      | submitting => rw [hcs] at hs; cases hs; exact ⟨by simp, nofun⟩
      | waitAdmit =>
        rw [hcs] at hs hst
        dsimp only at hs
        refine ⟨by simp, ?_⟩
        split at hs
        · rename_i err hr
          cases hs
          exact StageOK.ofAdmit hst hr
        · cases hs
          exact ⟨⟨call.req, hst, rfl, .inl rfl⟩, rfl⟩
      | waitResult =>
        rw [hcs] at hs hst
        dsimp only at hs
        refine ⟨by simp, ?_⟩
        split at hs
        · rename_i r hr
          cases hs
          exact fun _ => ⟨r, Net.mem_of_result hr, rfl⟩
        · cases hs
          exact ⟨⟨call.req, hst.1, rfl, .inr ⟨rfl, hst.2⟩⟩, rfl⟩
      | _ => rw [hcs] at hs; cases hs
    · cases hs
  | done =>
    dsimp only at hs
    split at hs
    · cases hcs : call.stage with
      | returned r => rw [hcs] at hs; cases hs
      | _ => rw [hcs] at hs; cases hs; exact ⟨by simp, nofun⟩
    · cases hs

/-- `sendCancel` hands its message to the channel and the call returns. -/
lemma NetOK.post (h : NetOK cfg ms s) {call} (hc : s.calls w = some call) (hst : call.stage = .sending cr) :
    NetOK cfg ms { s.setStage w (.returned .canceled) with cancelCh := s.cancelCh ++ [cr] } := by
  have h₁ : NetOK cfg ms (s.setStage w (.returned .canceled)) := h.setStage hc (by rw [hst]; simp) nofun
  have hw := h.calls w call hc
  have hsent := hw.stage
  rw [hst] at hsent
  refine ⟨h₁.calls, h₁.known, fun x hx => ?_, h₁.handled⟩
  rcases mem_append.1 hx with hx | hx
  · exact h₁.queued x hx
  rw [mem_singleton.1 hx]
  refine ⟨hsent.1, ?_⟩
  have hid : cr.waiterID = w := hsent.2.trans hw.waiter
  unfold Net.Quit
  rw [hid, Net.setStage, Net.calls_setCall, if_pos rfl, hc]
  rfl

/-! ## Steps of the coordinator -/

/-- A move that takes no submission. -/
lemma NetOK.move (h : NetOK cfg ms s) (hf : Forward s.coord c') (hsub : m.submission = none)
    (hcan : ∀ cr, m.cancellation = some cr → s.Quit cr.waiterID) : NetOK cfg (ms ++ [m]) { s with coord := c' } := by
  refine ⟨fun w call hc => ?_, fun req hreq => ?_, fun cr hcr => ?_, fun cr hcr => ?_⟩
  · exact (h.calls w call hc).mono hf.requestSeq hf.out fun r hr => by rw [hsub] at hr; cases hr
  · rw [submitted_append, hsub, Option.toList_none, append_nil] at hreq
    exact (h.known req hreq).trans hf.requestSeq
  · exact ⟨(h.queued cr hcr).1.mono hf.out m, (h.queued cr hcr).2⟩
  · rw [cancellations_append, mem_append] at hcr
    exact hcr.elim (h.handled cr) fun hcr => hcan cr (Option.mem_toList.1 hcr)

/-- The coordinator receives the submission of a call. -/
lemma NetOK.submit (h : NetOK cfg ms s) (hf : Forward s.coord c') {call}
    (hc : s.calls call.req.waiter = some call) (hst : call.stage = .submitting)
    (hsub : m.submission = some call.req) (hcan : m.cancellation = none) :
    NetOK cfg (ms ++ [m]) { s.setStage call.req.waiter .waitAdmit with coord := c' } := by
  have hw := h.calls _ call hc
  have hquit : ∀ v, s.Quit v → (s.setStage call.req.waiter .waitAdmit).Quit v := by
    intro v hv
    refine hv.setCall fun call' hc' hq => ?_
    obtain rfl : call = call' := Option.some.inj (hc.symm.trans hc')
    rw [hst] at hq
    cases hq
  refine ⟨fun v call' hv => ?_, fun req hreq => ?_, fun cr hcr => ?_, fun cr hcr => ?_⟩
  · rw [Net.setStage, Net.calls_setCall] at hv
    split at hv
    · rename_i he
      subst he
      rw [hc] at hv
      cases hv
      refine ⟨rfl, hw.old.trans hf.requestSeq, hw.hash, hw.weight, hw.bytes, ?_⟩
      show call.req ∈ submitted (ms ++ [m])
      rw [submitted_append, hsub]
      exact mem_append_right _ (mem_singleton.2 rfl)
    rename_i he
    refine (h.calls v call' hv).mono hf.requestSeq hf.out fun r hr => ?_
    rw [hsub] at hr
    cases hr
    exact Ne.symm he
  · rw [submitted_append, hsub, mem_append] at hreq
    rcases hreq with hreq | hreq
    · exact (h.known req hreq).trans hf.requestSeq
    · rw [mem_singleton.1 hreq]
      exact hw.old.trans hf.requestSeq
  · exact ⟨(h.queued cr hcr).1.mono hf.out m, hquit _ (h.queued cr hcr).2⟩
  · rw [cancellations_append, hcan, Option.toList_none, append_nil] at hcr
    exact hquit _ (h.handled cr hcr)

/-- A new call takes the next number. -/
lemma NetOK.call (h : NetOK cfg ms s) (part : Partition) (key : K) {weight bytes}
    (hw : 0 ≤ weight) (hb : 0 ≤ bytes) (deadline : Option Time) :
    NetOK cfg (ms ++ [.newRequestID]) { s with
      coord := { s.coord with requestSeq := s.coord.requestSeq + 1 }
      calls := Function.update s.calls (s.coord.requestSeq + 1)
        (some (Net.newCall cfg (s.coord.requestSeq + 1) part key weight bytes deadline)) } := by
  have hf : Forward s.coord { s.coord with requestSeq := s.coord.requestSeq + 1 } :=
    ⟨Nat.le_succ _, fun _ he => he, le_rfl, id, id⟩
  have h₁ : NetOK cfg (ms ++ [.newRequestID]) _ := h.move hf rfl nofun
  have hnew : s.calls (s.coord.requestSeq + 1) = none := by
    cases hc : s.calls (s.coord.requestSeq + 1) with
    | none => rfl
    | some call => exact absurd (h.calls _ call hc).old (Nat.not_succ_le_self _)
  have hquit : ∀ v, s.Quit v → v ≠ s.coord.requestSeq + 1 := by
    rintro v hv rfl
    unfold Net.Quit at hv
    rw [hnew] at hv
    cases hv
  have hkeep : ∀ v, s.Quit v → Net.Quit { s with
      coord := { s.coord with requestSeq := s.coord.requestSeq + 1 }
      calls := Function.update s.calls (s.coord.requestSeq + 1)
        (some (Net.newCall cfg (s.coord.requestSeq + 1) part key weight bytes deadline)) } v := by
    intro v hv
    unfold Net.Quit
    dsimp only
    rw [Function.update_of_ne (hquit v hv)]
    exact hv
  refine ⟨fun v call hv => ?_, h₁.known, fun cr hcr => ?_, fun cr hcr => hkeep _ (h₁.handled cr hcr)⟩
  · by_cases he : v = s.coord.requestSeq + 1
    · subst he
      dsimp only at hv
      rw [Function.update_self] at hv
      cases hv
      refine ⟨rfl, le_rfl, rfl, hw, hb, fun r hr hv => ?_⟩
      rw [submitted_append] at hr
      have hle := h.known r (by simpa [Move.submission] using hr)
      rw [hv] at hle
      exact Nat.not_succ_le_self _ hle
    dsimp only at hv
    rw [Function.update_of_ne he] at hv
    exact h₁.calls v call hv
  · exact ⟨(h₁.queued cr hcr).1, hkeep _ (h₁.queued cr hcr).2⟩

end

section Runs

variable [Inhabited K] [Inhabited V] {ms : List (Move K V E)} {s : Net K V E} {c : Coord K V E} {e : NetEvent K V E} {m : Move K V E}

/-- **What the callers send is what the coordinator may receive.** -/
theorem NetOK.legal (h : NetOK cfg ms s) (hr : (coordinator cfg).Reach ms s.coord) (hok : s.Ok cfg e)
    (hm : e.move = some m) : m.Legal cfg ms s.coord := by
  cases e with
  | call part key weight bytes deadline => cases hm; trivial
  | outside m' =>
    cases hm
    cases m with
    | turn t => cases hok
    | _ => trivial
  | turn t =>
    cases hm
    obtain ⟨hd, -, hrec⟩ := hok
    refine ⟨hd, ?_⟩
    obtain ⟨event, now', ctxErr⟩ := t
    cases event with
    | submit now req deadline =>
      obtain ⟨call, hc, he⟩ := Option.map_eq_some_iff.1 hrec
      simp only [Prod.mk.injEq] at he
      obtain ⟨rfl, rfl, hst⟩ := he
      have hw := h.calls _ call hc
      refine ⟨?_, hw.hash, hw.weight, hw.bytes⟩
      cases hb : s.coord.waiters call.req.waiter with
      | none => rfl
      | some x =>
        -- the waiter would have been submitted
        obtain ⟨r, hr, he⟩ := born_submitted hr call.req.waiter (by rw [hb]; rfl)
        have hsub := hw.stage
        rw [hst] at hsub
        exact absurd he (hsub r hr)
    | cancel cr => exact (h.queued cr (mem_of_mem_head? hrec)).1
    | _ => exact hrec
  | _ => cases hm

/-- An event with a move of the coordinator. -/
lemma NetOK.next_move (h : NetOK cfg ms s) (hr : (coordinator cfg).Reach ms s.coord) (hok : s.Ok cfg e)
    (hm : e.move = some m) : NetOK cfg (ms ++ [m]) (s.next cfg e) ∧ (s.next cfg e).coord = s.coord.move cfg m := by
  have hl := h.legal hr hok hm
  have hf : Forward s.coord (s.coord.move cfg m) :=
    Forward.acts ((reach_ok hr).mono m) (move_acts (reach_ok hr) hl joinsOnly_true)
  cases e with
  | call part key weight bytes deadline =>
    cases hm
    exact ⟨h.call part key hok.1 hok.2 deadline, rfl⟩
  | outside m' =>
    cases hm
    cases m with
    | turn t => cases hok
    | _ => exact ⟨h.move hf rfl nofun, rfl⟩
  | turn t =>
    cases hm
    refine ⟨?_, rfl⟩
    obtain ⟨event, now', ctxErr⟩ := t
    have hrec := hok.2.2
    cases event with
    | submit now req deadline =>
      obtain ⟨call, hc, he⟩ := Option.map_eq_some_iff.1 hrec
      simp only [Prod.mk.injEq] at he
      obtain ⟨rfl, rfl, hst⟩ := he
      exact h.submit hf hc hst rfl rfl
    | cancel cr =>
      have h₁ := h.move hf (m := .turn ⟨.cancel cr, now', ctxErr⟩) rfl fun cr' hcr => by
        cases hcr
        exact (h.queued cr (mem_of_mem_head? hrec)).2
      exact ⟨h₁.calls, h₁.known, fun x hx => h₁.queued x (mem_of_mem_tail hx), h₁.handled⟩
    | _ => exact h.move hf rfl nofun
  | _ => cases hm

omit [Inhabited K] in
/-- An event of the callers alone. -/
lemma NetOK.next_none (h : NetOK cfg ms s) (hm : e.move = none) :
    NetOK cfg ms (s.next cfg e) ∧ (s.next cfg e).coord = s.coord := by
  cases e with
  | expire w =>
    refine ⟨h.setCall (fun call hc => ?_) fun call _ hq => hq, rfl⟩
    have hw := h.calls w call hc
    exact ⟨hw.waiter, hw.old, hw.hash, hw.weight, hw.bytes, hw.stage⟩
  | select w k =>
    unfold Net.next
    dsimp only
    split
    · rename_i stage hs
      obtain ⟨call, hc, hs⟩ := Option.bind_eq_some_iff.1 hs
      obtain ⟨hn, hst⟩ := doSelect_ok h hc hs
      exact ⟨h.setStage hc hn hst, rfl⟩
    · exact ⟨h, rfl⟩
  | post w =>
    unfold Net.next
    dsimp only
    split
    · rename_i cr hs
      obtain ⟨call, hc, hst⟩ := Option.map_eq_some_iff.1 hs
      exact ⟨h.post hc hst, rfl⟩
    · exact ⟨h, rfl⟩
  | reveal => exact ⟨⟨h.calls, h.known, h.queued, h.handled⟩, rfl⟩
  | _ => cases hm

/-- **The callers keep to what the coordinator assumes.** A run of the coordinator with its
callers is, seen from the coordinator, a run of its own system; and what the stage of a call
says is the case. -/
theorem net_refines {es : List (NetEvent K V E)} (h : (net cfg).Reach es s) :
    (coordinator cfg).Reach (moves es) s.coord ∧ NetOK cfg (moves es) s := by
  refine h.refines (I := fun es s => NetOK cfg (moves es) s) rfl
    ⟨fun w call hc => ?_, fun req hreq => ?_, fun cr hcr => ?_, fun cr hcr => ?_⟩ ?_
  · cases hc
  · cases hreq
  · cases hcr
  · cases hcr
  intro es s e hok hr hI
  refine ⟨?_, fun hm => (hI.next_none hm).2, fun m hm => ⟨hI.legal hr hok hm, (hI.next_move hr hok hm).2⟩⟩
  rw [moves_append]
  cases hm : e.move with
  | none => rw [Option.toList_none, append_nil]; exact (hI.next_none hm).1
  | some m => exact (hI.next_move hr hok hm).1

/-! ## What a canceled call leaves behind -/

/-- The waiter is not active in any item and its submission is not parked. -/
structure Coord.Forgot (c : Coord K V E) (w : WaiterId) : Prop where
  item : ∀ it, w ∈ (c.items it).waiters → c.active w = false
  blocked : ∀ req ∈ c.blocked, req.waiter ≠ w

/-- The message is marked blocked, but the submission was admitted and its waiter waits. -/
def Overlooks (c : Coord K V E) (cr : CancelReq) : Prop :=
  cr.blocked = true ∧ c.active cr.waiterID = true ∧ Effect.reply cr.waiterID none ∈ c.out

/-- No message overlooks its waiter. -/
def InTime (s : Net K V E) : NetEvent K V E → Prop
  | .turn ⟨.cancel cr, _, _⟩ => ¬ Overlooks s.coord cr
  | _ => True

omit [Inhabited K] [Inhabited V] in
lemma Dead.forgot {w} (h : Dead w {} c) : c.Forgot w := by
  refine ⟨fun it hit => ?_, h.free⟩
  cases hact : c.active w with
  | false => rfl
  | true => exact absurd hit (h.idle hact it)

lemma overlooks_iff (h : (coordinator cfg).Reach ms c) (cr : CancelReq) : Overlooks c cr ↔
      cr.blocked = true ∧ c.active cr.waiterID = true ∧ ∃ it, cr.waiterID ∈ (c.items it).waiters := by
  unfold Overlooks
  rw [(reach_delivery h).admitted]

/-- **A cancel message takes its waiter out exactly if it does not overlook it.** -/
theorem handleCancel_forgot (h : (coordinator cfg).Reach ms c) (hs : Sent ms c cr) :
    (c.handleCancel cr).Forgot cr.waiterID ↔ ¬ Overlooks c cr := by
  rw [overlooks_iff h]
  constructor
  · rintro hf ⟨hb, hact, it, hit⟩
    rw [handleCancel_blocked hb] at hf
    have hoff : c.active cr.waiterID = false := hf.item it hit
    rw [hact] at hoff
    cases hoff
  · exact fun hn => (handleCancel_dead h hs hn).forgot

/-- In the runs without overlooked waiters a handled cancel message is final. -/
lemma canceled_dead {es} (h : ((net cfg).only fun _ s e => InTime s e).Reach es s) :
    ∀ cr ∈ cancellations (moves es), Dead cr.waiterID {} s.coord := by
  refine h.invariant (I := fun es s => ∀ cr ∈ cancellations (moves es), Dead cr.waiterID {} s.coord) nofun ?_
  intro es s e hreach hok ih cr hcr
  obtain ⟨hr, hI⟩ := net_refines hreach.of_only
  rw [moves_append] at hcr
  cases hm : e.move with
  | none =>
    rw [hm, Option.toList_none, append_nil] at hcr
    show Dead cr.waiterID {} (s.next cfg e).coord
    rw [(hI.next_none hm).2]
    exact ih cr hcr
  | some m =>
    have hl := hI.legal hr hok.1 hm
    have hcok := reach_ok hr
    show Dead cr.waiterID {} (s.next cfg e).coord
    rw [(hI.next_move hr hok.1 hm).2]
    rw [hm, Option.toList_some, cancellations_append, mem_append] at hcr
    rcases hcr with hcr | hcr
    · exact ((ih cr hcr).acts (hcok.mono m) (move_acts hcok hl joinsOnly_true)).1
    obtain ⟨now, ctxErr, rfl⟩ := cancellation_eq_some (Option.mem_toList.1 hcr)
    obtain ⟨hok₁, hacts⟩ := cancel_acts hcok cr now ctxErr
    have hin : ¬ Overlooks s.coord cr := by
      cases e with
      | turn t => cases hm; exact hok.2
      | outside m' => cases hm; cases hok.1
      | _ => cases hm
    rw [overlooks_iff hr] at hin
    exact ((handleCancel_dead hr hl.2 hin).acts hok₁ hacts).1

/-- A batch that a move starts carries no item for a dead waiter alone. -/
lemma dispatched_for_others (hr : (coordinator cfg).Reach ms c) (hl : m.Legal cfg ms c) {w}
    (hw : Dead w {} c) (he : (c.move cfg m).engineDone = false) {id} {b}
    (hnew : c.inflight.lookup id = none) (hb : (c.move cfg m).inflight.lookup id = some b) {it}
    (hit : it ∈ b.items) : ∃ v ∈ ((c.move cfg m).items it).waiters, v ≠ w ∧ (c.move cfg m).active v = true := by
  have hok := reach_ok hr
  have hok' := reach_ok (reach_move hr hl)
  have hpos := (move_pristine hok hl id b (move_new hok hl hnew hb) hb).pos it hit
  have hcount := hok'.waiter.exact he _ it (hok'.struct.batch_indexed hb hit)
  obtain ⟨v, hv, hact⟩ := countP_pos_iff.1 (show 0 < (c.move cfg m).waiting it by omega)
  refine ⟨v, hv, ?_, hact⟩
  rintro rfl
  have hdead := (hw.acts (hok.mono m) (move_acts hok hl joinsOnly_true)).1
  exact hdead.idle hact it hv

/-- **A canceled call leaves nothing behind**, if no message overlooks its waiter. Handling the
next cancel message takes its waiter out exactly if the message does not overlook it. And in
the runs in which none does, for every message that has been handled: the call has returned
the error of its context, its waiter is not active in any item, its submission is not parked,
and, as long as the engine is not canceled, a batch that is started carries no item for it
alone. -/
theorem canceled_call_gone {es : List (NetEvent K V E)} {s : Net K V E} (h : (net cfg).Reach es s) :
    (∀ cr ∈ s.cancelCh.head?, (s.coord.handleCancel cr).Forgot cr.waiterID ↔ ¬ Overlooks s.coord cr) ∧
    (((net cfg).only fun _ s e => InTime s e).Reach es s → ∀ cr ∈ cancellations (moves es),
      s.Quit cr.waiterID ∧ s.coord.Forgot cr.waiterID ∧
      ∀ e, s.Ok cfg e → (s.next cfg e).coord.engineDone = false → ∀ id b,
        s.coord.inflight.lookup id = none → (s.next cfg e).coord.inflight.lookup id = some b →
        ∀ it ∈ b.items, ∃ v ∈ ((s.next cfg e).coord.items it).waiters,
          v ≠ cr.waiterID ∧ (s.next cfg e).coord.active v = true) := by
  obtain ⟨hr, hI⟩ := net_refines h
  refine ⟨fun cr hcr => handleCancel_forgot hr (hI.queued cr (mem_of_mem_head? hcr)).1, ?_⟩
  intro hin cr hcr
  have hdead := canceled_dead hin cr hcr
  refine ⟨hI.handled cr hcr, hdead.forgot, fun e hok he id b hnew hb it hit => ?_⟩
  cases hm : e.move with
  | none =>
    rw [(hI.next_none hm).2, hnew] at hb
    cases hb
  | some m =>
    rw [(hI.next_move hr hok hm).2] at he hb ⊢
    exact dispatched_for_others hr (hI.legal hr hok hm) hdead he hnew hb hit

section Decidable

variable [DecidableEq K] [DecidableEq V] [DecidableEq E]

instance (c : Coord K V E) (cr : CancelReq) : Decidable (Overlooks c cr) := inferInstanceAs (Decidable (_ ∧ _))

instance (s : Net K V E) (e : NetEvent K V E) : Decidable (InTime s e) :=
  match e with
  | .turn ⟨.cancel cr, _, _⟩ => inferInstanceAs (Decidable (¬ Overlooks s.coord cr))
  | .turn ⟨.submit .., _, _⟩ | .turn ⟨.complete .., _, _⟩ | .turn ⟨.control .., _, _⟩
  | .turn ⟨.timer _, _, _⟩ | .turn ⟨.engine, _, _⟩ | .call .. | .expire _ | .select .. | .post _
  | .reveal | .outside _ => .isTrue trivial

end Decidable

/-- One call of `Do`; the coordinator receives its submission. -/
def demoCall : List (NetEvent ℕ ℕ ℕ) :=
  [.call ⟨[1]⟩ 1 1 1 none, .turn ⟨.submit 0 (demoReq [1] 1 1) none, 0, fun _ => none⟩]

/-- The call sees the reply before its context is done. -/
def demoAdmitted : List (NetEvent ℕ ℕ ℕ) := demoCall ++
  [.reveal, .select 1 .value, .expire 1, .select 1 .ctxDone, .post 1, .turn ⟨.cancel ⟨[1], 1, false⟩, 0, fun _ => none⟩]

/-- The context of the call is done before the reply is out. -/
def demoLost : List (NetEvent ℕ ℕ ℕ) := demoCall ++
  [.expire 1, .select 1 .ctxDone, .post 1, .reveal, .turn ⟨.cancel ⟨[], 1, true⟩, 0, fun _ => none⟩]

def netRun (es : List (NetEvent ℕ ℕ ℕ)) : Net ℕ ℕ ℕ := (net (demo .manual)).run (net (demo .manual)).init es

theorem canceled_call_gone_demo : (netRun demoAdmitted).Quit 1 ∧ (netRun demoAdmitted).coord.Forgot 1 := by
  have hr : (net (demo .manual)).Reach demoAdmitted (netRun demoAdmitted) :=
    System.reach_of_allowed (by decide)
  have hin : ((net (demo .manual)).only fun _ s e => InTime s e).Reach demoAdmitted
      (netRun demoAdmitted) := System.reach_of_allowed (by decide)
  have h := (canceled_call_gone hr).2 hin ⟨[1], 1, false⟩ (by decide)
  exact ⟨h.1, h.2.1⟩

/-- **A lost cancellation.** The coordinator has admitted the submission, the caller has not
seen the reply when its context is done, and sends a message marked blocked. The call has
returned and its message is handled, but its waiter is active, and the next flush starts a
provider call for it alone. -/
theorem cancel_lost :
    let s := netRun demoLost
    let es' := demoLost ++ [.turn ⟨.control 0 ⟨.flush, 7⟩, 0, fun _ => none⟩]
    (net (demo .manual)).Reach es' (netRun es') ∧ s.Quit 1 ∧
      (⟨[], 1, true⟩ : CancelReq) ∈ cancellations (moves demoLost) ∧ s.cancelCh = [] ∧
      (s.coord.items 2).waiters = [1] ∧ s.coord.active 1 = true ∧
      Effect.start 1 [1] .manual none ⟨[⟨2, 1, 0, 0, 1⟩]⟩ ∈ (netRun es').coord.out :=
  ⟨System.reach_of_allowed (show _ by decide), by unfold Net.Quit; decide,
    by decide, by decide, by decide, by decide, by decide⟩

end Runs

end BatchWeaver
