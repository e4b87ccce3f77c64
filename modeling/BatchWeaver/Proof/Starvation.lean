import BatchWeaver.Proof.Fairness

/-!
# Starvation

The scheduler counts the items of a class and keeps one time for them, `firstWait`. A queue of admission times for
each class says what it should be (`Queues`), with the items of a class served in the order of admission.

* `starvation_exact`: the classes reported are those whose oldest item waits for too long, if every `Serve` that
  leaves items finds that the oldest of them came just then.
* `starvation_missed`: `Serve` forgets how long the items it leaves have waited.
-/

namespace BatchWeaver.Adaptive

open List

variable {F : Type} {cs : ClassState F} {q : List ℤ}

/-- The class counts the items of the queue and keeps the time of the first. -/
structure ClassState.Waits (cs : ClassState F) (q : List ℤ) : Prop where
  queued : cs.queued = q.length
  waiting : cs.hasWaiting = true ↔ q ≠ []
  first : ∀ t ∈ q.head?, cs.firstWait = t

/-- One more item. -/
def ClassState.push (cs : ClassState F) (now : ℤ) : ClassState F := { cs with
    queued := cs.queued + 1
    firstWait := if cs.hasWaiting then cs.firstWait else now
    hasWaiting := true }

lemma ClassState.Waits.push (h : cs.Waits q) (now : ℤ) : (cs.push now).Waits (q ++ [now]) := by
  refine ⟨by rw [length_append, ← h.queued]; rfl, iff_of_true rfl (append_ne_nil_of_right_ne_nil _ nofun), ?_⟩
  cases q with
  | nil =>
    rintro t ⟨⟩
    exact if_neg fun hw => h.waiting.1 hw rfl
  | cons t₀ q =>
    rintro t ⟨⟩
    exact (if_pos (h.waiting.2 nofun)).trans (h.first _ rfl)

lemma ClassState.Waits.pop (h : cs.Waits q) {now : ℤ} (hnow : ∀ t ∈ q.tail.head?, t = now) (name : GoString) :
    (cs.after (.serve name now)).Waits q.tail := by
  have hlen : cs.queued - 1 = q.tail.length := by rw [length_tail, h.queued]
  cases hq : q.tail with
  | nil =>
    rw [hq] at hlen
    exact ⟨hlen, iff_of_false (fun hw => Bool.false_ne_true ((if_pos hlen).symm.trans hw)) fun hne => hne rfl, nofun⟩
  | cons t q' =>
    rw [hq] at hlen hnow
    have hleft : cs.queued - 1 ≠ 0 := hlen ▸ Nat.succ_ne_zero _
    refine ⟨hlen, iff_of_true ((if_neg hleft).trans (h.waiting.2 ?_)) nofun, ?_⟩
    · rintro rfl
      cases hq
    · rintro t' ⟨⟩
      exact (if_neg hleft).trans (hnow _ rfl).symm

/-! ## Queues along a run -/

variable [IntCast F]

lemma admitItem_after (s : FairScheduler F) (name : GoString) (payload now : ℤ) :
    (s.admitItem name payload now).2.admitted = true ∧
        (s.state name).after (.admitItem name payload now) = (s.state name).push now ∨
      (s.admitItem name payload now).2.admitted = false ∧
        ∃ n, (s.state name).after (.admitItem name payload now) = { s.state name with rejected := n } := by
  simp only [FairScheduler.admitItem, ClassState.after, state_classFor]
  split
  · exact .inr ⟨rfl, _, rfl⟩
  split
  · exact .inr ⟨rfl, _, rfl⟩
  · exact .inl ⟨rfl, rfl⟩

variable [Sub F] [Div F] [LT F] [LE F] [DecidableLT F] [DecidableLE F]

/-- The scheduler in use, with the admission times of the items in the queues, oldest first. -/
structure Queues (F : Type) where
  run : FairRun F
  times : GoString → List ℤ

def Queues.step (w : Queues F) (e : FairEvent) : Queues F where
  run := w.run.step e
  times c :=
    match e with
    | .admitItem name payload now =>
      if c = name ∧ (w.run.sched.admitItem name payload now).2.admitted = true then w.times c ++ [now] else w.times c
    | .serve name _ => if c = name then (w.times c).tail else w.times c
    | _ => w.times c

def queues (cfg : FairnessConfig F) : System (Queues F) FairEvent where
  init := ⟨(fairness cfg).init, fun _ => []⟩
  ok _ w e := w.run.Proper e
  next := Queues.step

/-- If `Serve` leaves items, the oldest of them was admitted at that time. -/
def JustAdmitted (_ : List FairEvent) (w : Queues F) (e : FairEvent) : Prop :=
  ∀ name now, e = .serve name now → ∀ t ∈ (w.times name).tail.head?, t = now

lemma queues_step {w : Queues F} {e : FairEvent} (hjust : JustAdmitted [] w e)
    (h : ∀ c, (w.run.sched.state c).Waits (w.times c)) (c : GoString) :
    ((w.step e).run.sched.state c).Waits ((w.step e).times c) := by
  show ((w.run.step e).sched.state c).Waits _
  cases e with
  | next =>
    obtain ⟨d, hd⟩ := (next_spec w.run.sched).1.state c
    show (w.run.sched.next.1.state c).Waits (w.times c)
    rw [hd]
    exact ⟨(h c).queued, (h c).waiting, (h c).first⟩
  | admitItem name payload now =>
    rw [step_state rfl]
    simp only [Queues.step]
    by_cases hc : c = name
    · subst hc
      rcases admitItem_after w.run.sched c payload now with ⟨hadm, hafter⟩ | ⟨hadm, n, hafter⟩
      · rw [if_pos rfl, if_pos ⟨rfl, hadm⟩, hafter]
        exact (h c).push now
      · rw [if_pos rfl, if_neg fun h => Bool.false_ne_true (hadm.symm.trans h.2), hafter]
        exact ⟨(h c).queued, (h c).waiting, (h c).first⟩
    · rw [if_neg hc, if_neg fun h => hc h.1]
      exact h c
  | serve name now =>
    rw [step_state rfl]
    simp only [Queues.step]
    split
    · rename_i hc
      subst hc
      exact (h c).pop (hjust c now rfl) c
    · exact h c
  | complete name =>
    rw [step_state rfl]
    split
    · exact ⟨(h c).queued, (h c).waiting, (h c).first⟩
    · exact h c

variable {cfg : FairnessConfig F} {es : List FairEvent} {w : Queues F}

lemma queues_reach (h : (queues cfg).Reach es w) : (fairness cfg).Reach es w.run := by
  induction h with
  | init => exact System.Reach.init
  | step e _ hok ih => exact ih.step e hok

lemma timeSub_lt {d : ℤ} (hpos : 0 < d) (hmax : d < maxInt) (a b : ℤ) : d < timeSub a b ↔ d < a - b := by
  unfold timeSub
  omega

/-- **Starvation detection**: a class is reported exactly if the oldest of its items was admitted more than the
threshold ago, in every run in which `Serve` leaves no item that came before. -/
theorem starvation_exact (hpos : 0 < cfg.starvationThreshold) (hmax : cfg.starvationThreshold < maxInt)
    (h : ((queues cfg).only JustAdmitted).Reach es w) (now : ℤ) (c : GoString) :
    c ∈ (w.run.sched.detectStarvation now).1 ↔ ∃ t, (w.times c).head? = some t ∧ cfg.starvationThreshold < now - t := by
  have hreach := reach_grows (queues_reach h.of_only)
  have hthreshold : w.run.sched.cfg.starvationThreshold = cfg.starvationThreshold := by
    rw [hreach.cfg, newFairScheduler_cfg]
    split <;> rfl
  have hwaits : ∀ c, (w.run.sched.state c).Waits (w.times c) := by
    refine System.Reach.invariant (I := fun _ w => ∀ c, (w.run.sched.state c).Waits (w.times c)) (fun c => ?_) ?_ h
    · have hidle := newFairScheduler_idle cfg c
      exact ⟨hidle.queued, iff_of_false (fun hw => Bool.false_ne_true (hidle.waiting.symm.trans hw)) fun h => h rfl,
        nofun⟩
    · exact fun es w e _ hok ih => queues_step hok.2 ih
  unfold FairScheduler.detectStarvation
  rw [hthreshold, if_neg hpos.not_ge, mem_filter, decide_eq_true_iff, timeSub_lt hpos hmax]
  constructor
  · rintro ⟨-, hwait, hlong⟩
    obtain ⟨t, q, hq⟩ := exists_cons_of_ne_nil ((hwaits c).waiting.1 hwait)
    have hhead : (w.times c).head? = some t := by rw [hq]; rfl
    exact ⟨t, hhead, (hwaits c).first t hhead ▸ hlong⟩
  rintro ⟨t, hhead, hlong⟩
  have hne : w.times c ≠ [] := by
    rintro hnil
    rw [hnil] at hhead
    cases hhead
  have hqueued : 0 < (w.run.sched.state c).queued := (hwaits c).queued ▸ length_pos_iff.2 hne
  exact ⟨hreach.indexed (newFairScheduler_indexed cfg) c (lookup_of_queued hqueued), (hwaits c).waiting.2 hne,
    (hwaits c).first t hhead ▸ hlong⟩

/-- No classes, and a threshold of 10. -/
def impatient : FairnessConfig ℚ := ⟨.weightedFair, 10, []⟩

/-- An item comes at time 0 and one at time `t`, and the first is served at time `now`. -/
def twoItems (t now : ℤ) : List FairEvent :=
  [.admitItem (str "c") 0 0, .admitItem (str "c") 0 t, .next, .serve (str "c") now]

/-- The item that is left came when the other was served, and has waited since then. -/
theorem starvation_exact_waiting : ∃ w, ((queues impatient).only JustAdmitted).Reach (twoItems 5 5) w ∧
    str "c" ∈ (w.run.sched.detectStarvation 16).1 := by
  have hjust : ∀ t ∈ (((queues impatient).run (queues impatient).init ((twoItems 5 5).take 3)).times (str "c")).tail.head?,
      t = 5 := by decide
  have hallowed : ((queues impatient).only JustAdmitted).Allowed [] (queues impatient).init (twoItems 5 5) :=
    ⟨⟨trivial, nofun⟩, ⟨trivial, nofun⟩, ⟨trivial, nofun⟩,
      ⟨show _ = _ by decide, fun name now he => by cases he; exact hjust⟩, trivial⟩
  have hreach := System.reach_of_allowed hallowed
  exact ⟨_, hreach, (starvation_exact (by decide) (by decide) hreach 16 _).2 ⟨5, by decide, by decide⟩⟩

/-- **A starved class is missed**: at time 15 the item that came with the served one has waited for longer than the threshold. -/
theorem starvation_missed : ∃ w, (queues impatient).Reach (twoItems 0 10) w ∧ (w.times (str "c")).head? = some 0 ∧
    (w.run.sched.detectStarvation 15).1 = [] := by
  have hallowed : (queues impatient).Allowed [] (queues impatient).init (twoItems 0 10) :=
    ⟨trivial, trivial, trivial, show _ = _ by decide, trivial⟩
  exact ⟨_, System.reach_of_allowed hallowed, by decide, by decide⟩

end BatchWeaver.Adaptive
