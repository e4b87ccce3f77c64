import Mathlib.Logic.Relation
import Mathlib.Tactic

/-!
# Event-driven systems

A system takes one event at a time; whether an event may happen can depend on
the state and on the events before it.

* `Reach`: the states the system can be in, with the events that led there.
* `Steps`: what can follow a given state.
* `Reach.invariant`, `Steps.invariant`: a property that one event keeps holds
  along every run.
* `only`: the runs whose events all meet a further condition.
* `Reach.refines`: a system that is another one, seen through a map of states and events.
* `Refines`: the same as a relation between systems, for runs and their continuations; it composes.
* `Allowed`: the check of one concrete run, event by event.
-/

/-- A system of type `σ` states driven by type `ε` events. `ok es s e`: after the
events `es`, in state `s`, the event `e` may happen. -/
structure System (σ ε : Type*) where
  init : σ
  ok : List ε → σ → ε → Prop
  next : σ → ε → σ

namespace System

variable {σ ε : Type*} {S : System σ ε}

/-- The events `es`, each allowed where it happens, lead from the start to `s`. -/
inductive Reach (S : System σ ε) : List ε → σ → Prop
  | init : Reach S [] S.init
  | step {es : List ε} {s : σ} (e : ε) : Reach S es s → S.ok es s e → Reach S (es ++ [e]) (S.next s e)

/-- From state `s` after `es`, further events lead to `s'` after `es'`. -/
inductive Steps (S : System σ ε) (es : List ε) (s : σ) : List ε → σ → Prop
  | refl : Steps S es s es s
  | step {es' : List ε} {s' : σ} (e : ε) :
      Steps S es s es' s' → S.ok es' s' e → Steps S es s (es' ++ [e]) (S.next s' e)

variable {es : List ε} {I : List ε → σ → Prop} {s : σ}

/-- **The invariant rule.** A property of the start that every event keeps holds in
every reachable state. -/
theorem Reach.invariant (h0 : I [] S.init)
    (hstep : ∀ es s e, S.Reach es s → S.ok es s e → I es s → I (es ++ [e]) (S.next s e)) (h : S.Reach es s) :
    I es s := by
  induction h with
  | init => exact h0
  | step e hr hok ih => exact hstep _ _ e hr hok ih

lemma Reach.trans {es es' : List ε} {s s' : σ} (h : S.Reach es s) (h' : S.Steps es s es' s') : S.Reach es' s' := by
  induction h' with
  | refl => exact h
  | step e _ hok ih => exact ih.step e hok

/-- **The invariant rule from a given state on.** -/
theorem Steps.invariant {es₀ : List ε} {s₀ : σ} (h0 : S.Reach es₀ s₀) (hI : I es₀ s₀)
    (hstep : ∀ es s e, S.Reach es s → S.ok es s e → I es s → I (es ++ [e]) (S.next s e))
    (h : S.Steps es₀ s₀ es s) : I es s := by
  induction h with
  | refl => exact hI
  | step e hs hok ih => exact hstep _ _ e (h0.trans hs) hok ih

/-- The system whose events also meet the condition `Q`. -/
def only (S : System σ ε) (Q : List ε → σ → ε → Prop) : System σ ε where
  init := S.init
  ok es s e := S.ok es s e ∧ Q es s e
  next := S.next

instance decidableOnly (S : System σ ε) (Q : List ε → σ → ε → Prop) (es : List ε) (s : σ) (e : ε)
    [Decidable (S.ok es s e)] [Decidable (Q es s e)] : Decidable ((S.only Q).ok es s e) :=
  inferInstanceAs (Decidable (_ ∧ _))

variable {Q : List ε → σ → ε → Prop}

lemma Reach.of_only (h : (S.only Q).Reach es s) : S.Reach es s := by
  induction h with
  | init => exact Reach.init
  | step e _ hok ih => exact ih.step e hok.1

lemma Steps.of_only {es es' : List ε} {s s' : σ} (h : (S.only Q).Steps es s es' s') : S.Steps es s es' s' := by
  induction h with
  | refl => exact Steps.refl
  | step e _ hok ih => exact ih.step e hok.1

lemma Reach.of_true (h : S.Reach es s) : (S.only fun _ _ _ => True).Reach es s := by
  induction h with
  | init => exact Reach.init
  | step e _ hok ih => exact ih.step e ⟨hok, trivial⟩

/-- **The refinement rule.** Seen through `f`, and up to the events that `p` hides, a system is
another one: where the invariant `I` holds, an event is an allowed event of the other or changes
nothing that `f` shows. -/
theorem Reach.refines {τ δ : Type*} {T : System τ δ} {f : σ → τ} {p : ε → Option δ} (h0 : f S.init = T.init)
    (hI : I [] S.init) (hstep : ∀ es s e, S.ok es s e → T.Reach (es.filterMap p) (f s) → I es s →
      I (es ++ [e]) (S.next s e) ∧ (p e = none → f (S.next s e) = f s) ∧ ∀ d, p e = some d →
      T.ok (es.filterMap p) (f s) d ∧ f (S.next s e) = T.next (f s) d)
    (h : S.Reach es s) : T.Reach (es.filterMap p) (f s) ∧ I es s := by
  induction h with
  | init => rw [h0]; exact ⟨Reach.init, hI⟩
  | step e _ hok ih =>
    obtain ⟨hI', hnone, hsome⟩ := hstep _ _ e hok ih.1 ih.2
    refine ⟨?_, hI'⟩
    rw [List.filterMap_append]
    cases hp : p e with
    | none =>
      rw [List.filterMap_cons_none hp, List.filterMap_nil, List.append_nil, hnone hp]
      exact ih.1
    | some d =>
      rw [List.filterMap_cons_some hp, List.filterMap_nil, (hsome d hp).2]
      exact ih.1.step d (hsome d hp).1

/-- Seen through `f`, and up to the events that `p` hides, a run of `S` is a run of `T`. -/
structure Refines {τ δ : Type*} (S : System σ ε) (T : System τ δ) (f : σ → τ) (p : ε → Option δ) : Prop where
  init : f S.init = T.init
  hidden : ∀ es s e, S.Reach es s → S.ok es s e → p e = none → f (S.next s e) = f s
  shown : ∀ es s e d, S.Reach es s → S.ok es s e → p e = some d →
    T.ok (es.filterMap p) (f s) d ∧ f (S.next s e) = T.next (f s) d

section Refines

variable {τ δ υ ζ : Type*} {T : System τ δ} {U : System υ ζ} {f : σ → τ} {p : ε → Option δ}
  {es : List ε}

lemma filterMap_snoc_none {p : ε → Option δ} {e : ε} (h : p e = none) : (es ++ [e]).filterMap p = es.filterMap p := by
  rw [List.filterMap_append, List.filterMap_cons_none h, List.filterMap_nil, List.append_nil]

lemma filterMap_snoc_some {p : ε → Option δ} {e : ε} {d : δ} (h : p e = some d) :
    (es ++ [e]).filterMap p = es.filterMap p ++ [d] := by
  rw [List.filterMap_append, List.filterMap_cons_some h, List.filterMap_nil]

lemma Refines.reach (h : S.Refines T f p) {s : σ} (hr : S.Reach es s) : T.Reach (es.filterMap p) (f s) := by
  induction hr with
  | init =>
    rw [h.init]
    exact Reach.init
  | step e hr hok ih =>
    cases hp : p e with
    | none =>
      rw [filterMap_snoc_none hp, h.hidden _ _ e hr hok hp]
      exact ih
    | some d =>
      obtain ⟨hd, hf⟩ := h.shown _ _ e d hr hok hp
      rw [filterMap_snoc_some hp, hf]
      exact ih.step d hd

/-- An event is hidden, or an event of the other system. -/
lemma Refines.next_cases (h : S.Refines T f p) {s : σ} {e : ε} (hr : S.Reach es s) (hok : S.ok es s e) :
    f (S.next s e) = f s ∨ ∃ d, T.ok (es.filterMap p) (f s) d ∧ f (S.next s e) = T.next (f s) d := by
  cases hp : p e with
  | none => exact .inl (h.hidden es s e hr hok hp)
  | some d => exact .inr ⟨d, h.shown es s e d hr hok hp⟩

lemma Refines.steps (h : S.Refines T f p) {es₀ es : List ε} {s₀ s : σ} (h0 : S.Reach es₀ s₀)
    (hs : S.Steps es₀ s₀ es s) : T.Steps (es₀.filterMap p) (f s₀) (es.filterMap p) (f s) := by
  induction hs with
  | refl => exact Steps.refl
  | step e hs hok ih =>
    have hr := h0.trans hs
    cases hp : p e with
    | none =>
      rw [filterMap_snoc_none hp, h.hidden _ _ e hr hok hp]
      exact ih
    | some d =>
      obtain ⟨hd, hf⟩ := h.shown _ _ e d hr hok hp
      rw [filterMap_snoc_some hp, hf]
      exact ih.step d hd

/-- **Refinements compose.** -/
theorem Refines.comp {g : τ → υ} {q : δ → Option ζ} (h : S.Refines T f p) (h' : T.Refines U g q) :
    S.Refines U (fun s => g (f s)) (fun e => (p e).bind q) where
  init := by rw [h.init, h'.init]
  hidden := by
    intro es s e hr hok hpq
    cases hp : p e with
    | none => rw [h.hidden es s e hr hok hp]
    | some d =>
      obtain ⟨hd, hf⟩ := h.shown es s e d hr hok hp
      rw [hf]
      rw [hp] at hpq
      exact h'.hidden _ _ d (h.reach hr) hd hpq
  shown := by
    intro es s e z hr hok hpq
    obtain ⟨d, hp, hq⟩ := Option.bind_eq_some_iff.1 hpq
    obtain ⟨hd, hf⟩ := h.shown es s e d hr hok hp
    obtain ⟨hz, hg⟩ := h'.shown _ _ d z (h.reach hr) hd hq
    rw [List.filterMap_filterMap] at hz
    exact ⟨hz, by rw [hf, hg]⟩

end Refines

/-- The state after the events `es`. -/
def run (S : System σ ε) (s : σ) (es : List ε) : σ := es.foldl S.next s

/-- Every event of `es`, starting in `s` after `past`, may happen where it does. -/
def Allowed (S : System σ ε) : List ε → σ → List ε → Prop
  | _, _, [] => True
  | past, s, e :: es => S.ok past s e ∧ Allowed S (past ++ [e]) (S.next s e) es

instance decidableAllowed (S : System σ ε) [∀ es s e, Decidable (S.ok es s e)] :
    ∀ (past : List ε) (s : σ) (es : List ε), Decidable (S.Allowed past s es)
  | _, _, [] => .isTrue trivial
  | past, s, e :: es =>
    have := decidableAllowed S (past ++ [e]) (S.next s e) es
    inferInstanceAs (Decidable (_ ∧ _))

lemma steps_of_allowed : ∀ {past : List ε} {s : σ}, S.Allowed past s es →
    ∀ {es₀ : List ε} {s₀ : σ}, S.Steps es₀ s₀ past s → S.Steps es₀ s₀ (past ++ es) (S.run s es) := by
  induction es with
  | nil => intro past s _ es₀ s₀ h; simpa [run] using h
  | cons e es ih =>
    intro past s ha es₀ s₀ h
    have := ih ha.2 (h.step e ha.1)
    simpa [run] using this

/-- **A checked run is a run.** -/
theorem reach_of_allowed (h : S.Allowed [] S.init es) : S.Reach es (S.run S.init es) :=
  Reach.init.trans (steps_of_allowed h Steps.refl)

lemma run_append (s : σ) (es es' : List ε) : S.run s (es ++ es') = S.run (S.run s es) es' := List.foldl_append

lemma allowed_append {es es' : List ε} : ∀ {past : List ε} {s : σ}, S.Allowed past s (es ++ es') →
    S.Allowed past s es ∧ S.Allowed (past ++ es) (S.run s es) es' := by
  induction es with
  | nil => intro past s h; exact ⟨trivial, by simpa [run] using h⟩
  | cons e es ih =>
    intro past s h
    obtain ⟨h1, h2⟩ := ih h.2
    exact ⟨⟨h.1, h1⟩, by simpa [run] using h2⟩

end System
