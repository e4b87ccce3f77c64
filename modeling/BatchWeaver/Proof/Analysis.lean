import BatchWeaver.Lib.Passes
import BatchWeaver.Spec.Analysis

/-!
# Soundness of effect summaries and of key classification

* `directEffects_sane`: the direct effects of a function name an unknown call only where they are incomplete.
* `shared_write_reported`, `hidden_writes`: which writes to shared memory they report.
* `summaries_sound`: the summary of a function holds every effect of what it calls or is incomplete, and does not
  depend on the order of the passes, exactly when every effect is had by a function at most 32 calls away.
* `long_chain_missed`: on a longer chain, visited from its start, an effect does not arrive.
* `classify_spec`: which class a key gets, in terms of the values it is computed from.
* `structural_keys_safe`: when a structural key is safe.
* `received_key_structural`: a key may be received from a channel or loaded from memory.
-/

namespace BatchWeaver.Analysis

open Prover List Relation

/-! ## Direct effects -/

variable {effects : List GoString} {e eff : GoString}

lemma mem_addEffect : e ∈ addEffect effects eff ↔ e ∈ effects ∨ e = eff := by
  unfold addEffect
  split
  · rename_i h
    constructor
    · exact .inl
    rintro (he | rfl)
    · exact he
    · exact h
  · rw [mem_append, mem_singleton]

lemma mem_addEffects {more : List GoString} : e ∈ more.foldl addEffect effects ↔ e ∈ effects ∨ e ∈ more := by
  induction more generalizing effects with
  | nil => simp
  | cons a more ih =>
    rw [foldl_cons, ih, mem_addEffect, mem_cons]
    tauto

/-- An unknown call is not hidden behind a summary that says it is complete. -/
def FuncEffects.Sane (fe : FuncEffects) : Prop := unknownCall ∈ fe.effects → fe.complete = false

variable {fe : FuncEffects}

lemma sane_add (h : fe.Sane) (heff : eff ≠ unknownCall) : (fe.add eff).Sane := by
  intro hmem
  rcases mem_addEffect.1 hmem with hmem | hmem
  · exact h hmem
  · exact absurd hmem.symm heff

lemma builtinEffect_ne (name : GoString) : builtinEffect name ≠ some unknownCall := by
  unfold builtinEffect
  repeat' split
  all_goals decide

lemma stdlibEffect_ne (path : GoString) : stdlibEffect path ≠ some unknownCall := by
  unfold stdlibEffect
  repeat' split
  all_goals decide

lemma addAny_cases (fe : FuncEffects) {eff} (heff : eff ≠ some unknownCall) :
    fe.addAny eff = fe ∨ ∃ e ≠ unknownCall, fe.addAny eff = fe.add e := by
  cases eff with
  | none => exact .inl rfl
  | some e => exact .inr ⟨e, fun heq => heff (by rw [heq]), rfl⟩

/-- One instruction adds nothing, an effect, or an unknown call to a summary that is incomplete from then on. -/
lemma addInstr_cases (fe : FuncEffects) (instr : Instr) :
    (addInstr fe instr = fe ∨ ∃ e ≠ unknownCall, addInstr fe instr = fe.add e) ∨
      addInstr fe instr = { fe.add unknownCall with complete := false } := by
  cases instr with
  | call common =>
    simp only [addInstr, addCallEffect]
    repeat' split
    · exact .inl (addAny_cases fe (builtinEffect_ne _))
    · exact .inr rfl
    · exact .inl (.inl rfl)
    · exact .inl (.inl rfl)
    · exact .inl (addAny_cases fe (stdlibEffect_ne _))
  | unOp b | store b | alloc b => cases b <;> [exact .inl (.inl rfl); exact .inl (.inr ⟨_, by decide, rfl⟩)]
  | other => exact .inl (.inl rfl)
  | _ => exact .inl (.inr ⟨_, by decide, rfl⟩)

lemma sane_addInstr (h : fe.Sane) (instr : Instr) : (addInstr fe instr).Sane := by
  rcases addInstr_cases fe instr with (he | ⟨e, hne, he⟩) | he <;> rw [he]
  · exact h
  · exact sane_add h hne
  · exact fun _ => rfl

/-- **Direct effects are sane**, for every function body. -/
theorem directEffects_sane (instrs : List Instr) : (directEffects instrs).Sane :=
  foldlRecOn (motive := FuncEffects.Sane) instrs addInstr nofun fun _ h instr _ => sane_addInstr h instr

/-! ## Writes to shared memory -/

section

variable {V Fn : Type}

/-- The memory that a value refers to belongs to a global: its own, that of a field or an element, or what was
loaded from there. -/
inductive Rooted (g : ValueGraph V Fn) : V → Prop
  | root {v : V} (hv : g.kind v = .global) : Rooted g v
  | part {v x : V} (hv : g.kind v ∈ [.fieldAddr, .indexAddr, .unOp .load])
      (hx : (g.operands v).head? = some (some x)) (h : Rooted g x) : Rooted g v

def BodyInstr.WritesShared (g : ValueGraph V Fn) : BodyInstr V → Prop
  | .store v | .mapUpdate v => Rooted g v
  | .plain _ => False

/-- A call through an interface or a function value. -/
abbrev Instr.dynamicCall : Instr := .call ⟨none, none, true⟩

lemma addAny_globalWrite {eff} (heff : eff ≠ some (str "global-write")) :
    str "global-write" ∈ (fe.addAny eff).effects ↔ str "global-write" ∈ fe.effects := by
  cases eff with
  | none => exact Iff.rfl
  | some e => exact mem_addEffect.trans (or_iff_left fun h => heff (by rw [h]))

lemma addInstr_globalWrite (fe : FuncEffects) (instr : Instr) :
    str "global-write" ∈ (addInstr fe instr).effects ↔ str "global-write" ∈ fe.effects ∨ instr = .store true := by
  have hadd : ∀ {e}, e ≠ str "global-write" →
      (str "global-write" ∈ (fe.add e).effects ↔ str "global-write" ∈ fe.effects) :=
    fun hne => mem_addEffect.trans (or_iff_left fun h => hne h.symm)
  have hbuiltin : ∀ name, builtinEffect name ≠ some (str "global-write") := by
    intro name
    unfold builtinEffect
    repeat' split
    all_goals decide
  have hstdlib : ∀ path, stdlibEffect path ≠ some (str "global-write") := by
    intro path
    unfold stdlibEffect
    repeat' split
    all_goals decide
  cases instr with
  | store b =>
    cases b with
    | true => exact iff_of_true (mem_addEffect.2 (.inr rfl)) (.inr rfl)
    | false => simp [addInstr]
  | call common =>
    rw [or_iff_left (by simp)]
    simp only [addInstr, addCallEffect]
    repeat' split
    · exact addAny_globalWrite (hbuiltin _)
    · exact hadd (by decide)
    · exact Iff.rfl
    · exact Iff.rfl
    · exact addAny_globalWrite (hstdlib _)
  | unOp b | alloc b =>
    rw [or_iff_left (by simp)]
    cases b with
    | true => exact hadd (by decide)
    | false => exact Iff.rfl
  | other => simp [addInstr]
  | _ =>
    rw [or_iff_left (by simp)]
    exact hadd (by decide)

lemma addInstr_complete (fe : FuncEffects) (instr : Instr) :
    (addInstr fe instr).complete = false ↔ fe.complete = false ∨ instr = .dynamicCall := by
  have hany : ∀ eff, (fe.addAny eff).complete = fe.complete := fun eff => by cases eff <;> rfl
  cases instr with
  | call common =>
    obtain ⟨callee, builtin, dynamic⟩ := common
    rcases callee with - | callee
    · rcases builtin with - | name
      · cases dynamic <;> simp [addInstr, addCallEffect]
      · simp [addInstr, addCallEffect, hany]
    · cases callee <;> simp [addInstr, addCallEffect, hany]
  | unOp b | store b | alloc b => cases b <;> simp [addInstr, FuncEffects.add]
  | _ => simp [addInstr, FuncEffects.add]

/-- A foldable flag that every instruction sets or keeps is set by one of them. -/
lemma directEffects_iff {P : FuncEffects → Prop} {i : Instr} (h0 : ¬P ⟨[], true⟩)
    (hstep : ∀ fe instr, P (addInstr fe instr) ↔ P fe ∨ instr = i) (instrs : List Instr) :
    P (directEffects instrs) ↔ i ∈ instrs := by
  suffices hfold : ∀ fe, P (instrs.foldl addInstr fe) ↔ P fe ∨ i ∈ instrs from (hfold _).trans (or_iff_right h0)
  induction instrs with
  | nil => simp
  | cons a instrs ih =>
    intro fe
    rw [foldl_cons, ih, hstep, mem_cons, or_assoc, eq_comm]

end

/-- A global, the address of a field of it, and what is loaded from it. -/
def globalGraph : ValueGraph (Fin 3) Unit where
  kind := ![.global, .fieldAddr, .unOp .load]
  operands := ![[], [some 0], [some 0]]
  leaves := by decide

def absorb? (a b : Option FuncEffects) : Option FuncEffects := a.map fun cs => absorb cs b

/-- What a summary shows: an effect, or that something is missing. Without a summary something is unknown. -/
def Shows : Option FuncEffects → Option GoString → Prop
  | some fe, some e => e ∈ fe.effects
  | some fe, none => fe.complete = false
  | none, some e => e = unknownCall
  | none, none => True

variable {cs : FuncEffects} {o : Option FuncEffects} {fact : Option GoString}

lemma shows_absorb (h : Shows (some (absorb cs o)) fact) : Shows (some cs) fact ∨ Shows o fact := by
  cases o with
  | none =>
    rw [absorb] at h
    split at h
    · exact .inl h
    · cases fact with
      | none => exact .inr trivial
      | some e => simpa [Shows] using h
  | some es =>
    cases fact with
    | none => exact Bool.and_eq_false_iff.1 h
    | some e => exact mem_addEffects.1 h

lemma absorb_keeps (h : Shows (some cs) fact) : Shows (some (absorb cs o)) fact := by
  cases o with
  | none =>
    rw [absorb]
    split
    · exact h
    · cases fact with
      | none => rfl
      | some e => exact mem_append_left _ h
  | some es =>
    cases fact with
    | none => exact Bool.and_eq_false_iff.2 (.inl h)
    | some e => exact mem_addEffects.2 (.inl h)

lemma absorb_gains (hsane : cs.Sane) (h : Shows o fact) : Shows (some (absorb cs o)) fact := by
  cases o with
  | none =>
    rw [absorb]
    split
    · rename_i hmem
      cases fact with
      | none => exact hsane hmem
      | some e => exact (show e = unknownCall from h) ▸ hmem
    · cases fact with
      | none => rfl
      | some e => exact (show e = unknownCall from h) ▸ mem_append_right _ mem_cons_self
  | some es =>
    cases fact with
    | none => exact Bool.and_eq_false_iff.2 (.inr h)
    | some e => exact mem_addEffects.2 (.inr h)

lemma absorb_sane (h : cs.Sane) (ho : ∀ es, o = some es → es.Sane) : (absorb cs o).Sane := by
  intro hmem
  have hshown : Shows (some cs) (some unknownCall) ∨ Shows o (some unknownCall) := shows_absorb hmem
  suffices hunknown : Shows (some (absorb cs o)) none from hunknown
  rcases hshown with hmem | hmem
  · exact absorb_keeps (h hmem)
  · refine absorb_gains h ?_
    cases o with
    | none => exact trivial
    | some es => exact ho es rfl hmem

/-- Summaries along the call graph. -/
def rules : Passes.Rules (Option FuncEffects) where
  absorb := absorb?
  Covers a b := ∀ fact, Shows b fact → Shows a fact
  Live a := a ≠ none
  Sane a := ∀ fe, a = some fe → fe.Sane
  refl _ _ := id
  trans hab hbc fact h := hab fact (hbc fact h)
  keeps a b fact h := by
    cases a with
    | none => exact h
    | some cs => exact absorb_keeps h
  gains := by
    intro a hlive hsane b fact h
    obtain ⟨cs, rfl⟩ := Option.ne_none_iff_exists'.1 hlive
    exact absorb_gains (hsane cs rfl) h
  live a b := by cases a <;> simp [absorb?]
  sane := by
    intro a b ha hb fe hfe
    obtain ⟨cs, rfl, rfl⟩ := Option.map_eq_some_iff.1 hfe
    exact absorb_sane (ha cs rfl) hb

lemma rules_dead {a : Option FuncEffects} (b : Option FuncEffects) (h : ¬rules.Live a) : rules.absorb a b = a := by
  rw [not_not.1 h]
  rfl

section

variable {Fn : Type} [DecidableEq Fn]

/-- The edges in the order in which the nodes are visited. -/
def edges (nodes : List (CallNode Fn)) : List (Fn × Fn) := nodes.flatMap fun n => n.2.map fun g => (n.1, g)

/-- The table after an edge, and what it means that nothing changed. -/
lemma visitCall_spec (caller : Fn) (st : Table Fn FuncEffects × Bool) (callee : Fn) :
    (fun f => (visitCall caller st callee).1.lookup f) = Passes.visit rules (st.1.lookup) (caller, callee) ∧
      ((visitCall caller st callee).2 = false →
        st.2 = false ∧ (fun f => (visitCall caller st callee).1.lookup f) = st.1.lookup) := by
  unfold visitCall Passes.visit
  cases hc : st.1.lookup caller with
  | none =>
    refine ⟨?_, fun h => ⟨h, rfl⟩⟩
    funext f
    rcases eq_or_ne f caller with rfl | hf
    · simp [rules, absorb?, hc]
    · rw [Function.update_of_ne hf]
  | some cs =>
    have hlookup : (fun f => (st.1.insert caller (absorb cs (st.1.lookup callee))).lookup f) =
        Function.update (st.1.lookup) caller (some (absorb cs (st.1.lookup callee))) := by
      funext f
      rw [Table.lookup_insert_if, Function.update_apply]
    refine ⟨?_, fun h => ?_⟩
    · simp only [hlookup, hc]
      rfl
    simp only [Bool.or_eq_false_iff, decide_eq_false_iff_not, not_not] at h
    refine ⟨h.1, hlookup.trans ?_⟩
    rw [h.2, ← hc]
    exact Function.update_eq_self _ _

lemma visitCalls_spec (caller : Fn) (callees : List Fn) (st : Table Fn FuncEffects × Bool) :
    (fun f => (callees.foldl (visitCall caller) st).1.lookup f) =
        Passes.pass rules (callees.map fun g => (caller, g)) (st.1.lookup) ∧
      ((callees.foldl (visitCall caller) st).2 = false →
        st.2 = false ∧ (fun f => (callees.foldl (visitCall caller) st).1.lookup f) = st.1.lookup) := by
  induction callees generalizing st with
  | nil => exact ⟨rfl, fun h => ⟨h, rfl⟩⟩
  | cons callee callees ih =>
    obtain ⟨hvisit, hsame⟩ := visitCall_spec caller st callee
    obtain ⟨hpass, hrest⟩ := ih (visitCall caller st callee)
    refine ⟨?_, fun h => ?_⟩
    · rw [foldl_cons, hpass, hvisit]
      rfl
    · obtain ⟨hflag, hrest⟩ := hrest h
      exact ⟨(hsame hflag).1, hrest.trans (hsame hflag).2⟩

lemma visitNodes_spec (nodes : List (CallNode Fn)) (state : Table Fn FuncEffects) :
    (fun f => (visitNodes nodes state).1.lookup f) = Passes.pass rules (edges nodes) (state.lookup) ∧
      ((visitNodes nodes state).2 = false → (fun f => (visitNodes nodes state).1.lookup f) = state.lookup) := by
  suffices hfold : ∀ st : Table Fn FuncEffects × Bool,
      (fun f => (nodes.foldl visitNode st).1.lookup f) = Passes.pass rules (edges nodes) (st.1.lookup) ∧
        ((nodes.foldl visitNode st).2 = false →
          st.2 = false ∧ (fun f => (nodes.foldl visitNode st).1.lookup f) = st.1.lookup) by
    obtain ⟨hpass, hsame⟩ := hfold (state, false)
    exact ⟨hpass, fun h => (hsame h).2⟩
  induction nodes with
  | nil => exact fun st => ⟨rfl, fun h => ⟨h, rfl⟩⟩
  | cons node nodes ih =>
    intro st
    obtain ⟨hvisit, hsame⟩ := visitCalls_spec node.1 node.2 st
    obtain ⟨hpass, hrest⟩ := ih (visitNode st node)
    refine ⟨?_, fun h => ?_⟩
    · rw [edges, flatMap_cons, Passes.pass, foldl_append]
      rw [Passes.pass] at hvisit
      rw [← hvisit]
      exact hpass
    · obtain ⟨hflag, hrest⟩ := hrest h
      exact ⟨(hsame hflag).1, hrest.trans (hsame hflag).2⟩

/-! ## Whole runs -/

variable {graph : List (CallNode Fn)} {direct : Table Fn FuncEffects} {orders : ℕ → List (CallNode Fn)}

def Calls (graph : List (CallNode Fn)) (f g : Fn) : Prop := ∃ callees, (f, callees) ∈ graph ∧ g ∈ callees

/-- Every pass visits the nodes of the graph. -/
def Visits (orders : ℕ → List (CallNode Fn)) (graph : List (CallNode Fn)) : Prop := ∀ i, (orders i).Perm graph

omit [DecidableEq Fn] in
lemma mem_edges {nodes} (h : nodes.Perm graph) (e : Fn × Fn) : e ∈ edges nodes ↔ Calls graph e.1 e.2 := by
  unfold edges Calls
  rw [mem_flatMap]
  constructor
  · rintro ⟨n, hn, he⟩
    obtain ⟨g, hg, rfl⟩ := mem_map.1 he
    exact ⟨n.2, h.mem_iff.1 hn, hg⟩
  · rintro ⟨callees, hmem, hg⟩
    exact ⟨(e.1, callees), h.mem_iff.2 hmem, mem_map.2 ⟨e.2, hg, rfl⟩⟩

/-- The passes of `computeEffects` are passes along the calls. -/
lemma iterate_runs (h : Visits orders graph) (n i : ℕ) (state : Table Fn FuncEffects) :
    Passes.Runs rules (Calls graph) n (state.lookup) (fun f => (iterate orders n i state).lookup f) := by
  induction n generalizing i state with
  | zero => exact Passes.Runs.done _
  | succ n ih =>
    obtain ⟨hpass, hsame⟩ := visitNodes_spec (orders i) state
    unfold iterate
    split
    · refine Passes.Runs.more (edges (orders i)) (mem_edges (h i)) ?_
      rw [← hpass]
      exact ih (i + 1) _
    rename_i hflag
    have hsame := hsame (by simpa using hflag)
    rw [hsame]
    exact Passes.Runs.stop (edges (orders i)) (mem_edges (h i)) (hpass.symm.trans hsame)

/-- A chain of calls through functions with summaries. -/
abbrev CallChain (graph : List (CallNode Fn)) (direct : Table Fn FuncEffects) : ℕ → Fn → Fn → Prop :=
  Passes.Chain (Calls graph) fun f => rules.Live (direct.lookup f)

/-- What functions show that are reached by a number of calls. -/
def Sourced (graph : List (CallNode Fn)) (direct : Table Fn FuncEffects) (fn : Fn) (W : ℕ → Prop)
    (fact : Option GoString) : Prop :=
  ∃ k g, W k ∧ CallChain graph direct k fn g ∧ Shows (direct.lookup g) fact

/-- What is shown by a function that is reached is shown by one that is reached by at most 32 calls. -/
def Near (graph : List (CallNode Fn)) (direct : Table Fn FuncEffects) (fn : Fn) : Prop :=
  ∀ fact, Sourced graph direct fn (fun _ => True) fact → Sourced graph direct fn (· ≤ maxEffectIterations) fact

variable {f g fn : Fn}

omit [DecidableEq Fn] in
lemma absorb_sourced {P : Option GoString → Prop} {a b : Option FuncEffects} (ha : ∀ fact, Shows a fact → P fact)
    (hb : ∀ fact, Shows b fact → P fact) (fact : Option GoString) (h : Shows (rules.absorb a b) fact) : P fact := by
  cases a with
  | none => exact ha fact h
  | some cs => exact (shows_absorb h).elim (ha fact) (hb fact)

lemma summary_live (direct : Table Fn FuncEffects) (h : Visits orders graph) (fn : Fn) :
    summary orders direct fn = none ↔ direct.lookup fn = none :=
  not_iff_not.1 (Passes.runs_live (iterate_runs h maxEffectIterations 0 direct) fn)

/-- A summary shows nothing without a reason. -/
lemma summary_sourced (direct : Table Fn FuncEffects) (horders : Visits orders graph) {fact : Option GoString}
    (h : Shows (summary orders direct fn) fact) : Sourced graph direct fn (fun _ => True) fact :=
  Passes.runs_sources (Q := fun a => ∀ fact, Shows a fact → Sourced graph direct fn (fun _ => True) fact)
    absorb_sourced rules_dead (iterate_runs horders maxEffectIterations 0 direct) (fun _ => Iff.rfl)
    (fun x k hc _ h => ⟨k, x, trivial, hc, h⟩) (Passes.Chain.refl fn) fact h

section

variable (hsane : ∀ f fe, direct.lookup f = some fe → fe.Sane)
include hsane

/-- **A summary shows what is near**, in whatever order the functions are visited. -/
theorem summary_near (horders : Visits orders graph) {fact : Option GoString}
    (h : Sourced graph direct fn (· ≤ maxEffectIterations) fact) : Shows (summary orders direct fn) fact := by
  obtain ⟨k, g, hk, hc, hg⟩ := h
  exact Passes.runs_cover (iterate_runs horders maxEffectIterations 0 direct) hsane hc hk fact hg

lemma summary_exact (horders : Visits orders graph) (hnear : Near graph direct fn) (fact : Option GoString) :
    Shows (summary orders direct fn) fact ↔ Sourced graph direct fn (fun _ => True) fact :=
  ⟨summary_sourced direct horders, fun h => summary_near hsane horders (hnear fact h)⟩

end

/-! ## The best and the worst order -/

section

variable (graph : List (CallNode Fn)) (direct : Table Fn FuncEffects) (fn : Fn)

/-- How many calls a function is away. -/
noncomputable abbrev away (x : Fn) : ℕ := Passes.level (Calls graph) (fun f => rules.Live (direct.lookup f)) fn x

/-- The nearest functions first. -/
noncomputable def outward : List (CallNode Fn) := graph.insertionSort fun a b => away graph direct fn a.1 ≤ away graph direct fn b.1

/-- The nearest functions last. -/
noncomputable def inward : List (CallNode Fn) := graph.insertionSort fun a b => away graph direct fn b.1 ≤ away graph direct fn a.1

variable {graph direct fn}

omit [DecidableEq Fn] in
lemma edges_pairwise {r : ℕ → ℕ → Prop} (hr : ∀ n, r n n) {lev : Fn → ℕ} {nodes : List (CallNode Fn)}
    (h : nodes.Pairwise fun a b => r (lev a.1) (lev b.1)) :
    (edges nodes).Pairwise fun a b => r (lev a.1) (lev b.1) := by
  refine pairwise_flatMap.2 ⟨fun n _ => pairwise_map.2 (pairwise_of_forall fun _ _ => hr _), h.imp fun hab x hx y hy => ?_⟩
  obtain ⟨-, -, rfl⟩ := mem_map.1 hx
  obtain ⟨-, -, rfl⟩ := mem_map.1 hy
  exact hab

/-- **Visited outward, an effect comes one call nearer in a pass.** -/
lemma iterate_outward (n i m : ℕ) (state : Table Fn FuncEffects)
    (hlive : ∀ x, rules.Live (direct.lookup x) ↔ rules.Live (state.lookup x))
    (h : ∀ x k, CallChain graph direct k fn x → ∀ fact, Shows (state.lookup x) fact →
      Sourced graph direct fn (· ≤ away graph direct fn x + m) fact) (fact : Option GoString)
    (hs : Shows ((iterate (fun _ => outward graph direct fn) n i state).lookup fn) fact) :
    Sourced graph direct fn (· ≤ m + n) fact := by
  have hmono : ∀ {a b} {fact : Option GoString}, a ≤ b → Sourced graph direct fn (· ≤ a) fact →
      Sourced graph direct fn (· ≤ b) fact := fun hab ⟨k, g, hk, hg⟩ => ⟨k, g, hk.trans hab, hg⟩
  have hhere : away graph direct fn fn = 0 := Nat.le_zero.1 (Passes.level_le (Passes.Chain.refl fn))
  induction n generalizing i m state with
  | zero =>
    have := h fn 0 (Passes.Chain.refl fn) fact hs
    rwa [hhere, Nat.zero_add] at this
  | succ n ih =>
    obtain ⟨hpass, hsame⟩ := visitNodes_spec (outward graph direct fn) state
    have hperm : (outward graph direct fn).Perm graph := perm_insertionSort _ _
    have hnext : ∀ x k, CallChain graph direct k fn x → ∀ fact,
        Shows ((visitNodes (outward graph direct fn) state).1.lookup x) fact →
          Sourced graph direct fn (· ≤ away graph direct fn x + (m + 1)) fact := by
      intro x k hc
      have hforward : ∀ fact, Shows (Passes.pass rules (edges (outward graph direct fn)) state.lookup x) fact →
          Sourced graph direct fn (· ≤ away graph direct fn x + (m + 1)) fact := Passes.forward_pass (R := rules)
        (Q := fun n a => ∀ fact, Shows a fact → Sourced graph direct fn (· ≤ n) fact)
        (fun hmn hq fact hf => hmono hmn (hq fact hf)) absorb_sourced rules_dead
        (fun e he => (mem_edges hperm e).1 he)
        (edges_pairwise (r := (· ≤ ·)) le_refl (pairwise_insertionSort _ _)) hlive h hc
      rwa [← hpass] at hforward
    rw [iterate] at hs
    split at hs
    · have hlive' : ∀ x, rules.Live (direct.lookup x) ↔
          rules.Live ((visitNodes (outward graph direct fn) state).1.lookup x) := fun x => by
        rw [show (visitNodes (outward graph direct fn) state).1.lookup x = _ from congrFun hpass x, Passes.pass_live]
        exact hlive x
      have := ih (i + 1) (m + 1) _ hlive' hnext hs
      exact hmono (by omega) this
    · have := hnext fn 0 (Passes.Chain.refl fn) fact hs
      rw [hhere] at this
      exact hmono (by omega) this

/-- **Visited inward, all effects arrive in one pass.** -/
lemma summary_inward (hsane : ∀ f fe, direct.lookup f = some fe → fe.Sane) {fact : Option GoString}
    (h : Sourced graph direct fn (fun _ => True) fact) :
    Shows (summary (fun _ => inward graph direct fn) direct fn) fact := by
  obtain ⟨k, g, -, hc, hg⟩ := h
  have hperm : (inward graph direct fn).Perm graph := perm_insertionSort _ _
  obtain ⟨hpass, -⟩ := visitNodes_spec (inward graph direct fn) direct
  have hone : rules.Covers ((visitNodes (inward graph direct fn) direct).1.lookup fn) (direct.lookup g) := by
    rw [show (visitNodes (inward graph direct fn) direct).1.lookup fn = _ from congrFun hpass fn]
    exact Passes.backward_covers hsane (fun _ => Iff.rfl)
      (edges_pairwise (r := (· ≥ ·)) le_refl (pairwise_insertionSort _ _)) (Passes.chain_level hc) rfl
      fun x y he _ => (mem_edges hperm (x, y)).2 he
  have hsane' : ∀ f, rules.Sane ((visitNodes (inward graph direct fn) direct).1.lookup f) := fun f => by
    rw [show (visitNodes (inward graph direct fn) direct).1.lookup f = _ from congrFun hpass f]
    exact Passes.pass_sane _ hsane f
  rw [summary, show maxEffectIterations = 31 + 1 from rfl, iterate]
  split
  · exact Passes.runs_cover (iterate_runs (fun _ => hperm) 31 1 _) hsane' (Passes.Chain.refl fn) (Nat.zero_le _) fact
      (hone fact hg)
  · exact hone fact hg

end

/-- Along any calls, the first function without a summary is reached through functions with one. -/
lemma reach_or_missing (h : ReflTransGen (Calls graph) f g) :
    (∃ n, CallChain graph direct n f g) ∨ ∃ n x, CallChain graph direct n f x ∧ direct.lookup x = none := by
  induction h with
  | refl => exact .inl ⟨0, Passes.Chain.refl f⟩
  | @tail g h _ hcall ih =>
    rcases ih with ⟨n, hc⟩ | hmissing
    · cases hg : direct.lookup g with
      | none => exact .inr ⟨n, g, hc, hg⟩
      | some ge => exact .inl ⟨n + 1, hc.step (by simp [rules, hg]) hcall⟩
    · exact .inr hmissing

/-- What a summary says in the result. -/
def FuncEffects.shown (fe : FuncEffects) : List GoString × Bool := (sortedKeys fe.effects, fe.complete)

lemma shown_eq_iff {a b : Option FuncEffects} (hnone : a = none ↔ b = none) :
    a.map FuncEffects.shown = b.map FuncEffects.shown ↔ ∀ fact, Shows a fact ↔ Shows b fact := by
  cases a with
  | none => simp [hnone.1 rfl]
  | some fe =>
    cases b with
    | none => simp at hnone
    | some fe' =>
      have hkeys : sortedKeys fe.effects = sortedKeys fe'.effects ↔ ∀ e, e ∈ fe.effects ↔ e ∈ fe'.effects :=
        sortedSet_inj _
      have hflag : fe.complete = fe'.complete ↔ (fe.complete = false ↔ fe'.complete = false) := by
        cases fe.complete <;> cases fe'.complete <;> decide
      rw [Option.map_some, Option.map_some, Option.some.injEq, FuncEffects.shown, FuncEffects.shown, Prod.mk.injEq,
        hkeys, hflag]
      exact ⟨fun h fact => by cases fact with | none => exact h.2 | some e => exact h.1 e,
        fun h => ⟨fun e => h (some e), h none⟩⟩

/-- A summary is incomplete or has every direct effect of every function that is reached, and it is incomplete if one
of them is or has no summary. -/
def SoundFor (graph : List (CallNode Fn)) (direct : Table Fn FuncEffects) (fn : Fn) (fe : FuncEffects) : Prop :=
  (fe.complete = false ∨ ∀ g ge, ReflTransGen (Calls graph) fn g → direct.lookup g = some ge → ge.effects ⊆ fe.effects) ∧
    ∀ g, ReflTransGen (Calls graph) fn g → (∀ ge, direct.lookup g = some ge → ge.complete = false) → fe.complete = false

lemma soundFor_of_shows {fe : FuncEffects}
    (h : ∀ fact, Sourced graph direct fn (fun _ => True) fact → Shows (some fe) fact) : SoundFor graph direct fn fe := by
  have hmissing : ∀ n x, CallChain graph direct n fn x → direct.lookup x = none → fe.complete = false :=
    fun n x hc hx => h none ⟨n, x, trivial, hc, by rw [hx]; trivial⟩
  constructor
  · by_cases hfalse : fe.complete = false
    · exact .inl hfalse
    right
    intro g ge hreach hge e he
    rcases reach_or_missing hreach with ⟨n, hc⟩ | ⟨n, x, hc, hx⟩
    · exact h (some e) ⟨n, g, trivial, hc, by rw [hge]; exact he⟩
    · exact absurd (hmissing n x hc hx) hfalse
  intro g hreach hg
  rcases reach_or_missing hreach with ⟨n, hc⟩ | ⟨n, x, hc, hx⟩
  · cases hge : direct.lookup g with
    | none => exact hmissing n g hc hge
    | some ge => exact h none ⟨n, g, trivial, hc, by rw [hge]; exact hg ge hge⟩
  · exact hmissing n x hc hx

lemma directState_sane (funcs : List (Fn × List Instr)) (f : Fn) (fe : FuncEffects)
    (h : (directState funcs).lookup f = some fe) : fe.Sane := by
  revert h
  refine foldlRecOn (motive := fun state : Table Fn FuncEffects => state.lookup f = some fe → fe.Sane) funcs _ nofun ?_
  intro state ih fn _ h
  rcases Table.of_lookup_insert h with ⟨-, rfl⟩ | ⟨-, h⟩
  · exact directEffects_sane fn.2
  · exact ih h

/-- The result shows the summaries. -/
lemma computeEffects_congr {orders orders' : ℕ → List (CallNode Fn)} (funcID : Fn → GoString) {appFuncs : List Fn}
    (h : ∀ fn ∈ appFuncs, (summary orders direct fn).map FuncEffects.shown =
      (summary orders' direct fn).map FuncEffects.shown) :
    computeEffects orders direct funcID appFuncs = computeEffects orders' direct funcID appFuncs := by
  have hlist : ∀ orders fn, ((summary orders direct fn).map fun fe =>
      { function := funcID fn, effects := sortedKeys fe.effects, complete := fe.complete : EffectSummary }) =
      ((summary orders direct fn).map FuncEffects.shown).map fun s =>
        { function := funcID fn, effects := s.1, complete := s.2 : EffectSummary } := fun orders fn => by
    rw [Option.map_map]
    rfl
  unfold computeEffects
  congr 1
  refine filterMap_congr fun fn hfn => ?_
  rw [hlist, hlist, h fn hfn]

/-- **Effect summaries are sound** and do not depend on the orders, exactly when what is shown by a function that is
reached through functions with summaries is shown by one that is at most 32 calls away. -/
theorem summaries_sound (graph : List (CallNode Fn)) (funcs : List (Fn × List Instr)) (appFuncs : List Fn) :
    (∀ orders, Visits orders graph →
      (∀ fn ∈ appFuncs, ∀ fe, summary orders (directState funcs) fn = some fe →
        SoundFor graph (directState funcs) fn fe) ∧
      ∀ orders', Visits orders' graph →
        (∀ fn ∈ appFuncs, (summary orders (directState funcs) fn).map FuncEffects.shown =
          (summary orders' (directState funcs) fn).map FuncEffects.shown) ∧
        ∀ funcID, computeEffects orders (directState funcs) funcID appFuncs =
          computeEffects orders' (directState funcs) funcID appFuncs) ↔
    ∀ fn ∈ appFuncs, Near graph (directState funcs) fn := by
  have hsane := directState_sane funcs
  have hnone : ∀ {orders orders'}, Visits orders graph → Visits orders' graph → ∀ fn,
      (summary orders (directState funcs) fn = none ↔ summary orders' (directState funcs) fn = none) :=
    fun h h' fn => (summary_live _ h fn).trans (summary_live _ h' fn).symm
  constructor
  · -- what arrives when the functions are visited inward has to arrive when they are visited outward
    intro h fn hfn fact hfact
    have hin : Visits (fun _ => inward graph (directState funcs) fn) graph := fun _ => perm_insertionSort _ _
    have hout : Visits (fun _ => outward graph (directState funcs) fn) graph := fun _ => perm_insertionSort _ _
    have hsame := (shown_eq_iff (hnone hin hout fn)).1 (((h _ hin).2 _ hout).1 fn hfn) fact
    have hshows := hsame.1 (summary_inward hsane hfact)
    have hbound := iterate_outward maxEffectIterations 0 0 (directState funcs) (fun _ => Iff.rfl)
      (fun x k hc fact hf => ⟨_, x, Nat.le_add_right _ 0, Passes.chain_level hc, hf⟩) fact hshows
    rwa [Nat.zero_add] at hbound
  · intro hnear orders horders
    refine ⟨fun fn hfn fe hfe => soundFor_of_shows fun fact hfact => ?_, fun orders' horders' => ?_⟩
    · rw [← hfe]
      exact (summary_exact hsane horders (hnear fn hfn) fact).2 hfact
    have hsame : ∀ fn ∈ appFuncs, (summary orders (directState funcs) fn).map FuncEffects.shown =
        (summary orders' (directState funcs) fn).map FuncEffects.shown := fun fn hfn =>
      (shown_eq_iff (hnone horders horders' fn)).2 fun fact => (summary_exact hsane horders (hnear fn hfn) fact).trans
        (summary_exact hsane horders' (hnear fn hfn) fact).symm
    exact ⟨hsame, fun funcID => computeEffects_congr funcID hsame⟩

end

/-- Functions `0` to `n`; the last one uses the network. -/
def chainFuncs (n m : ℕ) : List (ℕ × List Instr) :=
  (List.range m).map fun i => (i, if i = n then [.call ⟨some (some (str "net/http")), none, false⟩] else [])

def chainDirect (n : ℕ) : Table ℕ FuncEffects := directState (chainFuncs n (n + 1))

/-- Each of them calls the next. -/
def chainGraph (n : ℕ) : List (CallNode ℕ) := (List.range n).map fun i => (i, [i + 1])

lemma chainGraph_calls {n i j} : Calls (chainGraph n) i j ↔ i < n ∧ j = i + 1 := by
  simp only [Calls, chainGraph, mem_map, mem_range, Prod.mk.injEq]
  constructor
  · rintro ⟨callees, ⟨k, hk, rfl, rfl⟩, hj⟩
    exact ⟨hk, mem_singleton.1 hj⟩
  · rintro ⟨hi, rfl⟩
    exact ⟨[i + 1], ⟨i, hi, rfl, rfl⟩, mem_singleton_self _⟩

lemma chain_length {n k i j direct} (h : CallChain (chainGraph n) direct k i j) : j = i + k ∧ (k = 0 ∨ j ≤ n) := by
  induction h with
  | refl i => exact ⟨rfl, .inl rfl⟩
  | step _ _ hcall ih =>
    obtain ⟨hlt, rfl⟩ := chainGraph_calls.1 hcall
    exact ⟨by omega, .inr hlt⟩

lemma chain_reach {n i} (h : i ≤ n) : ReflTransGen (Calls (chainGraph n)) 0 i := by
  induction i with
  | zero => exact ReflTransGen.refl
  | succ i ih => exact (ih (by omega)).tail (chainGraph_calls.2 ⟨h, rfl⟩)

/-- The network use of the last function has come as far as function `k`. -/
def Arrived (n k : ℕ) (state : Table ℕ FuncEffects) : Prop :=
  ∀ i ≤ n, state.lookup i = some ⟨if k ≤ i then [str "network"] else [], true⟩

lemma chainFuncs_lookup {n m i : ℕ} (hi : i < m) :
    (directState (chainFuncs n m)).lookup i = some ⟨if i = n then [str "network"] else [], true⟩ := by
  induction m with
  | zero => cases hi
  | succ m ih =>
    rw [chainFuncs, range_succ, map_append, directState, foldl_append, map_singleton, foldl_cons, foldl_nil,
      Table.lookup_insert_if]
    rcases eq_or_ne i m with rfl | hne
    · rw [if_pos rfl]
      by_cases hn : i = n
      · rw [if_pos hn, if_pos hn]
        rfl
      · rw [if_neg hn, if_neg hn]
        rfl
    · rw [if_neg hne]
      exact ih (by omega)

lemma chainDirect_arrived (n : ℕ) : Arrived n n (chainDirect n) := by
  intro i hi
  have hiff : n ≤ i ↔ i = n := by omega
  simp only [hiff]
  exact chainFuncs_lookup (by omega)

/-- What a forward pass has done when it has visited the functions below `j`. -/
lemma visitNodes_front {n k j state} (h : Arrived n (k + 1) state) (hj : j ≤ n) :
    (∀ i ≤ n, (visitNodes (chainGraph j) state).1.lookup i =
      some ⟨if k + 1 ≤ i ∨ (i = k ∧ i < j) then [str "network"] else [], true⟩) ∧
    ((visitNodes (chainGraph j) state).2 = true ↔ k < j) := by
  induction j with
  | zero =>
    refine ⟨fun i hi => ?_, by simp [visitNodes, chainGraph]⟩
    simpa [visitNodes, chainGraph] using h i hi
  | succ j ih =>
    obtain ⟨hlook, hchanged⟩ := ih (by omega)
    have hstep : visitNodes (chainGraph (j + 1)) state = visitCall j (visitNodes (chainGraph j) state) (j + 1) := by
      simp [visitNodes, chainGraph, range_succ, visitNode]
    have hcaller := hlook j (by omega)
    have hcallee := hlook (j + 1) hj
    rw [hstep, visitCall, hcaller, hcallee]
    refine ⟨fun i hi => ?_, ?_⟩
    · rcases eq_or_ne i j with rfl | hne
      · rw [AList.lookup_insert]
        -- the caller takes up what its callee had before this pass
        rcases lt_trichotomy k i with hk | rfl | hk
        · simp [absorb, addEffect, Nat.succ_le_of_lt hk, (by omega : k ≤ i)]
        · simp [absorb, addEffect]
        · have hle : ¬(k ≤ i) := by omega
          simp [absorb, hle, show ¬(k < i) by omega, show i ≠ k by omega]
      rw [AList.lookup_insert_ne hne, hlook i hi]
      have hiff : (k + 1 ≤ i ∨ i = k ∧ i < j) ↔ (k + 1 ≤ i ∨ i = k ∧ i < j + 1) := by omega
      simp only [hiff]
    rw [Bool.or_eq_true, hchanged]
    rcases lt_trichotomy k j with hk | rfl | hk
    · simp [hk, (by omega : k < j + 1)]
    · simp [absorb, addEffect]
    · have hle : ¬(k ≤ j) := by omega
      simp [absorb, hle, show ¬(k < j) by omega, show j ≠ k by omega, show ¬(k < j + 1) by omega]

/-- **A forward pass carries an effect over one call.** -/
theorem pass_front {n k : ℕ} {state : Table ℕ FuncEffects} (h : Arrived n (k + 1) state) (hk : k < n) :
    Arrived n k (visitNodes (chainGraph n) state).1 ∧ (visitNodes (chainGraph n) state).2 = true := by
  obtain ⟨hlook, hchanged⟩ := visitNodes_front h le_rfl
  refine ⟨fun i hi => ?_, hchanged.2 hk⟩
  have hiff : (k + 1 ≤ i ∨ i = k ∧ i < n) ↔ k ≤ i := by omega
  rw [hlook i hi]
  simp only [hiff]

lemma iterate_front {n k} : ∀ {m i : ℕ} {state : Table ℕ FuncEffects}, Arrived n (k + m) state →
    k + m ≤ n → Arrived n k (iterate (fun _ => chainGraph n) m i state) := by
  intro m
  induction m with
  | zero => intro i state h _; exact h
  | succ m ih =>
    intro i state h hle
    have hlt : k + m < n := by omega
    obtain ⟨hnext, hchanged⟩ := pass_front h hlt
    rw [iterate, if_pos hchanged]
    exact ih hnext (by omega)

theorem summaries_sound_chain : ∃ fe, summary (fun _ => chainGraph 2) (directState (chainFuncs 2 3)) 0 = some fe ∧
    (fe.complete = false ∨ str "network" ∈ fe.effects) := by
  have hnear : ∀ fn ∈ [0], Near (chainGraph 2) (directState (chainFuncs 2 3)) fn := by
    rintro fn - fact ⟨n, g, -, hc, hg⟩
    have hlen := chain_length hc
    exact ⟨n, g, by unfold maxEffectIterations; omega, hc, hg⟩
  obtain ⟨fe, hfe⟩ : ∃ fe, summary (fun _ => chainGraph 2) (directState (chainFuncs 2 3)) 0 = some fe :=
    Option.isSome_iff_exists.1 (by decide)
  have hsound := ((summaries_sound (chainGraph 2) (chainFuncs 2 3) [0]).2 hnear (fun _ => chainGraph 2)
    fun _ => Perm.refl _).1 0 (mem_singleton_self 0) fe hfe
  refine ⟨fe, hfe, hsound.1.imp_right fun hsub => ?_⟩
  exact hsub 2 ⟨[str "network"], true⟩ (chain_reach le_rfl) (chainFuncs_lookup (by decide)) mem_cons_self

/-- **A long chain is missed**: visited from its start, an effect 33 calls away does not arrive, the summary says
that it is complete, and another order gives another result. -/
theorem long_chain_missed :
    Visits (fun _ => chainGraph 33) (chainGraph 33) ∧ Visits (fun _ => (chainGraph 33).reverse) (chainGraph 33) ∧
      summary (fun _ => chainGraph 33) (directState (chainFuncs 33 34)) 0 = some ⟨[], true⟩ ∧
      ReflTransGen (Calls (chainGraph 33)) 0 33 ∧
      (directState (chainFuncs 33 34)).lookup 33 = some ⟨[str "network"], true⟩ ∧
      summary (fun _ => (chainGraph 33).reverse) (directState (chainFuncs 33 34)) 0 = some ⟨[str "network"], true⟩ :=
  ⟨fun _ => Perm.refl _, fun _ => reverse_perm _,
    iterate_front (k := 1) (m := 32) (chainDirect_arrived 33) le_rfl 0 (Nat.zero_le _), chain_reach le_rfl,
    chainFuncs_lookup (by decide), by decide +kernel⟩

/-! ## Key dependencies -/

section

variable {V Fn : Type}

section

variable (scalarFns : Fn → Bool)

def ValueKind.isScalarCall : ValueKind Fn → Bool
  | .call callee _ => callee.any scalarFns
  | _ => false

def ValueKind.isOtherCall : ValueKind Fn → Bool
  | .call callee builtin => !callee.any scalarFns && !builtin
  | _ => false

def ValueKind.isUnmodeled : ValueKind Fn → Bool
  | .other _ => true
  | _ => false

lemma see_eq (s : Saw) (k : ValueKind Fn) : see scalarFns s k =
    ⟨s.scalarResult || k.isScalarCall scalarFns, s.call || k.isOtherCall scalarFns,
      s.globalRead || k.isGlobal, s.unknown || k.isUnmodeled⟩ := by
  cases k with
  | call callee builtin =>
    simp only [see, ValueKind.isScalarCall, ValueKind.isOtherCall, ValueKind.isGlobal, ValueKind.isUnmodeled]
    split
    · rename_i hs
      simp [hs]
    · rename_i hs
      cases builtin <;> simp [hs]
  | _ => simp [see, ValueKind.isScalarCall, ValueKind.isOtherCall, ValueKind.isGlobal, ValueKind.isUnmodeled]

end

lemma foldl_see (g : ValueGraph V Fn) (scalarFns : Fn → Bool) (vs : List V) (s : Saw) :
    vs.foldl (fun s v => see scalarFns s (g.kind v)) s =
      ⟨s.scalarResult || vs.any fun v => (g.kind v).isScalarCall scalarFns,
        s.call || vs.any fun v => (g.kind v).isOtherCall scalarFns,
        s.globalRead || vs.any fun v => (g.kind v).isGlobal,
        s.unknown || vs.any fun v => (g.kind v).isUnmodeled⟩ := by
  induction vs generalizing s with
  | nil => simp
  | cons v vs ih =>
    rw [foldl_cons, ih, see_eq]
    simp [Bool.or_assoc]

/-- The values that a value is computed from. -/
def ComputedFrom (g : ValueGraph V Fn) : V → V → Prop := ReflTransGen fun a b => some b ∈ g.operands a

variable [DecidableEq V]

/-- The loop visits values and adds up what it sees. -/
lemma classifyLoop_eq (g : ValueGraph V Fn) (scalarFns : Fn → Bool) (fuel : ℕ) (w : Worklist.Work V) (s : Saw) :
    classifyLoop g scalarFns fuel w s =
      (Worklist.traverse g.pushed fuel w).map fun vs => vs.foldl (fun s v => see scalarFns s (g.kind v)) s := by
  induction fuel generalizing w s with
  | zero => rfl
  | succ fuel ih =>
    unfold classifyLoop Worklist.traverse
    cases Worklist.turn g.pushed w with
    | none => rfl
    | some r =>
      simp only [ih, Option.map_map]
      rfl

variable {g : ValueGraph V Fn}

omit [DecidableEq V] in
lemma mem_pushed {a b} : b ∈ g.pushed a ↔ some b ∈ g.operands a := by
  unfold ValueGraph.pushed
  split
  · simp
  rename_i hleaf
  rw [g.leaves a (by simpa using hleaf)]
  simp

/-- **The class of a key**, by what there is among the values it is computed from. The loop ends after at most one
turn for each value. -/
theorem classify_spec [Fintype V] (g : ValueGraph V Fn) (scalarFns : Fn → Bool) {fuel : ℕ}
    (hfuel : Fintype.card V < fuel) (key : V) : ∃ s : Saw,
    classifyKeyDependency g scalarFns fuel (some key) = some s.class ∧
      (s.scalarResult = true ↔ ∃ v, ComputedFrom g key v ∧ (g.kind v).isScalarCall scalarFns = true) ∧
      (s.call = true ↔ ∃ v, ComputedFrom g key v ∧ (g.kind v).isOtherCall scalarFns = true) ∧
      (s.globalRead = true ↔ ∃ v, ComputedFrom g key v ∧ (g.kind v).isGlobal = true) ∧
      (s.unknown = true ↔ ∃ v, ComputedFrom g key v ∧ (g.kind v).isUnmodeled = true) := by
  obtain ⟨vs, hvs⟩ := Worklist.traverse_total g.pushed (Worklist.start_ok key)
    (by rw [Worklist.start_size]; exact hfuel)
  have hmem : ∀ v, v ∈ vs ↔ ComputedFrom g key v := by
    intro v
    rw [Worklist.mem_traverse hvs]
    simp only [mem_pushed]
    rfl
  refine ⟨_, by rw [classifyKeyDependency, classifyLoop_eq, hvs, Option.map_some, Option.map_some, foldl_see], ?_⟩
  simp only [Bool.false_or, any_eq_true, hmem, and_self, iff_self]

/-- What may change or be observed if it is evaluated early. -/
def Hazard (writable : Prop) : ValueKind Fn → Prop
  | .call _ builtin => builtin = false
  | .global => True
  | .unOp .receive => True
  | .unOp .load => writable
  | .lookup true => writable
  | .other _ => True
  | _ => False

/-- What the classifier looks for. -/
def ValueKind.Seen (scalarFns : Fn → Bool) (k : ValueKind Fn) : Prop :=
  k.isScalarCall scalarFns = true ∨ k.isOtherCall scalarFns = true ∨ k.isGlobal = true ∨ k.isUnmodeled = true

/-- What it takes for pure: a receive, and a load or map lookup of memory that can be written. -/
def ValueKind.Unseen (writable : Prop) (k : ValueKind Fn) : Prop :=
  k = .unOp .receive ∨ (k = .unOp .load ∨ k = .lookup true) ∧ writable

omit [DecidableEq V] in
lemma hazard_iff (scalarFns : Fn → Bool) {writable : Prop} {k : ValueKind Fn} (h : ¬k.Seen scalarFns) :
    Hazard writable k ↔ k.Unseen writable := by
  cases k with
  | call callee builtin =>
    refine iff_of_false (fun hb : builtin = false => h ?_) (by simp [ValueKind.Unseen])
    subst hb
    cases hs : callee.any scalarFns with
    | true => exact .inl hs
    | false =>
      refine .inr (.inl ?_)
      simp [ValueKind.isOtherCall, hs]
  | global => exact absurd (.inr (.inr (.inl rfl))) h
  | other instruction => exact absurd (.inr (.inr (.inr rfl))) h
  | unOp op => cases op <;> simp [Hazard, ValueKind.Unseen]
  | lookup map => cases map <;> simp [Hazard, ValueKind.Unseen]
  | _ => simp [Hazard, ValueKind.Unseen]

/-- A key is structural when nothing that it is computed from is looked for. -/
lemma structural_iff [Fintype V] (g : ValueGraph V Fn) (scalarFns : Fn → Bool) {fuel : ℕ}
    (hfuel : Fintype.card V < fuel) (key : V) : ∃ c, classifyKeyDependency g scalarFns fuel (some key) = some c ∧
      (c = keyStructural ↔ ∀ v, ComputedFrom g key v → ¬(g.kind v).Seen scalarFns) ∧
      ((∃ v, ComputedFrom g key v ∧ (g.kind v).isScalarCall scalarFns = true) → c = keyResultDependent) := by
  obtain ⟨s, hclass, hscalar, hcall, hglobal, hunknown⟩ := classify_spec g scalarFns hfuel key
  refine ⟨s.class, hclass, ?_, fun hv => by rw [Saw.class, if_pos (hscalar.2 hv)]⟩
  have hflags : s.class = keyStructural ↔
      ¬(s.scalarResult = true ∨ s.call = true ∨ s.globalRead = true ∨ s.unknown = true) := by
    obtain ⟨a, b, c, d⟩ := s
    cases a <;> cases b <;> cases c <;> cases d <;> decide
  rw [hflags, hscalar, hcall, hglobal, hunknown, ← exists_or, ← exists_or, ← exists_or, not_exists]
  simp only [← and_or_left, not_and]
  rfl

/-- **Structural keys are safe**: the classifier ends and finds the keys that are computed from the result of a scalar
operation; and a structural key is computed from nothing hazardous exactly when a key that is computed from a receive
or from memory that can be written is also computed from something that the classifier looks for. -/
theorem structural_keys_safe [Fintype V] (g : ValueGraph V Fn) (scalarFns : Fn → Bool) (writable : V → Prop)
    (fuel : ℕ) (hfuel : Fintype.card V < fuel) (key : Option V) :
    ∃ c, classifyKeyDependency g scalarFns fuel key = some c ∧
      ((c = keyStructural → ∀ k, key = some k → ∀ v, ComputedFrom g k v → ¬Hazard (writable v) (g.kind v)) ↔
        ∀ k, key = some k → (∃ v, ComputedFrom g k v ∧ (g.kind v).Unseen (writable v)) →
          ∃ v, ComputedFrom g k v ∧ (g.kind v).Seen scalarFns) ∧
      ∀ k, key = some k → (∃ v, ComputedFrom g k v ∧ (g.kind v).isScalarCall scalarFns = true) →
        c = keyResultDependent := by
  cases key with
  | none => exact ⟨keyUnknown, rfl, iff_of_true nofun nofun, nofun⟩
  | some k =>
    obtain ⟨c, hclass, hstruct, hscalar⟩ := structural_iff g scalarFns hfuel k
    refine ⟨c, hclass, ?_, fun _ hk => Option.some.inj hk ▸ hscalar⟩
    rw [hstruct]
    constructor
    · rintro h _ ⟨⟩ ⟨v, hv, hunseen⟩
      by_contra hnone
      have hseen : ∀ v, ComputedFrom g k v → ¬(g.kind v).Seen scalarFns := fun v hv hs => hnone ⟨v, hv, hs⟩
      exact h hseen k rfl v hv ((hazard_iff scalarFns (hseen v hv)).2 hunseen)
    · rintro h hseen _ ⟨⟩ v hv hhazard
      obtain ⟨u, hu, hs⟩ := h k rfl ⟨v, hv, (hazard_iff scalarFns (hseen v hv)).1 hhazard⟩
      exact hseen u hu hs

end

/-- A value and its one operand, which is a parameter. -/
def unary (kind : ValueKind Unit) (h : kind.isInstruction = true) : ValueGraph Bool Unit where
  kind v := if v then kind else .parameter
  operands v := if v then [some false] else []
  leaves v hv := by
    cases v with
    | true => exact absurd (h.symm.trans hv) (by decide)
    | false => rfl

theorem structural_keys_safe_negation :
    classifyKeyDependency (unary (.unOp .negate) rfl) (fun _ => true) 3 (some true) = some keyStructural ∧
      ComputedFrom (unary (.unOp .negate) rfl) true false ∧ ¬Hazard True ((unary (.unOp .negate) rfl).kind false) := by
  have hfrom : ComputedFrom (unary (.unOp .negate) rfl) true false := ReflTransGen.single mem_cons_self
  obtain ⟨c, hc, hsafe, -⟩ := structural_keys_safe (unary (.unOp .negate) rfl) (fun _ => true) (fun _ => True) 3
    (by decide) (some true)
  have hstruct : classifyKeyDependency (unary (.unOp .negate) rfl) (fun _ => true) 3 (some true) =
      some keyStructural := by decide
  refine ⟨hstruct, hfrom, hsafe.2 ?_ (Option.some.inj (hc.symm.trans hstruct)) true rfl false hfrom⟩
  rintro _ - ⟨v, -, hunseen⟩
  cases v <;> simp [unary, ValueKind.Unseen] at hunseen

/-- **A structural key may be received or loaded**: unary operations and lookups count as pure. -/
theorem received_key_structural :
    (classifyKeyDependency (unary (.unOp .receive) rfl) (fun _ => true) 3 (some true) = some keyStructural ∧
      ComputedFrom (unary (.unOp .receive) rfl) true true ∧ Hazard False ((unary (.unOp .receive) rfl).kind true)) ∧
    (classifyKeyDependency (unary (.unOp .load) rfl) (fun _ => true) 3 (some true) = some keyStructural ∧
      Hazard True ((unary (.unOp .load) rfl).kind true)) ∧
    (classifyKeyDependency (unary (.lookup true) rfl) (fun _ => true) 3 (some true) = some keyStructural ∧
      Hazard True ((unary (.lookup true) rfl).kind true)) :=
  ⟨⟨by decide, ReflTransGen.refl, trivial⟩, ⟨by decide, trivial⟩, by decide, trivial⟩

end BatchWeaver.Analysis
