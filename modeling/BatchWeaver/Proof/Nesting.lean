import BatchWeaver.Spec.Scope

/-!
# Nested scopes

`Run` closes the scope that `NewScope` gave it. If that scope is new, no other call has it, and it
is open until the call's own function returns (`nested_open`). Under `NestedReuseParent` the scope is
the one of the calling function: when the inner function returns, the scope of the outer one is closed
(`parent_closed`). The scope of a gqlgen operation is closed by the call of its handler that returns
nil (`operation_scope_closed`), so exactly if the transport makes it.
-/

namespace BatchWeaver

variable {O : Type}

/-- **Each running function has a scope of its own, and it is open.** -/
structure FramesOK (s : Runs O) : Prop where
  live : ∀ id f, s.frames.lookup id = some f → s.scopes.state f.scope = some .open
  apart : ∀ id id' f f', s.frames.lookup id = some f → s.frames.lookup id' = some f' → f.scope = f'.scope → id = id'
  range : ∀ id f, s.frames.lookup id = some f → f.scope ≤ s.scopes.scopeSeq

/-- No call reuses the scope of a context. -/
def NoReuse (_ : List RunEvent) (s : Runs O) : RunEvent → Prop
  | .run _ parent nested => nested = .reuseParent → s.context parent = none
  | .ret _ => True
  | .engine _ => True

instance (es : List RunEvent) (s : Runs O) : (e : RunEvent) → Decidable (NoReuse es s e)
  | .run _ parent nested =>
    inferInstanceAs (Decidable (nested = .reuseParent → s.context parent = none))
  | .ret _ => inferInstanceAs (Decidable True)
  | .engine _ => inferInstanceAs (Decidable True)

variable {nested : NestedPolicy}

namespace Scopes

variable {s s' : Scopes O}

/-- `NewScope` returns a new scope, or the one of the context if it may be reused. -/
lemma newScope_ok {ctx id} (h : s.newScope ctx nested = .ok (s', id)) :
    (s', id) = s.fresh ∨ nested = .reuseParent ∧ ctx = some id ∧ s' = s := by
  unfold newScope at h
  split at h
  · cases h
  split at h
  · exact .inl (Except.ok.inj h).symm
  split at h
  · cases h
    exact .inr ⟨rfl, rfl, rfl⟩
  · cases h
  · exact .inl (Except.ok.inj h).symm

lemma state_fresh (k : ScopeID) : s.fresh.1.state k = if k = s.scopeSeq + 1 then some .open else s.state k := by
  unfold fresh state
  dsimp only
  split
  · rename_i hk
    rw [hk, Function.update_self]
    rfl
  · rename_i hk
    rw [Function.update_of_ne hk]

/-- `Close` closes its scope and leaves the others alone. -/
lemma state_close (id k : ScopeID) :
    (s.close id).1.state k = if k = id then (s.state id).map fun _ => .closed else s.state k := by
  unfold close
  split
  · rename_i hc
    split
    · rename_i hk
      rw [hk, hc]
      rfl
    · rfl
  unfold state
  dsimp only
  split
  · rename_i hk
    rw [hk, Function.update_self, Option.map_map, Option.map_map]
    rfl
  · rename_i hk
    rw [Function.update_of_ne hk]

lemma scopeSeq_close (id : ScopeID) : (s.close id).1.scopeSeq = s.scopeSeq := by
  unfold close
  split <;> rfl

end Scopes

section Steps

variable {s : Runs O}

lemma FramesOK.run (h : FramesOK s) {id parent}
    (hreuse : nested = .reuseParent → s.context parent = none) : FramesOK (s.next (.run id parent nested)) := by
  unfold Runs.next
  dsimp only
  split
  · exact h
  rename_i scopes scope hnew
  have hfresh : (scopes, scope) = s.scopes.fresh := by
    refine (Scopes.newScope_ok hnew).resolve_right ?_
    rintro ⟨hn, hctx, -⟩
    rw [hreuse hn] at hctx
    cases hctx
  obtain ⟨rfl, rfl⟩ : scopes = s.scopes.fresh.1 ∧ scope = s.scopes.fresh.2 :=
    ⟨congrArg Prod.fst hfresh, congrArg Prod.snd hfresh⟩
  have hlook : ∀ k, (s.frames.insert id { scope := s.scopes.fresh.2 }).lookup k =
      if k = id then some { scope := s.scopes.fresh.2 } else s.frames.lookup k :=
    fun k => Table.lookup_insert_if s.frames id k _
  -- the scopes of the others are older
  have hold : ∀ k f, s.frames.lookup k = some f → f.scope ≠ s.scopes.scopeSeq + 1 := by
    intro k f hf he
    have hle := h.range k f hf
    rw [he] at hle
    exact Nat.not_succ_le_self _ hle
  refine ⟨fun k f hf => ?_, fun k k' f f' hf hf' hs => ?_, fun k f hf => ?_⟩
  · rw [Scopes.state_fresh]
    rw [hlook] at hf
    split at hf
    · cases hf
      exact if_pos rfl
    · rw [if_neg (hold k f hf)]
      exact h.live k f hf
  · rw [hlook] at hf hf'
    split at hf
    · rename_i hk
      cases hf
      split at hf'
      · rename_i hk'
        rw [hk, hk']
      · exact absurd hs.symm (hold k' f' hf')
    split at hf'
    · cases hf'
      exact absurd hs (hold k f hf)
    · exact h.apart k k' f f' hf hf' hs
  rw [hlook] at hf
  split at hf
  · cases hf
    exact le_rfl
  · exact (h.range k f hf).trans (Nat.le_succ _)

lemma FramesOK.ret (h : FramesOK s) (id : FrameID) : FramesOK (s.next (.ret id)) := by
  unfold Runs.next
  dsimp only
  split
  · exact h
  rename_i f hf
  have hlook : ∀ k f', (s.frames.erase id).lookup k = some f' → k ≠ id ∧ s.frames.lookup k = some f' := by
    intro k f' hk
    obtain ⟨hne, hk⟩ := Table.of_lookup_erase hk
    exact ⟨hne, hk⟩
  refine ⟨fun k f' hk => ?_, fun k k' f₁ f₂ hk hk' hs => ?_, fun k f' hk => ?_⟩
  · obtain ⟨hne, hk⟩ := hlook k f' hk
    rw [Scopes.state_close, if_neg fun he => hne (h.apart k id f' f hk hf he)]
    exact h.live k f' hk
  · exact h.apart k k' f₁ f₂ (hlook k f₁ hk).2 (hlook k' f₂ hk').2 hs
  · rw [Scopes.scopeSeq_close]
    exact h.range k f' (hlook k f' hk).2

end Steps

/-- **The scope of every running function is open, in every run in which no call of `Run` reuses the
scope of the context it is given.** -/
theorem nested_open {es : List RunEvent} {s : Runs O} (h : ((runs O).only NoReuse).Reach es s) :
    ∀ id f, s.frames.lookup id = some f → s.scopes.state f.scope = some .open := by
  have hok : FramesOK s := by
    refine h.invariant (I := fun _ s => FramesOK s) ⟨?_, ?_, ?_⟩ ?_
    · exact nofun
    · exact nofun
    · exact nofun
    intro es s e _ hl hI
    cases e with
    | run id parent nested => exact hI.run hl.2
    | ret id => exact hI.ret id
    | engine state => exact ⟨hI.live, hI.apart, hI.range⟩
  exact hok.live

/-- Two nested calls, the inner one with a scope of its own, and a second inner one. -/
theorem nested_open_demo :
    let s := (runs ℕ).run (runs ℕ).init [.run 0 none .reuseParent, .run 1 (some 0) .isolateChild,
      .ret 1, .run 2 (some 0) .rejectNested, .run 3 (some 0) .isolateChild]
    ∀ id f, s.frames.lookup id = some f → s.scopes.state f.scope = some .open :=
  nested_open (System.reach_of_allowed (by decide))

/-- **An inner call closes the scope of the outer one.** It reuses the scope and returns; the outer
function is running with a closed scope. -/
theorem parent_closed : ∃ es : List RunEvent, ∃ s : Runs ℕ, (runs ℕ).Reach es s ∧
    ∃ f, s.frames.lookup 0 = some f ∧ s.scopes.state f.scope = some .closed :=
  ⟨[.run 0 none .isolateChild, .run 1 (some 0) .reuseParent, .ret 1], _,
    System.reach_of_allowed (by decide), ⟨1⟩, by decide, by decide⟩

/-! ## Operations of gqlgen -/

namespace Gqlgen

variable {R : Type} {h : ResponseHandler O R}

/-- `Close` was called once, and the scope is not open. -/
def ResponseHandler.Closed (h : ResponseHandler O R) : Prop :=
  h.once = true ∧ h.closes = 1 ∧ h.scopes.state h.scope ≠ some .open

lemma closeScope_closed (ho : h.once = false) (hc : h.closes = 0) : h.closeScope.Closed := by
  have heq : h.closeScope = { h with once := true, scopes := (h.scopes.close h.scope).1, closes := 1 } := by
    unfold ResponseHandler.closeScope
    rw [ho, hc]
    rfl
  rw [heq]
  refine ⟨rfl, rfl, ?_⟩
  rw [Scopes.state_close, if_pos rfl]
  cases h.scopes.state h.scope <;> simp

/-- Whatever the handler is asked after that, the scope is not closed again. -/
lemma ResponseHandler.Closed.calls (hc : h.Closed) (n : ℕ) : (h.calls n).Closed := by
  induction n generalizing h with
  | zero => exact hc
  | succ n ih =>
    have hone : h.call.2.Closed := by
      unfold ResponseHandler.call ResponseHandler.closeScope
      cases h.inner with
      | nil => dsimp only; rw [if_pos hc.1]; exact hc
      | cons r rest => exact hc
    exact ih hone

lemma calls_closed {k} (ho : h.once = false) (hc : h.closes = 0) (hk : h.inner.length < k) : (h.calls k).Closed := by
  induction k generalizing h with
  | zero => cases hk
  | succ k ih =>
    show (h.call.2.calls k).Closed
    unfold ResponseHandler.call
    cases hi : h.inner with
    | nil => exact (closeScope_closed ho hc).calls k
    | cons r rest => exact ih ho hc (by rw [hi] at hk; simpa using hk)

/-- As long as the inner handler has responses, nothing is closed. -/
lemma calls_closes {k} (hk : k ≤ h.inner.length) : (h.calls k).closes = h.closes := by
  induction k generalizing h with
  | zero => rfl
  | succ k ih =>
    show (h.call.2.calls k).closes = h.closes
    unfold ResponseHandler.call
    cases hi : h.inner with
    | nil => rw [hi] at hk; cases hk
    | cons r rest => exact ih (by rw [hi] at hk; simpa using hk)

/-- **The scope of an operation is closed exactly once** just when the transport calls the handler until it returns
nil, or `next` panics or returns no handler. -/
theorem operation_scope_closed (s : Scopes O) (ctx : Option ScopeID) (nested : NestedPolicy) (next : Next R)
    (h : ResponseHandler O R) (hnext : interceptOperation s ctx nested next = .ok h) (k : ℕ) :
    (h.calls k).Closed ↔ ∀ responses, next = .handler responses → responses.length < k := by
  unfold interceptOperation at hnext
  split at hnext
  · cases hnext
  split at hnext <;> cases hnext
  · exact iff_of_true ((closeScope_closed rfl rfl).calls k) nofun
  · exact iff_of_true ((closeScope_closed rfl rfl).calls k) nofun
  · constructor
    · rintro ⟨-, hclosed, -⟩ _ ⟨⟩
      by_contra hle
      rw [calls_closes (not_lt.1 hle)] at hclosed
      cases hclosed
    · exact fun hk => calls_closed rfl rfl (hk _ rfl)

theorem operation_scope_closed_two : (ResponseHandler.calls 3
    { scopes := (Scopes.init (O := ℕ)).fresh.1, scope := 1, inner := ["data", "more"] }).Closed :=
  (operation_scope_closed .init none .isolateChild (.handler ["data", "more"]) _ rfl 3).2 fun _ h => by cases h; decide

/-- A transport that takes the one response of a query and does not ask again leaves the scope open. -/
theorem operation_scope_leaks : ∃ h : ResponseHandler ℕ String,
    interceptOperation .init none .isolateChild (.handler ["data"]) = .ok h ∧ h.call.1 = some "data" ∧
      (h.calls 1).closes = 0 ∧ (h.calls 1).scopes.state h.scope = some .open :=
  ⟨_, rfl, rfl, rfl, rfl⟩

end Gqlgen

end BatchWeaver
