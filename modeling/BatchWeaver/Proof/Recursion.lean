import BatchWeaver.Spec.Recursion

/-!
# Which recursive calls are seen

A provider that calls `Do` waits for a batch of another operation, whose provider may call `Do` in turn
(`Nested`). `dispatchBatch` makes the context of a batch from the engine's context and not from the context of a
caller, so a provider's context names its own operation and partition and nothing around it (`nested_frames`).

* `recursion_seen`: a call for the operation and partition of the innermost provider is seen, and no other.
* `recursion_missed`: a provider waits for itself through a second operation.
-/

namespace BatchWeaver

variable {V E : Type} {around : List ExecFrame} {ctx : ExecContext}

/-- Provider calls inside each other, the innermost first, with the context of the innermost. Each but the first was
started for a call of `Do` that the provider around it made with its own context, under some scope, and that
passed the check. -/
inductive Nested : List ExecFrame → ExecContext → Prop
  | outer (f : ExecFrame) (deadline : Option Time) : Nested [f] (providerContext f.opID f.part deadline)
  | inner {around : List ExecFrame} {ctx : ExecContext} (h : Nested around ctx) (scope : Option ScopeID)
      (f : ExecFrame) (deadline : Option Time) (hpass : executing { ctx with scope := scope } f.opID f.part = false) :
      Nested (f :: around) (providerContext f.opID f.part deadline)

/-- The frames around a provider are not in its context. -/
lemma nested_frames (h : Nested around ctx) : ctx.frames = around.head?.toList := by
  cases h with
  | outer _ _ | inner _ _ _ _ _ => rfl

lemma executing_iff {opID : String} {part : GoString} : executing ctx opID part = true ↔ ⟨opID, part⟩ ∈ ctx.frames := by
  simp only [executing, List.any_eq_true, Bool.and_eq_true, beq_iff_eq]
  constructor
  · rintro ⟨f, hf, rfl, rfl⟩
    exact hf
  · exact fun h => ⟨_, h, rfl, rfl⟩

/-- **Which recursion is seen.** However deep provider calls are nested, a call of `Do` that the innermost one makes
falls back or returns `ErrRecursiveOperation` exactly if it is for the operation and partition of that provider. -/
theorem recursion_seen (h : Nested around ctx) (scope : Option ScopeID) (f : ExecFrame) (hasFallback : Bool) :
    (executing { ctx with scope := scope } f.opID f.part = true ↔ around.head? = some f) ∧ (around.head? = some f →
        recursionCheck (V := V) (E := E) hasFallback { ctx with scope := scope } f.opID f.part =
          some (if hasFallback then .done .fallback else .recursive)) := by
  have hiff : executing { ctx with scope := scope } f.opID f.part = true ↔ around.head? = some f := by
    rw [executing_iff]
    rw [nested_frames h, Option.mem_toList]
  exact ⟨hiff, fun hhead => if_pos (hiff.2 hhead)⟩

/-- An operation and a partition. -/
def loads (opID : String) : ExecFrame := ⟨opID, str "tenant"⟩

/-- The provider of `users` calls `teams`. -/
lemma teams_in_users : Nested [loads "teams", loads "users"] (providerContext "teams" (str "tenant") none) :=
  Nested.inner (Nested.outer (loads "users") none) none (loads "teams") none (by decide)

theorem recursion_seen_self : recursionCheck (V := Unit) (E := Unit) false
    (providerContext "teams" (str "tenant") none) "teams" (str "tenant") = some .recursive :=
  (recursion_seen teams_in_users none (loads "teams") false).2 rfl

/-- **A cycle through a second operation is missed**: the provider of `users` calls `teams`, whose provider calls
`users` again, and that call is submitted behind the one that waits for it. -/
theorem recursion_missed : ∃ around ctx, Nested around ctx ∧ loads "users" ∈ around ∧
    executing ctx "users" (str "tenant") = false ∧
    recursionCheck (V := Unit) (E := Unit) false ctx "users" (str "tenant") = none :=
  ⟨_, _, teams_in_users, List.mem_cons_of_mem _ List.mem_cons_self, by decide, rfl⟩

end BatchWeaver
