import BatchWeaver.Proof.Moves

/-!
# The shape of every reachable state

`Consistent` says of a state between two events that queues, indexes and in-flight
batches agree, in terms of the tables themselves; `reach_consistent` proves it of every
reachable state. The module ends with a small binding on which runs can be evaluated.
-/

namespace BatchWeaver

variable {K V E : Type}

/-- **The tables of the coordinator agree.** -/
structure Consistent (cfg : BindingConfig K) (c : Coord K V E) : Prop where
  /-- The index holds exactly the items that are queued or in flight, each once. -/
  index : ∀ pk p, c.partitions.lookup pk = some p → p.indexed.Perm (p.pending ++ c.flight pk) ∧ p.indexed.Nodup
  /-- Each item is in the bucket of its hash and in no other. -/
  bucket : ∀ pk p, c.partitions.lookup pk = some p → ∀ h it, it ∈ p.bucket h ↔ it ∈ p.indexed ∧ (c.items it).hash = h
  live : ∀ pk p, c.partitions.lookup pk = some p → p.live = (p.pending ++ c.flight pk).length
  /-- No item is both queued and in flight, whatever the partitions. -/
  apart : ∀ pk p it, c.partitions.lookup pk = some p → it ∈ p.pending →
    ∀ id b, c.inflight.lookup id = some b → it ∉ b.items
  /-- No item is twice in one batch or in two batches. -/
  once : ∀ id b, c.inflight.lookup id = some b → b.items.Nodup ∧
    ∀ id' b' it, c.inflight.lookup id' = some b' → it ∈ b.items → it ∈ b'.items → id = id'
  slots : c.activeProvider = c.inflight.entries.length ∧ c.activeProvider ≤ cfg.maxConcurrency
  /-- The partition of an in-flight batch is in the map. -/
  known : ∀ id b, c.inflight.lookup id = some b → (c.partitions.lookup b.partition).isSome = true

lemma StructOK.consistent {cfg} {c : Coord K V E} (h : StructOK cfg {} c) : Consistent cfg c := by
  have hp : ∀ pk p, c.partitions.lookup pk = some p → c.part pk = p := fun pk p hl => Coord.part_eq_of_lookup c hl
  refine ⟨?_, ?_, ?_, ?_, ?_, ⟨h.slots, h.conc⟩, ?_⟩
  · intro pk p hl
    have h1 := h.perm pk
    have h2 := h.nodup pk
    rw [Held.queueOf_none rfl, hp pk p hl] at h1
    rw [hp pk p hl] at h2
    exact ⟨h1, h2⟩
  · intro pk p hl x it
    rw [← hp pk p hl]
    constructor
    · intro hit; exact ⟨PartitionState.mem_indexed.2 ⟨x, hit⟩, h.hash pk x it hit⟩
    · rintro ⟨hit, rfl⟩; exact h.mem_bucket hit
  · intro pk p hl
    have h1 := h.live pk
    have h2 := (h.perm pk).length_eq
    rw [Held.queueOf_none rfl] at h2
    rw [h2, hp pk p hl] at h1
    exact h1
  · intro pk p it hl hit id b hb hib
    have h1 := h.queued pk it (by rw [hp pk p hl]; exact hit)
    rw [(h.flying id b it hb hib).1] at h1
    cases h1
  · intro id b hb
    refine ⟨h.batch_nodup hb, fun id' b' it hb' hit hit' => ?_⟩
    rw [← (h.flying id b it hb hit).2, (h.flying id' b' it hb' hit').2]
  intro id b hb
  obtain ⟨it, hit⟩ := List.exists_mem_of_ne_nil _ (h.batch id b hb).2.2
  exact AList.lookup_isSome.2 (Coord.mem_partitions_of_indexed (h.batch_indexed hb hit))

/-- **Between events the tables of the coordinator agree**, whatever was submitted, canceled,
completed, flushed or shut down before. -/
theorem reach_consistent [Inhabited K] [Inhabited V] {cfg : BindingConfig K}
    {es : List (Move K V E)} {c : Coord K V E} (h : (coordinator cfg).Reach es c) : Consistent cfg c :=
  (reach_ok h).struct.consistent

/-! ## A small binding -/

section Demo

/-- Natural numbers as keys, eight hash values. -/
def demoKeys : KeyStrategy ℕ := ⟨fun k => (k % 8).toUInt64, fun a b => a == b⟩

/-- A binding without queue limits, one provider call at a time. -/
def demo (mode : FlushMode) : BindingConfig ℕ where
  opID := "demo"
  keys := demoKeys
  limits := {}
  overflow := .block
  flushMode := mode
  maxBatchSize := 10
  maxBatchWeight := 0
  maxBatchBytes := 0
  maxWait := 0
  deadlineMargin := 0
  maxConcurrency := 1
  dedupEnabled := true
  maxBatchSize_pos := by decide
  maxConcurrency_pos := by decide

/-- A turn at time zero in which no barrier's context is done. -/
def demoTurn (e : Event ℕ ℕ ℕ) : Move ℕ ℕ ℕ := .turn ⟨e, 0, fun _ => none⟩

def demoReq (part : GoString) (key : ℕ) (w : WaiterId) : SubmitReq ℕ :=
  { part := ⟨part⟩, key := key, hash := demoKeys.hash key, weight := 1, bytes := 1, waiter := w }

def demoSubmit (part : GoString) (key : ℕ) (w : WaiterId) (dl : Option Time) : Move ℕ ℕ ℕ :=
  demoTurn (.submit 0 (demoReq part key w) dl)

def demoCancel (part : GoString) (w : WaiterId) (blocked : Bool) : Move ℕ ℕ ℕ := demoTurn (.cancel ⟨part, w, blocked⟩)

def demoControl (kind : ControlKind) (id : ControlId) : Move ℕ ℕ ℕ := demoTurn (.control 0 ⟨kind, id⟩)

/-- The batch `id` completes with the given outcomes. -/
def demoComplete (id : BatchId) (os : List (Outcome ℕ (GoError ℕ))) : Move ℕ ℕ ℕ :=
  demoTurn (.complete (fun _ => 0) ⟨id, ⟨os⟩, none, false, ""⟩)

/-- The state a run of the binding leads to. -/
def demoRun (mode : FlushMode) (es : List (Move ℕ ℕ ℕ)) : Coord ℕ ℕ ℕ := (coordinator (demo mode)).run Coord.init es

end Demo

set_option maxRecDepth 4000 in
/-- Two keys of one bucket, one of them twice, flushed, and a late duplicate. -/
theorem reach_consistent_demo : Consistent (demo .manual) (demoRun .manual
    [demoSubmit [1] 1 1 none, demoSubmit [1] 9 2 none, demoSubmit [1] 1 3 none,
      demoControl .flush 1, demoSubmit [1] 9 4 none, demoCancel [1] 2 false]) :=
  reach_consistent (System.reach_of_allowed (by decide +kernel))

end BatchWeaver
