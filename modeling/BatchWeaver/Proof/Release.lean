import BatchWeaver.Proof.Engine
import BatchWeaver.Proof.Nesting

/-!
# Memo tables of a closed scope

A memo table is created by the first call that looks into it or stores into it; `Close` drops the
tables of the operations that the scope tracks when it is closed. In between lies `trackOp`. So a
table stays behind if

* the scope is closed while a call is between its lookup and `trackOp`, or still has to store;
* a call gives up between its lookup and `trackOp`, and no other call tracks the operation.

`MemoOK` is what holds of one operation in a run without these: a table of an open scope has an
operation that is tracked, or a call that is about to track it. `memo_released`: then no operation
has a table for a scope whose `Close` has returned. `memo_kept`: a scope closed in the wrong moment.
-/

namespace BatchWeaver

open List
open Function (update update_apply update_of_ne update_self)

/-! ## One operation -/

section Bound

variable {K V E : Type} {id : DoId}

/-- What an operation depends on of the scopes: which there are, which are open, and which track it. -/
structure ScopeView where
  known : ScopeID → Prop
  isOpen : ScopeID → Prop
  used : ScopeID → Prop

/-- A table has records. -/
def MemoTable.Filled (t : MemoTable K V) : Prop := ∃ h, t.bucket h ≠ []

/-- The call has looked into the memo table and will track the operation. -/
def DoStage.looksUp : DoStage V E → Bool
  | .getting _ => true
  | .entering => true
  | _ => false

/-- The call has not checked its scope, or has returned. -/
def DoStage.idle : DoStage V E → Bool
  | .opening => true
  | .returned _ => true
  | _ => false

/-- What holds by the stage of a call: between the check of its scope and its return the scope is
open, and from `trackOp` on it tracks the operation. -/
def StageHolds (cfg : OpConfig K) (v : ScopeView) (memo : Table ScopeID TableRef) (scope : ScopeID) :
    DoStage V E → Prop
  | .opening => True
  | .returned _ => True
  | .accepting => v.isOpen scope
  | .cloning => v.isOpen scope
  | .looking => v.isOpen scope ∧ cfg.memoEnabled = true
  | .getting t => v.isOpen scope ∧ memo.lookup scope = some t
  | .entering => v.isOpen scope
  | .calling => v.isOpen scope ∧ v.used scope
  | .storing _ _ => v.isOpen scope ∧ v.used scope ∧ cfg.memoEnabled = true
  | .putting t _ _ => v.isOpen scope ∧ v.used scope ∧ memo.lookup scope = some t

/-- **Memo tables, calls and scopes agree.** -/
structure MemoOK (cfg : OpConfig K) (v : ScopeView) (b : Bound K V E) : Prop where
  known : ∀ sc t, b.memo.lookup sc = some t → v.known sc ∧ cfg.memoEnabled = true ∧ t ≤ b.tableSeq
  apart : ∀ sc sc' t, b.memo.lookup sc = some t → b.memo.lookup sc' = some t → sc = sc'
  calls : ∀ id d, b.dos.lookup id = some d → v.known d.scope ∧ StageHolds cfg v b.memo d.scope d.stage
  why : ∀ sc t, v.isOpen sc → b.memo.lookup sc = some t →
    v.used sc ∨ ∃ id d, b.dos.lookup id = some d ∧ d.scope = sc ∧ d.stage.looksUp = true
  filled : ∀ sc t, v.isOpen sc → b.memo.lookup sc = some t → (b.tables t).Filled → v.used sc

variable {cfg : OpConfig K} {v v' : ScopeView} {b b' : Bound K V E}
  {scope : ScopeID} {stage : DoStage V E} {t : TableRef}

lemma StageHolds.isOpen {memo} (h : StageHolds cfg v memo scope stage) (hi : stage.idle = false) : v.isOpen scope := by
  cases stage with
  | opening | returned _ => cases hi
  | accepting | cloning | entering => exact h
  | _ => exact h.1

/-- The stage of a call holds while the table of its scope stays. -/
lemma StageHolds.memo {memo memo'} (h : StageHolds cfg v memo scope stage)
    (hm : ∀ t, v.isOpen scope → memo.lookup scope = some t → memo'.lookup scope = some t) :
    StageHolds cfg v memo' scope stage := by
  cases stage with
  | getting t => exact ⟨h.1, hm t h.1 h.2⟩
  | putting t value found => exact ⟨h.1, h.2.1, hm t h.1 h.2.2⟩
  | _ => exact h

lemma MemoTable.get_filled {t : MemoTable K V} {part key} {r : Result V E}
    (h : t.get cfg part key = some r) : t.Filled := by
  obtain ⟨x, hx, -⟩ := Option.map_eq_some_iff.1 h
  exact ⟨_, ne_nil_of_mem (mem_of_find?_eq_some hx)⟩

/-! ### The scopes change -/

/-- Scopes are added, track more, or are closed when no call of theirs is under way. -/
lemma MemoOK.view (h : MemoOK cfg v b) (hknown : ∀ sc, v.known sc → v'.known sc)
    (hopen : ∀ sc, v.known sc → v'.isOpen sc → v.isOpen sc)
    (hused : ∀ sc, v.known sc → v'.isOpen sc → v.used sc → v'.used sc)
    (hclose : ∀ id d, b.dos.lookup id = some d → v.isOpen d.scope → ¬v'.isOpen d.scope →
      d.stage.idle = true) : MemoOK cfg v' b where
  known := fun sc t ht => ⟨hknown sc (h.known sc t ht).1, (h.known sc t ht).2⟩
  apart := h.apart
  calls := by
    intro id d hd
    obtain ⟨hk, hst⟩ := h.calls id d hd
    refine ⟨hknown _ hk, ?_⟩
    have hidle : d.stage.idle = false → v'.isOpen d.scope := by
      intro hi
      by_contra hno
      rw [hclose id d hd (hst.isOpen hi) hno] at hi
      cases hi
    cases hs : d.stage with
    | opening | returned _ => trivial
    | _ =>
      rw [hs] at hst hidle
      have ho := hidle rfl
      have hu := hused _ hk ho
      first
        | exact ho
        | exact ⟨ho, hst.2⟩
        | exact ⟨ho, hu hst.2⟩
        | exact ⟨ho, hu hst.2.1, hst.2.2⟩
  why := by
    intro sc t ho ht
    have hk := (h.known sc t ht).1
    exact (h.why sc t (hopen sc hk ho) ht).imp_left (hused sc hk ho)
  filled := by
    intro sc t ho ht hf
    have hk := (h.known sc t ht).1
    exact hused sc hk ho (h.filled sc t (hopen sc hk ho) ht hf)

/-! ### A call goes on -/

/-- A call goes to a further stage, the tables stay. If it leaves the way to `trackOp`, its operation
is tracked. -/
lemma MemoOK.setDo (h : MemoOK cfg v b) {d d'}
    (hd : b.dos.lookup id = some d) (hsc : d'.scope = d.scope)
    (hst : StageHolds cfg v b.memo d.scope d'.stage)
    (hleave : d.stage.looksUp = true → d'.stage.looksUp = false → ∀ t, v.isOpen d.scope →
      b.memo.lookup d.scope = some t → v.used d.scope) : MemoOK cfg v (b.setDo id d') where
  known := h.known
  apart := h.apart
  calls := by
    intro i x hx
    rcases Table.of_lookup_insert hx with ⟨-, rfl⟩ | ⟨-, hx⟩
    · rw [hsc]
      exact ⟨(h.calls id d hd).1, hst⟩
    · exact h.calls i x hx
  why := by
    intro sc t ho ht
    rcases h.why sc t ho ht with hu | ⟨i, x, hx, hxs, hl⟩
    · exact .inl hu
    by_cases hi : i = id
    · subst hi
      obtain rfl : x = d := Option.some.inj (hx.symm.trans hd)
      subst hxs
      cases hl' : d'.stage.looksUp with
      | false => exact .inl (hleave hl hl' t ho ht)
      | true => exact .inr ⟨i, d', AList.lookup_insert _, hsc, hl'⟩
    · exact .inr ⟨i, x, (AList.lookup_insert_ne hi).trans hx, hxs, hl⟩
  filled := h.filled

/-- A call starts. -/
lemma MemoOK.start (h : MemoOK cfg v b) (hnone : b.dos.lookup id = none) (hk : v.known scope)
    (part : Partition) (key : K) : MemoOK cfg v (b.setDo id ⟨scope, part, key, none, .opening⟩) where
  known := h.known
  apart := h.apart
  calls := by
    intro i x hx
    rcases Table.of_lookup_insert hx with ⟨-, rfl⟩ | ⟨-, hx⟩
    · exact ⟨hk, trivial⟩
    · exact h.calls i x hx
  why := by
    intro sc t ho ht
    refine (h.why sc t ho ht).imp_right ?_
    rintro ⟨i, x, hx, hrest⟩
    have hi : i ≠ id := by
      rintro rfl
      rw [hnone] at hx
      cases hx
    exact ⟨i, x, (AList.lookup_insert_ne hi).trans hx, hrest⟩
  filled := h.filled

/-! ### Tables are created, filled and dropped -/

/-- A call has asked for the table of its scope, and goes to a stage that holds it. -/
lemma MemoOK.table (h : MemoOK cfg v b) {d} (hd : b.dos.lookup id = some d)
    (hon : cfg.memoEnabled = true) (hno : d.stage.looksUp = false) (stage : TableRef → DoStage V E)
    (hst : ∀ (memo : Table ScopeID TableRef) t, memo.lookup d.scope = some t → StageHolds cfg v memo d.scope (stage t))
    (hcover : ∀ t, v.used d.scope ∨ (stage t).looksUp = true) :
    MemoOK cfg v ((b.memoTableFor d.scope).1.setDo id { d with stage := stage (b.memoTableFor d.scope).2 }) := by
  have hk := (h.calls id d hd).1
  unfold Bound.memoTableFor
  cases hm : b.memo.lookup d.scope with
  | some t =>
    refine h.setDo hd rfl (hst b.memo t hm) fun hl => ?_
    rw [hno] at hl
    cases hl
  | none =>
    -- a new table, with a new address
    have hold : ∀ {sc t}, b.memo.lookup sc = some t → sc ≠ d.scope ∧ t ≠ b.tableSeq + 1 := by
      intro sc t ht
      refine ⟨?_, ?_⟩
      · rintro rfl
        rw [hm] at ht
        cases ht
      intro he
      have hle := (h.known sc t ht).2.2
      rw [he] at hle
      exact Nat.not_succ_le_self _ hle
    refine ⟨fun sc t ht => ?_, fun sc sc' t ht ht' => ?_, fun i x hx => ?_, fun sc t ho ht => ?_,
      fun sc t ho ht hf => ?_⟩
    · rcases Table.of_lookup_insert ht with ⟨rfl, rfl⟩ | ⟨-, ht⟩
      · exact ⟨hk, hon, le_rfl⟩
      · obtain ⟨h1, h2, h3⟩ := h.known sc t ht
        exact ⟨h1, h2, h3.trans (Nat.le_succ _)⟩
    · rcases Table.of_lookup_insert ht with ⟨h1, rfl⟩ | ⟨-, ht⟩ <;>
        rcases Table.of_lookup_insert ht' with ⟨h2, h3⟩ | ⟨-, ht'⟩
      · rw [h1, h2]
      · exact absurd rfl (hold ht').2
      · exact absurd h3.symm (hold ht).2
      · exact h.apart sc sc' t ht ht'
    · rcases Table.of_lookup_insert hx with ⟨-, rfl⟩ | ⟨-, hx⟩
      · exact ⟨hk, hst _ _ (AList.lookup_insert _)⟩
      · obtain ⟨h1, h2⟩ := h.calls i x hx
        exact ⟨h1, h2.memo fun t _ ht => (AList.lookup_insert_ne (hold ht).1).trans ht⟩
    · rcases Table.of_lookup_insert ht with ⟨rfl, -⟩ | ⟨-, ht⟩
      · exact (hcover _).imp_right fun hl => ⟨id, _, AList.lookup_insert _, rfl, hl⟩
      refine (h.why sc t ho ht).imp_right ?_
      rintro ⟨i, x, hx, hxs, hl⟩
      have hi : i ≠ id := by
        rintro rfl
        obtain rfl : x = d := Option.some.inj (hx.symm.trans hd)
        rw [hno] at hl
        cases hl
      exact ⟨i, x, (AList.lookup_insert_ne hi).trans hx, hxs, hl⟩
    change (update b.tables _ MemoTable.empty t).Filled at hf
    rcases Table.of_lookup_insert ht with ⟨-, rfl⟩ | ⟨-, ht⟩
    · rw [update_self] at hf
      obtain ⟨_, hne⟩ := hf
      exact absurd rfl hne
    · rw [update_of_ne (hold ht).2] at hf
      exact h.filled sc t ho ht hf

/-- A table is filled: its operation is tracked. -/
lemma MemoOK.fill (h : MemoOK cfg v b) (ht : b.memo.lookup scope = some t) (hu : v.used scope)
    (x : MemoTable K V) : MemoOK cfg v { b with tables := update b.tables t x } where
  known := h.known
  apart := h.apart
  calls := h.calls
  why := h.why
  filled := by
    intro sc t' ho ht' hf
    by_cases he : t' = t
    · subst he
      rw [h.apart sc scope t' ht' ht]
      exact hu
    change (update b.tables t x t').Filled at hf
    rw [update_of_ne he] at hf
    exact h.filled sc t' ho ht' hf

/-- The table of a closed scope is dropped. -/
lemma MemoOK.dropMemo (h : MemoOK cfg v b) (hc : cfg.memoEnabled = true → ¬v.isOpen scope) :
    MemoOK cfg v (b.dropMemo scope) := by
  have hlook : ∀ {sc t}, (b.memo.erase scope).lookup sc = some t → b.memo.lookup sc = some t := by
    intro sc t ht
    exact (Table.of_lookup_erase ht).2
  refine ⟨fun sc t ht => h.known sc t (hlook ht), fun sc sc' t ht ht' => h.apart sc sc' t (hlook ht) (hlook ht'),
    fun id d hd => ?_, fun sc t ho ht => h.why sc t ho (hlook ht),
    fun sc t ho ht hf => h.filled sc t ho (hlook ht) hf⟩
  obtain ⟨h1, h2⟩ := h.calls id d hd
  refine ⟨h1, h2.memo fun t ho ht => ?_⟩
  show (b.memo.erase scope).lookup d.scope = some t
  rw [Table.lookup_erase_if, if_neg]
  · exact ht
  · rintro rfl
    exact hc (h.known _ t ht).2.1 ho

/-! ### Every event -/

/-- What an event has to meet: a call starts in a known scope and goes on only if it is open; one that
gives up before `trackOp` leaves a tracked operation behind; a table is dropped after its scope was
closed. -/
def Allows (cfg : OpConfig K) (v : ScopeView) (b : Bound K V E) : BoundEvent K V E → Prop
  | .start _ scope _ _ => v.known scope
  | .checkOpen id isOpen => isOpen = true → ∀ d ∈ b.dos.lookup id, v.isOpen d.scope
  | .recursive id => cfg.memoEnabled = true → ∀ d ∈ b.dos.lookup id, v.used d.scope
  | .keyPanic id => cfg.memoEnabled = true → ∀ d ∈ b.dos.lookup id, v.used d.scope
  | .track id _ _ _ _ _ => ∀ d ∈ b.dos.lookup id, v.used d.scope
  | .dropMemo scope => cfg.memoEnabled = true → ¬v.isOpen scope
  | _ => True

/-- What follows the exchange with the coordinator. -/
lemma StageHolds.ofReturn [Inhabited V] {memo} (ho : v.isOpen scope)
    (hu : v.used scope) (r : Return V E) : StageHolds cfg v memo scope (DoStage.ofReturn cfg r) := by
  cases r with
  | value x =>
    show StageHolds cfg v memo scope (if cfg.memoEnabled = true then _ else _)
    split
    · rename_i hon
      exact ⟨ho, hu, hon⟩
    · trivial
  | missing =>
    show StageHolds cfg v memo scope (if (cfg.memoEnabled && cfg.memoNegative) = true then _ else _)
    split
    · rename_i hon
      exact ⟨ho, hu, (Bool.and_eq_true_iff.1 hon).1⟩
    · trivial
  | _ => trivial

/-- A call goes to a further stage. -/
lemma MemoOK.goes [Inhabited V] (h : MemoOK cfg v b) {d e st} (hd : b.dos.lookup id = some d) (hst : d.stage = st)
    (hg : Goes cfg b id d e st stage) (ha : Allows cfg v b e) : MemoOK cfg v (b.setDo id { d with stage := stage }) := by
  have hcall := (h.calls id d hd).2
  rw [hst] at hcall
  have hset : st.looksUp = false → StageHolds cfg v b.memo d.scope stage →
      MemoOK cfg v (b.setDo id { d with stage := stage }) := by
    intro hno hs
    refine h.setDo hd rfl hs fun hl => ?_
    rw [hst, hno] at hl
    cases hl
  cases hg with
  | opened => exact hset rfl (ha rfl d hd)
  | closed | aside _ | refused _ | panics => exact hset rfl trivial
  | accepted | cloned => exact hset rfl hcall
  | looks hon => exact hset rfl ⟨hcall, hon⟩
  | hit t r hr =>
    -- the table was filled by a call that had tracked the operation
    exact h.setDo hd rfl trivial fun _ _ _ _ _ => h.filled _ t hcall.1 hcall.2 (MemoTable.get_filled hr)
  | miss t => exact h.setDo hd rfl hcall.1 fun _ hl => by cases hl
  | recursive _ _ | keyPanic =>
    -- the call gives up before `trackOp`
    exact h.setDo hd rfl trivial fun _ _ t _ ht => ha (h.known _ t ht).2.1 d hd
  | finish w call r _ _ _ => exact hset rfl (.ofReturn hcall.1 hcall.2 r)

/-- **Every event keeps tables, calls and scopes in agreement.** -/
theorem MemoOK.next [Inhabited V] (h : MemoOK cfg v b) {e : BoundEvent K V E} (hs : BoundStep cfg b e b')
    (ha : Allows cfg v b e) : MemoOK cfg v b' := by
  have hcall : ∀ {id d stage}, b.dos.lookup id = some d → d.stage = stage → StageHolds cfg v b.memo d.scope stage := by
    rintro id d stage hd rfl
    exact (h.calls id d hd).2
  cases hs with
  | start hn => exact h.start hn ha _ _
  | stage hd hst hg => exact h.goes hd hst hg ha
  | table hd hst hf =>
    have hold := hcall hd hst
    cases hf with
    | lookup => exact h.table hd hold.2 (by rw [hst]; rfl) .getting (fun memo t ht => ⟨hold.1, ht⟩) fun _ => .inr rfl
    | store value found =>
      obtain ⟨ho, hu, hon⟩ := hold
      exact h.table hd hon (by rw [hst]; rfl) (.putting · value found) (fun memo t ht => ⟨ho, hu, ht⟩) fun _ => .inl hu
  | put hd hst =>
    obtain ⟨ho, hu, ht⟩ := hcall hd hst
    refine (h.fill ht hu _).setDo hd rfl trivial fun hl => ?_
    rw [hst] at hl
    cases hl
  | @track id d _ _ _ hd hst =>
    have hb : MemoOK cfg v (b.setDo id { d with waiter := some (b.net.coord.requestSeq + 1), stage := .calling }) :=
      h.setDo hd rfl ⟨hcall hd hst, ha d hd⟩ fun _ _ _ _ _ => ha d hd
    exact ⟨hb.known, hb.apart, hb.calls, hb.why, hb.filled⟩
  | net => exact ⟨h.known, h.apart, h.calls, h.why, h.filled⟩
  | dropMemo => exact h.dropMemo ha

lemma memo_memoTableFor {scope sc} (h : (b.memoTableFor scope).1.memo.lookup sc = some t) :
    sc = scope ∨ b.memo.lookup sc = some t := by
  unfold Bound.memoTableFor at h
  split at h
  · exact .inr h
  · exact (Table.of_lookup_insert h).imp And.left And.right

/-- A closed scope gets no table. -/
lemma MemoOK.closed_memo [Inhabited V] (h : MemoOK cfg v b) {e} (hs : BoundStep cfg b e b')
    {sc} (hc : ¬v.isOpen sc) (ht : b'.memo.lookup sc = some t) : b.memo.lookup sc = some t := by
  cases hs with
  | table hd hst hf =>
    refine (memo_memoTableFor ht).resolve_left ?_
    rintro rfl
    refine hc ((h.calls _ _ hd).2.isOpen ?_)
    rw [hst]
    cases hf <;> rfl
  | dropMemo => exact (Table.of_lookup_erase ht).2
  | _ => exact ht

end Bound

/-! ## Scopes -/

namespace Scopes

variable {O : Type} {s : Scopes O}

lemma heap_fresh (k : ScopeID) : s.fresh.1.heap k =
    if k = s.scopeSeq + 1 then some { state := .open, ops := [] } else s.heap k :=
  update_apply _ _ _ _

lemma heap_trackOp [DecidableEq O] (id : ScopeID) (op : O) (k : ScopeID) : (s.trackOp id op).heap k =
    if k = id then (s.heap id).map fun sc => { sc with ops := sc.ops.insert op } else s.heap k :=
  update_apply _ _ _ _

lemma state_trackOp [DecidableEq O] (id : ScopeID) (op : O) (k : ScopeID) : (s.trackOp id op).state k = s.state k := by
  unfold state
  rw [heap_trackOp]
  split
  · rename_i hk
    rw [hk, Option.map_map]
    rfl
  · rfl

lemma mem_ops_trackOp [DecidableEq O] (id : ScopeID) (op : O) {k o} (h : o ∈ s.ops k) :
    o ∈ (s.trackOp id op).ops k := by
  unfold ops at h ⊢
  rw [heap_trackOp]
  split
  · rename_i hk
    rw [hk] at h
    cases hs : s.heap id with
    | none =>
      rw [hs] at h
      cases h
    | some sc =>
      rw [hs] at h
      exact mem_insert_of_mem h
  · exact h

lemma mem_ops_trackOp_self [DecidableEq O] {id} (h : (s.heap id).isSome = true) (op : O) :
    op ∈ (s.trackOp id op).ops id := by
  obtain ⟨sc, hs⟩ := Option.isSome_iff_exists.1 h
  unfold ops
  rw [heap_trackOp, if_pos rfl, hs]
  exact mem_insert_self

lemma isSome_trackOp [DecidableEq O] (id : ScopeID) (op : O) (k : ScopeID) :
    ((s.trackOp id op).heap k).isSome = (s.heap k).isSome := by
  rw [heap_trackOp]
  split
  · rename_i hk
    rw [hk, Option.isSome_map]
  · rfl

lemma heap_close_ne {id k} (hk : k ≠ id) : (s.close id).1.heap k = s.heap k := by
  unfold close
  split
  · rfl
  · exact update_of_ne hk _ _

lemma isSome_close (id k : ScopeID) : ((s.close id).1.heap k).isSome = (s.heap k).isSome := by
  by_cases hk : k = id
  · subst hk
    unfold close
    split
    · rfl
    · dsimp only
      rw [update_self, Option.isSome_map]
  · rw [heap_close_ne hk]

end Scopes

/-! ## The engine -/

section Engine

variable {O : Type} {K V : O → Type} {E : Type}

/-- The scopes as an operation sees them. One without memo tables depends on none. -/
def Engine.view (cfg : (o : O) → OpConfig (K o)) (s : Engine O K V E) (o : O) : ScopeView where
  known := fun sc => (s.scopes.heap sc).isSome = true
  isOpen := fun sc => (cfg o).memoEnabled = true → s.scopes.state sc = some .open
  used := fun sc => (cfg o).memoEnabled = true → o ∈ s.scopes.ops sc

/-- The scope that the event closes. -/
def EngineEvent.closes : EngineEvent O K V E → Option ScopeID
  | .close _ scope _ => some scope
  | _ => none

/-- The call of `Do` that gives up before `trackOp`. -/
def EngineEvent.quits : EngineEvent O K V E → Option (O × DoId)
  | .op o (.recursive id) => some (o, id)
  | .op o (.keyPanic id) => some (o, id)
  | _ => none

/-- For the operations with memo tables: no call is between the check of its scope and its return
when the scope is closed, and a call that gives up before `trackOp` belongs to a scope that tracks
the operation. -/
structure Orderly (cfg : (o : O) → OpConfig (K o)) (_ : List (EngineEvent O K V E)) (s : Engine O K V E)
    (e : EngineEvent O K V E) : Prop where
  closes : ∀ scope ∈ e.closes, ∀ o, (cfg o).memoEnabled = true → ∀ x ∈ (s.bound o).dos.entries,
    x.2.scope = scope → x.2.stage.idle = true
  quits : ∀ q ∈ e.quits, (cfg q.1).memoEnabled = true → ∀ d ∈ (s.bound q.1).dos.lookup q.2, q.1 ∈ s.scopes.ops d.scope

instance [Fintype O] [DecidableEq O] (cfg : (o : O) → OpConfig (K o)) (es : List (EngineEvent O K V E))
    (s : Engine O K V E) (e : EngineEvent O K V E) : Decidable (Orderly cfg es s e) :=
  decidable_of_iff ((∀ scope ∈ e.closes, ∀ o, (cfg o).memoEnabled = true →
      ∀ x ∈ (s.bound o).dos.entries, x.2.scope = scope → x.2.stage.idle = true) ∧
    ∀ q ∈ e.quits, (cfg q.1).memoEnabled = true → ∀ d ∈ (s.bound q.1).dos.lookup q.2,
      q.1 ∈ s.scopes.ops d.scope) ⟨fun h => ⟨h.1, h.2⟩, fun h => ⟨h.closes, h.quits⟩⟩

/-- A `Close` works on a closed scope, and when it returns it has visited every operation. -/
structure SweepOK (scopes : Scopes O) (sw : Sweep O E) : Prop where
  closed : sw.closing = true → scopes.state sw.scope = some .closed
  drops : sw.stage = .dropping → sw.closing = true
  ends : sw.closing = true → ∀ err, sw.stage = .returned err → sw.todo = []

/-- **Memo tables and scopes agree.** A table of a closed scope will be dropped. -/
structure ReleaseOK (cfg : (o : O) → OpConfig (K o)) (s : Engine O K V E) : Prop where
  range : ∀ sc, (s.scopes.heap sc).isSome = true → sc ≤ s.scopes.scopeSeq
  memo : ∀ o, MemoOK (cfg o) (s.view cfg o) (s.bound o)
  sweeps : ∀ id sw, s.sweeps.lookup id = some sw → SweepOK s.scopes sw
  drops : ∀ o sc t, s.scopes.state sc = some .closed → (s.bound o).memo.lookup sc = some t →
    ∃ id sw, s.sweeps.lookup id = some sw ∧ sw.closing = true ∧ sw.scope = sc ∧ o ∈ sw.todo

/-! ### Sweeps -/

section Sweeps

variable {scopes scopes' : Scopes O} {sw : Sweep O E}

lemma SweepOK.mono (h : SweepOK scopes sw)
    (hs : ∀ sc, scopes.state sc = some .closed → scopes'.state sc = some .closed) : SweepOK scopes' sw :=
  ⟨fun hc => hs _ (h.closed hc), h.drops, h.ends⟩

/-- The loop goes on with what is left. -/
lemma SweepOK.proceed (todo : List O) (hc : sw.closing = true → scopes.state sw.scope = some .closed) :
    SweepOK scopes (sw.proceed todo) where
  closed := by
    rw [sw.proceed_closing, sw.proceed_scope]
    exact hc
  drops := by
    intro hs
    cases todo <;> cases hs
  ends := by
    intro _ err hs
    rw [sw.proceed_todo]
    cases todo with
    | nil => rfl
    | cons o rest => cases hs

lemma SweepOK.flushed (h : SweepOK scopes sw) (err : Option (SweepError E)) : SweepOK scopes (sw.flushed err) := by
  unfold Sweep.flushed
  split
  · rename_i hc
    refine ⟨h.closed, fun _ => hc, fun _ err hs => ?_⟩
    cases hs
  rename_i hc
  split
  · exact ⟨fun ht => absurd ht hc, nofun, fun ht => absurd ht hc⟩
  · exact .proceed _ h.closed

end Sweeps

variable {cfg : (o : O) → OpConfig (K o)} {s : Engine O K V E}

variable {id : SweepId}

/-- A call of `Flush` or `Close` goes on. -/
lemma ReleaseOK.setSweep (h : ReleaseOK cfg s) {sw}
    (hold : ∀ sw₀, s.sweeps.lookup id = some sw₀ → sw₀.closing = true →
      sw.closing = true ∧ sw.scope = sw₀.scope ∧ sw.todo = sw₀.todo)
    (hsw : SweepOK s.scopes sw) : ReleaseOK cfg (s.setSweep id sw) where
  range := h.range
  memo := h.memo
  sweeps := by
    intro i x hx
    rcases Table.of_lookup_insert hx with ⟨-, rfl⟩ | ⟨-, hx⟩
    · exact hsw
    · exact h.sweeps i x hx
  drops := by
    intro o sc t hc ht
    obtain ⟨i, x, hx, hcl, hsc, ho⟩ := h.drops o sc t hc ht
    by_cases hi : i = id
    · subst hi
      obtain ⟨h1, h2, h3⟩ := hold x hx hcl
      exact ⟨i, sw, AList.lookup_insert _, h1, h2.trans hsc, by rw [h3]; exact ho⟩
    · exact ⟨i, x, (AList.lookup_insert_ne hi).trans hx, hcl, hsc, ho⟩

/-! ### The scopes change -/

/-- The scopes that exist stay as they are, or take up operations. -/
lemma ReleaseOK.rescope (h : ReleaseOK cfg s) {t} (hrange : ∀ sc, (t.heap sc).isSome = true → sc ≤ t.scopeSeq)
    (hkeep : ∀ sc, (s.scopes.heap sc).isSome = true → (t.heap sc).isSome = true ∧
      t.state sc = s.scopes.state sc ∧ ∀ o ∈ s.scopes.ops sc, o ∈ t.ops sc) : ReleaseOK cfg { s with scopes := t } := by
  have hstate : ∀ sc, (s.scopes.heap sc).isSome = true → t.state sc = s.scopes.state sc :=
    fun sc hs => (hkeep sc hs).2.1
  refine ⟨hrange, fun o => ?_, fun id sw hsw => ?_, fun o sc x hc hx => ?_⟩
  · refine (h.memo o).view (fun sc hs => (hkeep sc hs).1) (fun sc hs ho hon => ?_)
      (fun sc hs _ hu hon => (hkeep sc hs).2.2 o (hu hon)) fun id d hd ho hno => absurd (fun hon => ?_) hno
    · rw [← hstate sc hs]
      exact ho hon
    · exact (hstate _ ((h.memo o).calls id d hd).1).trans (ho hon)
  · refine (h.sweeps id sw hsw).mono fun sc hc => ?_
    obtain ⟨x, hx, -⟩ := Option.map_eq_some_iff.1 hc
    exact (hstate sc (by rw [hx]; rfl)).trans hc
  · exact h.drops o sc x ((hstate sc ((h.memo o).known sc x hx).1).symm.trans hc) hx

lemma ReleaseOK.newScope (h : ReleaseOK cfg s) : ReleaseOK cfg { s with scopes := s.scopes.fresh.1 } := by
  refine h.rescope (fun sc hs => ?_) fun sc hs => ?_
  · rw [Scopes.heap_fresh] at hs
    split at hs
    · rename_i he
      exact he.le
    · exact (h.range sc hs).trans (Nat.le_succ _)
  have hne : sc ≠ s.scopes.scopeSeq + 1 := fun he => absurd (h.range sc hs) (by rw [he]; exact Nat.not_succ_le_self _)
  have hheap : s.scopes.fresh.1.heap sc = s.scopes.heap sc := by rw [Scopes.heap_fresh, if_neg hne]
  unfold Scopes.state Scopes.ops
  rw [hheap]
  exact ⟨hs, rfl, fun _ ho => ho⟩

lemma ReleaseOK.trackOp [DecidableEq O] (h : ReleaseOK cfg s) (scope : ScopeID) (op : O) :
    ReleaseOK cfg { s with scopes := s.scopes.trackOp scope op } := by
  refine h.rescope (fun sc hs => ?_) fun sc hs => ⟨?_, Scopes.state_trackOp .., fun o ho =>
    Scopes.mem_ops_trackOp scope op ho⟩
  · rw [Scopes.isSome_trackOp] at hs
    exact h.range sc hs
  · rw [Scopes.isSome_trackOp]
    exact hs

/-- An open scope is closed and its operations will be visited. -/
lemma ReleaseOK.close [DecidableEq O] (h : ReleaseOK cfg s) {scope order}
    (hid : s.sweeps.lookup id = none) (hopen : s.scopes.state scope = some .open)
    (hperm : order.Perm (s.scopes.ops scope))
    (hidle : ∀ o, (cfg o).memoEnabled = true → ∀ x ∈ (s.bound o).dos.entries, x.2.scope = scope →
      x.2.stage.idle = true) :
    ReleaseOK cfg { s.setSweep id (.start scope true order) with scopes := (s.scopes.close scope).1 } := by
  have hstate : ∀ sc, (s.scopes.close scope).1.state sc = if sc = scope then some .closed else s.scopes.state sc := by
    intro sc
    rw [Scopes.state_close, hopen]
    rfl
  have hclosed : ∀ sc, s.scopes.state sc = some .closed → (s.scopes.close scope).1.state sc = some .closed := by
    intro sc hc
    rw [hstate]
    split
    · rfl
    · exact hc
  refine ⟨fun sc hs => ?_, fun o => ?_, fun i sw hsw => ?_, fun o sc t hc ht => ?_⟩
  · rw [Scopes.isSome_close] at hs
    rw [Scopes.scopeSeq_close]
    exact h.range sc hs
  · have hne : ∀ {sc}, (s.scopes.close scope).1.state sc = some .open → sc ≠ scope := by
      rintro sc ho rfl
      rw [hstate, if_pos rfl] at ho
      cases ho
    refine (h.memo o).view (fun sc hs => ?_) (fun sc _ ho hon => ?_) (fun sc _ ho hu hon => ?_) fun i d hd ho hno => ?_
    · show ((s.scopes.close scope).1.heap sc).isSome = true
      rw [Scopes.isSome_close]
      exact hs
    · have hst := ho hon
      have hsc := hne hst
      rw [hstate, if_neg hsc] at hst
      exact hst
    · unfold Scopes.ops
      rw [Scopes.heap_close_ne (hne (ho hon))]
      exact hu hon
    obtain ⟨hon, hst⟩ := Classical.not_imp.1 hno
    refine hidle o hon ⟨i, d⟩ (AList.mem_lookup_iff.1 hd) ?_
    by_contra hsc
    rw [hstate, if_neg hsc] at hst
    exact hst (ho hon)
  · rcases Table.of_lookup_insert hsw with ⟨-, rfl⟩ | ⟨-, hsw⟩
    · refine .proceed _ fun _ => ?_
      rw [hstate, if_pos rfl]
    · exact (h.sweeps i sw hsw).mono hclosed
  rw [hstate] at hc
  split at hc
  · -- a table of the scope that is being closed: the operation is tracked, no call will track it
    rename_i hsc
    subst hsc
    refine ⟨id, _, AList.lookup_insert _, Sweep.proceed_closing _, Sweep.proceed_scope _, ?_⟩
    rw [Sweep.start, Sweep.proceed_todo, hperm.mem_iff]
    have hon := ((h.memo o).known sc t ht).2.1
    rcases (h.memo o).why sc t (fun _ => hopen) ht with hu | ⟨i, d, hd, hds, hl⟩
    · exact hu hon
    have hi := hidle o hon ⟨i, d⟩ (AList.mem_lookup_iff.1 hd) hds
    cases hst : d.stage with
    | opening | returned _ => rw [hst] at hl; cases hl
    | _ => rw [hst] at hi; cases hi
  obtain ⟨i, sw, hsw, hrest⟩ := h.drops o sc t hc ht
  have hi : i ≠ id := by
    rintro rfl
    rw [hid] at hsw
    cases hsw
  exact ⟨i, sw, (AList.lookup_insert_ne hi).trans hsw, hrest⟩

/-! ### An operation goes on -/

section Operations

variable [DecidableEq O]

section

variable (h : ReleaseOK cfg s)
include h

/-- An operation changes; its tables of closed scopes are the ones it had. -/
lemma ReleaseOK.setBound {o b} (hb : MemoOK (cfg o) (s.view cfg o) b)
    (hdrops : ∀ sc t, s.scopes.state sc = some .closed → b.memo.lookup sc = some t → (s.bound o).memo.lookup sc = some t) :
    ReleaseOK cfg (s.setBound o b) where
  range := h.range
  memo := by
    intro o'
    show MemoOK _ (s.view cfg o') (update s.bound o b o')
    by_cases ho : o' = o
    · subst ho
      rw [update_self]
      exact hb
    · rw [update_of_ne ho]
      exact h.memo o'
  sweeps := h.sweeps
  drops := by
    intro o' sc t hc ht
    change (update s.bound o b o').memo.lookup sc = some t at ht
    refine h.drops o' sc t hc ?_
    by_cases ho : o' = o
    · subst ho
      rw [update_self] at ht
      exact hdrops sc t hc ht
    · rw [update_of_ne ho] at ht
      exact ht

lemma ReleaseOK.bound_next [∀ o, Inhabited (V o)] {o e}
    (hok : (s.bound o).Ok (cfg o) e) (ha : Allows (cfg o) (s.view cfg o) (s.bound o) e) :
    ReleaseOK cfg (s.setBound o ((s.bound o).next (cfg o) e)) := by
  have hs := boundStep_of_ok hok
  have hb := (h.memo o).next hs ha
  refine h.setBound hb fun sc t hc ht => (h.memo o).closed_memo hs (fun ho => ?_) ht
  rw [ho (hb.known sc t ht).2.1] at hc
  cases hc

/-- The tables of an operation are dropped by a `Close`, which goes on to the next operation. -/
lemma ReleaseOK.drop {sw o} (hsw : s.sweeps.lookup id = some sw)
    (ho : sw.todo.head? = some o) (hst : sw.stage = .dropping) :
    ReleaseOK cfg ((s.setBound o ((s.bound o).dropMemo sw.scope)).setSweep id (sw.proceed sw.todo.tail)) := by
  obtain ⟨rest, htodo⟩ : ∃ rest, sw.todo = o :: rest := head?_eq_some_iff.1 ho
  have hcl := (h.sweeps id sw hsw).drops hst
  have hclosed := (h.sweeps id sw hsw).closed hcl
  have hlook : ∀ sc, ((s.bound o).dropMemo sw.scope).memo.lookup sc =
      if sc = sw.scope then none else (s.bound o).memo.lookup sc :=
    fun sc => Table.lookup_erase_if (s.bound o).memo sw.scope sc
  have hb : ReleaseOK cfg (s.setBound o ((s.bound o).dropMemo sw.scope)) := by
    refine h.setBound ((h.memo o).dropMemo fun hon hopen => ?_) fun sc t _ ht => ?_
    · rw [hopen hon] at hclosed
      cases hclosed
    rw [hlook] at ht
    split at ht
    · cases ht
    · exact ht
  refine ⟨hb.range, hb.memo, fun i x hx => ?_, fun o' sc t hc ht => ?_⟩
  · rcases Table.of_lookup_insert hx with ⟨-, rfl⟩ | ⟨-, hx⟩
    · exact SweepOK.proceed _ fun _ => hclosed
    · exact h.sweeps i x hx
  obtain ⟨i, x, hx, hxc, hxs, hxo⟩ := hb.drops o' sc t hc ht
  by_cases hi : i = id
  · subst hi
    obtain rfl : x = sw := Option.some.inj (hx.symm.trans hsw)
    refine ⟨i, _, AList.lookup_insert _, (Sweep.proceed_closing _).trans hxc, (Sweep.proceed_scope _).trans hxs, ?_⟩
    rw [Sweep.proceed_todo, htodo]
    rw [htodo] at hxo
    rcases mem_cons.1 hxo with rfl | hrest
    · change (update s.bound o' _ o').memo.lookup sc = some t at ht
      rw [update_self, hlook, if_pos hxs.symm] at ht
      cases ht
    · exact hrest
  · exact ⟨i, x, (AList.lookup_insert_ne hi).trans hx, hxc, hxs, hxo⟩

/-- The scopes have changed by what an operation does. -/
lemma ReleaseOK.scopesAfter (o : O) (e : BoundEvent (K o) (V o) E) :
    ReleaseOK cfg { s with scopes := s.scopesAfter o e } := by
  cases e with
  | track id part key weight bytes deadline =>
    unfold Engine.scopesAfter
    dsimp only
    split
    · exact h
    · exact h.trackOp _ o
  | _ => exact h

/-- What a call of `Do` is told is the case; the rest is the condition. -/
lemma ReleaseOK.allows {o e} (htells : s.Tells o e) {es} (hq : Orderly cfg es s (.op o e)) :
    Allows (cfg o) (Engine.view cfg { s with scopes := s.scopesAfter o e } o) (s.bound o) e := by
  cases e with
  | start id scope part key => exact htells
  | checkOpen id isOpen =>
    intro hisOpen d hd _
    have hopen : s.scopes.checkOpen d.scope = .ok () := of_decide_eq_true ((htells d hd).symm.trans hisOpen)
    unfold Scopes.checkOpen at hopen
    split at hopen
    · rename_i hst
      exact hst
    · cases hopen
  | recursive id | keyPanic id => exact fun hon d hd _ => hq.quits (o, id) rfl hon d hd
  | track id part key weight bytes deadline =>
    intro d hd _
    unfold Engine.scopesAfter
    dsimp only
    rw [Option.mem_def.1 hd]
    exact Scopes.mem_ops_trackOp_self ((h.memo o).calls id d hd).1 o
  | dropMemo scope => exact htells.elim
  | _ => trivial

/-- **Every event keeps memo tables and scopes in agreement.** -/
theorem ReleaseOK.next [∀ o, Inhabited (V o)] {e : EngineEvent O K V E} (hok : s.Ok cfg e)
    {es : List (EngineEvent O K V E)} (hq : Orderly cfg es s e) : ReleaseOK cfg (s.next cfg e) := by
  cases e with
  | newScope ctx nested =>
    unfold Engine.next
    dsimp only
    split
    · exact h
    rename_i scopes scope hnew
    rcases Scopes.newScope_ok hnew with hf | ⟨-, -, rfl⟩
    · obtain rfl : scopes = s.scopes.fresh.1 := congrArg Prod.fst hf
      exact h.newScope
    · exact h
  | engine state =>
    exact ⟨h.range, h.memo, fun id sw hsw => (h.sweeps id sw hsw).mono fun _ hc => hc, h.drops⟩
  | op o e => exact (h.scopesAfter o e).bound_next hok.1 (h.allows hok.2 hq)
  | flush id scope order =>
    refine h.setSweep (fun sw₀ hsw₀ => ?_) (SweepOK.proceed _ nofun)
    rw [hok.1] at hsw₀
    cases hsw₀
  | close id scope order =>
    obtain ⟨hid, hsome, hperm⟩ := hok
    unfold Engine.next
    dsimp only
    by_cases hc : s.scopes.state scope = some .closed
    · have hclose : s.scopes.close scope = (s.scopes, none) := if_pos hc
      rw [hclose]
      exact h
    have hopen : s.scopes.state scope = some .open := by
      obtain ⟨sc, hsc⟩ := Option.isSome_iff_exists.1 hsome
      unfold Scopes.state at hc ⊢
      rw [hsc] at hc ⊢
      cases hst : sc.state with
      | «open» => exact congrArg some hst
      | closed => exact absurd (congrArg some hst) hc
    have hclose := h.close hid hopen hperm (hq.closes scope rfl)
    have hsnd : s.scopes.close scope = ((s.scopes.close scope).1, some (s.scopes.ops scope)) := by
      unfold Scopes.close
      rw [if_neg hc]
    rw [hsnd]
    exact hclose
  | expire id =>
    obtain ⟨sw, hsw⟩ := Option.isSome_iff_exists.1 hok
    have hs := h.sweeps id sw hsw
    unfold Engine.next
    dsimp only
    rw [hsw]
    refine h.setSweep (fun sw₀ hsw₀ hcl => ?_) ⟨hs.closed, hs.drops, hs.ends⟩
    obtain rfl : sw₀ = sw := Option.some.inj (hsw₀.symm.trans hsw)
    exact ⟨hcl, rfl, rfl⟩
  | send id o now now' reply ctxErr =>
    obtain ⟨sw, hsw, -⟩ := Option.map_eq_some_iff.1 hok.1
    have hs := h.sweeps id sw hsw
    have hturn : (s.bound o).Ok (cfg o) (.net (.turn (flushTurn now now' reply ctxErr))) := ⟨rfl, hok.2⟩
    unfold Engine.next
    dsimp only
    rw [hsw]
    refine (h.bound_next hturn trivial).setSweep (fun sw₀ hsw₀ hcl => ?_) ⟨hs.closed, nofun, nofun⟩
    obtain rfl : sw₀ = sw := Option.some.inj (hsw₀.symm.trans hsw)
    exact ⟨hcl, rfl, rfl⟩
  | answer id o k =>
    unfold Engine.next
    dsimp only
    split
    · exact h
    rename_i sw hsw
    split
    · exact h
    rename_i err _
    refine h.setSweep (fun sw₀ hsw₀ hcl => ?_) ((h.sweeps id sw hsw).flushed err)
    obtain rfl : sw₀ = sw := Option.some.inj (hsw₀.symm.trans hsw)
    unfold Sweep.flushed
    rw [if_pos hcl]
    exact ⟨hcl, rfl, rfl⟩
  | drop id o scope =>
    obtain ⟨sw, hsw, heq⟩ := Option.map_eq_some_iff.1 hok
    obtain rfl : sw.scope = scope := congrArg (·.2.1) heq
    unfold Engine.next
    dsimp only
    rw [hsw]
    exact h.drop hsw (congrArg (·.1) heq) (congrArg (·.2.2) heq)

end

end Operations

lemma reach_release [DecidableEq O] [∀ o, Inhabited (K o)] [∀ o, Inhabited (V o)]
    {es} (h : ((engine cfg).only (Orderly cfg)).Reach es s) : ReleaseOK cfg s := by
  have hinit : ReleaseOK cfg ((engine (V := V) (E := E) cfg).only (Orderly cfg)).init := by
    refine ⟨nofun, fun o => ⟨nofun, nofun, nofun, nofun, nofun⟩, nofun, nofun⟩
  exact h.invariant (I := fun _ s => ReleaseOK cfg s) hinit fun es s e _ hok hs => hs.next hok.1 hok.2

/-- **A scope whose `Close` has returned has no memo table in any operation**, in every run in which
scopes are closed and calls give up in order. -/
theorem memo_released [DecidableEq O] [∀ o, Inhabited (K o)] [∀ o, Inhabited (V o)]
    {es : List (EngineEvent O K V E)} (h : ((engine cfg).only (Orderly cfg)).Reach es s) {scope : ScopeID}
    (hclosed : s.scopes.state scope = some .closed)
    (hret : ∀ id sw, s.sweeps.lookup id = some sw → sw.closing = true → sw.scope = scope →
      ∃ err, sw.stage = .returned err) (o : O) : (s.bound o).memo.lookup scope = none := by
  have hs := reach_release h
  cases hm : (s.bound o).memo.lookup scope with
  | none => rfl
  | some t =>
    obtain ⟨id, sw, hsw, hcl, hsc, ho⟩ := hs.drops o scope t hclosed hm
    obtain ⟨err, hst⟩ := hret id sw hsw hcl hsc
    rw [(hs.sweeps id sw hsw).ends hcl err hst] at ho
    cases ho

end Engine

/-! ## Runs -/

/-- A call of `Do` until it holds its memo table. -/
def demoLookup (id : DoId) (scope : ScopeID) (part : GoString) (key : ℕ) : List DemoEvent :=
  [.op () (.start id scope ⟨part⟩ key), .op () (.checkOpen id true), .op () (.accept id none),
    .op () (.clone id true), .op () (.lookup id)]

/-- A call of `Do` whose result is memoized; then its scope is closed. -/
def demoMemoized : List DemoEvent := [.newScope none .isolateChild] ++ demoLookup 1 1 [1] 7 ++
    [.op () (.get 1), .op () (.track 1 ⟨[1]⟩ 7 1 1 none)] ++ demoArrive [1] 7 1 ++
    [demoNet (.select 1 .value), demoNet (.turn (flushTurn 0 0 1 fun _ => none)), demoNet .reveal,
      demoNet .reveal, demoReturn 1 [.success 2 5], demoNet .reveal, demoNet .reveal,
      demoNet (.select 1 .value), .op () (.finish 1), .op () (.store 1), .op () (.put 1),
      .close 1 1 [()], .send 1 () 0 0 2 (fun _ => none), demoNet .reveal, .answer 1 () .value,
      .drop 1 () 1]

/-- The table was there before the `Close`. -/
theorem memo_released_demo :
    let s := (demoEngine true).run (demoEngine true).init demoMemoized
    let s₀ := (demoEngine true).run (demoEngine true).init (demoMemoized.take 23)
    (s₀.bound ()).memo.lookup 1 = some 1 ∧ (s.bound ()).memo.lookup 1 = none := by
  intro s s₀
  have hr : ((demoEngine true).only (Orderly fun _ => demoOp .manual true)).Reach demoMemoized s :=
    System.reach_of_allowed (by decide)
  have hret : s.sweeps.entries.all (fun x => decide (x.2.stage = .returned none)) = true := by
    decide
  refine ⟨by decide, memo_released hr (by decide) (fun id sw hsw _ _ => ⟨none, ?_⟩) ()⟩
  exact of_decide_eq_true (all_eq_true.1 hret ⟨id, sw⟩ (AList.mem_lookup_iff.1 hsw))

/-- **A scope closed between a call's lookup and `trackOp` keeps its memo table**, when the call and
the `Close` have returned. -/
theorem memo_kept : ∃ es : List DemoEvent, ∃ s : DemoEngine, (demoEngine true).Reach es s ∧
    s.scopes.state 1 = some .closed ∧
    s.sweeps.entries.map (fun x => (x.2.scope, x.2.closing, x.2.stage)) = [(1, true, .returned none)] ∧
    (s.bound ()).dos.entries.map (fun x => (x.2.scope, x.2.stage)) = [(1, .returned (.done .canceled))] ∧
    (s.bound ()).memo.lookup 1 = some 1 :=
  ⟨[.newScope none .isolateChild] ++ demoLookup 1 1 [1] 7 ++ [.close 1 1 [], .op () (.get 1),
      .op () (.track 1 ⟨[1]⟩ 7 1 1 none), demoNet (.expire 1), demoNet (.select 1 .ctxDone),
      .op () (.finish 1)], _,
    System.reach_of_allowed (by decide), by decide, by decide,
    by decide, by decide⟩

end BatchWeaver
