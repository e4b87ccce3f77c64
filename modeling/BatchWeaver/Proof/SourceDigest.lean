import BatchWeaver.Spec.AnalysisCache

/-!
# What a source digest determines

In a workspace that stands still the walk of `SourceDigest` collects, for every path that the digest covers, what
an analysis finds there (`collected_iff`). So two workspaces with the same digest look the same to an analysis that
reads covered paths only (`digest_view`), and the key determines the digest and the analysis (`keyOf_inj`).

Sums of SHA-256 all have one length. Here it is enough that no sum begins another one (`Sha256.Delimited`).
-/

namespace BatchWeaver

open List

/-- No sum begins another one. -/
def Sha256.Delimited (H : Sha256) : Prop := ∀ a b, H.sum a <+: H.sum b → a = b

/-- Every byte behind a one, and a zero at the end. -/
def mark (b : GoString) : GoString := b.flatMap (fun x => [1, x]) ++ [0]

lemma eq_of_mark_prefix {a b} (h : mark a <+: mark b) : a = b := by
  have hcons : ∀ (x : UInt8) (c : GoString), mark (x :: c) = 1 :: x :: mark c := fun _ _ => rfl
  induction a generalizing b with
  | nil =>
    cases b with
    | nil => rfl
    | cons y b =>
      rw [hcons] at h
      exact absurd (cons_prefix_cons.1 h).1 (by decide)
  | cons x a ih =>
    cases b with
    | nil =>
      rw [hcons] at h
      exact absurd (cons_prefix_cons.1 h).1 (by decide)
    | cons y b =>
      rw [hcons, hcons] at h
      obtain ⟨hxy, hrest⟩ := cons_prefix_cons.1 (cons_prefix_cons.1 h).2
      rw [hxy, ih hrest]

/-- Some delimited sum. -/
def Sha256.marked : Sha256 where
  sum := mark
  injective a b h := eq_of_mark_prefix (h ▸ prefix_rfl)
  nonempty b h := by simp [mark] at h

lemma Sha256.marked_delimited : Sha256.marked.Delimited := fun _ _ => eq_of_mark_prefix

namespace Daemon

variable {H : Sha256} {E : Env} {w w' : Workspace} {overlay overlay' : Table GoString GoString}

/-! ## Paths -/

lemma slash_inj {p q} (h : slash p = slash q) : p = q := by
  have hparts : ∀ r : RelPath, ∀ s ∈ r.map Subtype.val, s ≠ [] ∧ 47 ∉ s := by
    intro r s hs
    obtain ⟨n, -, rfl⟩ := mem_map.1 hs
    exact ⟨n.2.1, n.2.2.1⟩
  have hvals := Words.intercalate_inj (hparts p) (hparts q) h
  exact map_injective_iff.2 Subtype.val_injective hvals

lemma zero_notMem_slash (p : RelPath) : 0 ∉ slash p := by
  intro h
  rcases Words.mem_intercalate h with h | ⟨s, hs, hzero⟩
  · exact absurd h (by decide)
  · obtain ⟨n, -, rfl⟩ := mem_map.1 hs
    exact n.2.2.2 hzero

/-- Paths that the digest covers: relevant sources outside the skipped directories. -/
def Covered (p : RelPath) : Prop :=
  ∃ d n, p = d ++ [n] ∧ relevantSource n.val = true ∧ ∀ m ∈ d, skippedDir m.val = false

variable {t : Table GoString GoString} {p : RelPath} {k : Walk} {node : Node}

variable {d : RelPath} {entries : List (Name × Node)}

lemma mem_readDir (h : w.readDir d = some entries) {n} :
    (n, node) ∈ entries ↔ w.nodes.lookup (d ++ [n]) = some node := by
  unfold Workspace.readDir at h
  split at h
  · injection h with h
    rw [← h, mem_insertionSort, mem_filterMap]
    constructor
    · rintro ⟨e, he, hchild⟩
      unfold childOf at hchild
      split at hchild
      · split at hchild
        · rename_i m _ hpath
          injection hchild with hchild
          injection hchild with hn hnode
          rw [← hn, ← hpath, ← hnode]
          exact Table.mem_entries.1 he
        · cases hchild
      · cases hchild
    intro hlookup
    refine ⟨⟨d ++ [n], node⟩, Table.mem_entries.2 hlookup, ?_⟩
    simp [childOf]
  · cases h

/-- A node below `c` makes `c` a directory. -/
lemma dir_of_below {c r} (hc : c ≠ []) (hr : r ≠ []) (h : (w.nodes.lookup (c ++ r)).isSome = true) :
    w.nodes.lookup c = some .dir := by
  induction r using reverseRecOn with
  | nil => exact absurd rfl hr
  | append_singleton r n ih =>
    rw [← append_assoc] at h
    have hparent := w.closed (c ++ r) n h (by simp [hc])
    rcases eq_or_ne r [] with rfl | hne
    · rwa [append_nil] at hparent
    · exact ih hne (by rw [hparent]; rfl)

/-! ## The walk -/

/-- A step of a walk in a workspace that stands still. -/
def WalkStep (E : Env) (w : Workspace) (k k' : Walk) : Prop := k.todo ≠ [] ∧ k.step E w = .ok k'

/-- The digest of a workspace, under an overlay. -/
def HasDigest (H : Sha256) (E : Env) (overlay : Table GoString GoString) (w : Workspace) (d : GoString) : Prop :=
  ∃ k, Relation.ReflTransGen (WalkStep E w) (startWalk overlay) k ∧ k.todo = [] ∧ d = digestOf H k.collected

/-- Overlay paths are absolute paths of files below the root, without detours. -/
def Canonical (E : Env) (overlay : Table GoString GoString) : Prop :=
  ∀ path content, overlay.lookup path = some content → ∀ w rel, E.resolve w path = .ok rel →
    ∃ p : RelPath, p ≠ [] ∧ rel = slash p ∧ path = E.absPath p

/-- The overrides that the overlay entries `es` make. -/
structure OverridesOK (E : Env) (es : List (Sigma fun _ : GoString => GoString)) (t : Table GoString GoString) :
    Prop where
  path : ∀ rel c, t.lookup rel = some c → ∃ p : RelPath, p ≠ [] ∧ rel = slash p
  iff : ∀ (p : RelPath) (c : GoString), t.lookup (slash p) = some c ↔ p ≠ [] ∧ ⟨E.absPath p, c⟩ ∈ es

lemma overridesOK_snoc {es c} (h : OverridesOK E es t) (hp : p ≠ []) (hnew : ∀ c, ⟨E.absPath p, c⟩ ∉ es) :
    OverridesOK E (es ++ [⟨E.absPath p, c⟩]) (t.insert (slash p) c) := by
  constructor
  · intro rel c' hrel
    rw [Table.lookup_insert_if] at hrel
    split at hrel
    · rename_i heq
      exact ⟨p, hp, heq⟩
    · exact h.path rel c' hrel
  intro q c'
  rw [Table.lookup_insert_if, mem_append, mem_singleton, Sigma.mk.injEq, heq_eq_eq]
  split
  · rename_i heq
    have hq := slash_inj heq
    subst hq
    constructor
    · intro hc
      exact ⟨hp, .inr ⟨rfl, (Option.some.inj hc).symm⟩⟩
    rintro ⟨-, hmem | ⟨-, rfl⟩⟩
    · exact absurd hmem (hnew c')
    · rfl
  rename_i hne
  rw [h.iff]
  constructor
  · exact fun ⟨hq, hmem⟩ => ⟨hq, .inl hmem⟩
  rintro ⟨hq, hmem | ⟨heq, -⟩⟩
  · exact ⟨hq, hmem⟩
  · exact absurd (congrArg slash (slash_inj (append_cancel_left heq))) hne

/-- Something in the list of visits leads to `p`. -/
def Leads (todo : List Visit) (p : RelPath) (node : Node) : Prop := (∃ d r, .enter d ∈ todo ∧ p = d ++ r ∧ r ≠ []) ∨
    match node with
    | .file _ => .readFile p ∈ todo
    | .dir => True
    | .symlink _ => ∃ name, .reject name ∈ todo

lemma Leads.mono {todo todo'} (h : Leads todo p node) (hsub : ∀ v ∈ todo, v ∈ todo') : Leads todo' p node := by
  rcases h with ⟨d, r, hd, hp⟩ | h
  · exact .inl ⟨d, r, hsub _ hd, hp⟩
  refine .inr ?_
  cases node with
  | file data => exact hsub _ h
  | dir => trivial
  | symlink through =>
    obtain ⟨name, hname⟩ := h
    exact ⟨name, hsub _ hname⟩

/-- A walk behind the overlay. -/
structure WalkOK (E : Env) (overlay : Table GoString GoString) (w : Workspace) (k : Walk) : Prop where
  overrides : OverridesOK E overlay.entries k.overrides
  noOverride : ∀ path content, .override path content ∉ k.todo
  reads : ∀ p, .readFile p ∈ k.todo → p ≠ [] ∧ k.overrides.lookup (slash p) = none
  sound : ∀ path c, (path, c) ∈ k.sources → ∃ p : RelPath, p ≠ [] ∧ path = slash p ∧ w.readFile p = some c ∧
    k.overrides.lookup (slash p) = none
  complete : ∀ p node, Covered p → w.nodes.lookup p = some node → k.overrides.lookup (slash p) = none →
    (∃ data, node = .file data ∧ (slash p, data) ∈ k.sources) ∨ Leads k.todo p node

variable {entry : Name × Node}

lemma visitEntry_noOverride {path content} : .override path content ∉ visitEntry t d entry := by
  unfold visitEntry
  intro h
  simp only at h
  split at h
  · split at h <;> simp at h
  · simp at h
  split at h
  · simp at h
  · split at h <;> simp at h

lemma visitEntry_reads {p} (h : .readFile p ∈ visitEntry t d entry) : p ≠ [] ∧ t.lookup (slash p) = none := by
  unfold visitEntry at h
  simp only at h
  split at h
  · split at h <;> simp at h
  · simp at h
  split at h
  · simp at h
  split at h
  · simp at h
  rename_i hnone
  rw [mem_singleton] at h
  injection h with h
  rw [h]
  exact ⟨by simp, by simpa using hnone⟩

/-- Listing the directory on the way to `p` leads on to `p`. -/
lemma leads_enter {r p} (hread : w.readDir d = some entries)
    (hcovered : Covered p) (hnode : w.nodes.lookup p = some node) (hfree : t.lookup (slash p) = none)
    (hp : p = d ++ r) (hr : r ≠ []) : Leads (entries.flatMap (visitEntry t d)) p node := by
  obtain ⟨dir, name, hpath, hrelevant, hdirs⟩ := hcovered
  cases r with
  | nil => exact absurd rfl hr
  | cons n r =>
    rcases eq_or_ne r [] with rfl | hne
    · -- `p` itself is in the directory
      have hlast : d = dir ∧ n = name := by
        have := hp.symm.trans hpath
        exact ⟨append_inj_left' this rfl, by simpa using append_inj_right' this rfl⟩
      obtain ⟨rfl, rfl⟩ := hlast
      have hentry : (n, node) ∈ entries := by
        rw [mem_readDir hread, ← hp]
        exact hnode
      refine .inr ?_
      cases node with
      | file data =>
        refine mem_flatMap.2 ⟨_, hentry, ?_⟩
        have hfree' : (t.lookup (slash (d ++ [n]))).isSome = false := by rw [← hp, hfree]; rfl
        simp [visitEntry, hrelevant, hfree', hp]
      | dir => trivial
      | symlink through => exact ⟨n.val, mem_flatMap.2 ⟨_, hentry, by simp [visitEntry]⟩⟩
    -- a directory on the way
    have hp' : p = (d ++ [n]) ++ r := by simp [hp]
    have hdir : w.nodes.lookup (d ++ [n]) = some .dir := by
      refine dir_of_below (by simp) hne ?_
      rw [← hp', hnode]
      rfl
    have hmem : n ∈ dir := by
      obtain ⟨r', m, rfl⟩ : ∃ r' m, r = r' ++ [m] := ⟨r.dropLast, r.getLast hne, (dropLast_append_getLast hne).symm⟩
      have heq : (d ++ n :: r') ++ [m] = dir ++ [name] := by
        rw [← hpath, hp]
        simp
      rw [← append_inj_left' heq rfl]
      simp
    refine .inl ⟨d ++ [n], r, mem_flatMap.2 ⟨(n, .dir), (mem_readDir hread).2 hdir, ?_⟩, hp', hne⟩
    simp [visitEntry, hdirs n hmem]

/-- One step of a walk behind the overlay. -/
lemma walkOK_step {k k'} (h : WalkOK E overlay w k) (hstep : WalkStep E w k k') : WalkOK E overlay w k' := by
  obtain ⟨hne, hstep⟩ := hstep
  unfold Walk.step at hstep
  split at hstep
  · rename_i hnil
    exact absurd hnil hne
  · rename_i path content todo htodo
    exact absurd (by rw [htodo]; exact mem_cons_self) (h.noOverride path content)
  · rename_i d todo htodo
    split at hstep
    · cases hstep
    rename_i entries hread
    cases hstep
    refine ⟨h.overrides, ?_, ?_, h.sound, ?_⟩
    · intro path content hmem
      rcases mem_append.1 hmem with hmem | hmem
      · obtain ⟨entry, -, hentry⟩ := mem_flatMap.1 hmem
        exact visitEntry_noOverride hentry
      · exact h.noOverride path content (by rw [htodo]; exact mem_cons_of_mem _ hmem)
    · intro p hmem
      rcases mem_append.1 hmem with hmem | hmem
      · obtain ⟨entry, -, hentry⟩ := mem_flatMap.1 hmem
        exact visitEntry_reads hentry
      · exact h.reads p (by rw [htodo]; exact mem_cons_of_mem _ hmem)
    intro p node hcovered hnode hfree
    rcases h.complete p node hcovered hnode hfree with hsource | hleads
    · exact .inl hsource
    refine .inr ?_
    rw [htodo] at hleads
    rcases hleads with ⟨d', r, hd', hp, hr⟩ | hleads
    · rcases mem_cons.1 hd' with heq | hd'
      · cases heq
        exact (leads_enter hread hcovered hnode hfree hp hr).mono fun v hv => mem_append_left _ hv
      · exact .inl ⟨d', r, mem_append_right _ hd', hp, hr⟩
    refine .inr ?_
    cases node with
    | file data =>
      rcases mem_cons.1 hleads with heq | hmem
      · cases heq
      · exact mem_append_right _ hmem
    | dir => trivial
    | symlink through =>
      obtain ⟨name, hname⟩ := hleads
      rcases mem_cons.1 hname with heq | hmem
      · cases heq
      · exact ⟨name, mem_append_right _ hmem⟩
  · rename_i p todo htodo
    split at hstep
    · cases hstep
    rename_i data hread
    cases hstep
    have hmem : ∀ v ∈ todo, v ∈ k.todo := by
      intro v hv
      rw [htodo]
      exact mem_cons_of_mem _ hv
    have hp := h.reads p (by rw [htodo]; exact mem_cons_self)
    refine ⟨h.overrides, fun path content hv => h.noOverride path content (hmem _ hv),
      fun q hq => h.reads q (hmem _ hq), ?_, ?_⟩
    · intro path c hc
      rcases mem_append.1 hc with hc | hc
      · exact h.sound path c hc
      rw [mem_singleton, Prod.mk.injEq] at hc
      obtain ⟨rfl, rfl⟩ := hc
      exact ⟨p, hp.1, rfl, hread, hp.2⟩
    intro q node hcovered hnode hfree
    rcases h.complete q node hcovered hnode hfree with ⟨data', hfile, hsource⟩ | hleads
    · exact .inl ⟨data', hfile, mem_append_left _ hsource⟩
    rw [htodo] at hleads
    rcases hleads with ⟨d', r, hd', hq, hr⟩ | hleads
    · rcases mem_cons.1 hd' with heq | hd'
      · cases heq
      · exact .inr (.inl ⟨d', r, hd', hq, hr⟩)
    cases node with
    | file data' =>
      rcases mem_cons.1 hleads with heq | hmem
      · cases heq
        have hdata : data = data' := by
          unfold Workspace.readFile at hread
          rw [hnode] at hread
          exact (Option.some.inj hread).symm
        rw [hdata]
        exact .inl ⟨data', rfl, by simp⟩
      · exact .inr (.inr hmem)
    | dir => exact .inr (.inr trivial)
    | symlink through =>
      obtain ⟨name, hname⟩ := hleads
      rcases mem_cons.1 hname with heq | hmem
      · cases heq
      · exact .inr (.inr ⟨name, hmem⟩)
  · cases hstep

/-- Either the overlay is being resolved, or the walk is behind it. -/
def WalkInv (E : Env) (overlay : Table GoString GoString) (w : Workspace) (k : Walk) : Prop :=
  (∃ es rest, overlay.entries = es ++ rest ∧ rest ≠ [] ∧ OverridesOK E es k.overrides ∧ k.sources = [] ∧
      k.todo = (rest.map fun e => .override e.1 e.2) ++ [.enter []]) ∨
    WalkOK E overlay w k

/-- Behind the last overlay entry the walk enters the root. -/
lemma walkOK_root (h : OverridesOK E overlay.entries t) : WalkOK E overlay w ⟨[.enter []], t, []⟩ := by
  refine ⟨h, fun path content hmem => ?_, fun p hmem => ?_, nofun, fun p node hcovered _ _ => ?_⟩
  · rw [mem_singleton] at hmem
    cases hmem
  · rw [mem_singleton] at hmem
    cases hmem
  · obtain ⟨d, n, rfl, -⟩ := hcovered
    exact .inr (.inl ⟨[], d ++ [n], mem_singleton_self _, rfl, by simp⟩)

lemma walkInv_start : WalkInv E overlay w (startWalk overlay) := by
  have hempty : OverridesOK E [] (∅ : Table GoString GoString) := by
    refine ⟨fun rel c hc => ?_, fun p c => ⟨fun hc => ?_, fun hc => absurd hc.2 not_mem_nil⟩⟩
    · cases hc
    · cases hc
  rcases eq_or_ne overlay.entries [] with hnil | hne
  · refine .inr ?_
    unfold startWalk
    rw [hnil]
    exact walkOK_root (by rw [hnil]; exact hempty)
  · exact .inl ⟨[], overlay.entries, rfl, hne, hempty, rfl, rfl⟩

section

variable (hcanonical : Canonical E overlay)
include hcanonical

lemma walkInv_step {k k'} (h : WalkInv E overlay w k) (hstep : WalkStep E w k k') : WalkInv E overlay w k' := by
  rcases h with ⟨es, rest, hes, hne, hover, hsources, htodo⟩ | h
  · obtain ⟨-, hstep⟩ := hstep
    cases rest with
    | nil => exact absurd rfl hne
    | cons e rest =>
      unfold Walk.step at hstep
      rw [htodo] at hstep
      simp only [map_cons, cons_append] at hstep
      split at hstep
      · cases hstep
      rename_i rel hrel
      cases hstep
      have hmem : e ∈ overlay.entries := by
        rw [hes]
        simp
      obtain ⟨p, hp, rfl, hpath⟩ := hcanonical e.1 e.2 (Table.mem_entries.1 hmem) w rel hrel
      have hnew : ∀ c, (⟨E.absPath p, c⟩ : Sigma fun _ : GoString => GoString) ∉ es := by
        intro c hc
        have hnodup : (overlay.entries.map Sigma.fst).Nodup := overlay.nodupKeys
        rw [hes, map_append, nodup_append] at hnodup
        exact hnodup.2.2 (E.absPath p) (mem_map.2 ⟨_, hc, rfl⟩) e.1 (by simp) hpath.symm
      have hover' : OverridesOK E (es ++ [e]) (k.overrides.insert (slash p) e.2) := by
        have he : e = ⟨E.absPath p, e.2⟩ := Sigma.ext hpath HEq.rfl
        rw [he]
        exact overridesOK_snoc hover hp hnew
      rcases eq_or_ne rest [] with rfl | hrest
      · refine .inr ?_
        rw [hsources]
        exact walkOK_root (by rw [hes]; exact hover')
      · exact .inl ⟨es ++ [e], rest, by rw [hes]; simp, hrest, hover', hsources, rfl⟩
  · exact .inr (walkOK_step h hstep)

/-- A finished walk has been behind the overlay. -/
lemma walkOK_of_finished (hruns : Relation.ReflTransGen (WalkStep E w) (startWalk overlay) k)
    (hdone : k.todo = []) : WalkOK E overlay w k := by
  have hinv : WalkInv E overlay w k := by
    clear hdone
    induction hruns with
    | refl => exact walkInv_start
    | tail _ hstep ih => exact walkInv_step hcanonical ih hstep
  rcases hinv with ⟨es, rest, hes, hne, -, -, htodo⟩ | h
  · rw [hdone] at htodo
    simp at htodo
  · exact h

omit hcanonical in
lemma mem_collected {path c} : (path, c) ∈ k.collected ↔ (path, c) ∈ k.sources ∨ k.overrides.lookup path = some c := by
  unfold Walk.collected
  rw [mem_insertionSort, mem_append, mem_map]
  refine or_congr_right ⟨?_, fun h => ⟨⟨path, c⟩, Table.mem_entries.2 h, rfl⟩⟩
  rintro ⟨e, he, heq⟩
  injection heq with hpath hc
  rw [← hpath, ← hc]
  exact Table.mem_entries.1 he

section

variable (hruns : Relation.ReflTransGen (WalkStep E w) (startWalk overlay) k)
include hruns

/-- **The walk collects what an analysis finds**, at every path that the digest covers. -/
theorem collected_iff (hdone : k.todo = []) (hp : Covered p) (c : GoString) :
    (slash p, c) ∈ k.collected ↔ view E overlay w p = some c := by
  have h := walkOK_of_finished hcanonical hruns hdone
  have hne : p ≠ [] := by
    obtain ⟨d, n, rfl, -⟩ := hp
    simp
  have hover : ∀ c, k.overrides.lookup (slash p) = some c ↔ overlay.lookup (E.absPath p) = some c := by
    intro c
    rw [h.overrides.iff, Table.mem_entries]
    exact and_iff_right hne
  rw [mem_collected]
  unfold view
  cases hlookup : overlay.lookup (E.absPath p) with
  | some content =>
    have hcontent := (hover content).2 hlookup
    rw [hcontent]
    constructor
    · rintro (hsource | hc)
      · obtain ⟨q, -, heq, -, hnone⟩ := h.sound _ _ hsource
        rw [← heq, hcontent] at hnone
        cases hnone
      · exact hc
    · exact .inr
  | none =>
    have hfree : k.overrides.lookup (slash p) = none := by
      cases hc : k.overrides.lookup (slash p) with
      | none => rfl
      | some c' =>
        rw [(hover c').1 hc] at hlookup
        cases hlookup
    rw [hfree]
    constructor
    · rintro (hsource | hc)
      · obtain ⟨q, -, heq, hread, -⟩ := h.sound _ _ hsource
        rw [slash_inj heq]
        exact hread
      · cases hc
    intro hread
    refine .inl ?_
    obtain ⟨node, hnode⟩ : ∃ node, w.nodes.lookup p = some node := by
      unfold Workspace.readFile at hread
      cases hnode : w.nodes.lookup p with
      | none => rw [hnode] at hread; cases hread
      | some node => exact ⟨node, rfl⟩
    -- nothing leads on to `p` any more, so it has been read
    rcases h.complete p node hp hnode hfree with ⟨data, rfl, hsource⟩ | hleads
    · unfold Workspace.readFile at hread
      rw [hnode] at hread
      rw [← Option.some.inj hread]
      exact hsource
    unfold Leads at hleads
    rw [hdone] at hleads
    unfold Workspace.readFile at hread
    rw [hnode] at hread
    cases node with
    | file _ | symlink _ => simp at hleads
    | dir => cases hread

lemma zero_notMem_collected (hdone : k.todo = []) (s : GoString × GoString) (hs : s ∈ k.collected) : 0 ∉ s.1 := by
  have h := walkOK_of_finished hcanonical hruns hdone
  obtain ⟨p, hp⟩ : ∃ p : RelPath, s.1 = slash p := by
    rcases mem_collected.1 hs with hsource | hover
    · obtain ⟨p, -, hp, -⟩ := h.sound _ _ hsource
      exact ⟨p, hp⟩
    · obtain ⟨p, -, hp⟩ := h.overrides.path _ _ hover
      exact ⟨p, hp⟩
  rw [hp]
  exact zero_notMem_slash p

end

end

/-- **The digest determines what an analysis finds**, at every path that it covers. -/
theorem digest_view (hH : H.Delimited) (hcanonical : Canonical E overlay) (hcanonical' : Canonical E overlay')
    {d : GoString} (h : HasDigest H E overlay w d) (h' : HasDigest H E overlay' w' d) (hp : Covered p) :
    view E overlay w p = view E overlay' w' p := by
  obtain ⟨k, hruns, hdone, rfl⟩ := h
  obtain ⟨k', hruns', hdone', hdigest⟩ := h'
  have hcollected : k.collected = k'.collected := by
    have hsum := H.injective (hexEncode_injective (append_cancel_left hdigest))
    exact Words.coded_inj hH (zero_notMem_collected hcanonical hruns hdone)
      (zero_notMem_collected hcanonical' hruns' hdone') hsum
  ext c
  rw [← collected_iff hcanonical hruns hdone hp, ← collected_iff hcanonical' hruns' hdone' hp, hcollected]

/-! ## Analyses -/

/-- The result of an analysis that finds `v`. -/
def Program.run (v : RelPath → Option GoString) : Program → Except GoString GoString
  | .stop result => result
  | .look p next => (next (v p)).run v

/-- An analysis that reads covered paths only. -/
inductive Program.ReadsCovered : Program → Prop
  | stop (result : Except GoString GoString) : ReadsCovered (.stop result)
  | look (p : RelPath) (next : Option GoString → Program) (hp : Covered p) (hnext : ∀ c, ReadsCovered (next c)) :
      ReadsCovered (.look p next)

lemma Program.run_congr {v v' : RelPath → Option GoString} (hv : ∀ p, Covered p → v p = v' p) {g : Program}
    (hg : g.ReadsCovered) : g.run v = g.run v' := by
  induction hg with
  | stop result => rfl
  | look p next hp _ ih =>
    unfold Program.run
    rw [hv p hp]
    exact ih (v' p)

/-- The analysis `g` reads `seen` in a workspace that shows `v`, and goes on as `rest`. -/
inductive Follows (v : RelPath → Option GoString) (g : Program) : List (RelPath × Option GoString) → Program → Prop
  | start : Follows v g [] g
  | look {seen : List (RelPath × Option GoString)} {p : RelPath} {next : Option GoString → Program} :
      Follows v g seen (.look p next) → Follows v g (seen ++ [(p, v p)]) (next (v p))

lemma Follows.spec {v : RelPath → Option GoString} {g rest seen}
    (h : Follows v g seen rest) : g.run v = rest.run v ∧ ∀ pc ∈ seen, v pc.1 = pc.2 := by
  induction h with
  | start => exact ⟨rfl, nofun⟩
  | look _ ih =>
    refine ⟨ih.1, fun pc hpc => ?_⟩
    rcases mem_append.1 hpc with hpc | hpc
    · exact ih.2 pc hpc
    · rw [mem_singleton] at hpc
      rw [hpc]

/-! ## Keys -/

/-- A process whose strings have no zero byte. -/
structure EnvOK (E : Env) : Prop where
  goVersion : 0 ∉ E.goVersion
  goos : 0 ∉ E.goos
  goarch : 0 ∉ E.goarch
  covered : ∀ input, (E.analyze input).ReadsCovered

/-- A request whose strings have no zero byte, whose tags are single words in order, and whose overlay names files by
their canonical paths. -/
structure Tidy (E : Env) (params : AnalysisParams) : Prop where
  toolVersion : 0 ∉ params.toolVersion
  goos : 0 ∉ params.buildContext.goos
  goarch : 0 ∉ params.buildContext.goarch
  patterns : ∀ p ∈ params.patterns, 0 ∉ p
  tags : ∀ t ∈ params.buildContext.tags, t ≠ [] ∧ 44 ∉ t ∧ 0 ∉ t
  sorted : sortStrings params.buildContext.tags = params.buildContext.tags
  overlay : Canonical E params.overlay

lemma sortedPatterns_ne_nil (params : AnalysisParams) : params.sortedPatterns ≠ [] := by
  unfold AnalysisParams.sortedPatterns
  intro h
  have hlen := (perm_insertionSort (fun a b : GoString => a ≤ b)
    (if params.patterns = [] then [str "./..."] else params.patterns)).length_eq
  unfold sortStrings at h
  rw [h] at hlen
  split at hlen
  · cases hlen
  · rename_i hne
    exact hne (length_eq_zero_iff.1 hlen.symm)

variable {params : AnalysisParams}

lemma zero_notMem_sortedPatterns (h : Tidy E params) : ∀ p ∈ params.sortedPatterns, 0 ∉ p := by
  intro p hp
  unfold AnalysisParams.sortedPatterns at hp
  rw [mem_sortStrings] at hp
  split at hp
  · rw [mem_singleton] at hp
    subst hp
    decide
  · exact h.patterns p hp

/-- The parts before and after the patterns. -/
def partsBefore (H : Sha256) (E : Env) (params : AnalysisParams) : List GoString :=
  let bc := params.buildContext.withDefaults E
  [str "batchweaver.analysis-cache/v1alpha1", hexEncode (H.sum E.root), params.toolVersion, E.goVersion, bc.goos,
    bc.goarch, sprint bc.cgoEnabled, sprint bc.tests, sprint true, joinStrings (sortStrings bc.tags) (str ",")]

def partsAfter (digest : GoString) : List GoString :=
  [digest, str "batchweaver.analysis/v1alpha1", Prover.schemaVersion, str "batchweaver.transform/v1alpha1", str "1"]

/-- The patterns are separated by the mark that ends a part, so each is a part of its own. -/
lemma terminate_keyParts (params : AnalysisParams) (digest : GoString) :
    Words.terminate 0 (keyParts H E params digest) =
      Words.terminate 0 (partsBefore H E params ++ params.sortedPatterns ++ partsAfter digest) := by
  have hsorted : sortStrings params.sortedPatterns = params.sortedPatterns :=
    sortStrings_perm (perm_insertionSort _ _)
  have hkey : keyParts H E params digest =
      partsBefore H E params ++ [joinStrings params.sortedPatterns [0]] ++ partsAfter digest := by
    unfold keyParts
    rw [hsorted]
    rfl
  have hpatterns : Words.terminate 0 [joinStrings params.sortedPatterns [0]] =
      Words.terminate 0 params.sortedPatterns := by
    rw [← Words.intercalate_mark 0 _ (sortedPatterns_ne_nil params)]
    simp [joinStrings]
  rw [hkey, Words.terminate_append, Words.terminate_append, Words.terminate_append, Words.terminate_append, hpatterns]

lemma zero_notMem_sprint (b : Bool) : 0 ∉ sprint b := by
  cases b <;> decide

lemma sprint_inj {a b} (h : sprint a = sprint b) : a = b := by
  revert h
  cases a <;> cases b <;> decide

lemma zero_notMem_parts (hE : EnvOK E) (h : Tidy E params) {digest} (hdigest : 0 ∉ digest) :
    ∀ part ∈ partsBefore H E params ++ params.sortedPatterns ++ partsAfter digest, 0 ∉ part := by
  have hgoos : 0 ∉ (params.buildContext.withDefaults E).goos := by
    unfold BuildContext.withDefaults
    split
    · exact hE.goos
    · exact h.goos
  have hgoarch : 0 ∉ (params.buildContext.withDefaults E).goarch := by
    unfold BuildContext.withDefaults
    simp only
    split
    · exact hE.goarch
    · exact h.goarch
  have htags : 0 ∉ joinStrings (sortStrings params.buildContext.tags) (str ",") := by
    intro hmem
    rcases Words.mem_intercalate hmem with heq | ⟨tag, htag, hzero⟩
    · exact absurd heq (by decide)
    · exact (h.tags tag (mem_sortStrings.1 htag)).2.2 hzero
  intro part hpart
  rcases mem_append.1 hpart with hpart | hpart
  · rcases mem_append.1 hpart with hpart | hpart
    · simp only [partsBefore, mem_cons, not_mem_nil, or_false] at hpart
      rcases hpart with rfl | rfl | rfl | rfl | rfl | rfl | rfl | rfl | rfl | rfl
      · decide
      · exact zero_notMem_hexEncode _
      · exact h.toolVersion
      · exact hE.goVersion
      · exact hgoos
      · exact hgoarch
      · exact zero_notMem_sprint _
      · exact zero_notMem_sprint _
      · exact zero_notMem_sprint _
      · exact htags
    · exact zero_notMem_sortedPatterns h part hpart
  simp only [partsAfter, mem_cons, not_mem_nil, or_false] at hpart
  rcases hpart with rfl | rfl | rfl | rfl | rfl
  · exact hdigest
  all_goals decide

lemma zero_notMem_digest {d} (h : HasDigest H E overlay w d) : 0 ∉ d := by
  obtain ⟨k, -, -, rfl⟩ := h
  unfold digestOf
  intro hmem
  rcases mem_append.1 hmem with hmem | hmem
  · exact absurd hmem (by decide)
  · exact zero_notMem_hexEncode _ hmem

/-- **The key determines the digest and the analysis**, for tidy requests. -/
theorem keyOf_inj (hE : EnvOK E) {params params' : AnalysisParams} (h : Tidy E params) (h' : Tidy E params')
    {d d' : GoString} (hd : 0 ∉ d) (hd' : 0 ∉ d') (heq : keyOf H E params d = keyOf H E params' d') :
    d = d' ∧ params.program E = params'.program E := by
  have hsum := H.injective (hexEncode_injective (append_cancel_left heq))
  rw [terminate_keyParts, terminate_keyParts] at hsum
  have hparts := Words.terminate_inj (zero_notMem_parts hE h hd) (zero_notMem_parts hE h' hd') hsum
  have hlen : params.sortedPatterns.length = params'.sortedPatterns.length := by
    have := congrArg List.length hparts
    simp only [length_append, partsBefore, partsAfter, length_cons, length_nil] at this
    omega
  obtain ⟨hfront, hafter⟩ := append_inj hparts (by rw [length_append, length_append, hlen]; rfl)
  obtain ⟨hbefore, hpatterns⟩ := append_inj hfront rfl
  simp only [partsBefore, List.cons.injEq, true_and, and_true] at hbefore
  obtain ⟨htool, hgoos, hgoarch, hcgo, htests, htags⟩ := hbefore
  have htags' : params.buildContext.tags = params'.buildContext.tags := by
    have hjoin : joinStrings (sortStrings params.buildContext.tags) (str ",") =
        joinStrings (sortStrings params'.buildContext.tags) (str ",") := htags
    rw [h.sorted, h'.sorted] at hjoin
    exact Words.intercalate_inj (fun t ht => ⟨(h.tags t ht).1, (h.tags t ht).2.1⟩)
      (fun t ht => ⟨(h'.tags t ht).1, (h'.tags t ht).2.1⟩) hjoin
  have hbc : params.buildContext.withDefaults E = params'.buildContext.withDefaults E := by
    have hcgo' := sprint_inj hcgo
    have htests' := sprint_inj htests
    unfold BuildContext.withDefaults at hgoos hgoarch hcgo' htests' ⊢
    simp only at hgoos hgoarch hcgo' htests'
    rw [hgoos, hgoarch, hcgo', htests', htags']
  refine ⟨(List.cons.inj hafter).1, ?_⟩
  unfold AnalysisParams.program
  rw [hpatterns, hbc, htool]

end Daemon

end BatchWeaver
