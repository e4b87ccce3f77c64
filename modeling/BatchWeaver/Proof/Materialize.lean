import BatchWeaver.Spec.Materialize

/-!
# Materialization can be undone

`materialize` is a list of atomic writes. Behind any prefix of them that does not end with the write of
a source file the manifest and the tree agree: the files marked as committed are the files that were
written (`Reached`). `revert` undoes what the manifest marks, and checks each step by digest.

* `revert_files`: a revert without a conflict leaves at every file it names what was there when the
  digests were taken, and touches nothing else.
* `materialize_revert`: **a plan whose originals in memory are those its digests name can be materialized
  and reverted**: no conflict, every file as it was. Without the condition the backup holds other bytes
  than its name says (`stale_original`).
* `interrupted_recoverable`: **behind every such prefix a revert reports a conflict or restores all files**,
  and behind every prefix `recover` asks for recovery while a file is not marked as committed. Between
  the write of a file and that of the manifest the revert overlooks the file (`unmarked_file`).
-/

namespace BatchWeaver.Transform

open List
open Function (update update_of_ne update_self)

variable {H : Sha256} {root : Path} {tool : GoString} {plan : Plan} {d d₀ d₁ : Disk} {id : GoString}

/-! ## Writes -/

lemma applyAll_append (d : Disk) (ws vs : List Write) : d.applyAll (ws ++ vs) = (d.applyAll ws).applyAll vs :=
  foldl_append

lemma applyAll_cons (d : Disk) (w : Write) (ws : List Write) : d.applyAll (w :: ws) = (d.apply w).applyAll ws := rfl

@[simp] theorem files_apply_manifest (d : Disk) (id : GoString) (m : BackupManifest) :
    (d.apply (.manifest id m)).files = d.files := rfl

@[simp] theorem lookup_apply_manifest (d : Disk) (id : GoString) (m : BackupManifest) :
    (d.apply (.manifest id m)).manifests.lookup id = some m :=
  AList.lookup_insert _

/-- What the tree holds once the files of a list are written. -/
def writeTargets (root : Path) (files : Path → Option GoString) (fps : List FilePlan) : Path → Option GoString :=
  fps.foldl (fun f fp => update f (target root fp.path) (some fp.transformed)) files

variable {done rest : List FilePlan} {m : BackupManifest} {fp : FilePlan} {fps : List FilePlan}
  {acc : Disk × RevertResult} {d' : Disk} {k : ℕ}

variable {files : Path → Option GoString}

/-- A path that no file of the list leads to is not written. -/
lemma writeTargets_other {p} (h : ∀ fp ∈ fps, target root fp.path ≠ p) : writeTargets root files fps p = files p := by
  induction fps generalizing files with
  | nil => rfl
  | cons fp fps ih =>
    have hfirst : target root fp.path ≠ p := h fp mem_cons_self
    have hrest : writeTargets root (update files (target root fp.path) (some fp.transformed)) fps p =
        update files (target root fp.path) (some fp.transformed) p :=
      ih fun x hx => h x (mem_cons_of_mem _ hx)
    rw [update_of_ne hfirst.symm] at hrest
    exact hrest

/-- A path that files of the list lead to holds what the last of them wrote. -/
lemma writeTargets_last {p} (h : ∃ fp ∈ fps, target root fp.path = p) :
    ∃ x ∈ fps, target root x.path = p ∧ writeTargets root files fps p = some x.transformed := by
  induction fps generalizing files with
  | nil =>
    obtain ⟨_, hm, _⟩ := h
    cases hm
  | cons gp fps ih =>
    by_cases hlater : ∃ fp ∈ fps, target root fp.path = p
    · obtain ⟨x, hx, hxp, hw⟩ : ∃ x ∈ fps, target root x.path = p ∧
          writeTargets root (update files (target root gp.path) (some gp.transformed)) fps p = some x.transformed :=
        ih hlater
      exact ⟨x, mem_cons_of_mem _ hx, hxp, hw⟩
    obtain ⟨fp, hfp, rfl⟩ := h
    rcases mem_cons.1 hfp with rfl | hm
    · have hw : writeTargets root files (fp :: fps) (target root fp.path) =
          update files (target root fp.path) (some fp.transformed) (target root fp.path) :=
        writeTargets_other fun x hx he => hlater ⟨x, hx, he⟩
      exact ⟨fp, mem_cons_self, rfl, by rw [hw, update_self]⟩
    · exact absurd ⟨fp, hm, rfl⟩ hlater

/-! ## The commit loop -/

/-- The disk while `done` is written and marked, and `rest` is not. -/
structure Reached (H : Sha256) (root : Path) (tool : GoString) (plan : Plan) (d d' : Disk)
    (state : MaterializationState) (done rest : List FilePlan) : Prop where
  split : plan.files = done ++ rest
  manifest : d'.manifests.lookup (materializationID H plan) =
    some (newManifest H tool plan state (done.map committedEntry ++ rest.map backupEntry))
  files : d'.files = writeTargets root d.files done

lemma files_fileWrites (d : Disk) (root : Path) (id : GoString) (fp : FilePlan) :
    (d.applyAll (fileWrites root id fp)).files = update d.files (target root fp.path) (some fp.transformed) := by
  unfold fileWrites
  split <;> rfl

/-- The manifest of one more file. -/
lemma Reached.commit (h : Reached H root tool plan d d₁ .writing done (fp :: rest)) : Reached H root tool plan d
      ((d₁.applyAll (fileWrites root (materializationID H plan) fp)).apply
        (.manifest (materializationID H plan) (newManifest H tool plan .writing
          (done.map committedEntry ++ [committedEntry fp] ++ rest.map backupEntry))))
      .writing (done ++ [fp]) rest where
  split := by rw [h.split, append_assoc, singleton_append]
  manifest := by
    rw [lookup_apply_manifest, map_append, map_singleton]
  files := by
    rw [files_apply_manifest, files_fileWrites, h.files, writeTargets, writeTargets, foldl_append]
    rfl

lemma commitLoop_cons (done : List FilePlan) (fp : FilePlan) (rest : List FilePlan) :
    commitLoop H root tool plan (done.map committedEntry) (fp :: rest) =
      fileWrites root (materializationID H plan) fp ++
        .manifest (materializationID H plan) (newManifest H tool plan .writing
          (done.map committedEntry ++ [committedEntry fp] ++ rest.map backupEntry)) ::
        commitLoop H root tool plan ((done ++ [fp]).map committedEntry) rest := by
  rw [commitLoop, map_append, map_singleton]

lemma Reached.commitAll (h : Reached H root tool plan d d₁ .writing done rest) : Reached H root tool plan d
      (d₁.applyAll (commitLoop H root tool plan (done.map committedEntry) rest)) .writing plan.files [] := by
  induction rest generalizing done d₁ with
  | nil =>
    have hdone : plan.files = done := by rw [h.split, append_nil]
    rw [hdone]
    exact h
  | cons fp rest ih =>
    rw [commitLoop_cons, applyAll_append, applyAll_cons]
    exact ih h.commit

/-- A prefix of the writes of a file that stops before the file itself. -/
lemma take_fileWrites (d₁ : Disk) (hk : k < (fileWrites root id fp).length) :
    (d₁.applyAll ((fileWrites root id fp).take k)).files = d₁.files ∧
      (d₁.applyAll ((fileWrites root id fp).take k)).manifests = d₁.manifests := by
  unfold fileWrites at hk ⊢
  cases hc : fp.created with
  | true =>
    rw [hc] at hk
    simp only [if_true, nil_append, length_singleton] at hk ⊢
    have hzero : k = 0 := by omega
    rw [hzero]
    exact ⟨rfl, rfl⟩
  | false =>
    rw [hc] at hk
    simp only [Bool.false_eq_true, if_false, singleton_append, length_cons, length_nil] at hk ⊢
    have hcase : k = 0 ∨ k = 1 := by omega
    rcases hcase with rfl | rfl
    · exact ⟨rfl, rfl⟩
    · exact ⟨rfl, rfl⟩

lemma getLast_fileWrites (id : GoString) (fp : FilePlan) :
    (fileWrites root id fp).getLast? = some (.target (target root fp.path) fp.transformed) := by
  unfold fileWrites
  simp

/-- A prefix of the commit loop that does not stop behind the write of a file has marked what it wrote. -/
lemma Reached.commitPrefix (h : Reached H root tool plan d d₁ .writing done rest) (k : ℕ)
    (hstop : ∀ p b, ((commitLoop H root tool plan (done.map committedEntry) rest).take k).getLast? ≠ some
      (.target p b)) : ∃ done' rest', Reached H root tool plan d
      (d₁.applyAll ((commitLoop H root tool plan (done.map committedEntry) rest).take k)) .writing done' rest' := by
  induction rest generalizing done d₁ k with
  | nil => exact ⟨done, [], by rw [commitLoop, take_nil]; exact h⟩
  | cons fp rest ih =>
    rw [commitLoop_cons] at hstop ⊢
    set ws := fileWrites root (materializationID H plan) fp with hws
    rcases lt_trichotomy k ws.length with hlt | heq | hgt
    · -- only the backup, if anything
      rw [take_append_of_le_length hlt.le]
      have hsame := take_fileWrites d₁ hlt
      exact ⟨done, fp :: rest, h.split, by rw [hsame.2]; exact h.manifest, by rw [hsame.1]; exact h.files⟩
    · -- the file is written and not marked: excluded
      rw [heq, take_append_of_le_length le_rfl, take_length, hws, getLast_fileWrites] at hstop
      exact absurd rfl (hstop _ _)
    obtain ⟨j, rfl⟩ : ∃ j, k = ws.length + (j + 1) := ⟨k - ws.length - 1, by omega⟩
    rw [take_length_add_append, take_succ_cons] at hstop ⊢
    rw [applyAll_append, applyAll_cons]
    refine ih h.commit j fun p b hlast => hstop p b ?_
    rw [getLast?_append, getLast?_cons, hlast]
    rfl

lemma reached_start (d : Disk) : Reached H root tool plan d
      (d.apply (.manifest (materializationID H plan)
        (newManifest H tool plan .writing (plan.files.map backupEntry)))) .writing [] plan.files where
  split := rfl
  manifest := lookup_apply_manifest _ _ _
  files := rfl

lemma reached_end (H : Sha256) (root : Path) (tool : GoString) (plan : Plan) (d : Disk) :
    Reached H root tool plan d (d.applyAll (materializeWrites H root tool plan)) .committed plan.files [] := by
  have hall : Reached H root tool plan d _ .writing plan.files [] := (reached_start d).commitAll
  unfold materializeWrites
  rw [applyAll_cons, applyAll_append, applyAll_cons]
  exact ⟨(append_nil _).symm, by rw [map_nil, append_nil]; exact lookup_apply_manifest _ _ _, hall.files⟩

/-- **Behind a prefix that does not stop with the write of a file**, manifest and tree agree. -/
theorem reached_prefix (d : Disk) (hk : 0 < k)
    (hstop : ∀ p b, ((materializeWrites H root tool plan).take k).getLast? ≠ some (.target p b)) :
    ∃ state done rest, Reached H root tool plan d
      (d.applyAll ((materializeWrites H root tool plan).take k)) state done rest := by
  obtain ⟨j, rfl⟩ : ∃ j, k = j + 1 := ⟨k - 1, by omega⟩
  set loop := commitLoop H root tool plan [] plan.files with hloop
  rcases le_or_gt j loop.length with hle | hgt
  · have htake : (materializeWrites H root tool plan).take (j + 1) =
        .manifest (materializationID H plan) (newManifest H tool plan .writing (plan.files.map backupEntry)) ::
          loop.take j := by
      rw [materializeWrites, take_succ_cons, take_append_of_le_length hle]
    rw [htake] at hstop ⊢
    have hlast : ∀ p b, (loop.take j).getLast? ≠ some (.target p b) := by
      intro p b he
      apply hstop p b
      rw [getLast?_cons, he]
      rfl
    obtain ⟨done, rest, hr⟩ := (reached_start d).commitPrefix j hlast
    exact ⟨.writing, done, rest, hr⟩
  have hall : (materializeWrites H root tool plan).take (j + 1) = materializeWrites H root tool plan := by
    apply take_of_length_le
    rw [materializeWrites, length_cons, length_append, length_singleton, ← hloop]
    omega
  rw [hall]
  exact ⟨.committed, plan.files, [], reached_end H root tool plan d⟩

/-! ## Revert -/

/-- The digests of an entry were taken from `d`. -/
def Recorded (H : Sha256) (root : Path) (d : Disk) (bf : BackupFile) : Prop :=
  if bf.created then d.files (target root bf.path) = none
  else ∃ b, d.files (target root bf.path) = some b ∧ hashBytes H b = bf.originalDigest

/-- The outcomes of one file of a revert: it is skipped, it is a conflict, or its path gets what the
backup holds under the original's digest. -/
lemma revertFile_cases (H : Sha256) (root : Path) (id : GoString) (acc : Disk × RevertResult) (bf : BackupFile) :
    (bf.committed = false ∧ revertFile H root id acc bf = acc) ∨
      (bf.committed = true ∧ revertFile H root id acc bf = (acc.1, acc.2.conflict bf.path)) ∨
      bf.committed = true ∧ ∃ v, revertFile H root id acc bf =
          ({ acc.1 with files := update acc.1.files (target root bf.path) v }, acc.2.restored) ∧
        (bf.created = true → v = none) ∧
        (bf.created = false → ∃ b, v = some b ∧ hashBytes H b = bf.originalDigest) := by
  unfold revertFile
  cases hcom : bf.committed with
  | false => exact .inl ⟨rfl, rfl⟩
  | true =>
    refine .inr ?_
    simp only [Bool.not_true, Bool.false_eq_true, if_false, true_and]
    split
    · exact .inl rfl
    split
    · exact .inl rfl
    cases hcr : bf.created with
    | true => exact .inr ⟨none, rfl, fun _ => rfl, nofun⟩
    | false =>
      simp only [Bool.false_eq_true, if_false]
      split
      · exact .inl rfl
      split
      · exact .inl rfl
      · rename_i orig _ hhash
        exact .inr ⟨some orig, rfl, nofun, fun _ => ⟨orig, rfl, not_not.1 hhash⟩⟩

/-- Conflicts stay. -/
lemma conflicts_foldl {bfs : List BackupFile}
    (h : (bfs.foldl (revertFile H root id) acc).2.conflicts = []) : acc.2.conflicts = [] := by
  induction bfs generalizing acc with
  | nil => exact h
  | cons bf bfs ih =>
    have hstep := ih h
    rcases revertFile_cases H root id acc bf with ⟨-, he⟩ | ⟨-, he⟩ | ⟨-, v, he, -⟩
    · rwa [he] at hstep
    · rw [he] at hstep
      exact absurd hstep (by simp [RevertResult.conflict])
    · rwa [he] at hstep

/-- **A revert without conflict** gives every path it is responsible for its recorded content and leaves
the others alone. -/
theorem revert_files {bfs : List BackupFile} (hrec : ∀ bf ∈ bfs, Recorded H root d₀ bf)
    (h : (bfs.foldl (revertFile H root id) acc).2.conflicts = []) (p : Path) :
    ((∃ bf ∈ bfs, bf.committed = true ∧ target root bf.path = p) →
      (bfs.foldl (revertFile H root id) acc).1.files p = d₀.files p) ∧
    ((∀ bf ∈ bfs, bf.committed = true → target root bf.path ≠ p) →
      (bfs.foldl (revertFile H root id) acc).1.files p = acc.1.files p) := by
  induction bfs generalizing acc with
  | nil => exact ⟨fun ⟨_, hm, _⟩ => absurd hm not_mem_nil, fun _ => rfl⟩
  | cons bf bfs ih =>
    rw [foldl_cons] at h ⊢
    obtain ⟨hin, hout⟩ := ih (fun x hx => hrec x (mem_cons_of_mem _ hx)) h
    have hstep := conflicts_foldl h
    rcases revertFile_cases H root id acc bf with ⟨hc, he⟩ | ⟨-, he⟩ | ⟨hc, v, he, hcr, horig⟩
    · rw [he] at hin hout ⊢
      refine ⟨?_, fun hno => hout fun x hx => hno x (mem_cons_of_mem _ hx)⟩
      rintro ⟨x, hx, hxc, hxp⟩
      rcases mem_cons.1 hx with rfl | hm
      · rw [hc] at hxc
        cases hxc
      · exact hin ⟨x, hm, hxc, hxp⟩
    · rw [he] at hstep
      exact absurd hstep (by simp [RevertResult.conflict])
    -- the path holds the recorded content from here on
    have hv : v = d₀.files (target root bf.path) := by
      have hr := hrec bf mem_cons_self
      unfold Recorded at hr
      cases hcreated : bf.created with
      | true =>
        rw [if_pos hcreated] at hr
        rw [hcr hcreated, hr]
      | false =>
        rw [hcreated] at hr
        obtain ⟨b, hb, hdig⟩ : ∃ b, d₀.files (target root bf.path) = some b ∧
            hashBytes H b = bf.originalDigest := by simpa using hr
        obtain ⟨b', rfl, hdig'⟩ := horig hcreated
        rw [hb, hashBytes_injective H (hdig'.trans hdig.symm)]
    rw [he] at hin hout ⊢
    by_cases hlater : ∃ x ∈ bfs, x.committed = true ∧ target root x.path = p
    · refine ⟨fun _ => hin hlater, fun hno => ?_⟩
      obtain ⟨x, hx, hxc, hxp⟩ := hlater
      exact absurd hxp (hno x (mem_cons_of_mem _ hx) hxc)
    have hkeep := hout fun x hx hxc hxp => hlater ⟨x, hx, hxc, hxp⟩
    refine ⟨?_, fun hno => ?_⟩
    · rintro ⟨x, hx, hxc, hxp⟩
      rcases mem_cons.1 hx with rfl | hm
      · rw [hkeep, ← hxp, ← hv]
        exact update_self ..
      · exact absurd ⟨x, hm, hxc, hxp⟩ hlater
    · rw [hkeep]
      exact update_of_ne (hno bf mem_cons_self hc).symm ..

/-! ## The precondition -/

lemma checkFile_recorded (h : checkFile H d root fp = .ok ()) : Recorded H root d (backupEntry fp) := by
  unfold checkFile at h
  unfold Recorded backupEntry
  cases hc : fp.created with
  | true =>
    rw [hc] at h
    simp only [if_true] at h ⊢
    split at h
    · cases h
    · rename_i hnone
      simpa using hnone
  | false =>
    rw [hc] at h
    simp only [Bool.false_eq_true, if_false] at h ⊢
    split at h
    · cases h
    rename_i b hb
    split at h
    · cases h
    · rename_i hdig
      exact ⟨b, hb, not_not.1 hdig⟩

lemma checked (h : fps.forM (checkFile H d root) = .ok ()) : ∀ fp ∈ fps, checkFile H d root fp = .ok () := by
  induction fps with
  | nil => exact nofun
  | cons gp fps ih =>
    have hcons : (gp :: fps).forM (checkFile H d root) =
        (checkFile H d root gp >>= fun _ => fps.forM (checkFile H d root)) := rfl
    rw [hcons] at h
    cases hg : checkFile H d root gp with
    | error e =>
      rw [hg] at h
      cases h
    | ok u =>
      rw [hg] at h
      intro fp hfp
      rcases mem_cons.1 hfp with rfl | hm
      · exact hg
      · exact ih h fp hm

lemma materialize_ok {res} (h : materialize H d root tool plan = .ok (d₁, res)) :
    plan.files.forM (checkFile H d root) = .ok () ∧ d₁ = d.applyAll (materializeWrites H root tool plan) ∧
      res.materializationID = materializationID H plan := by
  unfold materialize at h
  cases hc : plan.files.forM (checkFile H d root) with
  | error e =>
    rw [hc] at h
    cases h
  | ok u =>
    rw [hc] at h
    obtain ⟨rfl, rfl⟩ := Prod.ext_iff.1 (Except.ok.inj h)
    exact ⟨rfl, rfl, rfl⟩

variable {state : MaterializationState}

/-- The entries of a manifest were recorded from the tree that passed the check. -/
lemma Reached.recorded (h : Reached H root tool plan d d₁ state done rest)
    (hcheck : plan.files.forM (checkFile H d root) = .ok ()) :
    ∀ bf ∈ done.map committedEntry ++ rest.map backupEntry, Recorded H root d bf := by
  intro bf hbf
  have hfp : ∃ fp ∈ plan.files, Recorded H root d (backupEntry fp) → Recorded H root d bf := by
    rw [h.split]
    rcases mem_append.1 hbf with hm | hm
    · obtain ⟨fp, hfp, rfl⟩ := mem_map.1 hm
      exact ⟨fp, mem_append_left _ hfp, id⟩
    · obtain ⟨fp, hfp, rfl⟩ := mem_map.1 hm
      exact ⟨fp, mem_append_right _ hfp, id⟩
  obtain ⟨fp, hm, himp⟩ := hfp
  exact himp (checkFile_recorded (checked hcheck fp hm))

/-- A revert without conflict from where manifest and tree agree restores every file of the plan. -/
lemma Reached.restored (h : Reached H root tool plan d d₁ state done rest)
    (hcheck : plan.files.forM (checkFile H d root) = .ok ())
    (hconf : ((done.map committedEntry ++ rest.map backupEntry).foldl (revertFile H root id) (d₁, {})).2.conflicts = [])
    (p : Path) : ((done.map committedEntry ++ rest.map backupEntry).foldl (revertFile H root id) (d₁, {})).1.files p =
      d.files p := by
  obtain ⟨hin, hout⟩ := revert_files (h.recorded hcheck) hconf p
  by_cases hp : ∃ fp ∈ done, target root fp.path = p
  · obtain ⟨fp, hfp, rfl⟩ := hp
    exact hin ⟨committedEntry fp, mem_append_left _ (mem_map_of_mem hfp), rfl, rfl⟩
  -- not written: the marked entries are those of `done`
  have hother : ∀ fp ∈ done, target root fp.path ≠ p := fun fp hfp he => hp ⟨fp, hfp, he⟩
  have hkeep := hout ?_
  · rw [hkeep, h.files, writeTargets_other hother]
  intro bf hbf hc
  rcases mem_append.1 hbf with hm | hm
  · obtain ⟨fp, hfp, rfl⟩ := mem_map.1 hm
    exact hother fp hfp
  · obtain ⟨fp, -, rfl⟩ := mem_map.1 hm
    cases hc

/-- What the check says about a file of the plan. -/
lemma created_absent (hcheck : plan.files.forM (checkFile H d root) = .ok ()) (hm : fp ∈ plan.files)
    (hc : fp.created = true) : d.files (target root fp.path) = none := by
  have hr := checkFile_recorded (checked hcheck fp hm)
  unfold Recorded at hr
  rwa [if_pos (show (backupEntry fp).created = true from hc)] at hr

lemma original_found (hcheck : plan.files.forM (checkFile H d root) = .ok ()) (hm : fp ∈ plan.files)
    (hc : fp.created = false) : ∃ b, d.files (target root fp.path) = some b ∧ hashBytes H b = fp.originalDigest := by
  have hr := checkFile_recorded (checked hcheck fp hm)
  unfold Recorded at hr
  rwa [if_neg (show ¬(backupEntry fp).created = true by rw [show (backupEntry fp).created = false from hc]; nofun)] at hr

/-! ## Interrupted materialization -/

lemma revert_eq (H : Sha256) (root : Path) (h : d'.manifests.lookup id = some m) :
    ∃ d₂, revert H d' root id = some (d₂, (m.files.foldl (revertFile H root id) (d', {})).2) ∧
      d₂.files = (m.files.foldl (revertFile H root id) (d', {})).1.files := by
  unfold revert
  rw [h]
  exact ⟨_, rfl, rfl⟩

/-- `recover` has a line for every manifest. -/
lemma mem_recover (h : d'.manifests.lookup id = some m) : recoverStatus m ∈ recover d' := by
  have hkey : id ∈ d'.manifests.keys := by
    apply AList.mem_keys.1
    rw [← AList.lookup_isSome, h]
    rfl
  exact mem_filterMap.2 ⟨id, mem_sortStrings.2 hkey, by rw [h]; rfl⟩

/-- A manifest on disk was there or is among the writes. -/
lemma lookup_applyAll {ws} (h : (d'.applyAll ws).manifests.lookup id = some m) :
    Write.manifest id m ∈ ws ∨ d'.manifests.lookup id = some m := by
  induction ws generalizing d' with
  | nil => exact .inr h
  | cons w ws ih =>
    rcases ih h with hm | hm
    · exact .inl (mem_cons_of_mem _ hm)
    cases w with
    | manifest id' m' =>
      have hl : (d'.apply (.manifest id' m')).manifests.lookup id =
          if id = id' then some m' else d'.manifests.lookup id := Table.lookup_insert_if ..
      rw [hl] at hm
      split at hm
      · rename_i hid
        cases hm
        rw [hid]
        exact .inl mem_cons_self
      · exact .inr hm
    | backup _ _ _ | target _ _ => exact .inr hm

/-- A manifest written by a run of the plan. -/
structure Own (H : Sha256) (plan : Plan) (m : BackupManifest) : Prop where
  id : m.materializationID = materializationID H plan
  state : m.state = .writing ∨ ∀ bf ∈ m.files, bf.committed = true

lemma own_commitLoop {done rest} (h : Write.manifest id m ∈ commitLoop H root tool plan done rest) : Own H plan m := by
  induction rest generalizing done with
  | nil => cases h
  | cons fp rest ih =>
    unfold commitLoop at h
    rcases mem_append.1 h with hw | hw
    · unfold fileWrites at hw
      split at hw <;> simp at hw
    rcases mem_cons.1 hw with he | hm
    · obtain ⟨-, rfl⟩ := Write.manifest.inj he
      exact ⟨rfl, .inl rfl⟩
    · exact ih hm

lemma own_writes (h : Write.manifest id m ∈ materializeWrites H root tool plan) : Own H plan m := by
  unfold materializeWrites at h
  rcases mem_cons.1 h with he | hw
  · obtain ⟨-, rfl⟩ := Write.manifest.inj he
    exact ⟨rfl, .inl rfl⟩
  rcases mem_append.1 hw with hw | hw
  · exact own_commitLoop hw
  obtain ⟨-, rfl⟩ := Write.manifest.inj (mem_singleton.1 hw)
  refine ⟨rfl, .inr fun bf hbf => ?_⟩
  obtain ⟨fp, -, rfl⟩ := mem_map.1 hbf
  rfl

/-- The manifest that a started run has left on disk: the first write replaces an older one. -/
lemma own_partway (hk : 0 < k)
    (h : (d.applyAll ((materializeWrites H root tool plan).take k)).manifests.lookup (materializationID H
      plan) = some m) : Own H plan m := by
  obtain ⟨j, rfl⟩ : ∃ j, k = j + 1 := ⟨k - 1, by omega⟩
  rw [materializeWrites, take_succ_cons, applyAll_cons] at h
  rcases lookup_applyAll h with hm | hm
  · have hin : Write.manifest (materializationID H plan) m ∈ materializeWrites H root tool plan :=
      mem_cons_of_mem _ (mem_of_mem_take hm)
    exact own_writes hin
  rw [lookup_apply_manifest] at hm
  cases hm
  exact ⟨rfl, .inl rfl⟩

lemma Own.recoveryReq (h : Own H plan m) (hsome : ∃ bf ∈ m.files, bf.committed = false) :
    (recoverStatus m).materializationID = materializationID H plan ∧ (recoverStatus m).state = .recoveryReq := by
  obtain ⟨bf, hbf, hfalse⟩ := hsome
  have hwriting : m.state = .writing := by
    rcases h.state with hw | hall
    · exact hw
    · rw [hall bf hbf] at hfalse
      cases hfalse
  have hcount : m.files.countP (fun f => f.committed) < m.files.length := by
    rcases (countP_le_length (p := fun f : BackupFile => f.committed) (l := m.files)).lt_or_eq with hlt | he
    · exact hlt
    have hbad := countP_eq_length.1 he bf hbf
    rw [hfalse] at hbad
    cases hbad
  exact ⟨h.id, if_pos ⟨hwriting, hcount⟩⟩

/-- **An interrupted materialization is recoverable**: behind any prefix of its writes that has the manifest,
`recover` asks for recovery of it as long as a file is not marked as committed; and if the prefix
does not end with the write of a file, a revert reports a conflict or leaves every file of the plan as it
was. -/
theorem interrupted_recoverable (H : Sha256) (root : Path) (tool : GoString) (plan : Plan) (d : Disk)
    (hcheck : plan.files.forM (checkFile H d root) = .ok ()) (k : ℕ) (hk : 0 < k) :
    (∀ m, (d.applyAll ((materializeWrites H root tool plan).take k)).manifests.lookup
        (materializationID H plan) = some m → (∃ bf ∈ m.files, bf.committed = false) →
      ∃ st ∈ recover (d.applyAll ((materializeWrites H root tool plan).take k)),
        st.materializationID = materializationID H plan ∧ st.state = .recoveryReq) ∧
    ((∀ p b, ((materializeWrites H root tool plan).take k).getLast? ≠ some (.target p b)) →
      ∃ d₂ r, revert H (d.applyAll ((materializeWrites H root tool plan).take k)) root
          (materializationID H plan) = some (d₂, r) ∧
        (r.conflicts ≠ [] ∨ ∀ fp ∈ plan.files, (fp.created = true → d₂.files (target root fp.path) = none) ∧
          (fp.created = false → d₂.files (target root fp.path) = d.files (target root fp.path)))) := by
  constructor
  · intro m hm hsome
    exact ⟨recoverStatus m, mem_recover hm, (own_partway hk hm).recoveryReq hsome⟩
  intro hstop
  obtain ⟨state, done, rest, hr⟩ := reached_prefix d hk hstop
  obtain ⟨d₂, hrev, hfiles⟩ := revert_eq H root hr.manifest
  refine ⟨d₂, _, hrev, ?_⟩
  by_cases hconf : ((done.map committedEntry ++ rest.map backupEntry).foldl
      (revertFile H root (materializationID H plan))
      (d.applyAll ((materializeWrites H root tool plan).take k), {})).2.conflicts = []
  · refine .inr fun fp hfp => ?_
    have hback : d₂.files (target root fp.path) = d.files (target root fp.path) := by
      rw [hfiles]
      exact hr.restored hcheck hconf _
    exact ⟨fun hc => hback.trans (created_absent hcheck hfp hc), fun _ => hback⟩
  · exact .inl hconf

/-- A tree with one file, and nothing in the state directory. -/
def oneFile (path content : GoString) : Disk where
  files := update (fun _ => none) (target [] path) (some content)
  plans _ := none
  planFiles _ := none
  manifests := ∅
  objects _ := none

/-- A plan that turns the file `a.go` from `A` into `T`. -/
def onePlan : Plan := ⟨str "p", str "q", [modifiedFile .plain (str "a.go") (str "A") (str "T")]⟩

/-- A tree with two files. -/
def twoFiles : Disk :=
  { oneFile (str "a.go") (str "A") with
    files := update (oneFile (str "a.go") (str "A")).files (target [] (str "b.go")) (some (str "B")) }

/-- A plan that changes both files and generates a third. -/
def twoPlan : Plan := ⟨str "p", str "q", [modifiedFile .plain (str "a.go") (str "A") (str "T"),
  modifiedFile .plain (str "b.go") (str "B") (str "U"), createdFile .plain (str "c.go") (str "C")]⟩

/-- The tree after the first file is written and marked, and the second is backed up. -/
def twoStopped : Disk := twoFiles.applyAll ((materializeWrites .plain [] (str "v1") twoPlan).take 5)

theorem interrupted_recoverable_demo : (∃ st ∈ recover twoStopped,
      st.materializationID = materializationID .plain twoPlan ∧ st.state = .recoveryReq) ∧
    ∃ d₂ r, revert .plain twoStopped [] (materializationID .plain twoPlan) = some (d₂, r) ∧
      (r.conflicts ≠ [] ∨ ∀ fp ∈ twoPlan.files, (fp.created = true → d₂.files (target [] fp.path) = none) ∧
        (fp.created = false → d₂.files (target [] fp.path) = twoFiles.files (target [] fp.path))) := by
  have h := interrupted_recoverable .plain [] (str "v1") twoPlan twoFiles (by decide +kernel) 5 (by decide)
  have hm : twoStopped.manifests.lookup (materializationID .plain twoPlan) =
      some (newManifest .plain (str "v1") twoPlan .writing ([committedEntry
        (modifiedFile .plain (str "a.go") (str "A") (str "T"))] ++ (twoPlan.files.drop 1).map backupEntry)) := by
    decide +kernel
  have hlast : ((materializeWrites .plain [] (str "v1") twoPlan).take 5).getLast? = some (.backup
      (materializationID .plain twoPlan) (digestFileName (hashBytes .plain (str "B"))) (str "B")) := by
    decide +kernel
  refine ⟨h.1 _ hm ⟨backupEntry (modifiedFile .plain (str "b.go") (str "B") (str "U")), by decide +kernel, rfl⟩,
    h.2 fun p b he => ?_⟩
  rw [hlast] at he
  cases he

/-- Stopped between the write of the file and that of the manifest: the revert reports no conflict,
marks the materialization as reverted, and the file keeps its new content. -/
theorem unmarked_file : ((materializeWrites .plain [] (str "v1") onePlan).take 3).getLast? =
        some (.target [str "a.go"] (str "T")) ∧ ((revert .plain ((oneFile (str "a.go") (str "A")).applyAll
          ((materializeWrites .plain [] (str "v1") onePlan).take 3)) []
          (materializationID .plain onePlan)).map fun out => (out.2, out.1.files [str "a.go"],
          (out.1.manifests.lookup (materializationID .plain onePlan)).map BackupManifest.state)) =
      some ({}, some (str "T"), some .reverted) := by
  decide

/-! ## Materialize, then revert -/

/-- Where a plan comes from, with the tree its originals were read from if it was loaded. -/
inductive Origin (H : Sha256) (root : Path) : Plan → Option Disk → Prop
  | built (format byFile : GoString → Option GoString) (edits : Table GoString (List PendingEdit))
      (created : Table GoString GoString) (id digest : GoString) :
      Origin H root ⟨id, digest, buildFilePlans H format byFile edits created⟩ none
  | loaded {d : Disk} {planID : GoString} {plan : Plan} (h : loadPlan H d root planID = .ok plan) :
      Origin H root plan (some d)

/-- The tree that a plan was loaded from held every file to be changed as the plan found it. -/
def FoundAsPlanned (H : Sha256) (root : Path) (plan : Plan) (tree : Option Disk) : Prop :=
  ∀ d ∈ tree, ∀ fp ∈ plan.files, fp.created = false →
    ∃ b, d.files (target root fp.path) = some b ∧ hashBytes H b = fp.originalDigest

lemma mem_mapM_ok {α β ε : Type} {f : α → Except ε β} {l : List α} {l'}
    (h : l.mapM f = .ok l') {y} (hy : y ∈ l') : ∃ x ∈ l, f x = .ok y := by
  induction l generalizing l' with
  | nil =>
    obtain rfl : [] = l' := Except.ok.inj h
    cases hy
  | cons x l ih =>
    rw [mapM_cons] at h
    cases hx : f x with
    | error e =>
      rw [hx] at h
      cases h
    | ok z =>
      rw [hx] at h
      cases hl : l.mapM f with
      | error e =>
        rw [hl] at h
        cases h
      | ok zs =>
        rw [hl] at h
        obtain rfl : z :: zs = l' := Except.ok.inj h
        rcases mem_cons.1 hy with rfl | hm
        · exact ⟨x, mem_cons_self, hx⟩
        · obtain ⟨x', hx', he⟩ := ih hl hm
          exact ⟨x', mem_cons_of_mem _ hx', he⟩

lemma loadFile_ok {planID fp gp} (h : loadFile H d root planID fp = .ok gp) :
    hashBytes H gp.transformed = gp.transformedDigest ∧ gp.path = fp.path ∧
      gp.original = (d.files (target root gp.path)).getD fp.original := by
  unfold loadFile at h
  split at h
  · cases h
  split at h
  · cases h
  rename_i b _ hdig
  obtain rfl := Except.ok.inj h
  exact ⟨not_not.1 hdig, rfl, rfl⟩

lemma mem_buildFilePlans {format byFile : GoString → Option GoString} {edits created}
    (h : fp ∈ buildFilePlans H format byFile edits created) :
    (∃ rel src formatted, fp = modifiedFile H rel src formatted) ∨ ∃ rel content, fp = createdFile H rel content := by
  unfold buildFilePlans at h
  rw [mem_insertionSort] at h
  rcases mem_append.1 h with hm | hm
  · obtain ⟨rel, -, hrel⟩ := mem_filterMap.1 hm
    obtain ⟨src, -, hsrc⟩ := Option.bind_eq_some_iff.1 hrel
    obtain ⟨formatted, -, he⟩ := Option.map_eq_some_iff.1 hsrc
    exact .inl ⟨rel, src, formatted, he.symm⟩
  · obtain ⟨rel, -, he⟩ := mem_map.1 hm
    exact .inr ⟨rel, _, he.symm⟩

lemma mem_loadPlan {planID} (h : loadPlan H d root planID = .ok plan) (hfp : fp ∈ plan.files) :
    ∃ gp, loadFile H d root planID gp = .ok fp := by
  unfold loadPlan at h
  split at h
  · cases h
  rename_i stored _
  cases hl : stored.files.mapM (loadFile H d root planID) with
  | error e =>
    rw [hl] at h
    cases h
  | ok fps =>
    rw [hl] at h
    obtain rfl := Except.ok.inj h
    obtain ⟨gp, -, hgp⟩ := mem_mapM_ok hl hfp
    exact ⟨gp, hgp⟩

/-- What is written has the digest that the plan records for it, wherever the plan comes from. -/
lemma Origin.transformed {tree} (h : Origin H root plan tree) :
    ∀ fp ∈ plan.files, hashBytes H fp.transformed = fp.transformedDigest := by
  intro fp hfp
  cases h with
  | built format byFile edits created id digest =>
    rcases mem_buildFilePlans hfp with ⟨rel, src, formatted, rfl⟩ | ⟨rel, content, rfl⟩ <;> rfl
  | loaded hload =>
    obtain ⟨gp, hgp⟩ := mem_loadPlan hload hfp
    exact (loadFile_ok hgp).1

/-- The originals in memory are those that the digests name. -/
lemma Origin.original {tree} (h : Origin H root plan tree) (hfound : FoundAsPlanned H root plan tree) :
    ∀ fp ∈ plan.files, fp.created = false → hashBytes H fp.original = fp.originalDigest := by
  intro fp hfp hc
  cases h with
  | built format byFile edits created id digest =>
    rcases mem_buildFilePlans hfp with ⟨rel, src, formatted, rfl⟩ | ⟨rel, content, rfl⟩
    · rfl
    · cases hc
  | @loaded d planID _ hload =>
    obtain ⟨gp, hgp⟩ := mem_loadPlan hload hfp
    obtain ⟨b, hb, hdig⟩ := hfound d rfl fp hfp hc
    rw [(loadFile_ok hgp).2.2, hb]
    exact hdig

/-! ### The backup -/

/-- The last file of a list that is backed up under a name; the object holds its original. -/
def lastBackup (fps : List FilePlan) (object : GoString) : Option FilePlan :=
  fps.reverse.find? fun fp => !fp.created && digestFileName fp.originalDigest == object

/-- The originals in memory are those that the digests name, as far as the backup keeps them: of the files
that share an object the last one counts. -/
def Kept (H : Sha256) (fps : List FilePlan) : Prop := ∀ fp ∈ fps, fp.created = false →
  ∀ gp ∈ lastBackup fps (digestFileName fp.originalDigest), hashBytes H gp.original = fp.originalDigest

/-- Files that lead to one path are not created and change nothing. -/
def Placed (root : Path) (fps : List FilePlan) : Prop := fps.Pairwise fun a b =>
  target root a.path = target root b.path → (a.created = false ∧ b.created = false) ∧
    a.transformedDigest = a.originalDigest ∧ b.transformedDigest = b.originalDigest

/-- The backup holds the originals of a list of files under the names of their digests. -/
def BackedUp (H : Sha256) (id : GoString) (d : Disk) (fps : List FilePlan) : Prop := ∀ fp ∈ fps, fp.created = false →
    ∃ b, d.objects (id, digestFileName fp.originalDigest) = some b ∧ hashBytes H b = fp.originalDigest

lemma lastBackup_snoc (fps : List FilePlan) (fp : FilePlan) (o : GoString) : lastBackup (fps ++ [fp]) o =
    if fp.created = false ∧ digestFileName fp.originalDigest = o then some fp else lastBackup fps o := by
  unfold lastBackup
  rw [reverse_append, reverse_singleton, singleton_append, find?_cons]
  cases hc : fp.created <;> by_cases ho : digestFileName fp.originalDigest = o <;>
    simp [ho, beq_eq_false_iff_ne.2]

lemma exists_lastBackup (h : fp ∈ fps) (hc : fp.created = false) :
    ∃ gp, lastBackup fps (digestFileName fp.originalDigest) = some gp :=
  Option.isSome_iff_exists.1 (find?_isSome.2 ⟨fp, mem_reverse.2 h, by simp [hc]⟩)

lemma objects_fileWrites (d : Disk) (root : Path) (id : GoString) (fp : FilePlan) (o : GoString) :
    (d.applyAll (fileWrites root id fp)).objects (id, o) =
      if fp.created = false ∧ digestFileName fp.originalDigest = o then some fp.original else d.objects (id, o) := by
  unfold fileWrites
  cases hc : fp.created with
  | true => rfl
  | false =>
    show update d.objects (id, digestFileName fp.originalDigest) (some fp.original) (id, o) = _
    by_cases ho : digestFileName fp.originalDigest = o
    · rw [ho, update_self, if_pos ⟨rfl, rfl⟩]
    · rw [update_of_ne (fun he => ho (Prod.ext_iff.1 he).2.symm), if_neg (fun h => ho h.2)]

/-- The objects after some files of the plan are written. -/
def Stored (H : Sha256) (plan : Plan) (d d₁ : Disk) (done : List FilePlan) : Prop := ∀ o,
  d₁.objects (materializationID H plan, o) =
    ((lastBackup done o).map FilePlan.original).or (d.objects (materializationID H plan, o))

lemma Stored.commit (h : Stored H plan d d₁ done) (root : Path) (fp : FilePlan) :
    Stored H plan d (d₁.applyAll (fileWrites root (materializationID H plan) fp)) (done ++ [fp]) := by
  intro o
  rw [objects_fileWrites, lastBackup_snoc]
  split
  · rfl
  · exact h o

lemma Stored.commitAll (h : Stored H plan d d₁ done) : Stored H plan d
    (d₁.applyAll (commitLoop H root tool plan (done.map committedEntry) rest)) (done ++ rest) := by
  induction rest generalizing done d₁ with
  | nil =>
    rw [append_nil]
    exact h
  | cons fp rest ih =>
    rw [commitLoop_cons, applyAll_append, applyAll_cons, show done ++ fp :: rest = done ++ [fp] ++ rest by simp]
    exact ih (h.commit root fp)

/-- **The backup is sound exactly if the originals in memory are**, where they are kept. -/
theorem backedUp_iff (root : Path) (tool : GoString) (d : Disk) : BackedUp H (materializationID H plan) (d.applyAll (materializeWrites H root tool plan))
    plan.files ↔ Kept H plan.files := by
  have hstored : Stored H plan d (d.applyAll (materializeWrites H root tool plan)) plan.files := by
    unfold materializeWrites
    rw [applyAll_cons, applyAll_append]
    -- the first and the last write leave the objects alone
    have hnone : Stored H plan d (d.apply (.manifest (materializationID H plan)
      (newManifest H tool plan .writing (plan.files.map backupEntry)))) [] := fun _ => rfl
    exact hnone.commitAll
  unfold BackedUp Kept
  refine forall_congr' fun fp => forall_congr' fun hfp => forall_congr' fun hc => ?_
  obtain ⟨gp, hgp⟩ := exists_lastBackup hfp hc
  rw [hstored, hgp]
  simp

/-- Nobody edits the listed files or the backup. -/
structure Untouched (root : Path) (id : GoString) (plan : Plan) (d₁ d₂ : Disk) : Prop where
  files : ∀ fp ∈ plan.files, d₂.files (target root fp.path) = d₁.files (target root fp.path)
  manifest : d₂.manifests.lookup id = d₁.manifests.lookup id
  objects : ∀ o, d₂.objects (id, o) = d₁.objects (id, o)

/-! ### The revert -/

/-- A revert meets no conflict at files that are as written and whose originals are backed up. -/
lemma no_conflict (hpl : fps.Pairwise fun a b => target root a.path = target root b.path →
      a.created = false ∧ b.transformedDigest = a.originalDigest)
    (hd : ∀ fp ∈ fps, hashBytes H fp.transformed = fp.transformedDigest)
    (hfiles : ∀ fp ∈ fps, acc.1.files (target root fp.path) = some fp.transformed) (hback : BackedUp H id acc.1 fps) :
    ((fps.map committedEntry).foldl (revertFile H root id) acc).2.conflicts = acc.2.conflicts := by
  induction fps generalizing acc with
  | nil => rfl
  | cons fp fps ih =>
    rw [pairwise_cons] at hpl
    have hfirst : ∃ v, revertFile H root id acc (committedEntry fp) =
        ({ acc.1 with files := update acc.1.files (target root fp.path) v }, acc.2.restored) ∧
        (fp.created = false → ∃ b, v = some b ∧ hashBytes H b = fp.originalDigest) := by
      have hcur := hfiles fp mem_cons_self
      have hdig := hd fp mem_cons_self
      unfold revertFile committedEntry backupEntry
      simp only [Bool.not_true, Bool.false_eq_true, if_false]
      rw [hcur]
      simp only [hdig, ne_eq, not_true_eq_false, if_false]
      cases hc : fp.created with
      | true => exact ⟨none, rfl, nofun⟩
      | false =>
        obtain ⟨b, hb, hbd⟩ := hback fp mem_cons_self hc
        simp only [Bool.false_eq_true, if_false]
        rw [hb]
        simp only [hbd, not_true_eq_false, if_false]
        exact ⟨some b, rfl, fun _ => ⟨b, rfl, hbd⟩⟩
    obtain ⟨v, hv, horig⟩ := hfirst
    rw [map_cons, foldl_cons, hv, ih hpl.2 (fun x hx => hd x (mem_cons_of_mem _ hx))]
    · rfl
    · intro x hx
      by_cases hp : target root fp.path = target root x.path
      · -- the original is what the other file wrote
        obtain ⟨hc, hsame⟩ := hpl.1 x hx hp
        obtain ⟨b, rfl, hb⟩ := horig hc
        show update acc.1.files (target root fp.path) (some b) (target root x.path) = _
        rw [hp, update_self, hashBytes_injective H (hb.trans (hsame.symm.trans (hd x (mem_cons_of_mem _ hx)).symm))]
      · rw [← hfiles x (mem_cons_of_mem _ hx)]
        exact update_of_ne (Ne.symm hp) ..
    · exact fun x hx => hback x (mem_cons_of_mem _ hx)

/-- A revert without conflict found every file as it was recorded to be written. -/
lemma found_written {s t : List FilePlan} {x : FilePlan}
    (h : (((s ++ x :: t).map committedEntry).foldl (revertFile H root id) acc).2.conflicts = []) :
    ((s.map committedEntry).foldl (revertFile H root id) acc).2.conflicts = [] ∧
      ∃ cur, ((s.map committedEntry).foldl (revertFile H root id) acc).1.files (target root x.path) = some cur ∧
        hashBytes H cur = x.transformedDigest := by
  rw [map_append, map_cons, foldl_append, foldl_cons] at h
  have hstep := conflicts_foldl h
  refine ⟨@conflicts_foldl _ _ _ _ [committedEntry x] hstep, ?_⟩
  set acc' := (s.map committedEntry).foldl (revertFile H root id) acc
  unfold revertFile committedEntry backupEntry at hstep
  simp only [Bool.not_true, Bool.false_eq_true, if_false] at hstep
  split at hstep
  · exact absurd hstep (by simp [RevertResult.conflict])
  rename_i cur hcur
  split at hstep
  · exact absurd hstep (by simp [RevertResult.conflict])
  rename_i hdig
  exact ⟨cur, hcur, not_not.1 hdig⟩

section Restored

variable (hcheck : plan.files.forM (checkFile H d root) = .ok ())
include hcheck

/-- The files of an accepted plan that lead to one path. -/
lemma same_original {a b : FilePlan} (ha : a ∈ plan.files) (hb : b ∈ plan.files)
    (hp : target root a.path = target root b.path) (hac : a.created = false) :
    b.created = false ∧ b.originalDigest = a.originalDigest := by
  obtain ⟨o, ho, hdig⟩ := original_found hcheck ha hac
  cases hbc : b.created with
  | true =>
    rw [hp, created_absent hcheck hb hbc] at ho
    cases ho
  | false =>
    obtain ⟨o', ho', hdig'⟩ := original_found hcheck hb hbc
    rw [hp, ho'] at ho
    cases ho
    exact ⟨rfl, hdig'.symm.trans hdig⟩

/-- The second of two files that lead to one path is met by the revert as the first left it. -/
lemma second_unchanged {d₂ : Disk} {s t : List FilePlan} {a b : FilePlan} (hsplit : plan.files = s ++ b :: t)
    (ha : a ∈ s) (hp : target root a.path = target root b.path)
    (hconf : ((plan.files.map committedEntry).foldl (revertFile H root id) (d₂, {})).2.conflicts = []) :
    a.created = false ∧ b.transformedDigest = a.originalDigest := by
  have hmem : ∀ x ∈ s, x ∈ plan.files := fun x hx => by rw [hsplit]; exact mem_append_left _ hx
  have hrec : ∀ bf ∈ s.map committedEntry, Recorded H root d bf := by
    intro bf hbf
    obtain ⟨x, hx, rfl⟩ := mem_map.1 hbf
    exact checkFile_recorded (checked hcheck x (hmem x hx))
  rw [hsplit] at hconf
  obtain ⟨hs, cur, hcur, hdig⟩ := found_written hconf
  rw [(revert_files hrec hs _).1 ⟨committedEntry a, mem_map_of_mem ha, rfl, hp⟩] at hcur
  cases hac : a.created with
  | true =>
    rw [← hp, created_absent hcheck (hmem a ha) hac] at hcur
    cases hcur
  | false =>
    obtain ⟨o, ho, hodig⟩ := original_found hcheck (hmem a ha) hac
    rw [← hp, ho] at hcur
    cases hcur
    exact ⟨rfl, hdig.symm.trans hodig⟩

/-- **A revert without conflict needs the files apart**, or unchanged. -/
theorem placed_of_reverted {d₂ : Disk} (hd : ∀ fp ∈ plan.files, hashBytes H fp.transformed = fp.transformedDigest)
    (hfiles : ∀ fp ∈ plan.files, d₂.files (target root fp.path) =
      writeTargets root d.files plan.files (target root fp.path))
    (hconf : ((plan.files.map committedEntry).foldl (revertFile H root id) (d₂, {})).2.conflicts = []) :
    Placed root plan.files := by
  refine pairwise_iff_forall_sublist.2 fun {a b} hab hp => ?_
  obtain ⟨r₁, r₂, hr, har, hbr⟩ := cons_sublist_iff.1 hab
  obtain ⟨s, t, rfl⟩ := append_of_mem har
  have hb : b ∈ t ++ r₂ := mem_append_right _ (singleton_sublist.1 hbr)
  have hsplit : plan.files = s ++ a :: (t ++ r₂) := by rw [hr, append_assoc, cons_append]
  have ha : a ∈ plan.files := by rw [hsplit]; exact mem_append_right _ mem_cons_self
  -- whatever leads to the path behind `a`
  have hlater : ∀ x ∈ t ++ r₂, target root a.path = target root x.path →
      a.created = false ∧ x.transformedDigest = a.originalDigest := by
    intro x hx hax
    obtain ⟨u, v, huv⟩ := append_of_mem hx
    refine second_unchanged hcheck (s := s ++ a :: u) (t := v) ?_ (mem_append_right _ mem_cons_self) hax hconf
    rw [hsplit, huv, append_assoc, cons_append]
  obtain ⟨hac, hbd⟩ := hlater b hb hp
  obtain ⟨hbc, hod⟩ := same_original hcheck ha (by rw [hsplit]; exact mem_append_right _ (mem_cons_of_mem _ hb)) hp hac
  refine ⟨⟨hac, hbc⟩, ?_, hbd.trans hod.symm⟩
  -- at `a` itself the path holds what the last file wrote, or the original
  obtain ⟨hs, cur, hcur, hdig⟩ := found_written (hsplit ▸ hconf)
  have hrec : ∀ bf ∈ s.map committedEntry, Recorded H root d bf := by
    intro bf hbf
    obtain ⟨x, hx, rfl⟩ := mem_map.1 hbf
    exact checkFile_recorded (checked hcheck x (by rw [hsplit]; exact mem_append_left _ hx))
  obtain ⟨hin, hout⟩ := revert_files hrec hs (target root a.path)
  by_cases hfirst : ∃ bf ∈ s.map committedEntry, bf.committed = true ∧ target root bf.path = target root a.path
  · obtain ⟨o, ho, hodig⟩ := original_found hcheck ha hac
    rw [hin hfirst, ho] at hcur
    cases hcur
    exact hdig.symm.trans hodig
  rw [hout fun bf hbf hc he => hfirst ⟨bf, hbf, hc, he⟩, hfiles a ha, hsplit] at hcur
  obtain ⟨x, hx, hxp, hw⟩ : ∃ x ∈ t ++ r₂, target root x.path = target root a.path ∧
      writeTargets root d.files (s ++ a :: (t ++ r₂)) (target root a.path) = some x.transformed := by
    rw [writeTargets, foldl_append, foldl_cons]
    exact writeTargets_last ⟨b, hb, hp.symm⟩
  rw [hw] at hcur
  cases hcur
  rw [← hdig, hd x (by rw [hsplit]; exact mem_append_right _ (mem_cons_of_mem _ hx))]
  exact (hlater x hx hxp.symm).2

/-- Files that lead to one path and change nothing carry the same content. -/
lemma Placed.written (h : Placed root plan.files) (hd : ∀ fp ∈ plan.files, hashBytes H fp.transformed = fp.transformedDigest)
    (hfp : fp ∈ plan.files) :
    writeTargets root d.files plan.files (target root fp.path) = some fp.transformed := by
  have hsame : ∀ a ∈ plan.files, ∀ b ∈ plan.files, target root a.path = target root b.path →
      a.transformed = b.transformed := by
    have hsymm : Std.Symm fun a b : FilePlan => target root a.path = target root b.path →
        a.transformed = b.transformed := ⟨fun _ _ hr he => (hr he.symm).symm⟩
    have hpair : plan.files.Pairwise fun a b => target root a.path = target root b.path →
        a.transformed = b.transformed := by
      refine h.imp_of_mem fun {a b} ha hb hab hp => ?_
      obtain ⟨⟨hac, -⟩, ha', hb'⟩ := hab hp
      apply hashBytes_injective H
      rw [hd a ha, hd b hb, ha', hb', (same_original hcheck ha hb hp hac).2]
    exact fun a ha b hb => hpair.forall_of_forall (fun _ _ _ => rfl) ha hb
  obtain ⟨x, hx, hxp, hw⟩ : ∃ x ∈ plan.files, target root x.path = target root fp.path ∧
      writeTargets root d.files plan.files (target root fp.path) = some x.transformed :=
    writeTargets_last ⟨fp, hfp, rfl⟩
  rw [hw, hsame x hx fp hfp hxp]

end Restored

/-- **Materialize, then revert.** Take a plan built by the planner or loaded from disk, any tree that
`materialize` accepts, and let nobody edit the listed files afterwards. The revert reports no conflict, every
file is as it was just before and every object of the backup has the digest it is recorded under, if and
only if the originals in memory that the backup keeps are those the digests name, and no path is listed twice,
unless to be left as it is. -/
theorem materialize_revert (H : Sha256) (root : Path) (tool : GoString) (plan : Plan) (tree : Option Disk)
    (horigin : Origin H root plan tree) (d d₁ d₂ : Disk) (res : MaterializeResult)
    (hmat : materialize H d root tool plan = .ok (d₁, res)) (hun : Untouched root res.materializationID plan d₁ d₂) :
    ((∃ d₃ r, revert H d₂ root res.materializationID = some (d₃, r) ∧ r.conflicts = [] ∧ ∀ fp ∈ plan.files,
        (fp.created = false → d₃.files (target root fp.path) = d.files (target root fp.path)) ∧
        (fp.created = true → d₃.files (target root fp.path) = none)) ∧
    ∃ m, d₂.manifests.lookup res.materializationID = some m ∧ ∀ bf ∈ m.files, bf.created = false →
        ∃ b, d₂.objects (res.materializationID, bf.backupObject) = some b ∧ hashBytes H b = bf.originalDigest) ↔
    Kept H plan.files ∧ Placed root plan.files := by
  obtain ⟨hcheck, rfl, hid⟩ := materialize_ok hmat
  rw [hid] at hun ⊢
  have hend := reached_end H root tool plan d
  have hdig := horigin.transformed
  have hman : d₂.manifests.lookup (materializationID H plan) =
      some (newManifest H tool plan .committed (plan.files.map committedEntry)) := by
    rw [hun.manifest, hend.manifest, map_nil, append_nil]
  have hfiles : ∀ fp ∈ plan.files, d₂.files (target root fp.path) =
      writeTargets root d.files plan.files (target root fp.path) := by
    intro fp hfp
    rw [hun.files fp hfp, hend.files]
  have hback : BackedUp H (materializationID H plan) d₂ plan.files ↔ Kept H plan.files := by
    rw [← backedUp_iff root tool d]
    unfold BackedUp
    simp only [hun.objects]
  obtain ⟨d₃, hrev, hrest⟩ := revert_eq H root hman
  rw [hman, hrev]
  constructor
  · rintro ⟨⟨_, _, hsome, hconf, -⟩, m, hm, hobj⟩
    obtain ⟨rfl, rfl⟩ := Prod.ext_iff.1 (Option.some.inj hsome)
    obtain rfl := Option.some.inj hm
    exact ⟨hback.1 fun fp hfp hc => hobj (committedEntry fp) (mem_map_of_mem hfp) hc,
      placed_of_reverted hcheck hdig hfiles hconf⟩
  rintro ⟨hkept, hplaced⟩
  have hconf : ((plan.files.map committedEntry).foldl (revertFile H root (materializationID H plan))
      (d₂, {})).2.conflicts = [] := by
    refine no_conflict ?_ hdig (fun fp hfp => (hfiles fp hfp).trans (hplaced.written hcheck hdig hfp)) (hback.2 hkept)
    refine hplaced.imp_of_mem fun {a b} ha hb hab hp => ?_
    obtain ⟨⟨hac, -⟩, -, hbd⟩ := hab hp
    exact ⟨hac, hbd.trans (same_original hcheck ha hb hp hac).2⟩
  refine ⟨⟨d₃, _, rfl, hconf, fun fp hfp => ?_⟩, _, rfl, fun bf hbf hc => ?_⟩
  · have hrec : ∀ bf ∈ plan.files.map committedEntry, Recorded H root d bf := fun bf hbf =>
      hend.recorded hcheck bf (mem_append_left _ hbf)
    have hsame : d₃.files (target root fp.path) = d.files (target root fp.path) := by
      rw [hrest]
      exact (revert_files hrec hconf _).1 ⟨committedEntry fp, mem_map_of_mem hfp, rfl, rfl⟩
    exact ⟨fun _ => hsame, fun hc => hsame.trans (created_absent hcheck hfp hc)⟩
  · obtain ⟨fp, hfp, rfl⟩ := mem_map.1 hbf
    exact hback.2 hkept fp hfp hc

lemma digestFileName_hashBytes (b : GoString) : digestFileName (hashBytes H b) = hexEncode (H.sum b) ++ str ".go" := by
  have hpre : trimPrefix (hashBytes H b) (str "sha256:") = hexEncode (H.sum b) := by
    unfold trimPrefix hasPrefix hashBytes
    rw [ isPrefixOf_iff_prefix.2 (prefix_append ..), if_pos rfl]
    exact drop_left
  rw [digestFileName, hpre]

/-- Files with one backup name have one content. -/
lemma digestFileName_inj {a b} (h : digestFileName (hashBytes H a) = digestFileName (hashBytes H b)) : a = b := by
  rw [digestFileName_hashBytes, digestFileName_hashBytes] at h
  exact H.injective (hexEncode_injective (append_cancel_right h))

/-- A plan straight from the planner, or loaded while every listed file was as planned, keeps its originals. -/
theorem Origin.kept {tree} (h : Origin H root plan tree) (hfound : FoundAsPlanned H root plan tree)
    (hcheck : plan.files.forM (checkFile H d root) = .ok ()) : Kept H plan.files := by
  intro fp hfp hc gp hgp
  have hm : gp ∈ plan.files := mem_reverse.1 (mem_of_find?_eq_some hgp)
  have hgood := find?_some hgp
  simp only [Bool.and_eq_true, Bool.not_eq_true', beq_iff_eq] at hgood
  obtain ⟨b, -, hb⟩ := original_found hcheck hfp hc
  have horig := h.original hfound gp hm hgood.1
  rw [horig]
  have hname := hgood.2
  rw [← horig, ← hb] at hname
  rw [← horig, ← hb, digestFileName_inj hname]

theorem materialize_revert_demo : ∃ d₃ r, revert .plain (twoFiles.applyAll
        (materializeWrites .plain [] (str "v1") twoPlan)) [] (materializationID .plain twoPlan) = some (d₃, r) ∧
      r.conflicts = [] ∧ d₃.files (target [] (str "b.go")) = some (str "B") := by
  have hload : loadPlan .plain (savePlan twoFiles twoPlan) [] (str "p") = .ok twoPlan := by decide +kernel
  have hmat : materialize .plain twoFiles [] (str "v1") twoPlan =
      .ok (twoFiles.applyAll (materializeWrites .plain [] (str "v1") twoPlan), ⟨materializationID .plain twoPlan, 3⟩) := by
    unfold materialize
    rw [show twoPlan.files.forM (checkFile .plain twoFiles []) = .ok () by decide +kernel]
    rfl
  have hkept : Kept .plain twoPlan.files := by unfold Kept; decide +kernel
  have hplaced : Placed [] twoPlan.files := by unfold Placed; decide +kernel
  obtain ⟨⟨d₃, r, hrev, hconf, hback⟩, -⟩ := (materialize_revert .plain [] (str "v1") twoPlan _ (.loaded hload)
    twoFiles _ _ _ hmat ⟨fun _ _ => rfl, rfl, fun _ => rfl⟩).2 ⟨hkept, hplaced⟩
  have hmem : modifiedFile .plain (str "b.go") (str "B") (str "U") ∈ twoPlan.files := by decide +kernel
  have hfile : twoFiles.files (target [] (str "b.go")) = some (str "B") := by decide +kernel
  exact ⟨d₃, r, hrev, hconf, ((hback _ hmem).1 rfl).trans hfile⟩

/-- A plan loaded while `a.go` is edited to `B`. Once the edit is undone `materialize` accepts the tree, but
backs up `B` under the digest of `A`: the revert reports a conflict and the file keeps its new content. -/
theorem stale_original : loadPlan .plain (savePlan (oneFile (str "a.go") (str "B")) onePlan) [] (str "p") =
        .ok { onePlan with files := onePlan.files.map fun fp => { fp with original := str "B" } } ∧
      ((materialize .plain (oneFile (str "a.go") (str "A")) [] (str "v1")
          { onePlan with files := onePlan.files.map fun fp => { fp with original := str "B" } }).toOption.bind
        fun out => (revert .plain out.1 [] out.2.materializationID).map fun back =>
          (back.2.conflicts, back.1.files [str "a.go"])) = some ([str "a.go"], some (str "T")) := by
  decide

end BatchWeaver.Transform
