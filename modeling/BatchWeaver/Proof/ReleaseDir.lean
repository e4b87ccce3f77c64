import BatchWeaver.Spec.ReleaseDir

/-!
# Cleaning a release directory

* `output_keeps_root`: what `cleanOutput` and `Clean` remove is not the repository, exactly when the output path is
  no ancestor above the root's parent, or `/`.
* `grandparent_removed`: such an ancestor is removed with the repository.
-/

namespace BatchWeaver.Assurance

open List

open Transform (Path)

section

variable {E : Type} {os : OS E} {root output : GoString} {files : Path → Option GoString} {p : Path}

/-- What a call of `RemoveAll` tells: the guard let the path through. -/
lemma removeOutput_removed {refusal} (h : (removeOutput os refusal root output files).removed = some p) :
    os.abs output = .ok p ∧ ∃ r, os.abs root = .ok r ∧ broad p r = false ∧
      (removeOutput os refusal root output files).files = os.removeAll files p := by
  unfold removeOutput at h ⊢
  split at h
  · cases h
  rename_i abs habs
  split at h
  · cases h
  rename_i rootAbs hroot
  split at h
  · cases h
  rename_i hbroad
  cases h
  simp only [habs, hroot, if_neg hbroad]
  exact ⟨trivial, rootAbs, rfl, by simpa using hbroad, trivial⟩

lemma cleanOutput_eq (os : OS E) (root output : GoString) (files : Path → Option GoString) :
    (cleanOutput os root output files).removed =
        (removeOutput os (str "BW9001: refusing unsafe output directory ") root output files).removed ∧
      (cleanOutput os root output files).files =
        (removeOutput os (str "BW9001: refusing unsafe output directory ") root output files).files := by
  unfold cleanOutput
  generalize removeOutput os (str "BW9001: refusing unsafe output directory ") root output files = c
  simp only
  split
  · exact ⟨rfl, rfl⟩
  · split <;> exact ⟨rfl, rfl⟩

/-- `RemoveAll` is called when the guard lets the path through. -/
lemma removed_of_not_broad {r} (hout : os.abs output = .ok p) (hroot : os.abs root = .ok r) (hbroad : broad p r = false)
    (refusal : GoString) : (removeOutput os refusal root output files).removed = some p := by
  unfold removeOutput
  simp only [hout, hroot, hbroad]
  rfl

/-- An ancestor of the root above its parent, other than `/`. -/
def Above (p r : Path) : Prop := p <+: r.dropLast ∧ p ≠ r.dropLast ∧ p ≠ []

instance (p r : Path) : Decidable (Above p r) := inferInstanceAs (Decidable (_ ∧ _))

/-- Those are the paths that contain the root and that the guard lets through. -/
lemma above_iff {p r} : Above p r ↔ p <+: r ∧ broad p r = false := by
  simp only [Above, broad, decide_eq_false_iff_not, not_or]
  constructor
  · rintro ⟨hpre, hparent, htop⟩
    have hdrop : r.dropLast <+: r := dropLast_prefix r
    refine ⟨hpre.trans hdrop, ?_, hparent, htop⟩
    rintro rfl
    exact hparent (hpre.eq_of_length_le (by simp))
  · rintro ⟨⟨q, rfl⟩, hroot, hparent, htop⟩
    have hq : q ≠ [] := by
      rintro rfl
      exact hroot (append_nil p).symm
    rw [dropLast_append_of_ne_nil hq]
    refine ⟨prefix_append _ _, fun h => hparent ?_, htop⟩
    rw [dropLast_append_of_ne_nil hq]
    exact h

/-- **Cleaning keeps the repository** exactly when the output path is not above the root's parent: the path that is
removed is neither the root nor above it, and no file of the repository outside it is touched. -/
theorem output_keeps_root (os : OS E) (root output : GoString) (files : Path → Option GoString) :
    (∀ c, c = cleanOutput os root output files ∨ c = cleanDir os root output files → ∀ p, c.removed = some p →
      os.abs output = .ok p ∧ ∃ r, os.abs root = .ok r ∧ p ≠ r ∧ ¬p <+: r ∧
        ∀ q, r <+: q → ¬p <+: q → c.files q = files q) ↔
    ∀ r p, os.abs root = .ok r → os.abs output = .ok p → ¬Above p r := by
  constructor
  · intro hkeep r p hroot hout habove
    obtain ⟨hpre, hbroad⟩ := above_iff.1 habove
    obtain ⟨-, r', hroot', -, hnot, -⟩ := hkeep _ (.inr rfl) p (removed_of_not_broad hout hroot hbroad _)
    rw [hroot] at hroot'
    cases hroot'
    exact hnot hpre
  intro hdeep c hc p hcall
  -- up to the text of the refusal both functions are the same
  obtain ⟨refusal, hremoved, hfiles⟩ : ∃ refusal, c.removed = (removeOutput os refusal root output files).removed ∧
        c.files = (removeOutput os refusal root output files).files := by
    rcases hc with rfl | rfl
    · exact ⟨_, cleanOutput_eq os root output files⟩
    · exact ⟨_, rfl, rfl⟩
  rw [hremoved] at hcall
  obtain ⟨hout, r, hroot, hbroad, heq⟩ := removeOutput_removed hcall
  have hprefix : ¬p <+: r := fun hpre => hdeep r p hroot hout (above_iff.2 ⟨hpre, hbroad⟩)
  refine ⟨hout, r, hroot, ?_, hprefix, fun q _ hq => ?_⟩
  · rintro rfl
    exact hprefix (prefix_refl _)
  · rw [hfiles, heq]
    exact if_neg fun h => hq h.1

end

/-- No call fails; the working directory is `/a/b/c`. -/
def calmOS : OS Unit := ⟨.ok [str "a", str "b", str "c"], fun _ => none, fun _ => none⟩

/-- The files of a repository in `/a/b/c`. -/
def repository : Path → Option GoString :=
  fun q => if q = [str "a", str "b", str "c", str "go.mod"] then some (str "module") else none

theorem output_keeps_root_dist : ∃ r, calmOS.abs (str ".") = .ok r ∧ ¬[str "a", str "b", str "c", str "dist"] <+: r ∧
    (cleanOutput calmOS (str ".") (str "dist") repository).files [str "a", str "b", str "c", str "go.mod"] =
      some (str "module") := by
  have hdeep : ∀ r p, calmOS.abs (str ".") = .ok r → calmOS.abs (str "dist") = .ok p → ¬Above p r := by
    intro r p hr hp
    injection hr with hr
    injection hp with hp
    subst hr hp
    decide
  obtain ⟨-, r, hr, -, hprefix, hkeep⟩ := (output_keeps_root calmOS (str ".") (str "dist") repository).2 hdeep _
    (.inl rfl) [str "a", str "b", str "c", str "dist"] (by decide)
  refine ⟨r, hr, hprefix, ?_⟩
  injection hr with hr
  rw [hkeep _ (by rw [← hr]; decide) (by decide)]
  decide

/-- **An ancestor is removed**: the guard knows the root, its parent and `/`. -/
theorem grandparent_removed : (cleanDir calmOS (str ".") (str "/a") repository).removed = some [str "a"] ∧
      [str "a"] <+: absPath [str "a", str "b", str "c"] (str ".") ∧
      (cleanDir calmOS (str ".") (str "/a") repository).files [str "a", str "b", str "c", str "go.mod"] = none ∧
      (cleanOutput calmOS (str ".") (str "../..") repository).removed = some [str "a"] := by
  decide

end BatchWeaver.Assurance
