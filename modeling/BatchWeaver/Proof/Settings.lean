import Mathlib.Data.List.TakeWhile
import BatchWeaver.Proof.ConfigDigest

/-!
# Settings and their readers

What the value of a recognized field stands for, apart from how the normalizer reads it: a node stands for a
setting at the type of its field, or for none.

* `parseSymbol_ok`, `validateDimension_none`: texts that pass the checks can be read back from a canonical text.
* `text_inj`: settings of one type that are shown alike are the same.
* `boolOr_shows` and the lemmas after it: a reader that adds no diagnostic returns the setting of the field.
-/

namespace BatchWeaver.Operation

open List

/-! ## Checks -/

variable {value : GoString} {s : GoString} {sym : Symbol} {α : Type}

lemma line_of_containsSpace (h : containsSpace s = false) : 10 ∉ s := by
  intro hmem
  have hnot := any_eq_false.1 h 10 hmem
  exact absurd rfl hnot

/-! ## Symbols -/

lemma cut_eq {sub s a b} (h : cut sub s = some (a, b)) : s = a ++ sub ++ b := by
  induction s generalizing a with
  | nil =>
    rw [cut] at h
    split at h
    · rename_i hsub
      injection h with h
      injection h with ha hb
      rw [← ha, ← hb, hsub]
      rfl
    · cases h
  | cons c s ih =>
    rw [cut] at h
    split at h
    · rename_i hpre
      injection h with h
      injection h with ha hb
      obtain ⟨r, hr⟩ := isPrefixOf_iff_prefix.1 hpre
      rw [← ha, ← hb, ← hr, drop_left, nil_append]
    obtain ⟨p, hp, hpair⟩ := Option.map_eq_some_iff.1 h
    injection hpair with ha hb
    rw [ih (by rw [hp, ← hb]), ← ha]
    rfl

lemma cutLast_eq {x s a b} (h : cutLast x s = some (a, b)) : s = a ++ [x] ++ b := by
  induction s generalizing a with
  | nil => cases h
  | cons c s ih =>
    rw [cutLast] at h
    cases hrec : cutLast x s with
    | some p =>
      rw [hrec] at h
      injection h with h
      injection h with ha hb
      rw [ih (by rw [hrec, ← hb]), ← ha]
      rfl
    | none =>
      rw [hrec] at h
      simp only at h
      split at h
      · rename_i hc
        injection h with h
        injection h with ha hb
        rw [← ha, ← hb, hc]
        rfl
      · cases h

variable {L : Library}

variable {u : Unit}

lemma validateImportPath_ok {path} (h : validateImportPath L path = .ok u) : path ≠ [] := by
  intro hnil
  rw [validateImportPath, if_pos hnil] at h
  cases h

lemma validateGoIdentifier_ok {s what} (h : validateGoIdentifier L s what = .ok u) : s ≠ [] := by
  rintro rfl
  cases h

lemma receiverOf_eq (recvPart : GoString) :
    recvPart = if (receiverOf recvPart).2 then 42 :: (receiverOf recvPart).1 else (receiverOf recvPart).1 := by
  unfold receiverOf
  split <;> rfl

/-- A symbol that was parsed is written as its text. -/
structure Parsed (value : GoString) (sym : Symbol) : Prop where
  string : sym.string = value
  path : sym.importPath ≠ []

lemma parseFunctionSymbol_ok (h : parseFunctionSymbol L value = .ok sym) : Parsed value sym := by
  unfold parseFunctionSymbol at h
  split at h
  · cases h
  split at h
  · cases h
  rename_i path name hcut
  split at h
  · cases h
  split at h
  · cases h
  rename_i hpath
  split at h
  · cases h
  cases h
  refine ⟨?_, validateImportPath_ok hpath⟩
  rw [Symbol.string, if_pos rfl, cutLast_eq hcut]
  rfl

lemma parseMethodSymbol_ok (h : parseMethodSymbol L value = .ok sym) : Parsed value sym := by
  unfold parseMethodSymbol at h
  split at h
  · cases h
  rename_i path rest hcut
  split at h
  · cases h
  rename_i hpath
  split at h
  · cases h
  rename_i recvPart name hclose
  split at h
  · cases h
  split at h
  · cases h
  rename_i hrecv
  split at h
  · cases h
  cases h
  refine ⟨?_, validateImportPath_ok hpath⟩
  rw [Symbol.string, if_neg (validateGoIdentifier_ok hrecv), cut_eq hcut, cut_eq hclose]
  -- the text has a star just when the receiver is a pointer
  conv_rhs => rw [receiverOf_eq recvPart]
  split
  · rw [show str ".(*" = str ".(" ++ [42] by decide]
    simp only [append_assoc, cons_append, nil_append]
  · simp only [append_assoc]

lemma parseSymbol_parsed (h : parseSymbol L value = .ok sym) : Parsed value sym := by
  unfold parseSymbol at h
  split at h
  · cases h
  split at h
  · cases h
  split at h
  · cases h
  split at h
  · exact parseMethodSymbol_ok h
  · exact parseFunctionSymbol_ok h

/-- **A parsed symbol is written as its text**, which is one line and no dash. -/
theorem parseSymbol_ok (h : parseSymbol L value = .ok sym) :
    symbolOrDash sym = value ∧ 10 ∉ value ∧ value ≠ str "-" := by
  have hparsed := parseSymbol_parsed h
  unfold parseSymbol at h
  split at h
  · cases h
  split at h
  · cases h
  rename_i hspace
  have hzero : sym.isZero = false := by
    refine decide_eq_false fun hz => hparsed.path ?_
    rw [hz]
  refine ⟨?_, line_of_containsSpace (Bool.eq_false_iff.2 hspace), ?_⟩
  · rw [symbolOrDash, hzero, if_neg Bool.false_ne_true, hparsed.string]
  -- the text has a dot
  intro hdash
  have hdot : 46 ∈ sym.string := by
    unfold Symbol.string
    split
    · simp [show str "." = [46] by decide]
    split
    · simp [show str ".(*" = [46, 40, 42] by decide]
    · simp [show str ".(" = [46, 40] by decide]
  rw [hparsed.string, hdash] at hdot
  exact absurd hdot (by decide)

/-- The symbols there are: the zero one and those that `ParseSymbol` returns. The fields of a symbol are not exported. -/
def Made (L : Library) (s : Symbol) : Prop := s = {} ∨ ∃ value, parseSymbol L value = .ok s

/-- **Symbols and their texts correspond**: a parsed symbol is written as the text it came from, and a valid one is
parsed back from its text, so valid symbols have texts of their own. -/
theorem symbol_text (L : Library) : (∀ value sym, parseSymbol L value = .ok sym → sym.string = value) ∧
    (∀ s, Made L s → s.validate L = none → parseSymbol L s.string = .ok s) ∧
    ∀ s s', Made L s → Made L s' → s.validate L = none → s'.validate L = none → s.string = s'.string → s = s' := by
  have htext : ∀ value sym, parseSymbol L value = .ok sym → sym.string = value :=
    fun _ _ h => (parseSymbol_parsed h).string
  have hback : ∀ s, Made L s → s.validate L = none → parseSymbol L s.string = .ok s := by
    rintro s (rfl | ⟨value, h⟩) hvalid
    · cases hvalid
    · rw [htext value s h]
      exact h
  refine ⟨htext, hback, fun s s' hs hs' hv hv' heq => ?_⟩
  have h := hback s hs hv
  rw [heq, hback s' hs' hv'] at h
  exact (Except.ok.inj h).symm

/-- **A symbol that nothing makes**: its name has a dot. `Validate` accepts it, and its text is that of another one. -/
theorem symbol_not_made : (⟨str "a", [], str "b.C", false⟩ : Symbol).validate .plain = none ∧
    parseSymbol .plain (⟨str "a", [], str "b.C", false⟩ : Symbol).string = .ok ⟨str "a.b", [], str "C", false⟩ := by
  decide

/-! ## Identifiers, dimensions and extensions -/

lemma idError_none (h : idError L value = none) : 10 ∉ value := by
  have hall := wrapFailed_none h
  exact line_of_containsSpace (hall _ (mem_of_getElem? (i := 2) rfl))

lemma extension_line {e : Extension} (h : e.validate L = none) : 10 ∉ e.namespaceName := by
  have hall := wrapFailed_none h
  exact line_of_containsSpace (hall _ (mem_of_getElem? (i := 1) rfl))

/-- A text that can stand in a list with commas. -/
abbrev Word (w : GoString) : Prop := (w ≠ [] ∧ 44 ∉ w) ∧ 10 ∉ w

lemma dimensionByte_plain {c} (h : (isLower c || isDigit c || c = 45) = true) : c ≠ 44 ∧ c ≠ 10 := by
  constructor
  · rintro rfl
    exact absurd h (by decide)
  · rintro rfl
    exact absurd h (by decide)

lemma badDimensionByte_nil {name} (h : badDimensionByte name = []) : ∀ c ∈ name, c ≠ 44 ∧ c ≠ 10 := by
  cases name with
  | nil => exact nofun
  | cons c rest =>
    rw [badDimensionByte] at h
    split at h
    · rename_i hc
      refine forall_mem_cons.2 ⟨dimensionByte_plain (by rw [hc]; rfl), fun d hd => ?_⟩
      exact dimensionByte_plain (dropWhile_eq_nil_iff.1 h d hd)
    · cases h

lemma validateDimension_none {d} (h : validateDimension L d = none) : Word d := by
  unfold validateDimension at h
  split at h
  · rename_i hknown
    have hall : knownDimensions.all (Word) = true := by decide +kernel
    exact of_decide_eq_true (all_eq_true.1 hall d hknown)
  split at h
  · cases h
  have hall := wrapFailed_none h
  have hne : d ≠ [] := of_decide_eq_false (hall _ (mem_of_getElem? (i := 0) rfl))
  have hbad : badDimensionByte d = [] := not_not.1 (of_decide_eq_false (hall _ (mem_of_getElem? (i := 2) rfl)))
  have hbytes := badDimensionByte_nil hbad
  exact ⟨⟨hne, fun hmem => (hbytes _ hmem).1 rfl⟩, fun hmem => (hbytes _ hmem).2 rfl⟩

lemma parseEnum_some [Enumeration α] {a} (h : parseEnum s = some a) :
    Enumeration.text a = s ∧ a ∈ (Enumeration.values : List α) := by
  unfold parseEnum at h
  exact ⟨by simpa using find?_some h, mem_of_find?_eq_some h⟩

/-- The names of an enumeration. -/
def namesOf (α : Type) [Enumeration α] : List GoString := (Enumeration.values : List α).map Enumeration.text

lemma parseEnum_mem [Enumeration α] {a : α} (h : parseEnum s = some a) : s ∈ namesOf α :=
  (parseEnum_some h).1 ▸ mem_map_of_mem (parseEnum_some h).2

end BatchWeaver.Operation

namespace BatchWeaver.Configuration

open Prover Operation List

/-! ## Settings -/

/-- What the value of a field stands for. -/
inductive Setting where
  | name (s : GoString)
  | flag (b : Bool)
  | number (n : ℤ)
  | duration (d : ℤ)
  | symbol (s : Option GoString)
  | names (l : List GoString)
  deriving DecidableEq

/-- The type of a field, with the value that null stands for. -/
inductive FieldType where
  | enum (names : List GoString) (dflt : Option GoString)
  | flag (dflt : Bool)
  | number (dflt : ℤ)
  | duration (dflt : ℤ)
  | bytes (dflt : ℤ)
  | symbol
  | dimensions
  | classes

variable (E : Env)

/-- The texts in a sequence, if all its elements are texts that are `ok`. -/
def textsOf (ok : GoString → Bool) (v : Node) : Option (List GoString) :=
  v.elems?.bind fun es => es.mapM fun e => (asString e).filter ok

/-- What null stands for at a type. -/
def nullSetting : FieldType → Option Setting
  | .enum _ dflt => dflt.map .name
  | .flag dflt => some (.flag dflt)
  | .number dflt => some (.number dflt)
  | .duration dflt => some (.duration dflt)
  | .bytes dflt => some (.number dflt)
  | .symbol => some (.symbol none)
  | .dimensions => none
  | .classes => some (.names [])

/-- What another node stands for at a type. -/
def readSetting : FieldType → Node → Option Setting
  | .enum names _, v => ((asString v).filter (· ∈ names)).map .name
  | .flag _, v => (asBool v).map .flag
  | .number _, v => (asInt E.toLibrary v).map .number
  | .duration _, v => ((asString v).bind (parseDuration E)).map .duration
  | .bytes _, v => ((asString v).bind parseByteSize).map .number
  | .symbol, v =>
    ((asString v).filter fun s => errorText (parseSymbol E.toLibrary s) = none).map fun s => .symbol (some s)
  | .dimensions, v =>
    (textsOf (fun s => validateDimension E.toLibrary s = none) v).map fun l => .names (sortStrings l)
  | .classes, v => (textsOf (· ∈ namesOf RetryClassification) v).map fun l => .names (sortStrings l)

/-- What a node stands for at a type; none if it is no value of the type. -/
def setting (ty : FieldType) (v : Node) : Option Setting := if v.isNull then nullSetting ty else readSetting E ty v

/-- How the canonical text shows a setting. -/
def Setting.text : Setting → GoString
  | .name s => s
  | .flag b => formatBool b
  | .number n => formatInt n
  | .duration d => E.durationString d
  | .symbol s => s.getD (str "-")
  | .names l => joinStrings l (str ",")

variable {E}

lemma formatBool_injective : Function.Injective formatBool := by
  intro a b h
  cases a <;> cases b <;> first | rfl | exact absurd h (by decide)

variable {l : List GoString}

lemma join_inj {k} (hl : ∀ w ∈ l, Word w) (hk : ∀ w ∈ k, Word w)
    (h : joinStrings (sortStrings l) (str ",") = joinStrings (sortStrings k) (str ",")) :
    sortStrings l = sortStrings k :=
  Words.intercalate_inj (fun w hw => (hl w (mem_sortStrings.1 hw)).1) (fun w hw => (hk w (mem_sortStrings.1 hw)).1) h

variable {ok : GoString → Bool}

lemma mapM_filter_words (hok : ∀ s, ok s = true → Word s) {es : List Node}
    (h : (es.mapM fun e => (asString e).filter ok) = some l) : ∀ w ∈ l, Word w := by
  induction es generalizing l with
  | nil =>
    cases h
    exact nofun
  | cons e es ih =>
    rw [mapM_cons] at h
    obtain ⟨a, ha, h⟩ := Option.bind_eq_some_iff.1 h
    obtain ⟨as, has, h⟩ := Option.bind_eq_some_iff.1 h
    cases h
    exact forall_mem_cons.2 ⟨hok a (Option.filter_eq_some_iff.1 ha).2, ih has⟩

variable {ty : FieldType} {x : Setting} {v : Node}

lemma textsOf_words (hok : ∀ s, ok s = true → Word s) (h : textsOf ok v = some l) : ∀ w ∈ l, Word w := by
  obtain ⟨es, -, hes⟩ := Option.bind_eq_some_iff.1 h
  exact mapM_filter_words hok hes

/-- What a setting of a type can be. -/
def OfType : FieldType → Setting → Prop
  | .enum _ _, x => ∃ s, x = .name s
  | .flag _, x => ∃ b, x = .flag b
  | .number _, x => ∃ n, x = .number n
  | .duration _, x => ∃ d, x = .duration d
  | .bytes _, x => ∃ n, x = .number n
  | .symbol, x => x = .symbol none ∨ ∃ s, x = .symbol (some s) ∧ s ≠ str "-"
  | .dimensions, x => ∃ l, x = .names (sortStrings l) ∧ ∀ w ∈ l, Word w
  | .classes, x => ∃ l, x = .names (sortStrings l) ∧ ∀ w ∈ l, Word w

lemma nullSetting_ofType (h : nullSetting ty = some x) : OfType ty x := by
  cases ty with
  | enum names dflt =>
    obtain ⟨s, -, rfl⟩ := Option.map_eq_some_iff.1 h
    exact ⟨s, rfl⟩
  | flag dflt | number dflt | duration dflt | bytes dflt => exact ⟨dflt, (Option.some.inj h).symm⟩
  | symbol => exact .inl (Option.some.inj h).symm
  | dimensions => cases h
  | classes => exact ⟨[], (Option.some.inj h).symm, nofun⟩

lemma readSetting_ofType (h : readSetting E ty v = some x) : OfType ty x := by
  cases ty with
  | enum names dflt =>
    obtain ⟨s, -, rfl⟩ := Option.map_eq_some_iff.1 h
    exact ⟨s, rfl⟩
  | flag dflt | number dflt | duration dflt | bytes dflt =>
    obtain ⟨a, -, rfl⟩ := Option.map_eq_some_iff.1 h
    exact ⟨a, rfl⟩
  | symbol =>
    obtain ⟨s, hs, rfl⟩ := Option.map_eq_some_iff.1 h
    have hparse := of_decide_eq_true (Option.filter_eq_some_iff.1 hs).2
    cases hsym : parseSymbol E.toLibrary s with
    | error e =>
      rw [hsym] at hparse
      cases hparse
    | ok sym => exact .inr ⟨s, rfl, (parseSymbol_ok hsym).2.2⟩
  | dimensions =>
    obtain ⟨l, hl, rfl⟩ := Option.map_eq_some_iff.1 h
    exact ⟨l, rfl, textsOf_words (fun s hs => validateDimension_none (of_decide_eq_true hs)) hl⟩
  | classes =>
    obtain ⟨l, hl, rfl⟩ := Option.map_eq_some_iff.1 h
    refine ⟨l, rfl, textsOf_words (fun s hs => ?_) hl⟩
    obtain ⟨c, -, rfl⟩ := mem_map.1 (of_decide_eq_true hs)
    exact (Enumeration.text_plain c).symm

lemma setting_ofType (h : setting E ty v = some x) : OfType ty x := by
  unfold setting at h
  split at h
  · exact nullSetting_ofType h
  · exact readSetting_ofType h

/-- **Settings of one type that are shown alike are the same.** -/
theorem text_inj {x y : Setting} (hx : OfType ty x) (hy : OfType ty y) (h : x.text E = y.text E) : x = y := by
  cases ty with
  | enum names dflt =>
    obtain ⟨s, rfl⟩ := hx
    obtain ⟨t, rfl⟩ := hy
    exact congrArg Setting.name h
  | flag dflt =>
    obtain ⟨a, rfl⟩ := hx
    obtain ⟨b, rfl⟩ := hy
    exact congrArg Setting.flag (formatBool_injective h)
  | number _ | bytes _ =>
    obtain ⟨a, rfl⟩ := hx
    obtain ⟨b, rfl⟩ := hy
    exact congrArg Setting.number (formatInt_injective h)
  | duration dflt =>
    obtain ⟨a, rfl⟩ := hx
    obtain ⟨b, rfl⟩ := hy
    exact congrArg Setting.duration (E.durationString_injective h)
  | symbol =>
    rcases hx with rfl | ⟨s, rfl, hs⟩ <;> rcases hy with rfl | ⟨t, rfl, ht⟩
    · rfl
    · exact absurd h.symm ht
    · exact absurd h hs
    · exact congrArg (fun s => Setting.symbol (some s)) h
  | dimensions | classes =>
    obtain ⟨l, rfl, hl⟩ := hx
    obtain ⟨k, rfl, hk⟩ := hy
    exact congrArg Setting.names (join_inj hl hk h)

/-! ## Readers -/

/-- At its type, a node stands for a setting that is shown as `text`. -/
def Shows (E : Env) (ty : FieldType) (v : Node) (text : GoString) : Prop :=
  ∃ x, setting E ty v = some x ∧ x.text E = text

variable {text : GoString}

lemma shows_null (hnull : v.isNull = true) (hx : nullSetting ty = some x)
    (htext : x.text E = text) : Shows E ty v text :=
  ⟨x, by rw [setting, if_pos hnull, hx], htext⟩

lemma shows_read (hnull : v.isNull = false) (hx : readSetting E ty v = some x)
    (htext : x.text E = text) : Shows E ty v text :=
  ⟨x, by rw [setting, if_neg (Bool.eq_false_iff.1 hnull), hx], htext⟩

lemma report_diags {α : Type} {code pos msg} {a : α} :
    (report code pos msg a).diags ≠ [] := cons_ne_nil _ _

lemma bind_accepted {α β : Type} {x} {f : α → Out β} (h : (x >>= f).diags = []) :
    x.diags = [] ∧ (f x.val).diags = [] := append_eq_nil_iff.1 h

/-- Nothing is reported if no step of a block reports anything. -/
lemma bind_ok {α β : Type} {x} {f : α → Out β} :
    (x >>= f).diags = [] ↔ x.diags = [] ∧ (f x.val).diags = [] := append_eq_nil_iff

lemma field_ok {α : Type} {as : Node → Option α} {what} {parent : Node} {key}
    (h : (field E as what parent key).diags = []) {p} (hv : parent.get (str key) = some (v, p)) :
    (v.isNull = true ∧ (field E as what parent key).val = none) ∨
      (v.isNull = false ∧ ∃ a, as v = some a ∧ (field E as what parent key).val = some (a, v)) := by
  unfold field at h ⊢
  rw [hv] at h ⊢
  simp only at h ⊢
  cases hnull : v.isNull with
  | true => exact .inl ⟨rfl, by rw [if_pos rfl]; rfl⟩
  | false =>
    rw [hnull, if_neg Bool.false_ne_true] at h
    rw [if_neg Bool.false_ne_true]
    cases has : as v with
    | none =>
      rw [has] at h
      exact absurd h report_diags
    | some a => exact .inr ⟨rfl, a, rfl, rfl⟩

section

variable {α : Type} {ty : FieldType} {g : α → Setting} {dflt : α} {m v : Node} {key : String} {p : Position}

lemma fieldOr_shows {as : Node → Option α} {what} (hdflt : nullSetting ty = some (g dflt))
    (hread : readSetting E ty v = (as v).map g) (h : (field E as what m key).diags = [])
    (hv : m.get (str key) = some (v, p)) :
    Shows E ty v ((g (((field E as what m key).val.map Prod.fst).getD dflt)).text E) := by
  rcases field_ok h hv with ⟨hnull, hval⟩ | ⟨hnull, a, ha, hval⟩
  · exact shows_null hnull hdflt (by rw [hval]; rfl)
  · exact shows_read hnull (by rw [hread, ha]; rfl) (by rw [hval]; rfl)

lemma parsedField_ok {parse : GoString → Option α} {code} {msg : GoString → GoString}
    (h : (parsedField E parse code msg m key).diags = []) (hv : m.get (str key) = some (v, p)) :
    (v.isNull = true ∧ (parsedField E parse code msg m key).val = none) ∨
      (v.isNull = false ∧ ∃ s a, asString v = some s ∧ parse s = some a ∧
        (parsedField E parse code msg m key).val = some a) := by
  obtain ⟨hfield, h⟩ := bind_accepted h
  rw [parsedField, Out.bind_val]
  rcases field_ok hfield hv with ⟨hnull, hval⟩ | ⟨hnull, s, hs, hval⟩
  · refine .inl ⟨hnull, ?_⟩
    rw [strField, hval]
    rfl
  rw [strField, hval] at h ⊢
  simp only at h ⊢
  cases hparse : parse s with
  | none =>
    rw [hparse] at h
    exact absurd h report_diags
  | some a => exact .inr ⟨hnull, s, a, hs, hparse, rfl⟩

lemma parsedOr_shows {parse : GoString → Option α} {code} {msg : GoString → GoString}
    (hdflt : nullSetting ty = some (g dflt)) (hread : ∀ s a, asString v = some s → parse s = some a →
      readSetting E ty v = some (g a)) (h : (parsedField E parse code msg m key).diags = [])
    (hv : m.get (str key) = some (v, p)) :
    Shows E ty v ((g ((parsedField E parse code msg m key).val.getD dflt)).text E) := by
  rcases parsedField_ok h hv with ⟨hnull, hval⟩ | ⟨hnull, s, a, hs, ha, hval⟩
  · exact shows_null hnull hdflt (by rw [hval]; rfl)
  · exact shows_read hnull (hread s a hs ha) (by rw [hval]; rfl)

end

section

variable {m v : Node} {key : String} {p : Position}

lemma boolOr_shows {dflt} (h : (boolOr E m key dflt).diags = []) (hv : m.get (str key) = some (v, p)) :
    Shows E (.flag dflt) v (formatBool (boolOr E m key dflt).val) :=
  fieldOr_shows (g := .flag) rfl rfl (bind_accepted h).1 hv

variable {what : String} {dflt : ℤ}

lemma intOr_shows (h : (intOr E m key dflt).diags = []) (hv : m.get (str key) = some (v, p)) :
    Shows E (.number dflt) v (formatInt (intOr E m key dflt).val) :=
  fieldOr_shows (g := .number) rfl rfl (bind_accepted h).1 hv

lemma enumField_shows {α : Type} [Enumeration α] (dflt : α) (h : (enumField (α := α) E what m key).diags = [])
    (hv : m.get (str key) = some (v, p)) : Shows E (.enum (namesOf α) (some (Enumeration.text dflt))) v
      (Enumeration.text ((enumField E what m key).val.getD dflt)) := by
  refine parsedOr_shows (g := fun a => .name (Enumeration.text a)) rfl (fun s a hs ha => ?_) h hv
  have hmem : decide (s ∈ namesOf α) = true := decide_eq_true (parseEnum_mem ha)
  rw [readSetting, hs, Option.filter_some_pos (p := fun x => decide (x ∈ namesOf α)) hmem, (parseEnum_some ha).1]
  rfl

lemma enumOr_shows {α : Type} [Enumeration α] {dflt : α} (h : (enumOr E what m key dflt).diags = [])
    (hv : m.get (str key) = some (v, p)) :
    Shows E (.enum (namesOf α) (some (Enumeration.text dflt))) v (Enumeration.text (enumOr E what m key dflt).val) :=
  enumField_shows dflt (bind_accepted h).1 hv

lemma durationOr_shows (h : (durationOr E m key dflt).diags = []) (hv : m.get (str key) = some (v, p)) :
    Shows E (.duration dflt) v (E.durationString (durationOr E m key dflt).val) := by
  refine parsedOr_shows (g := .duration) rfl (fun s d hs hd => ?_) (bind_accepted h).1 hv
  rw [readSetting, hs, Option.bind_some, hd]
  rfl

lemma byteSizeOr_shows (h : (byteSizeOr E m key dflt).diags = []) (hv : m.get (str key) = some (v, p)) :
    Shows E (.bytes dflt) v (formatInt (byteSizeOr E m key dflt).val) := by
  refine parsedOr_shows (g := .number) rfl (fun s n hs hn => ?_) (bind_accepted h).1 hv
  rw [readSetting, hs, Option.bind_some, hn]
  rfl

lemma symbolField_shows (h : (symbolField E what m key).diags = []) (hv : m.get (str key) = some (v, p)) :
    Shows E .symbol v (symbolOrDash (symbolField E what m key).val) := by
  obtain ⟨hfield, h⟩ := bind_accepted h
  rw [symbolField, Out.bind_val]
  rcases field_ok hfield hv with ⟨hnull, hval⟩ | ⟨hnull, s, hs, hval⟩
  · refine shows_null hnull rfl ?_
    rw [strField, hval]
    rfl
  rw [strField, hval] at h ⊢
  simp only at h ⊢
  cases hsym : parseSymbol E.toLibrary s with
  | error e =>
    rw [hsym] at h
    exact absurd h report_diags
  | ok sym =>
    refine shows_read (x := .symbol (some s)) hnull ?_ (parseSymbol_ok hsym).1.symm
    rw [readSetting, hs, Option.filter_some_pos (by rw [hsym]; rfl)]
    rfl

end

end BatchWeaver.Configuration
