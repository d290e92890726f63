import FormulaEngine.Proofs.Patterns

/-! # Pictures are read back in one way

A picture can be cut into units in one way, and there is such a cut for every text, also where a
quote is not closed or a backslash stands at the end. The pattern of a picture is a flat text in
which spellings of specifiers and characters of literals follow each other without separators. No
spelling is the beginning of another, so even a reader that knows further specifiers divides the
pattern at the same places, and sees no specifier but those of the runs. -/

namespace FormulaEngine.DateFormat

/-! ## Cuts -/

/-- A picture cut into units from the left. -/
inductive Cut : Text → List PictureUnit → Prop
  | done : Cut [] []
  | run {letter : Char} (n : ℕ) {rest : Text} {units : List PictureUnit}
      (hletter : isFieldLetter letter = true) (hrest : rest.head? ≠ some letter)
      (h : Cut rest units) :
      Cut (List.replicate (n + 1) letter ++ rest) (.field letter (n + 1) :: units)
  | closed {quote : Char} {content rest : Text} {units : List PictureUnit}
      (hquote : quote = '\'' ∨ quote = '"') (hcontent : quote ∉ content) (h : Cut rest units) :
      Cut (quote :: (content ++ quote :: rest)) (.literal content :: units)
  | unclosed {quote : Char} {content : Text} (hquote : quote = '\'' ∨ quote = '"')
      (hcontent : quote ∉ content) : Cut (quote :: content) [.literal content]
  | escaped (c : Char) {rest : Text} {units : List PictureUnit} (h : Cut rest units) :
      Cut ('\\' :: c :: rest) (.literal [c] :: units)
  | trailing : Cut ['\\'] [.literal []]
  | single {c : Char} {rest : Text} {units : List PictureUnit}
      (hquote : ¬ (c = '\'' ∨ c = '"')) (hbackslash : c ≠ '\\')
      (hletter : isFieldLetter c = false) (h : Cut rest units) :
      Cut (c :: rest) (.literal [c] :: units)

theorem Cut.pictureUnits_eq {picture : Text} {units : List PictureUnit} (h : Cut picture units) :
    pictureUnits picture = units := by
  induction h with
  | done => rw [pictureUnits]
  | run n hletter hrest _ ih => rw [pictureUnits_run hletter n hrest, ih]
  | closed hquote hcontent _ ih => rw [pictureUnits_closed hquote hcontent, ih]
  | unclosed hquote hcontent => exact pictureUnits_unclosed hquote hcontent
  | escaped c _ ih =>
    rw [pictureUnits, if_neg (by decide), if_pos rfl, List.drop_succ_cons, List.drop_zero, ih]
    rfl
  | trailing => rw [pictureUnits, if_neg (by decide), if_pos rfl, List.drop_nil, pictureUnits]; rfl
  | single hquote hbackslash hletter _ ih =>
    rw [pictureUnits.eq_def]
    simp only [if_neg hquote, if_neg hbackslash, hletter, Bool.false_eq_true, if_false, ih]

/-- A text divided where its first characters stop to have a property. -/
theorem exists_behind_takeWhile (p : Char → Bool) (t : Text) :
    ∃ rest, t = t.takeWhile p ++ rest ∧ t.drop (t.takeWhile p).length = rest ∧
      ∀ c, rest.head? = some c → p c = false := by
  have hsplit : t = t.takeWhile p ++ t.dropWhile p := List.takeWhile_append_dropWhile.symm
  refine ⟨t.dropWhile p, hsplit, ?_, fun c hc => ?_⟩
  · nth_rewrite 2 [hsplit]
    exact List.drop_left
  · have hstop := List.head?_dropWhile_not p t
    rwa [hc] at hstop

theorem cut_pictureUnits (picture : Text) : Cut picture (pictureUnits picture) := by
  fun_induction pictureUnits picture with
  | case1 => exact .done
  | case2 quote rest hquote content ih =>
    obtain ⟨behind, hrest, hdrop, hstop⟩ := exists_behind_takeWhile (· != quote) rest
    have hcontent : quote ∉ content := fun hmem => by
      simpa using List.mem_takeWhile_imp hmem
    rw [← List.drop_drop, hdrop] at ih ⊢
    cases behind with
    | nil =>
      rw [List.append_nil] at hrest
      rw [List.drop_nil, pictureUnits, hrest]
      exact .unclosed hquote hcontent
    | cons c behind =>
      obtain rfl : c = quote := by simpa using hstop c rfl
      rw [hrest]
      exact .closed hquote hcontent ih
  | case3 rest _ ih =>
    cases rest with
    | nil =>
      rw [List.drop_nil, pictureUnits]
      exact .trailing
    | cons c rest => exact .escaped c ih
  | case4 letter rest _ _ hletter more ih =>
    obtain ⟨behind, hrest, hdrop, hstop⟩ := exists_behind_takeWhile (· == letter) rest
    have hmore : more = List.replicate more.length letter :=
      List.eq_replicate_iff.mpr ⟨rfl, fun c hc => by simpa using List.mem_takeWhile_imp hc⟩
    have hbehind : behind.head? ≠ some letter := fun hhead => by simpa using hstop letter hhead
    rw [hdrop] at ih ⊢
    rw [hrest, ← List.cons_append]
    have hrun : letter :: more = List.replicate (more.length + 1) letter := by
      rw [List.replicate_succ, ← hmore]
    exact hrun ▸ .run more.length hletter hbehind ih
  | case5 c rest hquote hbackslash hletter ih =>
    exact .single hquote hbackslash (by simpa using hletter) ih

theorem cut_iff {picture : Text} {units : List PictureUnit} :
    Cut picture units ↔ pictureUnits picture = units := by
  refine ⟨Cut.pictureUnits_eq, ?_⟩
  rintro rfl
  exact cut_pictureUnits picture

/-! ## What units ask for -/

/-- The items that a unit stands for: the specifier tabulated for a run, or the characters of a
literal. -/
inductive PictureUnit.Means : PictureUnit → List PatternItem → Prop
  | run {letter : Char} {count : ℕ} {s : Specifier} (h : fieldSpecifier letter count = some s) :
      Means (.field letter count) [.specifier s]
  | literal (content : Text) : Means (.literal content) (content.map .char)

/-- Runs of every field letter are tabulated. -/
theorem exists_fieldSpecifier {letter : Char} (h : isFieldLetter letter = true) (count : ℕ) :
    ∃ s, fieldSpecifier letter count = some s := by
  have hmem : letter ∈ "yMdHhmsfFtzK".toList := List.contains_iff_mem.mp h
  simp only [String.reduceToList, List.mem_cons, List.not_mem_nil, or_false] at hmem
  rcases hmem with rfl | rfl | rfl | rfl | rfl | rfl | rfl | rfl | rfl | rfl | rfl | rfl <;>
    exact ⟨_, rfl⟩

theorem Cut.means_items {picture : Text} {units : List PictureUnit} (h : Cut picture units) :
    ∀ u ∈ units, u.Means u.items := by
  have literal (content : Text) : (PictureUnit.literal content).Means (content.map .char) :=
    .literal content
  induction h with
  | done => exact List.forall_mem_nil _
  | run n hletter _ _ ih =>
    obtain ⟨s, hs⟩ := exists_fieldSpecifier hletter (n + 1)
    refine List.forall_mem_cons.mpr ⟨?_, ih⟩
    rw [PictureUnit.items, hs]
    exact .run hs
  | closed _ _ _ ih => exact List.forall_mem_cons.mpr ⟨literal _, ih⟩
  | unclosed => exact List.forall_mem_singleton.mpr (literal _)
  | escaped _ _ ih => exact List.forall_mem_cons.mpr ⟨literal _, ih⟩
  | trailing => exact List.forall_mem_singleton.mpr (literal _)
  | single _ _ _ _ ih => exact List.forall_mem_cons.mpr ⟨literal _, ih⟩

theorem PictureUnit.Means.invalid_not_mem {u : PictureUnit} {items : List PatternItem}
    (h : u.Means items) : .invalid ∉ items := by
  cases h <;> simp

/-! ## Words of a pattern -/

/-- How an item is written in a pattern. -/
def PatternItem.spelling : PatternItem → Text
  | char c => escapePercent [c]
  | specifier s => '%' :: s.code
  | invalid => ['%']

theorem PatternItem.spelling_char (c : Char) :
    (PatternItem.char c).spelling = if c = '%' then ['%', '%'] else [c] :=
  List.append_nil _

/-- What a reader of patterns accepts behind a percent sign: the specifiers that pictures ask for,
and perhaps more. -/
structure Vocabulary where
  Knows : Text → Prop
  knows_code (s : Specifier) : Knows s.code
  /-- A spelling is not the beginning of another one. -/
  eq_of_beginning {a b : Text} (ha : Knows a) (hb : Knows b) (h : a <+: b) : a = b
  /-- Two percent signs are a percent sign. -/
  not_percent (a : Text) : ¬ Knows ('%' :: a)

namespace Vocabulary

/-- The vocabulary of a reader that knows no other specifiers. -/
def specifiers : Vocabulary where
  Knows t := ∃ s : Specifier, t = s.code
  knows_code s := ⟨s, rfl⟩
  eq_of_beginning := by
    rintro _ _ ⟨s, rfl⟩ ⟨t, rfl⟩ h
    rw [Specifier.code_prefix_free s s.mem_all t t.mem_all (List.isPrefixOf_iff_prefix.mpr h)]
  not_percent a := by
    rintro ⟨s, hs⟩
    obtain ⟨d, tail, hcode, hd⟩ := s.exists_code_eq_cons
    exact hd (List.cons.inj (hcode.symm.trans hs.symm)).1

instance : Inhabited Vocabulary := ⟨specifiers⟩

variable (v : Vocabulary)

/-- A part of a pattern that a reader takes in one step. -/
inductive Word : Text → Prop
  | char {c : Char} (hc : c ≠ '%') : Word [c]
  | percent : Word ['%', '%']
  | specifier {code : Text} (h : v.Knows code) : Word ('%' :: code)

variable {v}

theorem ne_nil_of_knows {code : Text} (h : v.Knows code) : code ≠ [] := by
  rintro rfl
  exact absurd (v.eq_of_beginning h (v.knows_code .day) List.nil_prefix) (by decide)

theorem Word.ne_nil {w : Text} (h : v.Word w) : w ≠ [] := by
  cases h <;> exact List.cons_ne_nil _ _

/-- A word is not the beginning of another one. -/
theorem Word.eq_of_beginning {a b : Text} (ha : v.Word a) (hb : v.Word b) (h : a <+: b) : a = b := by
  cases ha with
  | char hc =>
    cases hb with
    | char => rw [(List.cons_prefix_cons.mp h).1]
    | percent => exact absurd (List.cons_prefix_cons.mp h).1 hc
    | specifier => exact absurd (List.cons_prefix_cons.mp h).1 hc
  | percent =>
    cases hb with
    | char hc => exact absurd (List.cons_prefix_cons.mp h).1.symm hc
    | percent => rfl
    | specifier hcode =>
      obtain ⟨rest, rfl⟩ := (List.cons_prefix_cons.mp h).2
      exact absurd hcode (v.not_percent rest)
  | specifier hcode =>
    cases hb with
    | char hc => exact absurd (List.cons_prefix_cons.mp h).1.symm hc
    | percent =>
      rcases List.prefix_cons_iff.mp (List.cons_prefix_cons.mp h).2 with rfl | ⟨rest, rfl, -⟩
      · exact absurd rfl (ne_nil_of_knows hcode)
      · exact absurd hcode (v.not_percent rest)
    | specifier hother => rw [v.eq_of_beginning hcode hother (List.cons_prefix_cons.mp h).2]

/-- A text is divided into words in at most one way. -/
theorem words_unique {ws others : List Text} (hws : ∀ w ∈ ws, v.Word w)
    (hothers : ∀ w ∈ others, v.Word w) (h : ws.flatten = others.flatten) : ws = others := by
  induction ws generalizing others with
  | nil =>
    cases others with
    | nil => rfl
    | cons w others =>
      exact absurd (List.append_eq_nil_iff.mp h.symm).1 (hothers w List.mem_cons_self).ne_nil
  | cons w ws ih =>
    cases others with
    | nil => exact absurd (List.append_eq_nil_iff.mp h).1 (hws w List.mem_cons_self).ne_nil
    | cons w' others =>
      rw [List.forall_mem_cons] at hws hothers
      rw [List.flatten_cons, List.flatten_cons] at h
      obtain rfl : w = w' := by
        have hprefix : w' <+: w ++ ws.flatten := h ▸ List.prefix_append _ _
        rcases List.prefix_or_prefix_of_prefix (List.prefix_append w ws.flatten) hprefix with hp | hp
        · exact hws.1.eq_of_beginning hothers.1 hp
        · exact (hothers.1.eq_of_beginning hws.1 hp).symm
      rw [ih hws.2 hothers.2 (List.append_cancel_left h)]

/-- What a unit stands for is written in words of every vocabulary. -/
theorem word_of_means {u : PictureUnit} {items : List PatternItem} (h : u.Means items) :
    ∀ item ∈ items, v.Word item.spelling := by
  intro item hitem
  cases h with
  | run =>
    obtain rfl := List.mem_singleton.mp hitem
    exact .specifier (v.knows_code _)
  | literal content =>
    obtain ⟨c, -, rfl⟩ := List.mem_map.mp hitem
    by_cases hc : c = '%'
    · subst hc
      exact .percent
    · rw [PatternItem.spelling_char, if_neg hc]
      exact .char hc

end Vocabulary

/-- A unit's pattern is what its items are written as. -/
theorem PictureUnit.flatten_spellings {u : PictureUnit} {items : List PatternItem}
    (h : u.Means items) : (items.map PatternItem.spelling).flatten = u.pattern := by
  cases h with
  | run h => simp [PatternItem.spelling, PictureUnit.pattern, h]
  | literal content =>
    rw [List.map_map, ← List.flatMap_def]
    exact List.flatMap_congr fun c _ => PatternItem.spelling_char c

/-- A pattern is what the items of the picture's units are written as. -/
theorem patternOf_eq_flatten (picture : Text) :
    (((pictureUnits picture).flatMap PictureUnit.items).map PatternItem.spelling).flatten =
      patternOf picture := by
  rw [List.map_flatMap, ← List.flatMap_id, List.flatMap_assoc, patternOf]
  refine List.flatMap_congr fun u hu => ?_
  rw [List.flatMap_id, PictureUnit.flatten_spellings ((cut_pictureUnits picture).means_items u hu)]

/-- A picture is cut into units in one way. Its pattern has the items that the units stand for, one
unit after the other: tabulated specifiers for runs, and characters for all else. There is no other
way to divide the pattern into words, also for a reader that knows further specifiers. -/
theorem patternOf_reads_back (picture : Text) :
    ∃ units, (∀ others, Cut picture others ↔ others = units) ∧
      (∀ u ∈ units, u.Means u.items) ∧
      patternItems (patternOf picture) = units.flatMap PictureUnit.items ∧
      .invalid ∉ patternItems (patternOf picture) ∧
      ∀ (v : Vocabulary) (words : List Text),
        (∀ w ∈ words, v.Word w) ∧ words.flatten = patternOf picture ↔
          words = (units.flatMap PictureUnit.items).map PatternItem.spelling := by
  have hmeans := (cut_pictureUnits picture).means_items
  have hitems := patternItems_patternOf picture
  refine ⟨pictureUnits picture, fun others => cut_iff.trans eq_comm, hmeans, hitems, ?_, ?_⟩
  · rw [hitems, List.mem_flatMap]
    rintro ⟨u, hu, hinvalid⟩
    exact (hmeans u hu).invalid_not_mem hinvalid
  · intro v words
    have hwords : ∀ w ∈ ((pictureUnits picture).flatMap PictureUnit.items).map
        PatternItem.spelling, v.Word w := by
      intro w hw
      obtain ⟨item, hitem, rfl⟩ := List.mem_map.mp hw
      obtain ⟨u, hu, hmem⟩ := List.mem_flatMap.mp hitem
      exact Vocabulary.word_of_means (hmeans u hu) item hmem
    have hflatten := patternOf_eq_flatten picture
    refine ⟨fun ⟨h, hpattern⟩ => ?_, ?_⟩
    · exact Vocabulary.words_unique h hwords (hpattern.trans hflatten.symm)
    · rintro rfl
      exact ⟨hwords, hflatten⟩

end FormulaEngine.DateFormat
