import FormulaEngine.Proofs.Ranges
import FormulaEngine.Proofs.Recasing.Texts
import FormulaEngine.Proofs.Slices

/-! # Keywords in names

Some keywords are parts of others. The one that is found in a name is never a fragment of a longer
one that the name holds as well, here or elsewhere: every keyword stands behind those that contain
it in the search order. The search is made in a copy of the name with small letters, which has the
same characters at the same offsets in bytes, so that the offset that is found cuts the name itself
between two characters. -/

namespace FormulaEngine

namespace Text

/-! ## Bytes -/

theorem byteLength_eq_utf8ByteSize (t : Text) : byteLength t = t.string.utf8ByteSize := by
  rw [string, String.utf8ByteSize_ofList, byteLength]
  have hfold : ∀ n : ℕ, t.foldl (fun n c => n + c.utf8Size) n = n + String.utf8Len t := by
    induction t with
    | nil => exact fun n => rfl
    | cons c t ih =>
      intro n
      rw [List.foldl_cons, ih, String.utf8Len_cons]
      omega
  rw [hfold, Nat.zero_add]

theorem byteLength_append (t u : Text) : byteLength (t ++ u) = byteLength t + byteLength u := by
  simp only [byteLength_eq_utf8ByteSize, string, String.ofList_append, String.utf8ByteSize_append]

/-- Only ASCII letters change, and they take one byte in either case. -/
theorem byteLength_foldCase (t : Text) : byteLength (foldCase t) = byteLength t := by
  have hchar : ∀ c : Char, c.toLower.utf8Size = c.utf8Size :=
    apply_toLower (f := Char.utf8Size) (by decide)
  rw [byteLength, foldCase, List.foldl_map]
  simp only [hchar, byteLength]

/-- The bytes of a beginning of a text end between two characters. -/
theorem isValid_byteLength (t u : Text) :
    (String.Pos.Raw.mk (byteLength t)).IsValid (t ++ u).string := by
  refine String.Pos.Raw.isValid_iff_exists_append.mpr
    ⟨t.string, u.string, String.ofList_append, ?_⟩
  rw [byteLength_eq_utf8ByteSize]
  rfl

/-! ## Searching -/

theorem firstAt_of_find? {needle t : Text} {k : ℕ} (h : find? needle t = some k) :
    FirstAt needle k t := by
  rcases findFrom_spec needle 0 t with ⟨j, hj, hfirst⟩ | ⟨hnone, _⟩
  · rw [find?, hj, Nat.zero_add, Option.some.injEq] at h
    exact h ▸ hfirst
  · rw [find?, hnone] at h
    cases h

theorem find?_eq_none_iff {needle t : Text} : find? needle t = none ↔ ¬ needle <:+: t := by
  rcases findFrom_spec needle 0 t with ⟨j, hj, hfirst⟩ | ⟨hnone, hinfix⟩
  · rw [find?, hj]
    exact iff_of_false (by simp) (not_not.mpr hfirst.isInfix)
  · exact iff_of_true hnone hinfix

/-- A text that stands in the lowered copy is a spelling that stands in the text. -/
theorem infix_foldCase_iff {needle t : Text} : needle <:+: foldCase t ↔
    ∃ before found behind, t = before ++ found ++ behind ∧ foldCase found = needle := by
  constructor
  · rintro ⟨a, b, h⟩
    obtain ⟨u, behind, rfl, hu, -⟩ := List.map_eq_append_iff.mp h.symm
    obtain ⟨before, found, rfl, -, hfound⟩ := List.map_eq_append_iff.mp hu
    exact ⟨before, found, behind, rfl, hfound⟩
  · rintro ⟨before, found, behind, rfl, rfl⟩
    rw [foldCase_append, foldCase_append]
    exact ⟨_, _, rfl⟩

end Text

namespace RangeKeyword

variable {k k' : RangeKeyword} {name : Text} {stop b : ℕ}

/-- The keyword stands in the name, in any case of its letters. -/
def Occurs (k : RangeKeyword) (name : Text) : Prop :=
  ∃ before found behind, name = before ++ found ++ behind ∧ Text.foldCase found = k.toText

theorem occurs_iff : k.Occurs name ↔ k.toText <:+: Text.foldCase name :=
  Text.infix_foldCase_iff.symm

/-- Another keyword is a part of the keyword. -/
def Contains (k k' : RangeKeyword) : Prop := k ≠ k' ∧ k'.toText <:+: k.toText

instance (k k' : RangeKeyword) : Decidable (k.Contains k') := inferInstanceAs (Decidable (_ ∧ _))

theorem mem_all (k : RangeKeyword) : k ∈ all := by
  cases k <;> decide

/-- No keyword contains one that is looked for before it. -/
theorem pairwise_all : all.Pairwise fun k k' => ¬ k'.Contains k := by decide

/-- The keywords that contain a keyword are looked for before it. -/
theorem Contains.mem {first rest : List RangeKeyword} (h : k'.Contains k)
    (hall : all = first ++ k :: rest) : k' ∈ first := by
  have hmem := hall ▸ mem_all k'
  have hrest := (List.pairwise_append.mp (hall ▸ pairwise_all)).2.1
  rcases List.mem_append.mp hmem with hfirst | hbehind
  · exact hfirst
  · rcases List.mem_cons.mp hbehind with heq | hlater
    · exact absurd heq h.1
    · exact absurd h (List.rel_of_pairwise_cons hrest hlater)

theorem locate?_eq_none_iff : locate? name = none ↔ ∀ k : RangeKeyword, ¬ k.Occurs name := by
  simp only [locate?, List.findSome?_eq_none_iff, Option.map_eq_none_iff, Text.find?_eq_none_iff,
    occurs_iff]
  exact ⟨fun h k => h k k.mem_all, fun h k _ => h k⟩

/-- What is located is the first place of a keyword in the lowered copy, which holds no keyword that
contains it. -/
theorem firstAt_of_locate? (h : locate? name = some (k, stop)) :
    ∃ start, Text.FirstAt k.toText start (Text.foldCase name) ∧
      stop = start + k.toText.length ∧ ∀ k' : RangeKeyword, k'.Contains k → ¬ k'.Occurs name := by
  obtain ⟨before, k', behind, hall, hfound, hbefore⟩ := List.findSome?_eq_some_iff.mp h
  obtain ⟨start, hfind, hpair⟩ := Option.map_eq_some_iff.mp hfound
  obtain ⟨rfl, rfl⟩ := Prod.mk.inj hpair
  refine ⟨start, Text.firstAt_of_find? hfind, rfl, fun k hk => ?_⟩
  have hnone := hbefore k (hk.mem hall)
  rw [Option.map_eq_none_iff, Text.find?_eq_none_iff] at hnone
  exact fun hoccurs => hnone (occurs_iff.mp hoccurs)

/-- A keyword in a name: it ends after so many bytes where it first occurs. -/
structure Located (name : Text) (k : RangeKeyword) (b : ℕ) : Prop where
  /-- The name up to the first occurrence, the keyword as it is spelled there, and what follows. -/
  first : ∃ before found behind, name = before ++ found ++ behind ∧
    Text.foldCase found = k.toText ∧ b = Text.byteLength (before ++ found) ∧
      ∀ before' found' behind', name = before' ++ found' ++ behind' →
        Text.foldCase found' = k.toText → before.length ≤ before'.length
  /-- The place in the lowered copy, where the search is made. -/
  lowered : ∃ start, Text.FirstAt k.toText start (Text.foldCase name) ∧
    b = Text.byteLength ((Text.foldCase name).take start) + Text.byteLength k.toText
  /-- The offset does not cut a character of the name. -/
  boundary : (String.Pos.Raw.mk b).IsValid name.string
  longest : ∀ k' : RangeKeyword, k'.Contains k → ¬ k'.Occurs name

/-- The first place in the lowered copy is the first one in the name. -/
theorem first_of_firstAt {start : ℕ}
    (h : Text.FirstAt k.toText start (Text.foldCase name)) :
    ∃ before found behind, name = before ++ found ++ behind ∧ before.length = start ∧
      Text.foldCase found = k.toText ∧
        ∀ before' found' behind', name = before' ++ found' ++ behind' →
          Text.foldCase found' = k.toText → before.length ≤ before'.length := by
  have hsplit := h.split
  obtain ⟨u, behind, hname, hu, -⟩ := List.map_eq_append_iff.mp hsplit.symm
  obtain ⟨before, found, rfl, hbefore, hfound⟩ := List.map_eq_append_iff.mp hu
  have hlength : before.length = start := by
    rw [← Text.length_foldCase before, Text.foldCase, hbefore, List.length_take]
    exact Nat.min_eq_left h.le_length
  refine ⟨before, found, behind, hname, hlength, hfound, ?_⟩
  intro before' found' behind' hname' hfound'
  rw [hlength]
  by_contra hlt
  refine h.not_before before'.length (Nat.lt_of_not_le hlt) ⟨Text.foldCase behind', ?_⟩
  rw [hname', List.append_assoc, Text.foldCase_append, Text.foldCase_append, hfound',
    ← Text.length_foldCase before', List.drop_left]

theorem located_of_locate? (h : locate? name = some (k, stop)) :
    Located name k (Text.byteLength (name.take stop)) := by
  obtain ⟨start, hfirst, rfl, hlongest⟩ := firstAt_of_locate? h
  obtain ⟨before, found, behind, rfl, rfl, hfound, hnot⟩ := first_of_firstAt hfirst
  have hlength : found.length = k.toText.length := by rw [← hfound, Text.length_foldCase]
  have htake : (before ++ found ++ behind).take (before.length + k.toText.length) =
      before ++ found := by
    rw [← hlength, ← List.length_append, List.take_left]
  have hlowered : (Text.foldCase (before ++ found ++ behind)).take before.length =
      Text.foldCase before := by
    rw [List.append_assoc, Text.foldCase_append, ← Text.length_foldCase before, List.take_left]
  rw [htake]
  exact {
    first := ⟨before, found, behind, rfl, hfound, rfl, hnot⟩
    lowered := ⟨before.length, hfirst, by
      rw [hlowered, ← hfound, Text.byteLength_append, Text.byteLength_foldCase,
        Text.byteLength_foldCase]⟩
    boundary := Text.isValid_byteLength (before ++ found) behind
    longest := hlongest }

/-- No keyword is found in a name exactly when there is none. The one that is found is where it
first occurs, and it is not a fragment of a longer keyword in the name. -/
theorem locateBytes?_never_fragment (name : Text) :
    (locateBytes? name = none ↔ ∀ k : RangeKeyword, ¬ k.Occurs name) ∧
      ∀ k b, locateBytes? name = some (k, b) → Located name k b := by
  refine ⟨by rw [locateBytes?, Option.map_eq_none_iff, locate?_eq_none_iff], fun k b h => ?_⟩
  obtain ⟨⟨k', stop⟩, hlocate, hpair⟩ := Option.map_eq_some_iff.mp h
  obtain ⟨rfl, rfl⟩ := Prod.mk.inj hpair
  exact located_of_locate? hlocate

/-- The longer keyword comes last, behind characters of several bytes and two of its fragments. -/
theorem locateBytes?_never_fragment_behind :
    Located "čParent_PARENTS→ParentsNotNullů".toList .parentsNotNull 33 :=
  (locateBytes?_never_fragment _).2 _ _ (by decide)

end RangeKeyword

end FormulaEngine
