import FormulaEngine.Proofs.Calls
import FormulaEngine.Proofs.Questions

/-! # Ranges that are delegated

When a function asks the host for a range, its only argument has a keyword at the end of what stands
before the first parenthesis, and ends in a parenthesis. That makes it one whole call exactly when
what stands before the parenthesis is a name, and what stands between the two is balanced and not
blank. Nothing else is checked. -/

namespace FormulaEngine

open Text (Balanced)

namespace RangeKeyword

theorem toText_ne_nil (k : RangeKeyword) : k.toText ≠ [] := by
  cases k <;> decide

/-- A keyword that is located occurs in the name and ends within it. -/
theorem exists_of_locate? {name : Text} {k : RangeKeyword} {stop : Nat}
    (h : locate? name = some (k, stop)) :
    (Text.find? k.toText (Text.foldCase name)).isSome ∧ stop ≤ name.length := by
  obtain ⟨k', _, hk⟩ := List.exists_of_findSome?_eq_some h
  obtain ⟨start, hfind, hpair⟩ := Option.map_eq_some_iff.mp hk
  obtain ⟨rfl, rfl⟩ := Prod.mk.inj hpair
  refine ⟨by rw [hfind]; rfl, ?_⟩
  obtain ⟨_, hprefix⟩ := Text.findFrom_sound hfind
  have hlen := hprefix.length_le
  have hpos := List.length_pos_iff.mpr k'.toText_ne_nil
  rw [Nat.sub_zero, List.length_drop, Text.length_foldCase] at hlen
  omega

end RangeKeyword

/-- What stands before the first parenthesis is determined. -/
theorem append_paren_inj {u v u' v' : Text} (hu : '(' ∉ u) (hu' : '(' ∉ u')
    (h : u ++ '(' :: v = u' ++ '(' :: v') : u = u' ∧ v = v' := by
  induction u generalizing u' with
  | nil =>
    cases u' with
    | nil => exact ⟨rfl, (List.cons.inj h).2⟩
    | cons c u' =>
      obtain ⟨rfl, _⟩ := List.cons.inj h
      exact absurd (List.mem_cons_self ..) hu'
  | cons c u ih =>
    cases u' with
    | nil =>
      obtain ⟨rfl, _⟩ := List.cons.inj h
      exact absurd (List.mem_cons_self ..) hu
    | cons d u' =>
      obtain ⟨rfl, htail⟩ := List.cons.inj h
      obtain ⟨rfl, hv⟩ := ih (fun hm => hu (List.mem_cons_of_mem _ hm))
        (fun hm => hu' (List.mem_cons_of_mem _ hm)) htail
      exact ⟨rfl, hv⟩

theorem not_mem_head (x : Text) : '(' ∉ x.takeWhile (· != '(') := by
  intro hm
  simpa using List.mem_takeWhile_imp hm

theorem exists_paren {x : Text} (h : (x.takeWhile (· != '(')).length ≠ x.length) :
    ∃ rest, x = x.takeWhile (· != '(') ++ '(' :: rest := by
  have hx : x.takeWhile (· != '(') ++ x.dropWhile (· != '(') = x := List.takeWhile_append_dropWhile
  cases hd : x.dropWhile (· != '(') with
  | nil =>
    rw [hd, List.append_nil] at hx
    exact absurd (congrArg List.length hx) h
  | cons c rest =>
    have hc := List.head?_dropWhile_not (· != '(') x
    rw [hd] at hc hx
    obtain rfl : c = '(' := by simpa using hc
    exact ⟨rest, hx.symm⟩

theorem not_mem_of_blank {t : Text} (h : ∀ c ∈ t, isBlank c = true) : '(' ∉ t := by
  intro hm
  exact absurd (h _ hm) (by decide)

/-- A text is one parenthesis when, trimmed, it begins and ends with one and holds something. -/
theorem Arguments.exists_of_parenthesized {t e : Text} (h : parenthesized t = .ok e) :
    ∃ mid, Text.trim t = '(' :: (mid ++ [')']) ∧ mid ≠ [] ∧ e = Text.trim mid := by
  unfold parenthesized at h
  dsimp only at h
  split at h
  · rename_i inner hinner
    cases h
    split at hinner
    · cases hinner
    · rename_i hlen
      unfold Text.between? at hinner
      split at hinner
      · cases hinner
      · rename_i c r ht
        split at hinner
        · rename_i hends
          cases hinner
          obtain ⟨rfl, hlast⟩ := hends
          have hr : r = r.dropLast ++ [')'] := (List.dropLast_append_getLast? _ hlast).symm
          refine ⟨r.dropLast, by rw [ht, ← hr], ?_, rfl⟩
          intro hnil
          rw [hnil] at hr
          rw [ht, hr] at hlen
          simp at hlen
        · cases hinner
  · cases h

/-- An argument that is delegated to the host, as what stands before the first parenthesis and what
stands between it and the last character. -/
structure RangeArgument (keyword : RangeKeyword) (x head mid : Text) : Prop where
  eq : x = head ++ '(' :: (mid ++ [')'])
  first : '(' ∉ head
  keyword : ∃ stop, RangeKeyword.locate? head = some (keyword, stop) ∧
    ∀ c ∈ head.drop stop, isBlank c = true
  inside : mid ≠ []

/-- What is trimmed to one parenthesis has blanks in front of it and, if it ends like a trimmed text,
nothing behind it. -/
theorem eq_of_trim_eq_paren {a r mid : Text} (ha : '(' ∉ a) {x : Text} (hx : Text.trim x = x)
    (hend : '(' :: r <:+ x) (h : Text.trim (a ++ '(' :: r) = '(' :: (mid ++ [')'])) :
    (∀ c ∈ a, isBlank c = true) ∧ r = mid ++ [')'] := by
  obtain ⟨front, behind, heq, hfront, hbehind⟩ := Text.exists_trim (a ++ '(' :: r)
  rw [h, List.append_assoc, List.cons_append] at heq
  obtain ⟨rfl, hr⟩ := append_paren_inj ha (not_mem_of_blank hfront) heq
  refine ⟨hfront, hr.trans ?_⟩
  obtain ⟨u, rfl⟩ := hend
  cases behind using List.reverseRecOn with
  | nil => exact List.append_nil _
  | append_singleton behind c =>
    -- a blank at the end would have been trimmed away
    rw [hr, ← List.append_assoc _ behind, ← List.cons_append, ← List.append_assoc] at hx
    have hblank := hbehind c (by simp)
    rw [Text.isBlank_of_trim_concat hx] at hblank
    cases hblank

/-- Only a single argument is delegated, and only one of this form. -/
theorem exists_of_delegated {arguments : List Text} (htrim : ∀ x ∈ arguments, Text.trim x = x)
    {keyword : RangeKeyword} {e : Text}
    (h : Intrinsic.delegated arguments = .ok (some (keyword, e))) :
    ∃ x head mid, arguments = [x] ∧ RangeArgument keyword x head mid ∧ e = Text.trim mid := by
  unfold Intrinsic.delegated at h
  split at h
  · rename_i x
    dsimp only at h
    split at h
    · cases h
    · rename_i hlen
      obtain ⟨rest, hx⟩ := exists_paren hlen
      split at h
      · cases h
      · rename_i keyword' stop hlocate
        obtain ⟨_, hstop⟩ := RangeKeyword.exists_of_locate? hlocate
        have hfirst := not_mem_head x
        generalize x.takeWhile (· != '(') = head at hx hlocate hstop hfirst
        have hdrop : x.drop stop = head.drop stop ++ '(' :: rest := by
          rw [hx, List.drop_append_of_le_length hstop]
        rw [hdrop] at h
        cases hp : Arguments.parenthesized (head.drop stop ++ '(' :: rest) with
        | error f =>
          rw [hp] at h
          cases h
        | ok e' =>
          rw [hp] at h
          cases h
          obtain ⟨mid, hmid, hne, he⟩ := Arguments.exists_of_parenthesized hp
          have hdropped : '(' ∉ head.drop stop := fun hm => hfirst (List.mem_of_mem_drop hm)
          obtain ⟨hblank, rfl⟩ := eq_of_trim_eq_paren hdropped (htrim x (by simp))
            ⟨head, hx.symm⟩ hmid
          exact ⟨x, head, mid, rfl, ⟨hx, hfirst, ⟨stop, hlocate, hblank⟩, hne⟩, he⟩
  · cases h

/-- The argument is one whole call of a name with the keyword in it, and `e` is all that it is called
with. -/
def IsWholeCall (keyword : RangeKeyword) (e x : Text) : Prop :=
  ∃ name front behind : Text, x = name ++ '(' :: (front ++ e ++ behind ++ [')']) ∧
    IsName name ∧ (Text.find? keyword.toText (Text.foldCase name)).isSome ∧
    (∀ c ∈ front, isBlank c = true) ∧ (∀ c ∈ behind, isBlank c = true) ∧ e ≠ [] ∧ Balanced e

theorem IsName.not_mem_paren {n : Text} (h : IsName n) : '(' ∉ n := by
  intro hm
  exact absurd (h.all _ hm) (by decide)

/-- When an argument that is delegated is one whole call. -/
theorem RangeArgument.isWholeCall_iff {keyword : RangeKeyword} {x head mid : Text}
    (h : RangeArgument keyword x head mid) :
    IsWholeCall keyword (Text.trim mid) x ↔
      IsName head ∧ Text.trim mid ≠ [] ∧ Balanced (Text.trim mid) := by
  obtain ⟨rfl, hfirst, ⟨stop, hlocate, _⟩, _⟩ := h
  constructor
  · rintro ⟨name, front, behind, hx, hname, _, _, _, hne, hbalanced⟩
    obtain ⟨rfl, _⟩ := append_paren_inj hfirst hname.not_mem_paren hx
    exact ⟨hname, hne, hbalanced⟩
  · rintro ⟨hname, hne, hbalanced⟩
    obtain ⟨front, behind, hmid, hfront, hbehind⟩ := Text.exists_trim mid
    exact ⟨head, front, behind, by rw [← hmid], hname, (RangeKeyword.exists_of_locate? hlocate).1,
      hfront, hbehind, hne, hbalanced⟩

/-- Functions of many values read values of the kind that they compute. -/
theorem Intrinsic.eq_of_parameters_values {kind k : ValueKind} {name : Text}
    (h : (parameters kind).lookup name = some (.values k)) : k = kind := by
  have all : ∀ kind, ∀ e ∈ parameters kind, e.2 = .values .number ∨ e.2 = .values .text →
      e.2 = .values kind := by
    intro kind
    cases kind <;> decide
  have hk := all kind _ (mem_of_lookup_eq_some h) (by cases k <;> simp)
  simpa using hk

namespace Surroundings

/-- Every range that is asked for is the single argument of a function of many values somewhere in
the formula, and ends in a parenthesis behind a keyword; it is one whole call exactly when a name
stands before the parenthesis, and what is inside is balanced and not blank. -/
theorem range_of_mem_trace {s : Surroundings} {kind k : ValueKind} {formula e : Text}
    {keyword : RangeKeyword} (h : .range keyword k e ∈ (s.eval kind formula).trace) :
    ∃ t name x head mid, Subformula kind (normalize formula) k t ∧
      .call name [x] ∈ (Lexemes.ofText k t).pieces ∧
      (Intrinsic.parameters k).lookup (Text.foldCase name) = some (.values k) ∧
      RangeArgument keyword x head mid ∧ e = Text.trim mid ∧
      (IsWholeCall keyword e x ↔ IsName head ∧ e ≠ [] ∧ Balanced e) := by
  obtain ⟨kind', t, ht, hraises⟩ := s.mayAsk_of_mem_trace h
  generalize hq : Callback.range keyword k e = q at hraises
  cases hraises with
  | @range name e' arguments k' keyword' hc hp hd =>
    cases hq
    obtain rfl := Intrinsic.eq_of_parameters_values hp
    have hcut := Lexemes.all_iff.mp (Lexemes.read_cutFrom k 0 t) _ hc
    obtain ⟨x, head, mid, rfl, hx, rfl⟩ :=
      exists_of_delegated (fun x hx => (hcut.argument hx).2.1) hd
    exact ⟨t, name, x, head, mid, ht.subformula, hc, hp, hx, rfl, hx.isWholeCall_iff⟩
  | name => cases kind' <;> cases hq
  | call => cases kind' <;> cases hq

/-- A sum whose single argument is delegated asks for the range. -/
theorem mem_trace_sum (s : Surroundings) {x e : Text} {keyword : RangeKeyword}
    (hx : x.Standalone) (hd : Intrinsic.delegated [x] = .ok (some (keyword, e))) :
    .range keyword .number e ∈ (s.eval .number (Text.call "sum".toList [x])).trace := by
  have hsum : Intrinsic.Calls "sum".toList (.atLeast 1 Intrinsic.sum) :=
    ⟨by decide, by decide, by rfl⟩
  have hnumbers : .range keyword .number e ∈ (Intrinsic.numbers s.ambient [x]).trace := by
    have hsource : [x].map s.ambient.source = [x] := rfl
    unfold Intrinsic.numbers
    rw [hsource, hd]
    show _ ∈ (Intrinsic.askRange s.ambient keyword .number e >>= fun vs =>
      Run.each (fun v => .ofExcept (Intrinsic.numberOf v)) vs).trace
    exact Run.mem_trace_bind (List.mem_singleton_self _) _
  have hcall : s.evalNumber (Text.call "sum".toList [x]) =
      (Intrinsic.sum s.ambient [x]).blamedOn "sum".toList :=
    evalNumber_of_calls hsum (by simpa using hx) rfl
  refine Run.mem_trace_bind ?_ _
  rw [hcall]
  exact Run.mem_trace_bind hnumbers _

theorem range_of_mem_trace_childs :
    ∃ x head mid, RangeArgument .childs x head mid ∧ "a".toList = Text.trim mid ∧
      (IsWholeCall .childs "a".toList x ↔
        IsName head ∧ "a".toList ≠ [] ∧ Balanced "a".toList) := by
  have hd : Intrinsic.delegated ["childs(a)".toList] = .ok (some (.childs, "a".toList)) := by
    decide
  have h := mem_trace_sum (initial {}) ⟨⟨⟨'c', by decide⟩, ')', by decide⟩, by decide, by decide⟩ hd
  obtain ⟨_, _, x, head, mid, _, _, _, hx, he, hiff⟩ := range_of_mem_trace h
  exact ⟨x, head, mid, hx, he, hiff⟩

/-- Two parentheses side by side are delegated as if they were one. -/
theorem exists_range_not_balanced : ¬ ∀ (s : Surroundings) (kind k : ValueKind)
    (formula e : Text) (keyword : RangeKeyword),
    .range keyword k e ∈ (s.eval kind formula).trace → Balanced e := by
  intro h
  have hd : Intrinsic.delegated ["childs(a)+(b)".toList] =
      .ok (some (.childs, "a)+(b".toList)) := by decide
  have hasked := mem_trace_sum (initial {}) ⟨⟨⟨'c', by decide⟩, ')', by decide⟩,
    by decide, by decide⟩ hd
  exact absurd (h _ _ _ _ _ _ hasked) (by decide)

end Surroundings

end FormulaEngine
