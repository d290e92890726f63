import FormulaEngine.Proofs.Binary64.Drift
import FormulaEngine.Proofs.Decimal.RoundTrip
import FormulaEngine.Proofs.Tokens

/-! # What numerals denote

A text of digits with a decimal separator is read in two ways. As an amount it is rounded once. As a
numeral of a formula it is added up from the left, each place with a weight that is a tenth of the
one before, and every weight, product and sum is rounded. The two agree where there are no places
other than zeros; otherwise the sum drifts from the decimal by the roundings that it takes. -/

namespace FormulaEngine

open Binary64 Decimal

namespace Binary64

/-- The signed 64-bit range is not left by adding little to it. -/
theorem nearest_le_of_le_add_two {v : ℚ} (h : v ≤ 2 ^ 63 + 2) : nearest v ≤ 2 ^ 63 := by
  have hlast : lastExponent (2 ^ 63 + 2) = 11 := by
    refine lastExponent_eq (by norm_num) ?_ (.inl ?_) <;> rw [abs_of_pos (by positivity)] <;>
      norm_num
  have hmax : nearest (2 ^ 63 + 2) = (2 ^ 52 : ℤ) * 2 ^ (11 : ℤ) := by
    refine nearest_eq hlast ?_
    rw [if_pos (by norm_num), abs_le]
    norm_num
  refine (nearest_mono h).trans (hmax.trans ?_).le
  norm_num

end Binary64

/-! ## Adding up places -/

/-- The sum and the weight behind another place. -/
def addPlace (s : Float × Float) (c : Char) : Float × Float :=
  (s.1 + s.2 / 10 * Float.ofNat (c.toNat - 48), s.2 / 10)

/-- The sum and the weight behind all places. -/
def addPlaces (whole : ℕ) (places : Text) : Float × Float :=
  places.foldl addPlace (Float.ofNat whole, 1)

theorem decimalValue_eq (whole : ℕ) (places : Text) :
    decimalValue whole places = (addPlaces whole places).1 := rfl

theorem addPlaces_concat (whole : ℕ) (places : Text) (c : Char) :
    addPlaces whole (places ++ [c]) = addPlace (addPlaces whole places) c := by
  simp [addPlaces]

/-- What the sum and the weight are when they have been added up from so many places: near the
decimal and the power of ten, and small enough for the next place. -/
structure AddedUp (whole : ℕ) (places : Text) (s : Float × Float) : Prop where
  sum : ∃ v, value? s.1 = some v ∧ 0 ≤ v ∧ v ≤ 2 ^ 63 ∧
    Drifts (places.length + 2) (places.length * growth ^ places.length * (32 * speck)) v
      (whole + digitsValue places / 10 ^ places.length)
  weight : ∃ w, value? s.2 = some w ∧ 0 ≤ w ∧ w ≤ 1 ∧
    Drifts places.length (2 * speck) w (1 / 10 ^ places.length)

theorem le_of_le_maxInt64 {n : ℕ} (h : (n : ℤ) ≤ maxInt64) : n ≤ 2 ^ 63 := by
  have hz : (n : ℤ) ≤ 2 ^ 63 := h.trans (by decide)
  exact_mod_cast hz

theorem addedUp_nil {whole : ℕ} (h : (whole : ℤ) ≤ maxInt64) :
    AddedUp whole [] (addPlaces whole []) where
  sum := by
    have hle : (whole : ℚ) ≤ 2 ^ 63 := by exact_mod_cast le_of_le_maxInt64 h
    have habs : |(whole : ℚ)| ≤ 2 ^ 63 := by rwa [Nat.abs_cast]
    refine ⟨nearest whole, (isRounded_ofNat whole).value?_eq habs (by norm_num),
      nearest_nonneg (Nat.cast_nonneg _), (representable_two_pow 63).nearest_le hle, ?_⟩
    have hdrift := (Drifts.nearest_natCast whole).mono (l := 2) (by norm_num) le_rfl
      (Nat.cast_nonneg _)
    simpa [digitsValue] using hdrift
  weight := by
    have hone : value? (Float.ofNat 1) = some ((1 : ℕ) : ℚ) := value?_ofNat (by norm_num)
    rw [Nat.cast_one] at hone
    refine ⟨1, hone, by norm_num, le_rfl, ?_⟩
    have hspeck := speck_pos
    have hdrift := (Drifts.refl 1).mono (l := 0) (c := 2 * speck) le_rfl (by linarith) (by norm_num)
    simpa using hdrift

theorem growth_mem : 1 ≤ growth ∧ growth ≤ 19 / 18 := by norm_num [growth]

/-- The next weight. -/
theorem exists_weight {p : ℕ} {x : Float} {w : ℚ} (hw : value? x = some w) (hw₀ : 0 ≤ w)
    (hw₁ : w ≤ 1) (h : Drifts p (2 * speck) w (1 / 10 ^ p)) :
    ∃ w', value? (x / 10) = some w' ∧ 0 ≤ w' ∧ w' ≤ 1 / 8 ∧
      Drifts (p + 1) (2 * speck) w' (1 / 10 ^ (p + 1)) := by
  obtain ⟨hg₁, hg⟩ := growth_mem
  have hspeck := speck_pos
  have hten : value? (Float.ofNat 10) = some ((10 : ℕ) : ℚ) := value?_ofNat (by norm_num)
  have hrounded : IsRounded (x / 10) (w / (10 : ℕ)) := isRounded_div hw hten (by norm_num)
  push_cast at hrounded
  have habs : |w / 10| ≤ 2 ^ 0 := by
    rw [abs_of_nonneg (by positivity)]
    linarith
  have heighth : Representable (1 / 8) := by
    have hpower : ((2 : ℚ) ^ (-3 : ℤ)) = 1 / 8 := by norm_num
    exact hpower ▸ representable_two_zpow (by norm_num)
  refine ⟨nearest (w / 10), hrounded.value?_eq habs (by norm_num), nearest_nonneg (by positivity),
    heighth.nearest_le (by linarith), ?_⟩
  have hexact : (1 / 10 : ℚ) * (1 / 10 ^ p) = 1 / 10 ^ (p + 1) := by
    rw [pow_succ]
    ring
  have hdrift := (h.mul_left (a := 1 / 10) (by norm_num)).nearest (by positivity)
  rw [hexact, one_div_mul_eq_div 10 w] at hdrift
  refine hdrift.mono le_rfl ?_ (by positivity)
  linarith [mul_le_mul_of_nonneg_right hg hspeck.le]

/-- The next addend. -/
theorem exists_addend {p d : ℕ} {x : Float} {w : ℚ} (hw : value? x = some w) (hw₀ : 0 ≤ w)
    (hw₁ : w ≤ 1 / 8) (h : Drifts p (2 * speck) w (1 / 10 ^ p)) (hd : d ≤ 9) :
    ∃ a, value? (x * Float.ofNat d) = some a ∧ 0 ≤ a ∧ a ≤ 2 ∧
      Drifts (p + 1) (20 * speck) a (d / 10 ^ p) := by
  obtain ⟨hg₁, hg⟩ := growth_mem
  have hspeck := speck_pos
  have hdq : (d : ℚ) ≤ 9 := by exact_mod_cast hd
  have hd₀ : (0 : ℚ) ≤ d := Nat.cast_nonneg d
  have hvalue : value? (Float.ofNat d) = some (d : ℚ) := value?_ofNat (by omega)
  have hle : d * w ≤ 2 := by nlinarith
  have hrounded := isRounded_mul hw hvalue
  rw [mul_comm] at hrounded
  have habs : |d * w| ≤ 2 ^ 1 := by rwa [abs_of_nonneg (by positivity), pow_one]
  refine ⟨nearest (d * w), hrounded.value?_eq habs (by norm_num), nearest_nonneg (by positivity),
    ?_, ?_⟩
  · simpa using (representable_two_pow 1).nearest_le (by simpa using hle)
  · have hdrift := (h.mul_left hd₀).nearest (by positivity)
    rw [mul_one_div] at hdrift
    refine hdrift.mono le_rfl ?_ (by positivity)
    calc growth * (d * (2 * speck)) + speck ≤ 19 / 18 * (9 * (2 * speck)) + speck := by gcongr
      _ = 20 * speck := by ring

/-- Every place takes three roundings more, but only its own sum enlarges what was off before. -/
theorem AddedUp.concat {whole : ℕ} {places : Text} {s : Float × Float}
    (h : AddedUp whole places s) {c : Char} (hc : c.isDigit = true) :
    AddedUp whole (places ++ [c]) (addPlace s c) := by
  obtain ⟨v, hv, hv₀, hv₁, hvx⟩ := h.sum
  obtain ⟨w, hw, hw₀, hw₁, hwx⟩ := h.weight
  obtain ⟨w', hw', hw₀', hw₁', hwx'⟩ := exists_weight hw hw₀ hw₁ hwx
  obtain ⟨a, ha, ha₀, ha₂, hax⟩ := exists_addend hw' hw₀' hw₁' hwx' (digit_le hc)
  obtain ⟨hg₁, hg⟩ := growth_mem
  have hspeck := speck_pos
  rw [addPlace]
  refine ⟨?_, w', hw', hw₀', by linarith, by rwa [List.length_append]⟩
  have hrounded := isRounded_add hv ha
  have habs : |v + a| ≤ 2 ^ 64 := by
    rw [abs_of_nonneg (by positivity)]
    linarith
  have hvalue := hrounded.value?_eq habs (by norm_num)
  refine ⟨nearest (v + a), hvalue, nearest_nonneg (by positivity),
    nearest_le_of_le_add_two (by linarith), ?_⟩
  have hdrift := (hvx.add hax).nearest (by positivity)
  have hexact : (whole + digitsValue places / 10 ^ places.length +
      (c.toNat - 48 : ℕ) / 10 ^ (places.length + 1) : ℚ) =
      whole + digitsValue (places ++ [c]) / 10 ^ (places.length + 1) := by
    rw [digitsValue_concat, pow_succ]
    push_cast
    field_simp
    ring
  rw [hexact] at hdrift
  rw [List.length_append, List.length_singleton]
  refine hdrift.mono (by omega) ?_ (by positivity)
  have hpower : growth ≤ growth ^ (places.length + 1) := le_self_pow₀ hg₁ (by omega)
  calc growth * (places.length * growth ^ places.length * (32 * speck) + 20 * speck) + speck
      = places.length * growth ^ (places.length + 1) * (32 * speck) +
          (20 * growth + 1) * speck := by ring
    _ ≤ places.length * growth ^ (places.length + 1) * (32 * speck) +
          growth ^ (places.length + 1) * 32 * speck := by
      have : 20 * growth + 1 ≤ growth ^ (places.length + 1) * 32 := by linarith
      gcongr
    _ = (places.length + 1 : ℕ) * growth ^ (places.length + 1) * (32 * speck) := by
      push_cast
      ring

theorem addedUp_addPlaces {whole : ℕ} (h : (whole : ℤ) ≤ maxInt64) {places : Text}
    (hplaces : Digits places) : AddedUp whole places (addPlaces whole places) := by
  induction places using List.reverseRecOn with
  | nil => exact addedUp_nil h
  | append_singleton places c ih =>
    rw [addPlaces_concat]
    exact (ih fun d hd => hplaces d (by simp [hd])).concat (hplaces c (by simp))

/-- A whole number is not rounded to zero. -/
theorem nearest_natCast_ne_zero {n : ℕ} (hn : n ≠ 0) : nearest n ≠ 0 := by
  have hone : (1 : ℚ) ≤ n := by exact_mod_cast Nat.one_le_iff_ne_zero.mpr hn
  have hnearest := representable_one.le_nearest hone
  linarith

theorem value?_ofNat_of_le {n : ℕ} (hn : n ≤ 2 ^ 63) :
    value? (Float.ofNat n) = some (nearest n) := by
  have habs : |(n : ℚ)| ≤ 2 ^ 63 := by
    rw [Nat.abs_cast]
    exact_mod_cast hn
  exact (isRounded_ofNat n).value?_eq habs (by norm_num)

/-- What is rounded from a whole number is the number itself. -/
theorem eq_ofNat_of_value? {x : Float} {n : ℕ} (hx : value? x = some (nearest n))
    (hn : n ≤ 2 ^ 63) (hzero : n = 0 → x = 0) : x = Float.ofNat n := by
  rcases eq_or_ne n 0 with rfl | hne
  · exact hzero rfl
  · exact eq_of_value? hx (value?_ofNat_of_le hn) (nearest_natCast_ne_zero hne)

/-- Zeros behind the separator add nothing. -/
theorem addPlaces_zeros {whole : ℕ} (h : (whole : ℤ) ≤ maxInt64) {places : Text}
    (hplaces : ∀ c ∈ places, c = '0') : (addPlaces whole places).1 = Float.ofNat whole := by
  induction places using List.reverseRecOn with
  | nil => rfl
  | append_singleton places c ih =>
    have hzeros : ∀ c ∈ places, c = '0' := fun c hc => hplaces c (by simp [hc])
    obtain rfl : c = '0' := hplaces c (by simp)
    have hdigits : Digits places := by
      intro c hc
      obtain rfl := hzeros c hc
      rfl
    obtain ⟨w, hw, hw₀, hw₁, hwx⟩ := (addedUp_addPlaces h hdigits).weight
    obtain ⟨w', hw', -⟩ := exists_weight hw hw₀ hw₁ hwx
    have hnone : value? (Float.ofNat 0) = some ((0 : ℕ) : ℚ) := value?_ofNat (by norm_num)
    have hproduct := (isRounded_mul hw' hnone).value?_eq (k := 0) (by simp) (by norm_num)
    rw [Nat.cast_zero, mul_zero, nearest_zero] at hproduct
    rw [addPlaces_concat, addPlace, ih hzeros]
    refine add_eq_self (value?_ofNat_of_le (le_of_le_maxInt64 h)) hproduct fun hzero => ?_
    rcases eq_or_ne whole 0 with rfl | hne
    · rfl
    · exact absurd hzero (nearest_natCast_ne_zero hne)

/-! ## Reading a decimal both ways -/

/-- Digits, and perhaps a separator with further digits behind it. -/
inductive IsDecimal (digits places : Text) : Text → Prop where
  | whole : places = [] → IsDecimal digits places digits
  | separated {c : Char} : c = '.' ∨ c = ',' → IsDecimal digits places (digits ++ c :: places)

section

variable {digits places t : Text} (hdigits : Digits digits) (hne : digits ≠ [])
  (hplaces : Digits places) (ht : IsDecimal digits places t)

include hdigits ht

/-- A whole part that does not fit is no token. -/
theorem IsDecimal.fits {k : Token} {n : ℕ} (h : Symbol.scanNumeral t = (.token k, n)) :
    (digitsValue digits : ℤ) ≤ maxInt64 := by
  have htake : t.takeWhile Char.isDigit = digits := by
    cases ht with
    | whole => exact List.takeWhile_eq_self_iff.mpr hdigits
    | separated hc =>
      refine Text.takeWhile_append hdigits fun d hd => ?_
      cases hd
      rcases hc with rfl | rfl <;> rfl
  by_contra hlarge
  simp only [Symbol.scanNumeral, htake, if_neg hlarge, Prod.mk.injEq, reduceCtorEq,
    false_and] at h

include hne

theorem IsDecimal.exists_head : ∃ c r, t = c :: r ∧ c.isDigit = true := by
  obtain ⟨c, r, rfl⟩ := List.exists_cons_of_ne_nil hne
  cases ht with
  | whole => exact ⟨c, r, rfl, hdigits c (by simp)⟩
  | separated => exact ⟨c, _, rfl, hdigits c (by simp)⟩

include hplaces

/-- The numeral that a decimal is read as is the sum of its places. -/
theorem IsDecimal.toFloat_eq {n : Numeral}
    (h : tokenize t = .ok [.token (.numeral n), .finish]) :
    (digitsValue digits : ℤ) ≤ maxInt64 ∧
      n.toFloat = (addPlaces (digitsValue digits) places).1 := by
  obtain ⟨c, r, hcons, hc⟩ := ht.exists_head hdigits hne
  have hfinishes : (Lexer.ofText t).Finishes [.numeral n] := Lexer.finishes_of_tokenizeFrom h
  cases hfinishes with
  | token hnext _ =>
    obtain ⟨w, hscan⟩ := Lexer.scan_of_next hnext
    have hspace : c ≠ ' ' := by
      rintro rfl
      cases hc
    have hunspaced : Lexer.unspaced (Lexer.ofText t).cursor.after = t := by
      rw [hcons]
      exact Lexer.unspaced_cons hspace r
    rw [hunspaced, hcons, Symbol.scan?_digit hc, ← hcons] at hscan
    have hnumeral := Option.some.inj hscan
    have hfits := ht.fits hdigits hnumeral
    refine ⟨hfits, ?_⟩
    have hend : ∀ c, ([] : Text).head? = some c → c.isDigit = false ∧ c ≠ '.' ∧ c ≠ ',' := by simp
    cases ht with
    | whole hnone =>
      have hwhole := Symbol.scanNumeral_whole hdigits hfits hend
      rw [List.append_nil, hnumeral] at hwhole
      cases hwhole
      rw [hnone]
      rfl
    | separated hpoint =>
      have hdecimal := Symbol.scanNumeral_decimal hdigits hfits hpoint hplaces
        fun c hc => (hend c hc).1
      rw [List.append_nil, hnumeral] at hdecimal
      cases hdecimal
      exact decimalValue_eq (digitsValue digits) places

/-- As an amount a decimal is rounded once. -/
theorem IsDecimal.exists_amount :
    ∃ y, readNumber t = .ok y ∧
      IsRounded y (digitsValue (digits ++ places) / 10 ^ places.length) ∧
      (digitsValue (digits ++ places) = 0 → y = 0) := by
  obtain ⟨u, hmap, hscans⟩ : ∃ u, t.map point = u ∧
      Scans u (digitsValue (digits ++ places) * 10 ^ (-places.length : ℤ)) := by
    have hplain : ∀ {u : Text}, Digits u → u.map point = u := by
      intro u hu
      refine map_point_eq_self fun c hc => ?_
      rintro rfl
      cases hu _ hc
    cases ht with
    | whole hnone =>
      refine ⟨digits, hplain hdigits, ?_⟩
      rw [hnone, List.append_nil]
      exact (mantissa_whole hdigits hne).scans
    | separated hpoint =>
      refine ⟨digits ++ '.' :: places, ?_, (mantissa_point hdigits hplaces hne).scans⟩
      rw [List.map_append, List.map_cons, hplain hdigits, hplain hplaces]
      rcases hpoint with rfl | rfl <;> rfl
  obtain ⟨d, hd, hunsigned⟩ := hscans.exists_unsigned
  have hvalue : d.value = digitsValue (digits ++ places) / 10 ^ places.length := by
    rw [hd, zpow_neg, zpow_natCast]
    rfl
  have hsigned : t.map point = signed false u := hmap
  have hread := hunsigned.readAmount?_signed (a := []) (b := []) (by simp) (by simp) hsigned
  rw [List.nil_append, List.append_nil] at hread
  refine ⟨d.nearest, readNumber_of_readAmount? hread, ?_, fun hzero => ?_⟩
  · rw [← hvalue]
    exact isRounded_nearest d
  · exact nearest_eq_zero_of_value (by rw [hvalue, hzero, Nat.cast_zero, zero_div])

end

theorem value_eq (digits places : Text) :
    (digitsValue (digits ++ places) / 10 ^ places.length : ℚ) =
      digitsValue digits + digitsValue places / 10 ^ places.length := by
  rw [digitsValue_append]
  push_cast
  field_simp

theorem digitsValue_eq_zero {t : Text} (h : ∀ c ∈ t, c = '0') : digitsValue t = 0 := by
  rw [List.eq_replicate_of_mem h]
  exact digitsValue_append_zeros [] _

/-- As an amount a decimal is the nearest number. As a numeral it is the same one if all its places
are zeros, and otherwise it is off from the decimal by no more than `p + 2` roundings, where `p` is
the number of its places, and by a little more where numbers have fewer digits. -/
theorem numeral_accuracy {t digits places : Text} {n : Numeral} (hne : digits ≠ [])
    (hdigits : Digits digits) (hplaces : Digits places) (ht : IsDecimal digits places t)
    (hn : tokenize t = .ok [.token (.numeral n), .finish]) :
    let x : ℚ := digitsValue (digits ++ places) / 10 ^ places.length
    let p := places.length
    ∃ y, readNumber t = .ok y ∧ value? y = some (nearest x) ∧
      ((∀ c ∈ places, c = '0') → n.toFloat = y) ∧
      ∃ v, value? n.toFloat = some v ∧
        |v - x| ≤ ((1 + 1 / 2 ^ 53) ^ (p + 2) - 1) * x + p * (1 + 1 / 2 ^ 53) ^ p / 2 ^ 1070 := by
  intro x p
  obtain ⟨y, hread, hrounded, hzero⟩ := ht.exists_amount hdigits hne hplaces
  obtain ⟨hfits, hnumeral⟩ := ht.toFloat_eq hdigits hne hplaces hn
  have hx : x = digitsValue digits + digitsValue places / 10 ^ p := value_eq digits places
  have habs : |x| ≤ 2 ^ 64 := by
    have hwhole : (digitsValue digits : ℚ) ≤ 2 ^ 63 := by exact_mod_cast le_of_le_maxInt64 hfits
    have hlt : (digitsValue places : ℚ) ≤ 10 ^ p := by exact_mod_cast (digitsValue_lt hplaces).le
    have hplace : (digitsValue places : ℚ) / 10 ^ p ≤ 1 := (div_le_one (by positivity)).mpr hlt
    rw [abs_of_nonneg (by positivity), hx]
    linarith
  have hy : value? y = some (nearest x) := hrounded.value?_eq habs (by norm_num)
  refine ⟨y, hread, hy, fun hzeros => ?_, ?_⟩
  · have hnone : digitsValue places = 0 := digitsValue_eq_zero hzeros
    rw [hx, hnone, Nat.cast_zero, zero_div, add_zero] at hy
    rw [hnumeral, addPlaces_zeros hfits hzeros]
    refine (eq_ofNat_of_value? hy (le_of_le_maxInt64 hfits) fun hwhole => hzero ?_).symm
    rw [digitsValue_append, hwhole, hnone, Nat.zero_mul]
  · obtain ⟨v, hv, -, -, hdrift⟩ := (addedUp_addPlaces hfits hplaces).sum
    refine ⟨v, by rwa [hnumeral], ?_⟩
    rw [← hx] at hdrift
    refine hdrift.trans (le_of_eq ?_)
    have hspeck : 32 * speck = 1 / 2 ^ 1070 := by
      rw [speck, zpow_neg, show (1075 : ℤ) = (1070 + 5 : ℕ) by norm_num, zpow_natCast, pow_add]
      field_simp
      norm_num
    rw [hspeck, mul_one_div]
    rfl

/-- The token of a decimal. -/
theorem tokenize_separated {digits places : Text} {c : Char} (hne : digits ≠ [])
    (hdigits : Digits digits) (hc : c = '.' ∨ c = ',') (hplaces : Digits places)
    (hfits : (digitsValue digits : ℤ) ≤ maxInt64) :
    tokenize (digits ++ c :: places) =
      .ok [.token (.numeral (.decimal (decimalValue (digitsValue digits) places))), .finish] :=
  Lexer.tokenize_of_separated (.one _)
    (.cons (.decimal hne hdigits hc hplaces hfits) .nil)

theorem numeral_accuracy_zeros :
    ∃ n : Numeral, tokenize "7,00".toList = .ok [.token (.numeral n), .finish] ∧
      readNumber "7,00".toList = .ok n.toFloat ∧
        value? n.toFloat = some (nearest (digitsValue "700".toList / 10 ^ 2)) := by
  have hne : ['7'] ≠ [] := by simp
  have hdigits : Digits ['7'] := by simp [Digits]
  have hplaces : Digits ['0', '0'] := by simp [Digits]
  have htokens := tokenize_separated hne hdigits (.inr rfl) hplaces (by decide)
  obtain ⟨y, hread, hvalue, hzeros, -⟩ := numeral_accuracy hne hdigits hplaces
    (.separated (.inr rfl)) htokens
  have heq := hzeros (by simp)
  exact ⟨_, htokens, heq ▸ hread, heq ▸ hvalue⟩

/-- Three tenths are a place that the sum is off by one digit. -/
theorem exists_numeral_off :
    ¬ ∀ (t digits places : Text) (n : Numeral), digits ≠ [] → Digits digits → Digits places →
      IsDecimal digits places t → tokenize t = .ok [.token (.numeral n), .finish] →
      readNumber t = .ok n.toFloat := by
  intro h
  have hne : ['0'] ≠ [] := by simp
  have hdigits : Digits ['0'] := by simp [Digits]
  have hplaces : Digits ['3'] := by simp [Digits]
  have htokens := tokenize_separated hne hdigits (.inl rfl) hplaces (by decide)
  have hread := h _ _ _ _ hne hdigits hplaces (.separated (.inl rfl)) htokens
  have hamount : readAmount? "0.3".toList = some 0.3 := by decide +kernel
  rw [show ['0'] ++ '.' :: ['3'] = "0.3".toList from rfl,
    readNumber_of_readAmount? hamount] at hread
  have hsame : (0.3 : Float) = decimalValue (digitsValue ['0']) ['3'] := Except.ok.inj hread
  revert hsame
  decide +kernel

end FormulaEngine
