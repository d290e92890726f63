import FormulaEngine.Proofs.Calls

/-! # Literals as arguments

The lexer knows two sorts of quotes, and the cutting of arguments knows one. So a literal in single
quotes is always one argument, and one in double quotes is when its content would be one by
itself. Nothing else is needed for a concatenation of literals to give their contents, and nothing
less. -/

namespace FormulaEngine

/-- A text as a string literal, in a quote that does not occur in it. -/
structure Literal where
  quote : Char
  content : Text
  quote_mem : quote = '\'' ∨ quote = '"'
  not_mem : quote ∉ content
  unbroken : content.Unbroken

namespace Literal

open Text (IsArgument)

def toText (l : Literal) : Text := l.quote :: (l.content ++ [l.quote])

/-- The call that concatenates literals. -/
def concatenation (ls : List Literal) : Text :=
  Text.call "concat".toList (ls.map toText)

theorem isBlank_quote (l : Literal) : isBlank l.quote = false := by
  rcases l.quote_mem with h | h <;> rw [h] <;> decide

theorem tight_toText (l : Literal) : Text.Tight l.toText :=
  ⟨⟨_, rfl, l.isBlank_quote⟩, l.quote, by rw [toText, ← List.cons_append, List.getLast?_concat],
    l.isBlank_quote⟩

theorem isArgument_toText_iff (l : Literal) :
    IsArgument l.toText ↔ (l.quote = '"' → IsArgument l.content) := by
  rcases l.quote_mem with h | h
  · have := Text.isArgument_quoted (h ▸ l.not_mem)
    simpa [toText, h] using this
  · have hplain : Nesting.IsPlain '"' := by simp [Nesting.IsPlain]
    rw [toText, h, Text.isArgument_cons_iff hplain, Text.isArgument_concat_iff hplain]
    simp

theorem unspaced_quote (l : Literal) (t : Text) :
    Lexer.unspaced (l.quote :: t) = l.quote :: t := by
  rcases l.quote_mem with h | h <;> rw [h] <;> rfl

/-- A literal in front of a text is one token. -/
theorem scan?_toText (l : Literal) (t : Text) :
    Symbol.scan? (Lexer.unspaced (l.toText ++ t)) =
      some (.token (.string l.content), l.toText.length) := by
  rw [toText, List.cons_append, unspaced_quote, List.append_assoc, List.singleton_append,
    Symbol.scan?_string l.quote_mem l.not_mem]
  simp

/-! ## Where the first argument ends -/

/-- A beginning of a literal that is not all of it is not read. -/
theorem not_reads_beginning (l : Literal) {t : Text} (ht : l.quote ∉ t) (ps : List Piece) :
    ¬ (Lexer.ofText (Text.trim (l.quote :: t))).Reads .text ps := by
  refine Lexer.not_reads_of_scan_none ?_
  rw [Text.trim_cons l.isBlank_quote]
  refine (congrArg Symbol.scan? (l.unspaced_quote _)).trans ?_
  exact Symbol.scan?_openString l.quote_mem fun hm => ht (Text.trimEnd_subset t hm)

/-- A literal with a comma behind it is not read. -/
theorem not_reads_comma (l : Literal) (t : Text) (ps : List Piece) :
    ¬ (Lexer.ofText (Text.trim (l.toText ++ ',' :: t))).Reads .text ps := by
  have htrim : Text.trim (l.toText ++ ',' :: t) = l.toText ++ ',' :: Text.trimEnd t := by
    rw [toText, List.cons_append, Text.trim_cons l.isBlank_quote,
      Text.trimEnd_append_cons (by decide)]
    rfl
  rw [htrim]
  obtain ⟨l', hn, hl'⟩ :=
    Lexer.next_of_scan (l := .ofText _) (l.scan?_toText (',' :: Text.trimEnd t))
  have hbehind : l'.cursor.after = ',' :: Text.trimEnd t := by
    rw [hl']
    show (Lexer.unspaced (l.quote :: _)).drop _ = _
    rw [unspaced_quote]
    exact List.drop_left
  intro hr
  cases hr with
  | finish hn' | call hn' | apply hn' => cases hn.symm.trans hn'
  | token hn' _ hr =>
    cases hn.symm.trans hn'
    refine Lexer.not_reads_of_scan_invalid (w := 0) ?_ hr
    rw [hbehind]
    rfl

/-- An argument that begins with a literal and is read is the literal. -/
theorem eq_toText_of_reads (l : Literal) {p u v : Text} {c : Char} {ps : List Piece}
    (hr : (Lexer.ofText (Text.trim p)).Reads .text ps) (hc : c = ',' ∨ c = ')')
    (hu : u = [')'] ∨ ∃ w, u = ',' :: w) (h : l.toText ++ u = p ++ c :: v) : p = l.toText := by
  have hquote : l.quote ≠ c := by
    rcases l.quote_mem with hq | hq <;> rcases hc with rfl | rfl <;> rw [hq] <;> decide
  rcases List.append_eq_append_iff.mp h with ⟨a, rfl, ha⟩ | ⟨b, hb, hv⟩
  · -- the argument goes on behind the literal
    cases a with
    | nil => exact List.append_nil _
    | cons d a =>
      rcases hu with rfl | ⟨w, rfl⟩
      · simp at ha
      · obtain ⟨rfl, _⟩ := List.cons.inj ha
        exact absurd hr (l.not_reads_comma _ _)
  · -- the argument ends within the literal
    cases b with
    | nil => simpa using hb.symm
    | cons d b =>
      obtain ⟨rfl, _⟩ := List.cons.inj hv
      cases p with
      | nil => exact absurd (List.cons.inj hb).1 hquote
      | cons q p =>
        obtain ⟨rfl, hcontent⟩ := List.cons.inj hb
        refine absurd hr (l.not_reads_beginning (fun hm => ?_) _)
        have hp : p <+: l.content ++ [l.quote] := ⟨c :: b, hcontent.symm⟩
        rcases List.prefix_concat_iff.mp hp with rfl | hp
        · simpa using congrArg List.length hcontent
        · exact l.not_mem (hp.subset hm)

/-! ## Which lists of literals come apart -/

theorem concatenated_cons (l : Literal) (ls : List Literal) :
    ∃ u, (u = [')'] ∨ ∃ w, u = ',' :: w) ∧
      Text.join ", ".toList ((l :: ls).map toText) ++ [')'] = l.toText ++ u := by
  cases ls with
  | nil => exact ⟨[')'], .inl rfl, by simp⟩
  | cons l' ls =>
    refine ⟨',' :: ' ' :: (Text.join ", ".toList ((l' :: ls).map toText) ++ [')']), .inr ⟨_, rfl⟩, ?_⟩
    rw [List.map_cons, List.map_cons, Text.join_cons_cons]
    simp

theorem exists_behind (p : Text) (ps : List Text) (rest : Text) :
    ∃ c v, (c = ',' ∨ c = ')') ∧ Text.join [','] (p :: ps) ++ ')' :: rest = p ++ c :: v ∧
      (c = ',' → ps ≠ [] ∧ v = Text.join [','] ps ++ ')' :: rest) := by
  cases ps with
  | nil => exact ⟨')', rest, .inr rfl, by simp, fun h => absurd h (by decide)⟩
  | cons q ps =>
    refine ⟨',', Text.join [','] (q :: ps) ++ ')' :: rest, .inl rfl, ?_, fun _ => ⟨by simp, rfl⟩⟩
    rw [Text.join_cons_cons]
    simp

/-- When the arguments that are cut out of a list of literals are all read, they are the
literals. `g` is what stands between a comma and the next literal. -/
theorem isArgument_of_reads {ls : List Literal} {ps : List Text} (hls : ls ≠ []) (hps : ps ≠ [])
    (hp : ∀ p ∈ ps, IsArgument p)
    (hr : ∀ p ∈ ps, ∃ qs, (Lexer.ofText (Text.trim p)).Reads .text qs) {g rest : Text}
    (hg : g = [] ∨ g = [' '])
    (h : g ++ (Text.join ", ".toList (ls.map toText) ++ [')']) =
      Text.join [','] ps ++ ')' :: rest) :
    ∀ l ∈ ls, IsArgument l.toText := by
  induction ls generalizing ps g with
  | nil => exact absurd rfl hls
  | cons l ls ih =>
    obtain ⟨p, ps, rfl⟩ := List.exists_cons_of_ne_nil hps
    obtain ⟨c, v, hc, hbehind, hmore⟩ := exists_behind p ps rest
    obtain ⟨u, hu, hfirst⟩ := concatenated_cons l ls
    rw [hbehind, hfirst] at h
    obtain ⟨qs, hqs⟩ := hr p (by simp)
    obtain ⟨hfit, harg⟩ : p = g ++ l.toText ∧ IsArgument l.toText := by
      have harg := hp p (by simp)
      rcases hg with rfl | rfl
      · obtain rfl := l.eq_toText_of_reads hqs hc hu h
        exact ⟨rfl, harg⟩
      · cases p with
        | nil =>
          obtain ⟨rfl, _⟩ := List.cons.inj h
          exact absurd hc (by decide)
        | cons b p =>
          obtain ⟨rfl, hbeyond⟩ := List.cons.inj h
          have htrim := Text.trim_blanks_append (a := [' ']) (by decide) p
          rw [show ' ' :: p = [' '] ++ p from rfl, htrim] at hqs
          obtain rfl := l.eq_toText_of_reads hqs hc hu hbeyond
          exact ⟨rfl, (Text.isArgument_cons_iff (by simp [Nesting.IsPlain])).mp harg⟩
    refine List.forall_mem_cons.mpr ⟨harg, ?_⟩
    cases ls with
    | nil => simp
    | cons l' ls =>
      rw [hfit, List.append_assoc] at h
      have hnext := List.append_cancel_left (List.append_cancel_left h)
      rw [List.map_cons, List.map_cons, Text.join_cons_cons, List.append_assoc,
        List.append_assoc] at hfirst
      obtain rfl := List.append_cancel_left hfirst
      obtain ⟨rfl, hrest⟩ := List.cons.inj hnext
      obtain ⟨hne, rfl⟩ := hmore rfl
      exact ih (by simp) hne (fun q hq => hp q (by simp [hq])) (fun q hq => hr q (by simp [hq]))
        (.inr rfl) hrest

/-! ## The value of a concatenation -/

theorem unbroken_toText (l : Literal) : l.toText.Unbroken := by
  have hquote : Text.Unbroken [l.quote] := by
    rcases l.quote_mem with h | h <;> rw [h] <;> decide
  exact hquote.append (l.unbroken.append hquote)

theorem standalone_toText {l : Literal} (h : IsArgument l.toText) : l.toText.Standalone :=
  ⟨l.tight_toText, h, l.unbroken_toText⟩

theorem normalize_toText (l : Literal) : normalize l.toText = l.toText :=
  normalize_eq_self l.tight_toText.trim_eq l.unbroken_toText

theorem unbroken_join (ls : List Literal) :
    (Text.join ", ".toList (ls.map toText)).Unbroken := by
  refine .join (by decide) fun t ht => ?_
  obtain ⟨l, _, rfl⟩ := List.mem_map.mp ht
  exact l.unbroken_toText

theorem isName_concat : IsName "concat".toList := by decide

theorem normalize_concatenation (ls : List Literal) :
    normalize (concatenation ls) = concatenation ls :=
  Text.normalize_call isName_concat (by simpa using fun l _ => l.unbroken_toText)

variable (s : Surroundings)

theorem evalText_toText (l : Literal) : s.evalText l.toText = Pure.pure l.content := by
  have hbegins : Begins l.toText := by
    refine ⟨l.quote, rfl, ?_⟩
    rcases l.quote_mem with h | h <;> rw [h] <;> decide
  have hspells : Lexemes.Spells .text l.toText [.token (.string l.content)] :=
    .token hbegins fun rest _ => (hbegins.append rest).unspaced ▸ l.scan?_toText rest
  rw [s.evalText_of_spells (d := .last (.chain (.literal l.content) .stop)) l.normalize_toText
    hspells]
  rfl

theorem callFunction_concat (c : Context Text) (arguments : List Text) :
    TextExpr.callFunction c "concat".toList arguments =
      if 2 ≤ arguments.length then (Intrinsic.concatenate c arguments).blamedOn "concat".toList
      else .fail (.parameterCount "concat".toList (.atLeast 2) arguments.length) := by
  have hname : Intrinsic.isIntrinsic "concat".toList = true := by decide
  have htable : (Intrinsic.textTable (A := Text)).lookup (Text.foldCase "concat".toList) =
      some (.atLeast 2 Intrinsic.concatenate) := by rfl
  unfold TextExpr.callFunction
  rw [if_pos hname, Intrinsic.callText, Intrinsic.call, htable]
  by_cases h : 2 ≤ arguments.length
  · simp only [Body.run?, if_pos h]
  · simp only [Body.run?, if_neg h, Body.arity]

/-- A concatenation of literals that are arguments gives their contents, without a question. -/
theorem evalText_concatenation {ls : List Literal} (hlen : 2 ≤ ls.length)
    (h : ∀ l ∈ ls, IsArgument l.toText) :
    s.evalText (concatenation ls) = Pure.pure (ls.map content).flatten := by
  have hcall : s.evalText (Text.call "concat".toList (ls.map toText)) = _ :=
    s.evalText_call isName_concat (by simpa using fun l hl => standalone_toText (h l hl))
  have heach : Run.each s.ambient.text (ls.map toText) = Pure.pure (ls.map content) :=
    Run.each_map_of_pure fun l _ => evalText_toText s l
  rw [concatenation, hcall, callFunction_concat, if_pos (by simpa using hlen),
    Intrinsic.concatenate, heach]
  rfl

/-- An expression that begins with a call and has a value gives the call a value. -/
theorem exists_value_of_call {name : Text} {arguments : List Text} {d : TextPhrase}
    {ps ps' : List Piece} (hp : d.pieces ++ ps = .call name arguments :: ps') {v : Text}
    (hv : (d.value s).result = .ok v) :
    ∃ w, (TextExpr.callFunction s.ambient name arguments).result = .ok w := by
  have left : ∀ (t : TextTail) (e : TextExpr) {v : Text},
      ((t.exprFrom e).eval s.ambient).result = .ok v →
        ∃ w, (e.eval s.ambient).result = .ok w := by
    intro t
    induction t using TextTail.rec (motive_1 := fun _ => True) (motive_3 := fun _ => True) with
    | stop => exact fun e v h => ⟨v, h⟩
    | more d t _ ih =>
      intro e v h
      obtain ⟨w, hw⟩ := ih _ h
      obtain ⟨u, hu, _⟩ := Run.exists_of_bind hw
      exact ⟨u, hu⟩
    | chain | literal | name | enclosed | call => trivial
  cases d with
  | chain term tail =>
    cases term with
    | call n xs =>
      simp only [TextPhrase.pieces, TextTerm.pieces, List.cons_append, List.cons.injEq,
        Piece.call.injEq] at hp
      obtain ⟨⟨rfl, rfl⟩, _⟩ := hp
      exact left tail _ hv
    | literal | name | enclosed => simp [TextPhrase.pieces, TextTerm.pieces] at hp

/-- The first thing that a concatenation does is to read all of its arguments. -/
theorem exists_of_value {ls : List Literal} {v : Text}
    (h : (s.evalText (concatenation ls)).result = .ok v) :
    ∃ arguments taken, Arguments.read (Text.join ", ".toList (ls.map toText) ++ [')']) =
        .ok (arguments, taken) ∧ 2 ≤ arguments.length ∧
      ∀ x ∈ arguments, ∃ w, (s.evalText x).result = .ok w := by
  obtain ⟨d, hd, hv⟩ := s.text_derived _ h
  rw [normalize_concatenation] at hd
  obtain ⟨arguments, taken, ps, hread, hps⟩ :=
    Lexer.exists_of_reads_call isName_concat rfl rfl hd
  obtain ⟨ps', hfirst⟩ := d.exists_pieces_first TextPhrase.pieces
  obtain ⟨w, hw⟩ := hv.first
  obtain ⟨u, hu⟩ := exists_value_of_call s (hfirst.symm.trans hps) hw
  rw [callFunction_concat] at hu
  split at hu
  · rename_i hlen
    obtain ⟨ts, hts, _⟩ := Run.exists_of_bind (Run.result_blamedOn_eq_ok.mp hu)
    exact ⟨arguments, taken, hread, hlen, Run.exists_of_each hts⟩
  · cases hu

/-- A concatenation of literals that has a value has them as its arguments. -/
theorem isArgument_of_value {ls : List Literal} (hls : ls ≠ []) {v : Text}
    (h : (s.evalText (concatenation ls)).result = .ok v) : ∀ l ∈ ls, IsArgument l.toText := by
  obtain ⟨arguments, taken, hread, hlen, hvalues⟩ := exists_of_value s h
  obtain ⟨ps, rest, hne, hps, hjoin, hpassed, _⟩ := Arguments.read_eq_ok_iff.mp hread
  obtain rfl : arguments = ps.map Text.trim := by
    rw [hpassed, Arguments.passed, if_neg]
    intro hblank
    rw [hpassed, Arguments.passed, if_pos hblank] at hlen
    simp at hlen
  refine isArgument_of_reads hls hne hps (fun p hp => ?_) (.inl rfl) hjoin
  have hunbroken : (Text.trim p).Unbroken := by
    intro c hc
    have hmem : c ∈ Text.join [','] ps ++ ')' :: rest :=
      List.mem_append_left _ ((Arguments.sublist_join hp).subset (Text.trim_subset p hc))
    rw [← hjoin] at hmem
    exact (unbroken_join ls).append (by decide : Text.Unbroken [')']) c hmem
  obtain ⟨w, hw⟩ := hvalues _ (List.mem_map_of_mem hp)
  obtain ⟨d, hd, _⟩ := s.text_derived _ hw
  rw [normalize_eq_self (Text.trim_trim p) hunbroken] at hd
  exact ⟨_, hd⟩

/-- Concatenating literals gives their contents exactly when every text in double quotes would be
one argument by itself: its single quotes are closed, and outside them its parentheses match and it
has no comma outside of them. In single quotes anything goes. -/
theorem concatenation_iff {ls : List Literal} (hlen : 2 ≤ ls.length) :
    (s.evalText (concatenation ls)).result = .ok (ls.map content).flatten ↔
      ∀ l ∈ ls, l.quote = '"' → IsArgument l.content := by
  constructor
  · intro h l hl
    have hls : ls ≠ [] := by
      rintro rfl
      simp at hlen
    exact l.isArgument_toText_iff.mp (isArgument_of_value s hls h l hl)
  · intro h
    rw [evalText_concatenation s hlen fun l hl => l.isArgument_toText_iff.mpr (h l hl)]
    rfl

theorem concatenation_iff_parenthesized :
    ((Surroundings.initial {}).evalText "concat(\"(a,b)\", ',')".toList).result =
      .ok "(a,b),".toList := by
  let ls : List Literal := [⟨'"', "(a,b)".toList, .inr rfl, by decide, by decide⟩,
    ⟨'\'', ",".toList, .inl rfl, by decide, by decide⟩]
  have h : ∀ l ∈ ls, l.quote = '"' → IsArgument l.content := by
    simp only [ls, List.forall_mem_cons]
    exact ⟨fun _ => by decide, fun hq => absurd hq (by decide), fun l hl => nomatch hl⟩
  have hformula : concatenation ls = "concat(\"(a,b)\", ',')".toList := by decide
  rw [← hformula]
  have hlen : 2 ≤ ls.length := by decide
  exact (concatenation_iff (Surroundings.initial {}) hlen).mpr h

/-- A comma in double quotes ends an argument, and leaves a literal that is not closed. -/
theorem exists_concatenation_ne : ¬ ∀ (s : Surroundings) (ls : List Literal), 2 ≤ ls.length →
    (s.evalText (concatenation ls)).result = .ok (ls.map content).flatten := by
  intro h
  let ls : List Literal := [⟨'"', "a,b".toList, .inr rfl, by decide, by decide⟩,
    ⟨'\'', "c".toList, .inl rfl, by decide, by decide⟩]
  have harg := isArgument_of_value _ (by simp [ls]) (h (Surroundings.initial {}) ls (by decide))
  exact absurd (harg _ (List.mem_cons_self ..)) (by decide)

end Literal

end FormulaEngine
