import TypedConfig.Proofs.Writing

/-!
# Words

A run of key characters is one token, and its whole text decides which: a keyword, an integer of
either width or one that does not fit, a fraction of either width, or else a key. Only a plus sign
behind the run can make the token longer.
-/

namespace TypedConfig.Token

open Source

/-- The characters of keys. -/
def IsKeyCharacter (c : Char) : Prop := c.isAlphanum = true ∨ c ∈ ['_', '$', '@', '.', '-']

/-- Whether a character may stand in a key can be decided. -/
instance : DecidablePred IsKeyCharacter := fun c =>
  inferInstanceAs (Decidable (c.isAlphanum = true ∨ c ∈ ['_', '$', '@', '.', '-']))

/-- An integer with the letter for long integers behind it. -/
inductive LongForm : List Char → Int → Prop
  | mk {digits n letter} : IntegerForm digits n → letter ∈ ['l', 'L'] →
    LongForm (digits ++ [letter]) n

/-- A number with a point or an exponent, and no letter behind it. -/
inductive DoubleForm : List Char → Prop
  | mk {sign mantissa exponent} : sign ∈ [[], ['-']] → Mantissa mantissa → Exponent exponent →
    '.' ∈ mantissa ∨ exponent ≠ [] → DoubleForm (sign ++ mantissa ++ exponent)

/-- A number with the letter for short fractions behind it. -/
inductive FloatForm : List Char → Prop
  | mk {sign mantissa exponent letter} : sign ∈ [[], ['-']] → Mantissa mantissa →
    Exponent exponent → letter ∈ ['f', 'F'] →
    FloatForm (sign ++ mantissa ++ exponent ++ [letter])

/-- The token of a word is that of the form that the word has. -/
structure TokenOfForm (word : String) (kind : TokenKind) : Prop where
  keyword : ∀ k, (word, k) ∈ keywords → kind = k
  int : ∀ n, IntegerForm word.toList n →
    if -2 ^ 31 ≤ n ∧ n < 2 ^ 31 then ∃ m : Int32, m.toInt = n ∧ kind = .int m
    else kind = .error .intOverflow
  long : ∀ n, LongForm word.toList n →
    if -2 ^ 63 ≤ n ∧ n < 2 ^ 63 then ∃ m : Int64, m.toInt = n ∧ kind = .long m
    else kind = .error .longOverflow
  double : (∃ x, kind = .double x) ↔ DoubleForm word.toList
  float : (∃ x, kind = .float x) ↔ FloatForm word.toList
  key : word ∉ keywords.map Prod.fst → (∀ n, ¬ IntegerForm word.toList n) →
    (∀ n, ¬ LongForm word.toList n) → ¬ DoubleForm word.toList → ¬ FloatForm word.toList →
    kind = .key word

/-- The characters of keys are those that the lexer takes for them. -/
theorem isKeyChar_iff (c : Char) : isKeyChar c = true ↔ IsKeyCharacter c := by
  have halphanum : c.isAlphanum = (decide ('A' ≤ c ∧ c ≤ 'Z') || ('a' ≤ c && c ≤ 'z') ||
      ('0' ≤ c && c ≤ '9')) := rfl
  simp only [isKeyChar, isDigit, IsKeyCharacter, halphanum, Bool.or_eq_true, Bool.and_eq_true,
    decide_eq_true_eq, beq_iff_eq, List.mem_cons, List.not_mem_nil, or_false]
  grind

section Forms

variable {word : List Char}

/-- A mantissa has a decimal point unless it is made of digits only. -/
theorem Mantissa.point_mem_iff {mantissa : List Char} (h : Mantissa mantissa) :
    '.' ∈ mantissa ↔ ¬ IsDigits mantissa := by
  refine ⟨not_isDigits_of_point, fun hdigits => ?_⟩
  cases h with
  | whole hds => exact absurd hds hdigits
  | point => simp
  | fraction => simp

/-- Digits behind a sign stand for an integer. -/
theorem exists_integerForm {sign ds : List Char} (hsign : sign ∈ [[], ['-']]) (hds : IsDigits ds) :
    ∃ n, IntegerForm (sign ++ ds) n := by
  simp only [List.mem_cons, List.not_mem_nil, or_false] at hsign
  rcases hsign with rfl | rfl
  · exact ⟨_, .positive hds⟩
  · exact ⟨_, .negative hds⟩

/-- A numeral has one of the four forms of numbers. -/
theorem Numeral.forms (h : Numeral word) :
    (∃ n, IntegerForm word n) ∨ (∃ n, LongForm word n) ∨ DoubleForm word ∨ FloatForm word := by
  cases h with
  | long hsign hds hsuffix =>
    obtain ⟨n, hn⟩ := exists_integerForm hsign hds
    exact .inr (.inl ⟨n, .mk hn hsuffix⟩)
  | @number sign mantissa exponent suffix hsign hmantissa hexponent hsuffix =>
    rcases List.mem_cons.mp hsuffix with rfl | hfloat
    · rw [List.append_nil]
      by_cases hplain : IsDigits mantissa ∧ exponent = []
      · obtain ⟨hds, rfl⟩ := hplain
        rw [List.append_nil]
        exact .inl (exists_integerForm hsign hds)
      · refine .inr (.inr (.inl (.mk hsign hmantissa hexponent ?_)))
        rw [hmantissa.point_mem_iff]
        exact not_and_or.mp hplain
    · obtain ⟨letter, hletter, rfl⟩ : ∃ letter ∈ ['f', 'F'], suffix = [letter] := by
        simpa using hfloat
      exact .inr (.inr (.inr (.mk hsign hmantissa hexponent hletter)))

end Forms

namespace NumberText

variable {word : List Char}

/-- A number is a double exactly if it has a point or an exponent and no letter. -/
theorem token_eq_double_iff (t : NumberText) :
    (∃ x, t.token = .double x) ↔ t.suffix = .none ∧ (t.fraction ≠ none ∨ t.exponent ≠ none) := by
  unfold token
  cases hsuffix : t.suffix with
  | none =>
    simp only [Bool.or_eq_true, Option.isSome_iff_ne_none]
    split
    next h => exact iff_of_true ⟨_, rfl⟩ ⟨trivial, h⟩
    next h =>
      refine iff_of_false (fun ⟨x, hx⟩ => ?_) fun hparts => h hparts.2
      split at hx <;> cases hx
  | long =>
    refine iff_of_false (fun ⟨x, hx⟩ => ?_) nofun
    dsimp only at hx
    split at hx <;> cases hx
  | float => exact iff_of_false nofun nofun

/-- A number is a float exactly if it has the letter. -/
theorem token_eq_float_iff (t : NumberText) :
    (∃ x, t.token = .float x) ↔ t.suffix = .float := by
  unfold token
  cases hsuffix : t.suffix with
  | none =>
    refine iff_of_false (fun ⟨x, hx⟩ => ?_) nofun
    dsimp only at hx
    split at hx
    · cases hx
    · split at hx <;> cases hx
  | long =>
    refine iff_of_false (fun ⟨x, hx⟩ => ?_) nofun
    dsimp only at hx
    split at hx <;> cases hx
  | float => exact iff_of_true ⟨_, rfl⟩ rfl

/-- A word has the form of a double exactly if it is read as a number with a point or an exponent
and no letter. -/
theorem doubleForm_iff : DoubleForm word ↔
    ∃ t, read word = some t ∧ t.suffix = .none ∧ (t.fraction ≠ none ∨ t.exponent ≠ none) := by
  constructor
  · rintro ⟨hsign, hmantissa, hexponent, hparts⟩
    have hletter : [] ∈ Suffix.none.letters := .head _
    obtain ⟨t, ht, hsuffix, hfraction, hnone⟩ :=
      exists_read hsign hmantissa hexponent hletter (by simp)
    rw [List.append_nil] at ht
    refine ⟨t, ht, hsuffix, ?_⟩
    rwa [Ne, Ne, hfraction, hnone, ← hmantissa.point_mem_iff]
  · rintro ⟨t, ht, hsuffix, hparts⟩
    obtain ⟨hsign, hmantissa, hexponent, hletter, hfraction, hnone, _⟩ := hasForm_of_read ht
    rw [hsuffix] at hletter
    obtain rfl := List.mem_singleton.mp hletter
    rw [List.append_nil]
    refine .mk hsign hmantissa hexponent ?_
    rwa [hmantissa.point_mem_iff, ← hfraction, Ne, ← hnone]

/-- A word has the form of a float exactly if it is read as a number with the letter. -/
theorem floatForm_iff : FloatForm word ↔ ∃ t, read word = some t ∧ t.suffix = .float := by
  constructor
  · rintro @⟨_, _, _, letter, hsign, hmantissa, hexponent, hletter⟩
    have hletters : [letter] ∈ Suffix.float.letters := by simpa [Suffix.letters] using hletter
    obtain ⟨t, ht, hsuffix, _⟩ := exists_read hsign hmantissa hexponent hletters (by simp)
    exact ⟨t, ht, hsuffix⟩
  · rintro ⟨t, ht, hsuffix⟩
    obtain ⟨hsign, hmantissa, hexponent, hletter, _, _, _⟩ := hasForm_of_read ht
    rw [hsuffix] at hletter
    obtain ⟨c, hc, rfl⟩ : ∃ c ∈ ['f', 'F'], _ = [c] := by
      simpa [Suffix.letters] using hletter
    exact .mk hsign hmantissa hexponent hc

/-- A word whose token is neither a keyword nor a key is read as the number of that token. -/
theorem classify_iff_of_number {P : TokenKind → Prop} (hinclude : ¬ P .include)
    (hbool : ∀ b, ¬ P (.bool b)) (hkey : ∀ name, ¬ P (.key name)) :
    P (classify word) ↔ ∃ t, read word = some t ∧ P t.token := by
  cases hread : read word with
  | none =>
    refine iff_of_false ?_ (by simp)
    rw [classify, hread]
    split
    · exact hinclude
    split
    · exact hbool _
    split
    · exact hbool _
    · exact hkey _
  | some t =>
    rw [classify_of_read hread]
    constructor
    · exact fun h => ⟨t, rfl, h⟩
    · rintro ⟨_, ht, h⟩
      rwa [Option.some.inj ht]

/-- Exactly the words of the form of double-precision numbers are such numbers. -/
theorem classify_eq_double_iff : (∃ x, classify word = .double x) ↔ DoubleForm word := by
  rw [classify_iff_of_number (P := fun kind => ∃ x, kind = .double x) nofun nofun nofun,
    doubleForm_iff]
  simp only [token_eq_double_iff]

/-- Exactly the words of the form of single-precision numbers are such numbers. -/
theorem classify_eq_float_iff : (∃ x, classify word = .float x) ↔ FloatForm word := by
  rw [classify_iff_of_number (P := fun kind => ∃ x, kind = .float x) nofun nofun nofun,
    floatForm_iff]
  simp only [token_eq_float_iff]

end NumberText

/-- The token of a word is decided by the form of its whole text. -/
theorem classify_tokenOfForm (word : String) : TokenOfForm word (classify word.toList) where
  keyword k hk := by
    simp only [keywords, List.mem_cons, Prod.mk.injEq, List.not_mem_nil, or_false] at hk
    rcases hk with ⟨rfl, rfl⟩ | ⟨rfl, rfl⟩ | ⟨rfl, rfl⟩ <;> rfl
  int n hn := by
    rw [NumberText.classify_integer hn]
    split
    next hfit => exact ⟨_, Int32.toInt_ofInt_of_le hfit.1 hfit.2, rfl⟩
    next => rfl
  long n hn := by
    generalize hword : word.toList = cs at hn
    obtain ⟨hn, hletter⟩ := hn
    rw [NumberText.classify_longInteger hn hletter]
    split
    next hfit => exact ⟨_, Int64.toInt_ofInt_of_le hfit.1 hfit.2, rfl⟩
    next => rfl
  double := NumberText.classify_eq_double_iff
  float := NumberText.classify_eq_float_iff
  key hkeyword hint hlong hdouble hfloat := by
    -- The four forms are all that is read as a number, in range or not.
    have hnumeral : ¬ Numeral word.toList := by
      intro h
      obtain ⟨n, hn⟩ | ⟨n, hn⟩ | hform | hform := h.forms
      · exact hint n hn
      · exact hlong n hn
      · exact hdouble hform
      · exact hfloat hform
    exact classify_name hkeyword hnumeral

/-- A word is one token in front of what can continue neither a word nor a number, and what follows
begins behind it. -/
theorem scan_word (o : Nat) {word rest : List Char} (hne : word ≠ [])
    (hkey : ∀ c ∈ word, isKeyChar c = true) (hhead : rest.head?.any isKeyChar = false)
    (hplus : rest.head? ≠ some '+') :
    ∃ later, scan o (word ++ rest) =
        ⟨classify word, Span.ofRange o (o + byteLength word)⟩ :: later ∧
      (∀ t ∈ later, min (o + byteLength word) maxOffset ≤ t.span.start) ∧
      (rest = [] → ∀ t ∈ later, t.kind = .endOfInput) := by
  obtain ⟨c, cs, rfl⟩ := List.exists_cons_of_ne_nil hne
  have hlexeme := lexeme_word hkey hhead hplus
  have hkind : (lexeme c (cs ++ rest)).kind = some (classify (c :: cs)) := by rw [hlexeme]
  have hend : lexemeEnd o c (cs ++ rest) = o + byteLength (c :: cs) :=
    lexemeEnd_eq o rfl (by rw [hlexeme])
  by_cases hclean : ∀ e, classify (c :: cs) ≠ .error e
  · refine ⟨scan (o + byteLength (c :: cs)) rest, ?_, scan_span_ge _ _, ?_⟩
    · exact scan_taken o rfl hlexeme hclean
    · rintro rfl
      rw [scan]
      exact List.forall_mem_singleton.mpr rfl
  · obtain ⟨e, he⟩ : ∃ e, classify (c :: cs) = .error e := by simpa using hclean
    refine ⟨[], ?_, List.forall_mem_nil _, fun _ => List.forall_mem_nil _⟩
    rw [List.cons_append, scan_error o (hkind.trans (congrArg some he)), hend, he]

end TypedConfig.Token

namespace TypedConfig

open Token Source

/-- A run of key characters that nothing follows, or what is neither a key character nor a plus
sign, is one token with the bytes of the run, and its form decides which one. -/
theorem lex_word {word rest : String} (hne : word ≠ "")
    (hkey : ∀ c ∈ word.toList, IsKeyCharacter c)
    (hrest : ∀ c ∈ rest.toList.head?, ¬ IsKeyCharacter c ∧ c ≠ '+') :
    ∃ kind later, TokenOfForm word kind ∧
      lex (word ++ rest) = ⟨kind, Span.ofRange 0 (byteLength word.toList)⟩ :: later ∧
      (∀ t ∈ later, min (byteLength word.toList) maxOffset ≤ t.span.start) ∧
      (rest = "" → ∀ t ∈ later, t.kind = .endOfInput) := by
  have hhead : rest.toList.head?.any isKeyChar = false := by
    cases hcs : rest.toList.head? with
    | none => rfl
    | some c =>
      have hc := (hrest c hcs).1
      rw [← isKeyChar_iff, Bool.not_eq_true] at hc
      exact hc
  have hplus : rest.toList.head? ≠ some '+' := fun h => (hrest '+' h).2 rfl
  obtain ⟨later, hscan, hbehind, hend⟩ := scan_word 0 (by simpa using hne)
    (fun c hc => (isKeyChar_iff c).mpr (hkey c hc)) hhead hplus
  rw [Nat.zero_add] at hscan hbehind
  refine ⟨_, later, classify_tokenOfForm word, ?_, hbehind, fun hrest => hend ?_⟩
  · rw [lex, String.toList_append, hscan]
  · rw [hrest]
    rfl

/-- The least integer of 32 bits, with a zero in front of it and a bracket behind it. -/
theorem lex_least_int :
    (∀ c ∈ "-02147483648".toList, IsKeyCharacter c) ∧
      (∀ c ∈ "]".toList.head?, ¬ IsKeyCharacter c ∧ c ≠ '+') ∧
      (lex ("-02147483648" ++ "]")).head? = some ⟨.int (-2147483648), ⟨0, 12⟩⟩ := by
  have hkey : ∀ c ∈ "-02147483648".toList, IsKeyCharacter c := fun c hc =>
    (isKeyChar_iff c).mp (List.all_eq_true.mp (by decide) c hc)
  have hrest : ∀ c ∈ "]".toList.head?, ¬ IsKeyCharacter c ∧ c ≠ '+' := by
    intro c hc
    obtain rfl : ']' = c := Option.some.inj hc
    decide
  obtain ⟨kind, later, hform, hlex, _⟩ := lex_word (by decide) hkey hrest
  have hdigits : IsDigits "02147483648".toList := ⟨by decide, List.all_eq_true.mp (by decide)⟩
  have hinteger : IntegerForm "-02147483648".toList (-2147483648) := .negative hdigits
  have hint := hform.int _ hinteger
  rw [if_pos (by decide)] at hint
  obtain ⟨m, hm, rfl⟩ := hint
  obtain rfl : m = -2147483648 := Int32.toInt_inj.mp hm
  refine ⟨hkey, hrest, ?_⟩
  rw [hlex]
  rfl

end TypedConfig
