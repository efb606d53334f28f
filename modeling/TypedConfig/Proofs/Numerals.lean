import Mathlib.Algebra.Group.Int.Defs
import Mathlib.Data.List.TakeWhile
import TypedConfig.Proofs.Scanning

/-!
# Numerals

The words that are read as numbers, described by their forms: an optional minus sign, digits with at
most one point among them, an exponent, and a letter for the type. Exactly these words are read, so
every other word that is no keyword is a key. The decimal form of an integer is one of them, and it
is read as that integer.
-/

namespace TypedConfig.Token

/-- One or more decimal digits. -/
def IsDigits (ds : List Char) : Prop := ds ≠ [] ∧ ∀ d ∈ ds, isDigit d = true

/-- Digits with at most one point, which may stand in front of them or behind them. -/
inductive Mantissa : List Char → Prop
  | whole {ds} : IsDigits ds → Mantissa ds
  | point {ds fs} : IsDigits ds → (∀ d ∈ fs, isDigit d = true) → Mantissa (ds ++ '.' :: fs)
  | fraction {fs} : IsDigits fs → Mantissa ('.' :: fs)

/-- The letter of an exponent with an optional sign and digits, or nothing. -/
inductive Exponent : List Char → Prop
  | none : Exponent []
  | some {e sign ds} : e ∈ ['e', 'E'] → sign ∈ [[], ['-'], ['+']] → IsDigits ds →
    Exponent (e :: sign ++ ds)

/-- The forms of numbers. The letter for long integers stands behind plain digits only. -/
inductive Numeral : List Char → Prop
  | long {sign ds suffix} : sign ∈ [[], ['-']] → IsDigits ds → suffix ∈ ['l', 'L'] →
    Numeral (sign ++ ds ++ [suffix])
  | number {sign mantissa exponent suffix} : sign ∈ [[], ['-']] → Mantissa mantissa →
    Exponent exponent → suffix ∈ [[], ['f'], ['F']] →
    Numeral (sign ++ mantissa ++ exponent ++ suffix)

/-- Digits behind an optional minus sign, and the integer that they stand for. -/
inductive IntegerForm : List Char → Int → Prop
  | positive {ds} : IsDigits ds → IntegerForm ds (Nat.ofDigitChars 10 ds 0)
  | negative {ds} : IsDigits ds → IntegerForm ('-' :: ds) (-(Nat.ofDigitChars 10 ds 0 : Nat))

/-- What a suffix is written as. -/
def Suffix.letters : Suffix → List (List Char)
  | .none => [[]]
  | .long => [['l'], ['L']]
  | .float => [['f'], ['F']]

/-- A decimal point is no digit. -/
theorem not_isDigits_of_point {cs : List Char} (h : '.' ∈ cs) : ¬ IsDigits cs :=
  fun hdigits => absurd (hdigits.2 '.' h) (by decide)

section Leading

variable {α : Type} {p : α → Bool} {xs ys : List α}

/-- The leading elements that satisfy a predicate end where one does not. -/
theorem takeWhile_append_of_head (hxs : ∀ x ∈ xs, p x = true) (hys : ys.head?.any p = false) :
    (xs ++ ys).takeWhile p = xs := by
  rw [List.takeWhile_append_of_pos hxs]
  cases ys with
  | nil => simp
  | cons y ys => simp [show p y = false from hys]

/-- A scan that passes the first part stops where the second one begins. -/
theorem dropWhile_append_of_head (hxs : ∀ x ∈ xs, p x = true) (hys : ys.head?.any p = false) :
    (xs ++ ys).dropWhile p = ys := by
  rw [List.dropWhile_append_of_pos hxs]
  cases ys with
  | nil => rfl
  | cons y ys => simp [show p y = false from hys]

/-- A scan stops at an item that it does not pass, or at the end. -/
theorem head?_dropWhile_any (p : α → Bool) (xs : List α) :
    (xs.dropWhile p).head?.any p = false := by
  have hhead := List.head?_dropWhile_not p xs
  cases h : (xs.dropWhile p).head? with
  | none => rfl
  | some x =>
    rw [h] at hhead
    exact hhead

/-- A list that is cut begins with the same item, if anything is left of it. -/
theorem head?_take_any (h : xs.head?.any p = false) (n : Nat) :
    (xs.take n).head?.any p = false := by
  cases n with
  | zero => rfl
  | succ n => rwa [List.head?_take, if_neg (Nat.succ_ne_zero n)]

end Leading

namespace NumberText

/-- A sign stands in front of what is left. -/
theorem takeSign_append (cs : List Char) :
    ∃ sign ∈ [[], ['-']], cs = sign ++ (takeSign cs).2 := by
  unfold takeSign
  split
  · exact ⟨['-'], by simp, rfl⟩
  · exact ⟨[], by simp, rfl⟩

/-- A point and digits stand in front of what is left, or nothing is taken. -/
theorem takeFraction_append (cs : List Char) :
    ((takeFraction cs).1 = none ∧ (takeFraction cs).2 = cs) ∨
      ∃ fs, (takeFraction cs).1 = some fs ∧ cs = '.' :: fs ++ (takeFraction cs).2 ∧
        ∀ d ∈ fs, isDigit d = true := by
  unfold takeFraction
  split
  next rest =>
    refine .inr ⟨_, rfl, ?_, fun d hd => List.mem_takeWhile_imp hd⟩
    rw [List.cons_append, List.takeWhile_append_dropWhile]
  next => exact .inl ⟨rfl, rfl⟩

/-- The sign of an exponent stands in front of what is left. -/
theorem takeExponentSign_append (cs : List Char) :
    ∃ sign ∈ [[], ['-'], ['+']], cs = sign ++ (takeExponentSign cs).2 := by
  unfold takeExponentSign
  split
  · exact ⟨['-'], by simp, rfl⟩
  · exact ⟨['+'], by simp, rfl⟩
  · exact ⟨[], by simp, rfl⟩

/-- An exponent stands in front of what is left, or nothing is taken. -/
theorem takeExponent_append (cs : List Char) :
    ∃ exponent, Exponent exponent ∧ cs = exponent ++ (takeExponent cs).2 ∧
      ((takeExponent cs).1 = none ↔ exponent = []) := by
  unfold takeExponent
  split
  next c rest =>
    split
    next he =>
      obtain ⟨sign, hsign, hrest⟩ := takeExponentSign_append rest
      dsimp only
      split
      · exact ⟨[], .none, rfl, iff_of_true rfl rfl⟩
      next hds =>
        refine ⟨c :: sign ++ (takeExponentSign rest).2.takeWhile isDigit, ?_, ?_,
          iff_of_false nofun nofun⟩
        · refine .some (by simpa using he) hsign ⟨?_, fun d hd => List.mem_takeWhile_imp hd⟩
          simpa using hds
        · rw [List.append_assoc, List.takeWhile_append_dropWhile, List.cons_append, ← hrest]
    next => exact ⟨[], .none, rfl, iff_of_true rfl rfl⟩
  next => exact ⟨[], .none, rfl, iff_of_true rfl rfl⟩

/-- The suffix that ends a number is read off its letter. -/
theorem suffix?_eq_some_iff {cs : List Char} {suffix : Suffix} :
    suffix? cs = some suffix ↔ cs ∈ suffix.letters := by
  constructor
  · intro h
    unfold suffix? at h
    split at h
    · cases h
      simp [Suffix.letters]
    next c =>
      split at h
      next hlong =>
        cases h
        simpa [Suffix.letters] using hlong
      next =>
        split at h
        next hfloat =>
          cases h
          simpa [Suffix.letters] using hfloat
        next => cases h
    · cases h
  · intro h
    cases suffix <;> simp only [Suffix.letters, List.mem_cons, List.not_mem_nil, or_false] at h
    case none => rw [h, suffix?]
    all_goals rcases h with rfl | rfl <;> rfl

/-- Digits and what is taken off with a point are a mantissa, unless there is no digit. -/
theorem exists_mantissa {cs : List Char}
    (h : ¬ ((cs.takeWhile isDigit).isEmpty &&
      ((takeFraction (cs.dropWhile isDigit)).1.getD []).isEmpty) = true) :
    ∃ mantissa, Mantissa mantissa ∧ cs = mantissa ++ (takeFraction (cs.dropWhile isDigit)).2 ∧
      ((takeFraction (cs.dropWhile isDigit)).1 = none ↔ IsDigits mantissa) := by
  have hdigits : ∀ d ∈ cs.takeWhile isDigit, isDigit d = true := fun d hd =>
    List.mem_takeWhile_imp hd
  have hcs := (List.takeWhile_append_dropWhile (p := isDigit) (l := cs)).symm
  obtain ⟨hnone, hrest⟩ | ⟨fs, hsome, hrest, hfs⟩ := takeFraction_append (cs.dropWhile isDigit)
  · rw [hnone] at h
    have hwhole : IsDigits (cs.takeWhile isDigit) := ⟨by simpa using h, hdigits⟩
    rw [hrest]
    exact ⟨_, .whole hwhole, hcs, iff_of_true hnone hwhole⟩
  · rw [hsome] at h
    rw [hsome]
    by_cases hwhole : cs.takeWhile isDigit = []
    · rw [hwhole, List.nil_append] at hcs
      refine ⟨'.' :: fs, .fraction ⟨?_, hfs⟩, ?_,
        iff_of_false nofun (not_isDigits_of_point (.head _))⟩
      · simpa [hwhole] using h
      · rw [← hrest]
        exact hcs
    · refine ⟨cs.takeWhile isDigit ++ '.' :: fs, .point ⟨hwhole, hdigits⟩ hfs, ?_,
        iff_of_false nofun (not_isDigits_of_point (by simp))⟩
      rw [List.append_assoc, ← hrest]
      exact hcs

/-- The parts of a number are those of the word that it is read from. -/
inductive HasForm (t : NumberText) : List Char → Prop
  | mk {sign mantissa exponent letter} : sign ∈ [[], ['-']] → Mantissa mantissa →
    Exponent exponent → letter ∈ t.suffix.letters → (t.fraction = none ↔ IsDigits mantissa) →
    (t.exponent = none ↔ exponent = []) →
    (t.suffix = .long → IsDigits mantissa ∧ exponent = []) →
    HasForm t (sign ++ mantissa ++ exponent ++ letter)

/-- A number is read from a word of its form. -/
theorem hasForm_of_read {word : List Char} {t : NumberText} (h : read word = some t) :
    t.HasForm word := by
  unfold NumberText.read at h
  dsimp only at h
  split at h
  · cases h
  next hdigits =>
    obtain ⟨sign, hsign, hword⟩ := takeSign_append word
    obtain ⟨mantissa, hmantissa, hunsigned, hfraction⟩ := exists_mantissa hdigits
    obtain ⟨exponent, hexponent, hbehind, hnone⟩ := takeExponent_append
      (takeFraction ((takeSign word).2.dropWhile isDigit)).2
    obtain ⟨suffix, hsuffix, h⟩ := Option.bind_eq_some_iff.mp h
    split at h
    · cases h
    next hlong =>
      cases h
      have hpieces : word = sign ++ mantissa ++ exponent ++
          (takeExponent (takeFraction ((takeSign word).2.dropWhile isDigit)).2).2 := by
        rw [List.append_assoc, ← hbehind, List.append_assoc, ← hunsigned, ← hword]
      refine (congrArg (HasForm _) hpieces).mpr ?_
      refine .mk hsign hmantissa hexponent (suffix?_eq_some_iff.mp hsuffix) hfraction hnone
        fun hletter => ?_
      rw [← hfraction, ← hnone]
      simpa [show suffix = .long from hletter] using hlong

section Reading

variable {sign ds tail : List Char}

/-- No letter of a suffix goes on with a number. -/
theorem head?_of_mem_letters {suffix : Suffix} (htail : tail ∈ suffix.letters) :
    tail.head?.any isDigit = false ∧ tail.head? ≠ some '.' := by
  cases suffix <;> simp only [Suffix.letters, List.mem_cons, List.not_mem_nil, or_false] at htail
  case none => rw [htail]; decide
  all_goals rcases htail with rfl | rfl <;> decide

/-- A sign is taken if no other one follows. -/
theorem takeSign_of_sign (hsign : sign ∈ [[], ['-']]) (htail : tail.head? ≠ some '-') :
    takeSign (sign ++ tail) = (sign == ['-'], tail) := by
  simp only [List.mem_cons, List.not_mem_nil, or_false] at hsign
  rcases hsign with rfl | rfl
  · unfold takeSign
    split
    next rest heq =>
      rw [List.nil_append] at heq
      rw [heq] at htail
      exact absurd rfl htail
    next => rfl
  · rfl

/-- Without a point there is no fraction. -/
theorem takeFraction_of_head (htail : tail.head? ≠ some '.') :
    takeFraction tail = (none, tail) := by
  unfold takeFraction
  split
  · exact absurd rfl htail
  · rfl

/-- The sign of an exponent is taken if a digit follows. -/
theorem takeExponentSign_of_sign (hsign : sign ∈ [[], ['-'], ['+']])
    (htail : tail.head?.any isDigit = true) : (takeExponentSign (sign ++ tail)).2 = tail := by
  simp only [List.mem_cons, List.not_mem_nil, or_false] at hsign
  rcases hsign with rfl | rfl | rfl
  · unfold takeExponentSign
    split
    next rest heq =>
      rw [List.nil_append] at heq
      rw [heq] at htail
      exact absurd htail (show ¬ isDigit '-' = true by decide)
    next rest heq =>
      rw [List.nil_append] at heq
      rw [heq] at htail
      exact absurd htail (show ¬ isDigit '+' = true by decide)
    next => rfl
  · rfl
  · rfl

/-- An exponent is taken in front of a suffix. -/
theorem takeExponent_of_exponent {exponent : List Char} (hexponent : Exponent exponent)
    {suffix : Suffix} (htail : tail ∈ suffix.letters) :
    ∃ taken, takeExponent (exponent ++ tail) = (taken, tail) ∧ (taken = none ↔ exponent = []) := by
  cases hexponent with
  | none =>
    refine ⟨none, ?_, iff_of_true rfl rfl⟩
    cases suffix <;> simp only [Suffix.letters, List.mem_cons, List.not_mem_nil, or_false] at htail
    case none => rw [htail]; rfl
    all_goals rcases htail with rfl | rfl <;> rfl
  | @some e sign ds he hsign hds =>
    obtain ⟨d, ds, rfl⟩ := List.exists_cons_of_ne_nil hds.1
    have hfirst : (d :: ds ++ tail).head?.any isDigit = true := hds.2 d (.head _)
    have hletter : (e == 'e' || e == 'E') = true := by simpa using he
    have hstop : tail.head?.any isDigit = false := (head?_of_mem_letters htail).1
    rw [List.append_assoc, List.cons_append]
    unfold takeExponent
    simp only [hletter, if_true, takeExponentSign_of_sign hsign hfirst,
      takeWhile_append_of_head hds.2 hstop, dropWhile_append_of_head hds.2 hstop, List.isEmpty_cons,
      Bool.false_eq_true, if_false]
    exact ⟨_, rfl, iff_of_false nofun nofun⟩

/-- A mantissa is taken off up to what follows it. -/
theorem takeFraction_of_mantissa {mantissa : List Char} (hmantissa : Mantissa mantissa)
    (hdigit : tail.head?.any isDigit = false) (hpoint : tail.head? ≠ some '.') :
    (mantissa ++ tail).head? ≠ some '-' ∧
      ∃ fraction, takeFraction ((mantissa ++ tail).dropWhile isDigit) = (fraction, tail) ∧
        (((mantissa ++ tail).takeWhile isDigit).isEmpty && (fraction.getD []).isEmpty) = false ∧
          (fraction = none ↔ IsDigits mantissa) := by
  have hhead {ds rest : List Char} (hds : IsDigits ds) : (ds ++ rest).head? ≠ some '-' := by
    obtain ⟨d, ds, rfl⟩ := List.exists_cons_of_ne_nil hds.1
    rintro heq
    obtain rfl : d = '-' := Option.some.inj heq
    exact absurd (hds.2 '-' (.head _)) (by decide)
  have hdot {rest : List Char} : ('.' :: rest).head?.any isDigit = false := by
    change isDigit '.' = false
    decide
  have hfraction {fs : List Char} (hfs : ∀ d ∈ fs, isDigit d = true) :
      takeFraction ('.' :: (fs ++ tail)) = (some fs, tail) := by
    simp only [takeFraction, takeWhile_append_of_head hfs hdigit,
      dropWhile_append_of_head hfs hdigit]
  cases hmantissa with
  | whole hds =>
    refine ⟨hhead hds, none, ?_, ?_, iff_of_true rfl hds⟩
    · rw [dropWhile_append_of_head hds.2 hdigit, takeFraction_of_head hpoint]
    · rw [takeWhile_append_of_head hds.2 hdigit, List.isEmpty_eq_false_iff.mpr hds.1,
        Bool.false_and]
  | @point ds fs hds hfs =>
    have hform : ¬ IsDigits (ds ++ '.' :: fs) := not_isDigits_of_point (by simp)
    rw [List.append_assoc, List.cons_append]
    refine ⟨hhead hds, some fs, ?_, ?_, iff_of_false nofun hform⟩
    · rw [dropWhile_append_of_head hds.2 hdot, hfraction hfs]
    · rw [takeWhile_append_of_head hds.2 hdot, List.isEmpty_eq_false_iff.mpr hds.1, Bool.false_and]
  | @fraction fs hfs =>
    rw [List.cons_append]
    refine ⟨nofun, some fs, ?_, ?_, iff_of_false nofun (not_isDigits_of_point (.head _))⟩
    · rw [List.dropWhile_cons_of_neg (by decide), hfraction hfs.2]
    · rw [Option.getD_some, List.isEmpty_eq_false_iff.mpr hfs.1, Bool.and_false]

/-- The parts of a number are taken off one after the other. -/
theorem read_eq {word unsigned after rest : List Char} {negative : Bool}
    {fraction : Option (List Char)} {exponent : Option (Bool × List Char)} {suffix : Suffix}
    (hsign : takeSign word = (negative, unsigned))
    (hfraction : takeFraction (unsigned.dropWhile isDigit) = (fraction, after))
    (hdigits : ((unsigned.takeWhile isDigit).isEmpty && (fraction.getD []).isEmpty) = false)
    (hexponent : takeExponent after = (exponent, rest)) (hsuffix : suffix? rest = some suffix)
    (hlong : (suffix == .long && (fraction.isSome || exponent.isSome)) = false) :
    read word = some ⟨negative, unsigned.takeWhile isDigit, fraction, exponent, suffix⟩ := by
  unfold NumberText.read
  simp only [hsign, hfraction, hdigits, hexponent, hsuffix, Bool.false_eq_true, if_false,
    Option.bind_eq_bind, Option.bind_some, hlong]
  rfl

/-- A sign and digits are read as the number that they are, also with the letter for long
integers. -/
theorem read_digits {suffix : Suffix} (hsign : sign ∈ [[], ['-']]) (hds : IsDigits ds)
    (htail : (tail = [] ∧ suffix = .none) ∨ ((tail = ['l'] ∨ tail = ['L']) ∧ suffix = .long)) :
    read (sign ++ ds ++ tail) = some ⟨sign == ['-'], ds, none, none, suffix⟩ := by
  have hparts : tail.head?.any isDigit = false ∧ tail.head? ≠ some '.' ∧
      takeExponent tail = (none, tail) ∧ suffix? tail = some suffix := by
    rcases htail with ⟨rfl, rfl⟩ | ⟨rfl | rfl, rfl⟩ <;> decide
  obtain ⟨hdigit, hpoint, hexponent, hsuffix⟩ := hparts
  obtain ⟨hhead, _⟩ := takeFraction_of_mantissa (.whole hds) hdigit hpoint
  have hfraction : takeFraction ((ds ++ tail).dropWhile isDigit) = (none, tail) := by
    rw [dropWhile_append_of_head hds.2 hdigit, takeFraction_of_head hpoint]
  rw [List.append_assoc, read_eq (takeSign_of_sign hsign hhead) hfraction ?_ hexponent hsuffix ?_,
    takeWhile_append_of_head hds.2 hdigit]
  · rw [takeWhile_append_of_head hds.2 hdigit, List.isEmpty_eq_false_iff.mpr hds.1, Bool.false_and]
  · simp

/-- A word of the form of a number is read as one that has its parts. -/
theorem exists_read {mantissa exponent letter : List Char} {suffix : Suffix}
    (hsign : sign ∈ [[], ['-']]) (hmantissa : Mantissa mantissa) (hexponent : Exponent exponent)
    (hletter : letter ∈ suffix.letters)
    (hlong : suffix = .long → IsDigits mantissa ∧ exponent = []) :
    ∃ t, read (sign ++ mantissa ++ exponent ++ letter) = some t ∧ t.suffix = suffix ∧
      (t.fraction = none ↔ IsDigits mantissa) ∧ (t.exponent = none ↔ exponent = []) := by
  have htail : (exponent ++ letter).head?.any isDigit = false ∧
      (exponent ++ letter).head? ≠ some '.' := by
    cases hexponent with
    | none => exact head?_of_mem_letters hletter
    | some he =>
      simp only [List.mem_cons, List.not_mem_nil, or_false] at he
      rcases he with rfl | rfl <;> exact ⟨by simp [isDigit], by simp⟩
  obtain ⟨hhead, fraction, hfraction, hdigits, hwhole⟩ :=
    takeFraction_of_mantissa hmantissa htail.1 htail.2
  obtain ⟨taken, hexponent, hnone⟩ := takeExponent_of_exponent hexponent hletter
  have hplain : (suffix == .long && (fraction.isSome || taken.isSome)) = false := by
    by_cases h : suffix = .long
    · obtain ⟨hmantissa, hexponent⟩ := hlong h
      simp [hwhole.mpr hmantissa, hnone.mpr hexponent]
    · rw [beq_false_of_ne h, Bool.false_and]
  rw [List.append_assoc, List.append_assoc, read_eq (takeSign_of_sign hsign hhead) hfraction
    hdigits hexponent (suffix?_eq_some_iff.mpr hletter) hplain]
  exact ⟨_, rfl, rfl, hwhole, hnone⟩

/-- Exactly the numerals are read as numbers. -/
theorem read_isSome_iff (word : List Char) : (read word).isSome ↔ Numeral word := by
  constructor
  · intro h
    obtain ⟨t, ht⟩ := Option.isSome_iff_exists.mp h
    obtain ⟨hsign, hmantissa, hexponent, hletter, _, _, hlong⟩ := hasForm_of_read ht
    cases hsuffix : t.suffix <;> rw [hsuffix] at hletter
    case none =>
      exact .number hsign hmantissa hexponent (List.mem_append_left [['f'], ['F']] hletter)
    case float => exact .number hsign hmantissa hexponent (List.mem_cons_of_mem _ hletter)
    case long =>
      obtain ⟨hdigits, rfl⟩ := hlong hsuffix
      obtain ⟨c, hc, rfl⟩ : ∃ c ∈ ['l', 'L'], _ = [c] := by
        simpa [Suffix.letters] using hletter
      rw [List.append_nil]
      exact .long hsign hdigits hc
  · intro h
    cases h with
    | @long sign ds suffix hsign hds hsuffix =>
      have hletter : [suffix] ∈ Suffix.long.letters := by simpa [Suffix.letters] using hsuffix
      obtain ⟨t, ht, _⟩ := exists_read hsign (.whole hds) .none hletter fun _ => ⟨hds, rfl⟩
      rw [List.append_nil] at ht
      exact Option.isSome_of_eq_some ht
    | @number sign mantissa exponent suffix hsign hmantissa hexponent hsuffix =>
      obtain ⟨letter, hletter, hlong⟩ : ∃ letter : Suffix, suffix ∈ letter.letters ∧
          letter ≠ .long := by
        rcases List.mem_cons.mp hsuffix with rfl | hfloat
        · exact ⟨.none, .head _, nofun⟩
        · exact ⟨.float, hfloat, nofun⟩
      obtain ⟨t, ht, _⟩ := exists_read hsign hmantissa hexponent hletter fun h => absurd h hlong
      exact Option.isSome_of_eq_some ht

end Reading

section Decimal

/-- A natural number is written with digits. -/
theorem isDigits_toDigits (n : Nat) : IsDigits (Nat.toDigits 10 n) := by
  refine ⟨Nat.toDigits_ne_nil, fun d hd => ?_⟩
  have hdigit := Nat.isDigit_of_mem_toDigits (by decide) (by decide) hd
  rw [Char.isDigit, Bool.and_eq_true, decide_eq_true_eq, decide_eq_true_eq] at hdigit
  rw [isDigit, Bool.and_eq_true, decide_eq_true_eq, decide_eq_true_eq]
  exact hdigit

/-- The decimal form of an integer has the digits of its absolute value. -/
theorem toList_toString (n : Int) :
    (toString n).toList = (if n < 0 then ['-'] else []) ++ Nat.toDigits 10 n.natAbs := by
  rw [Int.toString_eq_repr]
  cases n with
  | ofNat m =>
    change m.repr.toList = _
    rw [Nat.toList_repr]
    rfl
  | negSucc m =>
    change ("-" ++ m.succ.repr).toList = _
    rw [String.toList_append, Nat.toList_repr, if_pos (Int.negSucc_lt_zero m)]
    rfl

/-- The decimal form of an integer stands for it. -/
theorem integerForm_toString (n : Int) : IntegerForm (toString n).toList n := by
  have hdigits := isDigits_toDigits n.natAbs
  have hvalue : Nat.ofDigitChars 10 (Nat.toDigits 10 n.natAbs) 0 = n.natAbs :=
    Nat.ofDigitChars_toDigits (by decide) (by decide)
  rw [toList_toString]
  by_cases hneg : n < 0
  · have hform := IntegerForm.negative hdigits
    rwa [hvalue, show -(n.natAbs : Int) = n by omega, ← List.singleton_append,
      ← if_pos (c := n < 0) (t := ['-']) (e := []) hneg] at hform
  · have hform := IntegerForm.positive hdigits
    rwa [hvalue, show (n.natAbs : Int) = n by omega, ← List.nil_append (Nat.toDigits _ _),
      ← if_neg (c := n < 0) (t := ['-']) (e := []) hneg] at hform

/-- A sign and digits are read as the integer that they stand for. -/
theorem read_integer {digits : List Char} {n : Int} (h : IntegerForm digits n) {suffix : Suffix}
    {tail : List Char}
    (htail : (tail = [] ∧ suffix = .none) ∨ ((tail = ['l'] ∨ tail = ['L']) ∧ suffix = .long)) :
    ∃ t, read (digits ++ tail) = some t ∧ t.integer = n ∧ t.fraction = none ∧
      t.exponent = none ∧ t.suffix = suffix := by
  cases h with
  | @positive ds hds => exact ⟨_, read_digits (.head _) hds htail, rfl, rfl, rfl, rfl⟩
  | @negative ds hds =>
    exact ⟨_, read_digits (.tail _ (.head _)) hds htail, rfl, rfl, rfl, rfl⟩

end Decimal

/-- A word that is read as a number is the token of that number. -/
theorem classify_of_read {word : List Char} {t : NumberText} (h : read word = some t) :
    classify word = t.token := by
  have hkeyword {keyword : List Char} (hnone : read keyword = none) : word ≠ keyword := by
    rintro rfl
    rw [hnone] at h
    cases h
  unfold classify
  rw [if_neg (hkeyword (by decide)), if_neg (hkeyword (by decide)), if_neg (hkeyword (by decide)),
    h]

section Integers

variable {digits : List Char} {n : Int}

/-- An integer is a token of 32 bits if it fits. -/
theorem classify_integer (h : IntegerForm digits n) :
    classify digits =
      if -2 ^ 31 ≤ n ∧ n < 2 ^ 31 then .int (Int32.ofInt n) else .error .intOverflow := by
  obtain ⟨t, hread, hinteger, hfraction, hexponent, hsuffix⟩ :=
    read_integer h (.inl ⟨rfl, rfl⟩)
  rw [List.append_nil] at hread
  rw [classify_of_read hread, token, hsuffix]
  simp only [hfraction, hexponent, hinteger, Option.isSome_none, Bool.or_false,
    Bool.false_eq_true, if_false, Bool.and_eq_true, decide_eq_true_eq]
  rfl

/-- An integer with the letter behind it is a token of 64 bits if it fits. -/
theorem classify_longInteger (h : IntegerForm digits n) {letter : Char}
    (hletter : letter ∈ ['l', 'L']) :
    classify (digits ++ [letter]) =
      if -2 ^ 63 ≤ n ∧ n < 2 ^ 63 then .long (Int64.ofInt n) else .error .longOverflow := by
  have htail : [letter] = ['l'] ∨ [letter] = ['L'] := by simpa using hletter
  obtain ⟨t, hread, hinteger, _, _, hsuffix⟩ := read_integer h (.inr ⟨htail, rfl⟩)
  rw [classify_of_read hread, token, hsuffix]
  simp only [hinteger, Bool.and_eq_true, decide_eq_true_eq]
  rfl

/-- The decimal form of an integer of 32 bits is its token. -/
theorem classify_int (n : Int32) : classify (toString n.toInt).toList = .int n := by
  rw [classify_integer (integerForm_toString _), if_pos ⟨n.le_toInt, n.toInt_lt⟩,
    Int32.ofInt_toInt]

/-- The decimal form of an integer of 64 bits with the letter behind it is its token. -/
theorem classify_long (n : Int64) : classify ((toString n.toInt).toList ++ ['L']) = .long n := by
  rw [classify_longInteger (integerForm_toString _) (by simp),
    if_pos ⟨n.le_toInt, n.toInt_lt⟩, Int64.ofInt_toInt]

end Integers

end NumberText

/-- A word that is no keyword and no numeral is a key. -/
theorem classify_key {word : List Char} (hinclude : word ≠ "include".toList)
    (htrue : word ≠ "true".toList) (hfalse : word ≠ "false".toList) (hnumeral : ¬ Numeral word) :
    classify word = .key (String.ofList word) := by
  have hread : NumberText.read word = none := by
    rwa [← Option.not_isSome_iff_eq_none, NumberText.read_isSome_iff]
  rw [classify, if_neg hinclude, if_neg htrue, if_neg hfalse, hread]

end TypedConfig.Token
