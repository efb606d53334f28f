import TypedConfig.Proofs.Position
import TypedConfig.Proofs.Relocation

/-!
# Scanning joined texts

Lexemes do not reach over a line break that follows a text which scans without error: quoted texts
and block comments have been closed, words and line comments end at the break, and blanks may be
dropped one at a time. So the tokens of two texts joined by a line break are those of the first,
without its end, followed by those of the second in their new place.
-/

namespace TypedConfig.Token

open Source

variable {α : Type}

/-- To drop as many items as a scan takes is to drop them. -/
theorem drop_length_takeWhile (p : α → Bool) (xs : List α) :
    xs.drop (xs.takeWhile p).length = xs.dropWhile p := by
  have h := congrArg (List.drop (xs.takeWhile p).length)
    (List.takeWhile_append_dropWhile (p := p) (l := xs))
  rw [List.drop_left] at h
  exact h.symm

/-- Leading blanks may be dropped before scanning. -/
theorem scan_dropWhile (o : Nat) (cs : List Char) :
    scan o cs = scan (o + byteLength (cs.takeWhile isSpace)) (cs.dropWhile isSpace) := by
  cases cs with
  | nil => simp
  | cons c cs =>
    by_cases hc : isSpace c = true
    · have htake : cs.take (cs.takeWhile isSpace).length = cs.takeWhile isSpace :=
        List.prefix_iff_eq_take.mp (List.takeWhile_prefix isSpace) |>.symm
      rw [scan]
      simp only [lexeme, if_pos hc, List.takeWhile_cons_of_pos hc, List.dropWhile_cons_of_pos hc,
        List.take_succ_cons, Nat.add_sub_cancel, htake, drop_length_takeWhile]
    · simp [List.takeWhile_cons_of_neg hc, List.dropWhile_cons_of_neg hc]

/-- A blank may be dropped before scanning. -/
theorem scan_space {c : Char} (hc : isSpace c = true) (o : Nat) (cs : List Char) :
    scan o (c :: cs) = scan (o + c.utf8Size) cs := by
  rw [scan_dropWhile, scan_dropWhile (o + c.utf8Size) cs, List.takeWhile_cons_of_pos hc,
    List.dropWhile_cons_of_pos hc, byteLength_cons, Nat.add_assoc]

/-- The texts that may stand between two delimiters. -/
inductive Admitted (q : Char) : List Char → Prop
  | nil : Admitted q []
  | plain {c written} : c ≠ '\\' → c ≠ q → Admitted q written → Admitted q (c :: written)
  | doubled {written} : Admitted q written → Admitted q (q :: q :: written)
  | escaped {c written} : Admitted q written → Admitted q ('\\' :: c :: written)

/-- A plain character makes a quoted text longer by one. -/
theorem quotedSize_plain {q c : Char} (hslash : c ≠ '\\') (hq : c ≠ q) (cs : List Char) :
    quotedSize q (c :: cs) = (quotedSize q cs).map (· + 1) := by
  cases cs with
  | nil => simp [quotedSize, hq]
  | cons d cs => simp [quotedSize, hq]

/-- A quoted text ends at the first delimiter behind what is admitted, unless it is doubled. -/
theorem Admitted.quotedSize_eq {q : Char} {written : List Char} (h : Admitted q written)
    (hq : q ≠ '\\') {rest : List Char} (hrest : rest.head? ≠ some q) :
    quotedSize q (written ++ q :: rest) = some (written.length + 1) := by
  induction h with
  | nil =>
    cases rest with
    | nil => simp [quotedSize]
    | cons d rest =>
      have hd : d ≠ q := fun heq => hrest (congrArg some heq)
      simp [quotedSize, hd]
  | plain hslash hne _ ih => simp [quotedSize_plain hslash hne, ih]
  | doubled _ ih => simp [quotedSize, ih]
  | escaped _ ih => simp [quotedSize, ih]

/-- A quoted text that ends is admitted up to a delimiter that no other one follows. -/
theorem exists_admitted_of_quotedSize {q : Char} {cs : List Char} {n : Nat}
    (h : quotedSize q cs = some n) :
    ∃ written rest, cs = written ++ q :: rest ∧ n = written.length + 1 ∧ Admitted q written ∧
      rest.head? ≠ some q := by
  fun_induction quotedSize q cs generalizing n with
  | case1 | case2 | case8 => simp at h
  | case3 d cs ih =>
    obtain ⟨k, hk, rfl⟩ := Option.map_eq_some_iff.mp h
    obtain ⟨written, rest, rfl, rfl, hwritten, hrest⟩ := ih hk
    exact ⟨'\\' :: d :: written, rest, rfl, rfl, .escaped hwritten, hrest⟩
  | case4 cs hslash ih =>
    obtain ⟨k, hk, rfl⟩ := Option.map_eq_some_iff.mp h
    obtain ⟨written, rest, rfl, rfl, hwritten, hrest⟩ := ih hk
    exact ⟨q :: q :: written, rest, rfl, rfl, .doubled hwritten, hrest⟩
  | case5 d cs hd hslash =>
    exact ⟨[], d :: cs, rfl, (Option.some.inj h).symm, .nil, by simpa using hd⟩
  | case6 c d cs hslash hc ih =>
    obtain ⟨k, hk, rfl⟩ := Option.map_eq_some_iff.mp h
    obtain ⟨written, rest, hcs, rfl, hwritten, hrest⟩ := ih hk
    exact ⟨c :: written, rest, congrArg _ hcs, rfl, .plain hslash hc hwritten, hrest⟩
  | case7 hslash => exact ⟨[], [], rfl, (Option.some.inj h).symm, .nil, by simp⟩

/-- Where a quoted text ends does not depend on what follows a line break after it. -/
theorem quotedSize_append {q : Char} (hslash : q ≠ '\\') (hbreak : q ≠ '\n') (cs ys : List Char)
    {n : Nat} (h : quotedSize q cs = some n) : quotedSize q (cs ++ '\n' :: ys) = some n := by
  obtain ⟨written, rest, rfl, rfl, hwritten, hrest⟩ := exists_admitted_of_quotedSize h
  rw [List.append_assoc, List.cons_append]
  refine hwritten.quotedSize_eq hslash ?_
  cases rest with
  | nil => simpa using hbreak.symm
  | cons d rest => exact hrest

/-- A quoted text and its delimiter lie within the text. -/
theorem quotedSize_le {q : Char} (cs : List Char) {n : Nat} (h : quotedSize q cs = some n) :
    n ≤ cs.length := by
  obtain ⟨written, rest, rfl, rfl, _, _⟩ := exists_admitted_of_quotedSize h
  simp

/-- Where a block comment ends does not depend on what follows it. -/
theorem commentSize_append (cs ys : List Char) {n : Nat} (h : commentSize cs = some n) :
    commentSize (cs ++ ys) = some n := by
  fun_induction commentSize cs generalizing n with
  | case1 | case2 => simp at h
  | case3 c d cs hend => simpa [commentSize, hend] using h
  | case4 c d cs hend ih =>
    obtain ⟨k, hk, rfl⟩ := Option.map_eq_some_iff.mp h
    have hrest := ih hk
    rw [List.cons_append] at hrest
    simp [commentSize, hend, hrest]

/-- A comment ends within the text. -/
theorem commentSize_le (cs : List Char) {n : Nat} (h : commentSize cs = some n) :
    n ≤ cs.length := by
  fun_induction commentSize cs generalizing n with
  | case1 | case2 => simp at h
  | case3 c d cs hend =>
    obtain rfl : 2 = n := Option.some.inj h
    simp
  | case4 c d cs hend ih =>
    obtain ⟨k, hk, rfl⟩ := Option.map_eq_some_iff.mp h
    have := ih hk
    simp only [List.length_cons] at this ⊢
    omega

/-- A word is the same token before a line break as at the end of the text. -/
theorem wordToken_append (word rest ys : List Char) :
    wordToken word (rest ++ '\n' :: ys) = wordToken word rest := by
  have hdigit : isDigit '\n' = false := by decide
  unfold wordToken
  cases openExponent? word with
  | none => cases rest <;> simp
  | some t =>
    rcases rest with _ | ⟨d, after⟩
    · simp
    by_cases hd : d = '+'
    · subst hd
      simp only [List.cons_append, takeWhile_append_stop hdigit, dropWhile_append_stop hdigit]
      cases after.dropWhile isDigit <;> simp
    · simp [hd]

/-- A token that begins with a word has all of the word, and lies within the text. -/
theorem wordToken_size (word rest : List Char) :
    word.length ≤ (wordToken word rest).1 ∧
      (wordToken word rest).1 ≤ word.length + rest.length := by
  unfold wordToken
  split
  · rename_i after t _
    have htake : (after.takeWhile isDigit).length + (after.dropWhile isDigit).length =
        after.length := by
      rw [← List.length_append, List.takeWhile_append_dropWhile]
    by_cases hds : (after.takeWhile isDigit).isEmpty = true
    · simp only [hds, if_true]
      omega
    cases hafter : after.dropWhile isDigit with
    | nil =>
      simp only [hds, List.head?_nil, Option.any_none, Bool.false_eq_true, if_false,
        List.length_cons]
      omega
    | cons c cs =>
      rw [hafter, List.length_cons] at htake
      simp only [hds, List.head?_cons, Option.any_some, Bool.false_eq_true, if_false,
        List.length_cons]
      by_cases hfloat : (c == 'f' || c == 'F') = true
      · simp only [hfloat, if_true]
        omega
      · simp only [hfloat, Bool.false_eq_true, if_false]
        omega
  · exact ⟨Nat.le_refl _, Nat.le_add_right _ _⟩

/-- A scan takes no more than there is. -/
theorem length_takeWhile_le (p : α → Bool) (xs : List α) : (xs.takeWhile p).length ≤ xs.length :=
  (List.takeWhile_prefix p).length_le

/-- A comment that is closed stays the same in front of a line break. -/
theorem slashLexeme_append (cs ys : List Char)
    (hclean : ∀ e, (slashLexeme cs).kind ≠ some (.error e)) :
    slashLexeme (cs ++ '\n' :: ys) = slashLexeme cs := by
  unfold slashLexeme at hclean ⊢
  split at hclean
  · rename_i cs
    simp [restOfLine, takeWhile_append_stop]
  · rename_i cs
    cases hsize : commentSize cs with
    | none => simp [hsize] at hclean
    | some n => simp [commentSize_append cs _ hsize]
  · simp at hclean

/-- A lexeme after a slash ends within the text. -/
theorem slashLexeme_size_le (cs : List Char) : (slashLexeme cs).size ≤ cs.length + 1 := by
  unfold slashLexeme
  split
  · rename_i cs
    have := length_takeWhile_le (· != '\n') cs
    simpa [restOfLine] using this
  · rename_i cs
    cases hsize : commentSize cs with
    | none => simp
    | some n => simpa using commentSize_le cs hsize
  · simp

/-- A quoted text that is closed stays the same in front of a line break. -/
theorem quotedLexeme_append {q : Char} (hslash : q ≠ '\\') (hbreak : q ≠ '\n')
    (cs ys : List Char)
    (hclean : ∀ e, (quotedLexeme q cs).kind ≠ some (.error e)) :
    quotedLexeme q (cs ++ '\n' :: ys) = quotedLexeme q cs := by
  unfold quotedLexeme at hclean ⊢
  cases hsize : quotedSize q cs with
  | none => simp [hsize] at hclean
  | some n =>
    have hfit : n - 1 ≤ cs.length := by
      have := quotedSize_le cs hsize
      omega
    simp [quotedSize_append hslash hbreak cs ys hsize, List.take_append_of_le_length hfit]

/-- A quoted lexeme ends within the text. -/
theorem quotedLexeme_size_le (q : Char) (cs : List Char) :
    (quotedLexeme q cs).size ≤ cs.length + 1 := by
  unfold quotedLexeme
  cases hsize : quotedSize q cs with
  | none => cases endsInEscape cs <;> simp
  | some n => simpa using quotedSize_le cs hsize

/-- A quoted text begins with its delimiter. -/
theorem lexeme_delimiter {q : Char} (hq : q = '"' ∨ q = '\'') (cs : List Char) :
    lexeme q cs = quotedLexeme q cs := by
  rcases hq with rfl | rfl <;> rfl

/-- A word ends at a line break as at the end of the text. -/
theorem wordLexeme_append (c : Char) (cs ys : List Char) :
    wordLexeme c (cs ++ '\n' :: ys) = wordLexeme c cs := by
  have hbreak : isKeyChar '\n' = false := by decide
  unfold wordLexeme
  rw [takeWhile_append_stop hbreak, dropWhile_append_stop hbreak, wordToken_append]

/-- A word ends within the text. -/
theorem wordLexeme_size_le (c : Char) (cs : List Char) :
    (wordLexeme c cs).size ≤ cs.length + 1 := by
  have hsize := (wordToken_size (c :: cs.takeWhile isKeyChar) (cs.dropWhile isKeyChar)).2
  have hsplit : (cs.takeWhile isKeyChar).length + (cs.dropWhile isKeyChar).length = cs.length := by
    rw [← List.length_append, List.takeWhile_append_dropWhile]
  unfold wordLexeme
  rw [List.length_cons] at hsize
  change (wordToken _ _).1 ≤ _
  omega

/-- A lexeme lies within the text. -/
theorem lexeme_size_le (c : Char) (cs : List Char) : (lexeme c cs).size ≤ cs.length + 1 := by
  unfold lexeme
  split
  · simpa using length_takeWhile_le isSpace cs
  split
  · simpa [hashLexeme, restOfLine] using length_takeWhile_le (· != '\n') cs
  split
  · exact slashLexeme_size_le cs
  split
  · exact quotedLexeme_size_le c cs
  split
  · exact wordLexeme_size_le c cs
  · split <;> simp

/-- An open escape has a backslash. -/
theorem length_pos_of_endsInEscape {cs : List Char} (h : endsInEscape cs = true) :
    0 < cs.length := by
  cases cs with
  | nil => simp [endsInEscape] at h
  | cons c cs => simp

/-- A lexeme takes up a character at least. -/
theorem lexeme_size_pos (c : Char) (cs : List Char) : 0 < (lexeme c cs).size := by
  unfold lexeme
  split
  · exact Nat.succ_pos _
  split
  · exact Nat.succ_pos _
  split
  · unfold slashLexeme
    split
    · exact Nat.succ_pos _
    · split <;> exact Nat.succ_pos _
    · exact Nat.succ_pos _
  split
  · unfold quotedLexeme
    split
    · exact Nat.succ_pos _
    · split
      · rename_i hescape
        exact length_pos_of_endsInEscape hescape
      · exact Nat.succ_pos _
  split
  · have hword := (wordToken_size (c :: cs.takeWhile isKeyChar) (cs.dropWhile isKeyChar)).1
    rw [List.length_cons] at hword
    exact Nat.lt_of_lt_of_le (Nat.succ_pos _) hword
  · split <;> exact Nat.succ_pos _

/-- A number is not the end of the input. -/
theorem NumberText.token_ne_endOfInput (t : NumberText) : t.token ≠ .endOfInput := by
  unfold NumberText.token
  split
  · simp
  · simp only []
    split <;> simp
  · split
    · simp
    · simp only []
      split <;> simp

/-- A word is not the end of the input. -/
theorem classify_ne_endOfInput (word : List Char) : classify word ≠ .endOfInput := by
  unfold classify
  split
  · simp
  split
  · simp
  split
  · simp
  split
  · exact NumberText.token_ne_endOfInput _
  · simp

/-- What a word begins is not the end of the input. -/
theorem wordToken_ne_endOfInput (word rest : List Char) :
    (wordToken word rest).2 ≠ .endOfInput := by
  unfold wordToken
  split
  · simp only []
    split
    · simp
    · exact NumberText.token_ne_endOfInput _
  · exact classify_ne_endOfInput word

/-- The end of the text is no lexeme. -/
theorem lexeme_kind_ne_endOfInput (c : Char) (cs : List Char) :
    (lexeme c cs).kind ≠ some .endOfInput := by
  unfold lexeme
  split
  · simp
  split
  · simp only [hashLexeme]
    split <;> simp
  split
  · unfold slashLexeme
    split
    · simp
    · split <;> simp
    · simp
  split
  · unfold quotedLexeme quotedToken
    split
    · simp only []
      split <;> simp
    · simp
  split
  · exact fun h => wordToken_ne_endOfInput _ _ (Option.some.inj h)
  · split
    · rename_i kind hkind
      intro h
      obtain rfl : kind = .endOfInput := Option.some.inj h
      unfold punctuation? at hkind
      split at hkind <;> simp at hkind
    · simp

/-- A lexeme that is neither blank nor an error is the same before a line break as at the end of
the text. -/
theorem lexeme_append {c : Char} (hc : isSpace c = false) (cs ys : List Char)
    (hclean : ∀ e, (lexeme c cs).kind ≠ some (.error e)) :
    lexeme c (cs ++ '\n' :: ys) = lexeme c cs := by
  have hline : restOfLine (cs ++ '\n' :: ys) = restOfLine cs := takeWhile_append_stop rfl cs ys
  unfold lexeme at hclean ⊢
  rw [hc] at hclean ⊢
  simp only [Bool.false_eq_true, if_false] at hclean ⊢
  by_cases hhash : c = '#'
  · rw [if_pos hhash, if_pos hhash, hline]
  rw [if_neg hhash] at hclean ⊢
  rw [if_neg hhash]
  by_cases hslash : c = '/'
  · rw [if_pos hslash] at hclean ⊢
    rw [if_pos hslash, slashLexeme_append cs ys hclean]
  rw [if_neg hslash] at hclean ⊢
  rw [if_neg hslash]
  by_cases hquote : c = '"' ∨ c = '\''
  · have hends : c ≠ '\\' ∧ c ≠ '\n' := by
      rcases hquote with rfl | rfl <;> decide
    rw [if_pos hquote] at hclean ⊢
    rw [if_pos hquote, quotedLexeme_append hends.1 hends.2 cs ys hclean]
  rw [if_neg hquote, if_neg hquote, wordLexeme_append]

/-- Where the lexeme at the beginning of a text ends. -/
def lexemeEnd (o : Nat) (c : Char) (cs : List Char) : Nat :=
  o + byteLength ((c :: cs).take (lexeme c cs).size)

/-- A lexeme ends behind its begin. -/
theorem le_lexemeEnd (o : Nat) (c : Char) (cs : List Char) : o ≤ lexemeEnd o c cs :=
  Nat.le_add_right _ _

/-- What follows the lexeme at the beginning of a text. -/
def afterLexeme (c : Char) (cs : List Char) : List Char := cs.drop ((lexeme c cs).size - 1)

/-- Behind a lexeme there is less of the text. -/
theorem length_afterLexeme_lt (c : Char) (cs : List Char) :
    (afterLexeme c cs).length < (c :: cs).length := by
  rw [afterLexeme, List.length_drop, List.length_cons]
  omega

/-- The lexeme and what follows it make up the text. -/
theorem lexemeEnd_add (o : Nat) (c : Char) (cs : List Char) :
    lexemeEnd o c cs + byteLength (afterLexeme c cs) = o + byteLength (c :: cs) := by
  obtain ⟨n, hn⟩ : ∃ n, (lexeme c cs).size = n + 1 :=
    ⟨_, (Nat.succ_pred_eq_of_pos (lexeme_size_pos c cs)).symm⟩
  have hsplit := byteLength_take_add_drop (n + 1) (c :: cs)
  rw [lexemeEnd, afterLexeme, hn]
  rw [List.drop_succ_cons] at hsplit
  simp only [Nat.add_sub_cancel]
  omega

/-- A lexeme that what follows the text leaves as it is ends at the same place. -/
theorem lexemeEnd_append (o : Nat) {c : Char} {cs ys : List Char}
    (h : lexeme c (cs ++ ys) = lexeme c cs) :
    lexemeEnd o c (cs ++ ys) = lexemeEnd o c cs := by
  have hfit : (lexeme c cs).size ≤ (c :: cs).length := lexeme_size_le c cs
  rw [lexemeEnd, h, ← List.cons_append, List.take_append_of_le_length hfit, lexemeEnd]

/-- Behind a lexeme that stays the same there is the rest and what has been joined. -/
theorem afterLexeme_append {c : Char} {cs ys : List Char}
    (h : lexeme c (cs ++ ys) = lexeme c cs) :
    afterLexeme c (cs ++ ys) = afterLexeme c cs ++ ys := by
  have hsize := lexeme_size_le c cs
  have hfit : (lexeme c cs).size - 1 ≤ cs.length := by omega
  rw [afterLexeme, h, List.drop_append_of_le_length hfit, afterLexeme]

/-- Layout is passed over. -/
theorem scan_layout {c : Char} {cs : List Char} (o : Nat) (h : (lexeme c cs).kind = none) :
    scan o (c :: cs) = scan (lexemeEnd o c cs) (afterLexeme c cs) := by
  rw [scan]
  simp only [h]
  rfl

/-- A scan stops at an error. -/
theorem scan_error {c : Char} {cs : List Char} {e : LexError} (o : Nat)
    (h : (lexeme c cs).kind = some (.error e)) :
    scan o (c :: cs) = [⟨.error e, Span.ofRange o (lexemeEnd o c cs)⟩] := by
  rw [scan]
  simp only [h]
  rfl

/-- A token stands in front of what is scanned behind it. -/
theorem scan_token {c : Char} {cs : List Char} {kind : TokenKind} (o : Nat)
    (h : (lexeme c cs).kind = some kind) (hclean : ∀ e, kind ≠ .error e) :
    scan o (c :: cs) = ⟨kind, Span.ofRange o (lexemeEnd o c cs)⟩ ::
      scan (lexemeEnd o c cs) (afterLexeme c cs) := by
  rw [scan]
  simp only [h]
  rcases kind with _ | _ | _ | _ | _ | _ | _ | _ | _ | _ | _ | _ | _ | _ | _ | _ | _ | _ | _ | _ |
    e | _
  case error => exact absurd rfl (hclean e)
  all_goals rfl

/-- The tokens of a text that begins further behind are the same, further behind. -/
theorem scan_add (o distance : Nat) (cs : List Char)
    (hsmall : o + distance + byteLength cs ≤ maxOffset) :
    scan (o + distance) cs = (scan o cs).map (Token.relocate (Relocation.shift distance)) := by
  match cs with
  | [] =>
    have hend : min (o + distance) maxOffset = min o maxOffset + distance := by
      rw [byteLength_nil] at hsmall
      omega
    simp [scan, Token.relocate, Relocation.shift, Span.point, hend]
  | c :: cs =>
    have hsplit := lexemeEnd_add o c cs
    have hmove : lexemeEnd (o + distance) c cs = lexemeEnd o c cs + distance := by
      simp only [lexemeEnd]
      omega
    have hspan : Span.ofRange (o + distance) (lexemeEnd (o + distance) c cs) =
        Relocation.shift distance (Span.ofRange o (lexemeEnd o c cs)) := by
      simp only [Span.ofRange, Relocation.shift, hmove, Span.mk.injEq]
      omega
    have hshort : (afterLexeme c cs).length ≤ cs.length :=
      Nat.le_of_lt_succ (length_afterLexeme_lt c cs)
    have hrest := scan_add (lexemeEnd o c cs) distance (afterLexeme c cs) (by omega)
    cases hkind : (lexeme c cs).kind with
    | none => rw [scan_layout _ hkind, scan_layout _ hkind, hmove, hrest]
    | some kind =>
      by_cases hclean : ∀ e, kind ≠ .error e
      · rw [scan_token _ hkind hclean, scan_token _ hkind hclean, hspan, hmove, hrest]
        rfl
      · obtain ⟨e, rfl⟩ : ∃ e, kind = .error e := by simpa using hclean
        rw [scan_error _ hkind, scan_error _ hkind, hspan]
        rfl
  termination_by cs.length

/-- What holds at the end of a text, at an error, and in front of what it holds of, holds of a
scan. -/
theorem scan_induction {P : Nat → List Char → List Token → Prop}
    (finish : ∀ o, P o [] [⟨.endOfInput, Span.point (min o maxOffset)⟩])
    (layout : ∀ o c cs ts, P (lexemeEnd o c cs) (afterLexeme c cs) ts → P o (c :: cs) ts)
    (error : ∀ o c cs e, P o (c :: cs) [⟨.error e, Span.ofRange o (lexemeEnd o c cs)⟩])
    (token : ∀ o c cs kind ts, kind ≠ .endOfInput → (∀ e, kind ≠ .error e) →
      P (lexemeEnd o c cs) (afterLexeme c cs) ts →
        P o (c :: cs) (⟨kind, Span.ofRange o (lexemeEnd o c cs)⟩ :: ts))
    (o : Nat) (cs : List Char) : P o cs (scan o cs) := by
  match cs with
  | [] =>
    rw [scan]
    exact finish o
  | c :: cs =>
    have hshort : (afterLexeme c cs).length ≤ cs.length :=
      Nat.le_of_lt_succ (length_afterLexeme_lt c cs)
    have hrest := scan_induction finish layout error token (lexemeEnd o c cs) (afterLexeme c cs)
    cases hkind : (lexeme c cs).kind with
    | none =>
      rw [scan_layout o hkind]
      exact layout o c cs _ hrest
    | some kind =>
      by_cases hclean : ∀ e, kind ≠ .error e
      · rw [scan_token o hkind hclean]
        refine token o c cs kind _ (fun hend => ?_) hclean hrest
        exact lexeme_kind_ne_endOfInput c cs (hkind.trans (congrArg some hend))
      · obtain ⟨e, rfl⟩ : ∃ e, kind = .error e := by simpa using hclean
        rw [scan_error o hkind]
        exact error o c cs e
  termination_by cs.length

/-- The spans of tokens lie within the text. -/
theorem scan_span_le (o : Nat) (cs : List Char) :
    ∀ t ∈ scan o cs, t.span.start ≤ o + byteLength cs ∧ t.span.stop ≤ o + byteLength cs := by
  refine scan_induction (P := fun o cs ts => ∀ t ∈ ts,
    t.span.start ≤ o + byteLength cs ∧ t.span.stop ≤ o + byteLength cs)
    ?finish ?layout ?error ?token o cs
  case finish =>
    intro o
    exact List.forall_mem_singleton.mpr ⟨Nat.min_le_left _ _, Nat.min_le_left _ _⟩
  case layout =>
    intro o c cs ts hts
    rwa [lexemeEnd_add] at hts
  case error =>
    intro o c cs e
    have hend := lexemeEnd_add o c cs
    refine List.forall_mem_singleton.mpr ?_
    simp only [Span.ofRange]
    omega
  case token =>
    intro o c cs kind ts _ _ hts
    have hend := lexemeEnd_add o c cs
    rw [hend] at hts
    refine List.forall_mem_cons.mpr ⟨?_, hts⟩
    simp only [Span.ofRange]
    omega

/-- No token begins in front of where the scan does. -/
theorem scan_span_ge (o : Nat) (cs : List Char) :
    ∀ t ∈ scan o cs, min o maxOffset ≤ t.span.start := by
  refine scan_induction (P := fun o _ ts => ∀ t ∈ ts, min o maxOffset ≤ t.span.start)
    ?finish ?layout ?error ?token o cs
  case finish => exact fun o => List.forall_mem_singleton.mpr (Nat.le_refl _)
  case layout =>
    intro o c cs ts hts t ht
    have hend := le_lexemeEnd o c cs
    have := hts t ht
    omega
  case error => exact fun o c cs e => List.forall_mem_singleton.mpr (Nat.le_refl _)
  case token =>
    intro o c cs kind ts _ _ hts
    refine List.forall_mem_cons.mpr ⟨Nat.le_refl _, fun t ht => ?_⟩
    have hend := le_lexemeEnd o c cs
    have := hts t ht
    omega

/-- How a scan ends: at the end of the text, where a line break and another text may follow, or
with an error. -/
theorem scan_join (o : Nat) (cs ys : List Char) :
    ∃ body, (∀ t ∈ body, t.kind ≠ .endOfInput) ∧
      ((∃ span, scan o cs = body ++ [⟨.endOfInput, span⟩] ∧
          scan o (cs ++ '\n' :: ys) = body ++ scan (o + byteLength cs + 1) ys) ∨
        ∃ e span, scan o cs = body ++ [⟨.error e, span⟩]) := by
  match cs with
  | [] =>
    refine ⟨[], by simp, .inl ⟨_, by rw [scan]; rfl, ?_⟩⟩
    rw [List.nil_append, scan_space (by decide)]
    rfl
  | c :: cs =>
    have hshort : (afterLexeme c cs).length ≤ cs.length :=
      Nat.le_of_lt_succ (length_afterLexeme_lt c cs)
    by_cases hspace : isSpace c = true
    · rw [List.cons_append, scan_space hspace, scan_space hspace, byteLength_cons, ← Nat.add_assoc]
      exact scan_join (o + c.utf8Size) cs ys
    obtain ⟨body, hbody, hends⟩ := scan_join (lexemeEnd o c cs) (afterLexeme c cs) ys
    rw [lexemeEnd_add] at hends
    have hsame (h : ∀ e, (lexeme c cs).kind ≠ some (.error e)) :
        lexeme c (cs ++ '\n' :: ys) = lexeme c cs :=
      lexeme_append (by simpa using hspace) cs ys h
    cases hkind : (lexeme c cs).kind with
    | none =>
      have hjoin := hsame (by simp [hkind])
      have hkinds : (lexeme c (cs ++ '\n' :: ys)).kind = none := by rw [hjoin, hkind]
      refine ⟨body, hbody, ?_⟩
      rw [List.cons_append, scan_layout o hkind, scan_layout o hkinds, lexemeEnd_append o hjoin,
        afterLexeme_append hjoin]
      exact hends
    | some kind =>
      by_cases hclean : ∀ e, kind ≠ .error e
      · have hjoin := hsame (by simpa [hkind] using hclean)
        have hkinds : (lexeme c (cs ++ '\n' :: ys)).kind = some kind := by rw [hjoin, hkind]
        rw [List.cons_append, scan_token o hkind hclean, scan_token o hkinds hclean,
          lexemeEnd_append o hjoin, afterLexeme_append hjoin]
        refine ⟨⟨kind, Span.ofRange o (lexemeEnd o c cs)⟩ :: body, ?_, ?_⟩
        · intro t ht
          rcases List.mem_cons.mp ht with rfl | ht
          · intro hend
            exact lexeme_kind_ne_endOfInput c cs (hkind.trans (congrArg some hend))
          · exact hbody t ht
        · rcases hends with ⟨span, hleft, hboth⟩ | ⟨e, span, hleft⟩
          · exact .inl ⟨span, congrArg _ hleft, congrArg _ hboth⟩
          · exact .inr ⟨e, span, congrArg _ hleft⟩
      · obtain ⟨e, rfl⟩ : ∃ e, kind = .error e := by simpa using hclean
        exact ⟨[], by simp, .inr ⟨e, _, scan_error o hkind⟩⟩
  termination_by cs.length

end TypedConfig.Token
