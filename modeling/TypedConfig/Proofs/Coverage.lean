import TypedConfig.Proofs.Escapes
import TypedConfig.Proofs.Writing

/-!
# Coverage

The tokens of a text and the layout between them are the whole text, up to its end or to the first
error. A token has the bytes of its form, which by itself is the same token: whatever decides where
a lexeme ends is either in the lexeme or would also end it at the end of the text.
-/

namespace TypedConfig.Token

open Source

/-- A comment that only the end of the text ends, or nothing. -/
inductive LastComment : List Char → Prop
  | none : LastComment []
  | slashes {line} : '\n' ∉ line → LastComment ('/' :: '/' :: line)
  | hash {line} : '\n' ∉ line → ('#' :: line).takeWhile (!Text.isBlank ·) ≠ "#include".toList →
    LastComment ('#' :: line)

/-- The tokens that a text which begins at an offset is cut into. Layout stands in front of each of
them and at the end, and each has the bytes of its form, which by itself is the same token. Nothing
is said of what follows an error. -/
inductive CutInto : Nat → List Char → List Token → Prop
  | finish {o gap last} : Layout gap → LastComment last →
    CutInto o (gap ++ last) [⟨.endOfInput, .point (o + byteLength (gap ++ last))⟩]
  | error {o gap form rest e} : Layout gap → form ≠ [] →
    CutInto o (gap ++ form ++ rest)
      [⟨.error e, ⟨o + byteLength gap, o + byteLength (gap ++ form)⟩⟩]
  | token {o gap form rest kind ts} : Layout gap → form ≠ [] → kind ≠ .endOfInput →
    (∀ e, kind ≠ .error e) →
    lex (String.ofList form) =
      [⟨kind, ⟨0, byteLength form⟩⟩, ⟨.endOfInput, .point (byteLength form)⟩] →
    CutInto (o + byteLength (gap ++ form)) rest ts →
    CutInto o (gap ++ form ++ rest)
      (⟨kind, ⟨o + byteLength gap, o + byteLength (gap ++ form)⟩⟩ :: ts)

section Lines

/-- The rest of a line has no line break. -/
theorem newline_not_mem_restOfLine (cs : List Char) : '\n' ∉ restOfLine cs := by
  intro h
  have hne := List.mem_takeWhile_imp h
  simp at hne

/-- A line ends with the text or with a line break. -/
theorem restOfLine_cases (cs : List Char) :
    restOfLine cs = cs ∨ ∃ rest, cs = restOfLine cs ++ '\n' :: rest := by
  have hsplit := List.takeWhile_append_dropWhile (p := (· != '\n')) (l := cs)
  cases hrest : cs.dropWhile (· != '\n') with
  | nil =>
    rw [hrest, List.append_nil] at hsplit
    exact .inl hsplit
  | cons d rest =>
    have hd := List.head?_dropWhile_not (· != '\n') cs
    rw [hrest] at hd
    obtain rfl : d = '\n' := by simpa using hd
    rw [hrest] at hsplit
    exact .inr ⟨rest, hsplit.symm⟩

end Lines

section Layout

/-- A block comment that ends is written up to its first end. -/
theorem exists_of_commentSize {cs : List Char} {n : Nat} (h : commentSize cs = some n) :
    ∃ text rest, cs = text ++ '*' :: '/' :: rest ∧ n = text.length + 2 ∧
      ¬ ['*', '/'] <:+: text := by
  fun_induction commentSize cs generalizing n with
  | case1 | case2 => simp at h
  | case3 c d cs hend =>
    obtain ⟨rfl, rfl⟩ := hend
    exact ⟨[], cs, rfl, (Option.some.inj h).symm, by decide⟩
  | case4 c d cs hend ih =>
    obtain ⟨k, hk, rfl⟩ := Option.map_eq_some_iff.mp h
    obtain ⟨text, rest, hcs, rfl, htext⟩ := ih hk
    refine ⟨c :: text, rest, congrArg _ hcs, rfl, fun hinfix => ?_⟩
    obtain hprefix | hinfix := List.infix_cons_iff.mp hinfix
    · obtain ⟨after, heq⟩ := hprefix
      obtain ⟨rfl, rfl⟩ := List.cons.inj heq
      exact hend ⟨rfl, (List.cons.inj hcs).1⟩
    · exact htext hinfix

/-- A comment that begins with a hash is one with its line break, or the last thing in the text. -/
theorem hashLexeme_gap {cs : List Char} (h : (hashLexeme ('#' :: restOfLine cs)).kind = none) :
    (∃ gap rest, '#' :: cs = gap ++ rest ∧ Gap gap) ∨
      LastComment ('#' :: cs) ∧ (restOfLine cs).length = cs.length := by
  have hword : ('#' :: restOfLine cs).takeWhile (!Text.isBlank ·) ≠ "#include".toList := by
    rw [hashLexeme, words_head? (by decide)] at h
    rintro heq
    simp [heq] at h
  obtain hwhole | ⟨rest, hrest⟩ := restOfLine_cases cs
  · refine .inr ⟨?_, congrArg List.length hwhole⟩
    rw [← hwhole]
    exact .hash (newline_not_mem_restOfLine cs) hword
  · exact .inl ⟨_, rest, congrArg _ (hrest.trans (List.append_cons ..)),
      .hash (newline_not_mem_restOfLine cs) hword⟩

/-- A comment that begins with a slash is a block, or a line with its line break, or a line that is
the last thing in the text. -/
theorem slashLexeme_gap {cs : List Char} (h : (slashLexeme cs).kind = none) :
    (∃ gap rest, '/' :: cs = gap ++ rest ∧ Gap gap) ∨
      LastComment ('/' :: cs) ∧ (slashLexeme cs).size = cs.length + 1 := by
  unfold slashLexeme at h ⊢
  split at h
  next cs =>
    obtain hwhole | ⟨rest, hrest⟩ := restOfLine_cases cs
    · refine .inr ⟨?_, congrArg (·.length + 2) hwhole⟩
      rw [← hwhole]
      exact .slashes (newline_not_mem_restOfLine cs)
    · exact .inl ⟨_, rest, congrArg ('/' :: '/' :: ·) (hrest.trans (List.append_cons ..)),
        .slashes (newline_not_mem_restOfLine cs)⟩
  next cs =>
    split at h
    next n hsize =>
      obtain ⟨text, rest, rfl, _, htext⟩ := exists_of_commentSize hsize
      exact .inl ⟨_, rest, by simp, .block htext⟩
    next => cases h
  next => cases h

/-- A lexeme without a token begins with a blank or a comment, unless it is a comment that goes on
to the end of the text. -/
theorem exists_gap {c : Char} {cs : List Char} (h : (lexeme c cs).kind = none) :
    (∃ gap rest, c :: cs = gap ++ rest ∧ Gap gap) ∨
      LastComment (c :: cs) ∧ (lexeme c cs).size = (c :: cs).length := by
  by_cases hspace : isSpace c = true
  · exact .inl ⟨[c], cs, rfl, .blank (by simpa [isSpace, or_assoc] using hspace)⟩
  by_cases hhash : c = '#'
  · subst hhash
    exact (hashLexeme_gap h).imp_right (And.imp_right (congrArg (· + 1)))
  by_cases hslash : c = '/'
  · subst hslash
    exact slashLexeme_gap h
  -- Whatever else a lexeme begins with, it is a token or an error.
  rw [lexeme, if_neg hspace, if_neg hhash, if_neg hslash] at h
  split at h
  · unfold quotedLexeme at h
    split at h <;> cases h
  split at h
  · cases h
  · split at h <;> cases h

end Layout

section Alone

/-- The digits of an exponent and the letter behind them, if it is that of short fractions, continue
a number that breaks off in front of a plus sign. -/
theorem wordToken_plus {word ds rest : List Char} {t : NumberText} {short : Bool}
    (hopen : openExponent? word = some t) (hds : IsDigits ds)
    (hrest : rest.head?.any isDigit = false)
    (hshort : (rest.head?.any fun c => c == 'f' || c == 'F') = short) :
    wordToken word ('+' :: (ds ++ rest)) =
      (word.length + 1 + ds.length + (if short then 1 else 0),
        { t with exponent := some (false, ds),
                 suffix := if short then .float else .none : NumberText }.token) := by
  simp only [wordToken, hopen, takeWhile_append_of_head hds.2 hrest,
    dropWhile_append_of_head hds.2 hrest, hshort, List.isEmpty_eq_false_iff.mpr hds.1,
    Bool.false_eq_true, if_false]

/-- What begins with a word is the same token if nothing follows it. -/
theorem wordToken_take (word rest : List Char)
    (hclean : ∀ e, (wordToken word rest).2 ≠ .error e) :
    wordToken word (rest.take ((wordToken word rest).1 - word.length)) = wordToken word rest := by
  have hnil : wordToken word [] = (word.length, classify word) :=
    wordToken_of_head word (by simp)
  by_cases hplus : rest.head? = some '+'
  · obtain ⟨after, rfl⟩ := List.head?_eq_some_iff.mp hplus
    cases hopen : openExponent? word with
    | none =>
      have hword : wordToken word ('+' :: after) = (word.length, classify word) := by
        simp [wordToken, hopen]
      rw [hword, Nat.sub_self, List.take_zero, hnil]
    | some t =>
      by_cases hempty : after.takeWhile isDigit = []
      · simp [wordToken, hopen, hempty] at hclean
      have hds : IsDigits (after.takeWhile isDigit) := ⟨hempty, fun _ => List.mem_takeWhile_imp⟩
      have hrest := head?_dropWhile_any isDigit after
      rw [← List.takeWhile_append_dropWhile (p := isDigit) (l := after)]
      generalize after.takeWhile isDigit = ds at hds ⊢
      generalize after.dropWhile isDigit = rest at hrest ⊢
      -- What is behind the digits matters only by its first character, and if that is the letter
      -- it is still there after the cut.
      generalize hshort : (rest.head?.any fun c => c == 'f' || c == 'F') = short
      have hletter : ((rest.take (if short then 1 else 0)).head?.any
          fun c => c == 'f' || c == 'F') = short := by
        cases short with
        | false => rfl
        | true => rwa [List.head?_take, if_neg (by decide)]
      have htake (n : Nat) : ('+' :: (ds ++ rest)).take (word.length + 1 + ds.length + n -
          word.length) = '+' :: (ds ++ rest.take n) := by
        have hsize : word.length + 1 + ds.length + n - word.length = ds.length + n + 1 := by omega
        rw [hsize, List.take_succ_cons, List.take_length_add_append]
      rw [wordToken_plus hopen hds hrest hshort, htake,
        wordToken_plus hopen hds (head?_take_any hrest _) hletter]
  · rw [wordToken_of_head word hplus, Nat.sub_self, List.take_zero, hnil]

/-- A word ends where no key character follows. -/
theorem wordLexeme_of_head (c : Char) {word rest : List Char}
    (hword : ∀ d ∈ word, isKeyChar d = true) (hrest : rest.head?.any isKeyChar = false) :
    wordLexeme c (word ++ rest) =
      ⟨(wordToken (c :: word) rest).1, some (wordToken (c :: word) rest).2⟩ := by
  rw [wordLexeme, takeWhile_append_of_head hword hrest, dropWhile_append_of_head hword hrest]

/-- A word is the same lexeme without what follows. -/
theorem wordLexeme_take (c : Char) (cs : List Char)
    (hclean : ∀ e, (wordLexeme c cs).kind ≠ some (.error e)) :
    wordLexeme c (cs.take ((wordLexeme c cs).size - 1)) = wordLexeme c cs := by
  have hword : ∀ d ∈ cs.takeWhile isKeyChar, isKeyChar d = true := fun _ => List.mem_takeWhile_imp
  have hrest := head?_dropWhile_any isKeyChar cs
  rw [← List.takeWhile_append_dropWhile (p := isKeyChar) (l := cs)] at hclean ⊢
  generalize cs.takeWhile isKeyChar = word at hword hclean ⊢
  generalize cs.dropWhile isKeyChar = rest at hrest hclean ⊢
  rw [wordLexeme_of_head c hword hrest] at hclean ⊢
  have htoken := wordToken_take (c :: word) rest fun e he => hclean e (congrArg some he)
  have hsize := (wordToken_size (c :: word) rest).1
  obtain ⟨n, hn⟩ := Nat.exists_eq_add_of_le hsize
  have hlength : (wordToken (c :: word) rest).1 - 1 = word.length + n := by
    rw [hn, List.length_cons]
    omega
  rw [hn, Nat.add_sub_cancel_left] at htoken
  rw [hlength, List.take_length_add_append, wordLexeme_of_head c hword (head?_take_any hrest n),
    htoken]

/-- A quoted text is the same lexeme without what follows. -/
theorem quotedLexeme_take {q : Char} (hq : q ≠ '\\') (cs : List Char)
    (hclean : ∀ e, (quotedLexeme q cs).kind ≠ some (.error e)) :
    quotedLexeme q (cs.take ((quotedLexeme q cs).size - 1)) = quotedLexeme q cs := by
  cases hsize : quotedSize q cs with
  | none => simp [quotedLexeme, hsize] at hclean
  | some n =>
    obtain ⟨written, rest, rfl, rfl, hwritten, _⟩ := exists_admitted_of_quotedSize hsize
    have halone : quotedSize q (written ++ [q]) = some (written.length + 1) :=
      hwritten.quotedSize_eq hq (by simp)
    have hcut : (written ++ q :: rest).take (written.length + 1) = written ++ [q] := by
      rw [List.take_length_add_append]
      rfl
    simp only [quotedLexeme, hsize, Nat.add_sub_cancel, hcut, halone, List.take_left]

/-- A token is the same lexeme if nothing follows it. -/
theorem lexeme_take {c : Char} {cs : List Char} {kind : TokenKind}
    (h : (lexeme c cs).kind = some kind) (hclean : ∀ e, kind ≠ .error e) :
    lexeme c (cs.take ((lexeme c cs).size - 1)) = lexeme c cs := by
  have hno : ∀ e, (lexeme c cs).kind ≠ some (.error e) := by simpa [h] using hclean
  by_cases hspace : isSpace c = true
  · rw [lexeme, if_pos hspace] at h
    cases h
  by_cases hhash : c = '#'
  · subst hhash
    have hlexeme (cs : List Char) : lexeme '#' cs = hashLexeme ('#' :: restOfLine cs) := rfl
    have hcut : cs.take (restOfLine cs).length = restOfLine cs :=
      (List.prefix_iff_eq_take.mp (List.takeWhile_prefix _)).symm
    have hline : restOfLine (restOfLine cs) = restOfLine cs := List.takeWhile_idem
    rw [hlexeme cs, hashLexeme, List.length_cons, Nat.add_sub_cancel, hcut, hlexeme, hline]
    rfl
  by_cases hslash : c = '/'
  · subst hslash
    change (slashLexeme cs).kind = some kind at h
    unfold slashLexeme at h
    split at h
    · cases h
    · split at h
      · cases h
      · exact absurd (Option.some.inj h).symm (hclean _)
    · exact absurd (Option.some.inj h).symm (hclean _)
  by_cases hquote : c = '"' ∨ c = '\''
  · have hlexeme := lexeme_delimiter hquote
    have hbackslash : c ≠ '\\' := by rcases hquote with rfl | rfl <;> decide
    rw [hlexeme] at hno
    rw [hlexeme cs, hlexeme, quotedLexeme_take hbackslash cs hno]
  by_cases hkey : isKeyChar c = true
  · have hlexeme (cs : List Char) : lexeme c cs = wordLexeme c cs := by
      rw [lexeme, if_neg hspace, if_neg hhash, if_neg hslash, if_neg hquote, if_pos hkey]
    rw [hlexeme] at hno
    rw [hlexeme cs, hlexeme, wordLexeme_take c cs hno]
  · have hlexeme (cs : List Char) : lexeme c cs = lexeme c [] := by
      simp only [lexeme, if_neg hspace, if_neg hhash, if_neg hslash, if_neg hquote, if_neg hkey]
    rw [hlexeme cs, hlexeme]

end Alone

section Cutting

variable {o : Nat} {cs : List Char} {ts : List Token}

/-- A blank or a comment may stand in front of a text that is cut. -/
theorem CutInto.after_gap {gap : List Char} (hgap : Gap gap)
    (h : CutInto (o + byteLength gap) cs ts) : CutInto o (gap ++ cs) ts := by
  have hbehind (xs : List Char) :
      o + byteLength gap + byteLength xs = o + byteLength (gap ++ xs) := by
    rw [byteLength_append, Nat.add_assoc]
  cases h with
  | finish hlayout hlast =>
    simp only [hbehind, ← List.append_assoc]
    exact .finish (.append hgap hlayout) hlast
  | error hlayout hform =>
    simp only [hbehind, ← List.append_assoc]
    exact .error (.append hgap hlayout) hform
  | token hlayout hform hend hclean halone hrest =>
    simp only [hbehind, ← List.append_assoc] at hrest ⊢
    exact .token (.append hgap hlayout) hform hend hclean halone hrest

/-- A token that nothing follows is the only one, and the end of the text comes behind it. -/
theorem lex_form {c : Char} {form : List Char} {kind : TokenKind}
    (h : lexeme c form = ⟨(c :: form).length, some kind⟩) (hclean : ∀ e, kind ≠ .error e)
    (hsmall : byteLength (c :: form) ≤ maxOffset) :
    lex (String.ofList (c :: form)) = [⟨kind, ⟨0, byteLength (c :: form)⟩⟩,
      ⟨.endOfInput, .point (byteLength (c :: form))⟩] := by
  have hscan := scan_taken 0 (List.append_nil (c :: form)).symm h hclean
  rw [scan, Nat.zero_add] at hscan
  rw [lex, String.toList_ofList, hscan, Span.ofRange, Nat.zero_min, Nat.min_eq_left hsmall]

/-- A gap has characters. -/
theorem Gap.length_pos {gap : List Char} (h : Gap gap) : 0 < gap.length := by
  cases h <;> simp

/-- A lexeme is a piece of the text. -/
theorem exists_form (c : Char) (cs : List Char) :
    ∃ form rest, cs = form ++ rest ∧ (lexeme c cs).size = (c :: form).length := by
  have hpos := lexeme_size_pos c cs
  have hfit := lexeme_size_le c cs
  refine ⟨_, _, (List.take_append_drop ((lexeme c cs).size - 1) cs).symm, ?_⟩
  rw [List.length_cons, List.length_take]
  omega

/-- The form of a token by itself is the same lexeme. -/
theorem lexeme_form {c : Char} {form rest : List Char} {kind : TokenKind}
    (hcs : cs = form ++ rest) (hsize : (lexeme c cs).size = (c :: form).length)
    (hkind : (lexeme c cs).kind = some kind) (hclean : ∀ e, kind ≠ .error e) :
    lexeme c form = ⟨(c :: form).length, some kind⟩ := by
  have htake := lexeme_take hkind hclean
  rw [hsize, List.length_cons, Nat.add_sub_cancel, hcs, List.take_left, ← hcs] at htake
  rw [htake, ← hsize, ← hkind]

/-- A scan cuts the text. -/
theorem scan_cutInto (o : Nat) (cs : List Char) (hsmall : o + byteLength cs ≤ maxOffset) :
    CutInto o cs (scan o cs) := by
  match cs with
  | [] =>
    rw [scan, Nat.min_eq_left (by simpa using hsmall)]
    exact CutInto.finish .nil .none
  | c :: cs =>
    cases hkind : (lexeme c cs).kind with
    | none =>
      -- The lexeme may be many blanks, and a line comment does not have its line break, so what is
      -- dropped here is a piece of layout and not the lexeme.
      obtain ⟨gap, rest, heq, hgap⟩ | ⟨hlast, hwhole⟩ := exists_gap hkind
      · have hshort : rest.length ≤ cs.length := by
          have hpos := hgap.length_pos
          have hlength := congrArg List.length heq
          rw [List.length_cons, List.length_append] at hlength
          omega
        rw [heq, byteLength_append] at hsmall
        rw [heq, hgap.scan_append]
        exact (scan_cutInto _ rest (by omega)).after_gap hgap
      · have hcs : c :: cs = (c :: cs) ++ [] := (List.append_nil _).symm
        rw [scan_layout o hkind, lexemeEnd_eq o hcs hwhole, afterLexeme_eq hcs hwhole, scan,
          Nat.min_eq_left hsmall]
        exact CutInto.finish .nil hlast
    | some kind =>
      obtain ⟨form, rest, hsplit, hsize⟩ := exists_form c cs
      have hcs : c :: cs = [] ++ (c :: form) ++ rest := congrArg _ hsplit
      have hshort : rest.length ≤ cs.length := by
        rw [hsplit, List.length_append]
        omega
      rw [hcs, byteLength_append] at hsmall
      have hspan : Span.ofRange o (lexemeEnd o c cs) =
          ⟨o + byteLength [], o + byteLength ([] ++ (c :: form))⟩ := by
        rw [lexemeEnd_eq o hcs hsize, Span.ofRange, Nat.min_eq_left (by omega),
          Nat.min_eq_left (by omega)]
        rfl
      by_cases hclean : ∀ e, kind ≠ .error e
      · have halone := lexeme_form hsplit hsize hkind hclean
        have hform : byteLength (c :: form) ≤ maxOffset := by
          rw [List.nil_append] at hsmall
          omega
        have hrest := scan_cutInto (o + byteLength ([] ++ (c :: form))) rest (by omega)
        rw [scan_token o hkind hclean, hspan, lexemeEnd_eq o hcs hsize, afterLexeme_eq hcs hsize,
          hcs]
        refine .token .nil (List.cons_ne_nil c form) (fun hend => ?_) hclean
          (lex_form halone hclean hform) hrest
        exact lexeme_kind_ne_endOfInput c cs (hkind.trans (congrArg some hend))
      · obtain ⟨e, rfl⟩ : ∃ e, kind = .error e := by simpa using hclean
        rw [scan_error o hkind, hspan, hcs]
        exact .error .nil (List.cons_ne_nil c form)
  termination_by cs.length

end Cutting

section Spans

variable {o : Nat} {cs : List Char} {ts : List Token}

/-- A text with characters has bytes. -/
theorem byteLength_pos {cs : List Char} (h : cs ≠ []) : 0 < byteLength cs := by
  obtain ⟨c, cs, rfl⟩ := List.exists_cons_of_ne_nil h
  have := c.utf8Size_pos
  rw [byteLength_cons]
  omega

/-- The offsets of a rear part are offsets of the text. -/
theorem mem_boundaries_append {xs ys : List Char} {b : Nat}
    (h : b ∈ boundaries (o + byteLength xs) ys) : b ∈ boundaries o (xs ++ ys) := by
  induction xs generalizing o with
  | nil => exact h
  | cons x xs ih =>
    rw [byteLength_cons, ← Nat.add_assoc] at h
    exact .tail _ (ih h)

/-- The bytes of a token that has been cut off. -/
theorem CutInto.spans (h : CutInto o cs ts) : ∀ t ∈ ts,
    t.span.start ∈ boundaries o cs ∧ t.span.stop ∈ boundaries o cs ∧
      if t.kind = .endOfInput then t.span = .point (o + byteLength cs)
      else t.span.start < t.span.stop := by
  have hform {o : Nat} {gap form rest : List Char} {kind : TokenKind} (hne : form ≠ [])
      (hend : kind ≠ .endOfInput) :
      o + byteLength gap ∈ boundaries o (gap ++ form ++ rest) ∧
        o + byteLength (gap ++ form) ∈ boundaries o (gap ++ form ++ rest) ∧
        if kind = .endOfInput then Span.mk (o + byteLength gap) (o + byteLength (gap ++ form)) =
          .point (o + byteLength (gap ++ form ++ rest))
        else o + byteLength gap < o + byteLength (gap ++ form) := by
    have hpos := byteLength_pos hne
    refine ⟨?_, mem_boundaries o (gap ++ form) rest, ?_⟩
    · rw [List.append_assoc]
      exact mem_boundaries o gap (form ++ rest)
    · rw [if_neg hend, byteLength_append]
      omega
  induction h with
  | @finish o gap last _ _ =>
    have hmem := mem_boundaries o (gap ++ last) []
    rw [List.append_nil] at hmem
    exact List.forall_mem_singleton.mpr ⟨hmem, hmem, rfl⟩
  | error _ hne => exact List.forall_mem_singleton.mpr (hform hne nofun)
  | @token o gap form rest kind ts _ hne hend _ _ _ ih =>
    refine List.forall_mem_cons.mpr ⟨hform hne hend, fun t ht => ?_⟩
    obtain ⟨hstart, hstop, hspan⟩ := ih t ht
    refine ⟨mem_boundaries_append hstart, mem_boundaries_append hstop, ?_⟩
    rwa [Nat.add_assoc, ← byteLength_append] at hspan

/-- Each token ends in front of the next. -/
theorem CutInto.ordered (h : CutInto o cs ts) :
    ts.Pairwise fun t u => t.span.stop ≤ u.span.start := by
  induction h with
  | finish | error => exact List.pairwise_singleton _ _
  | token _ _ _ _ _ hrest ih =>
    refine List.pairwise_cons.mpr ⟨fun u hu => ?_, ih⟩
    exact (boundaries_mem_range _ _ _ (hrest.spans u hu).1).1

/-- What stands in front of another token is not the end of the text. -/
theorem CutInto.kind_ne_endOfInput {body rest : List Token} {u : Token}
    (h : CutInto o cs (body ++ u :: rest)) : ∀ t ∈ body, t.kind ≠ .endOfInput := by
  generalize hts : body ++ u :: rest = ts at h
  induction h generalizing body with
  | finish | error =>
    rcases List.append_eq_singleton_iff.mp hts with ⟨rfl, -⟩ | ⟨-, hempty⟩
    · nofun
    · cases hempty
  | token _ _ hend _ _ _ ih =>
    cases body with
    | nil => nofun
    | cons t body =>
      obtain ⟨rfl, hrest⟩ := List.cons.inj hts
      exact List.forall_mem_cons.mpr ⟨hend, ih hrest⟩

end Spans

end TypedConfig.Token

namespace TypedConfig

open Token Source

/-- Tokens and layout account for every byte of a text, up to its end or to the first error: the
text is layout and forms of tokens in turn, each of which is the same token by itself. All spans lie
on characters, one behind the other, and only that of the end is empty. -/
theorem lex_cutInto (text : String) (hsmall : byteLength text.toList < 2 ^ 32) :
    CutInto 0 text.toList (lex text) ∧
      (∀ t ∈ lex text, t.span.start ∈ boundaries 0 text.toList ∧
        t.span.stop ∈ boundaries 0 text.toList ∧
          if t.kind = .endOfInput then t.span = .point (byteLength text.toList)
          else t.span.start < t.span.stop) ∧
      (lex text).Pairwise fun t u => t.span.stop ≤ u.span.start := by
  have hcut : CutInto 0 text.toList (lex text) := by
    refine scan_cutInto 0 text.toList ?_
    rw [Nat.zero_add]
    exact Nat.le_of_lt_succ hsmall
  have hspans := hcut.spans
  rw [Nat.zero_add] at hspans
  exact ⟨hcut, hspans, hcut.ordered⟩

/-- A key up to a comment of more bytes than characters, a text with a delimiter behind a backslash
and a doubled one, a bracket behind a hash comment, and a comment that nothing ends. -/
theorem lex_cutInto_sample :
    byteLength "k/*é*/'\\'''é'#x\n]//".toList < 2 ^ 32 ∧
      CutInto 0 "k/*é*/'\\'''é'#x\n]//".toList
        [⟨.key "k", ⟨0, 1⟩⟩, ⟨.string "''é", ⟨7, 15⟩⟩, ⟨.closeBracket, ⟨18, 19⟩⟩,
          ⟨.endOfInput, ⟨21, 21⟩⟩] := by
  have hsmall : byteLength "k/*é*/'\\'''é'#x\n]//".toList < 2 ^ 32 := by decide
  have hlex : lex "k/*é*/'\\'''é'#x\n]//" =
      [⟨.key "k", ⟨0, 1⟩⟩, ⟨.string "''é", ⟨7, 15⟩⟩, ⟨.closeBracket, ⟨18, 19⟩⟩,
        ⟨.endOfInput, ⟨21, 21⟩⟩] := by
    decide +kernel
  have hcut := (lex_cutInto _ hsmall).1
  rw [hlex] at hcut
  exact ⟨hsmall, hcut⟩

end TypedConfig
