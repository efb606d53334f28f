import Mathlib.Data.List.DropRight
import Mathlib.Data.List.TakeWhile
import TypedConfig.Proofs.Levels
import TypedConfig.Proofs.Position
import TypedConfig.Proofs.Scanning
import TypedConfig.Proofs.TokensRead

/-!
# Places of a text

Tokens stand in the text in the order in which they are read, each of them at the end of a front
part of the text. What stands in a statement is made of its tokens, so its span lies inside that of
the statement and begins where one of them does.

The position behind a front part is read off that part: the line after its line breaks, and the
column after the characters since the last one. It is that of the offset, unless the offset has been
cut. Below the largest offset both have their numbers.
-/

namespace TypedConfig

namespace Source

/-- A position is the one behind a front part of a text: the line after its line breaks, and the
column after the characters since the last of them. -/
structure Position.Follows (p : Position) (front : List Char) : Prop where
  line : p.line.toNat = front.count '\n' + 1
  column : p.column.toNat = (front.rtakeWhile (· != '\n')).length + 1

/-- The position that a front part of a text leads to. -/
def Position.after (front : List Char) : Position :=
  ⟨numbered (front.count '\n'), numbered (front.rtakeWhile (· != '\n')).length⟩

/-- Line breaks and the characters of the last line are different characters, and each of them has a
byte. -/
theorem Position.count_add_length_le (front : List Char) :
    front.count '\n' + (front.rtakeWhile (· != '\n')).length ≤ byteLength front := by
  have hsplit : front.rdropWhile (· != '\n') ++ front.rtakeWhile (· != '\n') = front :=
    List.rdropWhile_append_rtakeWhile
  have hlast : (front.rtakeWhile (· != '\n')).count '\n' = 0 := by
    refine List.count_eq_zero.mpr fun hmem => ?_
    simpa using List.mem_rtakeWhile_imp hmem
  have hcount : front.count '\n' ≤ (front.rdropWhile (· != '\n')).length := by
    conv_lhs => rw [← hsplit, List.count_append, hlast]
    exact List.count_le_length
  have hlength := congrArg List.length hsplit
  have hbytes := length_le_byteLength front
  rw [List.length_append] at hlength
  omega

/-- A front part that ends below the largest offset has the numbers of its position. -/
theorem Position.after_follows {front : List Char} (h : byteLength front < maxOffset) :
    (after front).Follows front := by
  have hindices := count_add_length_le front
  exact ⟨toNat_numbered (by omega), toNat_numbered (by omega)⟩

/-- A span lies inside another one. -/
def Span.Within (inner outer : Span) : Prop :=
  outer.start ≤ inner.start ∧ inner.stop ≤ outer.stop

/-- In front of the end of a front part there is the offset of each of its characters. -/
theorem countP_boundaries_front (o : Nat) (xs ys : List Char) :
    (boundaries o (xs ++ ys)).countP (fun b => decide (b < o + byteLength xs)) = xs.length := by
  induction xs generalizing o with
  | nil =>
    refine List.countP_eq_zero.mpr fun b hb hless => ?_
    have hrange := (boundaries_mem_range o ys b hb).1
    exact Nat.not_lt_of_le hrange (of_decide_eq_true hless)
  | cons x xs ih =>
    have hfirst : o < o + byteLength (x :: xs) := by
      have := x.utf8Size_pos
      rw [byteLength_cons]
      omega
    rw [List.cons_append, boundaries, List.countP_cons, if_pos (decide_eq_true hfirst),
      byteLength_cons, ← Nat.add_assoc, ih, List.length_cons]

/-- Between the ends of two front parts there is the offset of each character of the second one that
the first one does not have. -/
theorem countP_boundaries (o : Nat) (xs ys zs : List Char) :
    (boundaries o (xs ++ (ys ++ zs))).countP (fun b => decide (o + byteLength xs ≤ b) &&
      decide (b < o + byteLength xs + byteLength ys)) = ys.length := by
  induction xs generalizing o with
  | nil =>
    rw [← countP_boundaries_front o ys zs]
    refine List.countP_congr fun b hb => ?_
    have hrange := (boundaries_mem_range o _ b hb).1
    rw [byteLength_nil, Nat.add_zero, decide_eq_true hrange, Bool.true_and]
  | cons x xs ih =>
    have hfirst : ¬o + byteLength (x :: xs) ≤ o := by
      have := x.utf8Size_pos
      rw [byteLength_cons]
      omega
    rw [List.cons_append, boundaries, List.countP_cons, decide_eq_false hfirst, Bool.false_and,
      if_neg Bool.false_ne_true, Nat.add_zero, byteLength_cons, ← Nat.add_assoc, ih]

/-- Between the ends of two front parts there are the characters that the second one has more. -/
theorem charsBetween_append (xs ys zs : List Char) :
    charsBetween (xs ++ ys ++ zs) (byteLength xs) (byteLength (xs ++ ys)) = some ys.length := by
  have hboundary (front rest : List Char) :
      (boundaries 0 (front ++ rest)).contains (byteLength front) = true := by
    have hmem := mem_boundaries 0 front rest
    rw [Nat.zero_add] at hmem
    exact List.contains_iff_mem.mpr hmem
  have hcount := countP_boundaries 0 xs ys zs
  rw [Nat.zero_add, ← List.append_assoc, ← byteLength_append] at hcount
  unfold charsBetween
  simp only [hboundary (xs ++ ys) zs, hcount]
  rw [List.append_assoc, hboundary xs]
  rfl

/-- Lines start behind the text in front of them, unless that reaches the largest offset. -/
theorem lineStartsAfter_gt {o : Nat} (ho : o < maxOffset) (cs : List Char) :
    ∀ b ∈ lineStartsAfter o cs, o < b := by
  have hrange (o : Nat) (cs : List Char) :
      ∀ b ∈ lineStartsAfter o cs, min (o + 1) maxOffset ≤ b := by
    induction cs generalizing o with
    | nil => exact nofun
    | cons c cs ih =>
      have hsize := c.utf8Size_pos
      intro b hb
      have hrest := ih (o + c.utf8Size)
      simp only [lineStartsAfter] at hb
      split at hb
      · rcases List.mem_cons.mp hb with rfl | hb
        · omega
        · have := hrest b hb
          omega
      · have := hrest b hb
        omega
  intro b hb
  have := hrange o cs b hb
  omega

namespace LineTable

/-- The last line of a front part starts behind its last line break. -/
theorem starts_getD_count {front : List Char} (h : byteLength front ≤ maxOffset) :
    (0 :: lineStartsAfter 0 front).getD (front.count '\n') 0 =
      byteLength (front.rdropWhile (· != '\n')) := by
  induction front using List.reverseRecOn with
  | nil => rfl
  | append_singleton xs c ih =>
    rw [byteLength_append] at h
    rw [lineStartsAfter_append, Nat.zero_add, List.count_append]
    by_cases hc : c = '\n'
    · subst hc
      have hbreak : lineStartsAfter (byteLength xs) ['\n'] = [byteLength xs + 1] := by
        change byteLength xs + 1 ≤ maxOffset at h
        change [min (byteLength xs + 1) maxOffset] = _
        rw [Nat.min_eq_left h]
      rw [List.rdropWhile_concat_neg _ _ _ (by decide), hbreak, byteLength_append,
        ← length_lineStartsAfter 0 xs]
      change (lineStartsAfter 0 xs ++ [byteLength xs + 1]).getD (lineStartsAfter 0 xs).length 0 = _
      rw [List.getD_append_right _ _ _ _ (Nat.le_refl _), Nat.sub_self]
      rfl
    · have hbreak : lineStartsAfter (byteLength xs) [c] = [] := by
        simp [lineStartsAfter, hc]
      have hcount : [c].count '\n' = 0 := by
        simp [hc]
      rw [List.rdropWhile_concat_pos _ _ _ (by simpa using hc), hbreak, hcount, List.append_nil]
      exact ih (by omega)

/-- The line of an offset is the last one of the line starts up to it. -/
theorem lineIndex_eq_length {table : LineTable} {before after : List Nat} {o : Nat}
    (hstarts : table.starts = before ++ after) (hbefore : ∀ b ∈ before, b ≤ o)
    (hafter : ∀ b ∈ after, o < b) : table.lineIndex o = before.length - 1 := by
  have hnone : after.takeWhile (fun b => decide (b ≤ o)) = [] := by
    refine List.takeWhile_eq_nil_iff.mpr fun hpos hle => ?_
    have := hafter _ (List.get_mem _ ⟨0, hpos⟩)
    have := of_decide_eq_true hle
    omega
  rw [lineIndex, hstarts, List.takeWhile_append_of_pos fun b hb => decide_eq_true (hbefore b hb),
    hnone, List.append_nil]

/-- An offset up to which a text has a front part, and behind which its next line starts, has the
position behind the front part. -/
theorem position_of_lt_starts {front rest : List Char} {o : Nat}
    (hfront : byteLength front ≤ maxOffset)
    (hbehind : ∀ b ∈ lineStartsAfter (byteLength front) rest, o < b)
    (hcut : min o (byteLength (front ++ rest)) = byteLength front) :
    (ofText (front ++ rest)).position o = .after front := by
  have hstarts : (ofText (front ++ rest)).starts =
      (0 :: lineStartsAfter 0 front) ++ lineStartsAfter (byteLength front) rest := by
    rw [ofText, lineStartsAfter_append, Nat.zero_add]
    rfl
  have hline : (ofText (front ++ rest)).lineIndex o = front.count '\n' := by
    have hbefore : ∀ b ∈ 0 :: lineStartsAfter 0 front, b ≤ o := by
      intro b hb
      rcases List.mem_cons.mp hb with rfl | hb
      · exact Nat.zero_le _
      · have := lineStartsAfter_mem_range 0 front b hb
        omega
    rw [lineIndex_eq_length hstarts hbefore hbehind, List.length_cons, length_lineStartsAfter,
      Nat.add_sub_cancel]
  have hstart : (ofText (front ++ rest)).starts.getD (front.count '\n') 0 =
      byteLength (front.rdropWhile (· != '\n')) := by
    rw [hstarts, List.getD_append _ _ _ _ (by simp [length_lineStartsAfter]),
      starts_getD_count hfront]
  have hsplit : front.rdropWhile (· != '\n') ++ front.rtakeWhile (· != '\n') = front :=
    List.rdropWhile_append_rtakeWhile
  have hcolumn := charsBetween_append (front.rdropWhile (· != '\n'))
    (front.rtakeWhile (· != '\n')) rest
  rw [hsplit] at hcolumn
  have hfit : byteLength (front.rdropWhile (· != '\n')) ≤ byteLength front := by
    have := congrArg byteLength hsplit
    rw [byteLength_append] at this
    omega
  have hcount : (ofText (front ++ rest)).lineIndex o ≤ maxOffset := by
    have hindices := Position.count_add_length_le front
    omega
  rw [position_eq hcount, hline, hstart, hcut, Nat.max_eq_right hfit, hcolumn]
  rfl

/-- An offset that has not been cut has the position behind the front part that ends there. -/
theorem position_after {front : List Char} (h : byteLength front < maxOffset) (rest : List Char) :
    (ofText (front ++ rest)).position (byteLength front) = .after front := by
  refine position_of_lt_starts (Nat.le_of_lt h) (lineStartsAfter_gt h rest) ?_
  rw [byteLength_append]
  omega

end LineTable

end Source

open Source (byteLength byteLength_append maxOffset Span)

/-- What stands before a token in the order of a text. -/
def Token.Before (t u : Token) : Prop := t.span.start ≤ u.span.start ∧ t.span.stop ≤ u.span.stop

/-- An offset of a text: the end of a front part, cut if it is too large for a span. -/
def IsOffset (cs : List Char) (o : Nat) : Prop :=
  ∃ front rest, cs = front ++ rest ∧ o = min (byteLength front) maxOffset

namespace Token

/-- The characters of a lexeme and those behind it are the text. -/
theorem take_append_afterLexeme (c : Char) (cs : List Char) :
    (c :: cs).take (lexeme c cs).size ++ afterLexeme c cs = c :: cs := by
  obtain ⟨n, hn⟩ : ∃ n, (lexeme c cs).size = n + 1 :=
    ⟨_, (Nat.succ_pred_eq_of_pos (lexeme_size_pos c cs)).symm⟩
  rw [afterLexeme, hn, Nat.add_sub_cancel, ← List.drop_succ_cons (a := c), List.take_append_drop]

/-- What holds behind the first lexeme holds behind all that stands before it. -/
theorem isOffset_behind {front : List Char} {c : Char} {cs : List Char} {ts : List Token}
    (h : ∀ front', lexemeEnd (byteLength front) c cs = byteLength front' →
      ∀ t ∈ ts, IsOffset (front' ++ afterLexeme c cs) t.span.start) :
    ∀ t ∈ ts, IsOffset (front ++ c :: cs) t.span.start := by
  have hbehind := h (front ++ (c :: cs).take (lexeme c cs).size) (byteLength_append _ _).symm
  rwa [List.append_assoc, take_append_afterLexeme] at hbehind

/-- The tokens of a text are in order. -/
theorem scan_pairwise (o : Nat) (cs : List Char) : (scan o cs).Pairwise Before := by
  refine (scan_induction (P := fun o _ ts => ts.Pairwise Before ∧
    ∀ t ∈ ts, min o maxOffset ≤ t.span.start ∧ min o maxOffset ≤ t.span.stop)
    ?finish ?layout ?error ?token o cs).1
  case finish =>
    intro o
    exact ⟨List.pairwise_singleton _ _,
      List.forall_mem_singleton.mpr ⟨Nat.le_refl _, Nat.le_refl _⟩⟩
  case layout =>
    intro o c cs ts ⟨hts, hfrom⟩
    refine ⟨hts, fun t ht => ?_⟩
    have hend := le_lexemeEnd o c cs
    have := hfrom t ht
    omega
  case error =>
    intro o c cs e
    have hend := le_lexemeEnd o c cs
    refine ⟨List.pairwise_singleton _ _, List.forall_mem_singleton.mpr ⟨Nat.le_refl _, ?_⟩⟩
    simp only [Span.ofRange]
    omega
  case token =>
    intro o c cs kind ts _ _ ⟨hts, hfrom⟩
    have hend := le_lexemeEnd o c cs
    refine ⟨List.pairwise_cons.mpr ⟨fun t ht => ?_, hts⟩, fun t ht => ?_⟩
    · have := hfrom t ht
      simp only [Before, Span.ofRange]
      omega
    · rcases List.mem_cons.mp ht with rfl | ht
      · simp only [Span.ofRange]
        omega
      · have := hfrom t ht
        omega

/-- Every token of a text starts where a front part ends. -/
theorem scan_isOffset {o : Nat} (front cs : List Char) (ho : o = byteLength front) :
    ∀ t ∈ scan o cs, IsOffset (front ++ cs) t.span.start := by
  refine scan_induction (P := fun o cs ts => ∀ front, o = byteLength front →
    ∀ t ∈ ts, IsOffset (front ++ cs) t.span.start) ?finish ?layout ?error ?token o cs front ho
  case finish =>
    rintro _ front rfl
    exact List.forall_mem_singleton.mpr ⟨front, [], rfl, rfl⟩
  case layout =>
    rintro _ c cs ts hts front rfl
    exact isOffset_behind hts
  case error =>
    rintro _ c cs e front rfl
    exact List.forall_mem_singleton.mpr ⟨front, c :: cs, rfl, rfl⟩
  case token =>
    rintro _ c cs kind ts _ _ hts front rfl
    exact List.forall_mem_cons.mpr ⟨⟨front, c :: cs, rfl, rfl⟩, isOffset_behind hts⟩

/-- A text with an error is not read to its end. -/
theorem scan_error_ne_endOfInput (o : Nat) (cs : List Char) :
    (∃ t ∈ scan o cs, ∃ e, t.kind = .error e) → ∀ t ∈ scan o cs, t.kind ≠ .endOfInput := by
  refine scan_induction (P := fun _ _ ts => (∃ t ∈ ts, ∃ e, t.kind = .error e) →
    ∀ t ∈ ts, t.kind ≠ .endOfInput) ?finish ?layout ?error ?token o cs
  case finish =>
    rintro o ⟨t, ht, e, he⟩
    obtain rfl := List.mem_singleton.mp ht
    cases he
  case layout => exact fun _ _ _ _ hts => hts
  case error => exact fun _ _ _ _ _ => List.forall_mem_singleton.mpr nofun
  case token =>
    rintro o c cs kind ts hend hclean hts ⟨t, ht, e, he⟩
    rcases List.mem_cons.mp ht with rfl | ht
    · exact absurd he (hclean e)
    · exact List.forall_mem_cons.mpr ⟨hend, hts ⟨t, ht, e, he⟩⟩

end Token

namespace Syntax

variable {ts us : List Token} {span : Span}

/-- A span that tokens make up: it starts where one of them does, and ends where one of them
does. -/
def MadeOf (ts : List Token) (span : Span) : Prop :=
  (∃ t ∈ ts, span.start = t.span.start) ∧ ∃ t ∈ ts, span.stop = t.span.stop

namespace MadeOf

/-- The span of a token is made of it. -/
theorem token {t : Token} (ht : t ∈ ts) : MadeOf ts t.span := ⟨⟨t, ht, rfl⟩, t, ht, rfl⟩

/-- What is made of some tokens is made of more. -/
theorem mono (h : MadeOf ts span) (hsub : ∀ t ∈ ts, t ∈ us) : MadeOf us span := by
  obtain ⟨⟨t, ht, hstart⟩, u, hu, hstop⟩ := h
  exact ⟨⟨t, hsub t ht, hstart⟩, u, hsub u hu, hstop⟩

/-- The cover of two spans is made of the tokens of both. -/
theorem merge {other : Span} (h : MadeOf ts span) (hother : MadeOf ts other) :
    MadeOf ts (span.merge other) := by
  obtain ⟨⟨t, ht, hstart⟩, u, hu, hstop⟩ := h
  obtain ⟨⟨t', ht', hstart'⟩, u', hu', hstop'⟩ := hother
  constructor
  · obtain hmin | hmin : min span.start other.start = span.start ∨
        min span.start other.start = other.start := by omega
    · exact ⟨t, ht, hmin.trans hstart⟩
    · exact ⟨t', ht', hmin.trans hstart'⟩
  · obtain hmax | hmax : max span.stop other.stop = span.stop ∨
        max span.stop other.stop = other.stop := by omega
    · exact ⟨u, hu, hmax.trans hstop⟩
    · exact ⟨u', hu', hmax.trans hstop'⟩

end MadeOf

/-- A span that stands in a statement: its own one, or one in its expression. -/
def Statement.HasSpan (s : Statement) (span : Span) : Prop := span = s.span ∨ s.expr.HasSpan span

/-- A span that stands in a phrase. -/
def Phrase.HasSpan (span : Span) : Phrase → Prop
  | .operand e | .expression e => e.HasSpan span
  | .items es | .arguments es | .elements es => ∃ e ∈ es, e.HasSpan span
  | .named given => ∃ entry ∈ given, entry.2.HasSpan span
  | .statement s => s.HasSpan span
  | .statements ss | .program ss => ∃ s ∈ ss, s.HasSpan span

/-- What is made of the tokens between the first one and the last one is made of all of them. -/
theorem MadeOf.inside (h : MadeOf ts span) (first last : Token) :
    MadeOf (first :: (ts ++ [last])) span :=
  h.mono fun _ ht => .tail _ (List.mem_append_left _ ht)

/-- From the first token to the last one. -/
theorem madeOf_whole (first last : Token) (ts : List Token) :
    MadeOf (first :: (ts ++ [last])) (first.span.merge last.span) :=
  (MadeOf.token (.head _)).merge (.token (.tail _ (List.mem_append_right _ (.head _))))

/-- The spans in a phrase are made of the tokens of the phrase. -/
theorem Derives.madeOf {phrase : Phrase} (h : Derives ts phrase) :
    ∀ span, phrase.HasSpan span → MadeOf ts span := by
  -- A node that is put together spans its first token to its last one. All other spans stand in a
  -- part of it, so they are made of some of the tokens.
  induction h with
  | literal =>
    rintro _ ⟨⟩
    exact .token (.head _)
  | key =>
    rintro _ ⟨⟩
    exact .token (.head _)
  | @construct name span start ts arguments stop _ ih =>
    intro place hplace
    cases hplace with
    | whole => exact madeOf_whole ⟨.key name, span⟩ ⟨.closeParen, stop⟩ (⟨.openParen, start⟩ :: ts)
    | argument he hspan => exact (ih _ ⟨_, he, hspan⟩).mono fun t ht => by simp [ht]
    | named hentry _ => cases hentry
  | @constructNamed name span start ts arguments close start' us named stop _ _ ih ihnamed =>
    intro place hplace
    cases hplace with
    | whole =>
      simpa [Expr.span] using madeOf_whole ⟨.key name, span⟩ ⟨.closeBracket, stop⟩
        (⟨.openParen, start⟩ :: (ts ++ ⟨.closeParen, close⟩ :: ⟨.openBracket, start'⟩ :: us))
    | argument he hspan => exact (ih _ ⟨_, he, hspan⟩).mono fun t ht => by simp [ht]
    | named hentry hspan => exact (ihnamed _ ⟨_, hentry, hspan⟩).mono fun t ht => by simp [ht]
  | @array start ts items stop _ ih =>
    intro place hplace
    cases hplace with
    | whole => exact madeOf_whole ⟨.openBrace, start⟩ ⟨.closeBrace, stop⟩ ts
    | item he hspan => exact (ih _ ⟨_, he, hspan⟩).inside _ _
  | @typedArray name span start ts items stop _ ih =>
    intro place hplace
    cases hplace with
    | whole => exact madeOf_whole ⟨.key name, span⟩ ⟨.closeBrace, stop⟩ (⟨.openBrace, start⟩ :: ts)
    | tag => exact .token (t := ⟨.key name, span⟩) (.head _)
    | item he hspan => exact (ih _ ⟨_, he, hspan⟩).mono fun t ht => by simp [ht]
  | single _ ih => exact ih
  | @concat ts left caret us right _ _ ihleft ihright =>
    have hleft {place : Span} (h : left.HasSpan place) :
        MadeOf (ts ++ ⟨.caret, caret⟩ :: us) place :=
      (ihleft _ h).mono fun t ht => by simp [ht]
    have hright {place : Span} (h : right.HasSpan place) :
        MadeOf (ts ++ ⟨.caret, caret⟩ :: us) place :=
      (ihright _ h).mono fun t ht => by simp [ht]
    intro place hplace
    cases hplace with
    | whole => exact (hleft .whole).merge (hright .whole)
    | left h => exact hleft h
    | right h => exact hright h
  | firstItem _ ih =>
    rintro place ⟨e, he, hspan⟩
    obtain rfl := List.mem_singleton.mp he
    exact ih _ hspan
  | nextItem _ _ ihitems ih =>
    rintro place ⟨e, he, hspan⟩
    rcases List.mem_append.mp he with he | he
    · exact (ihitems _ ⟨e, he, hspan⟩).mono fun t ht => by simp [ht]
    · obtain rfl := List.mem_singleton.mp he
      exact (ih _ hspan).mono fun t ht => by simp [ht]
  | noArguments =>
    rintro _ ⟨_, hmem, _⟩
    cases hmem
  | someArguments _ ih => exact ih
  | noElements =>
    rintro _ ⟨_, hmem, _⟩
    cases hmem
  | someElements _ ih => exact ih
  | lastComma _ ih => exact fun place hplace => (ih place hplace).mono fun t ht => by simp [ht]
  | firstNamed _ ih =>
    rintro place ⟨entry, hentry, hspan⟩
    obtain rfl := List.mem_singleton.mp hentry
    exact (ih _ hspan).mono fun t ht => by simp [ht]
  | nextNamed _ _ ihnamed ih =>
    rintro place ⟨entry, hentry, hspan⟩
    rcases List.mem_append.mp hentry with hentry | hentry
    · exact (ihnamed _ ⟨entry, hentry, hspan⟩).mono fun t ht => by simp [ht]
    · obtain rfl := List.mem_singleton.mp hentry
      exact (ih _ hspan).mono fun t ht => by simp [ht]
  | @set key span equals ts e stop _ _ ih =>
    rintro place (rfl | hspan)
    · exact madeOf_whole ⟨.key key, span⟩ ⟨.semicolon, stop⟩ (⟨.equals, equals⟩ :: ts)
    · exact (ih _ hspan).mono fun t ht => by simp [ht]
  | @default key span tilde ts e stop _ _ ih =>
    rintro place (rfl | hspan)
    · exact madeOf_whole ⟨.key key, span⟩ ⟨.semicolon, stop⟩ (⟨.tilde, tilde⟩ :: ts)
    · exact (ih _ hspan).mono fun t ht => by simp [ht]
  | @inclusion start ts e stop _ ih =>
    rintro place (rfl | hspan)
    · exact madeOf_whole ⟨.include, start⟩ ⟨.semicolon, stop⟩ ts
    · exact (ih _ hspan).inside _ _
  | noStatements =>
    rintro _ ⟨_, hmem, _⟩
    cases hmem
  | nextStatement _ _ ihbefore ih =>
    rintro place ⟨s, hs, hspan⟩
    rcases List.mem_append.mp hs with hs | hs
    · exact (ihbefore _ ⟨s, hs, hspan⟩).mono fun t ht => List.mem_append_left _ ht
    · obtain rfl := List.mem_singleton.mp hs
      exact (ih _ hspan).mono fun t ht => List.mem_append_right _ ht
  | program _ ih =>
    exact fun place hplace => (ih place hplace).mono fun t ht => List.mem_append_left _ ht

/-- The span of a statement reaches from the first of its tokens to the last one. -/
theorem Derives.statement_span {s : Statement} (h : Derives ts (.statement s)) :
    ∃ first between last, ts = first :: (between ++ [last]) ∧
      s.span = first.span.merge last.span := by
  cases h with
  | @set key span equals ts e stop =>
    exact ⟨⟨.key key, span⟩, ⟨.equals, equals⟩ :: ts, ⟨.semicolon, stop⟩, rfl, rfl⟩
  | @default key span tilde ts e stop =>
    exact ⟨⟨.key key, span⟩, ⟨.tilde, tilde⟩ :: ts, ⟨.semicolon, stop⟩, rfl, rfl⟩
  | @inclusion start ts e stop =>
    exact ⟨⟨.include, start⟩, ts, ⟨.semicolon, stop⟩, rfl, rfl⟩

/-- What is made of tokens in order lies between the first one and the last one. -/
theorem MadeOf.within {first last : Token} (h : MadeOf (first :: (ts ++ [last])) span)
    (horder : (first :: (ts ++ [last])).Pairwise Token.Before) :
    span.Within (first.span.merge last.span) := by
  obtain ⟨hfirst, hrest⟩ := List.pairwise_cons.mp horder
  obtain ⟨_, _, hlast⟩ := List.pairwise_append.mp hrest
  obtain ⟨⟨t, ht, hstart⟩, u, hu, hstop⟩ := h
  constructor
  · rw [hstart]
    refine Nat.le_trans (Nat.min_le_left _ _) ?_
    rcases List.mem_cons.mp ht with rfl | ht
    · exact Nat.le_refl _
    · exact (hfirst t ht).1
  · rw [hstop]
    rcases List.mem_cons.mp hu with rfl | hu
    · exact Nat.le_max_left _ _
    · refine Nat.le_trans ?_ (Nat.le_max_right _ _)
      rcases List.mem_append.mp hu with hu | hu
      · exact (hlast u hu last (.head _)).2
      · obtain rfl := List.mem_singleton.mp hu
        exact Nat.le_refl _

/-- What stands in a statement of a text lies inside the span of the statement, and starts where a
front part of the text ends. -/
theorem hasSpan_of_parse {text : String} {program : Program} {s : Statement}
    (hparse : parse text = .ok program) (hs : s ∈ program) (h : s.HasSpan span) :
    span.Within s.span ∧ IsOffset text.toList span.start := by
  obtain ⟨us, hsub, hderives⟩ := statement_of_parse hparse hs
  have hmade : MadeOf us span := hderives.madeOf span h
  constructor
  · obtain ⟨first, between, last, rfl, hwhole⟩ := hderives.statement_span
    rw [hwhole]
    exact hmade.within ((Token.scan_pairwise 0 text.toList).sublist hsub)
  · obtain ⟨⟨t, ht, hstart⟩, _⟩ := hmade
    rw [hstart]
    exact Token.scan_isOffset [] text.toList rfl t (hsub.subset ht)

/-- A text with a lexical error is no program. -/
theorem parse_of_error {text : String} (h : ∃ t ∈ lex text, ∃ e, t.kind = .error e) :
    ∃ e, parse text = .error e := by
  cases hparse : parse text with
  | error e => exact ⟨e, rfl⟩
  | ok program =>
    obtain ⟨read, rest, htokens, hderives⟩ := derives_of_parseTokens hparse
    cases hderives with
    | @program ts _ span _ =>
      have hmem : ⟨.endOfInput, span⟩ ∈ lex text := by
        rw [htokens]
        simp
      exact absurd rfl (Token.scan_error_ne_endOfInput 0 text.toList h _ hmem)

/-- The position of an offset that has not been cut. -/
theorem positionOf_eq_after {text : String} {front rest : List Char}
    (htext : text.toList = front ++ rest) (hstart : span.start = byteLength front)
    (hfit : byteLength front < maxOffset) : positionOf text span = .after front := by
  rw [positionOf, hstart, htext, Source.LineTable.position_after hfit]

/-- A span that starts at an offset of the text has the position behind the text in front of it,
unless its start has been cut. -/
theorem positionOf_follows {text : String} (h : IsOffset text.toList span.start) :
    ∃ front rest, text.toList = front ++ rest ∧ span.start = min (byteLength front) maxOffset ∧
      (byteLength front < maxOffset → (positionOf text span).Follows front) := by
  obtain ⟨front, rest, htext, hstart⟩ := h
  refine ⟨front, rest, htext, hstart, fun hfit => ?_⟩
  rw [Nat.min_eq_left (Nat.le_of_lt hfit)] at hstart
  rw [positionOf_eq_after htext hstart hfit]
  exact Source.Position.after_follows hfit

end Syntax

end TypedConfig
