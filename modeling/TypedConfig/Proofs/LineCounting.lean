import Mathlib.Algebra.Group.Nat.Defs
import TypedConfig.Proofs.Places

/-!
# Lines and columns by counting

The look-up of an offset in a line table gives what is counted off the text in front of it: the line
after its line breaks, and the column after the characters since the last of them. An offset past
the end counts the whole text. So each character stands behind the ones before it, on a later line
or in a later column.

As the line starts increase, a search for the offset among them leads to the same line, whichever
way it goes about it.

A number of 32 bits that starts at one is one short for a text of as many line breaks, or of as many
characters on one line, as the largest offset. Its end is the only place that is not counted.
-/

namespace TypedConfig.Source

/-- A position in front of another one: on an earlier line, or on the same line in an earlier
column. -/
def Position.Precedes (p q : Position) : Prop :=
  p.line < q.line ∨ p.line = q.line ∧ p.column < q.column

/-- The offsets of a text are the ends of its front parts. -/
theorem mem_boundaries_iff {o b : Nat} {cs : List Char} :
    b ∈ boundaries o cs ↔ ∃ front rest, cs = front ++ rest ∧ b = o + byteLength front := by
  constructor
  · intro h
    induction cs generalizing o with
    | nil => exact ⟨[], [], rfl, List.mem_singleton.mp h⟩
    | cons c cs ih =>
      rcases List.mem_cons.mp h with rfl | hlater
      · exact ⟨[], c :: cs, rfl, rfl⟩
      · obtain ⟨front, rest, rfl, rfl⟩ := ih hlater
        exact ⟨c :: front, rest, rfl, Nat.add_assoc _ _ _⟩
  · rintro ⟨front, rest, rfl, rfl⟩
    exact mem_boundaries o front rest

/-- Of two front parts of a text the one with more bytes goes on behind the other one. -/
theorem byteLength_lt_append {xs ys : List Char} (h : byteLength xs < byteLength ys)
    {rest rest' : List Char} (hsame : xs ++ rest = ys ++ rest') : ∃ more, more ≠ [] ∧
      ys = xs ++ more := by
  rcases List.append_eq_append_iff.mp hsame with ⟨more, hys, _⟩ | ⟨more, hxs, _⟩
  · refine ⟨more, ?_, hys⟩
    rintro rfl
    rw [hys, List.append_nil] at h
    exact Nat.lt_irrefl _ h
  · rw [hxs, byteLength_append] at h
    omega

/-- In a text that a span can hold, only the end can be at the largest offset. -/
theorem byteLength_lt_of_rest {front rest : List Char}
    (hsmall : byteLength (front ++ rest) ≤ maxOffset) (hrest : rest ≠ []) :
    byteLength front < maxOffset := by
  have hmore := List.length_pos_iff.mpr hrest
  have hbytes := length_le_byteLength rest
  rw [byteLength_append] at hsmall
  omega

/-- A text whose end has no number: it has as many line breaks, or as many characters on its last
line, as the largest offset. -/
def FillsNumbers (text : List Char) : Prop :=
  text.count '\n' = maxOffset ∨ (text.rtakeWhile (· != '\n')).length = maxOffset

/-- A text on one line fills the numbers by its length. -/
theorem fillsNumbers_of_line {text : List Char} (hline : '\n' ∉ text)
    (hlength : text.length = maxOffset) : FillsNumbers text := by
  right
  rw [List.rtakeWhile_eq_self_iff.mpr, hlength]
  intro c hc
  exact bne_iff_ne.mpr fun hbreak => hline (hbreak ▸ hc)

/-- The bytes of a character that is repeated. -/
theorem byteLength_replicate (n : Nat) (c : Char) :
    byteLength (List.replicate n c) = n * c.utf8Size := by
  induction n with
  | zero => simp
  | succ n ih => rw [List.replicate_succ, byteLength_cons, ih, Nat.succ_mul, Nat.add_comm]

namespace Position

variable {p q : Position} {front : List Char}

/-- Only one position is the one behind a front part. -/
theorem Follows.unique (hp : p.Follows front) (hq : q.Follows front) : p = q := by
  cases p
  cases q
  exact congrArg₂ Position.mk (UInt32.toNat_inj.mp (hp.line.trans hq.line.symm))
    (UInt32.toNat_inj.mp (hp.column.trans hq.column.symm))

/-- More characters lead to a later line or to a later column. -/
theorem Follows.precedes {more : List Char} (hp : p.Follows front) (hq : q.Follows (front ++ more))
    (h : more ≠ []) : p.Precedes q := by
  by_cases hbreak : '\n' ∈ more
  · left
    have hcount := List.count_pos_iff.mpr hbreak
    rw [UInt32.lt_iff_toNat_lt, hp.line, hq.line, List.count_append]
    omega
  · right
    have hcount : more.count '\n' = 0 := List.count_eq_zero.mpr hbreak
    have hline : (front ++ more).rtakeWhile (· != '\n') =
        front.rtakeWhile (· != '\n') ++ more := by
      have hpass : ∀ c ∈ more.reverse, (c != '\n') = true := by
        intro c hc
        refine bne_iff_ne.mpr ?_
        rintro rfl
        exact hbreak (List.mem_reverse.mp hc)
      rw [List.rtakeWhile, List.reverse_append, List.takeWhile_append_of_pos hpass,
        List.reverse_append, List.reverse_reverse, ← List.rtakeWhile]
    have hlength := List.length_pos_iff.mpr h
    constructor
    · rw [← UInt32.toNat_inj, hp.line, hq.line, List.count_append, hcount, Nat.add_zero]
    · rw [UInt32.lt_iff_toNat_lt, hp.column, hq.column, hline, List.length_append]
      omega

/-- A front part up to the largest offset has the numbers of its position unless it fills them. -/
theorem after_follows_iff (h : byteLength front ≤ maxOffset) :
    (after front).Follows front ↔ ¬FillsNumbers front := by
  have hindices := count_add_length_le front
  have hline := toNat_numbered_eq_iff (n := front.count '\n') (by omega)
  have hcolumn := toNat_numbered_eq_iff (n := (front.rtakeWhile (· != '\n')).length) (by omega)
  rw [FillsNumbers, not_or]
  exact ⟨fun h => ⟨hline.mp h.line, hcolumn.mp h.column⟩,
    fun ⟨h, h'⟩ => ⟨hline.mpr h, hcolumn.mpr h'⟩⟩

/-- Where the numbers are filled, either the line or the column goes round to zero, and the other
one is the first. -/
theorem after_of_fillsNumbers (h : byteLength front ≤ maxOffset) (hfills : FillsNumbers front) :
    byteLength front = maxOffset ∧ (after front = ⟨0, 1⟩ ∨ after front = ⟨1, 0⟩) := by
  have hindices := count_add_length_le front
  rcases hfills with hline | hcolumn
  · have hfirst : (front.rtakeWhile (· != '\n')).length = 0 := by omega
    rw [after, hline, hfirst]
    exact ⟨by omega, .inl rfl⟩
  · have hfirst : front.count '\n' = 0 := by omega
    rw [after, hcolumn, hfirst]
    exact ⟨by omega, .inr rfl⟩

end Position

namespace LineTable

variable {text : List Char}

/-- An offset past the end has the position of the end. -/
theorem position_of_end_le (hsmall : byteLength text ≤ maxOffset) {o : Nat}
    (ho : byteLength text ≤ o) : (ofText text).position o = .after text := by
  have hcut : min o (byteLength (text ++ [])) = byteLength text := by
    rw [List.append_nil]
    exact Nat.min_eq_right ho
  have hend : (ofText (text ++ [])).position o = .after text :=
    position_of_lt_starts hsmall nofun hcut
  rwa [List.append_nil] at hend

/-- A text that a span can hold has the position of each of its front parts. -/
theorem position_of_front {front rest : List Char}
    (hsmall : byteLength (front ++ rest) ≤ maxOffset) :
    (ofText (front ++ rest)).position (byteLength front) = .after front := by
  by_cases hrest : rest = []
  · subst hrest
    rw [List.append_nil] at hsmall ⊢
    exact position_of_end_le hsmall (Nat.le_refl _)
  · exact position_after (byteLength_lt_of_rest hsmall hrest) rest

/-- Without cut offsets the lines start one behind the other. -/
theorem lineStartsAfter_pairwise {o : Nat} {cs : List Char} (h : o + byteLength cs ≤ maxOffset) :
    (lineStartsAfter o cs).Pairwise (· < ·) := by
  induction cs generalizing o with
  | nil => exact .nil
  | cons c cs ih =>
    rw [byteLength_cons, ← Nat.add_assoc] at h
    simp only [lineStartsAfter]
    split
    · refine List.pairwise_cons.mpr ⟨fun b hb => ?_, ih h⟩
      obtain hlast | hless : o + c.utf8Size = maxOffset ∨ o + c.utf8Size < maxOffset := by omega
      · -- the text ends with this line break, so that no line starts behind it
        have hempty := length_le_byteLength cs
        obtain rfl : cs = [] := List.eq_nil_of_length_eq_zero (by omega)
        cases hb
      · have hbehind := lineStartsAfter_gt hless cs b hb
        omega
    · exact ih h

/-- The lines of a text start one behind the other. -/
theorem starts_pairwise (hsmall : byteLength text ≤ maxOffset) :
    (ofText text).starts.Pairwise (· < ·) := by
  refine List.pairwise_cons.mpr ⟨lineStartsAfter_gt (by decide) text, ?_⟩
  exact lineStartsAfter_pairwise (by omega)

/-- What a search for an offset among line starts answers: the place where it stands, or else the
place where it could be inserted. -/
inductive Found (o : Nat) (starts : List Nat) : Except Nat Nat → Prop
  | here {i} : starts[i]? = some o → Found o starts (.ok i)
  | absent {i} : i ≤ starts.length → (∀ b ∈ starts.take i, b < o) → (∀ b ∈ starts.drop i, o < b) →
    Found o starts (.error i)

/-- The index of the line that a search leads to: the one that starts at the offset, or the last one
that starts before. -/
def indexFound : Except Nat Nat → Nat
  | .ok i => i
  | .error i => i - 1

/-- Every search leads to the line of the offset. -/
theorem lineIndex_of_found (hsmall : byteLength text ≤ maxOffset) {o : Nat}
    {found : Except Nat Nat} (h : Found o (ofText text).starts found) :
    (ofText text).lineIndex o = indexFound found := by
  cases h with
  | @here i hi =>
    obtain ⟨hless, hvalue⟩ := List.getElem?_eq_some_iff.mp hi
    have hsplit : (ofText text).starts =
        (ofText text).starts.take i ++ o :: (ofText text).starts.drop (i + 1) := by
      rw [← hvalue, ← List.drop_eq_getElem_cons hless, List.take_append_drop]
    have hordered := starts_pairwise hsmall
    rw [hsplit] at hordered
    obtain ⟨_, hbehind, hbefore⟩ := List.pairwise_append.mp hordered
    have hupto : ∀ b ∈ (ofText text).starts.take i ++ [o], b ≤ o := by
      refine List.forall_mem_append.mpr ⟨fun b hb => ?_, List.forall_mem_singleton.mpr ?_⟩
      · exact Nat.le_of_lt (hbefore b hb o (.head _))
      · exact Nat.le_refl o
    have hstarts : (ofText text).starts =
        ((ofText text).starts.take i ++ [o]) ++ (ofText text).starts.drop (i + 1) := by
      rw [List.append_assoc]
      exact hsplit
    rw [lineIndex_eq_length hstarts hupto (List.pairwise_cons.mp hbehind).1, List.length_append,
      List.length_take, Nat.min_eq_left (Nat.le_of_lt hless)]
    rfl
  | @absent i hi hbefore hafter =>
    rw [lineIndex_eq_length (List.take_append_drop i _).symm
      (fun b hb => Nat.le_of_lt (hbefore b hb)) hafter, List.length_take, Nat.min_eq_left hi]
    rfl

/-- What counting gives for a text. At the end of each front part the line is the one after its line
breaks, and the column the one after the characters behind the last of them. Past the end both are
those of the end. Positions increase with the offset, and there is a line more than there are line
breaks. -/
structure AgreesWithCounting (text : List Char) : Prop where
  position : ∀ front rest, text = front ++ rest →
    ((ofText text).position (byteLength front)).Follows front
  lineOf : ∀ front rest, text = front ++ rest →
    ((ofText text).lineOf (byteLength front)).toNat = front.count '\n' + 1
  behind : ∀ o, byteLength text ≤ o →
    (ofText text).position o = (ofText text).position (byteLength text) ∧
      (ofText text).lineOf o = (ofText text).lineOf (byteLength text)
  increases : ∀ o ∈ boundaries 0 text, ∀ o' ∈ boundaries 0 text, o < o' →
    ((ofText text).position o).Precedes ((ofText text).position o')
  lineCount : (ofText text).lineCount = text.count '\n' + 1

/-- An offset past the end has the position and the line of the end. -/
theorem position_behind (hsmall : byteLength text ≤ maxOffset) {o : Nat}
    (ho : byteLength text ≤ o) :
    (ofText text).position o = (ofText text).position (byteLength text) ∧
      (ofText text).lineOf o = (ofText text).lineOf (byteLength text) := by
  have hsame := (position_of_end_le hsmall ho).trans
    (position_of_end_le hsmall (Nat.le_refl _)).symm
  exact ⟨hsame, congrArg Position.line hsame⟩

/-- Every offset in front of the end has the position that counting gives. -/
theorem position_follows_of_rest {front rest : List Char}
    (hsmall : byteLength (front ++ rest) ≤ maxOffset) (hrest : rest ≠ []) :
    ((ofText (front ++ rest)).position (byteLength front)).Follows front := by
  rw [position_of_front hsmall]
  exact Position.after_follows (byteLength_lt_of_rest hsmall hrest)

/-- A line table agrees with counting exactly if the text leaves a number for its end. -/
theorem agreesWithCounting_iff (hsmall : byteLength text ≤ maxOffset) :
    AgreesWithCounting text ↔ ¬FillsNumbers text := by
  constructor
  · intro hagrees
    have hend := hagrees.position text [] (List.append_nil text).symm
    rw [position_of_end_le hsmall (Nat.le_refl _)] at hend
    exact (Position.after_follows_iff hsmall).mp hend
  · intro hfree
    have hfollows : ∀ front rest, text = front ++ rest →
        ((ofText text).position (byteLength front)).Follows front := by
      rintro front rest rfl
      by_cases hrest : rest = []
      · subst hrest
        rw [position_of_front hsmall]
        rw [List.append_nil] at hsmall hfree
        exact (Position.after_follows_iff hsmall).mpr hfree
      · exact position_follows_of_rest hsmall hrest
    refine ⟨hfollows, fun front rest htext => (hfollows front rest htext).line,
      fun o ho => position_behind hsmall ho, ?_, length_starts⟩
    intro o ho o' ho' hless
    obtain ⟨front, rest, hsplit, rfl⟩ := mem_boundaries_iff.mp ho
    obtain ⟨front', rest', hsplit', rfl⟩ := mem_boundaries_iff.mp ho'
    rw [Nat.zero_add, Nat.zero_add] at hless ⊢
    obtain ⟨more, hmore, rfl⟩ := byteLength_lt_append hless (hsplit.symm.trans hsplit')
    exact (hfollows front rest hsplit).precedes (hfollows _ rest' hsplit') hmore

/-- The positions that a line table gives are counted, unless the text fills the numbers. In any
case every offset in front of the end has the position that counting gives, an offset past the end
has the position of the end, a search among the line starts leads to the line of the offset,
whether it finds the offset or a place for it, and there is a line more than there are line breaks.
A text fills the numbers only if it ends at the largest offset, and then the line or the column of
its end goes round to zero. -/
theorem positions_counted_unless_filled (text : List Char) (hsmall : byteLength text < 2 ^ 32) :
    let table := ofText text
    (AgreesWithCounting text ↔ ¬FillsNumbers text) ∧
    (∀ front rest, text = front ++ rest → rest ≠ [] →
      (table.position (byteLength front)).Follows front ∧
      (table.lineOf (byteLength front)).toNat = front.count '\n' + 1) ∧
    (∀ o, byteLength text ≤ o → table.position o = table.position (byteLength text) ∧
      table.lineOf o = table.lineOf (byteLength text)) ∧
    (∀ o found, Found o table.starts found → table.lineOf o = numbered (indexFound found)) ∧
    table.lineCount = text.count '\n' + 1 ∧
    (FillsNumbers text → byteLength text = maxOffset ∧
      (table.position maxOffset = ⟨0, 1⟩ ∨ table.position maxOffset = ⟨1, 0⟩)) := by
  intro table
  have hfit : byteLength text ≤ maxOffset := Nat.le_of_lt_succ hsmall
  refine ⟨agreesWithCounting_iff hfit, ?front, fun o ho => position_behind hfit ho, ?search,
    length_starts, ?filled⟩
  case front =>
    rintro front rest rfl hrest
    have hfollows := position_follows_of_rest hfit hrest
    exact ⟨hfollows, hfollows.line⟩
  case search =>
    intro o found hfound
    exact congrArg numbered (lineIndex_of_found hfit hfound)
  case filled =>
    intro hfills
    obtain ⟨hlength, hend⟩ := Position.after_of_fillsNumbers hfit hfills
    rw [← position_of_end_le hfit hlength.le] at hend
    exact ⟨hlength, hend⟩

/-- A text with a character of two bytes, an empty line and a last line without characters. -/
theorem positions_counted_multibyte :
    let text := "é\n\nb\n".toList
    byteLength text < 2 ^ 32 ∧ AgreesWithCounting text ∧
      (ofText text).position 2 = ⟨1, 2⟩ ∧ (ofText text).position 4 = ⟨3, 1⟩ ∧
      (ofText text).position 9 = (ofText text).position 6 ∧
      (ofText text).lineOf 4 = numbered 2 ∧ (ofText text).lineOf 5 = numbered 2 ∧
      (ofText text).lineCount = 4 := by
  intro text
  have hsmall : byteLength text < 2 ^ 32 := by decide
  obtain ⟨hagrees, hfront, hend, hfound, hcount, hfilled⟩ :=
    positions_counted_unless_filled text hsmall
  have hfree : ¬FillsNumbers text := by
    intro hfills
    exact absurd (hfilled hfills).1 (by decide)
  have hposition {p : Position} {o : Nat} (front rest : List Char) (htext : text = front ++ rest)
      (hrest : rest ≠ []) (ho : o = byteLength front) (hp : p.Follows front) :
      (ofText text).position o = p := by
    have hcounted := (hfront front rest htext hrest).1
    rw [ho]
    exact hcounted.unique hp
  refine ⟨hsmall, hagrees.mpr hfree, ?_, ?_, (hend 9 (by decide)).1,
    hfound 4 (.ok 2) (.here (by decide)),
    hfound 5 (.error 3) (.absent (by decide) (by decide) (by decide)), hcount⟩
  · exact hposition "é".toList "\n\nb\n".toList (by decide) (by decide) (by decide)
      ⟨by decide, by decide⟩
  · exact hposition "é\n\n".toList "b\n".toList (by decide) (by decide) (by decide)
      ⟨by decide, by decide⟩

/-- The column of the end of the longest line goes round to zero. -/
theorem longest_line_not_counted :
    let text := List.replicate maxOffset 'a'
    byteLength text < 2 ^ 32 ∧ ((ofText text).position maxOffset).column = 0 ∧
      ¬AgreesWithCounting text := by
  intro text
  have hlength : byteLength text = maxOffset := byteLength_replicate _ _
  have hline : '\n' ∉ text := fun hmem => absurd (List.eq_of_mem_replicate hmem) (by decide)
  have hfills : FillsNumbers text := fillsNumbers_of_line hline List.length_replicate
  have hcolumn : (text.rtakeWhile (· != '\n')).length = maxOffset := by
    rcases hfills with hbreaks | hcolumn
    · rw [List.count_eq_zero.mpr hline] at hbreaks
      cases hbreaks
    · exact hcolumn
  refine ⟨?_, ?_, ?_⟩
  · rw [hlength]
    decide
  · rw [position_of_end_le hlength.le hlength.le, Position.after, hcolumn]
    rfl
  · rw [agreesWithCounting_iff hlength.le, not_not]
    exact hfills

end LineTable

end TypedConfig.Source
