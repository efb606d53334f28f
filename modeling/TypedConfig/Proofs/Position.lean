import Mathlib.Data.List.GetD
import TypedConfig.Source.Position

/-!
# Positions in joined texts

Offsets within the first of two texts joined by a line break have the position that they have in
it. Offsets within the second one have the same column as in it, and their line is further down by
the line breaks of the first text and the one that joins them.

The numbers of a position have 32 bits. Up to the largest offset the number of an index is the one
behind it, and that of the largest offset goes round to zero. Positions are added in 32 bits here,
and where a sum does not go round is said of the numbers.
-/

namespace TypedConfig

section Stops

variable {α : Type}

/-- A scan that stops at an item does not see what comes after it. -/
theorem takeWhile_append_stop {p : α → Bool} {d : α} (hd : p d = false) (xs ys : List α) :
    (xs ++ d :: ys).takeWhile p = xs.takeWhile p := by
  induction xs with
  | nil => simp [hd]
  | cons x xs ih => simp [List.takeWhile_cons, ih]

/-- What a scan leaves when it stops at an item ends with all that comes after the item. -/
theorem dropWhile_append_stop {p : α → Bool} {d : α} (hd : p d = false) (xs ys : List α) :
    (xs ++ d :: ys).dropWhile p = xs.dropWhile p ++ d :: ys := by
  induction xs with
  | nil => simp [hd]
  | cons x xs ih =>
    by_cases hx : p x = true
    · simp [hx, ih]
    · simp [hx]

end Stops

namespace Source

section Numbered

variable {m n : Nat}

/-- The offsets of a span have 32 bits. -/
theorem lt_size_of_le (h : n ≤ maxOffset) : n < UInt32.size := Nat.lt_of_le_of_lt h (by decide)

/-- Below the largest offset the number of an index is the one behind it. -/
theorem toNat_numbered (h : n < maxOffset) : (numbered n).toNat = n + 1 := by
  have hle : n ≤ maxOffset := Nat.le_of_lt h
  rw [numbered, if_pos hle, UInt32.toNat_add, UInt32.toNat_ofNat_of_lt' (lt_size_of_le hle)]
  exact Nat.mod_eq_of_lt (lt_size_of_le h)

/-- The number of the largest offset goes round. -/
theorem numbered_maxOffset : numbered maxOffset = 0 := rfl

/-- Only the largest offset is without a number. -/
theorem toNat_numbered_eq_iff (h : n ≤ maxOffset) : (numbered n).toNat = n + 1 ↔ n ≠ maxOffset := by
  constructor
  · rintro hnumber rfl
    rw [numbered_maxOffset] at hnumber
    exact Nat.succ_ne_zero _ hnumber.symm
  · intro hne
    exact toNat_numbered (Nat.lt_of_le_of_ne h hne)

/-- The step to a number can be taken back, also where it went round. -/
theorem toNat_numbered_sub_one (h : n ≤ maxOffset) : (numbered n - 1).toNat = n := by
  rw [numbered, if_pos h, UInt32.add_sub_cancel, UInt32.toNat_ofNat_of_lt' (lt_size_of_le h)]

/-- Numbers are as far apart as their indices. -/
theorem numbered_add (h : m + n ≤ maxOffset) :
    numbered (m + n) = numbered m + UInt32.ofNat n := by
  rw [numbered, numbered, if_pos h, if_pos (Nat.le_trans (Nat.le_add_right m n) h),
    UInt32.ofNat_add, UInt32.add_assoc, UInt32.add_assoc, UInt32.add_comm 1]

end Numbered

/-- The empty text has no bytes. -/
@[simp] theorem byteLength_nil : byteLength [] = 0 := rfl

/-- The bytes of the first character come in front. -/
@[simp] theorem byteLength_cons (c : Char) (cs : List Char) :
    byteLength (c :: cs) = c.utf8Size + byteLength cs := rfl

/-- Joined texts have the bytes of both. -/
@[simp] theorem byteLength_append (xs ys : List Char) :
    byteLength (xs ++ ys) = byteLength xs + byteLength ys := by
  induction xs with
  | nil => simp
  | cons c xs ih => simp [ih, Nat.add_assoc]

/-- A text has the bytes of a front part and of the rest. -/
theorem byteLength_take_add_drop (n : Nat) (cs : List Char) :
    byteLength (cs.take n) + byteLength (cs.drop n) = byteLength cs := by
  rw [← byteLength_append, List.take_append_drop]

/-- Every character has a byte. -/
theorem length_le_byteLength (cs : List Char) : cs.length ≤ byteLength cs := by
  induction cs with
  | nil => exact Nat.le_refl _
  | cons c cs ih =>
    have := c.utf8Size_pos
    rw [List.length_cons, byteLength_cons]
    omega

/-- Every line break has a byte. -/
theorem count_le_byteLength (cs : List Char) : cs.count '\n' ≤ byteLength cs :=
  Nat.le_trans List.count_le_length (length_le_byteLength cs)

/-- The offsets of a text that begins further behind. -/
theorem boundaries_add (o distance : Nat) (cs : List Char) :
    boundaries (o + distance) cs = (boundaries o cs).map (· + distance) := by
  induction cs generalizing o with
  | nil => rfl
  | cons c cs ih =>
    rw [boundaries, boundaries, List.map_cons, ← ih, Nat.add_right_comm]

/-- The offset after a text is that of the line break that follows it. -/
theorem boundaries_join (o : Nat) (xs ys : List Char) :
    boundaries o (xs ++ '\n' :: ys) =
      boundaries o xs ++ boundaries (o + byteLength xs + 1) ys := by
  induction xs generalizing o with
  | nil => rfl
  | cons x xs ih =>
    rw [List.cons_append, boundaries, boundaries, ih, byteLength_cons, List.cons_append,
      Nat.add_assoc o]

/-- The offsets of a text lie between its begin and its end. -/
theorem boundaries_mem_range (o : Nat) (cs : List Char) :
    ∀ b ∈ boundaries o cs, o ≤ b ∧ b ≤ o + byteLength cs := by
  induction cs generalizing o with
  | nil => simp [boundaries]
  | cons c cs ih =>
    intro b hb
    rcases List.mem_cons.mp hb with rfl | hb
    · exact ⟨Nat.le_refl _, Nat.le_add_right _ _⟩
    · have := ih _ b hb
      rw [byteLength_cons]
      omega

/-- The end of a front part is an offset of the text. -/
theorem mem_boundaries (o : Nat) (xs ys : List Char) :
    o + byteLength xs ∈ boundaries o (xs ++ ys) := by
  induction xs generalizing o with
  | nil => cases ys <;> exact .head _
  | cons x xs ih =>
    rw [byteLength_cons, ← Nat.add_assoc]
    exact .tail _ (ih _)

/-- Line starts of a text that begins further behind. -/
theorem lineStartsAfter_add (o distance : Nat) (cs : List Char)
    (hsmall : o + distance + byteLength cs ≤ maxOffset) :
    lineStartsAfter (o + distance) cs = (lineStartsAfter o cs).map (· + distance) := by
  induction cs generalizing o with
  | nil => rfl
  | cons c cs ih =>
    rw [byteLength_cons] at hsmall
    have hrest := ih (o + c.utf8Size) (by omega)
    have hnext : o + distance + c.utf8Size = o + c.utf8Size + distance := by omega
    have hmin : min (o + c.utf8Size + distance) maxOffset =
        min (o + c.utf8Size) maxOffset + distance := by omega
    simp only [lineStartsAfter, hnext, hrest, hmin]
    split <;> rfl

/-- The line starts of joined texts are those of the parts, one behind the other. -/
theorem lineStartsAfter_append (o : Nat) (xs ys : List Char) :
    lineStartsAfter o (xs ++ ys) =
      lineStartsAfter o xs ++ lineStartsAfter (o + byteLength xs) ys := by
  induction xs generalizing o with
  | nil => rfl
  | cons x xs ih =>
    simp only [List.cons_append, lineStartsAfter, ih, byteLength_cons, Nat.add_assoc]
    split <;> rfl

/-- No line starts behind the end. -/
theorem lineStartsAfter_mem_range (o : Nat) (cs : List Char) :
    ∀ b ∈ lineStartsAfter o cs, b ≤ o + byteLength cs := by
  induction cs generalizing o with
  | nil => simp [lineStartsAfter]
  | cons c cs ih =>
    intro b hb
    have hrest := ih (o + c.utf8Size)
    simp only [lineStartsAfter] at hb
    rw [byteLength_cons]
    split at hb
    · rcases List.mem_cons.mp hb with rfl | hb
      · omega
      · have := hrest b hb
        omega
    · have := hrest b hb
      omega

/-- There is a line start after every line break. -/
theorem length_lineStartsAfter (o : Nat) (cs : List Char) :
    (lineStartsAfter o cs).length = cs.count '\n' := by
  induction cs generalizing o with
  | nil => rfl
  | cons c cs ih =>
    simp only [lineStartsAfter, List.count_cons]
    split <;> simp [ih]

variable {xs ys : List Char}

/-- Between offsets of the first text there are the characters of the first text. -/
theorem charsBetween_join_left {start stop : Nat} (hstart : start ≤ byteLength xs)
    (hstop : stop ≤ byteLength xs) :
    charsBetween (xs ++ '\n' :: ys) start stop = charsBetween xs start stop := by
  have hbehind := boundaries_mem_range (byteLength xs + 1) ys
  have hcontains (o : Nat) (ho : o ≤ byteLength xs) :
      (boundaries 0 (xs ++ '\n' :: ys)).contains o = (boundaries 0 xs).contains o := by
    rw [boundaries_join, List.contains_eq_mem, List.contains_eq_mem, decide_eq_decide,
      List.mem_append, Nat.zero_add]
    refine or_iff_left fun hmem => ?_
    have := (hbehind o hmem).1
    omega
  have hcount : (boundaries (byteLength xs + 1) ys).countP
      (fun b => decide (start ≤ b) && decide (b < stop)) = 0 := by
    refine List.countP_eq_zero.mpr fun b hb => ?_
    have := (hbehind b hb).1
    simp only [Bool.and_eq_true, decide_eq_true_eq, not_and]
    omega
  unfold charsBetween
  simp only [hcontains start hstart, hcontains stop hstop]
  rw [boundaries_join, Nat.zero_add, List.countP_append, hcount, Nat.add_zero]

/-- Between offsets of the second text there are the characters of the second text. -/
theorem charsBetween_join_right (start stop : Nat) :
    charsBetween (xs ++ '\n' :: ys) (start + (byteLength xs + 1)) (stop + (byteLength xs + 1)) =
      charsBetween ys start stop := by
  have hbefore := boundaries_mem_range 0 xs
  have hbehind : boundaries (byteLength xs + 1) ys =
      (boundaries 0 ys).map (· + (byteLength xs + 1)) := by
    rw [← boundaries_add, Nat.zero_add]
  have hjoin : boundaries 0 (xs ++ '\n' :: ys) =
      boundaries 0 xs ++ (boundaries 0 ys).map (· + (byteLength xs + 1)) := by
    rw [boundaries_join, Nat.zero_add, ← hbehind]
  have hcontains (o : Nat) : (boundaries 0 (xs ++ '\n' :: ys)).contains
      (o + (byteLength xs + 1)) = (boundaries 0 ys).contains o := by
    rw [hjoin, List.contains_eq_mem, List.contains_eq_mem, decide_eq_decide, List.mem_append]
    rw [or_iff_right fun hmem => by have := (hbefore _ hmem).2; omega]
    simp
  have hcount : (boundaries 0 xs).countP (fun b => decide (start + (byteLength xs + 1) ≤ b) &&
      decide (b < stop + (byteLength xs + 1))) = 0 := by
    refine List.countP_eq_zero.mpr fun b hb => ?_
    have := (hbefore b hb).2
    simp only [Bool.and_eq_true, decide_eq_true_eq, not_and]
    omega
  unfold charsBetween
  simp only [hcontains]
  rw [hjoin, List.countP_append, hcount, Nat.zero_add, List.countP_map]
  simp [Function.comp_def]

namespace LineTable

/-- The lines of joined texts start where they start in the parts. -/
theorem starts_join (hsmall : byteLength xs + 1 + byteLength ys ≤ maxOffset) :
    (ofText (xs ++ '\n' :: ys)).starts =
      (ofText xs).starts ++ (ofText ys).starts.map (· + (byteLength xs + 1)) := by
  have hbreak : min (byteLength xs + 1) maxOffset = byteLength xs + 1 := by omega
  have hrest := lineStartsAfter_add 0 (byteLength xs + 1) ys (by omega)
  rw [Nat.zero_add] at hrest
  simp only [ofText, lineStartsAfter_append, Nat.zero_add, List.cons_append, List.map_cons]
  have hnewline : lineStartsAfter (byteLength xs) ('\n' :: ys) =
      min (byteLength xs + 1) maxOffset :: lineStartsAfter (byteLength xs + 1) ys := rfl
  rw [hnewline, hbreak, hrest]

/-- Lines start within the text. -/
theorem starts_le : ∀ b ∈ (ofText xs).starts, b ≤ byteLength xs := by
  intro b hb
  rcases List.mem_cons.mp hb with rfl | hb
  · exact Nat.zero_le _
  · simpa using lineStartsAfter_mem_range 0 xs b hb

/-- There is a line more than there are line breaks. -/
theorem length_starts : (ofText xs).starts.length = xs.count '\n' + 1 := by
  simp [ofText, length_lineStartsAfter]

/-- The index of a line is that of a line start. -/
theorem lineIndex_lt (xs : List Char) (o : Nat) :
    (ofText xs).lineIndex o < (ofText xs).starts.length := by
  have hlength : ((ofText xs).starts.takeWhile (· ≤ o)).length ≤ (ofText xs).starts.length :=
    (List.takeWhile_prefix _).length_le
  have hsome : (ofText xs).starts.length = xs.count '\n' + 1 := length_starts
  rw [lineIndex]
  omega

/-- A scan of the line starts up to an offset passes at least the first one. -/
theorem lineIndex_add_one (xs : List Char) (o : Nat) :
    (ofText xs).lineIndex o + 1 = ((ofText xs).starts.takeWhile (· ≤ o)).length := by
  simp [lineIndex, ofText]

/-- Lines have the index that they have in the first text. -/
theorem lineIndex_join_left (hsmall : byteLength xs + 1 + byteLength ys ≤ maxOffset) {o : Nat}
    (ho : o ≤ byteLength xs) :
    (ofText (xs ++ '\n' :: ys)).lineIndex o = (ofText xs).lineIndex o := by
  have hstop : decide (0 + (byteLength xs + 1) ≤ o) = false := by
    simp only [decide_eq_false_iff_not]
    omega
  rw [lineIndex, starts_join hsmall]
  change (List.takeWhile _ (_ ++ (0 + (byteLength xs + 1)) :: _)).length - 1 = _
  rw [takeWhile_append_stop (p := fun b => decide (b ≤ o)) hstop, lineIndex]

/-- Lines come behind all lines of the first text. -/
theorem lineIndex_join_right (hsmall : byteLength xs + 1 + byteLength ys ≤ maxOffset) (o : Nat) :
    (ofText (xs ++ '\n' :: ys)).lineIndex (o + (byteLength xs + 1)) =
      (ofText ys).lineIndex o + (1 + xs.count '\n') := by
  have hbefore : ∀ b ∈ (ofText xs).starts, decide (b ≤ o + (byteLength xs + 1)) = true := by
    intro b hb
    have := starts_le b hb
    simp only [decide_eq_true_eq]
    omega
  have hjoined := lineIndex_add_one (xs ++ '\n' :: ys) (o + (byteLength xs + 1))
  rw [starts_join hsmall, List.takeWhile_append_of_pos hbefore, List.length_append,
    length_starts, List.takeWhile_map, List.length_map] at hjoined
  simp only [Function.comp_def, Nat.add_le_add_iff_right] at hjoined
  have hown := lineIndex_add_one ys o
  omega

/-- In a text that a span can hold, the index of a line is no larger than the largest offset. -/
theorem lineIndex_le (xs : List Char) (hsmall : byteLength xs ≤ maxOffset) (o : Nat) :
    (ofText xs).lineIndex o ≤ maxOffset := by
  have hline := lineIndex_lt xs o
  have hcount := count_le_byteLength xs
  rw [length_starts] at hline
  omega

/-- The line start is that of the line, also where the number of the line has gone round. -/
theorem position_eq {o : Nat} (hline : (ofText xs).lineIndex o ≤ maxOffset) :
    let start := (ofText xs).starts.getD ((ofText xs).lineIndex o) 0
    (ofText xs).position o = ⟨numbered ((ofText xs).lineIndex o),
      numbered ((charsBetween xs start (max start (min o (byteLength xs)))).getD 0)⟩ := by
  intro start
  simp only [position, lineOf, toNat_numbered_sub_one hline]
  rfl

/-- Offsets within the first text have the position that they have in it. -/
theorem position_join_left (hsmall : byteLength xs + 1 + byteLength ys ≤ maxOffset) {o : Nat}
    (ho : o ≤ byteLength xs) :
    (ofText (xs ++ '\n' :: ys)).position o = (ofText xs).position o := by
  have hline := lineIndex_join_left hsmall ho
  have hindex := lineIndex_lt xs o
  have hown := lineIndex_le xs (by omega) o
  have hstart : (ofText (xs ++ '\n' :: ys)).starts.getD ((ofText xs).lineIndex o) 0 =
      (ofText xs).starts.getD ((ofText xs).lineIndex o) 0 := by
    rw [starts_join hsmall, List.getD_append _ _ _ _ hindex]
  have hfit : (ofText xs).starts.getD ((ofText xs).lineIndex o) 0 ≤ byteLength xs := by
    rw [List.getD_eq_getElem _ _ hindex]
    exact starts_le _ (List.getElem_mem hindex)
  have hcut : min o (byteLength (xs ++ '\n' :: ys)) = min o (byteLength xs) := by
    rw [byteLength_append]
    omega
  rw [position_eq (by rwa [hline]), position_eq hown, hline, hstart, hcut,
    charsBetween_join_left hfit (by omega)]

/-- Offsets within the second text have the same column as in it, on a line further down. -/
theorem position_join_right (hsmall : byteLength xs + 1 + byteLength ys ≤ maxOffset) (o : Nat) :
    (ofText (xs ++ '\n' :: ys)).position (o + (byteLength xs + 1)) =
      ⟨((ofText ys).position o).line + UInt32.ofNat (1 + xs.count '\n'),
        ((ofText ys).position o).column⟩ := by
  have hbytes : byteLength (xs ++ '\n' :: ys) = byteLength xs + 1 + byteLength ys := by
    rw [byteLength_append, byteLength_cons, Nat.add_assoc]
    rfl
  have hline := lineIndex_join_right hsmall o
  have hindex := lineIndex_lt ys o
  have hfit := lineIndex_le (xs ++ '\n' :: ys) (by omega) (o + (byteLength xs + 1))
  have hown := lineIndex_le ys (by omega) o
  have hstart : (ofText (xs ++ '\n' :: ys)).starts.getD
      ((ofText ys).lineIndex o + (1 + xs.count '\n')) 0 =
        (ofText ys).starts.getD ((ofText ys).lineIndex o) 0 + (byteLength xs + 1) := by
    have hplace : (ofText ys).lineIndex o + (1 + xs.count '\n') =
        (ofText xs).starts.length + (ofText ys).lineIndex o := by
      rw [length_starts]
      omega
    rw [starts_join hsmall, hplace, List.getD_append_right _ _ _ _ (Nat.le_add_right _ _),
      Nat.add_sub_cancel_left, List.getD_eq_getElem _ _ (by simpa using hindex),
      List.getD_eq_getElem _ _ hindex, List.getElem_map]
  have hcut : min (o + (byteLength xs + 1)) (byteLength (xs ++ '\n' :: ys)) =
      min o (byteLength ys) + (byteLength xs + 1) := by
    omega
  rw [position_eq hfit, position_eq hown, hline, hstart, hcut, Nat.add_max_add_right,
    charsBetween_join_right, numbered_add (by omega)]

/-- The line does not go round if the second text has more than line breaks. -/
theorem toNat_line_join_right (hsmall : byteLength xs + 1 + byteLength ys ≤ maxOffset)
    (hmore : ys.count '\n' < byteLength ys) (o : Nat) :
    (((ofText ys).position o).line + UInt32.ofNat (1 + xs.count '\n')).toNat =
      ((ofText ys).position o).line.toNat + (1 + xs.count '\n') := by
  have hindex := lineIndex_lt ys o
  have hbefore := count_le_byteLength xs
  rw [length_starts] at hindex
  simp only [position, lineOf]
  rw [← numbered_add (by omega), toNat_numbered (by omega), toNat_numbered (by omega)]
  omega

end LineTable

end Source

end TypedConfig
