import Mathlib.Data.List.Forall2
import Mathlib.Data.Nat.Digits.Defs
import TypedConfig.Proofs.Scanning

/-!
# Escapes

What stands between two delimiters is read from the left, each backslash together with what follows
it. The escapes are a letter, or the letter `u` with four hexadecimal digits that are the number of
a character; a text without any other escape stands for itself with the escapes and the doubled
delimiters replaced, and any other text is refused for the first escape that is none.

The reader also takes a plus sign in the place of the first of the four digits. The statements below
say what it does with all texts, and that this is what the escapes ask for exactly as long as it
does not come to a plus sign.
-/

namespace TypedConfig.Token

/-- The letters of escapes with the characters that they stand for. -/
def escapeLetters : List (Char × Char) :=
  [('n', '\n'), ('r', '\r'), ('t', '\t'), ('b', Char.ofNat 8), ('f', Char.ofNat 12),
    ('0', Char.ofNat 0), ('\\', '\\'), ('"', '"'), ('\'', '\'')]

/-- The digits to the base 16 with their values. -/
def hexDigits : List (Char × Nat) :=
  "0123456789abcdef".toList.zipIdx ++ "ABCDEF".toList.zipIdx 10

/-- Hexadecimal digits and the number that they stand for. -/
inductive HexNumber : List Char → Nat → Prop
  | mk {ds vs} : List.Forall₂ (fun d v => (d, v) ∈ hexDigits) ds vs →
    HexNumber ds (Nat.ofDigits 16 vs.reverse)

/-- What may stand behind a backslash, and the character that it stands for. -/
inductive Escape : List Char → Char → Prop
  | letter {l x} : (l, x) ∈ escapeLetters → Escape [l] x
  | unicode {ds} {x : Char} : ds.length = 4 → HexNumber ds x.toNat → Escape ('u' :: ds) x

/-- An escape with a plus sign in the place of the first of its four digits. -/
inductive SignedEscape : List Char → Char → Prop
  | mk {ds} {x : Char} : ds.length = 3 → HexNumber ds x.toNat → SignedEscape ('u' :: '+' :: ds) x

/-- The escapes that are taken. -/
def TakenEscape (form : List Char) (x : Char) : Prop := Escape form x ∨ SignedEscape form x

section

variable (E : List Char → Char → Prop) (q : Char)

/-- A text between two delimiters and the text that it stands for: escapes are replaced by their
characters and doubled delimiters by one. -/
inductive Unescaped : List Char → List Char → Prop
  | nil : Unescaped [] []
  | plain {c written cs} : c ≠ '\\' → c ≠ q → Unescaped written cs →
    Unescaped (c :: written) (c :: cs)
  | doubled {written cs} : Unescaped written cs → Unescaped (q :: q :: written) (q :: cs)
  | escape {form x written cs} : E form x → Unescaped written cs →
    Unescaped ('\\' :: form ++ written) (x :: cs)

/-- The first backslash of a text that begins no escape, with the character behind it. -/
def FirstInvalid (written : List Char) (c : Char) : Prop :=
  ∃ front rest, written = front ++ '\\' :: c :: rest ∧ (∃ cs, Unescaped E q front cs) ∧
    ∀ form x, E form x → ¬ form <+: c :: rest

/-- A text is unescaped by some escapes: it succeeds exactly if these are its only escapes, with the
text that it stands for, and otherwise it fails for the first escape that is none of them. -/
def UnescapesBy (written : List Char) : Prop :=
  (∀ cs, unescape q written = .ok cs ↔ Unescaped E q written cs) ∧
    ∀ e, unescape q written = .error e ↔ ∃ c, e = .invalidEscape c ∧ FirstInvalid E q written c

end

/-- The first escape of a text that is none has a plus sign in the place of its first digit. -/
def MeetsSigned (q : Char) (written : List Char) : Prop :=
  ∃ front form x rest, written = front ++ ('\\' :: form ++ rest) ∧
    (∃ cs, Unescaped Escape q front cs) ∧ SignedEscape form x

section Digits

/-- A letter escapes what the table of letters has for it. -/
theorem simpleEscape_eq_some_iff {c x : Char} :
    simpleEscape c = some x ↔ (c, x) ∈ escapeLetters := by
  constructor
  · intro h
    unfold simpleEscape at h
    split at h <;> cases h <;> decide
  · intro h
    have hall : ∀ p ∈ escapeLetters, simpleEscape p.1 = some p.2 := by decide
    exact hall _ h

/-- No letter of the table begins a code point. -/
theorem ne_of_mem_escapeLetters {l x : Char} (h : (l, x) ∈ escapeLetters) : l ≠ 'u' := by
  rintro rfl
  rw [← simpleEscape_eq_some_iff] at h
  cases h

/-- A character is the digit that the table of digits has for it. -/
theorem hexDigit?_eq_some_iff {c : Char} {n : Nat} :
    hexDigit? c = some n ↔ (c, n) ∈ hexDigits := by
  have hdecimal : ∀ k < 10, (Char.ofNat (48 + k), k) ∈ hexDigits := by decide
  have hlower : ∀ k < 6, (Char.ofNat (97 + k), 10 + k) ∈ hexDigits := by decide
  have hupper : ∀ k < 6, (Char.ofNat (65 + k), 10 + k) ∈ hexDigits := by decide
  constructor
  · intro h
    simp only [hexDigit?, Bool.and_eq_true, decide_eq_true_eq] at h
    rw [← Char.ofNat_toNat c]
    split at h
    next hrange =>
      obtain ⟨k, hk⟩ := Nat.exists_eq_add_of_le hrange.1
      obtain rfl : c.toNat - 48 = n := Option.some.inj h
      rw [hk, Nat.add_sub_cancel_left]
      exact hdecimal k (by omega)
    split at h
    next hrange =>
      obtain ⟨k, hk⟩ := Nat.exists_eq_add_of_le hrange.1
      obtain rfl : 10 + k = n := by have := Option.some.inj h; omega
      rw [hk]
      exact hlower k (by omega)
    split at h
    next hrange =>
      obtain ⟨k, hk⟩ := Nat.exists_eq_add_of_le hrange.1
      obtain rfl : 10 + k = n := by have := Option.some.inj h; omega
      rw [hk]
      exact hupper k (by omega)
    next => cases h
  · intro h
    have hall : ∀ p ∈ hexDigits, hexDigit? p.1 = some p.2 := by decide
    exact hall _ h

/-- The digits of a number are hexadecimal. -/
theorem HexNumber.isSome_digit {ds : List Char} {n : Nat} (h : HexNumber ds n) :
    ∀ d ∈ ds, (hexDigit? d).isSome = true := by
  obtain ⟨hvs⟩ := h
  induction hvs with
  | nil => exact nofun
  | cons hv _ ih =>
    exact List.forall_mem_cons.mpr
      ⟨Option.isSome_of_eq_some (hexDigit?_eq_some_iff.mpr hv), ih⟩

/-- The number of digits is computed from the left. -/
theorem hexNumber_iff {ds : List Char} {n : Nat} : HexNumber ds n ↔
    ds.foldlM (fun n c => (hexDigit? c).map (16 * n + ·)) 0 = some n := by
  have hfold (vs : List Nat) :
      Nat.ofDigits 16 vs.reverse = vs.foldl (fun n v => 16 * n + v) 0 := by
    rw [Nat.ofDigits_eq_foldr, List.foldr_reverse]
    simp only [Nat.cast_id, Nat.add_comm]
  have hread (m : Nat) : ds.foldlM (fun n c => (hexDigit? c).map (16 * n + ·)) m = some n ↔
      ∃ vs, List.Forall₂ (fun d v => (d, v) ∈ hexDigits) ds vs ∧
        vs.foldl (fun n v => 16 * n + v) m = n := by
    induction ds generalizing m with
    | nil => simp
    | cons d ds ih =>
      simp only [List.foldlM_cons, Option.bind_eq_bind, Option.bind_eq_some_iff,
        Option.map_eq_some_iff, List.forall₂_cons_left_iff, hexDigit?_eq_some_iff]
      constructor
      · rintro ⟨_, ⟨v, hv, rfl⟩, hrest⟩
        obtain ⟨vs, hvs, hn⟩ := (ih _).mp hrest
        exact ⟨v :: vs, ⟨v, vs, hv, hvs, rfl⟩, hn⟩
      · rintro ⟨_, ⟨v, vs, hv, hvs, rfl⟩, hn⟩
        exact ⟨_, ⟨v, hv, rfl⟩, (ih _).mpr ⟨vs, hvs, hn⟩⟩
  rw [hread]
  constructor
  · rintro ⟨hvs⟩
    exact ⟨_, hvs, (hfold _).symm⟩
  · rintro ⟨vs, hvs, rfl⟩
    rw [← hfold]
    exact .mk hvs

/-- A number is that of a character exactly if the character has it. -/
theorem char_eq_some_iff {n : Nat} {x : Char} :
    (if h : n.isValidChar then some (Char.ofNatAux n h) else none) = some x ↔ x.toNat = n := by
  constructor
  · intro h
    by_cases hvalid : n.isValidChar
    · rw [dif_pos hvalid] at h
      cases h
      rfl
    · rw [dif_neg hvalid] at h
      cases h
  · rintro rfl
    have hvalid : x.toNat.isValidChar := x.valid
    rw [dif_pos hvalid]
    rfl

/-- Four characters behind the letter are taken if they are digits, or a plus sign and three. -/
theorem unicodeEscape_eq_some_iff {a b c d x : Char} :
    unicodeEscape a b c d = some x ↔ TakenEscape ['u', a, b, c, d] x := by
  change Option.bind (if a = '+' then _ else _) _ = some x ↔ _
  rw [Option.bind_eq_some_iff]
  constructor
  · rintro ⟨n, hn, hx⟩
    obtain rfl := char_eq_some_iff.mp hx
    split at hn
    next ha =>
      rw [ha]
      exact .inr (.mk rfl (hexNumber_iff.mpr hn))
    next => exact .inl (.unicode rfl (hexNumber_iff.mpr hn))
  · rintro (hescape | hsigned)
    · cases hescape with
      | unicode _ hnumber =>
        have ha : a ≠ '+' := by
          rintro rfl
          exact absurd (hnumber.isSome_digit '+' (.head _)) (by decide)
        rw [if_neg ha]
        exact ⟨_, hexNumber_iff.mp hnumber, char_eq_some_iff.mpr rfl⟩
    · cases hsigned with
      | mk _ hnumber =>
        rw [if_pos rfl]
        exact ⟨_, hexNumber_iff.mp hnumber, char_eq_some_iff.mpr rfl⟩

end Digits

section Reading

variable {q : Char} {written cs : List Char}

/-- A plain character stands for itself. -/
theorem unescape_plain {c : Char} (hslash : c ≠ '\\') (hq : c ≠ q) (cs : List Char) :
    unescape q (c :: cs) = (unescape q cs).map (c :: ·) := by
  cases cs with
  | nil => simp [unescape, Except.map]
  | cons d cs => simp [unescape, hslash, hq]

/-- A doubled delimiter stands for one. -/
theorem unescape_doubled (hq : q ≠ '\\') (cs : List Char) :
    unescape q (q :: q :: cs) = (unescape q cs).map (q :: ·) := by
  simp [unescape, hq]

/-- An escape that is taken is replaced by its character. -/
theorem unescape_taken {form : List Char} {x : Char} (h : TakenEscape form x) (cs : List Char) :
    unescape q ('\\' :: form ++ cs) = (unescape q cs).map (x :: ·) := by
  have hunicode {a b c d : Char} (h : TakenEscape ['u', a, b, c, d] x) :
      unescape q ('\\' :: ['u', a, b, c, d] ++ cs) = (unescape q cs).map (x :: ·) := by
    simp [unescape, unicodeEscape_eq_some_iff.mpr h]
  obtain hescape | hsigned := id h
  · cases hescape with
    | letter hl =>
      have hsimple := simpleEscape_eq_some_iff.mpr hl
      simp [unescape, ne_of_mem_escapeLetters hl, hsimple]
    | @unicode ds _ hlen _ =>
      obtain ⟨a, b, c, d, rfl⟩ := List.length_eq_four.mp hlen
      exact hunicode h
  · cases hsigned with
    | @mk ds _ hlen _ =>
      obtain ⟨b, c, d, rfl⟩ := List.length_eq_three.mp hlen
      exact hunicode h

/-- A backslash that begins no escape is an error, which names what stands behind it. -/
theorem unescape_invalid {c : Char} {rest : List Char}
    (h : ∀ form x, TakenEscape form x → ¬ form <+: c :: rest) :
    unescape q ('\\' :: c :: rest) = .error (.invalidEscape c) := by
  have hsimple : simpleEscape c = none := by
    by_contra hsome
    obtain ⟨x, hx⟩ := Option.ne_none_iff_exists'.mp hsome
    exact h [c] x (.inl (.letter (simpleEscape_eq_some_iff.mp hx))) (by simp)
  by_cases hu : c = 'u'
  · subst hu
    match rest with
    | a :: b :: c :: d :: rest =>
      have hunicode : unicodeEscape a b c d = none := by
        by_contra hsome
        obtain ⟨x, hx⟩ := Option.ne_none_iff_exists'.mp hsome
        exact h _ x (unicodeEscape_eq_some_iff.mp hx) (List.prefix_append ['u', a, b, c, d] rest)
      simp [unescape, hunicode]
    | [] | [_] | [_, _] | [_, _, _] => simp [unescape, simpleEscape]
  · simp [unescape, hu, hsimple]

end Reading

section Unescaped

variable {E F : List Char → Char → Prop} {q : Char} {front rest cs ds : List Char}

/-- What goes by some forms of escapes goes by more. -/
theorem Unescaped.mono (hEF : ∀ form x, E form x → F form x) (h : Unescaped E q front cs) :
    Unescaped F q front cs := by
  induction h with
  | nil => exact .nil
  | plain hslash hq _ ih => exact .plain hslash hq ih
  | doubled _ ih => exact .doubled ih
  | escape hform _ ih => exact .escape (hEF _ _ hform) ih

/-- Texts that can be read can be read one behind the other. -/
theorem Unescaped.append (h : Unescaped E q front cs) (hrest : Unescaped E q rest ds) :
    Unescaped E q (front ++ rest) (cs ++ ds) := by
  induction h with
  | nil => exact hrest
  | plain hslash hq _ ih => exact .plain hslash hq ih
  | doubled _ ih => exact .doubled ih
  | escape hform _ ih =>
    rw [List.append_assoc]
    exact .escape hform ih

/-- The first invalid escape may stand behind a text that can be read. -/
theorem FirstInvalid.append {c : Char} (h : Unescaped E q front cs)
    (hrest : FirstInvalid E q rest c) : FirstInvalid E q (front ++ rest) c := by
  obtain ⟨middle, last, rfl, ⟨ds, hmiddle⟩, hnone⟩ := hrest
  exact ⟨front ++ middle, last, (List.append_assoc ..).symm, ⟨_, h.append hmiddle⟩, hnone⟩

/-- A text with no other escapes in front of another text is replaced by what it stands for. -/
theorem Unescaped.unescape_append (hq : q ≠ '\\') (h : Unescaped TakenEscape q front cs)
    (rest : List Char) : unescape q (front ++ rest) = (unescape q rest).map (cs ++ ·) := by
  have hmap (x : Char) (cs : List Char) : ((unescape q rest).map (cs ++ ·)).map (x :: ·) =
      (unescape q rest).map (x :: cs ++ ·) := by
    cases unescape q rest <;> rfl
  induction h with
  | nil => cases h : unescape q rest <;> simp [h, Except.map]
  | plain hslash hne _ ih => rw [List.cons_append, unescape_plain hslash hne, ih, hmap]
  | doubled _ ih => rw [List.cons_append, List.cons_append, unescape_doubled hq, ih, hmap]
  | escape hform _ ih => rw [List.append_assoc, unescape_taken hform, ih, hmap]

/-- What goes by the escapes that are taken is read as they say. -/
theorem Unescaped.unescape_eq (hq : q ≠ '\\') (h : Unescaped TakenEscape q front cs) :
    unescape q front = .ok cs := by
  have happend := h.unescape_append hq []
  rw [List.append_nil] at happend
  rw [happend]
  simp [unescape, Except.map]

/-- The first escape that is not taken is the error. -/
theorem FirstInvalid.unescape_eq (hq : q ≠ '\\') {c : Char}
    (h : FirstInvalid TakenEscape q front c) :
    unescape q front = .error (.invalidEscape c) := by
  obtain ⟨middle, last, rfl, ⟨ds, hmiddle⟩, hnone⟩ := h
  rw [hmiddle.unescape_append hq, unescape_invalid hnone]
  rfl

end Unescaped

section Admitted

variable {q : Char} {written : List Char}

/-- What the scanner takes up to a delimiter is admitted. -/
theorem admitted_of_quotedSize {rest : List Char}
    (h : quotedSize q (written ++ q :: rest) = some (written.length + 1)) : Admitted q written := by
  obtain ⟨front, last, heq, hlength, hfront, _⟩ := exists_admitted_of_quotedSize h
  obtain ⟨rfl, _⟩ := List.append_inj heq (Nat.succ.inj hlength)
  exact hfront

/-- Behind a plain character an admitted text is admitted. -/
theorem Admitted.tail {c : Char} (h : Admitted q (c :: written)) (hslash : c ≠ '\\')
    (hq : c ≠ q) : Admitted q written := by
  cases h with
  | plain _ _ h => exact h
  | doubled _ => exact absurd rfl hq
  | escaped _ => exact absurd rfl hslash

/-- What follows a part without delimiters and backslashes is admitted with it. -/
theorem Admitted.of_plain {ds rest : List Char} (h : Admitted q (ds ++ rest))
    (hds : ∀ d ∈ ds, d ≠ '\\' ∧ d ≠ q) : Admitted q rest := by
  induction ds with
  | nil => exact h
  | cons d ds ih =>
    obtain ⟨hd, hds⟩ := List.forall_mem_cons.mp hds
    exact ih (h.tail hd.1 hd.2) hds

/-- Behind its first character an escape has neither backslashes nor delimiters. -/
theorem TakenEscape.eq_cons {form : List Char} {x : Char} (h : TakenEscape form x) :
    ∃ c ds, form = c :: ds ∧ ∀ d ∈ ds, d ∉ ['\\', '"', '\''] := by
  have hdigit {d : Char} (hd : (hexDigit? d).isSome = true) : d ∉ ['\\', '"', '\''] := by
    intro hmem
    simp only [List.mem_cons, List.not_mem_nil, or_false] at hmem
    rcases hmem with rfl | rfl | rfl <;> revert hd <;> decide
  obtain hescape | hsigned := h
  · cases hescape with
    | @letter l _ _ => exact ⟨l, [], rfl, nofun⟩
    | @unicode ds _ _ hnumber =>
      exact ⟨'u', ds, rfl, fun d hd => hdigit (hnumber.isSome_digit d hd)⟩
  · cases hsigned with
    | @mk ds _ _ hnumber =>
      refine ⟨'u', '+' :: ds, rfl, List.forall_mem_cons.mpr ⟨by decide, fun d hd => ?_⟩⟩
      exact hdigit (hnumber.isSome_digit d hd)

/-- An admitted text either has no other escapes than those that are taken or has a first one. -/
theorem Admitted.unescaped_or_invalid (hq : q = '"' ∨ q = '\'') {written : List Char}
    (h : Admitted q written) :
    (∃ cs, Unescaped TakenEscape q written cs) ∨ ∃ c, FirstInvalid TakenEscape q written c := by
  cases h with
  | nil => exact .inl ⟨[], .nil⟩
  | @plain c written hslash hne h =>
    obtain ⟨cs, hcs⟩ | ⟨c', hc'⟩ := h.unescaped_or_invalid hq
    · exact .inl ⟨_, .plain hslash hne hcs⟩
    · exact .inr ⟨c', hc'.append (.plain hslash hne .nil)⟩
  | @doubled written h =>
    obtain ⟨cs, hcs⟩ | ⟨c, hc⟩ := h.unescaped_or_invalid hq
    · exact .inl ⟨_, .doubled hcs⟩
    · exact .inr ⟨c, hc.append (.doubled .nil)⟩
  | @escaped c written h =>
    by_cases hform : ∃ form x, TakenEscape form x ∧ form <+: c :: written
    · -- The scanner took one character with the backslash and the escape may have five, but the
      -- other four are digits, which leave what follows them admitted.
      obtain ⟨form, x, hform, rest, heq⟩ := hform
      obtain ⟨_, ds, rfl, hds⟩ := hform.eq_cons
      obtain ⟨rfl, rfl⟩ := List.cons.inj heq
      have hrest : Admitted q rest := by
        refine h.of_plain fun d hd => ?_
        have hd := hds d hd
        rcases hq with rfl | rfl <;> simp_all
      obtain ⟨cs, hcs⟩ | ⟨c, hc⟩ := hrest.unescaped_or_invalid hq
      · exact .inl ⟨_, .escape hform hcs⟩
      · have hfront := Unescaped.escape hform (.nil (E := TakenEscape) (q := q))
        rw [List.append_nil] at hfront
        exact .inr ⟨c, hc.append hfront⟩
    · refine .inr ⟨c, [], written, rfl, ⟨[], .nil⟩, fun form x hx hprefix => ?_⟩
      exact hform ⟨form, x, hx, hprefix⟩
  termination_by written.length

/-- An admitted text is unescaped by the escapes that are taken. -/
theorem Admitted.unescapesBy_taken (hq : q = '"' ∨ q = '\'') (h : Admitted q written) :
    UnescapesBy TakenEscape q written := by
  have hslash : q ≠ '\\' := by rcases hq with rfl | rfl <;> decide
  refine ⟨fun cs => ⟨fun hok => ?_, fun hcs => hcs.unescape_eq hslash⟩, fun e => ⟨fun herror => ?_,
    fun ⟨c, he, hc⟩ => he ▸ hc.unescape_eq hslash⟩⟩
  · obtain ⟨cs', hcs⟩ | ⟨c, hc⟩ := h.unescaped_or_invalid hq
    · obtain rfl := Except.ok.inj (hok.symm.trans (hcs.unescape_eq hslash))
      exact hcs
    · cases hok.symm.trans (hc.unescape_eq hslash)
  · obtain ⟨cs', hcs⟩ | ⟨c, hc⟩ := h.unescaped_or_invalid hq
    · cases herror.symm.trans (hcs.unescape_eq hslash)
    · exact ⟨c, Except.error.inj (herror.symm.trans (hc.unescape_eq hslash)), hc⟩

end Admitted

section Signed

variable {q : Char} {front written rest cs ds : List Char}

/-- A signed escape may stand behind a text that can be read. -/
theorem MeetsSigned.append (h : Unescaped Escape q front cs) (hrest : MeetsSigned q rest) :
    MeetsSigned q (front ++ rest) := by
  obtain ⟨middle, form, x, last, rfl, ⟨ds, hmiddle⟩, hsigned⟩ := hrest
  exact ⟨front ++ middle, form, x, last, (List.append_assoc ..).symm, ⟨_, h.append hmiddle⟩,
    hsigned⟩

/-- Anything may stand behind a signed escape. -/
theorem MeetsSigned.append_right (h : MeetsSigned q front) (rest : List Char) :
    MeetsSigned q (front ++ rest) := by
  obtain ⟨middle, form, x, last, rfl, hmiddle, hsigned⟩ := h
  exact ⟨middle, form, x, last ++ rest, by simp, hmiddle, hsigned⟩

/-- A text with none but the escapes that are taken has a first one with a plus sign or none. -/
theorem Unescaped.escape_or_meetsSigned (h : Unescaped TakenEscape q front cs) :
    Unescaped Escape q front cs ∨ MeetsSigned q front := by
  induction h with
  | nil => exact .inl .nil
  | plain hslash hne _ ih =>
    exact ih.imp (.plain hslash hne) (MeetsSigned.append (.plain hslash hne .nil))
  | doubled _ ih => exact ih.imp .doubled (MeetsSigned.append (.doubled .nil))
  | @escape form x written cs hform _ ih =>
    rcases hform with hescape | hsigned
    · have hfront := Unescaped.escape hescape (.nil (q := q))
      rw [List.append_nil] at hfront
      exact ih.imp (.escape hescape) (MeetsSigned.append hfront)
    · exact .inr ⟨[], form, x, written, rfl, ⟨[], .nil⟩, hsigned⟩

/-- A plus sign is no digit, so the escape with it is none. -/
theorem SignedEscape.not_escape {form : List Char} {x : Char} (h : SignedEscape form x)
    (rest : List Char) :
    ∃ ds, form = 'u' :: ds ∧ ∀ form x, Escape form x → ¬ form <+: 'u' :: (ds ++ rest) := by
  obtain @⟨ds, x, _, _⟩ := h
  refine ⟨'+' :: ds, rfl, fun form x hescape hprefix => ?_⟩
  cases hescape with
  | letter hl =>
    obtain ⟨_, heq⟩ := hprefix
    exact ne_of_mem_escapeLetters hl (List.cons.inj heq).1
  | @unicode digits _ hlen hnumber =>
    obtain ⟨a, b, c, d, rfl⟩ := List.length_eq_four.mp hlen
    obtain ⟨_, heq⟩ := hprefix
    obtain rfl : a = '+' := (List.cons.inj (List.cons.inj heq).2).1
    exact absurd (hnumber.isSome_digit '+' (.head _)) (by decide)

/-- By the documented escapes, a signed one is the first invalid one. -/
theorem MeetsSigned.firstInvalid (h : MeetsSigned q written) :
    FirstInvalid Escape q written 'u' := by
  obtain ⟨front, form, x, rest, rfl, hfront, hsigned⟩ := h
  obtain ⟨ds, rfl, hnone⟩ := hsigned.not_escape rest
  exact ⟨front, ds ++ rest, rfl, hfront, hnone⟩

/-- The first escape that is not taken is undocumented too, unless a signed one is in front of
it. -/
theorem FirstInvalid.escape_or_meetsSigned {c : Char} (h : FirstInvalid TakenEscape q written c) :
    FirstInvalid Escape q written c ∨ MeetsSigned q written := by
  obtain ⟨front, rest, rfl, ⟨ds, hfront⟩, hnone⟩ := h
  obtain hescape | hmeets := hfront.escape_or_meetsSigned
  · exact .inl ⟨front, rest, rfl, ⟨ds, hescape⟩, fun form x hform => hnone form x (.inl hform)⟩
  · exact .inr (hmeets.append_right _)

/-- What is first invalid for the escapes alone is taken only if it has a plus sign. -/
theorem FirstInvalid.taken_or_meetsSigned {c : Char} (h : FirstInvalid Escape q written c) :
    FirstInvalid TakenEscape q written c ∨ c = 'u' ∧ MeetsSigned q written := by
  obtain ⟨front, rest, rfl, ⟨ds, hfront⟩, hnone⟩ := h
  by_cases hsigned : ∃ form x, SignedEscape form x ∧ form <+: c :: rest
  · obtain ⟨form, x, hform, last, heq⟩ := hsigned
    obtain ⟨ds, rfl, _⟩ := hform.not_escape last
    obtain ⟨rfl, rfl⟩ := List.cons.inj heq
    exact .inr ⟨rfl, front, _, x, last, rfl, ⟨_, hfront⟩, hform⟩
  · refine .inl ⟨front, rest, rfl, ⟨ds, hfront.mono fun _ _ => .inl⟩, ?_⟩
    rintro form x (hescape | hform) hprefix
    · exact hnone form x hescape hprefix
    · exact hsigned ⟨form, x, hform, hprefix⟩

/-- An admitted text is unescaped by the escapes alone exactly as long as no plus sign in one of
them is what it succeeds by. -/
theorem Admitted.unescapesBy_escape_iff (hq : q = '"' ∨ q = '\'') (h : Admitted q written) :
    UnescapesBy Escape q written ↔
      (MeetsSigned q written → unescape q written = .error (.invalidEscape 'u')) := by
  obtain ⟨hok, herror⟩ := h.unescapesBy_taken hq
  constructor
  · intro hescapes hsigned
    exact (hescapes.2 _).mpr ⟨'u', rfl, hsigned.firstInvalid⟩
  · intro hsigned
    refine ⟨fun cs => ⟨fun hcs => ?_, fun hcs => ?_⟩, fun e => ⟨fun he => ?_, ?_⟩⟩
    · obtain hescape | hmeets := ((hok cs).mp hcs).escape_or_meetsSigned
      · exact hescape
      · cases hcs.symm.trans (hsigned hmeets)
    · exact (hok cs).mpr (hcs.mono fun _ _ => .inl)
    · obtain ⟨c, rfl, hfirst⟩ := (herror e).mp he
      obtain hescape | hmeets := hfirst.escape_or_meetsSigned
      · exact ⟨c, rfl, hescape⟩
      · exact ⟨'u', Except.error.inj (he.symm.trans (hsigned hmeets)), hmeets.firstInvalid⟩
    · rintro ⟨c, rfl, hfirst⟩
      obtain htaken | ⟨rfl, hmeets⟩ := hfirst.taken_or_meetsSigned
      · exact (herror _).mpr ⟨c, rfl, htaken⟩
      · exact hsigned hmeets

end Signed

/-- What the scanner takes as a text between two delimiters is one lexeme, and what stands between
them is unescaped by the escapes that are taken: letters, four digits, and a plus sign with three
digits. It is unescaped by the escapes alone exactly if no plus sign is where it first departs from
them, or the text is refused for that very letter. -/
theorem lexeme_quoted_unescapes {q : Char} (hq : q = '"' ∨ q = '\'') {written rest : List Char}
    (hsize : quotedSize q (written ++ q :: rest) = some (written.length + 1)) :
    lexeme q (written ++ q :: rest) = ⟨written.length + 2, some (quotedToken q written)⟩ ∧
      UnescapesBy TakenEscape q written ∧
      (UnescapesBy Escape q written ↔
        (MeetsSigned q written → unescape q written = .error (.invalidEscape 'u'))) := by
  have hadmitted := admitted_of_quotedSize hsize
  refine ⟨?_, hadmitted.unescapesBy_taken hq, hadmitted.unescapesBy_escape_iff hq⟩
  rw [lexeme_delimiter hq, quotedLexeme, hsize]
  simp

/-- The four characters behind the letter may reach into a doubled delimiter. -/
theorem lexeme_quoted_cut_escape :
    quotedSize '"' ("\\u12\"\"3".toList ++ '"' :: []) = some ("\\u12\"\"3".toList.length + 1) ∧
      (lexeme '"' ("\\u12\"\"3".toList ++ '"' :: [])).kind = some (.error (.invalidEscape 'u')) ∧
      FirstInvalid Escape '"' "\\u12\"\"3".toList 'u' := by
  have hsize : quotedSize '"' ("\\u12\"\"3".toList ++ '"' :: []) =
      some ("\\u12\"\"3".toList.length + 1) := by decide
  obtain ⟨hlexeme, _, hescapes⟩ := lexeme_quoted_unescapes (.inl rfl) hsize
  have herror : unescape '"' "\\u12\"\"3".toList = .error (.invalidEscape 'u') := by rfl
  obtain ⟨c, hc, hfirst⟩ := ((hescapes.mpr fun _ => herror).2 _).mp herror
  cases hc
  refine ⟨hsize, ?_, hfirst⟩
  rw [hlexeme]
  simp only [quotedToken, herror]

/-- A plus sign is taken for a digit. -/
theorem lex_signed_escape :
    lex "\"\\u+041\"" = [⟨.string "A", ⟨0, 8⟩⟩, ⟨.endOfInput, ⟨8, 8⟩⟩] ∧
      quotedSize '"' ("\\u+041".toList ++ '"' :: []) = some ("\\u+041".toList.length + 1) ∧
      ¬ UnescapesBy Escape '"' "\\u+041".toList := by
  have hlex : lex "\"\\u+041\"" = [⟨.string "A", ⟨0, 8⟩⟩, ⟨.endOfInput, ⟨8, 8⟩⟩] := by
    have hkind : (lexeme '"' "\\u+041\"".toList).kind = some (.string "A") := by decide
    have hend : lexemeEnd 0 '"' "\\u+041\"".toList = 8 := by decide
    have hafter : afterLexeme '"' "\\u+041\"".toList = [] := by decide
    change scan 0 ('"' :: "\\u+041\"".toList) = _
    rw [scan_token 0 hkind nofun, hend, hafter, scan]
    rfl
  refine ⟨hlex, by decide, fun hescapes => ?_⟩
  have hok : unescape '"' "\\u+041".toList = .ok ['A'] := by rfl
  have hnumber : HexNumber ['0', '4', '1'] 'A'.toNat := hexNumber_iff.mpr (by decide)
  have hmeets : MeetsSigned '"' "\\u+041".toList :=
    ⟨[], 'u' :: '+' :: ['0', '4', '1'], 'A', [], rfl, ⟨[], .nil⟩, .mk rfl hnumber⟩
  have herror := (hescapes.2 _).mpr ⟨'u', rfl, hmeets.firstInvalid⟩
  cases hok.symm.trans herror

end TypedConfig.Token
