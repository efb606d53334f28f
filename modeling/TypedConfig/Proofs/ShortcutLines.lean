import Mathlib.Data.List.Induction
import TypedConfig.Construct.Shortcuts

/-!
# Lines that define shortcuts

A name that is not empty resolves to the id in the last line that defines it, whichever text that
line stands in, and to what it stood for before if no line does. Only the lines of the texts matter,
so texts may be merged one after the other or with a line break between them as one.
-/

namespace TypedConfig

namespace Text

/-- White space at the end is trimmed. -/
theorem trim_append_blank {c : Char} (hc : isBlank c = true) (cs : List Char) :
    trim (cs ++ [c]) = trim cs := by
  unfold trim dropWhileEnd
  rw [List.dropWhile_append]
  split
  next hempty => simp [List.isEmpty_iff.mp hempty, hc]
  next => rw [List.reverse_append, List.reverse_singleton, List.singleton_append,
    List.dropWhile_cons_of_pos hc]

/-- A character in front of some pieces is in front of more. -/
theorem consHead_append {c : Char} {pieces : List (List Char)} (h : pieces ≠ [])
    (more : List (List Char)) : consHead c (pieces ++ more) = consHead c pieces ++ more := by
  cases pieces with
  | nil => exact absurd rfl h
  | cons piece pieces => rfl

/-- A character that neither is a line break nor begins one belongs to the first line. -/
theorem lines_cons {c : Char} {cs : List Char} (hline : c ≠ '\n')
    (hreturn : c = '\r' → cs.head? ≠ some '\n') : lines (c :: cs) = consHead c (lines cs) := by
  refine lines.eq_4 c cs hline fun rest hc hcs => ?_
  subst hcs
  exact hreturn hc rfl

/-- A text with characters has a line. -/
theorem lines_ne_nil {cs : List Char} (h : cs ≠ []) : lines cs ≠ [] := by
  fun_cases lines cs with
  | case1 => exact absurd rfl h
  | case2 => exact List.cons_ne_nil _ _
  | case3 => exact List.cons_ne_nil _ _
  | case4 c cs => cases lines cs <;> exact List.cons_ne_nil _ _

/-- What stands behind a line break begins a line of its own. -/
theorem lines_append (cs ds : List Char) :
    lines (cs ++ '\n' :: ds) = lines (cs ++ ['\n']) ++ lines ds := by
  fun_induction lines cs with
  | case1 => rfl
  | case2 cs ih => exact congrArg ([] :: ·) ih
  | case3 cs ih => exact congrArg ([] :: ·) ih
  | case4 c cs hline hreturn ih =>
    by_cases hbreak : c = '\r' ∧ cs = []
    · obtain ⟨rfl, rfl⟩ := hbreak
      rfl
    · have hnext (rest : List Char) : c = '\r' → (cs ++ '\n' :: rest).head? ≠ some '\n' := by
        intro hc
        cases cs with
        | nil => exact absurd ⟨hc, rfl⟩ hbreak
        | cons d cs =>
          intro hd
          exact hreturn cs hc (congrArg (· :: cs) (Option.some.inj hd))
      rw [List.cons_append, List.cons_append, lines_cons hline (hnext ds),
        lines_cons hline (hnext []), ih, consHead_append (lines_ne_nil (by simp))]

/-- What a line break at the end of a text may do to the lines: nothing, or it adds an empty line,
or it takes a carriage return from the last one. -/
inductive LastEnded : List (List Char) → List (List Char) → Prop
  | same (ls : List (List Char)) : LastEnded ls ls
  | empty : LastEnded [] [[]]
  | withReturn (l : List Char) : LastEnded [l ++ ['\r']] [l]
  | later (l : List Char) {ls ls' : List (List Char)} :
    LastEnded ls ls' → LastEnded (l :: ls) (l :: ls')

/-- A character in front does not change how the last line ends. -/
theorem LastEnded.consHead {ls ls' : List (List Char)} (h : LastEnded ls ls') (hls : ls ≠ [])
    (c : Char) : LastEnded (consHead c ls) (consHead c ls') := by
  cases h with
  | same => exact .same _
  | empty => exact absurd rfl hls
  | withReturn l => exact .withReturn (c :: l)
  | later l h => exact .later (c :: l) h

/-- A line break at the end of a text changes only how its last line ends. -/
theorem lines_append_newline (cs : List Char) : LastEnded (lines cs) (lines (cs ++ ['\n'])) := by
  fun_induction lines cs with
  | case1 => exact .empty
  | case2 cs ih => exact .later [] ih
  | case3 cs ih => exact .later [] ih
  | case4 c cs hline hreturn ih =>
    cases cs with
    | nil =>
      by_cases hc : c = '\r'
      · subst hc
        exact .withReturn []
      · rw [List.singleton_append, lines_cons hline fun h => absurd h hc]
        exact .same [[c]]
    | cons d cs =>
      have hnext : c = '\r' → ((d :: cs) ++ ['\n']).head? ≠ some '\n' :=
        fun hc hd => hreturn cs hc (congrArg (· :: cs) (Option.some.inj hd))
      rw [List.cons_append, lines_cons hline hnext]
      exact ih.consHead (lines_ne_nil (List.cons_ne_nil d cs)) c

/-- Where neither empty lines nor carriage returns at the end of lines matter, a line break at the
end of a text does not. -/
theorem LastEnded.filterMap_eq {α : Type} {f : List Char → Option α} (hempty : f [] = none)
    (hreturn : ∀ l, f (l ++ ['\r']) = f l) {ls ls' : List (List Char)} (h : LastEnded ls ls') :
    ls'.filterMap f = ls.filterMap f := by
  induction h with
  | same => rfl
  | empty => simp [hempty]
  | withReturn l => simp only [List.filterMap_cons, hreturn]
  | later l h ih => simp only [List.filterMap_cons, ih]

end Text

namespace Construct.Shortcuts

open Text (trim)

/-- A line defines an id for a name: without the white space around it, it is no comment, and in
front of its first separator stands the name and behind it the id, both of them without the white
space around them. The id is not empty; the name may be. -/
def Defines (line : List Char) (name id : String) : Prop :=
  ∃ front separator back, trim line = front ++ separator :: back ∧
    isSeparator separator = true ∧ (∀ c ∈ front, isSeparator c = false) ∧
    (trim line).head? ≠ some '#' ∧ (trim line).head? ≠ some '!' ∧
    trim front = name.toList ∧ trim back = id.toList ∧ id ≠ ""

/-- The last of several lines that defines a name defines an id for it. -/
def LastDefines (lines : List (List Char)) (name id : String) : Prop :=
  ∃ before line after, lines = before ++ line :: after ∧ Defines line name id ∧
    ∀ later ∈ after, ∀ other, ¬ Defines later name other

/-- No line defines a name. -/
def NoneDefines (lines : List (List Char)) (name : String) : Prop :=
  ∀ line ∈ lines, ∀ id, ¬ Defines line name id

/-- The lines of several texts. -/
def linesOf (texts : List String) : List (List Char) :=
  texts.flatMap fun text => Text.lines text.toList

variable {line : List Char} {lines : List (List Char)} {name id : String}

/-- A text is cut at its first separator. -/
theorem cut_at_separator {front back : List Char} {separator : Char}
    (hseparator : isSeparator separator = true) (hfront : ∀ c ∈ front, isSeparator c = false) :
    (front ++ separator :: back).takeWhile (!isSeparator ·) = front ∧
      (front ++ separator :: back).dropWhile (!isSeparator ·) = separator :: back := by
  have hkept : ∀ c ∈ front, (!isSeparator c) = true := fun c hc => by simp [hfront c hc]
  simp [List.takeWhile_append_of_pos hkept, List.dropWhile_append_of_pos hkept, hseparator]

/-- A line that defines an id is read as the definition, unless the name is empty. -/
theorem Defines.definition?_eq (h : Defines line name id) :
    definition? line = if name = "" then none else some (name, id) := by
  obtain ⟨front, separator, back, hline, hseparator, hfront, hhash, hmark, hname, hid, hne⟩ := h
  have hcut := @cut_at_separator front back separator hseparator hfront
  obtain ⟨c, hhead⟩ : ∃ c, (trim line).head? = some c := by
    rw [hline]
    cases front <;> exact ⟨_, rfl⟩
  have hc : (c == '#' || c == '!') = false := by
    rw [hhead, ne_eq, Option.some.injEq] at hhash hmark
    simp [hhash, hmark]
  rw [hline] at hhead
  unfold definition?
  simp only [hline, hhead, hc, hcut, hname, hid]
  simp [hne]

/-- A line is read as a definition exactly if it defines an id for a name that is not empty. -/
theorem definition?_eq_some_iff : definition? line = some (name, id) ↔
    name ≠ "" ∧ Defines line name id := by
  constructor
  · intro h
    unfold definition? at h
    dsimp only at h
    split at h
    · cases h
    next c hhead =>
      split at h
      · cases h
      next hc =>
        split at h
        · cases h
        next separator back hdrop =>
          split at h
          · cases h
          next hparts =>
            rw [Option.some.injEq, Prod.mk.injEq] at h
            obtain ⟨rfl, rfl⟩ := h
            rw [Bool.or_eq_true, List.isEmpty_iff, List.isEmpty_iff, not_or] at hparts
            have hcut := List.takeWhile_append_dropWhile (p := (!isSeparator ·)) (l := trim line)
            rw [hdrop] at hcut
            have hseparator := List.head?_dropWhile_not (!isSeparator ·) (trim line)
            rw [hdrop] at hseparator
            have hfront : ∀ d ∈ (trim line).takeWhile (!isSeparator ·), isSeparator d = false := by
              intro d hd
              simpa using List.all_eq_true.mp List.all_takeWhile d hd
            rw [Bool.or_eq_true, beq_iff_eq, beq_iff_eq, not_or] at hc
            refine ⟨mt String.ofList_eq_empty_iff.mp hparts.1, _, separator, back, hcut.symm,
              by simpa using hseparator, hfront, ?_, ?_, String.toList_ofList.symm,
              String.toList_ofList.symm, mt String.ofList_eq_empty_iff.mp hparts.2⟩
            · rw [hhead, ne_eq, Option.some.injEq]
              exact hc.1
            · rw [hhead, ne_eq, Option.some.injEq]
              exact hc.2
  · rintro ⟨hname, h⟩
    rw [h.definition?_eq, if_neg hname]

/-- The last line of several ones defines a name, or the lines in front of it decide. -/
theorem lastDefines_append_singleton {last : List Char} :
    LastDefines (lines ++ [last]) name id ↔
      Defines last name id ∨ (∀ other, ¬ Defines last name other) ∧ LastDefines lines name id := by
  constructor
  · rintro ⟨before, line, after, hlines, hline, hafter⟩
    rcases List.eq_nil_or_concat after with rfl | ⟨after, later, rfl⟩
    · obtain ⟨_, hlast⟩ := List.append_inj' hlines rfl
      cases hlast
      exact .inl hline
    · rw [List.concat_eq_append, ← List.cons_append, ← List.append_assoc] at hlines
      obtain ⟨rfl, hlast⟩ := List.append_inj' hlines rfl
      cases hlast
      simp only [List.concat_eq_append, List.mem_append, List.mem_singleton] at hafter
      exact .inr ⟨hafter last (.inr rfl), before, line, after, rfl, hline,
        fun later hlater => hafter later (.inl hlater)⟩
  · rintro (hlast | ⟨hlast, before, line, after, rfl, hline, hafter⟩)
    · exact ⟨lines, last, [], rfl, hlast, nofun⟩
    · refine ⟨before, line, after ++ [last], by simp, hline, fun later hlater => ?_⟩
      rcases List.mem_append.mp hlater with hlater | hlater
      · exact hafter later hlater
      · rw [List.mem_singleton.mp hlater]
        exact hlast

/-- Among the definitions that lines are read as, the last one of a name is what the last line that
defines it says. -/
theorem get?_definitions_eq_some_iff (hname : name ≠ "") :
    Entries.get? name (lines.filterMap definition?).reverse = some id ↔
      LastDefines lines name id := by
  -- Whether a line counts is decided by the lines behind it, so the last one is taken off.
  induction lines using List.reverseRecOn with
  | nil => simp [LastDefines]
  | append_singleton lines last ih =>
    have hdefines (other : String) : Defines last name other ↔
        definition? last = some (name, other) := by
      rw [definition?_eq_some_iff, and_iff_right hname]
    rw [lastDefines_append_singleton, ← ih, List.filterMap_append, List.reverse_append,
      Entries.get?_append]
    simp only [hdefines]
    cases hlast : definition? last with
    | none => simp [hlast]
    | some definition =>
      obtain ⟨other, otherId⟩ := definition
      by_cases hother : other = name
      · subst hother
        simp [hlast, Entries.get?_cons]
      · simp [hlast, Entries.get?_cons, hother]

/-- A name is among the definitions that lines are read as if it is not empty and a line defines
it. -/
theorem get?_definitions_eq_none_iff :
    Entries.get? name (lines.filterMap definition?).reverse = none ↔
      name = "" ∨ NoneDefines lines name := by
  have hkeys : name ∈ Entries.keys (lines.filterMap definition?).reverse ↔
      name ≠ "" ∧ ∃ line ∈ lines, ∃ id, Defines line name id := by
    simp only [Entries.keys, List.map_reverse, List.mem_reverse, List.mem_map, List.mem_filterMap]
    constructor
    · rintro ⟨⟨_, id⟩, ⟨line, hline, hread⟩, rfl⟩
      obtain ⟨hname, h⟩ := definition?_eq_some_iff.mp hread
      exact ⟨hname, line, hline, id, h⟩
    · rintro ⟨hname, line, hline, id, h⟩
      exact ⟨(name, id), ⟨line, hline, definition?_eq_some_iff.mpr ⟨hname, h⟩⟩, rfl⟩
  rw [← Option.not_isSome_iff_eq_none, ← Entries.mem_keys_iff_get?_isSome, hkeys, not_and_or,
    not_not]
  simp only [NoneDefines, not_exists, not_and]

/-- Merging several texts puts the definitions in all their lines. -/
theorem foldl_merge (t : Shortcuts) (texts : List String) :
    texts.foldl merge t = Entries.insertAll ((linesOf texts).filterMap definition?) t := by
  induction texts generalizing t with
  | nil => rfl
  | cons text texts ih =>
    rw [List.foldl_cons, ih, linesOf, linesOf, List.flatMap_cons, List.filterMap_append]
    simp only [merge, Entries.insertAll, List.foldl_append]

/-- A text with a line break behind it may be followed by another one in the same text. -/
theorem merge_append (t : Shortcuts) (a b : String) :
    merge t (a ++ "\n" ++ b) = merge (merge t a) b := by
  have hreturn (l : List Char) : definition? (l ++ ['\r']) = definition? l := by
    unfold definition?
    rw [Text.trim_append_blank rfl]
  have hlines : (Text.lines (a ++ "\n" ++ b).toList).filterMap definition? =
      (Text.lines a.toList).filterMap definition? ++
        (Text.lines b.toList).filterMap definition? := by
    have htext : (a ++ "\n" ++ b).toList = a.toList ++ '\n' :: b.toList := by simp
    rw [htext, Text.lines_append, List.filterMap_append,
      (Text.lines_append_newline a.toList).filterMap_eq rfl hreturn]
  rw [merge, hlines]
  simp only [merge, Entries.insertAll, List.foldl_append]

/-- Merging several texts one after the other, a name that is not empty resolves to the id in the
last of all their lines that defines it. A name that none defines resolves to what it did before,
and the empty name always does. A text with a line break behind it and another text may be merged
as one. -/
theorem resolve_merged :
    (∀ (t : Shortcuts) (texts : List String) (name id : String),
      (texts.foldl merge t).resolve name = id ↔
        (name ≠ "" ∧ LastDefines (linesOf texts) name id) ∨
          (name = "" ∨ NoneDefines (linesOf texts) name) ∧ t.resolve name = id) ∧
    (∀ (t : Shortcuts) (a b : String), merge (merge t a) b = merge t (a ++ "\n" ++ b)) ∧
    ∀ (t : Shortcuts) (texts : List String) (name : String), Entries.get? name t = none →
      NoneDefines (linesOf texts) name → (texts.foldl merge t).resolve name = name := by
  have hresolve (t : Shortcuts) (texts : List String) (name : String) :
      (texts.foldl merge t).resolve name =
        (Entries.get? name ((linesOf texts).filterMap definition?).reverse).getD
          (t.resolve name) := by
    rw [resolve, foldl_merge, Entries.get?_insertAll, resolve, Option.getD_or]
  refine ⟨fun t texts name id => ?_, fun t a b => (merge_append t a b).symm,
    fun t texts name ht hnone => ?_⟩
  · rw [hresolve]
    cases hfound : Entries.get? name ((linesOf texts).filterMap definition?).reverse with
    | none =>
      have hnone := get?_definitions_eq_none_iff.mp hfound
      rw [Option.getD_none, and_iff_right hnone]
      refine ⟨.inr, fun h => h.resolve_left fun ⟨hname, hlast⟩ => ?_⟩
      rw [(get?_definitions_eq_some_iff hname).mpr hlast] at hfound
      cases hfound
    | some found =>
      have hdefined : ¬ (name = "" ∨ NoneDefines (linesOf texts) name) := by
        rw [← get?_definitions_eq_none_iff, hfound]
        exact Option.some_ne_none found
      have hname : name ≠ "" := fun h => hdefined (.inl h)
      rw [Option.getD_some, ← get?_definitions_eq_some_iff hname, hfound, Option.some.injEq,
        and_iff_right hname, or_iff_left fun h => hdefined h.1]
  · rw [hresolve, get?_definitions_eq_none_iff.mpr (.inr hnone), resolve, ht]
    rfl

/-- The line `= x.D` would define the empty name, which still resolves to itself. -/
theorem resolve_merged_empty_name :
    LastDefines (linesOf ["= x.D"]) "" "x.D" ∧ (["= x.D"].foldl merge []).resolve "" = "" := by
  refine ⟨⟨[], "= x.D".toList, [], by decide, ⟨[], '=', " x.D".toList, by decide, rfl, nofun,
    by decide, by decide, by decide, by decide, by decide⟩, nofun⟩, by decide⟩

/-- Of two texts with a comment and a line without an id, the last line that defines `A` counts. -/
theorem resolve_merged_two_texts :
    let t : Shortcuts := [("B", "x.B")]
    let texts := ["A = x.A\r\n# A = x.C", " A : x.D=\nA = "]
    Entries.get? "C" t = none ∧ NoneDefines (linesOf texts) "C" ∧
      (texts.foldl merge t).resolve "C" = "C" ∧ LastDefines (linesOf texts) "A" "x.D=" := by
  intro t texts
  obtain ⟨hlast, _, hunknown⟩ := resolve_merged
  have ht : Entries.get? "C" t = none := rfl
  have hnone : NoneDefines (linesOf texts) "C" :=
    (get?_definitions_eq_none_iff.mp (by decide)).resolve_left (by decide)
  refine ⟨ht, hnone, hunknown t texts "C" ht hnone, ?_⟩
  have hresolved := (hlast t texts "A" "x.D=").mp (by decide)
  exact (hresolved.resolve_right fun h => absurd h.2 (by decide)).2

end Construct.Shortcuts

end TypedConfig
