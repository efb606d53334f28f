import Mathlib.Data.List.DropRight
import Mathlib.Data.List.Induction
import TypedConfig.Construct.Builtin.Texts
import TypedConfig.Libraries.Own
import TypedConfig.Proofs.Products

/-!
# Splitting undoes joining

A character without a meaning of its own in patterns matches itself and nothing else, so a text is
split at its occurrences. That is all that is asked of the library of regular expressions, and the
library that runs does so. Of the pieces in between, the empty ones at the end are lost: with them
goes a run of the character at the end of the text, and nothing else. Whether the pieces are trimmed
is decided after that.
-/

namespace TypedConfig

/-- A regular expression finds a character: its first match is the first occurrence of the
character, and its pieces stand between the occurrences. -/
structure Regex.FindsCharacter (regex : Regex) (c : Char) : Prop where
  first cs : regex.first? cs = if c ∈ cs then some (cs.idxOf c, 1) else none
  pieces cs : regex.pieces cs = cs.splitOn c

namespace Pattern

/-- The characters with a meaning of their own in patterns. -/
def isSpecial (c : Char) : Bool :=
  ['|', '(', ')', '[', '*', '+', '?', '{', '.', '^', '$', '\\'].contains c

/-- A character without a meaning of its own is read as itself. -/
theorem readParts_literal {c : Char} (h : isSpecial c = false) {level : Level}
    (hlayout : level.flags.layout = false) (fuel : Nat) (names : List (List Char))
    (outer : List Level) (rest : List Char) :
    readParts (fuel + 1) names level outer (c :: rest) =
      readParts fuel names { level with parts := literal level.flags c :: level.parts } outer
        rest := by
  have hskip : skipLayout level.flags (c :: rest) = c :: rest := by simp [skipLayout, hlayout]
  rw [readParts, hskip]
  split <;> simp_all [isSpecial]

/-- A character that is not special is a pattern for itself. -/
theorem read_singleton {c : Char} (h : isSpecial c = false) :
    read (String.singleton c) = some (literal {} c) := by
  rw [read, String.toList_singleton]
  exact readParts_literal h rfl 1 [] [] []

/-- Without characters there is no count. -/
theorem readCount_nil : readCount [] = none := by
  simp [readCount, readNumber]

/-- A brace asks for the bounds of a repetition. -/
theorem read_brace : read (String.singleton '{') = none := by
  have hskip : skipLayout {} ['{'] = ['{'] := rfl
  rw [read, String.toList_singleton, readParts, hskip]
  simp only [readCount_nil]

/-- The characters with a meaning of their own are those that are not read as themselves. -/
theorem read_singleton_iff {c : Char} :
    read (String.singleton c) = some (literal {} c) ↔ isSpecial c = false := by
  refine ⟨fun hread => ?_, read_singleton⟩
  by_contra hspecial
  rw [Bool.not_eq_false, isSpecial, List.contains_iff_mem] at hspecial
  simp only [List.mem_cons, List.not_mem_nil, or_false] at hspecial
  rcases hspecial with rfl | rfl | rfl | rfl | rfl | rfl | rfl | rfl | rfl | rfl | rfl | rfl
  -- The bounds behind a brace are no text, which does not show by computation.
  case inr.inr.inr.inr.inr.inr.inr.inl =>
    rw [read_brace] at hread
    cases hread
  all_goals cases hread

/-- A literal matches its own character only. -/
theorem ends_literal (c d : Char) (before : Option Char) (cs : List Char) :
    (literal {} c).ends ⟨before, d :: cs⟩ = if d == c then [⟨some d, cs⟩] else [] := by
  have hin : inRanges [(c.toNat, c.toNat)] d = (d == c) := by
    simp only [inRanges, List.any_cons, List.any_nil, Bool.or_false]
    rw [Bool.eq_iff_iff, Bool.and_eq_true, decide_eq_true_eq, decide_eq_true_eq, beq_iff_eq,
      ← Char.toNat_inj]
    omega
  simp [literal, setOf, ends, hin]

/-- The pieces of a text between the occurrences of a character. -/
theorem pieces_literal (c : Char) (piece : List Char) (fresh : Bool) (before : Option Char)
    (cs : List Char) :
    (literal {} c).pieces piece fresh ⟨before, cs⟩ = cs.splitOnPPrepend (· == c) piece := by
  induction cs generalizing piece fresh before with
  | nil =>
    rw [pieces]
    simp [literal, setOf, ends]
  | cons d cs ih =>
    rw [pieces, ends_literal, List.splitOnPPrepend_cons_eq_if]
    cases d == c with
    | true => simp [ih]
    | false => simp [ih]

/-- The first match of a character is where it occurs first. -/
theorem firstFrom_literal (c : Char) (before : Option Char) (passed : Nat) (cs : List Char) :
    (literal {} c).firstFrom before passed cs =
      if c ∈ cs then some (passed + cs.idxOf c, 1) else none := by
  induction cs generalizing before passed with
  | nil => rfl
  | cons d cs ih =>
    rw [firstFrom, ends_literal]
    by_cases hd : d = c
    · simp [hd]
    · have hpassed : passed + 1 + cs.idxOf c = passed + (d :: cs).idxOf c := by
        rw [List.idxOf_cons_ne cs hd]
        omega
      simp [hd, Ne.symm hd, ih, hpassed]

/-- The pattern of a character finds its occurrences. -/
theorem regex_findsCharacter (c : Char) : (literal {} c).regex.FindsCharacter c where
  first cs := by
    have hfirst := firstFrom_literal c none 0 cs
    rwa [Nat.zero_add] at hfirst
  pieces cs := pieces_literal c [] false none cs

end Pattern

/-- Libraries whose regular expressions find each character that has no meaning of its own in
patterns. -/
def Libraries.FindLiterals (libraries : Libraries) : Prop :=
  ∀ c, Pattern.isSpecial c = false →
    ∃ regex, libraries.regex (String.singleton c) = .ok regex ∧ regex.FindsCharacter c

/-- The patterns of this library find literal characters. -/
theorem Libraries.own_findLiterals : Libraries.own.FindLiterals := by
  intro c hc
  refine ⟨(Pattern.literal {} c).regex, ?_, Pattern.regex_findsCharacter c⟩
  simp only [own, Pattern.read_singleton hc]

namespace Text

/-- Where a character is found a text is cut wherever it occurs. The empty pieces at the end are
dropped, but a text without the character is one piece even if it is empty. -/
theorem split_at {regex : Regex} {c : Char} (h : regex.FindsCharacter c) (cs : List Char) :
    split regex cs = if c ∈ cs then (cs.splitOn c).rdropWhile List.isEmpty else cs.splitOn c := by
  rw [split, h.first]
  by_cases hc : c ∈ cs
  · rw [if_pos hc, if_pos hc, ← h.pieces]
    simp only [Nat.one_ne_zero, false_and, and_false, if_false]
    rfl
  · rw [if_neg hc, if_neg hc, List.splitOn_eq_singleton hc]

/-- To split at characters is to split the list. -/
theorem splitOn_eq_splitOnP (p : Char → Bool) (cs : List Char) : splitOn p cs = cs.splitOnP p := by
  induction cs with
  | nil => rfl
  | cons c cs ih =>
    rw [splitOn, List.splitOnP_cons_eq_if_modifyHead, ih]
    cases hpieces : cs.splitOnP p with
    | nil => exact absurd hpieces (List.splitOnP_ne_nil p cs)
    | cons piece pieces => rfl

section

variable {regex : Regex} {c : Char} {cs : List Char} {parts : List (List Char)}

/-- The parts of a text do not hold the delimiter. -/
theorem not_mem_of_mem_split (hregex : regex.FindsCharacter c) {part : List Char}
    (h : part ∈ split regex cs) : c ∉ part := by
  have hpart : part ∈ cs.splitOn c := by
    rw [split_at hregex] at h
    split at h
    · exact (List.rdropWhile_prefix _ _).subset h
    · exact h
  rw [List.splitOn_eq_splitOnP, ← splitOn_eq_splitOnP] at hpart
  intro hc
  have hne := eq_false_of_mem_splitOn hpart hc
  rw [beq_self_eq_true] at hne
  cases hne

/-- A text that holds the delimiter does not end in an empty part. -/
theorem getLast?_split_ne (hregex : regex.FindsCharacter c) (hc : c ∈ cs) :
    (split regex cs).getLast? ≠ some [] := by
  rw [split_at hregex, if_pos hc]
  intro hlast
  have hne : (cs.splitOn c).rdropWhile List.isEmpty ≠ [] := by
    intro hnil
    rw [hnil] at hlast
    cases hlast
  rw [List.getLast?_eq_getLast_of_ne_nil hne, Option.some_inj] at hlast
  exact List.rdropWhile_last_not List.isEmpty _ hne (List.isEmpty_iff.mpr hlast)

/-- One more piece is joined behind the others. -/
theorem intercalate_concat (hparts : parts ≠ []) (part : List Char) :
    [c].intercalate (parts ++ [part]) = [c].intercalate parts ++ c :: part := by
  induction parts with
  | nil => exact (hparts rfl).elim
  | cons first parts ih =>
    cases parts with
    | nil => simp
    | cons second parts =>
      rw [List.cons_append, List.cons_append, List.intercalate_cons_cons, ← List.cons_append,
        ih nofun, List.intercalate_cons_cons]
      simp

/-- With empty pieces at the end a run of the separator is lost. -/
theorem exists_intercalate_rdropWhile (c : Char) (parts : List (List Char)) :
    ∃ n, [c].intercalate parts =
      [c].intercalate (parts.rdropWhile List.isEmpty) ++ List.replicate n c := by
  induction parts using List.reverseRecOn with
  | nil => exact ⟨0, rfl⟩
  | append_singleton parts part ih =>
    by_cases hpart : part.isEmpty
    · rw [List.rdropWhile_concat_pos _ _ _ hpart, List.isEmpty_iff.mp hpart]
      by_cases hparts : parts = []
      · exact ⟨0, by simp [hparts]⟩
      · obtain ⟨n, hn⟩ := ih
        refine ⟨n + 1, ?_⟩
        rw [intercalate_concat hparts, hn, List.append_assoc, List.replicate_succ']
    · rw [List.rdropWhile_concat_neg _ _ _ hpart]
      exact ⟨0, by simp⟩

/-- What is joined and cannot be found again is a run of the separator at the end. -/
theorem exists_eq_intercalate_split (hregex : regex.FindsCharacter c) (cs : List Char) :
    ∃ n, cs = [c].intercalate (split regex cs) ++ List.replicate n c := by
  rw [split_at hregex]
  split
  · obtain ⟨n, hn⟩ := exists_intercalate_rdropWhile c (cs.splitOn c)
    exact ⟨n, (List.intercalate_splitOn c).symm.trans hn⟩
  · exact ⟨0, by simp [List.intercalate_splitOn]⟩

/-- Pieces that are joined are found again, if no empty one is last. -/
theorem split_intercalate (hregex : regex.FindsCharacter c) (hparts : parts ≠ [])
    (hfree : ∀ part ∈ parts, c ∉ part) (hlast : parts = [[]] ∨ parts.getLast? ≠ some []) :
    split regex ([c].intercalate parts) = parts := by
  rw [split_at hregex, List.splitOn_intercalate c hfree hparts]
  split
  next hc =>
    -- Nothing is dropped, since the last piece is not empty.
    refine List.rdropWhile_eq_self_iff.mpr fun hne hempty => ?_
    obtain rfl | hlast := hlast
    · simp at hc
    · exact hlast (by rw [List.getLast?_eq_getLast_of_ne_nil hne, List.isEmpty_iff.mp hempty])
  next => rfl

end

end Text

namespace Construct

namespace Builtin

/-- An array of texts is accepted where texts are asked for. -/
theorem accepts_strings (xs : List String) :
    (Kind.array .string).accepts (Value.strings xs) = true := by
  cases xs with
  | nil => rfl
  | cons x xs => simp [Value.strings, Kind.accepts]

/-- An array of texts stays as it is where texts are asked for. -/
theorem coerce_strings (xs : List String) :
    (Kind.array .string).coerce (Value.strings xs) = some (Value.strings xs) := by
  have haccepts := accepts_strings xs
  unfold Value.strings at haccepts ⊢
  rw [Kind.coerce, haccepts]
  rfl

/-- The texts of an array of texts are its items. -/
theorem strings?_strings (xs : List String) : (Value.strings xs).strings? = some xs := by
  unfold Value.strings Value.strings?
  simp only
  induction xs with
  | nil => rfl
  | cons x xs ih =>
    rw [List.map_cons, List.mapM_cons, ih]
    rfl

/-- Of the factories of a join only the one without a quote takes an array and a text. -/
theorem create_joinStrings (xs : List String) (delimiter : String) :
    create joinStrings [Value.strings xs, .string delimiter] =
      .ok ⟨joinStrings, { strings := xs, delimiter }⟩ := by
  have hstrings : Arguments.strings.run [Value.strings xs, .string delimiter] =
      .ok (xs, [.string delimiter]) := by
    simp only [Arguments.strings, Arguments.next, StateT.run, strings?_strings]
  have hlist : (Kind.object TypeId.list).accepts (Value.strings xs) = false := rfl
  have htext : Kind.string.accepts (.string delimiter) = true := rfl
  have hcoerce : Kind.string.coerce (.string delimiter) = some (.string delimiter) := rfl
  simp only [create, joinStrings, acceptsAll, coerceAll, List.filter_cons, List.filter_nil,
    accepts_strings, coerce_strings, hlist, htext, hcoerce, Bool.and_true, Bool.and_false,
    Bool.false_eq_true, if_true, if_false, Option.bind_eq_bind, Option.bind_some, Option.pure_def,
    StateT.run_bind, hstrings]
  rfl

/-- A splitter is created with a flag for trimming. -/
theorem create_stringSplitter (libraries : Libraries) (input delimiter : String)
    (trimmed : Bool) :
    create (stringSplitter libraries) [.string input, .string delimiter, .bool trimmed] =
      .ok ⟨stringSplitter libraries, ⟨input, delimiter, trimmed⟩⟩ := rfl

/-- Without a quote a text is joined as it is. -/
theorem joining_text (xs : List String) (delimiter : String) :
    Joining.text { strings := xs, delimiter } = delimiter.intercalate xs := by
  have hquoted (x : String) : Joining.quoted { strings := xs, delimiter } x = x := by
    simp [Joining.quoted, Text.replaceAll]
  rw [Joining.text, List.map_congr_left fun x _ => hquoted x, List.map_id']

section

variable {r : Registry} {type : String}

/-- Texts are joined by the delimiter. -/
theorem produces_join (hlookup : r.lookup type = .ok joinStrings) {xs : List String}
    {delimiter : String} (hxs : xs ≠ []) (hdelimiter : delimiter ≠ "") :
    r.Produces type [Value.strings xs, .string delimiter] (.string (delimiter.intercalate xs)) := by
  refine Registry.produces_of_finish hlookup (create_joinStrings xs delimiter) rfl ?_
  have hvalid : Joining.violations { strings := xs, delimiter } = [] := by
    simp [Joining.violations, notEmpty, hxs, hdelimiter]
  simp only [joinStrings, hvalid, joining_text]
  rfl

/-- A text is split where the delimiter matches. -/
theorem produces_split {libraries : Libraries}
    (hlookup : r.lookup type = .ok (stringSplitter libraries)) {delimiter : String} {regex : Regex}
    (hregex : libraries.regex delimiter = .ok regex) (s : String) (trimmed : Bool) :
    r.Produces type [.string s, .string delimiter, .bool trimmed]
      (Value.strings ((Text.split regex s.toList).map fun part =>
        String.ofList (if trimmed then Text.trim part else part))) := by
  refine Registry.produces_of_finish hlookup (create_stringSplitter _ s _ trimmed) rfl ?_
  simp only [stringSplitter, hregex]
  rfl

end

end Builtin

open Builtin

/-- Parts are joined as lists or as texts. -/
theorem ofList_intercalate (c : Char) (parts : List (List Char)) :
    String.ofList ([c].intercalate parts) =
      (String.singleton c).intercalate (parts.map String.ofList) := by
  rw [← String.toList_inj, String.toList_ofList, String.toList_intercalate, List.map_map]
  simp [Function.comp_def]

/-- Texts that are joined are found again. -/
theorem ofList_split_intercalate {regex : Regex} {c : Char} (hregex : regex.FindsCharacter c)
    {xs : List String} (hxs : xs ≠ []) (hfree : ∀ x ∈ xs, c ∉ x.toList)
    (hlast : xs = [""] ∨ xs.getLast? ≠ some "") :
    (Text.split regex ((String.singleton c).intercalate xs).toList).map String.ofList = xs := by
  have hsplit : Text.split regex ([c].intercalate (xs.map String.toList)) =
      xs.map String.toList := by
    refine Text.split_intercalate hregex (by simpa using hxs) ?_ (hlast.imp ?_ ?_)
    · intro part hpart
      obtain ⟨x, hx, rfl⟩ := List.mem_map.mp hpart
      exact hfree x hx
    · rintro rfl
      rfl
    · intro hne hempty
      rw [List.getLast?_map, Option.map_eq_some_iff] at hempty
      obtain ⟨x, hx, hnil⟩ := hempty
      rw [String.toList_eq_nil_iff.mp hnil] at hx
      exact hne hx
  rw [String.toList_intercalate, String.toList_singleton, hsplit, List.map_map]
  simp [Function.comp_def]

/-- At a character without a meaning of its own in patterns, a split takes a join apart into the
texts that were joined, unless an empty one is last and not the only one. The parts of any text do
not have the character, and joined by it they are the text again but for a run of the character at
its end; the last part is empty only where there is nothing to split. Trimming changes no more than
each part. The library is trusted to find the character where it occurs. -/
theorem Registry.split_and_join {libraries : Libraries} (hlibraries : libraries.FindLiterals)
    {r : Registry} {splitter joiner : String}
    (hsplitter : r.lookup splitter = .ok (stringSplitter libraries))
    (hjoiner : r.lookup joiner = .ok joinStrings) {c : Char} (hc : Pattern.isSpecial c = false) :
    (∀ xs : List String, xs ≠ [] → (∀ x ∈ xs, c ∉ x.toList) →
      (xs = [""] ∨ xs.getLast? ≠ some "") →
      ∃ joined,
        r.Produces joiner [Value.strings xs, .string (String.singleton c)] (.string joined) ∧
        r.Produces splitter [.string joined, .string (String.singleton c), .bool false]
          (Value.strings xs)) ∧
    ∀ s, ∃ parts : List String,
      r.Produces splitter [.string s, .string (String.singleton c), .bool false]
        (Value.strings parts) ∧
      r.Produces splitter [.string s, .string (String.singleton c), .bool true]
        (Value.strings (parts.map fun part => String.ofList (Text.trim part.toList))) ∧
      (∀ part ∈ parts, c ∉ part.toList) ∧
      (∃ n, s = (String.singleton c).intercalate parts ++ String.ofList (List.replicate n c)) ∧
      (c ∈ s.toList → parts.getLast? ≠ some "") ∧ (c ∉ s.toList → parts = [s]) := by
  obtain ⟨regex, hread, hfinds⟩ := hlibraries c hc
  refine ⟨fun xs hxs hfree hlast => ?_, fun s => ?_⟩
  · have hproduces : r.Produces splitter
        [.string ((String.singleton c).intercalate xs), .string (String.singleton c), .bool false]
        (Value.strings ((Text.split regex
          ((String.singleton c).intercalate xs).toList).map String.ofList)) :=
      produces_split hsplitter hread _ false
    rw [ofList_split_intercalate hfinds hxs hfree hlast] at hproduces
    exact ⟨_, produces_join hjoiner hxs (by simp), hproduces⟩
  · refine ⟨(Text.split regex s.toList).map String.ofList, ?_, ?_, ?_, ?_, ?_, ?_⟩
    · exact produces_split hsplitter hread s false
    · have hproduces := produces_split hsplitter hread s true
      simpa [Function.comp_def] using hproduces
    · intro part hpart
      obtain ⟨piece, hpiece, rfl⟩ := List.mem_map.mp hpart
      rw [String.toList_ofList]
      exact Text.not_mem_of_mem_split hfinds hpiece
    · obtain ⟨n, hn⟩ := Text.exists_eq_intercalate_split hfinds s.toList
      refine ⟨n, ?_⟩
      rw [← ofList_intercalate, ← String.ofList_append, ← hn, String.ofList_toList]
    · intro hmem hlast
      rw [List.getLast?_map, Option.map_eq_some_iff] at hlast
      obtain ⟨piece, hpiece, hempty⟩ := hlast
      rw [String.ofList_eq_empty_iff.mp hempty] at hpiece
      exact Text.getLast?_split_ne hfinds hmem hpiece
    · intro hmem
      rw [Text.split_at hfinds, if_neg hmem, List.splitOn_eq_singleton hmem]
      simp

/-- Where empty texts stand in front and inside, and where there is nothing but the delimiter. -/
theorem Registry.standard_split_and_join :
    let r := Registry.standard .own Shortcuts.builtin
    Libraries.own.FindLiterals ∧ r.lookup "StringSplitter" = .ok (stringSplitter .own) ∧
      r.lookup "JoinStrings" = .ok joinStrings ∧
      Pattern.isSpecial ';' = false ∧
      (∃ joined, r.Produces "JoinStrings" [Value.strings ["", " a", "", "b "], .string ";"]
          (.string joined) ∧
        r.Produces "StringSplitter" [.string joined, .string ";", .bool false]
          (Value.strings ["", " a", "", "b "])) ∧
      r.Produces "StringSplitter" [.string "", .string ";", .bool false] (Value.strings [""]) := by
  intro r
  have hsplitter : r.lookup "StringSplitter" = .ok (stringSplitter .own) :=
    Registry.lookup_of_resolve rfl rfl
  have hjoiner : r.lookup "JoinStrings" = .ok joinStrings := Registry.lookup_of_resolve rfl rfl
  have hc : Pattern.isSpecial ';' = false := by decide
  obtain ⟨hjoined, hparts⟩ := Registry.split_and_join Libraries.own_findLiterals hsplitter hjoiner hc
  have hround := hjoined ["", " a", "", "b "] nofun (by decide) (.inr (by decide))
  obtain ⟨parts, hproduces, _, _, _, _, hwhole⟩ := hparts ""
  rw [hwhole (by decide)] at hproduces
  exact ⟨Libraries.own_findLiterals, hsplitter, hjoiner, hc, hround, hproduces⟩

end Construct

end TypedConfig
