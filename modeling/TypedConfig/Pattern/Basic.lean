import TypedConfig.Pattern.Classes

/-!
# Patterns

Patterns describe pieces of a text. A pattern that is tried at a place has an ordered list of ends,
the preferred one first: of an alternative the first branch is preferred, of a greedy repetition
the longer run. The match of a pattern is the preferred one at the first place that has one.
-/

namespace TypedConfig

namespace Pattern

/-- A condition on the characters around a place. -/
inductive Anchor where
  | textStart
  | textEnd
  | lineStart
  | lineEnd
  | wordEdge
  | notWordEdge
  | wordStart
  | wordEnd
  | notAfterWord
  | notBeforeWord
  deriving DecidableEq, Repr

end Pattern

/-- A pattern. -/
inductive Pattern where
  | empty
  | set (ranges : Pattern.Ranges)
  | anchor (a : Pattern.Anchor)
  | seq (first second : Pattern)
  | either (first second : Pattern)
  | repeated (body : Pattern) (least : Nat) (most : Option Nat) (greedy : Bool)
  deriving Repr

namespace Pattern

/-- A place in a text: the character before it and the text after it. -/
structure Place where
  before : Option Char
  rest : List Char
  deriving DecidableEq, Repr

def isWord (c : Option Char) : Bool := (c.map (inRanges wordRanges)).getD false

/-- Whether a condition holds at a place. -/
def Anchor.holds (a : Anchor) (p : Place) : Bool :=
  match a with
  | .textStart => p.before.isNone
  | .textEnd => p.rest.isEmpty
  | .lineStart => p.before.isNone || p.before == some '\n'
  | .lineEnd => p.rest.isEmpty || p.rest.head? == some '\n'
  | .wordEdge => isWord p.before != isWord p.rest.head?
  | .notWordEdge => isWord p.before == isWord p.rest.head?
  | .wordStart => !isWord p.before && isWord p.rest.head?
  | .wordEnd => isWord p.before && !isWord p.rest.head?
  | .notAfterWord => !isWord p.before
  | .notBeforeWord => !isWord p.rest.head?

/-- Keeps the first of several equal places. -/
def distinct (ps : List Place) : List Place :=
  ps.foldr (fun p kept => p :: kept.filter fun q => q.rest.length != p.rest.length) []

/-- The ends of at most `rounds` repetitions; a round that takes nothing is the last one. -/
def rounds (ends : Place → List Place) (greedy : Bool) : Nat → Place → List Place
  | 0, p => [p]
  | n + 1, p =>
    let longer := (ends p).flatMap fun q =>
      if q.rest.length < p.rest.length then rounds ends greedy n q else [q]
    distinct (if greedy then longer ++ [p] else p :: longer)

/-- The ends of exactly `n` repetitions. -/
def exactly (ends : Place → List Place) : Nat → Place → List Place
  | 0, p => [p]
  | n + 1, p => distinct ((ends p).flatMap (exactly ends n))

/-- The ends of a pattern that is tried at a place, the preferred one first. -/
def ends : Pattern → Place → List Place
  | .empty, p => [p]
  | .set ranges, p =>
    match p.rest with
    | [] => []
    | c :: cs => if inRanges ranges c then [⟨some c, cs⟩] else []
  | .anchor a, p => if a.holds p then [p] else []
  | .seq a b, p => distinct ((a.ends p).flatMap b.ends)
  | .either a b, p => distinct (a.ends p ++ b.ends p)
  | .repeated body least most greedy, p =>
    distinct ((exactly body.ends least p).flatMap fun q =>
      rounds body.ends greedy
        (match most with | some m => m - least | none => q.rest.length + 1) q)

/-- The pieces of a text between the matches of a pattern. `piece` holds the characters since the
last match, newest first, and `fresh` tells that a match has ended at this place; a match that
takes nothing does not count there. -/
def pieces (pattern : Pattern) (piece : List Char) (fresh : Bool) (p : Place) : List (List Char) :=
  let skip : List (List Char) :=
    match _h : p.rest with
    | [] => [piece.reverse]
    | c :: cs => pieces pattern (c :: piece) false ⟨some c, cs⟩
  match (pattern.ends p).head? with
  | none => skip
  | some q =>
    if q.rest.length < p.rest.length then piece.reverse :: pieces pattern [] true q
    else if _hf : fresh = true then skip
    else piece.reverse :: pieces pattern [] true p
  termination_by (p.rest.length, if fresh then 0 else 1)
  decreasing_by all_goals simp_all [Prod.lex_def]

/-- The first match in a text, as the number of characters in front of it and the number of
characters that it takes; `passed` characters have been passed over. -/
def firstFrom (pattern : Pattern) (before : Option Char) (passed : Nat) (cs : List Char) :
    Option (Nat × Nat) :=
  match (pattern.ends ⟨before, cs⟩).head? with
  | some q => some (passed, cs.length - q.rest.length)
  | none =>
    match cs with
    | [] => none
    | c :: rest => firstFrom pattern (some c) (passed + 1) rest

end Pattern

end TypedConfig
