import TypedConfig.Pattern.Basic

/-!
# Reading patterns

The notation of patterns: literal characters, classes, groups, alternatives, repetitions, anchors,
and flags for case, lines, greed and layout. A text that breaks the notation is no pattern.
-/

namespace TypedConfig.Pattern

/-- The flags that hold at a place of a pattern. -/
structure Flags where
  ignoreCase : Bool := false
  multiLine : Bool := false
  dotAll : Bool := false
  swapGreed : Bool := false
  layout : Bool := false
  deriving DecidableEq, Repr

/-- The other cases of a character. -/
def otherCases (n : Nat) : List Nat :=
  if n = 0x4B ∨ n = 0x6B then [0x4B, 0x6B, 0x212A]
  else if n = 0x212A then [0x4B, 0x6B]
  else if n = 0x53 ∨ n = 0x73 then [0x53, 0x73, 0x17F]
  else if n = 0x17F then [0x53, 0x73]
  else if 0x41 ≤ n ∧ n ≤ 0x5A then [n + 32]
  else if 0x61 ≤ n ∧ n ≤ 0x7A then [n - 32]
  else if 0xC0 ≤ n ∧ n ≤ 0xDE ∧ n ≠ 0xD7 then [n + 32]
  else if 0xE0 ≤ n ∧ n ≤ 0xFE ∧ n ≠ 0xF7 then [n - 32]
  else if 0x391 ≤ n ∧ n ≤ 0x3A9 ∧ n ≠ 0x3A2 then [n + 32]
  else if 0x3B1 ≤ n ∧ n ≤ 0x3C9 ∧ n ≠ 0x3C2 then [n - 32]
  else if 0x410 ≤ n ∧ n ≤ 0x42F then [n + 32]
  else if 0x430 ≤ n ∧ n ≤ 0x44F then [n - 32]
  else if 0x400 ≤ n ∧ n ≤ 0x40F then [n + 80]
  else if 0x450 ≤ n ∧ n ≤ 0x45F then [n - 80]
  else []

/-- Ranges with the other cases of their characters, for ranges below the given size. -/
def withCases (ranges : Ranges) : Ranges :=
  ranges ++ ranges.flatMap fun (low, high) =>
    if high - low < 2000 then
      (List.range (high - low + 1)).flatMap fun i => (otherCases (low + i)).map fun m => (m, m)
    else []

/-- The set of some ranges under the flags. -/
def setOf (flags : Flags) (ranges : Ranges) : Pattern :=
  .set (if flags.ignoreCase then withCases ranges else ranges)

/-- The pattern of one character. -/
def literal (flags : Flags) (c : Char) : Pattern := setOf flags [(c.toNat, c.toNat)]

/-- The class of a letter after a backslash. -/
def classOf? : Char → Option Ranges
  | 'd' => some digitRanges
  | 'D' => some (complement digitRanges)
  | 's' => some spaceRanges
  | 'S' => some (complement spaceRanges)
  | 'w' => some wordRanges
  | 'W' => some (complement wordRanges)
  | _ => none

/-- The anchor of a character after a backslash. -/
def anchorOf? : Char → Option Anchor
  | 'A' => some .textStart
  | 'z' => some .textEnd
  | 'B' => some .notWordEdge
  | '<' => some .wordStart
  | '>' => some .wordEnd
  | _ => none

/-- The edge of a word that a name in braces chooses. -/
def edgeOf? (name : String) : Option Anchor :=
  if name = "start" then some .wordStart
  else if name = "end" then some .wordEnd
  else if name = "start-half" then some .notAfterWord
  else if name = "end-half" then some .notBeforeWord
  else none

/-- The edge of a word after its letter, and the text after it. A name in braces may follow. -/
def readEdge (cs : List Char) : Option (Anchor × List Char) :=
  match cs with
  | '{' :: rest =>
    let name := rest.takeWhile fun c => c.isAlpha || c == '-'
    if name.isEmpty then some (.wordEdge, cs)
    else
      match rest.drop name.length with
      | '}' :: after => (edgeOf? (String.ofList name)).map fun edge => (edge, after)
      | _ => none
  | _ => some (.wordEdge, cs)

/-- The anchor that begins after a backslash, and the text after it. -/
def readAnchor (c : Char) (cs : List Char) : Option (Anchor × List Char) :=
  if c == 'b' then readEdge cs else (anchorOf? c).map fun edge => (edge, cs)

def hexOf? (c : Char) : Option Nat :=
  let n := c.toNat
  if 48 ≤ n && n ≤ 57 then some (n - 48)
  else if 97 ≤ n && n ≤ 102 then some (n - 87)
  else if 65 ≤ n && n ≤ 70 then some (n - 55)
  else none

/-- The code point of hexadecimal digits. -/
def codeOf? (ds : List Char) : Option Char := do
  if ds.isEmpty then none
  let n ← ds.foldlM (fun n c => (hexOf? c).map (16 * n + ·)) 0
  if h : n.isValidChar then some (Char.ofNatAux n h) else none

/-- A code point written with `n` digits or with any number of digits in braces. -/
def readCode (n : Nat) (cs : List Char) : Option (Char × List Char) :=
  match cs with
  | '{' :: rest =>
    match rest.dropWhile (· != '}') with
    | '}' :: after => (codeOf? (rest.takeWhile (· != '}'))).map fun c => (c, after)
    | _ => none
  | _ => if cs.length < n then none else (codeOf? (cs.take n)).map fun c => (c, cs.drop n)

def isAlphanumeric (c : Char) : Bool := c.isAlpha || c.isDigit

/-- The character that an escape stands for, and the text after it. -/
def readEscape (c : Char) (cs : List Char) : Option (Char × List Char) :=
  match c with
  | 'n' => some ('\n', cs)
  | 't' => some ('\t', cs)
  | 'r' => some ('\r', cs)
  | 'a' => some (Char.ofNat 7, cs)
  | 'f' => some (Char.ofNat 12, cs)
  | 'v' => some (Char.ofNat 11, cs)
  | 'x' => readCode 2 cs
  | 'u' => readCode 4 cs
  | 'U' => readCode 8 cs
  | _ => if c.toNat < 128 && !isAlphanumeric c && c != '<' && c != '>' then some (c, cs) else none

/-- The named classes of characters in brackets. -/
def namedClass? (name : List Char) : Option Ranges :=
  match String.ofList name with
  | "alnum" => some [(48, 57), (65, 90), (97, 122)]
  | "alpha" => some [(65, 90), (97, 122)]
  | "ascii" => some [(0, 127)]
  | "blank" => some [(9, 9), (32, 32)]
  | "cntrl" => some [(0, 31), (127, 127)]
  | "digit" => some [(48, 57)]
  | "graph" => some [(33, 126)]
  | "lower" => some [(97, 122)]
  | "print" => some [(32, 126)]
  | "punct" => some [(33, 47), (58, 64), (91, 96), (123, 126)]
  | "space" => some [(9, 13), (32, 32)]
  | "upper" => some [(65, 90)]
  | "word" => some [(48, 57), (65, 90), (95, 95), (97, 122)]
  | "xdigit" => some [(48, 57), (65, 70), (97, 102)]
  | _ => none

/-- A named class after its opening bracket and colon, and the text after it. -/
def readNamedClass (cs : List Char) : Option (Ranges × List Char) := do
  let (negated, cs) := match cs with
    | '^' :: rest => (true, rest)
    | _ => (false, cs)
  let ranges ← namedClass? (cs.takeWhile Char.isAlpha)
  match cs.dropWhile Char.isAlpha with
  | ':' :: ']' :: rest => some (if negated then complement ranges else ranges, rest)
  | _ => none

/-- One end of a range in brackets: a character, or a class with no end of its own. -/
def readBracketItem (cs : List Char) : Option ((Char ⊕ Ranges) × List Char) :=
  match cs with
  | [] => none
  | '\\' :: c :: rest =>
    match classOf? c with
    | some ranges => some (.inr ranges, rest)
    | none => (readEscape c rest).map fun (c, rest) => (.inl c, rest)
  | ['\\'] => none
  | c :: rest => some (.inl c, rest)

/-- The ways in which two sets are joined. -/
inductive Joint where
  | inBoth
  | inLeftOnly
  | inOneOnly
  deriving DecidableEq, Repr

/-- The set that two joined sets are. -/
def Joint.join (joint : Joint) (left right : Ranges) : Ranges :=
  match joint with
  | .inBoth => intersect left right
  | .inLeftOnly => intersect left (complement right)
  | .inOneOnly => intersect left (complement right) ++ intersect right (complement left)

/-- The sign that joins two sets in brackets, and the text after it. -/
def readJoint : List Char → Option (Joint × List Char)
  | '&' :: '&' :: rest => some (.inBoth, rest)
  | '-' :: '-' :: rest => some (.inLeftOnly, rest)
  | '~' :: '~' :: rest => some (.inOneOnly, rest)
  | _ => none

/-- A set in brackets that is being read: the joined sets before the current one, and the ranges of
the current one. -/
structure Bracket where
  before : Option (Ranges × Joint) := none
  ranges : Ranges := []

namespace Bracket

def add (b : Bracket) (ranges : Ranges) : Bracket := { b with ranges := b.ranges ++ ranges }

/-- The set that has been read. -/
def close (flags : Flags) (b : Bracket) : Ranges :=
  let ranges := if flags.ignoreCase then withCases b.ranges else b.ranges
  match b.before with
  | none => ranges
  | some (left, joint) => joint.join left ranges

end Bracket

/-- The beginning of a set in brackets: whether it is the complement that counts, the hyphens or
the closing bracket that stand for themselves there, and the text after them. -/
def readBracketStart (cs : List Char) : Bool × Bracket × List Char :=
  let (negated, cs) := match cs with
    | '^' :: rest => (true, rest)
    | _ => (false, cs)
  match cs with
  | '-' :: rest => (negated, { ranges := [(45, 45)] }, rest.dropWhile (· == '-'))
  | ']' :: rest => (negated, { ranges := [(93, 93)] }, rest)
  | _ => (negated, {}, cs)

/-- Drops the layout between the parts of a pattern, if the flags allow layout. -/
def skipLayout (flags : Flags) : List Char → List Char
  | [] => []
  | c :: cs =>
    if flags.layout && inRanges spaceRanges c then skipLayout flags cs
    else if flags.layout && c == '#' then skipComment flags cs
    else c :: cs
where
  /-- Drops a comment and the layout after it. -/
  skipComment (flags : Flags) : List Char → List Char
    | [] => []
    | c :: cs => if c == '\n' then skipLayout flags cs else skipComment flags cs

/-- A range or a single character or class in brackets, and the text after it. -/
def readRange (cs : List Char) : Option (Ranges × List Char) := do
  let (low, rest) ← readBracketItem cs
  let single : Ranges := match low with
    | .inl c => [(c.toNat, c.toNat)]
    | .inr ranges => ranges
  match rest with
  | '-' :: c :: after =>
    if c == ']' || c == '-' then return (single, rest)
    let (high, rest) ← readBracketItem (c :: after)
    match low, high with
    | .inl low, .inl high =>
      if high.toNat < low.toNat then none else return ([(low.toNat, high.toNat)], rest)
    | _, _ => none
  | _ => return (single, rest)

/-- The set in brackets from a place after its beginning, and the text after it. `fuel` bounds the
number of steps. -/
def readBracket (flags : Flags) : Nat → Bracket → List Char → Option (Ranges × List Char)
  | 0, _, _ => none
  | fuel + 1, b, cs =>
    match skipLayout flags cs with
    | [] => none
    | ']' :: rest => some (b.close flags, rest)
    | '[' :: rest =>
      let named := match rest with
        | ':' :: rest => readNamedClass rest
        | _ => none
      match named with
      | some (ranges, rest) => readBracket flags fuel (b.add ranges) rest
      | none => do
        let (negated, inner, rest) := readBracketStart rest
        let (ranges, rest) ← readBracket flags fuel inner rest
        readBracket flags fuel (b.add (if negated then complement ranges else ranges)) rest
    | cs =>
      match readJoint cs with
      | some (joint, rest) => readBracket flags fuel { before := some (b.close flags, joint) } rest
      | none => do
        let (ranges, rest) ← readRange cs
        readBracket flags fuel (b.add ranges) rest

/-- The set in brackets after the opening bracket. -/
def readSet (flags : Flags) (fuel : Nat) (cs : List Char) : Option (Pattern × List Char) := do
  let (negated, b, rest) := readBracketStart cs
  let (ranges, rest) ← readBracket flags fuel b rest
  return (.set (if negated then complement ranges else ranges), rest)

/-- A number that fits into 32 bits, with white space around it, and the text after it. -/
def readNumber (cs : List Char) : Option Nat × List Char :=
  let isSpace := inRanges spaceRanges
  let cs := cs.dropWhile isSpace
  let digits := cs.takeWhile Char.isDigit
  ((String.ofList digits).toNat?.filter (· < Nat.pow 2 32),
    (cs.drop digits.length).dropWhile isSpace)

/-- The bounds of a counted repetition after its opening brace, and the text after it. -/
def readCount (cs : List Char) : Option ((Nat × Option Nat) × List Char) := do
  let (least, rest) := readNumber cs
  let least ← least
  match rest with
  | '}' :: rest => return ((least, some least), rest)
  | ',' :: '}' :: rest => return ((least, none), rest)
  | ',' :: rest =>
    let (most, rest) := readNumber rest
    let most ← most
    match rest with
    | '}' :: rest => if least ≤ most then return ((least, some most), rest) else none
    | _ => none
  | _ => none

/-- Switches the flag of a letter. The classes are always those of all characters. -/
def switchFlag (on : Bool) (flags : Flags) : Char → Option Flags
  | 'i' => some { flags with ignoreCase := on }
  | 'm' => some { flags with multiLine := on }
  | 's' => some { flags with dotAll := on }
  | 'U' => some { flags with swapGreed := on }
  | 'x' => some { flags with layout := on }
  | 'u' => if on then some flags else none
  | _ => none

/-- The flags that letters switch on, or off after a minus sign, and the text after them. No letter
and no sign may be there twice, and the sign not without a letter after it. -/
def readFlags (flags : Flags) (cs : List Char) : Option (Flags × List Char) := do
  let letters := cs.takeWhile fun c => c != ':' && c != ')'
  let on := letters.takeWhile (· != '-')
  let off := letters.drop on.length
  if off == ['-'] || letters.eraseDups.length != letters.length then none
  else
    let flags ← on.foldlM (switchFlag true) flags
    let flags ← (off.drop 1).foldlM (switchFlag false) flags
    return (flags, cs.drop letters.length)

/-- Whether a text is the name of a group. -/
def isGroupName (cs : List Char) : Bool :=
  match cs with
  | [] => false
  | c :: rest => (c.isAlpha || c == '_') && rest.all fun c =>
      isAlphanumeric c || c == '_' || c == '.' || c == '[' || c == ']'

/-- What stands after the opening parenthesis of a group: flags for the rest of the group around
it, or the flags of the group and its name. -/
inductive GroupStart where
  | flagsOnly (flags : Flags)
  | group (flags : Flags) (name : Option (List Char))

/-- The beginning of a group, and the text after it. -/
def readGroupStart (flags : Flags) (cs : List Char) : Option (GroupStart × List Char) :=
  match cs with
  | '?' :: 'P' :: '<' :: rest => named rest
  | '?' :: '<' :: rest => named rest
  | '?' :: ')' :: _ => none
  | '?' :: rest =>
    match readFlags flags rest with
    | some (flags, ':' :: rest) => some (.group flags none, rest)
    | some (flags, ')' :: rest) => some (.flagsOnly flags, rest)
    | _ => none
  | _ => some (.group flags none, cs)
where
  /-- A group with a name. -/
  named (rest : List Char) : Option (GroupStart × List Char) :=
    let name := rest.takeWhile (· != '>')
    match rest.drop name.length with
    | '>' :: after => if isGroupName name then some (.group flags (some name), after) else none
    | _ => none

/-- A group or a pattern that is still open: the branches before the current one, newest first, and
the parts of the current branch, newest first. -/
structure Level where
  flags : Flags
  branches : List Pattern
  parts : List Pattern

/-- The sequence of some parts, newest first. -/
def sequence : List Pattern → Pattern
  | [] => .empty
  | part :: parts => parts.foldl (fun later earlier => .seq earlier later) part

/-- The pattern of a level that ends. -/
def Level.close (level : Level) : Pattern :=
  level.branches.foldl (fun later earlier => .either earlier later) (sequence level.parts)

/-- Repeats the last part of a level. A sign for greed may follow. -/
def repeatLast (level : Level) (least : Nat) (most : Option Nat) (cs : List Char) :
    Option (Level × List Char) :=
  match level.parts with
  | [] => none
  | part :: parts =>
    let (greedy, rest) := match cs with
      | '?' :: rest => (level.flags.swapGreed, rest)
      | _ => (!level.flags.swapGreed, cs)
    some ({ level with parts := .repeated part least most greedy :: parts }, rest)

/-- The dot under the flags. -/
def dot (flags : Flags) : Pattern :=
  if flags.dotAll then .set [(0, lastCode)] else .set [(0, 9), (11, lastCode)]

/-- Reads a pattern from the text that is left, with the names of the groups so far and the open
levels, innermost first. A change of flags is no part, so it cannot be repeated. -/
def readParts : Nat → List (List Char) → Level → List Level → List Char → Option Pattern
  | 0, _, _, _, _ => none
  | fuel + 1, names, level, outer, cs =>
    let add (part : Pattern) (rest : List Char) : Option Pattern :=
      readParts fuel names { level with parts := part :: level.parts } outer rest
    let repeated (least : Nat) (most : Option Nat) (rest : List Char) : Option Pattern :=
      match repeatLast level least most rest with
      | some (level, rest) => readParts fuel names level outer rest
      | none => none
    match skipLayout level.flags cs with
    | [] => if outer.isEmpty then some level.close else none
    | '|' :: rest =>
      readParts fuel names
        { level with branches := sequence level.parts :: level.branches, parts := [] } outer rest
    | '(' :: rest =>
      match readGroupStart level.flags rest with
      | none => none
      | some (.flagsOnly flags, rest) =>
        if (rest.head?.map "*+?\x7b".toList.contains).getD false then none
        else readParts fuel names { level with flags } outer rest
      | some (.group flags none, rest) => readParts fuel names ⟨flags, [], []⟩ (level :: outer) rest
      | some (.group flags (some name), rest) =>
        if names.contains name then none
        else readParts fuel (name :: names) ⟨flags, [], []⟩ (level :: outer) rest
    | ')' :: rest =>
      match outer with
      | [] => none
      | up :: outer => readParts fuel names { up with parts := level.close :: up.parts } outer rest
    | '[' :: rest =>
      match readSet level.flags (rest.length + 1) rest with
      | some (part, rest) => add part rest
      | none => none
    | '*' :: rest => repeated 0 none rest
    | '+' :: rest => repeated 1 none rest
    | '?' :: rest => repeated 0 (some 1) rest
    | '{' :: rest =>
      match readCount rest with
      | some ((least, most), rest) => repeated least most rest
      | none => none
    | '.' :: rest => add (dot level.flags) rest
    | '^' :: rest => add (.anchor (if level.flags.multiLine then .lineStart else .textStart)) rest
    | '$' :: rest => add (.anchor (if level.flags.multiLine then .lineEnd else .textEnd)) rest
    | ['\\'] => none
    | '\\' :: c :: rest =>
      match classOf? c with
      | some ranges => add (setOf level.flags ranges) rest
      | none =>
        match readAnchor c rest with
        | some (edge, rest) => add (.anchor edge) rest
        | none =>
          match readEscape c rest with
          | some (c, rest) => add (literal level.flags c) rest
          | none => none
    | c :: rest => add (literal level.flags c) rest

/-- The pattern that a text stands for. -/
def read (text : String) : Option Pattern :=
  let cs := text.toList
  readParts (cs.length + 1) [] ⟨{}, [], []⟩ [] cs

end TypedConfig.Pattern
