import TypedConfig.File.Tree

/-!
# Programs

The programs that a machine offers to command lines. A program is a function from its arguments
and the file tree to what it prints, its exit status, and the file tree that it leaves.
-/

namespace TypedConfig.Run

/-- What a program has done. -/
structure Outcome where
  output : List UInt8
  status : Nat
  tree : File.Tree

/-- A program, by its arguments and the file tree it works in. -/
abbrev Program := List String → File.Tree → Outcome

namespace Program

/-- The bytes of a text. -/
def bytesOf (s : String) : List UInt8 := s.toUTF8.toList

/-- Prints a text and changes nothing. -/
def prints (text : String) (tree : File.Tree) : Outcome := ⟨bytesOf text, 0, tree⟩

/-- The value of up to `limit` digits of a base, and the rest. -/
def takeCode (base limit : Nat) (value : Nat) : List Char → Nat × List Char
  | [] => (value, [])
  | c :: cs =>
    match limit with
    | 0 => (value, c :: cs)
    | limit + 1 =>
      let digit :=
        if c.isDigit then c.toNat - '0'.toNat
        else if 'a' ≤ c ∧ c ≤ 'f' then c.toNat - 'a'.toNat + 10
        else if 'A' ≤ c ∧ c ≤ 'F' then c.toNat - 'A'.toNat + 10
        else base
      if digit < base then takeCode base limit (value * base + digit) cs else (value, c :: cs)

/-- The character that a letter after a backslash stands for. -/
def escapeOf? : Char → Option Nat
  | '\\' => some 92
  | 'a' => some 7
  | 'b' => some 8
  | 'e' => some 27
  | 'f' => some 12
  | 'n' => some 10
  | 'r' => some 13
  | 't' => some 9
  | 'v' => some 11
  | _ => none

/-- The bytes of a text with backslash escapes; `fuel` bounds the number of steps. An octal code
begins with a zero if `zero` says so. -/
def unescape (zero : Bool) : Nat → List Char → List UInt8
  | 0, _ => []
  | _ + 1, [] => []
  | fuel + 1, '\\' :: c :: cs =>
    if c == 'x' then
      let (code, rest) := takeCode 16 2 0 cs
      code.toUInt8 :: unescape zero fuel rest
    else if zero && c == '0' then
      let (code, rest) := takeCode 8 3 0 cs
      code.toUInt8 :: unescape zero fuel rest
    else if !zero && '0' ≤ c && c ≤ '7' then
      let (code, rest) := takeCode 8 3 0 (c :: cs)
      code.toUInt8 :: unescape zero fuel rest
    else
      match escapeOf? c with
      | some code => code.toUInt8 :: unescape zero fuel cs
      | none => bytesOf (String.ofList ['\\', c]) ++ unescape zero fuel cs
  | fuel + 1, c :: cs => bytesOf (String.singleton c) ++ unescape zero fuel cs

/-- Whether an argument consists of some of the given option letters. -/
def isOption (letters : String) (argument : String) : Bool :=
  match argument.toList with
  | '-' :: cs => !cs.isEmpty && cs.all letters.toList.contains
  | _ => false

/-- Whether one of the arguments has an option letter. -/
def hasOption (letter : Char) (options : List String) : Bool :=
  options.any fun o => o.toList.contains letter

/-- Prints its arguments with spaces between them. -/
def echo : Program := fun arguments tree =>
  let options := arguments.takeWhile (isOption "neE")
  let text := " ".intercalate (arguments.dropWhile (isOption "neE"))
  let escaped := (options.flatMap String.toList).reverse.find? fun c => c == 'e' || c == 'E'
  let bytes :=
    if escaped == some 'e' then unescape true text.length text.toList else bytesOf text
  ⟨bytes ++ (if hasOption 'n' options then [] else [10]), 0, tree⟩

/-- One pass of a format over some arguments, and the arguments that are left. -/
def formatOnce : Nat → List Char → List String → List UInt8 × List String
  | 0, _, arguments => ([], arguments)
  | _ + 1, [], arguments => ([], arguments)
  | fuel + 1, '%' :: c :: cs, arguments =>
    if c == '%' then
      let (bytes, rest) := formatOnce fuel cs arguments
      (37 :: bytes, rest)
    else
      let argument := arguments.headD (if c == 'd' || c == 'i' then "0" else "")
      let (bytes, rest) := formatOnce fuel cs (arguments.drop 1)
      (bytesOf argument ++ bytes, rest)
  | fuel + 1, cs, arguments =>
    let piece := cs.takeWhile (· != '%')
    if piece.isEmpty then (bytesOf (String.ofList cs), arguments)
    else
      let (bytes, rest) := formatOnce fuel (cs.drop piece.length) arguments
      (unescape false piece.length piece ++ bytes, rest)

/-- Goes through a format until no argument is left. -/
def formatAll (format : List Char) : Nat → List String → List UInt8
  | 0, _ => []
  | fuel + 1, arguments =>
    let (bytes, rest) := formatOnce (format.length + 1) format arguments
    if rest.isEmpty || rest.length == arguments.length then bytes
    else bytes ++ formatAll format fuel rest

/-- Prints its arguments in a format. -/
def printf : Program := fun arguments tree =>
  match arguments with
  | [] => ⟨[], 1, tree⟩
  | format :: rest => ⟨formatAll format.toList (rest.length + 1) rest, 0, tree⟩

/-- Prints files one after the other. -/
def cat : Program := fun arguments tree =>
  let contents := arguments.map fun path => (tree.bytes path).toOption
  ⟨contents.flatMap fun content => (content.map ByteArray.toList).getD [],
    if contents.all Option.isSome then 0 else 1, tree⟩

/-- Prints the working directory. -/
def pwd : Program := fun _ tree => prints (File.Path.ofNames tree.working ++ "\n") tree

/-- Lines, each of them with a line break. -/
def linesText (lines : List String) : String := String.join (lines.map (· ++ "\n"))

/-- Lists the names in directories. -/
def ls : Program := fun arguments tree =>
  let options := arguments.filter (isOption "aA1")
  let paths := (arguments.filter (!isOption "aA1" ·)).mergeSort fun a b => decide (a ≤ b)
  let shows (name : String) : Bool := !name.startsWith "." || hasOption 'A' options
  let listing (path : String) : List String :=
    if hasOption 'a' options then "." :: ".." :: ((tree.names path).toOption.getD [])
    else ((tree.names path).toOption.getD []).filter shows
  let files := paths.filter tree.isFile
  let directories := paths.filter tree.isDirectory
  let missing := paths.any (!tree.holds ·)
  let text :=
    match paths with
    | [] => linesText (listing ".")
    | [path] => linesText (if tree.isDirectory path then listing path else files)
    | _ =>
      "\n".intercalate ((if files.isEmpty then [] else [linesText files]) ++
        directories.map fun path => path ++ ":\n" ++ linesText (listing path))
  ⟨bytesOf text, if missing then 2 else 0, tree⟩

/-- Makes the files that are missing. -/
def touch : Program := fun arguments tree =>
  arguments.foldl
    (fun done path =>
      if done.tree.holds path then done
      else
        match done.tree.write path ByteArray.empty with
        | .ok made => { done with tree := made }
        | .error _ => { done with status := 1 })
    ⟨[], 0, tree⟩

/-- Makes directories, and with an option the ones above them. -/
def mkdir : Program := fun arguments tree =>
  let forced := arguments.any (isOption "p")
  (arguments.filter (!isOption "p" ·)).foldl
    (fun done path =>
      if forced then { done with tree := (done.tree.forceDirectory path).1 }
      else
        match done.tree.makeDirectory path with
        | .ok made => { done with tree := made }
        | .error _ => { done with status := 1 })
    ⟨[], 0, tree⟩

/-- The program with a name. -/
def named? : String → Option Program
  | "echo" => some echo
  | "printf" => some printf
  | "cat" => some cat
  | "pwd" => some pwd
  | "ls" => some ls
  | "touch" => some touch
  | "mkdir" => some mkdir
  | "true" => some fun _ tree => ⟨[], 0, tree⟩
  | "false" => some fun _ tree => ⟨[], 1, tree⟩
  | "sleep" => some fun _ tree => ⟨[], 0, tree⟩
  | _ => none

end Program

end TypedConfig.Run
