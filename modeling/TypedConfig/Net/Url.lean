import TypedConfig.Net.Host
import TypedConfig.Text.Decoding

/-!
# URLs

Absolute URLs in their normal form: scheme and domain in lower case, default ports left out, dot
segments resolved, and characters that may not stand in a part encoded. The special schemes have
a host and a path that begins with a slash.
-/

namespace TypedConfig.Net

/-- The user, the host and the port of a URL. -/
structure Authority where
  user : List Char
  password : List Char
  host : List Char
  port : Option Nat
  deriving DecidableEq, Repr

/-- A path of segments, or a text that is not cut into segments. -/
inductive UrlPath where
  | segments (parts : List (List Char))
  | opaqueText (text : List Char)
  deriving DecidableEq, Repr

/-- A URL in its normal form. -/
structure Url where
  scheme : List Char
  authority : Option Authority
  path : UrlPath
  query : Option (List Char)
  fragment : Option (List Char)
  deriving DecidableEq, Repr

namespace Url

def isAlpha (c : Char) : Bool := ('a' ≤ c && c ≤ 'z') || ('A' ≤ c && c ≤ 'Z')

def isSchemeChar (c : Char) : Bool :=
  isAlpha c || Address.isDigit c || c == '+' || c == '-' || c == '.'

/-- The default port of a special scheme other than `file`. -/
def defaultPort? (scheme : List Char) : Option Nat :=
  match String.ofList scheme with
  | "http" => some 80
  | "https" => some 443
  | "ws" => some 80
  | "wss" => some 443
  | "ftp" => some 21
  | _ => none

def isFile (scheme : List Char) : Bool := scheme == "file".toList

def isSpecial (scheme : List Char) : Bool := (defaultPort? scheme).isSome || isFile scheme

/-- The characters that are encoded in a fragment. -/
def inFragment (c : Char) : Bool := isControl c || " \"<>`".toList.contains c

/-- The characters that are encoded in a path. -/
def inPath (c : Char) : Bool := inFragment c || "#?\x7b\x7d".toList.contains c

/-- The characters that are encoded in a user name or a password. -/
def inUser (c : Char) : Bool := inPath c || "/:;=@[\\]^|".toList.contains c

/-- The characters that are encoded in a query. -/
def inQuery (special : Bool) (c : Char) : Bool :=
  isControl c || " \"#<>".toList.contains c || (special && c == '\'')

/-- A text without control characters and blanks at its ends, and without tabs and line breaks. -/
def clean (cs : List Char) : List Char :=
  let blank (c : Char) : Bool := c.toNat ≤ 0x20
  (Text.dropWhileEnd blank (cs.dropWhile blank)).filter fun c => c != '\t' && c != '\n' && c != '\r'

/-- Whether a character separates the segments of a path. -/
def isSlash (special : Bool) (c : Char) : Bool := c == '/' || (special && c == '\\')

/-- Whether a segment stands for the directory itself. -/
def isDot (segment : List Char) : Bool :=
  [".", "%2e"].contains (String.ofList (segment.map Char.toLower))

/-- Whether a segment stands for the directory above. -/
def isDotDot (segment : List Char) : Bool :=
  ["..", ".%2e", "%2e.", "%2e%2e"].contains (String.ofList (segment.map Char.toLower))

/-- Whether a segment is the letter of a drive with a colon or a bar after it. -/
def isDrive : List Char → Bool
  | [c, d] => isAlpha c && (d == ':' || d == '|')
  | _ => false

/-- Takes the last segment off, unless it is a drive. -/
def dropSegment : List (List Char) → List (List Char)
  | [] => []
  | segment :: before => if isDrive segment then segment :: before else before

/-- Resolves the dot segments of a path; the segments before are given newest first. -/
def resolveDots (before : List (List Char)) : List (List Char) → List (List Char)
  | [] => before.reverse
  | [last] =>
    if isDotDot last then (([] : List Char) :: dropSegment before).reverse
    else if isDot last then (([] : List Char) :: before).reverse
    else (last :: before).reverse
  | segment :: rest =>
    if isDotDot segment then resolveDots (dropSegment before) rest
    else if isDot segment then resolveDots before rest
    else resolveDots (segment :: before) rest

/-- The segments of a path, which begins with a separator unless it is empty. -/
def pathSegments (special : Bool) (cs : List Char) : List (List Char) :=
  match cs with
  | [] => if special then [[]] else []
  | c :: rest =>
    let body := if isSlash special c then rest else cs
    resolveDots [] ((Text.splitOn (isSlash special) body).map (percentEncode inPath))

/-- Leaves out the empty segments at the beginning of a path. -/
def dropEmpty : List (List Char) → List (List Char)
  | [] :: segment :: rest => dropEmpty (segment :: rest)
  | segments => segments

/-- The segments of the path of a file. A drive at the beginning has a colon. -/
def fileSegments (cs : List Char) : List (List Char) :=
  match dropEmpty (pathSegments true cs) with
  | [c, d] :: rest => (if isDrive [c, d] then [c, ':'] else [c, d]) :: rest
  | segments => segments

/-- Splits a text at the first character that satisfies `p`; the character is dropped. -/
def cut (p : Char → Bool) (cs : List Char) : List Char × Option (List Char) :=
  match cs.dropWhile (!p ·) with
  | [] => (cs, none)
  | _ :: rest => (cs.takeWhile (!p ·), some rest)

/-- Splits a text at the last at sign. -/
def cutUser (cs : List Char) : Option (List Char) × List Char :=
  match cut (· == '@') cs.reverse with
  | (_, none) => (none, cs)
  | (host, some user) => (some user.reverse, host.reverse)

/-- The port after a host. -/
def readPort (scheme : List Char) (cs : List Char) : Except UrlError (Option Nat) :=
  if cs.isEmpty then .ok none
  else
    match Address.numberIn? 10 cs with
    | none => .error .invalidPort
    | some n =>
      if n > 65535 then .error .invalidPort
      else .ok (if defaultPort? scheme == some n then none else some n)

/-- The length of a host: up to a colon that does not stand in brackets. -/
def hostLength (inBrackets : Bool) : List Char → Nat
  | [] => 0
  | c :: cs =>
    if c == ':' && !inBrackets then 0
    else hostLength (if c == '[' then true else if c == ']' then false else inBrackets) cs + 1

/-- The authority that a text stands for. -/
def readAuthority (scheme : List Char) (cs : List Char) : Except UrlError Authority := do
  let (login, rest) := cutUser cs
  let (user, password) := cut (· == ':') (login.getD [])
  let n := hostLength false rest
  let hostText := rest.take n
  let special := isSpecial scheme
  let port := rest.drop n
  if hostText.isEmpty && (special || login.isSome || !port.isEmpty) then throw .emptyHost
  let host ← if special then Host.domain hostText else Host.plain hostText
  let port ← readPort scheme (port.drop 1)
  return ⟨percentEncode inUser user, percentEncode inUser (password.getD []), host, port⟩

/-- Splits a text into the part before its path and the rest. -/
def cutPath (special : Bool) (cs : List Char) : List Char × List Char :=
  (cs.takeWhile (!isSlash special ·), cs.dropWhile (!isSlash special ·))

/-- The host of a file URL. The local host is left out, and so is every host of a drive. -/
def readFileHost (host : List Char) (path : List (List Char)) : Except UrlError (List Char) := do
  if host.isEmpty then return []
  let host ← Host.domain host
  return if host = "localhost".toList || (path.head?.map isDrive).getD false then [] else host

/-- The authority and the path of a file URL, from the text after the scheme. -/
def readFile (cs : List Char) : Except UrlError (Option Authority × UrlPath) := do
  match cs with
  | a :: b :: rest =>
    if isSlash true a && isSlash true b then
      let (host, below) := cutPath true rest
      if isDrive host then return (some ⟨[], [], [], none⟩, .segments (fileSegments rest))
      let path := fileSegments below
      return (some ⟨[], [], ← readFileHost host path, none⟩, .segments path)
    else return (some ⟨[], [], [], none⟩, .segments (fileSegments cs))
  | _ => return (some ⟨[], [], [], none⟩, .segments (fileSegments cs))

/-- The authority and the path of a URL, from the text after the scheme. -/
def readHierarchy (scheme : List Char) (cs : List Char) :
    Except UrlError (Option Authority × UrlPath) := do
  if isFile scheme then readFile cs
  else if isSpecial scheme then
    let (authority, path) := cutPath true (cs.dropWhile (isSlash true))
    return (some (← readAuthority scheme authority), .segments (pathSegments true path))
  else
    match cs with
    | '/' :: '/' :: rest =>
      let (authority, path) := cutPath false rest
      return (some (← readAuthority scheme authority), .segments (pathSegments false path))
    | '/' :: _ => return (none, .segments (pathSegments false cs))
    | _ => return (none, .opaqueText (percentEncode isControl cs))

/-- Reads an absolute URL. -/
def parse (text : String) : Except UrlError Url := do
  let cs := clean text.toList
  let scheme := cs.takeWhile isSchemeChar
  match cs.dropWhile isSchemeChar with
  | ':' :: rest =>
    if !(scheme.head?.map isAlpha).getD false then throw .relative
    let scheme := scheme.map Char.toLower
    let (rest, fragment) := cut (· == '#') rest
    let (rest, query) := cut (· == '?') rest
    let (authority, path) ← readHierarchy scheme rest
    return {
      scheme, authority, path
      query := query.map (percentEncode (inQuery (isSpecial scheme)))
      fragment := fragment.map (percentEncode inFragment) }
  | _ => throw .relative

/-- The text of an authority. -/
def authorityText (a : Authority) : List Char :=
  let login :=
    if a.user.isEmpty && a.password.isEmpty then []
    else a.user ++ (if a.password.isEmpty then [] else ':' :: a.password) ++ ['@']
  "//".toList ++ login ++ a.host ++
    match a.port with
    | none => []
    | some n => ':' :: (toString n).toList

/-- The text of a path. -/
def pathText : UrlPath → List Char
  | .segments parts => parts.flatMap fun segment => '/' :: segment
  | .opaqueText text => text

/-- The text of a URL. -/
def text (u : Url) : String :=
  let query := (u.query.map ('?' :: ·)).getD []
  let fragment := (u.fragment.map ('#' :: ·)).getD []
  let place := (u.authority.map authorityText).getD [] ++ pathText u.path
  String.ofList (u.scheme ++ [':'] ++ place ++ query ++ fragment)

/-- Whether a path ends in a letter with a colon or a bar, which only a slash completes. -/
def endsInDrive (bytes : List UInt8) : Bool :=
  match (bytes.reverse.take 2).map fun b => Char.ofNat b.toNat with
  | [d, c] => isDrive [c, d]
  | _ => false

/-- The path of the file that a file URL without a host names. -/
def filePath? (u : Url) : Option String :=
  match u.authority, u.path with
  | some a, .segments parts =>
    if isFile u.scheme && a.host.isEmpty then
      let bytes := parts.flatMap fun segment => '/'.toNat.toUInt8 :: percentDecode segment
      some (Text.decodeLossy bytes ++ if endsInDrive bytes then "/" else "")
    else none
  | _, _ => none

end Url

end TypedConfig.Net
