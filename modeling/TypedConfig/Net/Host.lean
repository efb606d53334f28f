import TypedConfig.Net.Address
import TypedConfig.Net.Punycode

/-!
# Hosts of URLs

The hosts of the special schemes are domain names in ASCII and in lower case, or addresses; all
other hosts keep their text, with control characters encoded. An address of eight pieces stands in
brackets.
-/

namespace TypedConfig.Net

/-- Why a text is no URL. -/
inductive UrlError where
  | relative
  | emptyHost
  | invalidPort
  | invalidAddress
  | invalidLongAddress
  | invalidDomain
  | forbiddenCharacter
  deriving DecidableEq, Repr

/-- The message of an invalid URL. -/
def UrlError.message : UrlError → String
  | .relative => "relative URL without a base"
  | .emptyHost => "empty host"
  | .invalidPort => "invalid port number"
  | .invalidAddress => "invalid IPv4 address"
  | .invalidLongAddress => "invalid IPv6 address"
  | .invalidDomain => "invalid international domain name"
  | .forbiddenCharacter => "invalid domain character"

namespace Host

/-- A letter in lower case, for the Latin, Greek and Cyrillic letters. -/
def lower (c : Char) : Char :=
  let n := c.toNat
  if (0x41 ≤ n && n ≤ 0x5A) || (0xC0 ≤ n && n ≤ 0xDE && n != 0xD7) ||
      (0x391 ≤ n && n ≤ 0x3A9) || (0x410 ≤ n && n ≤ 0x42F) then Char.ofNat (n + 32)
  else if 0x400 ≤ n && n ≤ 0x40F then Char.ofNat (n + 80)
  else if (0x100 ≤ n && n ≤ 0x137 && n != 0x130) || (0x14A ≤ n && n ≤ 0x177) then
    Char.ofNat (n + (n + 1) % 2)
  else if (0x139 ≤ n && n ≤ 0x148) || (0x179 ≤ n && n ≤ 0x17E) then Char.ofNat (n + n % 2)
  else c

/-- A label of a domain name in ASCII. -/
def asciiLabel (label : List Char) : List Char :=
  if label.all fun c => c.toNat < 128 then label else "xn--".toList ++ Punycode.encode label

/-- A domain name in ASCII and in lower case. -/
def asciiName (name : List Char) : List Char :=
  ['.'].intercalate ((Text.splitOn (· == '.') (name.map lower)).map asciiLabel)

/-- The characters that no domain may hold. -/
def isForbidden (c : Char) : Bool :=
  c.toNat ≤ 0x20 || c.toNat ≥ 0x7F || "#%/:<>?@[\\]^|".toList.contains c

/-- An address in brackets. -/
def bracketed (cs : List Char) : Except UrlError (List Char) :=
  match if cs.getLast? == some ']' then Address.long? (cs.drop 1).dropLast else none with
  | some pieces => .ok ('[' :: Address.longText pieces ++ [']'])
  | none => .error .invalidLongAddress

/-- The host of a URL with a special scheme. -/
def domain (cs : List Char) : Except UrlError (List Char) :=
  if cs.head? == some '[' then bracketed cs
  else
    match String.fromUTF8? (percentDecode cs).toByteArray with
    | none => .error .invalidDomain
    | some decoded =>
      let name := asciiName decoded.toList
      if name.isEmpty || decoded.toList.any Text.isBlank || name.any isForbidden then
        .error .invalidDomain
      else if Address.endsInNumber name then
        match Address.short? name with
        | some n => .ok (Address.shortText n)
        | none => .error .invalidAddress
      else .ok name

/-- The host of a URL with any other scheme. -/
def plain (cs : List Char) : Except UrlError (List Char) :=
  if cs.head? == some '[' then bracketed cs
  else if cs.any fun c => c != '%' && c.toNat < 0x7F && c.toNat ≥ 0x20 && isForbidden c then
    .error .forbiddenCharacter
  else .ok (percentEncode isControl cs)

end Host

end TypedConfig.Net
