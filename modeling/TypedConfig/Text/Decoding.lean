/-!
# Texts from bytes

Bytes are read as UTF-8. A byte that begins a character says how many bytes follow and in which
range the first of them lies. Where the bytes break off or fit no character, the piece that could
have begun one is read as the replacement character.
-/

namespace TypedConfig.Text

/-- The character for bytes that encode none. -/
def replacement : Char := Char.ofNat 0xFFFD

/-- What the first byte of a character says: its bits, the number of bytes that follow, and the
range of the first of them. -/
structure Lead where
  bits : Nat
  following : Nat
  low : Nat := 0x80
  high : Nat := 0xBF

/-- The first byte of a character. -/
def Lead.ofByte? (b : Nat) : Option Lead :=
  if b < 0x80 then some { bits := b, following := 0 }
  else if b < 0xC2 then none
  else if b < 0xE0 then some { bits := b - 0xC0, following := 1 }
  else if b = 0xE0 then some { bits := 0, following := 2, low := 0xA0 }
  else if b = 0xED then some { bits := 0xD, following := 2, high := 0x9F }
  else if b < 0xF0 then some { bits := b - 0xE0, following := 2 }
  else if b = 0xF0 then some { bits := 0, following := 3, low := 0x90 }
  else if b < 0xF4 then some { bits := b - 0xF0, following := 3 }
  else if b = 0xF4 then some { bits := 4, following := 3, high := 0x8F }
  else none

/-- Reads bytes. `pending` is the character that is being read: its bits so far, the number of bytes
that are missing, and the range of the next one. -/
def decodeFrom (pending : Option Lead) : List UInt8 → List Char
  | [] => if pending.isSome then [replacement] else []
  | b :: bs =>
    let n := b.toNat
    let restart (_ : Unit) : List Char :=
      match Lead.ofByte? n with
      | none => replacement :: decodeFrom none bs
      | some lead =>
        if lead.following = 0 then Char.ofNat lead.bits :: decodeFrom none bs
        else decodeFrom (some lead) bs
    match pending with
    | none => restart ()
    | some lead =>
      if lead.low ≤ n ∧ n ≤ lead.high then
        let bits := 64 * lead.bits + (n - 0x80)
        if lead.following = 1 then Char.ofNat bits :: decodeFrom none bs
        else decodeFrom (some { bits, following := lead.following - 1 }) bs
      else replacement :: restart ()

/-- The text of some bytes. -/
def decodeLossy (bytes : List UInt8) : String := String.ofList (decodeFrom none bytes)

end TypedConfig.Text
