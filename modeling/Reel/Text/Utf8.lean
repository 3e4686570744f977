/-!
# Text in bytes

A text is stored as UTF-8. Reading takes bytes one at a time: a lead byte says how many follow
and between which bounds the first of them lies. Bytes that begin no character, or a character
that breaks off, are one fault each; a lenient reader puts the replacement character there.
-/
namespace Reel.Text

/-- What is still missing of a character: how many bytes, their value so far, and the bounds of
the next byte. -/
structure Pending where
  missing : Nat
  value : Nat
  low : Nat
  high : Nat
  deriving Repr, DecidableEq

/-- What a lead byte begins: nothing, a whole character, or one with bytes missing. -/
inductive Lead where
  | fault
  | whole (c : Char)
  | open (rest : Pending)
  deriving Repr, DecidableEq

/-- What the byte begins. Bounds exclude forms that are longer than needed, surrogates and
numbers beyond the last code point. -/
def lead (b : Nat) : Lead :=
  if b < 0x80 then .whole (Char.ofNat b)
  else if b < 0xC2 then .fault
  else if b < 0xE0 then .open ⟨1, b - 0xC0, 0x80, 0xBF⟩
  else if b < 0xF0 then
    .open ⟨2, b - 0xE0, if b = 0xE0 then 0xA0 else 0x80, if b = 0xED then 0x9F else 0xBF⟩
  else if b < 0xF5 then
    .open ⟨3, b - 0xF0, if b = 0xF0 then 0x90 else 0x80, if b = 0xF4 then 0x8F else 0xBF⟩
  else .fault

/-- The characters of a row of bytes, a fault where bytes make none. -/
def scan : Option Pending → List UInt8 → List (Option Char)
  | none, [] => []
  | some _, [] => [none]
  | pending, b :: rest =>
    let fresh (b : Nat) : List (Option Char) :=
      match lead b with
      | .fault => none :: scan none rest
      | .whole c => some c :: scan none rest
      | .open pending => scan (some pending) rest
    match pending with
    | none => fresh b.toNat
    | some p =>
      if p.low ≤ b.toNat && b.toNat ≤ p.high then
        let value := p.value * 64 + (b.toNat - 0x80)
        if p.missing = 1 then some (Char.ofNat value) :: scan none rest
        else scan (some ⟨p.missing - 1, value, 0x80, 0xBF⟩) rest
      else none :: fresh b.toNat

/-- The text in the bytes, the replacement character standing for each fault. -/
def decodeLenient (bytes : List UInt8) : String :=
  String.ofList ((scan none bytes).map fun c => c.getD '\uFFFD')

/-- The text in the bytes, if every byte belongs to a character. -/
def decode? (bytes : List UInt8) : Option String :=
  ((scan none bytes).mapM id).map String.ofList

/-- Bytes that make no character: where they begin, what they are, and why. -/
structure Misfit where
  place : Nat
  bytes : List UInt8
  reason : String
  deriving Repr, DecidableEq

def pieceSize : Nat := 8192

/-- The first bytes that make no character; `begun` holds those of a character that is not
complete, and `place` is where it begins in its piece, of which `left` bytes are to come. A
character that a piece leaves open begins the next one, and so does what is left open at the
end. -/
def misfitFrom (left place : Nat) (begun : List UInt8) :
    Option Pending → List UInt8 → Option Misfit
  | none, [] => none
  | some _, [] => some ⟨0, begun, "unexpected end of data"⟩
  | pending, b :: rest =>
    let (left, place) := if left = 0 then (pieceSize - 1, 0) else (left - 1, place)
    match pending with
    | none =>
      match lead b.toNat with
      | .fault => some ⟨place, [b], "invalid start byte"⟩
      | .whole _ => misfitFrom left (place + 1) [] none rest
      | .open pending => misfitFrom left place [b] (some pending) rest
    | some p =>
      if p.low ≤ b.toNat && b.toNat ≤ p.high then
        let begun := begun ++ [b]
        if p.missing = 1 then misfitFrom left (place + begun.length) [] none rest
        else misfitFrom left place begun (some ⟨p.missing - 1, 0, 0x80, 0xBF⟩) rest
      else
        let surrogate := begun == [0xED] && 0x80 ≤ b.toNat && b.toNat ≤ 0xBF
        let isLast := rest.isEmpty || left = 0
        some ⟨if surrogate && isLast then 0 else place, begun, "invalid continuation byte"⟩

/-- What is wrong with bytes that hold no text. -/
def Misfit.message (m : Misfit) : String :=
  let what := match m.bytes with
    | [b] => "byte 0x" ++ String.ofList (Nat.toDigits 16 b.toNat) ++ " in position " ++
        toString m.place
    | bytes => "bytes in position " ++ toString m.place ++ "-" ++
        toString (m.place + bytes.length - 1)
  "'utf-8' codec can't decode " ++ what ++ ": " ++ m.reason

/-- What is wrong with the bytes, if they hold no text. The bytes that the first piece began with
and that are not among them are counted in `before`. -/
def misfit? (before : Nat) (bytes : List UInt8) : Option Misfit :=
  misfitFrom (pieceSize - before) 0 [] none bytes

def encode (s : String) : List UInt8 := s.toUTF8.toList

end Reel.Text
