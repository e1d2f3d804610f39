/-!
# UTF-8 octets as text

Source files are runs of octets and need not be well formed.  Decoding reads
one octet at a time and keeps the character it is in the middle of.  It cuts
the input into pieces, each a character or a maximal ill-formed subpart.  Two
views follow: `decode` puts U+FFFD for every ill-formed piece, and
`decodeStrict` stops at the first one.
-/

namespace HaskellTags
namespace Text

/-- A run of octets, such as the contents of a file. -/
abbrev Octets := List UInt8

/-- The octets of a text. -/
def octetsOf (s : String) : Octets :=
  s.toList.flatMap String.utf8EncodeChar

/-- The octets from `start` up to `stop`, as far as there are any. -/
def slice (source : Octets) (start stop : Nat) : Octets :=
  (source.drop start).take (stop - start)

/-- Why a subpart is ill formed. -/
inductive Fault
  /-- An octet that starts no character. -/
  | start
  /-- The next octet does not continue the character. -/
  | continuation
  /-- The input ends inside the character. -/
  | truncated
  deriving DecidableEq, Repr

/-- A character, or a maximal ill-formed subpart. -/
inductive Piece
  | char (c : Char)
  | bad (octets : Octets) (fault : Fault)
  deriving DecidableEq, Repr

/-- A character of which some octets have been read. -/
structure Partial where
  /-- The octets read so far. -/
  read : Octets
  /-- The bits they carry. -/
  value : Nat
  /-- How many octets are still to come. -/
  missing : Nat
  /-- The least octet that may come next. -/
  low : UInt8
  /-- The greatest octet that may come next. -/
  high : UInt8
  deriving DecidableEq, Repr

/-- What the decoder does at one octet. -/
structure Step where
  /-- The pieces that end here. -/
  pieces : List Piece
  /-- The character begun and not ended. -/
  pending : Option Partial

/-- A step that begins a character of several octets. -/
def Step.begin (octet : UInt8) (value missing : Nat) (low high : UInt8) : Step :=
  ⟨[], some ⟨[octet], value, missing, low, high⟩⟩

/-- The step at an octet that starts a character. -/
def startStep (octet : UInt8) : Step :=
  let n := octet.toNat
  if n < 0x80 then ⟨[.char (Char.ofNat n)], none⟩
  else if n < 0xC2 then ⟨[.bad [octet] .start], none⟩
  else if n < 0xE0 then .begin octet (n - 0xC0) 1 0x80 0xBF
  else if n = 0xE0 then .begin octet 0 2 0xA0 0xBF
  else if n = 0xED then .begin octet 0xD 2 0x80 0x9F
  else if n < 0xF0 then .begin octet (n - 0xE0) 2 0x80 0xBF
  else if n = 0xF0 then .begin octet 0 3 0x90 0xBF
  else if n < 0xF4 then .begin octet (n - 0xF0) 3 0x80 0xBF
  else if n = 0xF4 then .begin octet 4 3 0x80 0x8F
  else ⟨[.bad [octet] .start], none⟩

/-- The step at an octet that continues a character. -/
def Partial.extend (p : Partial) (octet : UInt8) : Step :=
  let value := p.value * 64 + (octet.toNat - 0x80)
  if p.missing ≤ 1 then ⟨[.char (Char.ofNat value)], none⟩
  else ⟨[], some ⟨p.read ++ [octet], value, p.missing - 1, 0x80, 0xBF⟩⟩

/-- The step at an octet, given the character begun before it. -/
def step : Option Partial → UInt8 → Step
  | none, octet => startStep octet
  | some p, octet =>
    if p.low ≤ octet ∧ octet ≤ p.high then p.extend octet
    else
      let next := startStep octet
      ⟨.bad p.read .continuation :: next.pieces, next.pending⟩

/-- The pieces of an input read after a begun character. -/
def piecesFrom : Option Partial → Octets → List Piece
  | none, [] => []
  | some p, [] => [.bad p.read .truncated]
  | pending, octet :: rest =>
    let s := step pending octet
    s.pieces ++ piecesFrom s.pending rest

/-- The pieces of an input. -/
def pieces (source : Octets) : List Piece :=
  piecesFrom none source

/-- The character put for an ill-formed subpart. -/
def replacement : Char := '�'

/-- The character that a piece is shown as. -/
def Piece.shown : Piece → Char
  | .char c => c
  | .bad _ _ => replacement

/-- How many octets a piece covers. -/
def Piece.width : Piece → Nat
  | .char c => (String.utf8EncodeChar c).length
  | .bad octets _ => octets.length

/-- The characters of an input, one U+FFFD for each ill-formed subpart. -/
def decodeChars (source : Octets) : List Char :=
  (pieces source).map Piece.shown

/-- The text of an input, one U+FFFD for each ill-formed subpart. -/
def decode (source : Octets) : String :=
  String.ofList (decodeChars source)

/-- The first ill-formed subpart of an input that has to be well formed. -/
structure DecodeError where
  /-- Where the subpart starts. -/
  position : Nat
  /-- The octets of the subpart. -/
  octets : Octets
  /-- Why it is ill formed. -/
  fault : Fault
  deriving DecidableEq, Repr

/-- Two hexadecimal digits of an octet. -/
def hexOctet (octet : UInt8) : String :=
  String.ofList [Nat.digitChar (octet.toNat / 16), Nat.digitChar (octet.toNat % 16)]

/-- The wording of a fault. -/
def Fault.message : Fault → String
  | .start => "invalid start byte"
  | .continuation => "invalid continuation byte"
  | .truncated => "unexpected end of data"

/-- The wording of a decoding error: a single octet is shown, of several the positions. -/
def DecodeError.message (e : DecodeError) : String :=
  let place := match e.octets with
    | [octet] => "byte 0x" ++ hexOctet octet ++ " in position " ++ toString e.position
    | octets => "bytes in position " ++ toString e.position ++ "-" ++
        toString (e.position + octets.length - 1)
  "'utf-8' codec can't decode " ++ place ++ ": " ++ e.fault.message

/-- The characters of pieces that start at a position, up to an ill-formed one. -/
def strictFrom : Nat → List Piece → Except DecodeError (List Char)
  | _, [] => .ok []
  | position, .bad octets fault :: _ => .error ⟨position, octets, fault⟩
  | position, .char c :: rest =>
    (strictFrom (position + (Piece.char c).width) rest).map (c :: ·)

/-- The text of an input that has to be well formed. -/
def decodeStrict (source : Octets) : Except DecodeError String :=
  (strictFrom 0 (pieces source)).map String.ofList

end Text
end HaskellTags
