/-! Text and its UTF-8 bytes. Decoding never fails: every longest broken sequence of bytes becomes
one replacement character, and the byte that breaks a sequence starts the next one. A byte order
mark is kept. -/
namespace ScriptBundle.Utf8

abbrev Bytes := List UInt8

def encode (text : String) : Bytes := text.toList.flatMap String.utf8EncodeChar

def replacement : Char := '�'

/-- A sequence that still owes bytes: its value so far, how many are owed, and between which bounds
the next one has to lie. -/
structure Pending where
  value : Nat
  owed : Nat
  low : UInt8
  high : UInt8
  deriving DecidableEq, Repr

def lead (b : UInt8) : List Char × Option Pending :=
  if b < 0x80 then ([Char.ofNat b.toNat], none)
  else if 0xC2 ≤ b ∧ b ≤ 0xDF then ([], some ⟨b.toNat - 0xC0, 1, 0x80, 0xBF⟩)
  else if b = 0xE0 then ([], some ⟨0, 2, 0xA0, 0xBF⟩)
  else if b = 0xED then ([], some ⟨0xD, 2, 0x80, 0x9F⟩)
  else if 0xE1 ≤ b ∧ b ≤ 0xEF then ([], some ⟨b.toNat - 0xE0, 2, 0x80, 0xBF⟩)
  else if b = 0xF0 then ([], some ⟨0, 3, 0x90, 0xBF⟩)
  else if 0xF1 ≤ b ∧ b ≤ 0xF3 then ([], some ⟨b.toNat - 0xF0, 3, 0x80, 0xBF⟩)
  else if b = 0xF4 then ([], some ⟨4, 3, 0x80, 0x8F⟩)
  else ([replacement], none)

def feed (state : Option Pending) (b : UInt8) : List Char × Option Pending :=
  match state with
  | none => lead b
  | some p =>
    if p.low ≤ b ∧ b ≤ p.high then
      let value := p.value * 64 + (b.toNat - 0x80)
      if p.owed = 1 then ([Char.ofNat value], none) else ([], some ⟨value, p.owed - 1, 0x80, 0xBF⟩)
    else (replacement :: (lead b).1, (lead b).2)

def flush : Option Pending → List Char
  | none => []
  | some _ => [replacement]

def decodeFrom (state : Option Pending) (written : List Char) : Bytes → List Char
  | [] => written.reverseAux (flush state)
  | b :: rest => decodeFrom (feed state b).2 ((feed state b).1.reverseAux written) rest

def decode (bytes : Bytes) : String := String.ofList (decodeFrom none [] bytes)

def decode? (bytes : Bytes) : Option String :=
  if encode (decode bytes) = bytes then some (decode bytes) else none

end ScriptBundle.Utf8
