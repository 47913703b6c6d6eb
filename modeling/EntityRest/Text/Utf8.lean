/-!
Decoding UTF-8 leniently: every longest piece that is no part of a well-formed sequence becomes one
replacement character.
-/

namespace EntityRest.Text.Utf8

/-- A sequence that is not complete: its bits so far, and what its next byte may be. -/
structure Pending where
  code : Nat
  missing : Nat
  low : Nat
  high : Nat

/-- A whole character, or the start of a longer sequence, or neither. -/
inductive Start where
  | whole (c : Char)
  | pending (p : Pending)
  | invalid

def replacement : Char := Char.ofNat 0xFFFD

/-- What a first byte stands for. -/
def start (b : Nat) : Start :=
  if b < 0x80 then .whole (Char.ofNat b)
  else if b < 0xC2 then .invalid
  else if b < 0xE0 then .pending ⟨b - 0xC0, 1, 0x80, 0xBF⟩
  else if b = 0xE0 then .pending ⟨0, 2, 0xA0, 0xBF⟩
  else if b = 0xED then .pending ⟨0xD, 2, 0x80, 0x9F⟩
  else if b < 0xF0 then .pending ⟨b - 0xE0, 2, 0x80, 0xBF⟩
  else if b = 0xF0 then .pending ⟨0, 3, 0x90, 0xBF⟩
  else if b < 0xF4 then .pending ⟨b - 0xF0, 3, 0x80, 0xBF⟩
  else if b = 0xF4 then .pending ⟨4, 3, 0x80, 0x8F⟩
  else .invalid

/-- Reads a byte where a character starts; the result is what is written and what stays open. -/
def begin (b : Nat) : List Char × Option Pending :=
  match start b with
  | .whole c => ([c], none)
  | .pending p => ([], some p)
  | .invalid => ([replacement], none)

/-- Reads the next byte. -/
def step (open? : Option Pending) (b : Nat) : List Char × Option Pending :=
  match open? with
  | none => begin b
  | some p =>
    if p.low ≤ b && b ≤ p.high then
      let code := p.code * 64 + (b - 0x80)
      if p.missing = 1 then ([Char.ofNat code], none)
      else ([], some ⟨code, p.missing - 1, 0x80, 0xBF⟩)
    else
      let (out, next) := begin b
      (replacement :: out, next)

def decodeFrom : Option Pending → List Nat → List Char
  | none, [] => []
  | some _, [] => [replacement]
  | open?, b :: bs =>
    let (out, next) := step open? b
    out ++ decodeFrom next bs

/-- The text of a byte sequence. -/
def decode (bytes : List Nat) : List Char := decodeFrom none bytes

/-- The bytes of a text. -/
def encode (s : String) : List Nat := s.toUTF8.toList.map UInt8.toNat

end EntityRest.Text.Utf8
