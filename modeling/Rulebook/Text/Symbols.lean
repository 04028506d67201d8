/-!
# Texts that are sent as bytes

What is sent as a text is bytes, and they need not be one. Bytes are decoded as far as that goes:
where no character of UTF-8 stands, one byte is a symbol of its own and decoding goes on behind
it. So characters, and quotes among them, are found again behind any mistake.
-/

namespace Rulebook.Text

/-- What stands at a place of something that is sent as a text. -/
inductive Symbol where
  /-- a character -/
  | char (c : Char)
  /-- a byte that belongs to no character -/
  | stray
deriving DecidableEq

namespace Symbol

/-- How many bytes a symbol takes. -/
def size : Symbol → Nat
  | .char c => c.utf8Size
  | .stray => 1

/-- How many bytes symbols take. -/
def sizes : List Symbol → Nat
  | [] => 0
  | s :: ss => s.size + sizes ss

/-- The character of a symbol, if it is one. -/
def char? : Symbol → Option Char
  | .char c => some c
  | .stray => none

end Symbol

/-- The symbols of a text are its characters. -/
def symbols (text : String) : List Symbol := text.toList.map .char

/-- Decodes bytes from a place on, behind symbols that have been decoded, last one first. -/
def decodeFrom (bytes : ByteArray) (place : Nat) (found : List Symbol) : List Symbol :=
  if place < bytes.size then
    match bytes.utf8DecodeChar? place with
    | some c => decodeFrom bytes (place + c.utf8Size) (.char c :: found)
    | none => decodeFrom bytes (place + 1) (.stray :: found)
  else found.reverse
termination_by bytes.size - place
decreasing_by
  · have := c.utf8Size_pos
    omega
  · omega

/-- The symbols that bytes say. -/
def decode (bytes : ByteArray) : List Symbol := decodeFrom bytes 0 []

end Rulebook.Text
