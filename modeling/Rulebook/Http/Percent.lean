import Rulebook.Text.Hex

/-!
# Percent encoding

In a path a byte may be written as a percent sign and two hexadecimal digits. A percent sign that
is not followed by two such digits stands for itself. The bytes together must be UTF-8.
-/

namespace Rulebook.Http.Percent

/-- The bytes of characters, escapes resolved. -/
def bytes : List Char → List UInt8
  | '%' :: a :: b :: rest =>
    match Text.hexDigit? a, Text.hexDigit? b with
    | some high, some low => UInt8.ofNat (high * 16 + low) :: bytes rest
    | _, _ => '%'.toNat.toUInt8 :: bytes (a :: b :: rest)
  | c :: rest => (String.singleton c).toUTF8.toList ++ bytes rest
  | [] => []

/-- The text that is encoded, if its bytes are a text. -/
def decode? (text : String) : Option String :=
  String.fromUTF8? ⟨(bytes text.toList).toArray⟩

end Rulebook.Http.Percent
