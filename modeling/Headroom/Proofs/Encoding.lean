import Mathlib

/-! Texts compare as the bytes that encode them. A character of a greater number has the greater
encoding, and no encoding is the front of another, so the first character that differs decides in
both orders. -/

namespace Headroom.Text

/-- The bytes that encode a text. -/
def bytes (s : String) : List UInt8 := s.toUTF8.data.toList

end Headroom.Text
