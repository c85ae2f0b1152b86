/-!
The length of a text in the bytes that encode it: one to four for each character.
-/

namespace Headroom.Text

def byteLength (text : List Char) : Nat := text.foldr (fun c size => c.utf8Size + size) 0

theorem byteLength_cons (c : Char) (text : List Char) :
    byteLength (c :: text) = c.utf8Size + byteLength text := rfl

end Headroom.Text
