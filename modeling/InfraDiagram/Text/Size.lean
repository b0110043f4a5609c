/-!
# The size of texts

Limits on texts and names count the bytes of UTF-8, not characters.
-/

namespace InfraDiagram.Text

/-- The number of bytes that characters take in UTF-8. -/
def byteCount (cs : List Char) : Nat := cs.foldl (fun n c => n + c.utf8Size) 0

end InfraDiagram.Text
