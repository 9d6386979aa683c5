/-! Bytes as text. A file may hold bytes that form no character; a reader of documents has to know
where they stand, since some places do not mind them. -/
namespace Guillotine

/-- The characters of some bytes from position `i` on, with `none` for each byte that starts no
character. -/
def glyphsFrom (bytes : ByteArray) (i : Nat) : List (Option Char) :=
  if i < bytes.size then
    match bytes.utf8DecodeChar? i with
    | some c => some c :: glyphsFrom bytes (i + c.utf8Size)
    | none => none :: glyphsFrom bytes (i + 1)
  else []
termination_by bytes.size - i
decreasing_by
  · have := c.utf8Size_pos
    omega
  · omega

/-- The characters of some bytes, with `none` for each byte that starts no character. -/
def glyphs (bytes : ByteArray) : List (Option Char) := glyphsFrom bytes 0

end Guillotine
