/-!
# Default ignorables — characters that are drawn as nothing at all

A character with the Unicode property *Default_Ignorable_Code_Point* leaves no trace where it is not
supported: joiners, direction marks, variation selectors, and the fillers that stand for a missing
Hangul letter. Most of them are control-like or attach to their neighbour and are in the other tables
already. The fillers are not: they count as letters, and a name made of them alone would look empty.

The table lists the code points as closed ranges in ascending order.
-/

set_option autoImplicit false

namespace JvmTrace.Text

/-- Code points that are drawn as nothing, as closed ranges in ascending order. -/
def defaultIgnorableRanges : List (Nat × Nat) := [
    (0xad, 0xad), (0x34f, 0x34f), (0x61c, 0x61c), (0x115f, 0x1160), (0x17b4, 0x17b5),
    (0x180b, 0x180f), (0x200b, 0x200f), (0x202a, 0x202e), (0x2060, 0x206f), (0x3164, 0x3164),
    (0xfe00, 0xfe0f), (0xfeff, 0xfeff), (0xffa0, 0xffa0), (0xfff0, 0xfff8), (0x1bca0, 0x1bca3),
    (0x1d173, 0x1d17a), (0xe0000, 0xe0fff)
  ]

end JvmTrace.Text
