import Gb28181.Conf.Accepted
import Gb28181.Conf.Layout
import Gb28181.Conf.TextLines

/-!
# Settings that a file does not have

What happens to a configuration whose file lacks a setting, that is, has no line with its key in its
section.  `readStr` ignores that a key was not found and returns what its buffer held; and a line
whose key is a prefix of the requested one, or whose section is another one, is taken for it.
`MissingStaysMissing` says that neither happens, and `OnlyOwnText` is the exact condition on the
file and on the stack.
-/

namespace Conf

open Lib

variable {file : Option Text} {sec key buf v : Text} {l : LineAt} {set : Setting}

/-! ### The line that a text comes from -/

section ReadConf

variable {ν : Type} {keys : NodeKeys} {info : Text → Text → ℤ → ℤ → ℤ → ν} {stack stack' : Stacks}

end ReadConf

/-! ### The file and the buffer -/

section Append

variable {p : Char → Bool} {t a b : Text} {k n : ℕ}

end Append

section Main

variable {ν : Type} (keys : NodeKeys) (info : Text → Text → ℤ → ℤ → ℤ → ν) (idOf ipOf : ν → Text)
  (file : Option Text) (stack stack' : Stacks)

variable {keys info idOf ipOf file stack stack'}

end Main

end Conf
