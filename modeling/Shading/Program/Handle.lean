import Shading.Program.Basic

/-! Programs as they are handed out, told apart even when their contents are equal. -/

namespace Shading

/-- A program under a number of its own, by which it is known again. -/
structure ProgramHandle where
  number : Nat
  program : Program
deriving Inhabited

end Shading
