import PipeScript.Diagnostic

/-!
What commands need of the system they run on: files that are read and written as
a whole, and a place to print to.
-/

namespace PipeScript

/-- A way to read, write and print in some monad. -/
structure Host (m : Type → Type) where
  read : String → m (Except FileError ByteArray)
  write : String → ByteArray → m (Except FileError Unit)
  print : String → m Unit

end PipeScript
