import WordVectors.Error

/-!
# File tasks

A command reads and writes whole files. What it does is a value: a result, or a request to the
file system with what to do on each reply. A task is run against the real file system by the
program, and against any other reading of paths by a proof.

## Main definitions

* `FileTask`: a task
* `FileTask.bind`: a task that goes on with the result of another
-/

namespace WordVectors

/-- **A task** with a result. -/
inductive FileTask (α : Type) where
  | done (result : α)
  | read (path : String) (next : Except FileError Bytes → FileTask α)
  | write (path : String) (content : Bytes) (next : Except FileError Unit → FileTask α)

namespace FileTask

variable {α β : Type}

/-- The task that goes on with the result of another. -/
def bind : FileTask α → (α → FileTask β) → FileTask β
  | done a, f => f a
  | read path next, f => read path fun reply => (next reply).bind f
  | write path content next, f => write path content fun reply => (next reply).bind f

instance : Monad FileTask where
  pure := done
  bind := bind

end FileTask

end WordVectors
