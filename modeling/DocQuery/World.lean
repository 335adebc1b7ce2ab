import DocQuery.Environment
import DocQuery.Files
/-!
# Worlds

What a program finds around it: files, the variables of its environment, the directory from which it
tells its files, and the account of its user. A variable counts as set only if its value is a text,
and the names of files are texts as well; so the home directory, whose name the system takes as it
is, is assumed to have a text for its name.
-/
namespace DocQuery

/-- Where a program runs. -/
structure World where
  files : Files := {}
  env : Environment := []
  /-- The working directory. If it was removed there is nothing at its place. -/
  directory : Path := []
  /-- The home directory in the account of the user, if there is an account. -/
  accountHome : Option String := none

namespace World

/-- The home directory that the environment tells, else that of the account. An empty text tells
none. -/
def home (w : World) : Option String :=
  ((w.env.get? "HOME").filter fun s => !s.isEmpty).or (w.accountHome.filter fun s => !s.isEmpty)

/-- The text of a file, which is told from the working directory. -/
def read (w : World) (s : String) : Except Failure String :=
  w.files.read w.directory s

/-- Whether something is there. -/
def exist (w : World) (s : String) : Bool :=
  (w.files.locate? w.directory s).isSome

end World
end DocQuery
