import Reel.Host.Files

/-!
# The environment

What the program relies on without being part of it: a reader and a writer of documents, a check
of pictures, and the homes of users. Nothing is assumed about the answers but their kind; what
goes wrong there is an error of its own, which is none of the program's.
-/
namespace Reel

/-- The libraries that the program calls and the accounts of the machine, the same in one run. -/
class Environment where
  /-- The value of the document in the bytes of a file with a name. A marked file may begin with a
  byte order mark. -/
  document (marked : Bool) (source : String) (content : List UInt8) : Except Foreign Value
  /-- The text of a document that holds a value. -/
  documentText (v : Value) : Except Foreign String
  /-- Makes sure that a value leads to a picture. -/
  requirePicture (files : Files) (path : Value) : Except Foreign Unit
  /-- The home of the user with a name, if there is one; the user of the empty name is the own. -/
  homeOf (user : String) : Except Foreign (Option String)

def Foreign.ofAnswer {α : Type} (answer : Except Foreign α) : Except Error α :=
  answer.mapError .foreign

/-- The path with a home in place of a leading tilde and the name of a user. A user who is not
known has none, and a name that holds the zero character cannot be looked up. -/
def Files.expandHome [Environment] (path : String) : Except Error String :=
  match path.toList with
  | '~' :: rest =>
    let user := Path.userOf path
    if user.contains '\x00' then .error .zeroInside
    else do
      match ← Foreign.ofAnswer (Environment.homeOf (String.ofList user)) with
      | some home => return Path.belowHome home (rest.dropWhile (· != '/'))
      | none => return path
  | _ => .ok path

end Reel
