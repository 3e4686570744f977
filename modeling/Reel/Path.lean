/-!
# Paths as text

Paths are texts with slashes. Joining, taking the directory or the base name and finding the
extension look at the text alone; no file has to exist.
-/
namespace Reel.Path

/-- Splits before the last slash: what ends with it, and what follows. -/
def splitLast (cs : List Char) : List Char × List Char :=
  let base := (cs.reverse.takeWhile (· != '/')).reverse
  (cs.take (cs.length - base.length), base)

def basename (path : String) : String := String.ofList (splitLast path.toList).2

/-- What precedes the last slash, without the slashes at its end unless it has nothing else. -/
def dirname (path : String) : String :=
  let head := (splitLast path.toList).1
  let kept := (head.reverse.dropWhile (· == '/')).reverse
  String.ofList (if kept.isEmpty then head else kept)

/-- Puts a path below a directory; an absolute path stands for itself. -/
def joinChars (directory path : List Char) : List Char :=
  if path.head? = some '/' then path
  else if directory.isEmpty || directory.getLast? = some '/' then directory ++ path
  else directory ++ '/' :: path

/-- Puts a path below a directory; an absolute path stands for itself. -/
def join (directory path : String) : String :=
  String.ofList (joinChars directory.toList path.toList)

/-- Splits before the last dot of the base name. Dots that the name begins with are no mark of
an extension. -/
def splitExtension (path : String) : String × String :=
  let (directory, base) := splitLast path.toList
  let dots := base.takeWhile (· == '.')
  let name := base.dropWhile (· == '.')
  if name.contains '.' then
    let tail := (name.reverse.takeWhile (· != '.')).reverse
    let stem := name.take (name.length - tail.length - 1)
    (String.ofList (directory ++ dots ++ stem), String.ofList ('.' :: tail))
  else (path, "")

/-- The name of the user whose home a path with a leading tilde begins with. -/
def userOf (path : String) : List Char :=
  match path.toList with
  | '~' :: rest => rest.takeWhile (· != '/')
  | _ => []

/-- The path of what lies below a home, which may end in slashes. -/
def belowHome (home : String) (below : List Char) : String :=
  let path := (home.toList.reverse.dropWhile (· == '/')).reverse ++ below
  if path.isEmpty then "/" else String.ofList path

end Reel.Path
