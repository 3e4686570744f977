import Reel.Error
import Reel.Path
import Reel.Text.Utf8

/-!
# Files and directories

The files of a machine: a list of places with what is there, in no particular order. A place is
the row of names that leads to it from the working directory, or from the root, which is
written as the name `/`. A path leads to a place only if every name before the last is a
directory. A value can lead to something as well: a text or bytes by the path that they are, and a
whole number by the open stream that it names.
-/
namespace Reel

/-- What a place holds. A blank file consists of zero bytes only. -/
inductive Stored where
  | directory
  | file (content : List UInt8)
  | blank (size : Nat)
  deriving Repr, DecidableEq

/-- The bytes of a file; a directory has none. -/
def Stored.bytes : Stored → List UInt8
  | .directory => []
  | .file content => content
  | .blank size => List.replicate size 0

abbrev Place := List String

/-- The places that hold something. The working directory and the root hold directories without
being listed. -/
structure Files where
  entries : List (Place × Stored)
  deriving Repr, DecidableEq

namespace Files

def empty : Files := ⟨[]⟩

instance : Inhabited Files := ⟨empty⟩

/-- Whether the place lies above everything listed: the working directory, the root and the
directories that contain the working directory. -/
def isBase (place : Place) : Bool := place == ["/"] || place.all (· == "..")

def at? (files : Files) (place : Place) : Option Stored :=
  if isBase place then some .directory
  else (files.entries.find? fun entry => entry.1 == place).map (·.2)

def parent (place : Place) : Place :=
  if place == ["/"] then ["/"]
  else if place.all (· == "..") then ".." :: place
  else place.dropLast

def names (path : String) : List String :=
  (List.splitOn '/' path.toList).map String.ofList

/-- Follows names from a place; each name but the last must lead to a directory. -/
def follow (files : Files) : Place → List String → Except FileFault Place
  | place, [] => .ok place
  | place, name :: rest =>
    match files.at? place with
    | none => .error .missing
    | some .directory =>
      follow files
        (if name = "" ∨ name = "." then place
          else if name = ".." then parent place
          else place ++ [name])
        rest
    | some _ => .error .notDirectory

/-- The place that a path leads to, whatever it holds. The empty path leads nowhere. -/
def locate (files : Files) (path : String) : Except FileFault Place :=
  if path = "" then .error .missing
  else files.follow (if path.toList.head? = some '/' then ["/"] else []) (names path)

/-- The place that a path leads to, if the way to it exists. -/
def place? (files : Files) (path : String) : Option Place := (files.locate path).toOption

def node? (files : Files) (path : String) : Option Stored := (files.place? path).bind files.at?

def exists? (files : Files) (path : String) : Bool := (files.node? path).isSome

/-- Whether the path leads to a file, not a directory. -/
def isFile (files : Files) (path : String) : Bool :=
  match files.node? path with
  | some (.file _) | some (.blank _) => true
  | _ => false

/-- The path in some bytes, if they are one. -/
def pathIn? (content : List UInt8) : Option String := Text.decode? content

def openStreams : Int := 3

/-- Whether a whole number names an open stream; too large a one names none at all. -/
def isStream (n : Int) : Except Error Bool :=
  if 2147483647 < n then .error (.outOfRange "fd is greater than maximum")
  else if n < -2147483648 then .error (.outOfRange "fd is less than minimum")
  else .ok (decide (0 ≤ n ∧ n < openStreams))

/-- A value that cannot be looked for among the files. -/
private def noPath (v : Value) : Error :=
  .wrongKind ("stat: path should be string, bytes, os.PathLike or integer, not " ++
    v.bareKindName)

def existsAt (files : Files) : Value → Except Error Bool
  | .text path => .ok (files.exists? path)
  | .bytes content => .ok ((pathIn? content).any files.exists?)
  | .bool _ => .ok true
  | .int n => isStream n
  | v => .error (noPath v)

/-- Whether a value leads to a file; streams are none. -/
def isFileAt (files : Files) : Value → Except Error Bool
  | .text path => .ok (files.isFile path)
  | .bytes content => .ok ((pathIn? content).any files.isFile)
  | .bool _ => .ok false
  | .int n => (isStream n).map fun _ => false
  | v => .error (noPath v)

/-- Puts something at a place, in place of what was there. -/
def put (files : Files) (place : Place) (node : Stored) : Files :=
  ⟨(files.entries.filter fun entry => entry.1 != place) ++ [(place, node)]⟩

def nameSizeLimit : Nat := 255

/-- Makes one directory where the way exists and nothing is yet. -/
def makeDirectory (files : Files) (path : String) : Except FileFault Files :=
  let name := String.ofList (path.toList.reverse.dropWhile (· == '/')).reverse
  match files.locate (if name = "" then path else name) with
  | .error fault => .error fault
  | .ok place =>
    if nameSizeLimit < (place.getLastD "").utf8ByteSize then .error .nameTooLong
    else if (files.at? place).isSome then .error .exists
    else .ok (files.put place .directory)

/-- Makes a directory and those on the way to it that do not exist. What was made before a
fault stays. -/
def makePath (files : Files) (path : String) : Files × Option (FileFault × String) :=
  go (path.length + 1) files path
where
  go : Nat → Files → String → Files × Option (FileFault × String)
    | 0, files, path => (files, some (.missing, path))
    | fuel + 1, files, path =>
      let split (path : String) := (Path.dirname path, Path.basename path)
      let (head, tail) := split path
      let (head, tail) := if tail = "" then split head else (head, tail)
      let lacksWay := head != "" && tail != "" && !files.exists? head
      let (files, fault) : Files × Option (FileFault × String) :=
        if lacksWay then
          match go fuel files head with
          | (files, some (.exists, _)) => (files, none)
          | result => result
        else (files, none)
      if fault.isSome then (files, fault)
      else if lacksWay && tail == "." then (files, none)
      else
        match files.makeDirectory path with
        | .ok files => (files, none)
        | .error fault => (files, some (fault, path))

/-- Makes the directories that lead to a place and the place itself a directory, where nothing
is yet. -/
def makeWay (files : Files) (place : Place) : Files :=
  (List.range (place.length + 1)).foldl (fun files n =>
    let above := place.take n
    if (files.at? above).isSome then files else files.put above .directory) files

/-- Puts a file at the place a path names, with the directories that lead there. -/
def write (files : Files) (path : String) (node : Stored) : Files :=
  match files.place? path with
  | some place => (files.makeWay place.dropLast).put place node
  | none =>
    let place := (names path).filter fun name => name ≠ "" && name ≠ "."
    (files.makeWay place.dropLast).put place node

def remove (files : Files) (place : Place) : Files :=
  ⟨files.entries.filter fun entry => entry.1 != place⟩

/-- What a directory holds at the places right below it. -/
def children (files : Files) (directory : Place) : List (Place × Stored) :=
  files.entries.filter fun entry => parent entry.1 == directory

/-- The number of bytes of a file; directories count as one block. -/
def size : Stored → Nat
  | .directory => 4096
  | .file content => content.length
  | .blank size => size

/-- The path of a place, directories with a slash at the end. -/
def entryText : Place × Stored → String
  | (place, .directory) => String.intercalate "/" place ++ "/"
  | (place, _) => String.intercalate "/" place

/-- The paths of everything below the working directory, in the order of their code points. -/
def listing (files : Files) : List String :=
  ((files.entries.filter fun entry => entry.1.head? != some "/").map entryText).mergeSort
    fun a b => decide (a ≤ b)

end Files

end Reel
