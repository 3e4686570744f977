import Reel.Environment
import Reel.Yaml.Document
import Reel.Yaml.Printer

/-!
# A plain environment

One environment that can be run: documents are read as YAML with the common scalars and
collections, a picture is what begins like one, and only two users have a home.
-/
namespace Reel

def Yaml.Fault.foreign : Yaml.Fault → Foreign
  | .malformed problem => ⟨.other, "YAMLError", problem.message⟩
  | .unreadable wording => ⟨.value, "ValueError", wording⟩
  | .outOfRange wording => ⟨.other, "OverflowError", wording⟩

namespace Environment

def byteOrderMark : List UInt8 := [0xEF, 0xBB, 0xBF]

/-- The bytes without a mark at their beginning; a mark that breaks off at their end counts. -/
def withoutMark (content : List UInt8) : List UInt8 :=
  if byteOrderMark.isPrefixOf content then content.drop byteOrderMark.length
  else if content.isPrefixOf byteOrderMark then []
  else content

/-- Reads the bytes as UTF-8, and the text as a document. -/
def readDocument (marked : Bool) (source : String) (content : List UInt8) :
    Except Foreign Value :=
  let bytes := if marked then withoutMark content else content
  match Text.decode? bytes with
  | some text => (Yaml.read source text).mapError Yaml.Fault.foreign
  | none =>
    let misfit := Text.misfit? (content.length - bytes.length) bytes
    .error ⟨.value, "UnicodeDecodeError", (misfit.map Text.Misfit.message).getD ""⟩

/-- The first bytes of the pictures that are known. -/
def pictureSignatures : List (List UInt8) :=
  [[0x89, 0x50, 0x4E, 0x47, 0x0D, 0x0A, 0x1A, 0x0A], [0x47, 0x49, 0x46, 0x38, 0x37, 0x61],
    [0x47, 0x49, 0x46, 0x38, 0x39, 0x61]]

def nodeAt? (files : Files) : Value → Option Stored
  | .text path => files.node? path
  | .bytes content => (Files.pathIn? content).bind files.node?
  | _ => none

/-- A file is a picture if it begins like one. -/
def checkPicture (files : Files) (path : Value) : Except Foreign Unit :=
  match nodeAt? files path with
  | some (.file content) =>
    if pictureSignatures.any fun signature => signature.isPrefixOf content then .ok ()
    else .error ⟨.system, "UnidentifiedImageError", "cannot identify image file " ++ path.quoted⟩
  | _ => .error ⟨.system, "FileNotFoundError", FileFault.missing.message ++ ": " ++ path.quoted⟩

def homes : List (String × String) := [("", "home"), ("root", "/root")]

@[reducible] def plain : Environment where
  document := readDocument
  documentText v := .ok (Yaml.write v)
  requirePicture := checkPicture
  homeOf user := .ok (homes.lookup user)

end Environment

end Reel
