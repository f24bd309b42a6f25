import Stencil.CommandLine.Run

/-!
# Folders in memory

A folder given by its files answers reads as the working folder of the command
would.  Of what lies outside nothing is known but that it holds no file.
-/

namespace Stencil.CommandLine

structure Folder where
  files : Bindings ByteArray

namespace Folder

def parts (path : String) : List String := piecesBetween '/' path

/-- The file at a place, which is the parts of its path, the last one first. -/
def file? (folder : Folder) (place : List String) : Option ByteArray :=
  (folder.files.entries.find? fun file => (parts file.1).reverse = place).map Prod.snd

def hasFolder (folder : Folder) (place : List String) : Bool :=
  folder.files.entries.any fun file =>
    place.reverse.isPrefixOf (parts file.1) && place.length < (parts file.1).length

def walk (folder : Folder) (place : List String) :
    List String → Except ReadFailure (List String)
  | [] => .ok place
  | part :: rest =>
      if part = "" || part = "." then folder.walk place rest
      else if part = ".." then
        match place with
        | [] => folder.walk [".."] rest
        | inner :: outer =>
            if inner = ".." then folder.walk (".." :: place) rest
            else folder.walk outer rest
      else if part.utf8ByteSize > 255 then .error .nameTooLong
      else if folder.hasFolder (part :: place) then folder.walk (part :: place) rest
      else if (folder.file? (part :: place)).isNone then .error .notFound
      else if rest.isEmpty then .ok (part :: place)
      else .error .notDirectory

def readFile (folder : Folder) (path : String) : Except ReadFailure ByteArray :=
  if path.utf8ByteSize ≥ 4096 then .error .nameTooLong
  else
    let start := if path.startsWith "/" then [".."] else []
    match folder.walk start (parts path) with
    | .error failure => .error failure
    | .ok place =>
        match folder.file? place with
        | some content => .ok content
        | none => .error .isDirectory

/-- Reads of the folder, and of what is given as standard input. -/
def reader (folder : Folder) (standardInput : ByteArray) : Source → Except ReadFailure ByteArray
  | .standardInput => .ok standardInput
  | .file path => folder.readFile path

end Folder

end Stencil.CommandLine
