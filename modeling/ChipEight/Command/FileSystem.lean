/-
# Files by path

The files of a host that is given in advance: what stands at each place, and
the place where relative paths start. A path is followed part by part, and every
part asks that the place reached so far is a directory. A path through a file
fails therefore even if it would come back to a directory, and so does a path
that ends in a slash after a file.
-/

import ChipEight.Fault

namespace ChipEight

/-- What stands at a place of a file system. -/
inductive FileEntry
  /-- A file with its contents. -/
  | file (contents : List UInt8)
  /-- A directory. What it holds stands at the places below it. -/
  | directory
  deriving DecidableEq

/-- A place of a file system: the names that lead to it, the innermost first.
The root is the place without names. -/
abbrev FilePlace := List String

/-- The files and directories that paths can name. -/
structure FileSystem where
  /-- What stands at a place, if anything does. -/
  entry? : FilePlace → Option FileEntry
  /-- The place where a path starts that does not start at the root. -/
  working : FilePlace

namespace FileSystem

/-- The number of bytes that a path can have. -/
def longestPath : Nat := 4095

/-- The number of bytes that one name can have. -/
def longestName : Nat := 255

/-- The place that one part of a path leads to from a directory. An empty part,
which stands between two slashes or after the last one, stays there as `.`
does. The root is its own parent. -/
def within (place : FilePlace) (part : String) : Except SystemError FilePlace :=
  if part = "" ∨ part = "." then .ok place
  else if part = ".." then .ok place.tail
  else if longestName < part.utf8ByteSize then .error .nameTooLong
  else .ok (part :: place)

/-- Follow one part of a path. Only directories can be left. -/
def step (files : FileSystem) (place : FilePlace) (part : String) :
    Except SystemError FilePlace :=
  match files.entry? place with
  | none => .error .notFound
  | some (.file _) => .error .notDirectory
  | some .directory => within place part

/-- Follow the parts of a path. The place it ends at may be empty. -/
def follow (files : FileSystem) (place : FilePlace) :
    List String → Except SystemError FilePlace
  | [] => .ok place
  | part :: rest =>
    match files.step place part with
    | .error cause => .error cause
    | .ok next => files.follow next rest

/-- Where a path starts: at the root if a slash is in front. -/
def start (files : FileSystem) (path : String) : FilePlace :=
  if path.startsWith "/" then [] else files.working

/-- The contents of the file at a place. -/
def fileAt (files : FileSystem) (place : FilePlace) : Except SystemError (List UInt8) :=
  match files.entry? place with
  | none => .error .notFound
  | some .directory => .error .isDirectory
  | some (.file contents) => .ok contents

/-- The contents of the file that a path names. The empty path names nothing,
and the length of a path is looked at before any of its parts. -/
def read (files : FileSystem) (path : String) : Except SystemError (List UInt8) :=
  if path = "" then .error .notFound
  else if longestPath < path.utf8ByteSize then .error .nameTooLong
  else
    match files.follow (files.start path) (path.splitOn "/") with
    | .error cause => .error cause
    | .ok place => files.fileAt place

end FileSystem

end ChipEight
