/-!
This module contains files as they are found from the working directory.
-/

namespace FtpControl

abbrev Place := List String

structure FileTree where
  files : List (Place × List UInt8) := []
  dirs : List Place := []

namespace FileTree

def components (path : String) : List String :=
  (path.toList.splitOn '/').map String.ofList

def isDir (tree : FileTree) (place : Place) : Bool :=
  place.isEmpty || tree.dirs.any place.isPrefixOf
    || tree.files.any fun (file, _) => place.isPrefixOf file && place != file

def walk (tree : FileTree) (place : Place) : List String → Option Place
  | [] => some place
  | name :: rest =>
    if !tree.isDir place then none
    else if name = "" ∨ name = "." then tree.walk place rest
    else if name = ".." then
      if place.isEmpty then none else tree.walk place.dropLast rest
    else tree.walk (place ++ [name]) rest

/-- What a file holds. A path that starts with a slash leads out of the tree. -/
def read? (tree : FileTree) (path : String) : Option (List UInt8) := do
  guard (path.toList.head? ≠ some '/')
  tree.files.lookup (← tree.walk [] (components path))

end FileTree

end FtpControl
