import Wiring.NameSet

/-!
# File trees

A tree of folders and files, without links.  Places in it are lists of names from the top.

## Main definitions

* `FileTree` — a file or a folder.
* `FileTree.get?` — what stands at a place.
* `FileTree.put`, `FileTree.erase` — changing what stands at a place.
* `FileTree.files`, `FileTree.folders` — all files and folders with their places.
-/

namespace Wiring

/-- A file or a folder. -/
inductive FileTree where
  /-- A file with its bytes. -/
  | file (content : ByteArray)
  /-- A folder with its entries. -/
  | folder (entries : List (String × FileTree))
  deriving Inhabited

namespace FileTree

/-- The entries of a folder; a file has none. -/
def entries : FileTree → List (String × FileTree)
  | file _ => []
  | folder entries => entries

/-- It is a folder. -/
def isFolder : FileTree → Bool
  | file _ => false
  | folder _ => true

/-- The bytes of a file; a folder has none. -/
def content? : FileTree → Option ByteArray
  | file content => some content
  | folder _ => none

/-- The entry of this name. -/
def entry? (tree : FileTree) (name : String) : Option FileTree := tree.entries.lookup name

/-- What stands at a place. -/
def get? : FileTree → List String → Option FileTree
  | tree, [] => some tree
  | tree, name :: place =>
      match tree.entry? name with
      | none => none
      | some below => get? below place

/-- Sets an entry in a list of entries, at the end if its name is new. -/
def setEntry (name : String) (tree : FileTree) :
    List (String × FileTree) → List (String × FileTree)
  | [] => [(name, tree)]
  | (other, old) :: rest =>
      if name = other then (name, tree) :: rest else (other, old) :: setEntry name tree rest

/-- Puts a tree at a place.  Nothing changes if the way to the place is not there. -/
def put : FileTree → List String → FileTree → FileTree
  | _, [], new => new
  | file content, _ :: _, _ => file content
  | folder entries, [name], new => folder (setEntry name new entries)
  | folder entries, name :: next :: place, new =>
      match entries.lookup name with
      | none => folder entries
      | some below => folder (setEntry name (put below (next :: place) new) entries)

/-- Takes away what stands at a place. -/
def erase : FileTree → List String → FileTree
  | tree, [] => tree
  | file content, _ :: _ => file content
  | folder entries, [name] => folder (entries.filter fun entry => entry.1 ≠ name)
  | folder entries, name :: next :: place =>
      match entries.lookup name with
      | none => folder entries
      | some below => folder (setEntry name (erase below (next :: place)) entries)

mutual

/-- All files below, with their places after the given one. -/
def filesFrom (place : List String) : FileTree → List (List String × ByteArray)
  | file content => [(place, content)]
  | folder entries => filesOfEntries place entries

/-- All files below a list of entries. -/
def filesOfEntries (place : List String) :
    List (String × FileTree) → List (List String × ByteArray)
  | [] => []
  | (name, tree) :: rest => filesFrom (place ++ [name]) tree ++ filesOfEntries place rest

end

/-- All files with their places. -/
def files (tree : FileTree) : List (List String × ByteArray) := tree.filesFrom []

mutual

/-- The places of all folders below, after the given one; a folder comes before those in it. -/
def foldersFrom (place : List String) : FileTree → List (List String)
  | file _ => []
  | folder entries => place :: foldersOfEntries place entries

/-- The places of all folders below a list of entries. -/
def foldersOfEntries (place : List String) : List (String × FileTree) → List (List String)
  | [] => []
  | (name, tree) :: rest => foldersFrom (place ++ [name]) tree ++ foldersOfEntries place rest

end

/-- The places of all folders. -/
def folders (tree : FileTree) : List (List String) := tree.foldersFrom []

end FileTree

end Wiring
