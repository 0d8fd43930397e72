/-!
# Files and folders

A tree of named entries, and what stands at a path in it. `FileTree.kindAt` walks a path part by
part, so that `..` leads out of a folder that is really there; `join` puts a name behind a path.
-/

namespace CatalogSync.Files

/-- A file or a folder with what it holds. -/
inductive FileTree where
  | file
  | folder (entries : List (String × FileTree))
deriving Repr, Inhabited

/-- What can stand at a path. -/
inductive Kind where
  | file
  | folder
deriving DecidableEq, Repr, Inhabited

def parts (path : String) : List String := (path.splitOn "/")

/-- A name behind a path. A name that begins with a slash is a path of its own. -/
def join (path name : String) : String :=
  if name.toList.head? = some '/' then name
  else if path.toList.getLast?.all (· = '/') then path ++ name
  else path ++ "/" ++ name

namespace FileTree

def kind : FileTree → Kind
  | .file => .file
  | .folder _ => .folder

/-- The entry that plain names lead down to. -/
def descend? (tree : FileTree) : List String → Option FileTree
  | [] => some tree
  | name :: names =>
    match tree with
    | .file => none
    | .folder entries => (entries.lookup name).bind fun inner => descend? inner names

/-- Where a part of a path leads from a place, given by the names down to it. Only a folder leads anywhere. -/
def step? (tree : FileTree) (place : List String) (part : String) : Option (List String) :=
  match tree.descend? place with
  | some (.folder entries) =>
    if part = "" || part = "." then some place
    else if part = ".." then some place.dropLast
    else if (entries.lookup part).isSome then some (place ++ [part])
    else none
  | _ => none

/-- What stands at a path, a relative one taken from the folder `here`. -/
def kindAt (tree : FileTree) (here : List String) (path : String) : Option Kind :=
  if path.isEmpty then none
  else
    let start := if path.startsWith "/" then [] else here
    ((parts path).foldlM (tree.step? · ·) start).bind fun place => (tree.descend? place).map kind

end FileTree

end CatalogSync.Files
