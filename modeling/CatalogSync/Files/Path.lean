/-!
# Names and directories of paths

The last name of a path is what a file is called by. Slashes behind it and dots that stand for the place itself name
nothing, so `withEnding` and `directoryOf` look past them. A path that leads up or stands for the top has no name.
-/

namespace CatalogSync.Files

/-- A path from its end, short of what names nothing there. -/
def dropUnnamed : List Char → List Char
  | '/' :: r => dropUnnamed r
  | ['.'] => []
  | '.' :: '/' :: r => dropUnnamed r
  | r => r

theorem dropUnnamed_named {c : Char} {r : List Char} (hslash : c ≠ '/') (hdot : c ≠ '.') :
    dropUnnamed (c :: r) = c :: r := by
  unfold dropUnnamed
  split
  · next heq => exact absurd (List.cons.inj heq).1 hslash
  · next heq => exact absurd (List.cons.inj heq).1 hdot
  · next heq => exact absurd (List.cons.inj heq).1 hdot
  · rfl

/-- The last name of a path that is given from its end. -/
def lastName (reversed : List Char) : List Char := reversed.takeWhile (· ≠ '/')

/-- Whether a name is one that a file can have. -/
def isFileName (name : List Char) : Bool := !name.isEmpty && name != ['.', '.']

/-- A path with another ending after the last dot of its name, unless that dot is in front of it. -/
def withEnding (path ending : String) : String :=
  let reversed := dropUnnamed path.toList.reverse
  let name := lastName reversed
  if isFileName name then
    let stem := (name.dropWhile (· ≠ '.')).drop 1
    let kept := if stem.isEmpty then reversed else stem ++ reversed.drop name.length
    String.ofList kept.reverse ++ "." ++ ending
  else path

/-- Where a path starts. -/
def origin : List Char → String
  | '/' :: _ => "/"
  | '.' :: '/' :: _ => "."
  | _ => ""

/-- The directory that the last name of a path is in. -/
def directoryOf (path : String) : Option String :=
  let reversed := dropUnnamed path.toList.reverse
  if reversed.isEmpty then if path.toList.head? = some '.' then some "" else none
  else
    let above := dropUnnamed (reversed.dropWhile (· ≠ '/'))
    some (if above.isEmpty then origin path.toList else String.ofList above.reverse)

end CatalogSync.Files
