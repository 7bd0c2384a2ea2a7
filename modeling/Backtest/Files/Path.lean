namespace Backtest.Path

def parts (path : String) : List String := path.splitOn "/"

def isAbsolute (path : String) : Bool := path.startsWith "/"

/-- Whether a part names nothing of its own. -/
def isVoid (part : String) : Bool := part == "" || part == "."

/-- The parts of a path without void ones at its end. The first part always stays. -/
def withoutVoidEnd : List String → List String
  | [] => []
  | first :: rest => first :: (rest.reverse.dropWhile isVoid).reverse

/-- The text of a path from its parts; the first part of an absolute path is empty. -/
def ofParts : List String → String
  | [""] => "/"
  | parts => "/".intercalate parts

/-- The path without its last part. The root and the empty path have no parent; the parent of a lone
part is the empty path. -/
def parent? (path : String) : Option String :=
  match (withoutVoidEnd (parts path)).reverse with
  | [] => none
  | [only] => if only == "" then none else some ""
  | _ :: before => some (ofParts (withoutVoidEnd before.reverse))

/-- The path of something in a directory. An absolute path stands for itself. -/
def join (directory path : String) : String :=
  if isAbsolute path then path
  else if directory == "" || directory.endsWith "/" then directory ++ path
  else directory ++ "/" ++ path

/-- A path and its parents, the nearest one first, as far as `count` goes. -/
def ancestorsWithin : Nat → String → List String
  | 0, _ => []
  | count + 1, path =>
    path :: match parent? path with
      | some parent => ancestorsWithin count parent
      | none => []

def ancestors (path : String) : List String := ancestorsWithin (path.length + 1) path

/-- The name of a file without its ending, if it ends in a point and the given letters and has
something before them. -/
def stem? (ending name : String) : Option String :=
  let (after, before) := (name.toList.reverse).span (· != '.')
  match before with
  | _ :: stem =>
    if stem ≠ [] ∧ after.reverse = ending.toList then some (String.ofList stem.reverse) else none
  | [] => none

end Backtest.Path
