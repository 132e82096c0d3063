/-! Paths: texts whose parts stand between slashes. -/
namespace ClassXref.Path

def splitAtSlashes : List Char → List (List Char)
  | [] => [[]]
  | c :: rest =>
    if c = '/' then [] :: splitAtSlashes rest
    else match splitAtSlashes rest with
      | [] => [[c]]
      | part :: parts => (c :: part) :: parts

/-- The parts of a path. Slashes side by side, and a slash at an end, have an empty part between
them or beside it. -/
def parts (path : String) : List String :=
  (splitAtSlashes path.toList).map String.ofList

/-- The path of an entry of a folder. -/
def join (folder name : String) : String :=
  if folder.toList.getLast? = some '/' then folder ++ name else folder ++ "/" ++ name

/-- What stands behind the last dot of a name. A dot in front of a name does not count. -/
def extensionOf (name : List Char) : Option String :=
  match name.reverse.dropWhile (· != '.') with
  | '.' :: _ :: _ => some (String.ofList (name.reverse.takeWhile (· != '.')).reverse)
  | _ => none

/-- The extension of the name that a path ends in. -/
def extension? (path : String) : Option String :=
  (splitAtSlashes path.toList).getLast?.bind extensionOf

example : extension? "a.b/c.tar.class" = some "class" := by decide +kernel

example : extension? "a/.class" = none := by decide +kernel

example : extension? "a/x." = some "" := by decide +kernel

end ClassXref.Path
