/-!
# Names within paths

The parts of a relative path that the tools print or derive names from. A path is read as
its components between slashes; empty components and `.` components after the first are
dropped. The file name is the last component unless that is `..` or there is none; the
stem is the file name without its last extension, where a name whose only dot is its
first character has no extension.
-/

namespace VoiceBench.PathName

/-- The components of a path that name something, `.` and empty ones dropped. -/
def parts (p : String) : List String :=
  ((p.toList.splitOn '/').map String.ofList).filter fun c => c ≠ "" ∧ c ≠ "."

/-- The last component, unless the path ends in `..`, is a root or names nothing. -/
def fileName? (p : String) : Option String :=
  match (parts p).getLast? with
  | some ".." => none
  | other => other

/-- The file name without its last extension. -/
def fileStem? (p : String) : Option String :=
  (fileName? p).map fun name =>
    match (name.splitOn ".").dropLast with
    | [] => name
    | [""] => name
    | before => ".".intercalate before

/-- The segments of a path without trailing empty and `.` segments; the first segment, a
root or a leading `.`, stays. -/
def trimTail : List String → List String
  | [] => []
  | first :: rest => first :: (rest.reverse.dropWhile fun seg => seg = "" ∨ seg = ".").reverse

/-- The path without its last component, as the path is written: `none` for an empty path or
a root, `""` for a single component. -/
def parent? (p : String) : Option String :=
  match trimTail (p.splitOn "/") with
  | [] | [""] => none
  | [_] => some ""
  | segs =>
    match trimTail segs.dropLast with
    | [""] => some "/"
    | rest => some ("/".intercalate rest)

/-- A path followed by a relative one, with one slash between them; an absolute second
path replaces the first. -/
def join (dir name : String) : String :=
  if name.startsWith "/" || dir.isEmpty then name
  else if dir.endsWith "/" then dir ++ name
  else dir ++ "/" ++ name

end VoiceBench.PathName
