import VoiceBench.PathName

/-!
# The working directory

Every tool reads and writes files relative to its working directory. `WorkDir` is that
directory as a value: the files it holds by normalized relative path, and the directories
that were created without a file in them.

A path is resolved as the operating system resolves it (`WorkDir.resolve`): component by
component, each one before the last naming an existing directory, so `x/../f` needs `x` and
`f/.` needs `f` to be a directory; a trailing slash demands a directory. Reads and writes fail
as the operating system would: a missing entry, a file where a directory is needed, a
directory where a file is.
-/

namespace VoiceBench

/-- Why a file operation failed. -/
inductive IoError where
  | notFound
  | isDirectory
  | notDirectory
  | alreadyExists
  | invalidText
  deriving Repr, DecidableEq, Inhabited

/-- The operating system's text for a failure. -/
def IoError.message : IoError → String
  | .notFound => "No such file or directory (os error 2)"
  | .isDirectory => "Is a directory (os error 21)"
  | .notDirectory => "Not a directory (os error 20)"
  | .alreadyExists => "File exists (os error 17)"
  | .invalidText => "stream did not contain valid UTF-8"

/-- A working directory: files by normalized relative path, and empty directories. -/
structure WorkDir where
  files : List (String × List UInt8) := []
  dirs : List String := []
  deriving Inhabited, DecidableEq

namespace WorkDir

/-- The components of a path between its slashes, empty ones included. -/
def split (p : String) : List String :=
  (p.toList.splitOn '/').map String.ofList

/-- The components of a path inside the directory, or `none` if it leaves it: the normal
form under which files are staged into a directory. -/
def components (p : String) : Option (List String) :=
  if p.startsWith "/" then none
  else
    let step (acc : Option (List String)) (part : String) : Option (List String) :=
      acc.bind fun stack =>
        if part = "" ∨ part = "." then some stack
        else if part = ".." then
          if stack.isEmpty then none else some stack.dropLast
        else some (stack ++ [part])
    (split p).foldl step (some [])

/-- The normalized form of a path inside the directory (`""` for the directory itself). -/
def normalize (p : String) : Option String :=
  (components p).map ("/".intercalate ·)

/-- The proper ancestors of a normalized path, nearest last, the root excluded. -/
def ancestors (q : String) : List String :=
  let parts := split q
  (List.range (parts.length - 1)).map fun i => "/".intercalate (parts.take (i + 1))

/-- The parent of a normalized path (`""` for a top-level one). -/
def parent (q : String) : String :=
  (ancestors q).getLast?.getD ""

/-- Contents of the file at a normalized path. -/
def lookup (w : WorkDir) (q : String) : Option (List UInt8) :=
  (w.files.find? (·.1 == q)).map (·.2)

/-- Whether a normalized path is a directory. -/
def isDirAt (w : WorkDir) (q : String) : Bool :=
  q == "" || w.files.any (·.1.startsWith (q ++ "/")) || w.dirs.any fun d =>
    d == q || d.startsWith (q ++ "/")

/-- Where a path leads: an entry of the directory by normalized path, which may or may not
exist, and whether the path demands a directory there because it ends in a slash, `.` or
`..`. The directories on the way to the entry exist. -/
structure Target where
  entry : String
  dirOnly : Bool

/-- Follows components from the directory `cur`, given by its names, which exists: each
component but the last must lead to an existing directory, `.` stays and `..` goes up; the
last names the entry, which a trailing `slash` marks as demanding a directory. -/
def walk (w : WorkDir) (slash : Bool) : List String → List String → Except IoError Target
  | cur, [] => .ok ⟨"/".intercalate cur, true⟩
  | cur, [c] =>
    if c = "" ∨ c = "." then .ok ⟨"/".intercalate cur, true⟩
    else if c = ".." then
      if cur.isEmpty then .error .notFound else .ok ⟨"/".intercalate cur.dropLast, true⟩
    else .ok ⟨"/".intercalate (cur ++ [c]), slash⟩
  | cur, c :: rest =>
    if c = "" ∨ c = "." then walk w slash cur rest
    else if c = ".." then
      if cur.isEmpty then .error .notFound else walk w slash cur.dropLast rest
    else
      let next := "/".intercalate (cur ++ [c])
      if w.isDirAt next then walk w slash (cur ++ [c]) rest
      else if (w.lookup next).isSome then .error .notDirectory
      else .error .notFound

/-- Resolves a path as the operating system does. The empty path names nothing, and neither
does a path that leaves the directory (absolute, or `..` past its root). -/
def resolve (w : WorkDir) (p : String) : Except IoError Target :=
  if p.isEmpty || p.startsWith "/" then .error .notFound
  else
    let parts := split p
    let kept := (parts.reverse.dropWhile (· = "")).reverse
    w.walk (kept.length < parts.length) [] kept

/-- Whether the path names a file. -/
def isFile (w : WorkDir) (p : String) : Bool :=
  match w.resolve p with
  | .ok t => !t.dirOnly && (w.lookup t.entry).isSome
  | .error _ => false

/-- Whether the path names a directory. -/
def isDir (w : WorkDir) (p : String) : Bool :=
  match w.resolve p with
  | .ok t => w.isDirAt t.entry
  | .error _ => false

/-- Whether the path names a file or a directory. -/
def pathExists (w : WorkDir) (p : String) : Bool := w.isFile p || w.isDir p

/-- The bytes of a file. -/
def read (w : WorkDir) (p : String) : Except IoError (List UInt8) := do
  let t ← w.resolve p
  if w.isDirAt t.entry then throw .isDirectory
  match w.lookup t.entry with
  | some bytes => if t.dirOnly then throw .notDirectory else pure bytes
  | none => throw .notFound

/-- The text of a file, which must be UTF-8. -/
def readText (w : WorkDir) (p : String) : Except IoError String := do
  let bytes ← w.read p
  match String.fromUTF8? (ByteArray.mk bytes.toArray) with
  | some s => pure s
  | none => throw .invalidText

/-- The directory with the file at a normalized path set to the given bytes. -/
def put (w : WorkDir) (q : String) (bytes : List UInt8) : WorkDir :=
  if (w.lookup q).isSome then
    { w with files := w.files.map fun e => if e.1 == q then (q, bytes) else e }
  else
    { w with files := w.files ++ [(q, bytes)] }

/-- Creates or replaces a file. A directory cannot be written, nor can a path that demands a
directory: an existing file there is not one, and a new entry would have to be one. -/
def write (w : WorkDir) (p : String) (bytes : List UInt8) : Except IoError WorkDir := do
  let t ← w.resolve p
  if w.isDirAt t.entry then throw .isDirectory
  match w.lookup t.entry with
  | some _ => if t.dirOnly then throw .notDirectory else pure (w.put t.entry bytes)
  | none => if t.dirOnly then throw .isDirectory else pure (w.put t.entry bytes)

/-- Creates one directory; an entry of that name must not exist yet. -/
def mkdir (w : WorkDir) (p : String) : Except IoError WorkDir := do
  let t ← w.resolve p
  if w.isDirAt t.entry || (w.lookup t.entry).isSome then throw .alreadyExists
  pure { w with dirs := w.dirs ++ [t.entry] }

/-- Creates a directory and its missing ancestors: the directory itself is created, and only
if its parent is missing is the parent created first and the directory tried again. An
existing directory is no failure; the empty path is the directory itself. `fuel` bounds the
ancestors, each of which is shorter than the path. -/
def createDirAllFrom : Nat → WorkDir → String → Except IoError WorkDir
  | 0, w, _ => .ok w
  | fuel + 1, w, p =>
    if p.isEmpty then .ok w
    else
      match w.mkdir p with
      | .ok w' => .ok w'
      | .error .notFound =>
        match PathName.parent? p with
        | none => .error .notFound
        | some q => do
          let w ← createDirAllFrom fuel w q
          match w.mkdir p with
          | .ok w' => .ok w'
          | .error e => if w.isDir p then .ok w else .error e
      | .error e => if w.isDir p then .ok w else .error e

/-- Creates a directory and its missing ancestors. -/
def createDirAll (w : WorkDir) (p : String) : Except IoError WorkDir :=
  createDirAllFrom (p.length + 1) w p

/-- Removes a file, if the path names one. -/
def erase (w : WorkDir) (p : String) : WorkDir :=
  match w.resolve p with
  | .ok t => if t.dirOnly then w else { w with files := w.files.filter (·.1 != t.entry) }
  | .error _ => w

/-- The directory with the given files added or replaced, their paths normalized; a path
that leaves the directory is passed over. -/
def stage (w : WorkDir) (entries : List (String × List UInt8)) : WorkDir :=
  let add (w : WorkDir) (entry : String × List UInt8) : WorkDir :=
    match normalize entry.1 with
    | some q => w.put q entry.2
    | none => w
  entries.foldl add w

/-- A directory holding the given files, their paths normalized. -/
def ofFiles (entries : List (String × List UInt8)) : WorkDir := stage {} entries

end WorkDir

end VoiceBench
