/-!
# Comment stripping

C comments are removed one line at a time. A line comment drops the rest of its line; a block
comment is replaced by one blank on the line that opens it and swallows everything up to the
next closing marker, possibly lines later. Whether a block comment is still open is the state
carried from one line to the next.

`stripLine` reads the characters left to right. Outside a comment the first position that
starts either marker decides, which is the earlier of the first line-comment marker and the
first block-comment marker; inside a comment the first closing marker ends it.
-/

namespace VoiceBench.Codegen

/-- The characters of one line that lie outside comments, and whether a block comment is open
at the end of the line, given whether one was open at its start. -/
def stripChars : Bool → List Char → List Char × Bool
  | true, '*' :: '/' :: rest => stripChars false rest
  | true, _ :: rest => stripChars true rest
  | true, [] => ([], true)
  | false, '/' :: '/' :: _ => ([], false)
  | false, '/' :: '*' :: rest =>
    let (out, open_) := stripChars true rest
    (' ' :: out, open_)
  | false, c :: rest =>
    let (out, open_) := stripChars false rest
    (c :: out, open_)
  | false, [] => ([], false)

/-- One line without its comments, and whether a block comment is open after it. -/
def stripLine (inComment : Bool) (line : String) : String × Bool :=
  let (out, open_) := stripChars inComment line.toList
  (String.ofList out, open_)

/-- Every line without its comments, the open block comment carried from line to line. -/
def stripLines : Bool → List String → List String
  | _, [] => []
  | inComment, line :: rest =>
    let (out, open_) := stripLine inComment line
    out :: stripLines open_ rest

end VoiceBench.Codegen
