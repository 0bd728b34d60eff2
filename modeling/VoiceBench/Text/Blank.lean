/-!
# Blanks, words and lines

The Unicode `White_Space` property, which decides what `trim` removes and where `words`
splits, and the line rule of the tools: a text is cut at each line feed, a carriage return
just before a line feed belongs to the line ending, and a final line ending adds no empty
line.
-/

namespace VoiceBench.Text

/-- The characters of the Unicode `White_Space` property: the ASCII controls tab to carriage
return, space, next line, no-break space, ogham space mark, the spaces U+2000 to U+200A,
the line and paragraph separators, narrow no-break space, medium mathematical space and
ideographic space. -/
def isBlank (c : Char) : Bool :=
  let n := c.toNat
  (0x09 ≤ n && n ≤ 0x0D) || n == 0x20 || n == 0x85 || n == 0xA0 || n == 0x1680 ||
    (0x2000 ≤ n && n ≤ 0x200A) || n == 0x2028 || n == 0x2029 || n == 0x202F ||
    n == 0x205F || n == 0x3000

/-- The characters without their leading blanks. -/
def dropBlanks (cs : List Char) : List Char := cs.dropWhile isBlank

/-- The text without leading and trailing blanks. -/
def trim (s : String) : String :=
  String.ofList (dropBlanks (dropBlanks s.toList).reverse).reverse

/-- The text without leading blanks. -/
def trimStart (s : String) : String := String.ofList (dropBlanks s.toList)

/-- The text without trailing blanks. -/
def trimEnd (s : String) : String := String.ofList (dropBlanks s.toList.reverse).reverse

/-- The maximal runs of non-blank characters, in order. -/
def words (s : String) : List String :=
  ((s.toList.splitBy fun a b => isBlank a == isBlank b).filter
      fun run => !run.all isBlank).map String.ofList

/-- A line without the carriage return that ended it. -/
def dropReturn (line : String) : String :=
  if line.endsWith "\r" then String.ofList line.toList.dropLast else line

/-- The lines of a text: cut at each line feed, a carriage return before the feed removed,
no line after a final feed, none at all in the empty text. -/
def lines (s : String) : List String :=
  let parts := (s.toList.splitOn '\n').map String.ofList
  let ended := parts.dropLast.map dropReturn
  match parts.getLast? with
  | none => ended
  | some last => if last.isEmpty then ended else ended ++ [last]

end VoiceBench.Text
