/-!
# Occurrences of a pattern in a text

Two uses of a pattern that file names are built and read with. `replace` puts a replacement in
place of every occurrence of a pattern, found from the left without overlap, so that
`"aaaaa"` with `"aa"` replaced by `"b"` is `"bba"`; an empty pattern occurs before every
character and at the end. `splitLast?` cuts a text around the last occurrence of a separator,
if there is one; an empty separator occurs at the end.

`substitute` replaces placeholders one after the other, as naming patterns are filled in.
Everything works on the characters of the texts.
-/

namespace VoiceBench.Text

/-- The characters with every occurrence of the non-empty pattern `p :: ps`, found from the
left without overlap, replaced by `rep`. -/
def replaceFrom (p : Char) (ps rep : List Char) : List Char → List Char
  | [] => []
  | c :: cs =>
    if c = p ∧ ps.isPrefixOf cs then rep ++ replaceFrom p ps rep (cs.drop ps.length)
    else c :: replaceFrom p ps rep cs
termination_by cs => cs.length
decreasing_by
  all_goals simp only [List.length_cons, List.length_drop]
  all_goals omega

/-- The characters with every occurrence of `pat` replaced by `rep`. -/
def replaceChars (pat rep : List Char) (cs : List Char) : List Char :=
  match pat with
  | [] => rep ++ cs.flatMap (· :: rep)
  | p :: ps => replaceFrom p ps rep cs

/-- The text with every occurrence of `pat`, found from the left without overlap, replaced by
`rep`. -/
def replace (s pat rep : String) : String :=
  String.ofList (replaceChars pat.toList rep.toList s.toList)

/-- The characters before and after the last occurrence of `sep`. -/
def splitLastChars? (sep : List Char) : List Char → Option (List Char × List Char)
  | [] => if sep.isEmpty then some ([], []) else none
  | c :: cs =>
    match splitLastChars? sep cs with
    | some (before, after) => some (c :: before, after)
    | none => if sep.isPrefixOf (c :: cs) then some ([], (c :: cs).drop sep.length) else none

/-- The text before and after the last occurrence of `sep`, if it has one. -/
def splitLast? (s sep : String) : Option (String × String) :=
  (splitLastChars? sep.toList s.toList).map fun parts =>
    (String.ofList parts.1, String.ofList parts.2)

/-- The pattern with each placeholder replaced by its value, one placeholder after the other. -/
def substitute (pattern : String) (values : List (String × String)) : String :=
  values.foldl (fun text pv => replace text pv.1 pv.2) pattern

end VoiceBench.Text
