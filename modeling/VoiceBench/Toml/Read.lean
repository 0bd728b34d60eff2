import VoiceBench.Toml.Lexical

/-!
# Reading TOML documents

A document is read line by line. A line holds a key-value pair, a table header `[a.b]`, an
array-of-tables header `[[a.b]]`, or nothing, each followed by an optional comment. Values are
scalars, arrays (across lines, with comments, a trailing comma allowed) and inline tables (on
one line, no trailing comma).

While reading, a table remembers how it came to be, since that decides what may extend it:
a header defines a table once; a table created on the way to a header may be defined by a
header later; a table created by a dotted key may be extended by dotted keys only; an inline
table or an array written as a value is closed. The table a header opens is kept apart while
its pairs are read and put in place when the next header or the end of the document comes, the
way the pairs of a section are collected before the section is filed.
-/

namespace VoiceBench.Toml

/-- How a table came to be. -/
inductive Origin where
  /-- Opened by a header, or an element of an array of tables. -/
  | header
  /-- Created on the way to a header; a header may still define it. -/
  | implicit
  /-- Created by a dotted key; only dotted keys extend it. -/
  | dotted
  deriving Inhabited, Repr, BEq, DecidableEq

/-- A node of a document being read. -/
inductive Item where
  /-- A value written after an equals sign: closed to extension. -/
  | value (v : Value)
  /-- A table and how it came to be. -/
  | table (origin : Origin) (entries : List (String × Item))
  /-- An array of tables, each element opened by a header. -/
  | tables (elements : List (List (String × Item)))
  deriving Inhabited, Repr

/-- The entries of a table being read. -/
abbrev Entries := List (String × Item)

namespace Item

mutual

/-- The value a node stands for. -/
def toValue : Item → Value
  | .value v => v
  | .table _ entries => .table (entriesToValue entries)
  | .tables elements => .array (tablesToValue elements)

/-- The values of a table's entries. -/
def entriesToValue : Entries → List (String × Value)
  | [] => []
  | (k, item) :: rest => (k, toValue item) :: entriesToValue rest

/-- The tables of an array of tables. -/
def tablesToValue : List Entries → List Value
  | [] => []
  | entries :: rest => .table (entriesToValue entries) :: tablesToValue rest

end

end Item

/-- The node bound to a key. -/
def findItem (entries : Entries) (key : String) : Option Item :=
  (entries.find? (·.1 == key)).map (·.2)

/-- The entries with the node of a key replaced. -/
def replaceItem (entries : Entries) (key : String) (item : Item) : Entries :=
  entries.map fun (k, old) => if k == key then (k, item) else (k, old)

/-- A new key bound after the others; a key already present is a duplicate. -/
def insertNew (entries : Entries) (key : String) (item : Item) : Except String Entries :=
  if entries.any (·.1 == key) then .error s!"duplicate key {key}" else .ok (entries ++ [(key, item)])

/-- The pair of a dotted key bound in a table: the key's leading parts walk through tables
created by dotted keys (or on the way to headers), creating them when absent; the table the
last part lands in must itself come from dotted keys, and `dottedHere` says whether it does. -/
def putDotted : List String → String → Value → Bool → Entries → Except String Entries
  | [], key, v, dottedHere, entries =>
    if dottedHere then insertNew entries key (.value v)
    else .error s!"duplicate key {key}"
  | p :: ps, key, v, _, entries =>
    match findItem entries p with
    | none => do
      let inner ← putDotted ps key v true []
      .ok (entries ++ [(p, .table .dotted inner)])
    | some (.value _) => .error s!"cannot extend value {p}"
    | some (.tables elements) =>
      match elements.getLast? with
      | some last => do
        let last ← putDotted ps key v false last
        .ok (replaceItem entries p (.tables (elements.dropLast ++ [last])))
      | none => .error s!"cannot extend {p}"
    | some (.table .header _) => .error s!"duplicate key {p}"
    | some (.table origin inner) => do
      let inner ← putDotted ps key v (origin == .dotted) inner
      .ok (replaceItem entries p (.table origin inner))

/-- A key-value pair bound in a table: a plain key directly, a dotted key through
`putDotted`. -/
def putPair (entries : Entries) (path : List String) (v : Value) : Except String Entries :=
  match path.reverse with
  | [] => .error "empty key"
  | key :: revPrefix =>
    match revPrefix with
    | [] => insertNew entries key (.value v)
    | _ => putDotted revPrefix.reverse key v false entries

/-- A change made at the end of a header's leading parts: the parts walk through tables and
into the last element of arrays of tables, creating absent tables on the way. -/
def atPath {α : Type} (f : Entries → Except String (Entries × α)) :
    List String → Entries → Except String (Entries × α)
  | [], entries => f entries
  | p :: ps, entries =>
    match findItem entries p with
    | none => do
      let (inner, a) ← atPath f ps []
      .ok (entries ++ [(p, .table .implicit inner)], a)
    | some (.value _) => .error s!"cannot extend value {p}"
    | some (.tables elements) =>
      match elements.getLast? with
      | some last => do
        let (last, a) ← atPath f ps last
        .ok (replaceItem entries p (.tables (elements.dropLast ++ [last])), a)
      | none => .error s!"cannot extend {p}"
    | some (.table origin inner) => do
      let (inner, a) ← atPath f ps inner
      .ok (replaceItem entries p (.table origin inner), a)

/-- The leading parts of a header and its last part. -/
def splitHeader (path : List String) : Except String (List String × String) :=
  match path.reverse with
  | key :: revPrefix => .ok (revPrefix.reverse, key)
  | [] => .error "empty header"

/-- The section being read: the entries of its table, its header and whether the header
adds to an array of tables. -/
structure Section where
  entries : Entries
  path : List String
  isArray : Bool
  deriving Inhabited

/-- The section filed in the document: the root section becomes the document, a table
section takes the place of its key, an array section is added to its array. -/
def fileSection (root : Entries) (s : Section) : Except String Entries :=
  match s.path with
  | [] => .ok s.entries
  | _ => do
    let (parents, key) ← splitHeader s.path
    let (root, _) ← atPath (fun parent =>
      match findItem parent key with
      | none =>
        if s.isArray then .ok (parent ++ [(key, .tables [s.entries])], ())
        else .ok (parent ++ [(key, .table .header s.entries)], ())
      | some (.tables elements) =>
        if s.isArray then .ok (replaceItem parent key (.tables (elements ++ [s.entries])), ())
        else .error s!"duplicate key {key}"
      | some (.table .header _) => .error s!"duplicate key {key}"
      | some (.table _ _) =>
        if s.isArray then .error s!"duplicate key {key}"
        else .ok (replaceItem parent key (.table .header s.entries), ())
      | some (.value _) => .error s!"duplicate key {key}") parents root
    .ok root

/-- The entries without a key. -/
def removeKey (entries : Entries) (key : String) : Entries :=
  entries.filter (·.1 != key)

/-- The section a table header opens: a table created on the way to an earlier header is
taken over with its entries; any other node under the key makes the header a duplicate. -/
def openTable (root : Entries) (path : List String) : Except String (Entries × Section) := do
  let (parents, key) ← splitHeader path
  let (root, entries) ← atPath (fun parent =>
    match findItem parent key with
    | none => .ok (parent, [])
    | some (.table .implicit inner) => .ok (removeKey parent key, inner)
    | some _ => .error s!"duplicate key {key}") parents root
  .ok (root, { entries, path, isArray := false })

/-- The section an array-of-tables header opens; the array is created when absent. -/
def openArray (root : Entries) (path : List String) : Except String (Entries × Section) := do
  let (parents, key) ← splitHeader path
  let (root, _) ← atPath (fun parent =>
    match findItem parent key with
    | none => .ok (parent ++ [(key, .tables [])], ())
    | some (.tables _) => .ok (parent, ())
    | some _ => .error s!"duplicate key {key}") parents root
  .ok (root, { entries := [], path, isArray := true })

/-- The characters after blanks, comments and line endings. -/
def skipGap : Nat → List Char → Except String (List Char)
  | 0, _ => .error "input too long"
  | fuel + 1, cs =>
    match skipSpaces cs with
    | '#' :: rest =>
      match newline? (skipComment ('#' :: rest)) with
      | some after => skipGap fuel after
      | none =>
        if (skipComment ('#' :: rest)).isEmpty then .ok [] else .error "invalid comment"
    | rest =>
      match newline? rest with
      | some after => skipGap fuel after
      | none => .ok rest

mutual

/-- A value at the front of the characters, `fuel` bounding the nesting and the items. -/
def readValue : Nat → Reader Value
  | 0, _ => .error "input too long"
  | fuel + 1, cs =>
    match cs with
    | '"' :: _ | '\'' :: _ => do
      let (s, rest) ← readString cs
      .ok (.string s, rest)
    | '[' :: rest => readArray fuel [] rest
    | '{' :: rest => readInline fuel [] (skipSpaces rest)
    | _ => readScalar cs

/-- The items of an array after its opening bracket or a comma, `items` read so far. -/
def readArray : Nat → List Value → Reader Value
  | 0, _, _ => .error "input too long"
  | fuel + 1, items, cs => do
    let cs ← skipGap (cs.length + 1) cs
    match cs with
    | ']' :: rest => .ok (.array items.reverse, rest)
    | _ => do
      let (v, rest) ← readValue fuel cs
      let rest ← skipGap (rest.length + 1) rest
      match rest with
      | ',' :: more => readArray fuel (v :: items) more
      | ']' :: more => .ok (.array (v :: items).reverse, more)
      | _ => .error "expected a comma or the end of the array"

/-- The pairs of an inline table after its opening brace, `entries` read so far. -/
def readInline : Nat → Entries → Reader Value
  | 0, _, _ => .error "input too long"
  | fuel + 1, entries, cs =>
    match cs with
    | '}' :: rest =>
      if entries.isEmpty then .ok (.table (Item.entriesToValue entries), rest)
      else .error "trailing comma in inline table"
    | _ => do
      let (path, rest) ← readKey cs
      match skipSpaces rest with
      | '=' :: rest => do
        let (v, rest) ← readValue fuel (skipSpaces rest)
        let entries ← putPair entries path v
        match skipSpaces rest with
        | ',' :: more => readInline fuel entries (skipSpaces more)
        | '}' :: more => .ok (.table (Item.entriesToValue entries), more)
        | _ => .error "expected a comma or the end of the inline table"
      | _ => .error "expected an equals sign"

end

/-- The end of a line after its content: blanks, an optional comment, then a line ending or
the end of the text. -/
def endLine (cs : List Char) : Except String (List Char) :=
  let rest := skipComment (skipSpaces cs)
  match newline? rest with
  | some after => .ok after
  | none => if rest.isEmpty then .ok [] else .error "expected the end of the line"

/-- The key of a header and what follows its closing brackets. -/
def readHeaderKey (cs : List Char) (closing : List Char) : Except String (List String × List Char) := do
  let (path, rest) ← readKey (skipSpaces cs)
  let rest := skipSpaces rest
  if closing.isPrefixOf rest then .ok (path, rest.drop closing.length)
  else .error "expected the end of the header"

/-- The lines of a document from a point on, given the document so far and the section being
read; `fuel` bounds the lines. -/
def readLines : Nat → Entries → Section → List Char → Except String Entries
  | 0, _, _, _ => .error "input too long"
  | fuel + 1, root, sec, cs =>
    let line := skipSpaces cs
    match line with
    | [] => fileSection root sec
    | '[' :: '[' :: rest => do
      let (path, rest) ← readHeaderKey rest [']', ']']
      let after ← endLine rest
      let root ← fileSection root sec
      let (root, sec) ← openArray root path
      readLines fuel root sec after
    | '[' :: rest => do
      let (path, rest) ← readHeaderKey rest [']']
      let after ← endLine rest
      let root ← fileSection root sec
      let (root, sec) ← openTable root path
      readLines fuel root sec after
    | '#' :: _ | '\n' :: _ | '\r' :: _ => do
      let after ← endLine line
      readLines fuel root sec after
    | _ => do
      let (path, rest) ← readKey line
      match skipSpaces rest with
      | '=' :: rest => do
        let (v, rest) ← readValue (rest.length + 1) (skipSpaces rest)
        let after ← endLine rest
        let entries ← putPair sec.entries path v
        readLines fuel root { sec with entries } after
      | _ => .error "expected an equals sign"

/-- The table a TOML text describes, or why the text is not TOML. A leading byte order mark is
skipped. -/
def parse (text : String) : Except String (List (String × Value)) := do
  let cs := match text.toList with
    | '\uFEFF' :: rest => rest
    | cs => cs
  let root ← readLines (cs.length + 2) [] { entries := [], path := [], isArray := false } cs
  .ok (Item.entriesToValue root)

end VoiceBench.Toml
