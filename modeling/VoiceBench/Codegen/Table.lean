import VoiceBench.Codegen.Enum
import VoiceBench.PathName

/-!
# Lookup tables and their headers

A lookup table names every value a byte can take: slot `v` holds the last enumerator declared
with value `v`, or `UNUSED_ENUM`. The header declares the table as a C array of 256 strings,
indexed by value, so firmware status codes can be printed by name. Two headers are equivalent
when their lines agree once every blank inside them is removed, the comparison `diff -w`
makes.

Headers are read from and written to a working directory; writing creates the header's
directory first.
-/

namespace VoiceBench.Codegen

open Text

/-- The name of a slot that no enumerator uses. -/
def unusedName : String := "UNUSED_ENUM"

/-- The number of slots, one per byte value. -/
def tableSize : Nat := 256

/-- A table of 256 names indexed by value. -/
structure Table where
  slots : List String
  deriving Inhabited, Repr, BEq, DecidableEq

namespace Table

/-- The table of a definition: each enumerator written to its slot in declaration order, so the
last one of a value stays. -/
def ofDefinition (d : Definition) : Table :=
  { slots := d.entries.foldl (fun slots e => slots.set e.value e.name)
      (List.replicate tableSize unusedName) }

/-- The name in the slot of a value. -/
def get (t : Table) (v : Nat) : String := t.slots.getD v unusedName

/-- The value and name of every used slot, in value order. -/
def used (t : Table) : List (Nat × String) :=
  (t.slots.zipIdx.filter fun (name, _) => name != unusedName).map fun (name, v) => (v, name)

end Table

/-- The C identifier of an enum's table: the name without a final `_t`, then `_str_map`. -/
def arrayName (enumName : String) : String :=
  (dropSuffix? enumName "_t").getD enumName ++ "_str_map"

/-- The header text declaring the table as a C array of strings. -/
def renderHeader (t : Table) (enumName : String) : String :=
  let banner := "/*********************************/\n"
  let top := banner ++ "/* AUTOGENERATED. DO NOT MODIFY! */\n" ++ banner ++ "\n" ++
    s!"// {enumName} enum value to enum string mapping\n" ++
    s!"const char *{arrayName enumName}[] =\n" ++ "\x7b\n"
  top ++ String.join (t.slots.map fun name => s!"    \"{name}\",\n") ++ "\x7d;\n"

/-- The lines of a text, each without its blanks. -/
def squash (s : String) : List String :=
  (lines s).map fun l => String.ofList (l.toList.filter fun c => !isBlank c)

/-- Whether two headers differ in blanks within lines only. -/
def headersEquivalent (a b : String) : Bool := squash a == squash b

/-- The enum of a header file. -/
def parseEnumFile (w : WorkDir) (path enumName : String) : Except Error Definition :=
  match w.readText path with
  | .ok text => parseEnum text enumName
  | .error e => .error (.cannotRead path e)

/-- Writes the header of a table to a file, creating its directory first. -/
def writeHeader (w : WorkDir) (path : String) (t : Table) (enumName : String) :
    Except Error WorkDir := do
  let w ← match PathName.parent? path with
    | some dir =>
      if dir.isEmpty then pure w
      else
        match w.createDirAll dir with
        | .ok w => pure w
        | .error e => throw (.cannotWrite dir e)
    | none => pure w
  match w.write path (renderHeader t enumName).toUTF8.toList with
  | .ok w => pure w
  | .error e => throw (.cannotWrite path e)

end VoiceBench.Codegen
