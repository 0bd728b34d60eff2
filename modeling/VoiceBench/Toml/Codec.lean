import VoiceBench.Toml.Value

/-!
# TOML libraries

Command maps and configurations are stored as TOML text through a library: `Codec.parse`
reads the text of a document into its table, or says why the text is no document, and
`Codec.render` writes a table as text, or says why it cannot. Which text a library writes for
a table, and which texts it reads, is its own; reading typed data out of a table is this
library's (`Toml.Decode`).
-/

namespace VoiceBench.Toml

/-- A TOML library. -/
structure Codec where
  parse : String → Except String (List (String × Value))
  render : List (String × Value) → Except String String

end VoiceBench.Toml
