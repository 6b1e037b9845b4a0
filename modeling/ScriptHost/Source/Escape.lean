/-!
# Escapes

The escape sequences of text literals.
-/

namespace ScriptHost.Source

/-- The character that stands behind a backslash for the given one. -/
def unescape : Char → Option Char
  | 'n' => some '\n'
  | 't' => some '\t'
  | 'r' => some '\r'
  | '0' => some '\x00'
  | '\\' => some '\\'
  | '"' => some '"'
  | '\'' => some '\''
  | _ => none

end ScriptHost.Source
