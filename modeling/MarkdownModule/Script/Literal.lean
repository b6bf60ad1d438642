import MarkdownModule.Json.Writer

/-!
# Literals in a script

A value is written into a script as its JSON text, with the two line separators of Unicode written
as escapes, since older scripts may not hold them inside a string.
-/

namespace MarkdownModule.Script

def escapeChar (c : Char) : Text :=
  if c = '\u2028' || c = '\u2029' then Json.escapeCode c else Json.escapeChar c

def stringLiteral (s : Text) : Text := Json.quote escapeChar s

def valueLiteral (v : Json.Value) : Text := v.write escapeChar

end MarkdownModule.Script
