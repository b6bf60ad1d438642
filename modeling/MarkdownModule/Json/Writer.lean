import MarkdownModule.Json.Value

/-!
# Writing JSON

The text of a value has no spaces.  How a character of a string is written is a parameter: plain
JSON escapes quotes, backslashes and control characters, and a script escapes line separators too.

* `Json.Number.write`  integers as digits, floats as their shortest decimal
* `Json.Value.write`   the text of a value
-/

namespace MarkdownModule.Json

/-! ## numbers -/

/-- the decimal exponents that are written without an exponent part -/
structure PlainRange where
  least : Int
  greatest : Int

/-- numbers from `0.00001` up to below `10 ^ 16` are written without an exponent part -/
def plainRange : PlainRange := ⟨-5, 15⟩

def natDigits (n : Nat) : Text := Nat.toDigits 10 n

def intDigits : Int → Text
  | .ofNat n => natDigits n
  | .negSucc n => '-' :: natDigits (n + 1)

/-- an exponent part, always with its sign -/
def exponentPart (e : Int) : Text := 'e' :: (if 0 ≤ e then '+' :: intDigits e else intDigits e)

/-- a decimal written with a point and no exponent part -/
def plainForm (digits : Text) (power : Int) : Text :=
  if 0 ≤ power then digits ++ List.replicate power.toNat '0' ++ ".0".toList
  else
    let places := (-power).toNat
    if places < digits.length then
      digits.take (digits.length - places) ++ '.' :: digits.drop (digits.length - places)
    else "0.".toList ++ List.replicate (places - digits.length) '0' ++ digits

def exponentForm (digits : Text) (exponent : Int) : Text :=
  match digits with
  | [] => []
  | [d] => d :: exponentPart exponent
  | d :: more => d :: '.' :: more ++ exponentPart exponent

def writeDecimal (d : Decimal) : Text :=
  let digits := natDigits d.digits
  let exponent := d.power + digits.length - 1
  if plainRange.least ≤ exponent && exponent ≤ plainRange.greatest then plainForm digits d.power
  else exponentForm digits exponent

/-- the text of a binary number: its shortest decimal; a zero keeps its sign -/
def writeFloat (x : Binary64) : Text :=
  (if x.negative then ['-'] else []) ++
    (if x.isZero then "0.0".toList else writeDecimal x.shortest)

def Number.write : Number → Text
  | .int n => intDigits n
  | .float x => writeFloat x

/-! ## strings -/

/-- the four hexadecimal digits of a 16-bit code, in lower case -/
def hex4 (n : Nat) : Text :=
  [Nat.digitChar (n / 4096 % 16), Nat.digitChar (n / 256 % 16), Nat.digitChar (n / 16 % 16),
   Nat.digitChar (n % 16)]

def escapeCode (c : Char) : Text := '\\' :: 'u' :: hex4 c.toNat

/-- how plain JSON writes a character of a string -/
def escapeChar (c : Char) : Text :=
  if c = '"' then ['\\', '"']
  else if c = '\\' then ['\\', '\\']
  else if c = '\x08' then ['\\', 'b']
  else if c = '\t' then ['\\', 't']
  else if c = '\n' then ['\\', 'n']
  else if c = '\x0c' then ['\\', 'f']
  else if c = '\r' then ['\\', 'r']
  else if c < ' ' then escapeCode c
  else [c]

def quote (escape : Char → Text) (s : Text) : Text := '"' :: s.flatMap escape ++ ['"']

/-! ## values -/

mutual

/-- the text of a value, the characters of its strings written by `escape` -/
def Value.write (escape : Char → Text) : Value → Text
  | .null => "null".toList
  | .bool true => "true".toList
  | .bool false => "false".toList
  | .number n => n.write
  | .string s => quote escape s
  | .array items => '[' :: writeItems escape items ++ [']']
  | .object members => '\x7b' :: writeMembers escape members ++ ['\x7d']

def writeItems (escape : Char → Text) : List Value → Text
  | [] => []
  | [v] => v.write escape
  | v :: w :: rest => v.write escape ++ ',' :: writeItems escape (w :: rest)

def writeMembers (escape : Char → Text) : List (Text × Value) → Text
  | [] => []
  | [(k, v)] => quote escape k ++ ':' :: v.write escape
  | (k, v) :: m :: rest =>
    quote escape k ++ ':' :: v.write escape ++ ',' :: writeMembers escape (m :: rest)

end

def Value.toText (v : Value) : Text := v.write escapeChar

end MarkdownModule.Json
