/-!
# Displayed values

Records are shown with their field names between braces, sequences
between brackets. Text inside a shown value is quoted: quotes,
backslashes and control characters are escaped, the rest stays as it is.
-/

namespace OneShot.Text

def hexDigits (n : Nat) : String :=
  String.ofList (Nat.toDigits 16 n)

/-- The control characters are the two blocks U+0000 to U+001F and
U+007F to U+009F. -/
def isControl (c : Char) : Bool :=
  c.toNat < 0x20 || (0x7f ≤ c.toNat && c.toNat < 0xa0)

def escape (c : Char) : String :=
  match c with
  | '"' => "\\\""
  | '\\' => "\\\\"
  | '\n' => "\\n"
  | '\r' => "\\r"
  | '\t' => "\\t"
  | '\x00' => "\\0"
  | c => if isControl c then "\\u\x7b" ++ hexDigits c.toNat ++ "\x7d" else c.toString

def quoted (s : String) : String :=
  "\"" ++ String.join (s.toList.map escape) ++ "\""

def field (entry : String × String) : String :=
  entry.1 ++ ": " ++ entry.2

def braced (name : String) (fields : List (String × String)) : String :=
  name ++ " \x7b " ++ ", ".intercalate (fields.map field) ++ " \x7d"

def bracketed (items : List String) : String :=
  "[" ++ ", ".intercalate items ++ "]"

def applied (name argument : String) : String :=
  name ++ "(" ++ argument ++ ")"

def optional : Option String → String
  | none => "None"
  | some s => applied "Some" s

end OneShot.Text
