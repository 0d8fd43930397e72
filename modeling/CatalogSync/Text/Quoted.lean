import CatalogSync.Text.Printable

/-!
# Quoted texts

A text between double quotes, with escapes for what does not show: `quoted` for plain texts and
`quotedPath` for paths, which escape the single quote as well.
-/

namespace CatalogSync.Text

def hexDigit (n : Nat) : Char := if n < 10 then Char.ofNat (48 + n) else Char.ofNat (87 + n)

/-- A natural number in hexadecimal, without zeros in front. -/
def hexDigits (n : Nat) : List Char :=
  if n < 16 then [hexDigit n] else hexDigits (n / 16) ++ [hexDigit (n % 16)]
termination_by n
decreasing_by omega

def numberEscape (c : Char) : List Char := "\\u\x7b".toList ++ hexDigits c.toNat ++ ['\x7d']

/-- A character as it stands inside quotes; `single` says whether the single quote is escaped. -/
def quotedChar (single : Bool) (c : Char) : List Char :=
  if c = '\x00' then ['\\', '0']
  else if c = '\t' then ['\\', 't']
  else if c = '\r' then ['\\', 'r']
  else if c = '\n' then ['\\', 'n']
  else if c = '"' || c = '\\' || (single && c = '\'') then ['\\', c]
  else if c.toNat < 0x7F then (if c.toNat < 0x20 then numberEscape c else [c])
  else if c.toNat < 0x80 then numberEscape c
  else if hasMark c then [c] else numberEscape c

def quotedWith (single : Bool) (s : String) : String :=
  String.ofList ('"' :: s.toList.flatMap (quotedChar single) ++ ['"'])

/-- A text between double quotes, as error texts and task descriptions show it. -/
def quoted (s : String) : String := quotedWith false s

def quotedPath (s : String) : String := quotedWith true s

end CatalogSync.Text
