import CatalogSync.Text.Decimal

/-!
# Spans of time

Lengths of time in nanoseconds, and their text in the largest unit that has a whole part.
-/

namespace CatalogSync.Time

/-- A length of time. -/
structure Span where
  nanos : Nat
deriving DecidableEq, Repr, Inhabited

namespace Span

open CatalogSync.Text

def ofMillis (n : Nat) : Span := ⟨n * 1000000⟩

def ofSeconds (n : Nat) : Span := ⟨n * 1000000000⟩

def seconds (s : Span) : Nat := s.nanos / 1000000000

def millis (s : Span) : Nat := s.nanos / 1000000

/-- `n / 10 ^ places` in decimal, without zeros at the end of the fraction. -/
def inUnit (n places : Nat) : List Char :=
  let fraction := (Decimal.padded places (n % Nat.pow 10 places)).reverse.dropWhile (· = '0') |>.reverse
  let fraction := if places = 0 || n % Nat.pow 10 places = 0 then [] else '.' :: fraction
  Decimal.digits (n / Nat.pow 10 places) ++ fraction

/-- The text of a span. -/
def text (s : Span) : String :=
  String.ofList <|
    if 1000000000 ≤ s.nanos then inUnit s.nanos 9 ++ ['s']
    else if 1000000 ≤ s.nanos then inUnit s.nanos 6 ++ ['m', 's']
    else if 1000 ≤ s.nanos then inUnit s.nanos 3 ++ ['µ', 's']
    else inUnit s.nanos 0 ++ ['n', 's']

end Span

end CatalogSync.Time
