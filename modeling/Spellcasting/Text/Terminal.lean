/-! # Texts for terminals -/

namespace Spellcasting.Terminal

/-- A text under the code of a colour or of a weight, which ends with it. -/
def styled (code s : String) : String := "\x1b[" ++ code ++ "m" ++ s ++ "\x1b[0m"

/-- A row of blanks that fills a text up to a width. -/
def blanks (width : Nat) (s : String) : String :=
  String.ofList (List.replicate (width - s.length) ' ')

/-- Fills a text up with blanks behind it. -/
def padRight (width : Nat) (s : String) : String := s ++ blanks width s

/-- Fills a text up with blanks in front of it. -/
def padLeft (width : Nat) (s : String) : String := blanks width s ++ s

end Spellcasting.Terminal
