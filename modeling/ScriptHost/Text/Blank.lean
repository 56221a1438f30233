import ScriptHost.Text.Ranges

/-! White space: the 25 characters of the Unicode property White_Space, and cutting them from
both ends of a text. -/

namespace ScriptHost.Text

def blankRanges : Ranges :=
  [(0x9, 0xD), (0x20, 0x20), (0x85, 0x85), (0xA0, 0xA0), (0x1680, 0x1680), (0x2000, 0x200A),
   (0x2028, 0x2029), (0x202F, 0x202F), (0x205F, 0x205F), (0x3000, 0x3000)]

def isBlank (c : Char) : Bool := blankRanges.covers c

def dropBlanks (s : List Char) : List Char := s.dropWhile isBlank

def trim (s : List Char) : List Char := (dropBlanks (dropBlanks s).reverse).reverse

end ScriptHost.Text
