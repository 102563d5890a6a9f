/-!
# Shapes of listed values

How a value is written out as text: on one line, or spread over lines with four spaces of
indentation for each level and a comma behind each part.
-/

namespace DvbHost

set_option autoImplicit false

inductive Shape where
  | atom (text : String)
  | list (items : List Shape)
  /-- A name with unnamed parts. -/
  | tuple (name : String) (items : List Shape)
  /-- A name with named parts. -/
  | record (name : String) (fields : List (String × Shape))
  /-- A shape with text directly before and behind it. -/
  | enclosed (before : String) (inner : Shape) (after : String)

namespace Shape

mutual

/-- A shape on one line. -/
def line : Shape → String
  | atom text => text
  | list items => "[" ++ ", ".intercalate (itemLines items) ++ "]"
  | tuple name items => name ++ "(" ++ ", ".intercalate (itemLines items) ++ ")"
  | record name fields => name ++ " \x7b " ++ ", ".intercalate (fieldLines fields) ++ " \x7d"
  | enclosed before inner after => before ++ inner.line ++ after

def itemLines : List Shape → List String
  | [] => []
  | s :: ss => s.line :: itemLines ss

def fieldLines : List (String × Shape) → List String
  | [] => []
  | (name, s) :: fs => (name ++ ": " ++ s.line) :: fieldLines fs

end

/-- Puts text before the first line. -/
def prepend (text : String) : List String → List String
  | [] => [text]
  | l :: ls => (text ++ l) :: ls

/-- Puts text behind the last line. -/
def append (text : String) : List String → List String
  | [] => [text]
  | [l] => [l ++ text]
  | l :: ls => l :: append text ls

/-- A part on lines of its own. -/
def part (lines : List String) : List String := (append "," lines).map ("    " ++ ·)

mutual

/-- A shape spread over lines. -/
def lines : Shape → List String
  | atom text => [text]
  | list [] => ["[]"]
  | list items => "[" :: itemParts items ++ ["]"]
  | tuple name items => (name ++ "(") :: itemParts items ++ [")"]
  | record name fields => (name ++ " \x7b") :: fieldParts fields ++ ["\x7d"]
  | enclosed before inner after => append after (prepend before inner.lines)

def itemParts : List Shape → List String
  | [] => []
  | s :: ss => part s.lines ++ itemParts ss

def fieldParts : List (String × Shape) → List String
  | [] => []
  | (name, s) :: fs => part (prepend (name ++ ": ") s.lines) ++ fieldParts fs

end

end Shape

end DvbHost
