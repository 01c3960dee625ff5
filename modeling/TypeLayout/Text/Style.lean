/-! Terminal styles. `paint` puts a style around a text and opens it again after every reset
inside, so a painted text may hold painted pieces. -/

namespace TypeLayout.Text

inductive Color
  | red | green | yellow | blue | magenta | cyan
deriving DecidableEq, Repr

def Color.code : Color → String
  | .red => "31" | .green => "32" | .yellow => "33"
  | .blue => "34" | .magenta => "35" | .cyan => "36"

inductive Style
  | bold
  | dimmed
  | plain (color : Color)
  | strong (color : Color)
deriving DecidableEq, Repr

def Style.codes : Style → String
  | .bold => "1"
  | .dimmed => "2"
  | .plain color => color.code
  | .strong color => "1;" ++ color.code

def escape : Char := '\x1b'

def Style.opening (s : Style) : List Char := escape :: '[' :: s.codes.toList ++ ['m']

def closing : List Char := [escape, '[', '0', 'm']

def Style.reopen (s : Style) : List Char → List Char
  | '\x1b' :: '[' :: '0' :: 'm' :: cs => closing ++ s.opening ++ s.reopen cs
  | c :: cs => c :: s.reopen cs
  | [] => []

def Style.paint (s : Style) (text : String) : String :=
  String.ofList (s.opening ++ s.reopen text.toList ++ closing)

def paintIf (colored : Bool) (s : Style) (text : String) : String :=
  if colored then s.paint text else text

end TypeLayout.Text
