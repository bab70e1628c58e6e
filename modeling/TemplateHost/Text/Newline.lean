/-!
# Line ends

A carriage return, a line feed and the pair of the two are each one line end.
-/
namespace TemplateHost.Text

def replaceLineEnds (mark : List Char) : List Char → List Char
  | [] => []
  | '\r' :: '\n' :: r => mark ++ replaceLineEnds mark r
  | '\r' :: r => mark ++ replaceLineEnds mark r
  | '\n' :: r => mark ++ replaceLineEnds mark r
  | c :: r => c :: replaceLineEnds mark r

/-- A text as it is read from a file: each line end is a line feed. -/
def normalizeLineEnds (s : String) : String := String.ofList (replaceLineEnds ['\n'] s.toList)

end TemplateHost.Text
