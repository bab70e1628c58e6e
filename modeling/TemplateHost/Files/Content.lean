import TemplateHost.Code.Source
import TemplateHost.Text.Utf8

/-!
# Contents of files

A file holds bytes and generated modules one after the other, or a template source. Reading a file
as text decodes the bytes and unifies line ends; generated modules are text already. Sources are for
the compiler to read; as code they are empty.
-/
namespace TemplateHost

inductive Chunk where
  | bytes (b : List UInt8)
  | module (m : Module)
  | source (s : TemplateSource)

abbrev Content := List Chunk

namespace Content

def ofText (s : String) : Content := [.bytes (Text.Utf8.encode s)]

def ofModule (m : Module) : Content := [.module m]

def readPassage : Chunk → Except Text.Utf8.Failure Passage
  | .bytes b => (Text.Utf8.decode b).map fun s => .text (Text.normalizeLineEnds s)
  | .module m => .ok (.module m)
  | .source _ => .ok (.text "")

def read (c : Content) : Except Text.Utf8.Failure Source := c.mapM readPassage

def ofPassage : Passage → Chunk
  | .text s => .bytes (Text.Utf8.encode s)
  | .module m => .module m

def ofSource (s : Source) : Content := s.map ofPassage

/-- The headers of the modules in a file that starts with one. -/
def headers? : Content → Option (List String)
  | .module m :: r => some (m.header :: r.filterMap fun
      | .module m => some m.header
      | .bytes _ | .source _ => none)
  | _ => none

def bytes (c : Content) : List UInt8 := c.flatMap fun
  | .bytes b => b
  | .module _ | .source _ => []

def source? : Content → Option TemplateSource
  | [.source s] => some s
  | _ => none

end Content

end TemplateHost
