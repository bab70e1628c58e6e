import TemplateHost.Context.Basic

/-!
# Packaged support files

The files in which the support code is packaged. All but the last always run first in a context; the
last one can be replaced by a file of one's own.
-/
namespace TemplateHost.Support

def fileName : SupportPart → String
  | .names => "base.py"
  | .strings => "strings.py"
  | .content => "html.py"
  | .collections => "arrays.py"
  | .directions => "bidi.py"
  | .interface => "soyutils.py"

def foundational : List SupportPart := [.names, .strings, .content, .collections, .directions]

def all : List SupportPart := foundational ++ [.interface]

def moduleOf (part : SupportPart) : Module := ⟨fileName part, [.support part]⟩

def pathOf (runtimeDir : String) (part : SupportPart) : String :=
  Path.under runtimeDir (fileName part)

/-- The paths of the files that every context runs before the configurable one. -/
def foundationalPaths (runtimeDir : String) : List String :=
  foundational.map (pathOf runtimeDir)

def packaged (runtimeDir : String) : List Context.Fetched :=
  all.map fun part => ⟨pathOf runtimeDir part, .ok [.module (moduleOf part)]⟩

end TemplateHost.Support
