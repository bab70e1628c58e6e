import TemplateHost.Html.Escape
import TemplateHost.Library.Strings
import TemplateHost.Uri.Escape
import TemplateHost.Value.Entries

/-!
# Content functions for templates

Content that is safe in the context at hand passes as it is; everything else is taken by its text
and made safe.
-/
namespace TemplateHost.Library

/-- Declares a content safe in the context that `kind` names. -/
def ordainContent (d : Describer) (content kind : Value) : Except Fault Value :=
  if !kind.isKey then .error (.mismatch "unhashable type")
  else
    let context := match kind with
      | .str k => Safety.ofKind k
      | _ => .html
    (textOf d content).map fun s => .safe context (.str s)

def escapeHtml (d : Describer) : Value → Except Fault Value
  | .null => .ok (.str "")
  | .safe .html content => .ok content
  | v => (charsOf d v).map fun s => ofChars (Html.escape s)

def unescapeHtml (d : Describer) (value : Value) : Except Fault Value :=
  (charsOf d value).map fun s => ofChars (Html.unescape s)

def escapeUri (d : Describer) (value : Value) : Except Fault Value :=
  (charsOf d value).map fun s => ofChars (Uri.escape s)

def filterNormalizeUri (d : Describer) : Value → Except Fault Value
  | .safe .uri content => .ok content
  | v => (charsOf d v).map fun s => ofChars (Uri.filter s)

end TemplateHost.Library
