import TemplateHost.Library.Collections
import TemplateHost.Library.Content
import TemplateHost.Library.Directions
import TemplateHost.Library.Rounding

/-!
# The library of pure functions

Functions of their arguments alone, with the names that templates call them by.
-/
namespace TemplateHost.Library

inductive Function where
  | strContains
  | strIndexOf
  | strSub
  | collapseWhitespace
  | changeNewlineToBr
  | truncate
  | insertWordBreaks
  | escapeHtml
  | unescapeHtml
  | escapeUri
  | filterNormalizeUri
  | ordainContent
  | augmentMap
  | mapKeys
  | checkNotNull
  | listContains
  | roundNumber
  | bidiTextDir
  | bidiDirAttr
  | bidiMark
  | bidiMarkAfter
  | bidiStartEdge
  | bidiEndEdge
  | templateId
deriving DecidableEq

namespace Function

def name : Function → String
  | .strContains => "str_contains"
  | .strIndexOf => "str_index_of"
  | .strSub => "str_sub"
  | .collapseWhitespace => "collapse_whitespace"
  | .changeNewlineToBr => "change_newline_to_br"
  | .truncate => "truncate"
  | .insertWordBreaks => "insert_word_breaks"
  | .escapeHtml => "escape_html"
  | .unescapeHtml => "unescape_html"
  | .escapeUri => "escape_uri"
  | .filterNormalizeUri => "filter_normalize_uri"
  | .ordainContent => "ordain_content"
  | .augmentMap => "augment_map"
  | .mapKeys => "map_keys"
  | .checkNotNull => "check_not_null"
  | .listContains => "list_contains"
  | .roundNumber => "round_number"
  | .bidiTextDir => "bidi_text_dir"
  | .bidiDirAttr => "bidi_dir_attr"
  | .bidiMark => "bidi_mark"
  | .bidiMarkAfter => "bidi_mark_after"
  | .bidiStartEdge => "bidi_start_edge"
  | .bidiEndEdge => "bidi_end_edge"
  | .templateId => "get_del_template_id"

/-- Any number of arguments that a function does not take is a mismatch. -/
def wrongArity (name : String) : Fault :=
  .mismatch (name ++ "() was given a wrong number of arguments")

def apply (d : Describer) (f : Function) (args : List Value) : Except Fault Value :=
  match f, args with
  | .strContains, [value, needle] => Library.strContains d value needle
  | .strIndexOf, [value, needle] => Library.strIndexOf d value needle
  | .strSub, [value, start] => Library.strSub d value start .null
  | .strSub, [value, start, stop] => Library.strSub d value start stop
  | .collapseWhitespace, [value] => Library.collapseWhitespace d value
  | .changeNewlineToBr, [value] => Library.changeNewlineToBr d value
  | .truncate, [value, limit] => Library.truncateText d value limit (.bool true)
  | .truncate, [value, limit, ellipsis] => Library.truncateText d value limit ellipsis
  | .insertWordBreaks, [value, limit] => Library.insertWordBreaks d value limit
  | .escapeHtml, [value] => Library.escapeHtml d value
  | .unescapeHtml, [value] => Library.unescapeHtml d value
  | .escapeUri, [value] => Library.escapeUri d value
  | .filterNormalizeUri, [value] => Library.filterNormalizeUri d value
  | .ordainContent, [content] => Library.ordainContent d content (.str "html")
  | .ordainContent, [content, kind] => Library.ordainContent d content kind
  | .augmentMap, [base, additions] => Library.augmentMap d base additions
  | .mapKeys, [mapping] => Library.mapKeys d mapping
  | .checkNotNull, [value] => Library.checkNotNull value
  | .listContains, [values, item] => Library.listContains d values item
  | .roundNumber, [value] => Library.roundNumber d value (.int 0)
  | .roundNumber, [value, digits] => Library.roundNumber d value digits
  | .bidiTextDir, [text] => Library.bidiTextDir d text
  | .bidiDirAttr, [globalDir, text] => Library.bidiDirAttr d globalDir text
  | .bidiMark, [globalDir] => Library.bidiMark d globalDir
  | .bidiMarkAfter, [globalDir, text] => Library.bidiMarkAfter d globalDir text
  | .bidiStartEdge, [globalDir] => Library.bidiStartEdge d globalDir
  | .bidiEndEdge, [globalDir] => Library.bidiEndEdge d globalDir
  | .templateId, [name] => .ok name
  | f, _ => .error (wrongArity f.name)

end Function

end TemplateHost.Library
