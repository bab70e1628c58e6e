import TemplateHost.Code.Evaluate

/-!
# Support code

The packaged code that runs in every scope before any template. Each part binds global names; the
last one gathers the functions that templates call in one namespace.
-/
namespace TemplateHost
namespace Run

def bindObject (k : ScopeId) (name : String) (o : Object) : Run Unit := do
  setGlobal k name (← add o)

def bindRoutines (k : ScopeId) (routines : List Routine) : Run Unit :=
  routines.forM fun r => bindObject k r.name (.ofForm (.routine r k))

def bindLibrary (k : ScopeId) (functions : List Library.Function) : Run Unit :=
  bindRoutines k (functions.map .library)

def bindForeign (k : ScopeId) (names : List (String × String)) : Run Unit :=
  names.forM fun (name, type) => bindObject k name (.ofForm (.foreign type))

def installNames (k : ScopeId) : Run Unit := do
  bindObject k "Namespace" (.ofForm .namespaceType)
  bindRoutines k [.provide, .lookup]

def installStrings (k : ScopeId) : Run Unit := do
  bindForeign k [("re", "module"), ("_WHITESPACE_RE", "re.Pattern"), ("_NEWLINE_RE", "re.Pattern")]
  bindLibrary k [.strContains, .strIndexOf, .strSub, .collapseWhitespace, .changeNewlineToBr,
    .truncate, .insertWordBreaks]

def escapeTable : Value :=
  .map (['&', '<', '>', '\x22', '\x27'].map fun c =>
    (.int c.toNat, .str (String.ofList (Html.escapeChar c))))

def safeSchemes : Value := .list (Uri.safeSchemes.map fun s => .str (String.ofList s))

def kindNames : List (String × Value) :=
  [("HTML", .str "html"), ("ATTRIBUTES", .str "attributes"), ("URI", .str "uri"),
   ("TEXT", .str "text"), ("CSS", .str "css"), ("JS", .str "js")]

def contentTypeObject (context : Safety) (base : Option ObjectId) : Object :=
  ⟨.contentType context base, .ofList [("content_kind", match context.kind? with
    | some kind => .str kind
    | none => .null)]⟩

def installContent (k : ScopeId) : Run Unit := do
  bindForeign k [("_html", "module")]
  bindRoutines k [.quote]
  bindObject k "_quote" (.ofForm (.routine .quote k))
  setGlobal k "_ESCAPE_TABLE" escapeTable
  setGlobal k "_SAFE_URI_SCHEMES" safeSchemes
  bindObject k "ContentKind" ⟨.kindTable, .ofList kindNames⟩
  let base := (← get).objects.size
  bindObject k (Safety.typeName .unspecified) (contentTypeObject .unspecified none)
  Safety.specific.forM fun context =>
    bindObject k context.typeName (contentTypeObject context (some base))
  let kinds ← Safety.specific.mapM fun context => do
    return (.str (context.kind?.getD ""), ← global k context.typeName)
  setGlobal k "_KINDS" (.map kinds)
  bindLibrary k [.ordainContent, .escapeHtml, .unescapeHtml, .escapeUri, .filterNormalizeUri]

def installCollections (k : ScopeId) : Run Unit :=
  bindLibrary k [.augmentMap, .mapKeys, .checkNotNull, .listContains, .roundNumber]

def installDirections (k : ScopeId) : Run Unit := do
  bindForeign k [("_unicodedata", "module")]
  setGlobal k "LRM" (.str (String.singleton Bidi.Direction.ltr.mark))
  setGlobal k "RLM" (.str (String.singleton Bidi.Direction.rtl.mark))
  bindForeign k [("_RTL_CLASSES", "frozenset"), ("_LTR_CLASSES", "frozenset")]
  bindLibrary k [.bidiTextDir, .bidiDirAttr, .bidiMark, .bidiMarkAfter, .bidiStartEdge,
    .bidiEndEdge]

/-- The global names that templates reach through one namespace. -/
def interfaceNames : List String :=
  ["provide", "get_object_by_name", "str_contains", "str_index_of", "str_sub",
   "collapse_whitespace", "change_newline_to_br", "truncate", "insert_word_breaks", "ContentKind",
   "SanitizedContent", "escape_html", "unescape_html", "escape_uri", "filter_normalize_uri",
   "ordain_content", "augment_map", "map_keys", "check_not_null", "list_contains", "round_number",
   "bidi_text_dir", "bidi_dir_attr", "bidi_mark", "bidi_mark_after", "bidi_start_edge",
   "bidi_end_edge", "get_del_template_id", "register_delegate_fn", "get_delegate_fn"]

def resetRegistries (k : ScopeId) : Run Unit := do
  setGlobal k prioritiesName (.map [])
  setGlobal k functionsName (.map [])

def installInterface (k : ScopeId) : Run Unit := do
  resetRegistries k
  bindRoutines k [.delegateKey, .library .templateId, .registerDelegate, .emptyTemplate,
    .selectDelegate]
  let soy ← newNamespace k
  let members ← interfaceNames.mapM fun name => return (name, ← global k name)
  members.forM fun (name, v) => setMember soy name v
  setGlobal k "soy" soy

def install (k : ScopeId) : SupportPart → Run Unit
  | .names => installNames k
  | .strings => installStrings k
  | .content => installContent k
  | .collections => installCollections k
  | .directions => installDirections k
  | .interface => installInterface k

end Run

end TemplateHost
