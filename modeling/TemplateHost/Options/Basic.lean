import TemplateHost.Failure
import TemplateHost.Files.Path
import TemplateHost.Options.Setting
import TemplateHost.Table

/-!
# Options

Everything that decides how templates are compiled and loaded. Options change only by merging named
settings, all of them or, if a name is unknown, none. The two output roots are stored as absolute
paths, and empty values for them are ignored.
-/
namespace TemplateHost

inductive OptionName where
  | tmpDir
  | inputDir
  | outputDir
  | precompiledDir
  | uniqueDir
  | allowDynamicRecompile
  | loadCompiledTemplates
  | eraseTemporaryFiles
  | useClosureStyle
  | shouldGenerateJsdoc
  | shouldProvideRequireSoyNamespaces
  | shouldProvideRequireJsFunctions
  | cssHandlingScheme
  | classpath
  | pluginModules
  | contextPaths
  | concatOutput
  | concatFileName
  | locales
  | messageFilePathFormat
  | shouldDeclareTopLevelNamespaces
  | protoFileDescriptors
  | javaPath
  | soyJarPath
  | compilerClass
  | compilerCommand
  | soyUtilsPath
deriving DecidableEq

namespace OptionName

def all : List OptionName :=
  [.tmpDir, .inputDir, .outputDir, .precompiledDir, .uniqueDir, .allowDynamicRecompile,
   .loadCompiledTemplates, .eraseTemporaryFiles, .useClosureStyle, .shouldGenerateJsdoc,
   .shouldProvideRequireSoyNamespaces, .shouldProvideRequireJsFunctions, .cssHandlingScheme,
   .classpath, .pluginModules, .contextPaths, .concatOutput, .concatFileName, .locales,
   .messageFilePathFormat, .shouldDeclareTopLevelNamespaces, .protoFileDescriptors, .javaPath,
   .soyJarPath, .compilerClass, .compilerCommand, .soyUtilsPath]

def text : OptionName → String
  | .tmpDir => "tmp_dir"
  | .inputDir => "input_dir"
  | .outputDir => "output_dir"
  | .precompiledDir => "precompiled_dir"
  | .uniqueDir => "unique_dir"
  | .allowDynamicRecompile => "allow_dynamic_recompile"
  | .loadCompiledTemplates => "load_compiled_templates"
  | .eraseTemporaryFiles => "erase_temporary_files"
  | .useClosureStyle => "use_closure_style"
  | .shouldGenerateJsdoc => "should_generate_jsdoc"
  | .shouldProvideRequireSoyNamespaces => "should_provide_require_soy_namespaces"
  | .shouldProvideRequireJsFunctions => "should_provide_require_js_functions"
  | .cssHandlingScheme => "css_handling_scheme"
  | .classpath => "classpath"
  | .pluginModules => "plugin_modules"
  | .contextPaths => "context_paths"
  | .concatOutput => "concat_output"
  | .concatFileName => "concat_file_name"
  | .locales => "locales"
  | .messageFilePathFormat => "message_file_path_format"
  | .shouldDeclareTopLevelNamespaces => "should_declare_top_level_namespaces"
  | .protoFileDescriptors => "proto_file_descriptors"
  | .javaPath => "java_path"
  | .soyJarPath => "soy_jar_path"
  | .compilerClass => "compiler_class"
  | .compilerCommand => "compiler_command"
  | .soyUtilsPath => "soy_utils_path"

def ofText? (s : String) : Option OptionName := all.find? fun n => n.text = s

theorem mem_all (n : OptionName) : n ∈ all := by cases n <;> decide

theorem ofText?_text (n : OptionName) : ofText? n.text = some n := by cases n <;> decide +kernel

/-- Whether the option holds a path that is made absolute when it is set. -/
def isResolved : OptionName → Bool
  | .tmpDir | .outputDir => true
  | _ => false

end OptionName

/-- Where options take their defaults from. -/
structure Surroundings where
  cwd : String
  temporaryDir : String
  runtimeDir : String
  jar : Option String

def Options := OptionName → Setting

namespace Options

def initial (s : Surroundings) : Options
  | .tmpDir => .text (Path.under s.temporaryDir "soypy")
  | .inputDir => .text s.cwd
  | .uniqueDir | .loadCompiledTemplates | .shouldDeclareTopLevelNamespaces => .flag true
  | .allowDynamicRecompile | .eraseTemporaryFiles | .useClosureStyle | .shouldGenerateJsdoc
  | .shouldProvideRequireSoyNamespaces | .shouldProvideRequireJsFunctions
  | .concatOutput => .flag false
  | .classpath | .pluginModules | .contextPaths | .locales => .tuple []
  | .concatFileName => .text "compiled"
  | .protoFileDescriptors => .text ""
  | .javaPath => .text "java"
  | .soyJarPath => .text (s.jar.getD "SoyToPySrcCompiler.jar")
  | .soyUtilsPath => .text (Path.under s.runtimeDir "soyutils.py")
  | .outputDir | .precompiledDir | .cssHandlingScheme | .messageFilePathFormat | .compilerClass
  | .compilerCommand => .null

def set (o : Options) (n : OptionName) (s : Setting) : Options :=
  fun m => if m = n then s else o m

def stored (cwd : String) (old : Setting) (n : OptionName) (s : Setting) : Setting :=
  if n.isResolved then
    match s.isTrue, s with
    | true, .text p => .text (Path.absolute cwd p)
    | _, _ => old
  else s.frozen

def assign (cwd : String) (o : Options) (n : OptionName) (s : Setting) : Options :=
  o.set n (stored cwd (o n) n s)

/-- The first name that is not the name of an option. -/
def unknown? (overrides : Table String Setting) : Option String :=
  overrides.keys.find? fun key => (OptionName.ofText? key).isNone

def assignNamed (cwd : String) (o : Options) (key : String) (s : Setting) : Options :=
  match OptionName.ofText? key with
  | some n => o.assign cwd n s
  | none => o

def assignAll (cwd : String) (o : Options) (es : List (String × Setting)) : Options :=
  es.foldl (fun o e => o.assignNamed cwd e.1 e.2) o

/-- Applies settings in place. All names are looked at before the first value is set. -/
def merge (cwd : String) (o : Options) (overrides : Table String Setting) :
    Except Failure Unit × Options :=
  match unknown? overrides with
  | some key => (.error (.invalidOption key), o)
  | none => (.ok (), o.assignAll cwd overrides.entries)

def flag (o : Options) (n : OptionName) : Bool := (o n).isTrue

def text? (o : Options) (n : OptionName) : Option String := (o n).text?

/-- A text option that counts as unset when it is empty. -/
def nonempty? (o : Options) (n : OptionName) : Option String :=
  if o.flag n then o.text? n else none

def text (o : Options) (n : OptionName) : String := (o.text? n).getD ""

def texts (o : Options) (n : OptionName) : List String := (o n).texts

def defaultLocale : String := "default"

/-- What to compile and load for: the locales, or the default one if there are none. -/
def vmTypes (o : Options) : Setting :=
  if o.flag .locales then o .locales else .tuple [.text defaultLocale]

def targets (o : Options) : List String := o.vmTypes.texts

/-- Whether output is divided into one directory for each locale. -/
def multipleLocales (o : Options) : Bool := decide (1 < (o.texts .locales).length)

@[simp] theorem set_self (o : Options) (n : OptionName) (s : Setting) : o.set n s n = s :=
  if_pos rfl

@[simp] theorem set_ne (o : Options) {n m : OptionName} (h : m ≠ n) (s : Setting) :
    o.set n s m = o m := if_neg h

end Options

end TemplateHost
