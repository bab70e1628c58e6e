import TemplateHost.Options.Layout

/-!
# Invocations of the compiler

The command line on which the compiler is started: a launcher, the flags that the options call for,
and the sources.
-/
namespace TemplateHost.Invocation

/-- The start of every command line: a configured command, or the launch of a class. -/
def launcher (o : Options) : Except Failure (List String) :=
  if o.flag .compilerCommand then .ok (o.texts .compilerCommand)
  else match o.nonempty? .compilerClass with
    | none => .error .compilerUnset
    | some className =>
      let classpath := Text.join ":" (o.text .soyJarPath :: o.texts .classpath)
      .ok [o.text .javaPath, "-classpath", classpath, className]

def switch (present : Bool) (flag : String) : List String := if present then [flag] else []

def setting (flag : String) : Option String → List String
  | some value => [flag, value]
  | none => []

/-- The values of a list option, joined by commas; nothing if it is empty. -/
def joined? (o : Options) (n : OptionName) : Option String :=
  if o.flag n then some (Text.join "," (o.texts n)) else none

def provideFlags (o : Options) : List String :=
  if o.flag .useClosureStyle || o.flag .shouldProvideRequireSoyNamespaces then
    ["--shouldProvideRequireSoyNamespaces"]
  else switch (o.flag .shouldProvideRequireJsFunctions) "--shouldProvideRequireJsFunctions"

def topLevelFlag : List String := ["--shouldDeclareTopLevelNamespaces", "false"]

def outputPatternFlag : String := "--outputPathFormat"

def flags (o : Options) (root : String) : List String :=
  switch (o.flag .shouldGenerateJsdoc) "--shouldGenerateJsdoc"
    ++ provideFlags o
    ++ setting "--cssHandlingScheme" (o.text? .cssHandlingScheme)
    ++ setting "--pluginModules" (joined? o .pluginModules)
    ++ setting "--locales" (joined? o .locales)
    ++ setting "--messageFilePathFormat" (o.nonempty? .messageFilePathFormat)
    ++ (if o.flag .shouldDeclareTopLevelNamespaces then [] else topLevelFlag)
    ++ setting "--protoFileDescriptors" (o.nonempty? .protoFileDescriptors)
    ++ [outputPatternFlag, Layout.outputPattern o root]

/-- The whole command line for a list of sources. -/
def arguments (o : Options) (root : String) (files : List String) :
    Except Failure (List String) :=
  (launcher o).map fun start => start ++ flags o root ++ files

end TemplateHost.Invocation
