import TemplateHost.Options.Basic

/-!
# Layout of the output

Where generated files lie below an output root: under the path of their source, inside one directory
for each locale if there are several. An optional file joins the output of a locale. Each run may
have a directory of its own, named by the time at which it starts.
-/
namespace TemplateHost

def generatedSuffix : String := ".py"

def concatSuffix : String := ".soy.concat.py"

/-- A point in time, in universal time. -/
structure Instant where
  year : Nat
  month : Nat
  day : Nat
  hour : Nat
  minute : Nat
  second : Nat
  microsecond : Nat

namespace Layout

def padded (width n : Nat) : String :=
  let digits := toString n
  String.ofList (List.replicate (width - digits.length) '0') ++ digits

/-- The name of the directory of a run that starts at `t`: date and time to the millisecond. -/
def stamp (t : Instant) : String :=
  padded 4 t.year ++ "-" ++ padded 2 t.month ++ "-" ++ padded 2 t.day ++ "T" ++ padded 2 t.hour
    ++ "_" ++ padded 2 t.minute ++ "_" ++ padded 2 t.second ++ "."
    ++ padded 3 (t.microsecond / 1000) ++ "+00_00"

/-- An empty locale stands for the default one. -/
def localeOrDefault (locale : Option String) : String :=
  match locale with
  | some l => if l = "" then Options.defaultLocale else l
  | none => Options.defaultLocale

def outputFile (o : Options) (root file : String) (locale : Option String) : String :=
  if o.multipleLocales then Path.nest [root, localeOrDefault locale, file] ++ generatedSuffix
  else Path.nest [root, file] ++ generatedSuffix

def localeField : String := "\x7bLOCALE\x7d"

def directoryField : String := "\x7bINPUT_DIRECTORY\x7d"

def nameField : String := "\x7bINPUT_FILE_NAME\x7d"

/-- The pattern by which the compiler is told where its output goes. -/
def outputPattern (o : Options) (root : String) : String :=
  let name := nameField ++ generatedSuffix
  if o.multipleLocales then
    Path.under (Path.under (Path.under root localeField) directoryField) name
  else Path.under (Path.under root directoryField) name

def concatFile (o : Options) (root : String) (locale : Option String) : String :=
  let name := o.text .concatFileName
  let name := if o.multipleLocales then name ++ "_" ++ localeOrDefault locale else name
  Path.under root (name ++ concatSuffix)

def runDirectory (o : Options) (now : Instant) : String :=
  let root := (o.nonempty? .outputDir).getD (o.text .tmpDir)
  if o.flag .uniqueDir then Path.under root (stamp now) else root

end Layout

end TemplateHost
