import TemplateHost.Proofs.Options.Expansion

/-!
# Reading the command line

After its launcher, a command line consists of switches and of flags with a value each. The output
pattern comes last, and the sources follow it. Read so, from left to right, the command line names
the locales of the options, whatever the values of other flags are.
-/
namespace TemplateHost.Invocation
open Layout Compilation

/-- What a command line asks for: every source for every locale, or without a locale. -/
structure Order where
  locales : List (Option String)
  outputPattern : String
  sources : List String

def localesFlag : String := "--locales"

def switches : List String :=
  ["--shouldGenerateJsdoc", "--shouldProvideRequireSoyNamespaces",
    "--shouldProvideRequireJsFunctions"]

def settings : List String :=
  ["--cssHandlingScheme", "--pluginModules", "--messageFilePathFormat",
    "--shouldDeclareTopLevelNamespaces", "--protoFileDescriptors"]

def read (locales : List (Option String)) : List String → Option Order
  | [] => none
  | arg :: rest =>
    if arg ∈ switches then read locales rest
    else match rest with
      | [] => none
      | value :: rest =>
        if arg = outputPatternFlag then some ⟨locales, value, rest⟩
        else if arg = localesFlag then read ((splitCommas value).map some) rest
        else if arg ∈ settings then read locales rest
        else none

variable {locales : List (Option String)}

theorem read_switch {arg : String} (harg : arg ∈ switches) (present : Bool) (rest : List String) :
    read locales (switch present arg ++ rest) = read locales rest := by
  cases present with
  | false => rfl
  | true =>
    change read locales (arg :: rest) = _
    rw [read.eq_def]
    dsimp only
    rw [if_pos harg]

theorem read_setting {arg : String} (harg : arg ∈ settings) (value : Option String)
    (rest : List String) :
    read locales (setting arg value ++ rest) = read locales rest := by
  cases value with
  | none => rfl
  | some v =>
    have hswitch : ∀ a ∈ settings, a ∉ switches := by decide
    have hpattern : ∀ a ∈ settings, a ≠ outputPatternFlag := by decide
    have hlocales : ∀ a ∈ settings, a ≠ localesFlag := by decide
    change read locales (arg :: v :: rest) = _
    rw [read, if_neg (hswitch arg harg), if_neg (hpattern arg harg), if_neg (hlocales arg harg),
      if_pos harg]

theorem read_locales (value : Option String) (rest : List String) :
    read locales (setting localesFlag value ++ rest) =
      read ((value.map fun v => (splitCommas v).map some).getD locales) rest := by
  cases value with
  | none => rfl
  | some v =>
    change read locales (localesFlag :: v :: rest) = _
    rw [read, if_neg (by decide), if_neg (by decide), if_pos rfl]
    rfl

theorem read_provideFlags (o : Options) (rest : List String) :
    read locales (provideFlags o ++ rest) = read locales rest := by
  unfold provideFlags
  split
  · have hswitch : "--shouldProvideRequireSoyNamespaces" ∈ switches := by decide
    exact read_switch hswitch true rest
  · exact read_switch (by decide) _ rest

theorem read_topLevel (b : Bool) (rest : List String) :
    read locales ((if b then [] else topLevelFlag) ++ rest) = read locales rest := by
  cases b with
  | true => rfl
  | false =>
    have hsetting : "--shouldDeclareTopLevelNamespaces" ∈ settings := by decide
    exact read_setting hsetting (some "false") rest

theorem read_flags_joined (o : Options) (root : String) (files : List String) :
    read locales (flags o root ++ files) =
      some ⟨((joined? o .locales).map fun v => (splitCommas v).map some).getD locales,
        outputPattern o root, files⟩ := by
  unfold flags
  simp only [List.append_assoc]
  rw [read_switch (by decide), read_provideFlags, read_setting (by decide),
    read_setting (by decide)]
  change read locales (setting localesFlag _ ++ _) = _
  rw [read_locales, read_setting (by decide), read_topLevel, read_setting (by decide)]
  rw [List.cons_append, List.cons_append, List.nil_append, read, if_neg (by decide),
    if_pos rfl]

theorem read_flags (o : Options) (root : String) (files : List String)
    (hlocales : ∀ l ∈ o.texts .locales, ',' ∉ l.toList)
    (hsome : o.flag .locales = true → o.texts .locales ≠ []) :
    read [none] (flags o root ++ files) =
      some ⟨o.targets.map (requested o), outputPattern o root, files⟩ := by
  have hasked : ((joined? o .locales).map fun v => (splitCommas v).map some).getD [none] =
      o.targets.map (requested o) := by
    unfold joined? Options.targets Options.vmTypes requested
    by_cases hflag : o.flag .locales = true
    · simp only [if_pos hflag]
      have hsplit : splitCommas (Text.join "," (o.texts .locales)) = o.texts .locales :=
        Text.splitAt_join ',' (hsome hflag) hlocales
      rw [Option.map_some, Option.getD_some, hsplit]
      rfl
    · simp only [if_neg hflag]
      rfl
  rw [read_flags_joined, hasked]

theorem arguments_of_launcher {o : Options} {launch : List String}
    (hlaunch : launcher o = .ok launch) (root : String) (files : List String) :
    arguments o root files = .ok (launch ++ flags o root ++ files) := by
  unfold arguments
  rw [hlaunch]
  rfl

end TemplateHost.Invocation
