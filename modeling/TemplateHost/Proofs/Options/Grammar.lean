import TemplateHost.Proofs.Options.CommandLine

/-!
# The grammar of command lines

Behind its launcher, a command line consists of optional parts in a fixed order, the output pattern,
and the sources. A flag is looked for only where its part may begin, and some part always follows,
the output pattern if no other does. So no value, locale or source is mistaken for a flag, even if
it is spelled like one: every list of tokens spells at most one request.
-/
namespace TemplateHost.Invocation
open Layout

/-- The two ways to provide names: one for each namespace, or one for each template. -/
inductive Provide where
  | namespaces
  | functions
deriving DecidableEq

/-- All that a command line says behind its launcher. -/
structure Request where
  jsdoc : Bool
  provide : Option Provide
  cssScheme : Option String
  pluginModules : Option String
  locales : Option String
  messageFormat : Option String
  declaresTopLevel : Bool
  protoPath : Option String
  outputPattern : String
  sources : List String
deriving DecidableEq

def Provide.flag : Provide → String
  | .namespaces => "--shouldProvideRequireSoyNamespaces"
  | .functions => "--shouldProvideRequireJsFunctions"

def chosen : Option Provide → List String
  | some mode => [mode.flag]
  | none => []

def jsdocFlag : String := "--shouldGenerateJsdoc"

def cssFlag : String := "--cssHandlingScheme"

def pluginFlag : String := "--pluginModules"

def messageFlag : String := "--messageFilePathFormat"

def declareFlag : String := "--shouldDeclareTopLevelNamespaces"

def protoFlag : String := "--protoFileDescriptors"

/-- The value of the flag for top-level namespaces: it is given only to turn them off. -/
def declared (b : Bool) : Option String := if b then none else some "false"

namespace Request

/-- The parts in the order of the grammar. -/
def spelling (r : Request) : List String :=
  switch r.jsdoc jsdocFlag ++ (chosen r.provide ++ (setting cssFlag r.cssScheme
    ++ (setting pluginFlag r.pluginModules ++ (setting localesFlag r.locales
    ++ (setting messageFlag r.messageFormat ++ (setting declareFlag (declared r.declaresTopLevel)
    ++ (setting protoFlag r.protoPath ++ (outputPatternFlag :: r.outputPattern :: r.sources))))))))

end Request

/-! ### The reader -/

def takeSwitch (flag : String) : List String → Bool × List String
  | [] => (false, [])
  | token :: rest => if token = flag then (true, rest) else (false, token :: rest)

def takeProvide (tokens : List String) : Option Provide × List String :=
  match takeSwitch Provide.namespaces.flag tokens with
  | (true, rest) => (some .namespaces, rest)
  | (false, _) =>
    match takeSwitch Provide.functions.flag tokens with
    | (true, rest) => (some .functions, rest)
    | (false, rest) => (none, rest)

/-- A flag and the token behind it, whatever that is. A flag at the very end is an error. -/
def takeSetting (flag : String) (tokens : List String) : Option (Option String × List String) :=
  match takeSwitch flag tokens with
  | (false, rest) => some (none, rest)
  | (true, []) => none
  | (true, value :: rest) => some (some value, rest)

/-- The only value that the flag for top-level namespaces may have is `false`. -/
def takeDeclared (tokens : List String) : Option (Bool × List String) :=
  match takeSetting declareFlag tokens with
  | some (none, rest) => some (true, rest)
  | some (some value, rest) => if value = "false" then some (false, rest) else none
  | none => none

/-- The output pattern, which has to be there; all that follows it is a source. -/
def takePattern (tokens : List String) : Option (String × List String) :=
  match takeSetting outputPatternFlag tokens with
  | some (some value, sources) => some (value, sources)
  | _ => none

/-- Read a command line behind its launcher, from left to right. -/
def parse (tokens : List String) : Option Request := do
  let (jsdoc, tokens) := takeSwitch jsdocFlag tokens
  let (provide, tokens) := takeProvide tokens
  let (cssScheme, tokens) ← takeSetting cssFlag tokens
  let (pluginModules, tokens) ← takeSetting pluginFlag tokens
  let (locales, tokens) ← takeSetting localesFlag tokens
  let (messageFormat, tokens) ← takeSetting messageFlag tokens
  let (declaresTopLevel, tokens) ← takeDeclared tokens
  let (protoPath, tokens) ← takeSetting protoFlag tokens
  let (outputPattern, sources) ← takePattern tokens
  return ⟨jsdoc, provide, cssScheme, pluginModules, locales, messageFormat, declaresTopLevel,
    protoPath, outputPattern, sources⟩

/-! ### What is read is what stands there -/

section Sound

variable {flag : String} {tokens rest : List String}

theorem of_takeSwitch {b : Bool} (h : takeSwitch flag tokens = (b, rest)) :
    tokens = switch b flag ++ rest := by
  cases tokens with
  | nil =>
    cases h
    rfl
  | cons token tokens =>
    by_cases htoken : token = flag
    · rw [takeSwitch, if_pos htoken] at h
      cases h
      rw [htoken]
      rfl
    · rw [takeSwitch, if_neg htoken] at h
      cases h
      rfl

theorem of_takeProvide {mode : Option Provide} (h : takeProvide tokens = (mode, rest)) :
    tokens = chosen mode ++ rest := by
  unfold takeProvide at h
  split at h
  · rename_i hfirst
    cases h
    exact of_takeSwitch hfirst
  · split at h
    · rename_i hsecond
      cases h
      exact of_takeSwitch hsecond
    · rename_i hsecond
      cases h
      exact of_takeSwitch hsecond

theorem of_takeSetting {value : Option String}
    (h : takeSetting flag tokens = some (value, rest)) : tokens = setting flag value ++ rest := by
  unfold takeSetting at h
  split at h
  · rename_i hflag
    cases h
    exact of_takeSwitch hflag
  · cases h
  · rename_i hflag
    cases h
    exact of_takeSwitch hflag

theorem of_takeDeclared {b : Bool} (h : takeDeclared tokens = some (b, rest)) :
    tokens = setting declareFlag (declared b) ++ rest := by
  unfold takeDeclared at h
  split at h
  · rename_i hflag
    cases h
    exact of_takeSetting hflag
  · rename_i hflag
    split at h
    · rename_i hvalue
      cases h
      rw [of_takeSetting hflag, hvalue]
      rfl
    · cases h
  · cases h

theorem of_takePattern {pattern : String} (h : takePattern tokens = some (pattern, rest)) :
    tokens = outputPatternFlag :: pattern :: rest := by
  unfold takePattern at h
  split at h
  · rename_i hflag
    cases h
    exact of_takeSetting hflag
  · cases h

theorem of_parse {r : Request} (h : parse tokens = some r) : tokens = r.spelling := by
  rcases hjsdoc : takeSwitch jsdocFlag tokens with ⟨jsdoc, tokens₀⟩
  rcases hprovide : takeProvide tokens₀ with ⟨provide, tokens₁⟩
  simp only [parse, hjsdoc, hprovide, Option.bind_eq_bind, Option.bind_eq_some_iff,
    Prod.exists] at h
  obtain ⟨css, tokens₂, hcss, plugins, tokens₃, hplugins, locales, tokens₄, hlocales, message,
    tokens₅, hmessage, top, tokens₆, htop, proto, tokens₇, hproto, pattern, sources, hpattern,
    hr⟩ := h
  cases hr
  unfold Request.spelling
  rw [← of_takePattern hpattern, ← of_takeSetting hproto, ← of_takeDeclared htop,
    ← of_takeSetting hmessage, ← of_takeSetting hlocales, ← of_takeSetting hplugins,
    ← of_takeSetting hcss, ← of_takeProvide hprovide, ← of_takeSwitch hjsdoc]

end Sound

/-! ### What stands there is read -/

/-- The first token is one of the given flags. -/
def Begins (flags tokens : List String) : Prop := ∃ flag ∈ flags, ∃ rest, tokens = flag :: rest

section Complete

variable {flag : String} {flags rest : List String}

theorem begins_self (flag : String) (rest : List String) : Begins [flag] (flag :: rest) :=
  ⟨flag, List.mem_singleton_self flag, rest, rfl⟩

theorem Begins.mono (h : Begins flags rest) {more : List String} (hsub : flags ⊆ more) :
    Begins more rest := by
  obtain ⟨first, hmem, tail, htail⟩ := h
  exact ⟨first, hsub hmem, tail, htail⟩

theorem Begins.setting (h : Begins flags rest) (flag : String) (value : Option String) :
    Begins (flag :: flags) (setting flag value ++ rest) := by
  cases value with
  | none => exact h.mono (List.subset_cons_self flag flags)
  | some v => exact ⟨flag, List.mem_cons_self, v :: rest, rfl⟩

theorem Begins.chosen (h : Begins flags rest) (mode : Option Provide) :
    Begins (Provide.namespaces.flag :: Provide.functions.flag :: flags)
      (chosen mode ++ rest) := by
  cases mode with
  | none => exact h.mono fun flag hflag => List.mem_cons_of_mem _ (List.mem_cons_of_mem _ hflag)
  | some mode =>
    refine ⟨mode.flag, ?_, rest, rfl⟩
    cases mode with
    | namespaces => exact List.mem_cons_self
    | functions => exact List.mem_cons_of_mem _ List.mem_cons_self

theorem takeSwitch_present (flag : String) (rest : List String) :
    takeSwitch flag (flag :: rest) = (true, rest) := by
  rw [takeSwitch, if_pos rfl]

theorem takeSwitch_switch (h : Begins flags rest) (hflag : flag ∉ flags) (b : Bool) :
    takeSwitch flag (switch b flag ++ rest) = (b, rest) := by
  cases b with
  | true => exact takeSwitch_present flag rest
  | false =>
    obtain ⟨first, hmem, tail, rfl⟩ := h
    have hne : first ≠ flag := fun heq => hflag (heq ▸ hmem)
    change takeSwitch flag (first :: tail) = _
    rw [takeSwitch, if_neg hne]

theorem takeSwitch_absent (h : Begins flags rest) (hflag : flag ∉ flags) :
    takeSwitch flag rest = (false, rest) := takeSwitch_switch h hflag false

theorem takeProvide_chosen (h : Begins flags rest)
    (hnamespaces : Provide.namespaces.flag ∉ flags) (hfunctions : Provide.functions.flag ∉ flags)
    (mode : Option Provide) : takeProvide (chosen mode ++ rest) = (mode, rest) := by
  unfold takeProvide
  cases mode with
  | none =>
    rw [show chosen none ++ rest = rest from rfl, takeSwitch_absent h hnamespaces,
      takeSwitch_absent h hfunctions]
  | some mode =>
    cases mode with
    | namespaces => rfl
    | functions => rfl

theorem takeSetting_setting (h : Begins flags rest) (hflag : flag ∉ flags)
    (value : Option String) :
    takeSetting flag (setting flag value ++ rest) = some (value, rest) := by
  unfold takeSetting
  cases value with
  | none => rw [show setting flag none ++ rest = rest from rfl, takeSwitch_absent h hflag]
  | some v =>
    have hfound : takeSwitch flag (setting flag (some v) ++ rest) = (true, v :: rest) :=
      takeSwitch_present flag (v :: rest)
    rw [hfound]

theorem takeDeclared_declared (h : Begins flags rest) (hflag : declareFlag ∉ flags) (b : Bool) :
    takeDeclared (setting declareFlag (declared b) ++ rest) = some (b, rest) := by
  unfold takeDeclared
  rw [takeSetting_setting h hflag]
  cases b with
  | true => rfl
  | false => rfl

theorem takePattern_cons (pattern : String) (sources : List String) :
    takePattern (outputPatternFlag :: pattern :: sources) = some (pattern, sources) := by
  unfold takePattern takeSetting
  rw [takeSwitch_present]

theorem parse_spelling (r : Request) : parse r.spelling = some r := by
  -- Whatever is absent, each part is followed by a flag of a later one.
  have hpattern := begins_self outputPatternFlag (r.outputPattern :: r.sources)
  have hproto := hpattern.setting protoFlag r.protoPath
  have htop := hproto.setting declareFlag (declared r.declaresTopLevel)
  have hmessage := htop.setting messageFlag r.messageFormat
  have hlocales := hmessage.setting localesFlag r.locales
  have hplugins := hlocales.setting pluginFlag r.pluginModules
  have hcss := hplugins.setting cssFlag r.cssScheme
  have hprovide := hcss.chosen r.provide
  unfold parse Request.spelling
  rw [takeSwitch_switch hprovide (by decide)]
  dsimp only
  rw [takeProvide_chosen hcss (by decide) (by decide)]
  dsimp only [Option.bind_eq_bind]
  rw [takeSetting_setting hplugins (by decide), Option.bind_some]
  dsimp only
  rw [takeSetting_setting hlocales (by decide), Option.bind_some]
  dsimp only
  rw [takeSetting_setting hmessage (by decide), Option.bind_some]
  dsimp only
  rw [takeSetting_setting htop (by decide), Option.bind_some]
  dsimp only
  rw [takeDeclared_declared hproto (by decide), Option.bind_some]
  dsimp only
  rw [takeSetting_setting hpattern (by decide), Option.bind_some]
  dsimp only
  rw [takePattern_cons, Option.bind_some]
  rfl

end Complete

/-- The reader accepts exactly the spelling of what it returns. -/
theorem parse_eq_some_iff {tokens : List String} {r : Request} :
    parse tokens = some r ↔ tokens = r.spelling := by
  constructor
  · exact of_parse
  · intro h
    rw [h, parse_spelling]

theorem spelling_injective {r r' : Request} (h : r.spelling = r'.spelling) : r = r' := by
  have hread := parse_spelling r
  rw [h, parse_spelling] at hread
  exact (Option.some.inj hread).symm

/-! ### Command lines of options -/

/-- The way to provide names that the options call for. -/
def provided (o : Options) : Option Provide :=
  if o.flag .useClosureStyle || o.flag .shouldProvideRequireSoyNamespaces then some .namespaces
  else if o.flag .shouldProvideRequireJsFunctions then some .functions
  else none

def request (o : Options) (root : String) (files : List String) : Request where
  jsdoc := o.flag .shouldGenerateJsdoc
  provide := provided o
  cssScheme := o.text? .cssHandlingScheme
  pluginModules := joined? o .pluginModules
  locales := joined? o .locales
  messageFormat := o.nonempty? .messageFilePathFormat
  declaresTopLevel := o.flag .shouldDeclareTopLevelNamespaces
  protoPath := o.nonempty? .protoFileDescriptors
  outputPattern := outputPattern o root
  sources := files

theorem chosen_provided (o : Options) : chosen (provided o) = provideFlags o := by
  unfold provided provideFlags
  split
  · rfl
  · split <;> rename_i h
    · rw [h]
      rfl
    · rw [Bool.eq_false_iff.mpr h]
      rfl

theorem setting_declared (b : Bool) :
    setting declareFlag (declared b) = if b then [] else topLevelFlag := by
  cases b <;> rfl

theorem flags_eq_spelling (o : Options) (root : String) (files : List String) :
    flags o root ++ files = (request o root files).spelling := by
  unfold flags Request.spelling
  rw [show (request o root files).provide = provided o from rfl, chosen_provided,
    setting_declared]
  simp only [List.append_assoc]
  rfl

theorem arguments_eq_spelling {o : Options} {start : List String} (h : launcher o = .ok start)
    (root : String) (files : List String) :
    arguments o root files = .ok (start ++ (request o root files).spelling) := by
  rw [arguments_of_launcher h, ← flags_eq_spelling, List.append_assoc]

theorem launcher_of_unset {o : Options} (hcommand : o.flag .compilerCommand = false)
    (hclass : o.nonempty? .compilerClass = none) : launcher o = .error .compilerUnset := by
  unfold launcher
  rw [hcommand, hclass]
  rfl

theorem launcher_of_set {o : Options}
    (h : o.flag .compilerCommand = true ∨ ∃ c, o.nonempty? .compilerClass = some c) :
    ∃ start, launcher o = .ok start := by
  unfold launcher
  split
  · exact ⟨_, rfl⟩
  · rename_i hcommand
    rcases h with h | ⟨c, hc⟩
    · exact absurd h hcommand
    · rw [hc]
      exact ⟨_, rfl⟩

theorem arguments_eq_error_iff (o : Options) (root : String) (files : List String)
    (e : Failure) :
    arguments o root files = .error e ↔
      e = .compilerUnset ∧ o.flag .compilerCommand = false ∧ o.nonempty? .compilerClass = none := by
  constructor
  · intro h
    by_cases hset : o.flag .compilerCommand = true ∨ ∃ c, o.nonempty? .compilerClass = some c
    · obtain ⟨start, hstart⟩ := launcher_of_set hset
      rw [arguments_eq_spelling hstart] at h
      cases h
    · have hcommand : o.flag .compilerCommand = false :=
        Bool.eq_false_iff.mpr fun hc => hset (.inl hc)
      have hclass : o.nonempty? .compilerClass = none :=
        Option.eq_none_iff_forall_ne_some.mpr fun c hc => hset (.inr ⟨c, hc⟩)
      unfold arguments at h
      rw [launcher_of_unset hcommand hclass] at h
      cases h
      exact ⟨rfl, hcommand, hclass⟩
  · rintro ⟨rfl, hcommand, hclass⟩
    unfold arguments
    rw [launcher_of_unset hcommand hclass]
    rfl

/-- Behind the launcher stands the one spelling of what the options ask for. So equal command lines
whose launchers are equally long ask for the same, and the only failure is that no compiler is
set. -/
theorem arguments_unambiguous (o o' : Options) (root root' : String)
    (files files' : List String) :
    (∀ start, launcher o = .ok start →
      ∃ tail, arguments o root files = .ok (start ++ tail) ∧
        parse tail = some (request o root files) ∧
        ∀ r : Request, r.spelling = tail ↔ r = request o root files) ∧
    (∀ start start' argv, launcher o = .ok start → launcher o' = .ok start' →
      start.length = start'.length → arguments o root files = .ok argv →
      arguments o' root' files' = .ok argv →
      start = start' ∧ request o root files = request o' root' files') ∧
    ∀ e, arguments o root files = .error e ↔
      e = .compilerUnset ∧ o.flag .compilerCommand = false ∧ o.nonempty? .compilerClass = none := by
  refine ⟨?readable, ?equal, arguments_eq_error_iff o root files⟩
  case readable =>
    intro start hstart
    refine ⟨_, arguments_eq_spelling hstart root files, parse_spelling _, fun r => ?_⟩
    constructor
    · exact spelling_injective
    · rintro rfl
      rfl
  case equal =>
    intro start start' argv hstart hstart' hlength h h'
    rw [arguments_eq_spelling hstart] at h
    rw [arguments_eq_spelling hstart', ← h] at h'
    have heq := List.append_inj (Except.ok.inj h').symm hlength
    exact ⟨heq.1, spelling_injective heq.2⟩

/-- Options whose values look like flags. -/
def misleading (java : String) : Options
  | .compilerCommand => .tuple [.text "soyc"]
  | .cssHandlingScheme => .text "--locales"
  | .locales => .tuple [.text "--outputPathFormat"]
  | .javaPath => .text java
  | _ => .null

theorem arguments_unambiguous_misleading :
    (∃ tail, arguments (misleading "java") "out" ["--locales"] = .ok (["soyc"] ++ tail) ∧
      parse tail = some (request (misleading "java") "out" ["--locales"]) ∧
      ∀ r : Request, r.spelling = tail ↔ r = request (misleading "java") "out" ["--locales"]) ∧
    request (misleading "java") "out" ["--locales"] =
      request (misleading "jre") "out" ["--locales"] := by
  have h := arguments_unambiguous (misleading "java") (misleading "jre") "out" "out" ["--locales"]
    ["--locales"]
  exact ⟨h.1 ["soyc"] rfl, (h.2.1 ["soyc"] ["soyc"] _ rfl rfl rfl rfl rfl).2⟩

end TemplateHost.Invocation
