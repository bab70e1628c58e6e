import TemplateHost.Host.State
import TemplateHost.Proofs.Options.CommandLine

/-!
# Compiling sources one by one

What the compiler makes of a source for a locale does not depend on the rest of its command line,
and it goes where the command line says.
-/
namespace TemplateHost
open Layout TemplateHost.Path

/-- A compiler that, if it succeeds with all of some sources, also does with part of them, even if
files which it makes of them are there already: it makes the same file of a source for a locale, or
none, whatever else it compiles. -/
def Compiler.Separate (c : Compiler) (o : Options) (root inputDir : String) (files : List String)
    (yield : String → String → Option Content) (t : FileTree) : Prop :=
  ∀ args exit t₁, Invocation.arguments o root files = .ok args →
    c args inputDir t = .ok (exit, t₁) → exit.status = 0 →
    ∀ part args' ws t', part.Sublist files → part ≠ [] →
      Invocation.arguments o root part = .ok args' → ws ⊆ artifacts o root yield files →
      t.Placed ws t' →
      ∃ exit' t₂, c args' inputDir t' = .ok (exit', t₂) ∧ exit'.status = 0 ∧
        t'.Placed (artifacts o root yield part) t₂

def Invocation.Order.target (r : Invocation.Order) (cwd source : String) (locale : Option String) :
    String := normalize (under cwd (Compilation.fillPattern r.outputPattern source locale))

/-- A compiler that, if it succeeds, has done what its command line asks for: what it makes of a
source for a locale is where the output pattern says, unless something else goes there too. -/
def Compiler.Expands (c : Compiler) (launch tail : List String) (cwd : String)
    (yield : String → Option String → Content) (t : FileTree) : Prop :=
  ∀ order exit t', Invocation.read [none] tail = some order →
    c (launch ++ tail) cwd t = .ok (exit, t') → exit.status = 0 →
    t'.cwd = t.cwd ∧ ∀ f ∈ order.sources, ∀ l ∈ order.locales,
      (∀ g ∈ order.sources, ∀ m ∈ order.locales,
        place t.cwd (order.target cwd g m) = place t.cwd (order.target cwd f l) → g = f ∧ m = l) →
      t'.content (order.target cwd f l) = .ok (yield f l)

theorem Invocation.exists_arguments {o : Options} {root : String} {files args : List String}
    (hargs : arguments o root files = .ok args) :
    ∃ start, launcher o = .ok start ∧ args = start ++ flags o root ++ files := by
  unfold arguments at hargs
  cases hstart : launcher o with
  | error e =>
    rw [hstart] at hargs
    cases hargs
  | ok start =>
    rw [hstart] at hargs
    exact ⟨start, rfl, (Except.ok.inj hargs).symm⟩

/-- A compiler that makes something of each source for each locale, one by one, does what its
command line asks for. -/
theorem Compiler.Separate.expands {c : Compiler} {o : Options} {root cwd : String}
    {files launch : List String} {yield : String → String → Option Content} {t : FileTree}
    (hsep : c.Separate o root cwd files yield t) (hfill : Fillable o root files) (ht : t.Proper)
    (hmade : ∀ f ∈ files, ∀ l ∈ o.targets, ∃ d, yield f l = some d) (hne : files ≠ [])
    (hlocales : ∀ l ∈ o.texts .locales, ',' ∉ l.toList)
    (hsome : o.flag .locales = true → o.texts .locales ≠ [])
    (hlaunch : Invocation.launcher o = .ok launch) :
    c.Expands launch (Invocation.flags o root ++ files) cwd
      (fun f l => (yield f (localeOrDefault l)).getD []) t := by
  intro order exit t' hread hrun hexit
  rw [Invocation.read_flags o root files hlocales hsome] at hread
  obtain rfl := Option.some.inj hread
  have hargs := Invocation.arguments_of_launcher hlaunch root files
  rw [← List.append_assoc] at hrun
  obtain ⟨exit', t₂, hrun', -, hplaced⟩ := hsep _ exit t' hargs hrun hexit files _ [] t
    (List.Sublist.refl files) hne hargs (List.nil_subset _) (FileTree.placed_nil t)
  rw [hrun] at hrun'
  obtain ⟨-, rfl⟩ := Prod.mk.inj (Except.ok.inj hrun')
  refine ⟨hplaced.cwd, fun f hf l hl _ => ?_⟩
  obtain ⟨m, hm, rfl⟩ := List.mem_map.mp hl
  obtain ⟨d, hd⟩ := hmade f hf m hm
  have hstraight := hfill.straight hf hm cwd
  have hfile := hplaced.file _ (mem_artifacts_of root hf hm hd)
  dsimp only
  rw [localeOrDefault_requested hm (hfill.locale m hm).2, hd]
  exact (hplaced.proper ht).content_of_node? hstraight hfile

namespace Compilation

def product (declareTop : Bool) (source : String) (locale : Option String) :
    TemplateSource → Option Content
  | .module statements => some (Content.ofModule (moduleFor declareTop source locale statements))
  | .stop _ _ | .skip => none

def isStop : TemplateSource → Bool
  | .stop _ _ => true
  | .skip | .module _ => false

def stock (t : FileTree) (cwd source : String) : TemplateSource :=
  (sourceAt t cwd source).getD .skip

def yieldOf (declareTop : Bool) (o : Options) (t : FileTree) (cwd source target : String) :
    Option Content :=
  product declareTop source (requested o target) (stock t cwd source)

/-- The sources can be compiled, they lie apart from what they become, and there is room for it. -/
structure Suited (cwd : String) (o : Options) (root : String) (files : List String)
    (t : FileTree) : Prop where
  fillable : Fillable o root files
  present : ∀ f ∈ files, t.isFile (under cwd f) = true
  goes : ∀ f ∈ files, isStop (stock t cwd f) = false
  apart : ∀ f ∈ files, ∀ g ∈ files, ∀ l ∈ o.targets,
    place t.cwd (under cwd f) ≠ artifactPlace o root g l
  free : ∀ f ∈ files, ∀ l ∈ o.targets, t.Free (artifactPlace o root f l)
  distinct : ∀ f ∈ files, ∀ l ∈ o.targets, ∀ g ∈ files, ∀ m ∈ o.targets,
    artifactPlace o root f l <+: artifactPlace o root g m → f = g ∧ l = m

variable {r : Request} {cwd : String} {o : Options} {root : String} {files : List String}
  {t₀ t₁ t t' : FileTree} {ws : List (Place × Content)}

def inTurn {ι : Type} (step : ι → FileTree → Option Exit × FileTree) :
    List ι → FileTree → Option Exit × FileTree
  | [], t => (none, t)
  | i :: rest, t =>
    match step i t with
    | (none, t) => inTurn step rest t
    | stopped => stopped

theorem compileSources_eq (r : Request) (cwd : String) (locale : Option String)
    (sources : List String) (t : FileTree) :
    compileSources r cwd locale sources t = inTurn (compileOne r cwd locale) sources t := by
  induction sources generalizing t with
  | nil => rfl
  | cons source rest ih =>
    unfold compileSources inTurn
    rcases compileOne r cwd locale source t with ⟨_ | _, t'⟩
    · exact ih t'
    · rfl

theorem compileLocales_eq (r : Request) (cwd : String) (locales : List (Option String))
    (t : FileTree) : compileLocales r cwd locales t =
      inTurn (fun locale => inTurn (compileOne r cwd locale) r.sources) locales t := by
  induction locales generalizing t with
  | nil => rfl
  | cons locale rest ih =>
    unfold compileLocales inTurn
    rw [compileSources_eq]
    rcases inTurn (compileOne r cwd locale) r.sources t with ⟨_ | _, t'⟩
    · exact ih t'
    · rfl

theorem inTurn_map {ι κ : Type} (g : κ → ι) (step : ι → FileTree → Option Exit × FileTree)
    (ks : List κ) (t : FileTree) : inTurn step (ks.map g) t = inTurn (step ∘ g) ks t := by
  induction ks generalizing t with
  | nil => rfl
  | cons k rest ih =>
    rw [List.map_cons]
    unfold inTurn
    rw [Function.comp_apply]
    rcases step (g k) t with ⟨_ | _, t'⟩
    · exact ih t'
    · rfl

theorem filling_inTurn {ι : Type} {step : ι → FileTree → Option Exit × FileTree}
    {yield : String → String → Option Content} {made : ι → List (Place × Content)} {is : List ι}
    (hstep : ∀ i ∈ is, ∀ ws t, Filling o root yield files t₀ ws t →
      ∃ t', step i t = (none, t') ∧ Filling o root yield files t₀ (ws ++ made i) t')
    (hc : Filling o root yield files t₀ ws t) :
    ∃ t', inTurn step is t = (none, t') ∧
      Filling o root yield files t₀ (ws ++ is.flatMap made) t' := by
  induction is generalizing t ws with
  | nil => exact ⟨t, rfl, by rwa [List.flatMap_nil, List.append_nil]⟩
  | cons i rest ih =>
    obtain ⟨t₂, hone, hc₂⟩ := hstep i List.mem_cons_self ws t hc
    obtain ⟨t₃, hmore, hc₃⟩ := ih (fun j hj => hstep j (List.mem_cons_of_mem _ hj)) hc₂
    refine ⟨t₃, ?_, ?_⟩
    · unfold inTurn
      rw [hone]
      exact hmore
    · rw [List.flatMap_cons, ← List.append_assoc]
      exact hc₃

theorem Suited.exists_placed (hs : Suited cwd o root files t) (ht : t.Proper)
    (yield : String → String → Option Content) :
    ∃ t₁, t.Placed (artifacts o root yield files) t₁ := by
  refine ht.exists_placed (fun w hw => ?_) (fun w hw => ?_) fun w hw w' hw' hpre => ?_
  · obtain ⟨f, -, l, -, c, -, rfl⟩ := mem_artifacts.mp hw
    obtain ⟨hstraight, ns, a, hplace⟩ := straight_artifactPlace hs.fillable.absolute o f l
    exact ⟨_, ns, a, hstraight, hplace⟩
  · obtain ⟨f, hf, l, hl, c, -, rfl⟩ := mem_artifacts.mp hw
    exact hs.free f hf l hl
  · obtain ⟨f, hf, l, hl, c, hc, rfl⟩ := mem_artifacts.mp hw
    obtain ⟨g, hg, m, hm, d, hd, rfl⟩ := mem_artifacts.mp hw'
    obtain ⟨rfl, rfl⟩ := hs.distinct f hf l hl g hg m hm hpre
    rw [Option.some.inj (hc.symm.trans hd)]

section Run
variable (hr : r.outputPattern = outputPattern o root) (hs : Suited cwd o root files t₀)
  (ht : t₀.Proper) (hfull : t₀.Placed (artifacts o root (yieldOf r.declareTop o t₀ cwd) files) t₁)
include hr hs ht hfull

theorem compileOne_spec
    (hc : Filling o root (yieldOf r.declareTop o t₀ cwd) files t₀ ws t) {f l : String}
    (hf : f ∈ files) (hl : l ∈ o.targets) :
    ∃ t', compileOne r cwd (requested o l) f t = (none, t') ∧
      Filling o root (yieldOf r.declareTop o t₀ cwd) files t₀
        (ws ++ (artifact o root (yieldOf r.declareTop o t₀ cwd) f l).toList) t' := by
  obtain ⟨c, hcont⟩ := FileTree.isFile_iff.mp (hs.present f hf)
  have hcont' := hc.content hcont fun g hg m hm => hs.apart f hf g hg m hm
  have hgoes := hs.goes f hf
  have hsource : (Content.source? c).getD .skip = stock t₀ cwd f := by
    unfold stock sourceAt
    rw [hcont]
    rfl
  unfold compileOne sourceAt
  rw [hcont']
  dsimp only
  rw [hsource]
  cases hstock : stock t₀ cwd f with
  | stop status stderr =>
    rw [hstock] at hgoes
    cases hgoes
  | skip =>
    refine ⟨t, rfl, ?_⟩
    have hnone : artifact o root (yieldOf r.declareTop o t₀ cwd) f l = none := by
      rw [artifact, yieldOf, hstock]
      rfl
    rw [hnone, Option.toList_none, List.append_nil]
    exact hc
  | module statements =>
    have hyield : yieldOf r.declareTop o t₀ cwd f l =
        some (Content.ofModule (moduleFor r.declareTop f (requested o l) statements)) := by
      rw [yieldOf, hstock]
      rfl
    have hmem := mem_artifacts_of root hf hl hyield
    have hfree := hc.free hfull hmem
    obtain ⟨-, ns, a, hplace⟩ := straight_artifactPlace hs.fillable.absolute o f l
    have htarget := hs.fillable.straight hf hl cwd
    rw [← hr, hplace] at htarget
    rw [hplace] at hfree hmem
    obtain ⟨t', hwrite, hplaced⟩ := (hc.placed.proper ht).writeNested htarget hfree
      (Content.ofModule (moduleFor r.declareTop f (requested o l) statements))
    refine ⟨t', by dsimp only; rw [hwrite], ?_⟩
    rw [artifact, hyield, hplace]
    exact hc.add hfull hplaced (List.cons_subset.mpr ⟨hmem, List.nil_subset _⟩)

theorem compileLocales_spec
    (hc : Filling o root (yieldOf r.declareTop o t₀ cwd) files t₀ ws t)
    (hsources : r.sources ⊆ files) :
    ∃ t', compileLocales r cwd (o.targets.map (requested o)) t = (none, t') ∧
      Filling o root (yieldOf r.declareTop o t₀ cwd) files t₀ (ws ++ o.targets.flatMap fun l =>
        r.sources.flatMap fun f =>
          (artifact o root (yieldOf r.declareTop o t₀ cwd) f l).toList) t' := by
  have hall (l : String) (hl : l ∈ o.targets) (ws : List (Place × Content)) (t : FileTree)
      (hc : Filling o root (yieldOf r.declareTop o t₀ cwd) files t₀ ws t) :
      ∃ t', inTurn (compileOne r cwd (requested o l)) r.sources t = (none, t') ∧
        Filling o root (yieldOf r.declareTop o t₀ cwd) files t₀ (ws ++ r.sources.flatMap fun f =>
          (artifact o root (yieldOf r.declareTop o t₀ cwd) f l).toList) t' :=
    filling_inTurn (fun f hf _ _ hc => compileOne_spec hr hs ht hfull hc (hsources hf) hl) hc
  rw [compileLocales_eq, inTurn_map]
  exact filling_inTurn hall hc

end Run

theorem head?_arguments (launch : List String) (o : Options) (root : String) (part : List String) :
    (launch ++ Invocation.flags o root ++ part).head? =
      (launch ++ Invocation.flags o root).head? := by
  have hne : launch ++ Invocation.flags o root ≠ [] := by simp [Invocation.flags]
  obtain ⟨a, r, hr⟩ := List.exists_cons_of_ne_nil hne
  rw [hr]
  rfl

/-- **The compiler compiles sources one by one.** -/
theorem separate_start {declareTop : Bool} {inputDir : String}
    (hread : ∀ launch part, Invocation.launcher o = .ok launch →
      Request.ofArguments (launch ++ Invocation.flags o root ++ part) =
        ⟨o.targets.map (requested o), declareTop, outputPattern o root, part⟩)
    (hs : Suited inputDir o root files t) (ht : t.Proper) :
    Compiler.Separate start o root inputDir files (yieldOf declareTop o t inputDir) t := by
  intro args exit t₁ hargs hrun hexit part args' ws t' hpart hne hargs' hws hp
  obtain ⟨launch, hlaunch, rfl⟩ := Invocation.exists_arguments hargs
  obtain ⟨launch', hlaunch', rfl⟩ := Invocation.exists_arguments hargs'
  obtain rfl : launch' = launch := Except.ok.inj (hlaunch'.symm.trans hlaunch)
  obtain ⟨t₂, hfull⟩ := hs.exists_placed ht (yieldOf declareTop o t inputDir)
  unfold start at hrun ⊢
  dsimp only at hrun ⊢
  rw [head?_arguments] at hrun ⊢
  by_cases hdir : t.isDirectory inputDir = true
  · by_cases hmissing : missingProgram.isPrefixOf
        ((launch' ++ Invocation.flags o root).head?.getD "").toList = true
    · rw [if_neg (by simp [hdir]), if_pos hmissing] at hrun
      cases hrun
    · have hdir' : t'.isDirectory inputDir = true := by
        obtain ⟨q, hq, hn⟩ := FileTree.isDirectory_iff.mp hdir
        exact FileTree.isDirectory_iff.mpr
          ⟨q, FileTree.locate_mono hp.cwd (fun _ => hp.directory) hq, hp.directory hn⟩
      -- The compiler goes on from wherever the files in place came from.
      obtain ⟨t₃, hcompile, hc⟩ := compileLocales_spec
        (r := ⟨o.targets.map (requested o), declareTop, outputPattern o root, part⟩) rfl hs ht hfull
        ⟨hp, hws⟩ hpart.subset
      rw [hread launch' part hlaunch]
      refine ⟨.success, t₃, ?_, rfl, ?_⟩
      · rw [if_neg (by simp [hdir']), if_neg hmissing]
        dsimp only
        rw [hcompile]
        rfl
      · refine (hp.rest hc.placed).congr fun w => ?_
        simp only [artifacts, List.mem_flatMap, List.mem_filterMap, Option.mem_toList]
        constructor
        · rintro ⟨l, hl, f, hf, hw⟩
          exact ⟨f, hf, l, hl, hw⟩
        · rintro ⟨f, hf, l, hl, hw⟩
          exact ⟨l, hl, f, hf, hw⟩
  · rw [if_pos (by simpa using hdir)] at hrun
    cases hrun

end Compilation

end TemplateHost
