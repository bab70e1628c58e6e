import TemplateHost.Proofs.Context.Batch
import TemplateHost.Proofs.Host.Call
import TemplateHost.Proofs.Host.Loading

/-!
# Loading files in order

The files of a batch are all read before the first of them runs. Yet they take effect in order, and
what cannot be read is told only when its turn comes: a load ends at the first file that cannot be
read or fails, with what the files before it and its own first statements have done.
-/
namespace TemplateHost.Pipeline
open Context Host Stage
variable {h : Host} {locale : String} {c : Context}

def batchOf (h : Host) (paths : List String) : List Fetched :=
  (h.options.texts .contextPaths ++ paths).map h.fetch

theorem perform_load_eq (locale : String) (paths : List String) (h : Host) :
    (perform (load locale paths) h).1 =
        ((h.context (some locale)).load h.supportFiles (batchOf h paths)).1.mapError .failure ∧
      (perform (load locale paths) h).2.context (some locale) =
        ((h.context (some locale)).load h.supportFiles (batchOf h paths)).2 := by
  obtain ⟨m, hprepare, -⟩ := perform_prepare_eq locale h
  unfold load
  rw [perform_bind, hprepare, load_eq]
  cases (h.context (some locale)).ready h.supportFiles with
  | mk r c =>
    cases r with
    | error e => exact ⟨rfl, context_setContext _ _⟩
    | ok u =>
      change (perform (fetchBatch paths >>= _) _).1 = _ ∧
        (perform (fetchBatch paths >>= _) _).2.context (some locale) = _
      rw [perform_bind_ok (perform_fetchBatch paths _), perform_onContext, context_setContext,
        context_setContext]
      exact ⟨rfl, rfl⟩

theorem perform_load (hready : Ready (h.context (some locale)) h.supportFiles c)
    (paths : List String) :
    (perform (load locale paths) h).1 =
        (c.loadBatch (batchOf h paths)).1.mapError .failure ∧
      (perform (load locale paths) h).2.context (some locale) =
        (c.loadBatch (batchOf h paths)).2 := by
  rw [← hready.load]
  exact perform_load_eq locale paths h

/-- **A load takes effect in order.** Its files run one after the other, or up to the first that
cannot be read or fails. That one is told, with a code for why; the context is the one that loading
only the files before it leaves, on which the statements of that file have run up to the failing
one, whatever comes after. -/
theorem load_in_order (hready : Ready (h.context (some locale)) h.supportFiles c)
    (paths : List String) :
    (∃ d, Runs c (batchOf h paths) d ∧ (perform (load locale paths) h).1 = .ok () ∧
      (perform (load locale paths) h).2.context (some locale) = d.clearCache) ∨
    ∃ before f after c₁ d reason code, batchOf h paths = before ++ f :: after ∧
      Runs c before c₁ ∧ Stops c₁ f (.loading f.path reason code) d ∧
      (code.text = match f.result with
        | .error _ => "S-LOD-001"
        | .ok _ => "S-LOD-002") ∧
      (perform (load locale paths) h).1 = .error (.failure (.loading f.path reason code)) ∧
      (perform (load locale paths) h).2.context (some locale) = d.clearCache ∧
      (h.context (some locale)).load h.supportFiles before = (.ok (), c₁.clearCache) ∧
      ∀ later, (h.context (some locale)).load h.supportFiles (before ++ f :: later) =
        (.error (.loading f.path reason code), d.clearCache) := by
  obtain ⟨hresult, hcontext⟩ := perform_load hready paths
  rcases executeAll_cases c (batchOf h paths) with
    ⟨d, hruns⟩ | ⟨before, f, after, c₁, e, d, hbatch, hbefore, hstop⟩
  · rw [hruns.loadBatch] at hresult hcontext
    exact Or.inl ⟨d, hruns, hresult, hcontext⟩
  · obtain ⟨reason, code, rfl, hcode⟩ := hstop.code
    have hlater := loadBatch_of_stops hbefore hstop
    rw [hbatch, hlater] at hresult hcontext
    refine Or.inr ⟨before, f, after, c₁, d, reason, code, hbatch, hbefore, hstop, hcode, hresult,
      hcontext, ?_, fun later => ?_⟩
    · rw [hready.load, hbefore.loadBatch]
    · rw [hready.load, hlater]

section Sample

/-- A context file, a file whose second statement fails, and one that is not there. -/
def brokenTree : FileTree where
  nodes := ⟨[(["ctx.py"], .file [.module ⟨"ctx.py", [.newNamespace "a"]⟩]),
    (["one.py"], .file [.module ⟨"one.py", [.assign "a.x" (.int 1), .raise "ValueError" "no",
      .assign "a.x" (.int 2)]⟩])] ++ Session.sampleRuntime⟩
  cwd := []

def brokenHost : Host :=
  let h := Host.new Session.sampleSurroundings brokenTree ⟨2024, 1, 2, 3, 4, 5, 0⟩ (.ofInt 0)
  { h with options := h.options.set .contextPaths (.tuple [.text "ctx.py"]) }

def brokenReady : Context := ((Context.new "default").runSupport brokenHost.supportFiles).2

theorem ready_brokenHost :
    Ready (brokenHost.context (some "default")) brokenHost.supportFiles brokenReady := by
  have hok : ((Context.new "default").runSupport brokenHost.supportFiles).1.isOk = true := by
    decide +kernel
  rw [context_of_new brokenHost (by decide) rfl]
  exact .now rfl (eq_ok_of_isOk hok)

/-- The file that a load is told to have failed at, and the code. -/
def toldOf : Except Problem Unit → Option (String × String)
  | .error (.failure (.loading path _ code)) => some (path, code.text)
  | _ => none

/-- The file that cannot be read comes after the one that fails, which is the one that is told. -/
theorem load_in_order_brokenHost :
    Ready (brokenHost.context (some "default")) brokenHost.supportFiles brokenReady ∧
    ∃ before f after c₁ d reason code,
      batchOf brokenHost ["one.py", "two.py"] = before ++ f :: after ∧
      Runs brokenReady before c₁ ∧ Stops c₁ f (.loading f.path reason code) d ∧
      (perform (load "default" ["one.py", "two.py"]) brokenHost).2.context (some "default") =
        d.clearCache ∧
      f.path = "one.py" ∧ code.text = "S-LOD-002" := by
  refine ⟨ready_brokenHost, ?_⟩
  have htold : toldOf (perform (load "default" ["one.py", "two.py"]) brokenHost).1 =
      some ("one.py", "S-LOD-002") := by
    decide +kernel
  rcases load_in_order ready_brokenHost ["one.py", "two.py"] with
    ⟨d, -, hok, -⟩ | ⟨before, f, after, c₁, d, reason, code, hbatch, hbefore, hstop, -, hresult,
      hcontext, -⟩
  · rw [hok] at htold
    cases htold
  · rw [hresult] at htold
    obtain ⟨hpath, hcode⟩ := Prod.mk.inj (Option.some.inj htold)
    exact ⟨before, f, after, c₁, d, reason, code, hbatch, hbefore, hstop, hcontext, hpath, hcode⟩

end Sample

end TemplateHost.Pipeline
