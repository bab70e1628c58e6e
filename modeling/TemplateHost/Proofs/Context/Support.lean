import Mathlib.Data.List.Forall2
import TemplateHost.Host.Support
import TemplateHost.Proofs.Code.Installation
import TemplateHost.Proofs.Code.Registration
import TemplateHost.Proofs.Context.Batch

/-!
# Contexts with the packaged support code

Whatever batches a context has loaded, and wherever they failed: if none of their statements touches
the interface, then the interface is in place as soon as the support code has run, and the context
that is made ready for a further batch has empty registries.
-/
namespace TemplateHost

namespace Run
variable {k : ScopeId} {s t : Store}

theorem opened_of_bound (h : ((s.scope k).get? builtinsName).isSome = true) : opened k s = s := by
  obtain ⟨v, hv⟩ := Option.isSome_iff_exists.mp h
  unfold opened bindBuiltins
  rw [on_bind, on_global?]
  dsimp only
  rw [hv]
  rfl

theorem ground_install (hs : s.Ground k) (part : SupportPart) :
    (on (install k part) s).2.Ground k := by
  cases part with
  | names => exact (founds_installNames s).ground hs
  | strings => exact (founds_installStrings s).ground hs
  | content => exact (founds_installContent s).ground hs
  | collections => exact (founds_installCollections s).ground hs
  | directions => exact (founds_installDirections s).ground hs
  | interface => exact ground_installInterface hs

theorem holds_provide (hs : s.Ground k) :
    (on (installNames k) s).2.Holds k "provide" (.routine .provide k) := by
  have hfirst : on (bindObject k "Namespace" (.ofForm .namespaceType)) s =
      (.ok (), (s.add (.ofForm .namespaceType)).2.setGlobal k "Namespace"
        (s.add (.ofForm .namespaceType)).1) := rfl
  have hrest : on (installNames k) s = on (bindRoutines k [.provide, .lookup]) _ :=
    on_bind_ok hfirst fun _ => bindRoutines k [.provide, .lookup]
  rw [hrest]
  refine holds_bindRoutines ?_ (by decide) (r := .provide) List.mem_cons_self
  rw [Store.size_scopes_setGlobal]
  exact hs.scope

theorem intact_support (hs : s.Ground k) (h : on (Support.all.forM (install k)) s = (.ok (), t)) :
    ∃ soy, t.Intact k soy [] [] := by
  have hrest : Founds k (· ≠ "provide") (([.strings, .content, .collections,
      .directions] : List SupportPart).forM (install k)) := by
    refine .forM fun part hpart => ?_
    simp only [List.mem_cons, List.not_mem_nil, or_false] at hpart
    rcases hpart with rfl | rfl | rfl | rfl
    · exact founds_installStrings
    · exact founds_installContent
    · exact founds_installCollections
    · exact founds_installDirections
  have hall : on (Support.all.forM (install k)) s = on (([.names] ++ ([.strings, .content,
      .collections, .directions] ++ [.interface]) : List SupportPart).forM (install k)) s := rfl
  rw [hall, on_forM_append, on_forM_singleton] at h
  have hprovide := holds_provide hs
  have hnames := ground_install hs .names
  change (on (install k .names) s).2.Holds k "provide" _ at hprovide
  cases hfirst : on (install k .names) s with
  | mk q u =>
    rw [hfirst] at h hprovide hnames
    cases q with
    | error e => cases h
    | ok a =>
      dsimp only at h
      have hlays := hrest u
      rw [on_forM_append] at h
      cases hmiddle : on (([.strings, .content, .collections,
          .directions] : List SupportPart).forM (install k)) u with
      | mk q v =>
        rw [hmiddle] at h hlays
        cases q with
        | error e => cases h
        | ok a =>
          dsimp only at h
          rw [on_forM_singleton] at h
          exact intact_installInterface (hlays.ground hnames)
            (hlays.holds hnames.scope hprovide fun hne => hne rfl) h

end Run

namespace Context
open Run
variable {c d : Context} {support batch : List Fetched}

/-- The packaged support files, each of which is read as it is or cannot be read. -/
def Packaged (support : List Fetched) : Prop :=
  List.Forall₂ (fun part f => f.result = .ok [.module (Support.moduleOf part)] ∨
    ∃ p, f.result = .error p) Support.all support

def statementsOf (batch : List Fetched) : List Statement :=
  batch.flatMap fun f => match f.result with
    | .ok s => s.statements
    | .error _ => []

def Tame (batch : List Fetched) : Prop := ∀ x ∈ statementsOf batch, x.IsTame

/-- Contexts with the packaged support code and any history of batches, loaded or failed. -/
inductive Built : Context → Prop where
  | new (name : String) : Built (new name)
  | load {c : Context} {support batch : List Fetched} (h : Built c) (hs : Packaged support)
    (hb : Tame batch) : Built (c.load support batch).2

/-- Until the support code has run the scope is fit for it; then the interface is in place. -/
structure Sound (c : Context) : Prop where
  ground : c.initialized = false → c.store.Ground c.globals
  intact : c.initialized = true → ∃ soy p f, c.store.Intact c.globals soy p f

theorem sound_new (name : String) : (new name).Sound := by
  refine ⟨fun _ => ?_, fun h => by cases h⟩
  have hscope : (new name).store.scope (new name).globals = Table.ofList
    [("__name__", .str ("soypy.sandbox." ++ name)), (builtinsName, .object 0)] := rfl
  refine ⟨Nat.one_pos, by rw [hscope]; rfl, fun n i hi => ?_, fun j o n i ho hi => ?_⟩
  · rw [hscope] at hi
    change ((Table.empty.set "__name__" (.str ("soypy.sandbox." ++ name))).set builtinsName
      (Value.object 0)).get? n = _ at hi
    by_cases hb : n = builtinsName
    · rw [hb, Table.get?_set_self] at hi
      obtain rfl := Value.object.inj (Option.some.inj hi)
      exact Nat.one_pos
    · rw [Table.get?_set_ne _ hb] at hi
      by_cases hn : n = "__name__"
      · rw [hn, Table.get?_set_self] at hi
        cases hi
      · rw [Table.get?_set_ne _ hn] at hi
        cases hi
  · have hj : j < 1 := Store.lt_of_object? ho
    obtain rfl : j = 0 := Nat.lt_one_iff.mp hj
    obtain rfl := Option.some.inj ho
    cases hi

theorem execute_of_bound (hc : ((c.store.scope c.globals).get? builtinsName).isSome = true)
    {src : Source} (hsrc : src.malformedLine? = none) (path : String) :
    c.execute path src =
      (report path (on (src.statements.forM (runStatement c.globals)) c.store).1,
        { c with store := (on (src.statements.forM (runStatement c.globals)) c.store).2 }) := by
  rw [execute_formed hsrc, opened_of_bound hc]

theorem execute_part (hc : c.store.Ground c.globals) (path : String) (part : SupportPart) :
    c.execute path [.module (Support.moduleOf part)] =
      (report path (on (install c.globals part) c.store).1,
        { c with store := (on (install c.globals part) c.store).2 }) := by
  have hformed : Source.malformedLine? [.module (Support.moduleOf part)] = none := by
    cases part <;> rfl
  have hstatements : Source.statements [.module (Support.moduleOf part)] = [.support part] := by
    cases part <;> rfl
  rw [execute_of_bound hc.builtins hformed, hstatements, on_forM_singleton]
  rfl

theorem executeAll_packaged {parts : List SupportPart}
    (h : List.Forall₂ (fun part f => f.result = .ok [.module (Support.moduleOf part)] ∨
      ∃ p, f.result = .error p) parts support) (hc : c.store.Ground c.globals) :
    ∃ s, (c.executeAll support).2 = { c with store := s } ∧ s.Ground c.globals ∧
      ((c.executeAll support).1 = .ok () →
        on (parts.forM (install c.globals)) c.store = (.ok (), s)) := by
  induction h generalizing c with
  | nil => exact ⟨c.store, rfl, hc, fun _ => rfl⟩
  | @cons part f parts support hf _ ih =>
    unfold executeAll
    rcases hf with hf | ⟨p, hf⟩
    · rw [hf]
      dsimp only
      rw [execute_part hc, on_forM_cons]
      have hground := ground_install hc part
      cases hrun : on (install c.globals part) c.store with
      | mk q t =>
        rw [hrun] at hground
        cases q with
        | error e => exact ⟨t, rfl, hground, fun h => by cases h⟩
        | ok a => exact ih (c := { c with store := t }) hground
    · rw [hf]
      exact ⟨c.store, rfl, hc, fun h => by cases h⟩

theorem intact_of_ready (hc : c.Sound) (hs : Packaged support) (hready : Ready c support d) :
    d.initialized = true ∧ ∃ soy, d.store.Intact d.globals soy [] [] := by
  cases hready with
  | earlier hinit =>
    obtain ⟨soy, p, f, hintact⟩ := hc.intact hinit
    exact ⟨hinit, soy, hintact.setRegistries [] []⟩
  | now hinit hrun =>
    obtain ⟨s, hstore, -, hok⟩ := executeAll_packaged hs (hc.ground hinit)
    rcases runSupport_cases c support with ⟨e, hall, hsupport⟩ | ⟨e, f, -, hsupport⟩
    · rw [hall] at hstore hok
      rw [hsupport] at hrun
      obtain rfl := hstore
      obtain rfl := congrArg Prod.snd hrun
      exact ⟨rfl, intact_support (hc.ground hinit) (hok rfl)⟩
    · rw [hsupport] at hrun
      cases hrun

theorem statementsOf_cons (f : Fetched) (r : List Fetched) : statementsOf (f :: r) =
    (match f.result with
      | .ok s => s.statements
      | .error _ => []) ++ statementsOf r := List.flatMap_cons ..

theorem bound_of_ran {soy : ObjectId} {s t : Store} {k : ScopeId} (hs : s.Intact k soy [] [])
    {done : List Statement} (hdone : ∀ x ∈ done, x.IsTame) {a : Unit}
    (hrun : on (done.forM (runStatement k)) s = (.ok a, t)) :
    ((t.scope k).get? builtinsName).isSome = true := by
  obtain ⟨-, p, f, hintact⟩ := intact_forM hdone hs
  rw [hrun] at hintact
  exact hintact.builtins

theorem executeAll_flat_from {soy : ObjectId} {s : Store} (hs : s.Intact c.globals soy [] [])
    {done : List Statement} (hdone : ∀ x ∈ done, x.IsTame) (hb : Tame batch)
    (hrun : on (done.forM (runStatement c.globals)) s = (.ok (), c.store)) :
    ∃ ran, ran <+: statementsOf batch ∧ (c.executeAll batch).2 = { c with store :=
        (on ((done ++ ran).forM (runStatement c.globals)) s).2 } ∧
      ((c.executeAll batch).1 = .ok () → ran = statementsOf batch ∧
        (on ((done ++ ran).forM (runStatement c.globals)) s).1 = .ok ()) := by
  have hstay : c = { c with store :=
      (on ((done ++ []).forM (runStatement c.globals)) s).2 } := by
    rw [List.append_nil, hrun]
  induction batch generalizing c done with
  | nil =>
    refine ⟨[], List.prefix_refl _, hstay, fun _ => ⟨rfl, ?_⟩⟩
    rw [List.append_nil, hrun]
  | cons f r ih =>
    rw [statementsOf_cons]
    unfold executeAll
    unfold Tame at hb
    rw [statementsOf_cons] at hb
    cases hf : f.result with
    | error p => exact ⟨[], List.nil_prefix, hstay, fun h => by cases h⟩
    | ok src =>
      rw [hf] at hb
      dsimp only at hb ⊢
      cases hline : src.malformedLine? with
      | some line =>
        rw [execute_malformed hline]
        exact ⟨[], List.nil_prefix, hstay, fun h => by cases h⟩
      | none =>
        rw [execute_of_bound (bound_of_ran hs hdone hrun) hline]
        have happend := on_forM_append (runStatement c.globals) done src.statements s
        rw [hrun] at happend
        dsimp only at happend
        cases hstep : on (src.statements.forM (runStatement c.globals)) c.store with
        | mk q t =>
          rw [hstep] at happend
          cases q with
          | error e =>
            refine ⟨src.statements, List.prefix_append _ _, ?_, fun h => by cases h⟩
            rw [happend]
            rfl
          | ok a =>
            have hdone' : ∀ x ∈ done ++ src.statements, x.IsTame := fun x hx =>
              (List.mem_append.mp hx).elim (hdone x) fun hx => hb x (List.mem_append_left _ hx)
            obtain ⟨ran, hran, hstore, hok⟩ := ih (c := { c with store := t }) hs hdone'
              (fun x hx => hb x (List.mem_append_right _ hx)) happend
              (by rw [List.append_nil, happend])
            rw [List.append_assoc] at hstore hok
            exact ⟨src.statements ++ ran, (List.prefix_append_right_inj _).mpr hran, hstore,
              fun h => (hok h).imp (congrArg _) id⟩

/-- A batch runs statements of its own one after the other: all of them if it succeeds. -/
theorem executeAll_flat {soy : ObjectId} (hd : d.store.Intact d.globals soy [] [])
    (hb : Tame batch) : ∃ ran, ran <+: statementsOf batch ∧
      (d.executeAll batch).2 = { d with store :=
        (on (ran.forM (runStatement d.globals)) d.store).2 } ∧
      ((d.executeAll batch).1 = .ok () → ran = statementsOf batch ∧
        (on (ran.forM (runStatement d.globals)) d.store).1 = .ok ()) :=
  executeAll_flat_from hd (List.forall_mem_nil _) hb rfl

theorem Runs.flat {e : Context} {soy : ObjectId} (h : Runs d batch e)
    (hd : d.store.Intact d.globals soy [] []) (hb : Tame batch) :
    e = { d with store := e.store } ∧
      on ((statementsOf batch).forM (runStatement d.globals)) d.store = (.ok (), e.store) := by
  obtain ⟨ran, -, hstore, hok⟩ := executeAll_flat hd hb
  rw [h.executeAll] at hstore hok
  obtain ⟨rfl, hall⟩ := hok rfl
  dsimp only at hstore
  rw [hstore]
  exact ⟨rfl, Prod.ext hall rfl⟩

theorem Sound.load (hc : c.Sound) (hs : Packaged support) (hb : Tame batch) :
    (c.load support batch).2.Sound := by
  have hready (d : Context) (h : Ready c support d) : (c.load support batch).2.Sound := by
    obtain ⟨hinit, soy, hintact⟩ := intact_of_ready hc hs h
    obtain ⟨ran, hran, hstore, -⟩ := executeAll_flat hintact hb
    have htame : ∀ x ∈ ran, x.IsTame := fun x hx => hb x (hran.subset hx)
    obtain ⟨-, hkept⟩ := intact_forM htame hintact
    rw [h.load]
    have hlast : (d.loadBatch batch).2 = (d.executeAll batch).2.clearCache := rfl
    rw [hlast, hstore]
    refine ⟨fun hno => ?_, fun _ => ⟨soy, hkept⟩⟩
    rw [show d.initialized = false from hno] at hinit
    cases hinit
  cases hinit : c.initialized with
  | true => exact hready _ (.earlier hinit)
  | false =>
    cases hrun : c.runSupport support with
    | mk q d =>
      cases q with
      | ok a => exact hready d (.now hinit hrun)
      | error e =>
        obtain ⟨s, hstore, hground, -⟩ := executeAll_packaged hs (hc.ground hinit)
        have hload : (c.load support batch).2 = d := by
          unfold Context.load
          rw [if_neg (by simp [hinit]), hrun]
        rcases runSupport_cases c support with ⟨u, -, hsupport⟩ | ⟨f, u, hall, hsupport⟩
        · rw [hsupport] at hrun
          cases hrun
        · rw [hall] at hstore
          rw [hsupport] at hrun
          obtain rfl := hstore
          obtain rfl := congrArg Prod.snd hrun
          rw [hload]
          refine ⟨fun _ => hground, fun hyes => ?_⟩
          rw [show c.initialized = true from hyes] at hinit
          cases hinit

theorem Built.sound (h : c.Built) : c.Sound := by
  induction h with
  | new name => exact sound_new name
  | load _ hs hb ih => exact ih.load hs hb

end Context

end TemplateHost
