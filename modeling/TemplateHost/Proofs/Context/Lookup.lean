import Mathlib.Data.List.Infix
import TemplateHost.Context.Injection
import TemplateHost.Context.Lookup
import TemplateHost.Proofs.Code.Retention
import TemplateHost.Proofs.Context.Batch

/-!
# Looking up what has been looked up before

A template that has been looked up is kept. Looking it up again gives what its name stands for now,
as long as no load has failed in its support code in between: every other load empties the cache,
and rendering binds no name anew.
-/
namespace TemplateHost.Context
open Run

section Resolve
variable {s t : Store}

theorem foldlM_descend_null (s : Store) (parts : List String) :
    parts.foldlM (descend s) .null = .ok .null := by
  induction parts with
  | nil => rfl
  | cons p r ih => exact ih

theorem foldlM_descend_of_keeps (h : s.Keeps t) {parts : List String} {v : Value} {i : ObjectId}
    (hv : parts.foldlM (descend s) v = .ok (.object i)) :
    parts.foldlM (descend t) v = .ok (.object i) := by
  induction parts generalizing v with
  | nil => exact hv
  | cons p r ih =>
    rw [List.foldlM_cons] at hv ⊢
    have hnull : (Except.ok Value.null : Except Fault Value) >>= r.foldlM (descend s) =
        .ok .null := foldlM_descend_null s r
    by_cases hisNull : v.isNull = true
    · rw [descend, if_pos hisNull, hnull] at hv
      cases hv
    · rw [descend, if_neg hisNull] at hv ⊢
      unfold memberOrNull at hv ⊢
      cases hm : s.member v p with
      | ok w =>
        rw [hm] at hv
        rw [h.members v p w hm]
        exact ih hv
      | error f =>
        rw [hm] at hv
        cases f with
        | missingMember o m =>
          rw [hnull] at hv
          cases hv
        | _ => cases hv

theorem foldlM_descend_map (s : Store) {v : Value} (hv : v.isMap = true) (parts : List String)
    (i : ObjectId) : parts.foldlM (descend s) v ≠ .ok (.object i) := by
  cases v with
  | map entries =>
    cases parts with
    | nil => exact nofun
    | cons p r =>
      have hnull : (p :: r).foldlM (descend s) (.map entries) = .ok .null :=
        foldlM_descend_null s r
      rw [hnull]
      exact nofun
  | _ => cases hv

variable {c d : Context}

theorem resolve_of_keeps (h : c.store.Keeps d.store) (hglobals : d.globals = c.globals)
    {name : String} {i : ObjectId} (hc : c.resolve name = .ok (.object i)) :
    d.resolve name = .ok (.object i) := by
  unfold resolve scope at hc ⊢
  dsimp only at hc ⊢
  rw [hglobals]
  generalize (if (splitHead name).2 = "" then [] else Text.dotted (splitHead name).2) = parts
    at hc ⊢
  cases hhead : (c.store.scope c.globals).get? (splitHead name).1 with
  | none =>
    rw [hhead, Option.getD_none, foldlM_descend_null] at hc
    cases hc
  | some v =>
    obtain ⟨w, hw, rfl | ⟨hmap, -⟩⟩ := h.globals c.globals _ v hhead
    · rw [hhead] at hc
      rw [hw]
      exact foldlM_descend_of_keeps h hc
    · rw [hhead] at hc
      exact absurd hc (foldlM_descend_map _ hmap parts i)

end Resolve

/-- What a context is used for. -/
inductive Operation where
  | load (support batch : List Fetched)
  | setScope (keep : List String) (values : List (String × Injected))
  | get (loading : Bool) (name : String)
  | render (loading : Bool) (name : String) (data injected : Value)

def act (c : Context) : Operation → Context
  | .load support batch => (c.load support batch).2
  | .setScope keep values => c.setScope keep values
  | .get loading name => match c.get loading name with
    | .ok (_, d) => d
    | .error _ => c
  | .render loading name data injected => (c.render loading name data injected).2

def after (c : Context) (ops : List Operation) : Context := ops.foldl act c

/-- A lookup gives what the name stands for at that moment. -/
def Current (c : Context) : Prop :=
  ∀ loading name v d, c.get loading name = .ok (v, d) → c.resolve name = .ok v

/-- A load fails before it comes to its batch. -/
def FailsInSupport (c : Context) (support : List Fetched) : Prop :=
  c.initialized = false ∧ (c.runSupport support).1.isOk = false

/-- What is kept are objects. -/
def Keeping (c : Context) : Prop := ∀ name v, c.cache.get? name = some v → ∃ i, v = .object i

variable {c d : Context} {name : String} {v : Value} {loading : Bool}

theorem isCallable_object {s : Store} (h : s.isCallable v = true) : ∃ i, v = .object i := by
  cases v with
  | object i => exact ⟨i, rfl⟩
  | _ => cases h

theorem get_cases (h : c.get loading name = .ok (v, d)) :
    c.cache.get? name = some v ∧ d = c ∨
      c.resolve name = .ok v ∧ c.store.isCallable v = true ∧
        d = { c with cache := c.cache.set name v } := by
  unfold get at h
  split at h
  · unfold find at h
    cases hcache : c.cache.get? name with
    | some w =>
      rw [hcache] at h
      obtain ⟨rfl, rfl⟩ := Prod.mk.inj (Except.ok.inj h)
      exact Or.inl ⟨rfl, rfl⟩
    | none =>
      rw [hcache] at h
      dsimp only at h
      cases hres : c.resolve name with
      | error f =>
        rw [hres] at h
        cases h
      | ok w =>
        rw [hres] at h
        dsimp only at h
        split at h
        · next hcall =>
          obtain ⟨rfl, rfl⟩ := Prod.mk.inj (Except.ok.inj h)
          exact Or.inr ⟨rfl, hcall, rfl⟩
        · cases h
  · cases h

theorem get_of_cached (h : c.cache.get? name = some v) : c.get true name = .ok (v, c) := by
  rw [get, if_pos rfl, find, h]

theorem get_of_resolve (hmiss : c.cache.get? name = none) (h : c.resolve name = .ok v)
    (hcallable : c.store.isCallable v = true) :
    c.get true name = .ok (v, { c with cache := c.cache.set name v }) := by
  rw [get, if_pos rfl, find, hmiss]
  dsimp only
  rw [h]
  dsimp only
  rw [if_pos hcallable]

/-- Lookups are current if what is kept is. -/
theorem current_iff : c.Current ↔
    ∀ name v, c.cache.get? name = some v → c.resolve name = .ok v := by
  constructor
  · intro h name v hcache
    exact h true name v c (get_of_cached hcache)
  · intro h loading name v d hget
    rcases get_cases hget with ⟨hcache, -⟩ | ⟨hres, -⟩
    · exact h name v hcache
    · exact hres

theorem Keeping.get (hk : c.Keeping) (h : c.get loading name = .ok (v, d)) : d.Keeping := by
  rcases get_cases h with ⟨-, rfl⟩ | ⟨-, hcall, rfl⟩
  · exact hk
  · intro n w hw
    by_cases hn : n = name
    · subst n
      dsimp only at hw
      rw [Table.get?_set_self] at hw
      obtain rfl := Option.some.inj hw
      exact isCallable_object hcall
    · dsimp only at hw
      rw [Table.get?_set_ne _ hn] at hw
      exact hk n w hw

theorem Current.get (hc : c.Current) (h : c.get loading name = .ok (v, d)) : d.Current := by
  rcases get_cases h with ⟨-, rfl⟩ | ⟨hres, -, rfl⟩
  · exact hc
  · refine current_iff.mpr fun n w hw => ?_
    change c.resolve n = .ok w
    by_cases hn : n = name
    · subst n
      dsimp only at hw
      rw [Table.get?_set_self] at hw
      obtain rfl := Option.some.inj hw
      exact hres
    · dsimp only at hw
      rw [Table.get?_set_ne _ hn] at hw
      exact current_iff.mp hc n w hw

theorem Current.run {α : Type} {r : ScopeId → Run α} (hc : c.Current) (hk : c.Keeping)
    (hr : Retains (r c.globals)) : (c.run r).2.Current := by
  refine current_iff.mpr fun n w hw => ?_
  obtain ⟨i, rfl⟩ := hk n w hw
  exact resolve_of_keeps (d := (c.run r).2) (hr c.store) rfl (current_iff.mp hc n _ hw)

theorem adds_callTemplate (f data injected : Value) : Adds (callTemplate f data injected) :=
  (adds_call _ _).bind fun _ => adds_textOf _

theorem executeAll_cache (c : Context) (batch : List Fetched) :
    (c.executeAll batch).2.cache = c.cache :=
  executeAll_induction (P := fun d => d.cache = c.cache) (fun _ _ _ h => h) rfl batch

/-- A load empties the cache, unless it fails in its support code. -/
theorem load_cache (c : Context) (support batch : List Fetched) :
    ¬c.FailsInSupport support ∧ (c.load support batch).2.cache = .empty ∨
      c.FailsInSupport support ∧ (c.load support batch).2.cache = c.cache := by
  unfold load FailsInSupport
  by_cases hc : c.initialized = true
  · rw [if_pos hc]
    exact Or.inl ⟨by simp [hc], rfl⟩
  · rw [if_neg hc]
    have hkeep : (c.runSupport support).2.cache = c.cache := by
      have hcache := executeAll_cache c support
      rcases runSupport_cases c support with ⟨d, hall, hrun⟩ | ⟨e, d, hall, hrun⟩
      · rw [hall] at hcache
        rw [hrun]
        exact hcache
      · rw [hall] at hcache
        rw [hrun]
        exact hcache
    cases hrun : c.runSupport support with
    | mk q d =>
      rw [hrun] at hkeep
      cases q with
      | ok u => exact Or.inl ⟨nofun, rfl⟩
      | error e => exact Or.inr ⟨⟨by simpa using hc, rfl⟩, hkeep⟩

theorem current_of_empty (h : c.cache = .empty) : c.Current := by
  refine current_iff.mpr fun n w hw => ?_
  rw [h] at hw
  cases hw

theorem keeping_of_empty (h : c.cache = .empty) : c.Keeping := by
  intro n w hw
  rw [h] at hw
  cases hw

theorem act_get_induction {P : Context → Prop} (hc : P c)
    (hget : ∀ v d, c.get loading name = .ok (v, d) → P d) : P (c.act (.get loading name)) := by
  cases h : c.get loading name with
  | error e => simpa only [act, h] using hc
  | ok r => simpa only [act, h] using hget r.1 r.2 h

theorem act_render_induction {P : Context → Prop} {data injected : Value} (hc : P c)
    (hrun : ∀ v d, c.get loading name = .ok (v, d) →
      P (d.run fun _ => callTemplate v data injected).2) :
    P (c.act (.render loading name data injected)) := by
  cases h : c.get loading name with
  | error e => simpa only [act, render, h] using hc
  | ok r => simpa only [act, render, h] using hrun r.1 r.2 h

theorem Keeping.act (hk : c.Keeping) (op : Operation) : (c.act op).Keeping := by
  cases op with
  | load support batch =>
    rcases c.load_cache support batch with ⟨-, h⟩ | ⟨-, h⟩
    · exact keeping_of_empty h
    · intro n w hw
      exact hk n w (h ▸ hw)
  | setScope keep values => exact keeping_of_empty rfl
  | get loading name => exact act_get_induction hk fun v d h => hk.get h
  | render loading name data injected =>
    exact act_render_induction hk fun v d h n w hw => hk.get h n w hw

/-- Whatever happens leaves lookups current, a load that fails in its support code apart. -/
theorem Current.act (hc : c.Current) (hk : c.Keeping) {op : Operation}
    (hop : ∀ support batch, op = .load support batch → c.FailsInSupport support →
      ∀ n v, c.cache.get? n = some v → (c.act op).resolve n = .ok v) : (c.act op).Current := by
  cases op with
  | load support batch =>
    rcases c.load_cache support batch with ⟨-, h⟩ | ⟨hfails, h⟩
    · exact current_of_empty h
    · exact current_iff.mpr fun n w hw => hop support batch rfl hfails n w (h ▸ hw)
  | setScope keep values => exact current_of_empty rfl
  | get loading name => exact act_get_induction hc fun v d h => hc.get h
  | render loading name data injected =>
    exact act_render_induction hc fun v d h =>
      (hc.get h).run (hk.get h) (adds_callTemplate _ _ _).retains

theorem after_concat (c : Context) (ops : List Operation) (op : Operation) :
    c.after (ops ++ [op]) = (c.after ops).act op := by
  simp [after]

theorem Keeping.after (hk : c.Keeping) (ops : List Operation) : (c.after ops).Keeping := by
  induction ops using List.reverseRecOn with
  | nil => exact hk
  | append_singleton ops op ih =>
    rw [after_concat]
    exact ih.act op

/-- **Lookups are current exactly if no load that fails in its support code rebinds a name that has
been looked up.** Such a load is the only one that leaves the cache as it was. -/
theorem lookups_current_iff (name : String) (ops : List Operation) :
    (∀ r, r <+: ops → ((new name).after r).Current) ↔
      ∀ r support batch, r ++ [.load support batch] <+: ops →
        ((new name).after r).FailsInSupport support →
        ∀ n v, ((new name).after r).cache.get? n = some v →
          ((new name).after (r ++ [.load support batch])).resolve n = .ok v := by
  have hkeeping : (new name).Keeping := keeping_of_empty rfl
  constructor
  · intro h r support batch hr hfails n v hcache
    have hcurrent := current_iff.mp (h _ hr) n v
    rw [after_concat] at hcurrent ⊢
    refine hcurrent ?_
    rcases ((new name).after r).load_cache support batch with ⟨hnot, -⟩ | ⟨-, hsame⟩
    · exact absurd hfails hnot
    · exact hsame ▸ hcache
  · intro h r hr
    induction r using List.reverseRecOn with
    | nil => exact current_of_empty rfl
    | append_singleton r op ih =>
      have hbefore := ih ((List.prefix_append r [op]).trans hr)
      rw [after_concat]
      refine hbefore.act (hkeeping.after r) ?_
      rintro support batch rfl hfails n v hcache
      rw [← after_concat]
      exact h r support batch hr hfails n v hcache

section Sample

/-- Support code of one's own that defines a template and then fails. -/
def failingSupport (text : String) : List Fetched :=
  [⟨text ++ ".py", .ok (.holding [.template "t" ⟨"t", [.text text], none, none⟩,
    .raise "ValueError" "no"])⟩]

def lookupBetweenFailures : List Operation :=
  [.load (failingSupport "one") [], .get true "t", .load (failingSupport "two") []]

/-- Support code that fails a second time has bound the name that was looked up anew, and a lookup
gives what it stood for before. -/
theorem lookups_current_iff_failingTwice :
    (((new "default").after lookupBetweenFailures).get true "t").map Prod.fst =
      .ok (.object 1) ∧
    ((new "default").after lookupBetweenFailures).resolve "t" = .ok (.object 2) ∧
    ¬∀ r, r <+: lookupBetweenFailures → ((new "default").after r).Current := by
  have hresolve : ((new "default").after lookupBetweenFailures).resolve "t" =
      .ok (.object 2) := rfl
  refine ⟨rfl, hresolve, fun hall => ?_⟩
  have hiff := lookups_current_iff "default" lookupBetweenFailures
  have hstale := hiff.mp hall (lookupBetweenFailures.take 2) (failingSupport "two") []
    (List.prefix_refl _) ⟨rfl, rfl⟩ "t" (.object 1) rfl
  rw [show (new "default").after
    (lookupBetweenFailures.take 2 ++ [.load (failingSupport "two") []]) =
      (new "default").after lookupBetweenFailures from rfl, hresolve] at hstale
  cases hstale

end Sample

end TemplateHost.Context
