import TemplateHost.Proofs.Code.Registries
import TemplateHost.Proofs.Code.Retention
import TemplateHost.Proofs.Code.Roster

/-!
# The interface that templates call into

Delegates are registered and selected through one namespace. Statements that assign neither to its
name nor to its members, nor to the few other names that it works through, leave the interface as it
is, and no value that they can reach leads to it. What they do to the registries is to follow the
roster of their delegates.
-/
namespace TemplateHost

def Fault.isTie : Fault → Bool
  | .tiedDelegates _ _ => true
  | _ => false

namespace Run

/-- The names through which delegates are registered and selected. -/
def guardedNames : List String :=
  ["soy", "provide", Routine.name .emptyTemplate, prioritiesName, functionsName, builtinsName]

end Run

namespace Store
variable {s : Store} {k : ScopeId} {name : String} {form : Form}

def Holds (s : Store) (k : ScopeId) (name : String) (form : Form) : Prop :=
  ∃ i o, (s.scope k).get? name = some (.object i) ∧ s.object? i = some o ∧ o.form = form

def HoldsMember (s : Store) (i : ObjectId) (name : String) (form : Form) : Prop :=
  ∃ o j p, s.object? i = some o ∧ o.members.get? name = some (.object j) ∧
    s.object? j = some p ∧ p.form = form

theorem Holds.add (h : s.Holds k name form) (o : Object) : (s.add o).2.Holds k name form := by
  obtain ⟨i, p, hi, hp, hform⟩ := h
  exact ⟨i, p, hi, object?_add hp o, hform⟩

theorem Holds.withMember (h : s.Holds k name form) (j : ObjectId) (n : String) (v : Value) :
    (s.withMember j n v).Holds k name form := by
  obtain ⟨i, o, hi, ho, rfl⟩ := h
  obtain ⟨p, hp, hform, -⟩ := object?_withMember ho j n v
  exact ⟨i, p, hi, hp, hform⟩

theorem Holds.setGlobal (h : s.Holds k name form) (hk : k < s.scopes.size) {n : String}
    (hn : name ≠ n) (v : Value) : (s.setGlobal k n v).Holds k name form := by
  obtain ⟨i, o, hi, ho, hform⟩ := h
  refine ⟨i, o, ?_, ho, hform⟩
  rw [scope_setGlobal hk, Table.get?_set_ne _ hn, hi]

theorem HoldsMember.add {i : ObjectId} (h : s.HoldsMember i name form) (o : Object) :
    (s.add o).2.HoldsMember i name form := by
  obtain ⟨p, j, q, hp, hj, hq, hform⟩ := h
  exact ⟨p, j, q, object?_add hp o, hj, object?_add hq o, hform⟩

theorem HoldsMember.withMember {i j : ObjectId} {n : String} (h : s.HoldsMember i name form)
    (hn : i ≠ j ∨ name ≠ n) (v : Value) : (s.withMember j n v).HoldsMember i name form := by
  obtain ⟨o, m, q, ho, hm, hq, rfl⟩ := h
  obtain ⟨o', ho', -, hmembers⟩ := object?_withMember ho j n v
  obtain ⟨q', hq', hform, -⟩ := object?_withMember hq j n v
  exact ⟨o', m, q', ho', (hmembers name hn).trans hm, hq', hform⟩

/-- The interface is in place, and no other name and no member leads to it. -/
structure Intact (k : ScopeId) (interface : ObjectId) (priorities functions : Entries) (s : Store) :
    Prop where
  scope : k < s.scopes.size
  builtins : ((s.scope k).get? Run.builtinsName).isSome = true
  declarer : s.Holds k "provide" (.routine .provide k)
  fallback : s.Holds k (Routine.name .emptyTemplate) (.routine .emptyTemplate k)
  named : (s.scope k).get? "soy" = some (.object interface)
  register : s.HoldsMember interface "register_delegate_fn" (.routine .registerDelegate k)
  select : s.HoldsMember interface "get_delegate_fn" (.routine .selectDelegate k)
  priorities : (s.scope k).get? Run.prioritiesName = some (.map priorities)
  functions : (s.scope k).get? Run.functionsName = some (.map functions)
  globals (n : String) : n ≠ "soy" → (s.scope k).get? n ≠ some (.object interface)
  members (i : ObjectId) (o : Object) (n : String) :
    s.object? i = some o → o.members.get? n ≠ some (.object interface)

section Intact
variable {soy : ObjectId} {p f : Entries} (h : s.Intact k soy p f)
include h

theorem Intact.lt_size : soy < s.objects.size := by
  obtain ⟨o, j, q, ho, -⟩ := h.register
  exact lt_of_object? ho

theorem Intact.bound : ∀ g ∈ Run.guardedNames, ((s.scope k).get? g).isSome = true := by
  have hheld {n : String} {form : Form} (hn : s.Holds k n form) :
      ((s.scope k).get? n).isSome = true := by
    obtain ⟨i, o, hi, -⟩ := hn
    rw [hi]
    rfl
  intro g hg
  simp only [Run.guardedNames, List.mem_cons, List.not_mem_nil, or_false] at hg
  rcases hg with rfl | rfl | rfl | rfl | rfl | rfl
  · rw [h.named]
    rfl
  · exact hheld h.declarer
  · exact hheld h.fallback
  · rw [h.priorities]
    rfl
  · rw [h.functions]
    rfl
  · exact h.builtins

theorem Intact.add (o : Object) (ho : ∀ n, o.members.get? n ≠ some (.object soy)) :
    (s.add o).2.Intact k soy p f where
  scope := h.scope
  builtins := h.builtins
  declarer := h.declarer.add o
  fallback := h.fallback.add o
  named := h.named
  register := h.register.add o
  select := h.select.add o
  priorities := h.priorities
  functions := h.functions
  globals := h.globals
  members i q n hq := by
    rcases object?_add_cases hq with hold | ⟨-, rfl⟩
    · exact h.members i q n hold
    · exact ho n

/-- A name is free if it is none of the guarded ones, or not bound yet. -/
theorem Intact.setGlobal {n : String} {v : Value}
    (hn : n ∉ Run.guardedNames ∨ (s.scope k).get? n = none) (hv : v ≠ .object soy) :
    (s.setGlobal k n v).Intact k soy p f := by
  have hne (g : String) (hg : g ∈ Run.guardedNames) : g ≠ n := by
    rintro rfl
    rcases hn with hno | hnone
    · exact hno hg
    · have hbound := h.bound g hg
      rw [hnone] at hbound
      cases hbound
  have hget (g : String) (hg : g ∈ Run.guardedNames) :
      ((s.setGlobal k n v).scope k).get? g = (s.scope k).get? g := by
    rw [scope_setGlobal h.scope, Table.get?_set_ne _ (hne g hg)]
  refine ⟨?_, ?_, h.declarer.setGlobal h.scope (hne _ (by decide)) v,
    h.fallback.setGlobal h.scope (hne _ (by decide)) v, (hget _ (by decide)).trans h.named,
    h.register, h.select, (hget _ (by decide)).trans h.priorities,
    (hget _ (by decide)).trans h.functions, fun m hm => ?_, h.members⟩
  · rw [size_scopes_setGlobal]
    exact h.scope
  · rw [hget _ (by decide)]
    exact h.builtins
  · rw [scope_setGlobal h.scope]
    by_cases hmn : m = n
    · rw [hmn, Table.get?_set_self]
      exact fun heq => hv (Option.some.inj heq)
    · rw [Table.get?_set_ne _ hmn]
      exact h.globals m hm

/-- A member may be set of anything but the interface; of that too if it is not there. -/
theorem Intact.withMember {j : ObjectId} {n : String} {v : Value}
    (hj : soy ≠ j ∨ ∀ o, s.object? j = some o → o.members.get? n = none)
    (hv : v ≠ .object soy) : (s.withMember j n v).Intact k soy p f := by
  have hfree {m : String} {form : Form} (hm : s.HoldsMember soy m form) : soy ≠ j ∨ m ≠ n := by
    rcases hj with hne | hnone
    · exact Or.inl hne
    · by_cases hsoy : soy = j
      · obtain ⟨o, i, q, ho, hi, -⟩ := hm
        refine Or.inr ?_
        rintro rfl
        rw [hnone o (hsoy ▸ ho)] at hi
        cases hi
      · exact Or.inl hsoy
  refine ⟨h.scope, h.builtins, h.declarer.withMember j n v, h.fallback.withMember j n v, h.named,
    h.register.withMember (hfree h.register) v, h.select.withMember (hfree h.select) v,
    h.priorities, h.functions, h.globals, fun i o m ho hm => ?_⟩
  rcases member_withMember_cases ho hm with heq | ⟨q, hq, hold⟩
  · exact hv heq.symm
  · exact h.members i q m hq hold

theorem Intact.registries : s.Registries k p f := ⟨h.scope, h.priorities, h.functions⟩

theorem Intact.setRegistries (p' f' : Entries) :
    (s.withRegistries k p' f').Intact k soy p' f' := by
  have hset := registries_withRegistries h.scope p' f'
  have hk : k < (s.setGlobal k Run.prioritiesName (.map p')).scopes.size := by
    rw [size_scopes_setGlobal]
    exact h.scope
  have hother (g : String) (hp : g ≠ Run.prioritiesName) (hf : g ≠ Run.functionsName) :
      ((s.withRegistries k p' f').scope k).get? g = (s.scope k).get? g :=
    get?_withRegistries h.scope p' f' hp hf
  refine ⟨hset.scope, ?_, (h.declarer.setGlobal h.scope (by decide) _).setGlobal hk (by decide) _,
    (h.fallback.setGlobal h.scope (by decide) _).setGlobal hk (by decide) _,
    (hother _ (by decide) (by decide)).trans h.named, h.register, h.select, hset.priorities,
    hset.functions, fun n hn => ?_, h.members⟩
  · rw [hother _ (by decide) (by decide)]
    exact h.builtins
  · by_cases hf : n = Run.functionsName
    · rw [hf, hset.functions]
      nofun
    · by_cases hp : n = Run.prioritiesName
      · rw [hp, hset.priorities]
        nofun
      · rw [hother n hp hf]
        exact h.globals n hn

end Intact

end Store

end TemplateHost
