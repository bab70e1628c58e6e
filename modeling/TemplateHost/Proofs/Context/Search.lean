import Mathlib.Data.Finset.Card
import Mathlib.Logic.Relation
import TemplateHost.Context.Lookup
import TemplateHost.Proofs.Code.Store

/-!
# Searching namespaces

The callable names in the namespaces of a scope are gathered with a stack: a namespace is taken off
the stack, the namespaces in it are put there, and its callables are noted. Where no namespace is
inside itself the stack is empty in the end, and what has been noted is what can be suggested.
-/
namespace TemplateHost

theorem Context.namespaceMembers?_eq_some_iff {s : Store} {type : ObjectId} {v : Value}
    {members : Table String Value} : namespaceMembers? s type v = some members ↔
      ∃ i, v = .object i ∧ s.object? i = some ⟨.namespaceOf type, members⟩ := by
  unfold namespaceMembers?
  constructor
  · intro h
    split at h
    · next t inner ho =>
      split at h
      · next ht =>
        obtain rfl := Option.some.inj h
        cases v with
        | object i => exact ⟨i, rfl, ht ▸ ho⟩
        | _ => cases ho
      · cases h
    · cases h
  · rintro ⟨i, rfl, ho⟩
    rw [show s.objectOf? (.object i) = s.object? i from rfl, ho]
    exact if_pos rfl

namespace Store
variable {s : Store} {type i j : ObjectId}

def Inside (s : Store) (type j i : ObjectId) : Prop :=
  ∃ members name inner, s.object? i = some ⟨.namespaceOf type, members⟩ ∧
    (name, .object j) ∈ members.entries ∧ s.object? j = some ⟨.namespaceOf type, inner⟩

/-- No namespace is inside itself, however deeply. -/
def Acyclic (s : Store) (type : ObjectId) : Prop :=
  ∀ i, ¬Relation.TransGen (s.Inside type) i i

open Classical in
noncomputable def within (s : Store) (type i : ObjectId) : Finset ObjectId :=
  (Finset.range s.objects.size).filter fun j => Relation.TransGen (s.Inside type) j i

theorem mem_within : j ∈ s.within type i ↔
    j < s.objects.size ∧ Relation.TransGen (s.Inside type) j i := by
  simp [within]

theorem Acyclic.card_lt (h : s.Acyclic type) (hji : s.Inside type j i) :
    (s.within type j).card < (s.within type i).card := by
  refine Finset.card_lt_card ((Finset.ssubset_iff_of_subset fun x hx => ?_).mpr ⟨j, ?_, ?_⟩)
  · obtain ⟨hlt, hx⟩ := mem_within.mp hx
    exact mem_within.mpr ⟨hlt, hx.tail hji⟩
  · have hsingle := Relation.TransGen.single hji
    obtain ⟨-, -, inner, -, -, hj⟩ := hji
    exact mem_within.mpr ⟨lt_of_object? hj, hsingle⟩
  · exact fun hj => h j (mem_within.mp hj).2

theorem Acyclic.card_lt_size (h : s.Acyclic type) {o : Object} (hi : s.object? i = some o) :
    (s.within type i).card < s.objects.size := by
  have hsub : s.within type i ⊂ Finset.range s.objects.size := by
    refine (Finset.ssubset_iff_of_subset fun x hx => ?_).mpr ⟨i, ?_, ?_⟩
    · exact Finset.mem_range.mpr (mem_within.mp hx).1
    · exact Finset.mem_range.mpr (lt_of_object? hi)
    · exact fun hmem => h i (mem_within.mp hmem).2
  exact (Finset.card_lt_card hsub).trans_eq (Finset.card_range _)

end Store

namespace Context

/-- A search under way: the namespaces that are still to be taken, with their names, the next one
first, and the callable names that have been noted. -/
structure Search where
  stack : List (String × Table String Value)
  names : List String

section Step
variable (s : Store) (type : ObjectId)

def nestedIn (path : String) (members : Table String Value) :
    List (String × Table String Value) :=
  members.entries.filterMap fun (name, v) =>
    (namespaceMembers? s type v).map fun inner => (path ++ "." ++ name, inner)

/-- The dotted names of what can be called in a namespace, the namespaces in it apart. -/
def callablesIn (path : String) (members : Table String Value) : List String :=
  members.entries.filterMap fun (name, v) =>
    if (namespaceMembers? s type v).isNone ∧ s.isCallable v then some (path ++ "." ++ name)
    else none

/-- Takes the next namespace. The last of the namespaces in it will be the next one. -/
def Search.step : Search → Search
  | ⟨[], names⟩ => ⟨[], names⟩
  | ⟨(path, members) :: rest, names⟩ =>
    ⟨(nestedIn s type path members).reverse ++ rest, names ++ callablesIn s type path members⟩

end Step

/-- The namespaces that a scope holds, the one that templates call into apart. -/
def roots (c : Context) (type : ObjectId) : List (String × Table String Value) :=
  c.scope.entries.filterMap fun (name, v) =>
    if name = interfaceName then none
    else (namespaceMembers? c.store type v).map fun members => (name, members)

def search (c : Context) (type : ObjectId) : Search := ⟨(c.roots type).reverse, []⟩

section Finish
variable {s : Store} {type : ObjectId}

/-- The search comes to the point where the namespaces on top of the stack are done with, and has
noted some names by then. -/
def Finishes (s : Store) (type : ObjectId) (top : List (String × Table String Value))
    (noted : List String) : Prop :=
  ∀ rest names, ∃ n, (Search.step s type)^[n] ⟨top ++ rest, names⟩ = ⟨rest, names ++ noted⟩

theorem finishes_nil : Finishes s type [] [] := fun rest names => ⟨0, by simp⟩

theorem Finishes.append {top₁ top₂ : List (String × Table String Value)}
    {noted₁ noted₂ : List String} (h₁ : Finishes s type top₁ noted₁)
    (h₂ : Finishes s type top₂ noted₂) : Finishes s type (top₁ ++ top₂) (noted₁ ++ noted₂) := by
  intro rest names
  obtain ⟨n₁, hn₁⟩ := h₁ (top₂ ++ rest) names
  obtain ⟨n₂, hn₂⟩ := h₂ rest (names ++ noted₁)
  refine ⟨n₂ + n₁, ?_⟩
  rw [Function.iterate_add_apply, List.append_assoc, hn₁, hn₂, List.append_assoc]

theorem Finishes.cons {path : String} {members : Table String Value} {noted : List String}
    (h : Finishes s type (nestedIn s type path members).reverse noted) :
    Finishes s type [(path, members)] (callablesIn s type path members ++ noted) := by
  intro rest names
  obtain ⟨n, hn⟩ := h rest (names ++ callablesIn s type path members)
  refine ⟨n + 1, ?_⟩
  rw [Function.iterate_add_apply, Function.iterate_one]
  change (Search.step s type)^[n] ⟨(nestedIn s type path members).reverse ++ rest,
    names ++ callablesIn s type path members⟩ = _
  rw [hn, List.append_assoc]

theorem finishes_all {names : String × Table String Value → List String}
    {top : List (String × Table String Value)}
    (h : ∀ e ∈ top, ∃ noted, Finishes s type [e] noted ∧ noted.Perm (names e)) :
    ∃ noted, Finishes s type top noted ∧ noted.Perm (top.flatMap names) := by
  induction top with
  | nil => exact ⟨[], finishes_nil, .refl _⟩
  | cons e r ih =>
    obtain ⟨noted, hfirst, hperm⟩ := h e List.mem_cons_self
    obtain ⟨noted', hrest, hperm'⟩ := ih fun x hx => h x (List.mem_cons_of_mem _ hx)
    exact ⟨noted ++ noted', hfirst.append hrest, by simpa using hperm.append hperm'⟩

theorem callableNames_succ (s : Store) (type : ObjectId) (depth : Nat) (path : String)
    (members : Table String Value) : callableNames s type (depth + 1) path members =
      members.entries.flatMap fun e => match namespaceMembers? s type e.2 with
        | some inner => callableNames s type depth (path ++ "." ++ e.1) inner
        | none => if s.isCallable e.2 then [path ++ "." ++ e.1] else [] := rfl

theorem callableNames_perm (s : Store) (type : ObjectId) (depth : Nat) (path : String)
    (members : Table String Value) :
    (callableNames s type (depth + 1) path members).Perm (callablesIn s type path members ++
      (nestedIn s type path members).flatMap fun e => callableNames s type depth e.1 e.2) := by
  rw [callableNames_succ]
  unfold callablesIn nestedIn
  induction members.entries with
  | nil => exact .refl _
  | cons e r ih =>
    rw [List.flatMap_cons, List.filterMap_cons, List.filterMap_cons]
    cases hv : namespaceMembers? s type e.2 with
    | some inner =>
      simp only [hv, Option.isNone_some, Bool.false_eq_true, false_and, if_false, Option.map_some,
        List.flatMap_cons]
      exact (ih.append_left _).trans (List.perm_append_comm_assoc _ _ _)
    | none =>
      cases hcall : s.isCallable e.2 with
      | true => simpa [hv, hcall] using ih
      | false => simpa [hv, hcall] using ih

theorem mem_nestedIn {path : String} {members : Table String Value}
    {e : String × Table String Value} (h : e ∈ nestedIn s type path members) :
    ∃ name j, (name, .object j) ∈ members.entries ∧
      s.object? j = some ⟨.namespaceOf type, e.2⟩ := by
  obtain ⟨⟨name, v⟩, hmem, he⟩ := List.mem_filterMap.mp h
  obtain ⟨inner, hinner, rfl⟩ := Option.map_eq_some_iff.mp he
  obtain ⟨j, rfl, hj⟩ := namespaceMembers?_eq_some_iff.mp hinner
  exact ⟨name, j, hmem, hj⟩

/-- A namespace is done with, by induction on how many objects are inside it at most. -/
theorem finishes_namespace (h : s.Acyclic type) {depth : Nat} {i : ObjectId} (path : String)
    {members : Table String Value} (hi : s.object? i = some ⟨.namespaceOf type, members⟩)
    (hdepth : (s.within type i).card < depth) :
    ∃ noted, Finishes s type [(path, members)] noted ∧
      noted.Perm (callableNames s type depth path members) := by
  induction depth generalizing i path members with
  | zero => exact absurd hdepth (Nat.not_lt_zero _)
  | succ depth ih =>
    have hnested : ∀ e ∈ (nestedIn s type path members).reverse, ∃ noted,
        Finishes s type [e] noted ∧ noted.Perm (callableNames s type depth e.1 e.2) := by
      intro e he
      obtain ⟨name, j, hmem, hj⟩ := mem_nestedIn (List.mem_reverse.mp he)
      have hcard := h.card_lt ⟨members, name, e.2, hi, hmem, hj⟩
      exact ih e.1 hj (hcard.trans_le (Nat.le_of_lt_succ hdepth))
    obtain ⟨noted, hfinishes, hperm⟩ := finishes_all hnested
    refine ⟨_, hfinishes.cons, ?_⟩
    refine (List.Perm.append_left _ ?_).trans (callableNames_perm s type depth path members).symm
    exact hperm.trans ((List.reverse_perm _).flatMap_right _)

end Finish

variable {c : Context} {type : ObjectId}

theorem suggestible_eq (c : Context) (type : ObjectId) : c.suggestible type =
    (c.roots type).flatMap fun e =>
      callableNames c.store type c.store.objects.size e.1 e.2 := by
  unfold suggestible roots
  induction c.scope.entries with
  | nil => rfl
  | cons e r ih =>
    rw [List.flatMap_cons, List.filterMap_cons, ih]
    by_cases hname : e.1 = interfaceName
    · simp [hname]
    · cases hv : namespaceMembers? c.store type e.2 with
      | some members => simp [hname, hv]
      | none => simp [hname, hv]

theorem mem_roots {e : String × Table String Value} (h : e ∈ c.roots type) :
    ∃ i, c.store.object? i = some ⟨.namespaceOf type, e.2⟩ := by
  obtain ⟨⟨name, v⟩, -, he⟩ := List.mem_filterMap.mp h
  by_cases hname : name = interfaceName
  · simp [hname] at he
  · simp only [hname, if_false] at he
    obtain ⟨members, hmembers, rfl⟩ := Option.map_eq_some_iff.mp he
    obtain ⟨i, -, hi⟩ := namespaceMembers?_eq_some_iff.mp hmembers
    exact ⟨i, hi⟩

/-- **A search comes to its end where no namespace is inside itself**, and has noted what can be
suggested by then. -/
theorem search_ends (h : c.store.Acyclic type) : ∃ n names,
    (Search.step c.store type)^[n] (c.search type) = ⟨[], names⟩ ∧
      names.Perm (c.suggestible type) := by
  have hroots : ∀ e ∈ (c.roots type).reverse, ∃ noted, Finishes c.store type [e] noted ∧
      noted.Perm (callableNames c.store type c.store.objects.size e.1 e.2) := by
    intro e he
    obtain ⟨i, hi⟩ := mem_roots (List.mem_reverse.mp he)
    exact finishes_namespace h e.1 hi (h.card_lt_size hi)
  obtain ⟨noted, hfinishes, hperm⟩ := finishes_all hroots
  obtain ⟨n, hn⟩ := hfinishes [] []
  rw [List.append_nil, List.nil_append] at hn
  refine ⟨n, noted, hn, ?_⟩
  rw [suggestible_eq]
  exact hperm.trans ((List.reverse_perm _).flatMap_right _)

end Context

end TemplateHost
