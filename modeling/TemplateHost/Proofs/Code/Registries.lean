import TemplateHost.Proofs.Code.Roster
import TemplateHost.Proofs.Code.Running
import TemplateHost.Proofs.Code.Store

/-!
# Registering and selecting on two maps

Registering a delegate and selecting one go through two maps that a scope holds, and touch nothing
else. What registering does depends on how the new priority stands against the one that the first
map has under the key; what is selected is in the second map. Both have the same key for a variant,
unless the variant is missing: then a delegate is registered under the text of the null value, but
the default variant is selected.
-/
namespace TemplateHost

namespace Value

theorem same_str_iff {j : Value} {a : String} : j.same (.str a) = true ↔ j = .str a := by
  cases j <;> simp [same, sameNumber, number?, isNull]

theorem isNull_iff {v : Value} : v.isNull = true ↔ v = .null := by
  cases v <;> simp [isNull]

def isScalar : Value → Bool
  | .null | .bool _ | .int _ | .float _ | .str _ => true
  | .list _ | .map _ | .safe _ _ | .object _ => false

theorem textOf_of_isScalar {v : Value} (hv : v.isScalar = true) (d : Describer) :
    ∃ t, Library.textOf d v = .ok t := by
  cases v with
  | null | bool | int | float | str => exact ⟨_, rfl⟩
  | list | map | safe | object => cases hv

end Value

namespace Entries
variable {a b : String}

theorem get?_set_self (a : String) (v : Value) (l : Entries) :
    get? (.str a) (set (.str a) v l) = some v := by
  induction l with
  | nil => simp [set, get?, Value.same_str_iff]
  | cons e r ih =>
    by_cases he : e.1.same (.str a) = true
    · simp [set, get?, he]
    · simp [set, get?, he, ih]

theorem get?_set_ne (h : b ≠ a) (v : Value) (l : Entries) :
    get? (.str b) (set (.str a) v l) = get? (.str b) l := by
  have hne : ¬(Value.str a).same (.str b) = true := fun hsame =>
    h (Value.str.inj (Value.same_str_iff.mp hsame)).symm
  induction l with
  | nil => simp [set, get?, hne]
  | cons e r ih =>
    by_cases he : e.1.same (.str a) = true
    · have hb : ¬e.1.same (.str b) = true := Value.same_str_iff.mp he ▸ hne
      simp [set, get?, he, hb]
    · simp [set, get?, he, ih]

end Entries

namespace Delegates

theorem key_inj {id v w : String} : key id v = key id w ↔ v = w := by
  refine ⟨fun h => ?_, fun h => h ▸ rfl⟩
  have hlist := congrArg String.toList (Value.str.inj h)
  simp only [String.toList_append] at hlist
  exact String.toList_inj.mp (List.append_cancel_left hlist)

/-- No delegate with an equal or a higher priority has been registered. -/
def Outranks (priorities : Entries) (id v : String) (priority : Value) : Prop :=
  ∀ old, Entries.get? (key id v) priorities = some old →
    old = .null ∨ old.less? priority = some true

theorem Outranks.judge {p : Entries} {id v : String} {priority : Value}
    (h : Outranks p id v priority) :
    Delegates.judge (Entries.get? (key id v) p) priority = .accepted := by
  cases hold : Entries.get? (key id v) p with
  | none => rfl
  | some old =>
    rcases h old hold with rfl | hless
    · rfl
    · cases old with
      | null => rfl
      | _ => unfold Delegates.judge; dsimp only; rw [hless]

theorem find?_set_self (f : Entries) (id v : String) {function : Value} (h : function ≠ .null) :
    find? (Entries.set (key id v) function f) id v = some function :=
  find?_eq_of_get? (Entries.get?_set_self _ function f) fun heq => h (Option.some.inj heq)

theorem find?_set_ne (f : Entries) (id : String) {v w : String} (h : w ≠ v) (function : Value) :
    find? (Entries.set (key id v) function f) id w = find? f id w := by
  unfold find?
  have hkey : Entries.get? (key id w) (Entries.set (key id v) function f) =
      Entries.get? (key id w) f :=
    Entries.get?_set_ne (fun heq => h (key_inj.mp (congrArg Value.str heq))) function f
  rw [hkey]

end Delegates

namespace Store
variable {s : Store} {k : ScopeId} {p f : Entries}

/-- A scope holds the two maps. -/
structure Registries (k : ScopeId) (priorities functions : Entries) (s : Store) : Prop where
  scope : k < s.scopes.size
  priorities : (s.scope k).get? Run.prioritiesName = some (.map priorities)
  functions : (s.scope k).get? Run.functionsName = some (.map functions)

def withRegistries (s : Store) (k : ScopeId) (p f : Entries) : Store :=
  (s.setGlobal k Run.prioritiesName (.map p)).setGlobal k Run.functionsName (.map f)

theorem scope_withRegistries (hk : k < s.scopes.size) (p f : Entries) :
    (s.withRegistries k p f).scope k =
      ((s.scope k).set Run.prioritiesName (.map p)).set Run.functionsName (.map f) := by
  unfold withRegistries
  rw [scope_setGlobal (by rwa [size_scopes_setGlobal]), scope_setGlobal hk]

theorem registries_withRegistries (hk : k < s.scopes.size) (p f : Entries) :
    (s.withRegistries k p f).Registries k p f where
  scope := by
    unfold withRegistries
    rw [size_scopes_setGlobal, size_scopes_setGlobal]
    exact hk
  priorities := by
    rw [scope_withRegistries hk, Table.get?_set_ne _ (by decide), Table.get?_set_self]
  functions := by
    rw [scope_withRegistries hk, Table.get?_set_self]

theorem get?_withRegistries (hk : k < s.scopes.size) (p f : Entries) {n : String}
    (hp : n ≠ Run.prioritiesName) (hf : n ≠ Run.functionsName) :
    ((s.withRegistries k p f).scope k).get? n = (s.scope k).get? n := by
  rw [scope_withRegistries hk, Table.get?_set_ne _ hf, Table.get?_set_ne _ hp]

end Store

namespace Run
variable {s : Store} {k : ScopeId} {p f : Entries}

theorem on_registry {name : String} {entries : Entries}
    (h : (s.scope k).get? name = some (.map entries)) (use : String) :
    on (registry k name use) s = (.ok entries, s) := by
  unfold registry
  rw [on_bind_ok (on_global_of_some h)]
  rfl

theorem on_global_withRegistries (hk : k < s.scopes.size) (p f : Entries) {n : String}
    (hp : n ≠ prioritiesName) (hf : n ≠ functionsName) :
    on (global k n) (s.withRegistries k p f) =
      ((on (global k n) s).1, s.withRegistries k p f) := by
  rw [on_global, on_global, Store.get?_withRegistries hk p f hp hf]

theorem on_registerDelegate (h : s.Registries k p f) {id variant : Value} {i v : String}
    (hid : Library.textOf s.describer id = .ok i)
    (hv : Library.textOf s.describer variant = .ok v) (priority function : Value) :
    match Delegates.judge (Entries.get? (Delegates.key i v) p) priority with
    | .accepted => on (registerDelegate k id variant priority function) s =
        (.ok .null, s.withRegistries k (Entries.set (Delegates.key i v) priority p)
          (Entries.set (Delegates.key i v) function f))
    | .ignored => on (registerDelegate k id variant priority function) s = (.ok .null, s)
    | .tied => on (registerDelegate k id variant priority function) s =
        (.error (.tiedDelegates i v), s)
    | .incomparable => ∃ message, on (registerDelegate k id variant priority function) s =
        (.error (.mismatch message), s) := by
  have hidText : on (textOf id) s = (.ok i, s) := by rw [on_textOf, hid]
  have hvariantText : on (textOf variant) s = (.ok v, s) := by rw [on_textOf, hv]
  unfold registerDelegate
  rw [on_bind_ok hidText, on_bind_ok hvariantText]
  dsimp only
  rw [on_bind_ok (on_registry h.priorities "get")]
  cases Delegates.judge (Entries.get? (Delegates.key i v) p) priority with
  | accepted =>
    have hfunctions : ((s.setGlobal k prioritiesName
        (.map (Entries.set (Delegates.key i v) priority p))).scope k).get? functionsName =
          some (.map f) := by
      rw [Store.scope_setGlobal h.scope, Table.get?_set_ne _ (by decide), h.functions]
    dsimp only
    rw [on_bind, on_setGlobal]
    dsimp only
    rw [on_bind_ok (on_registry hfunctions "get")]
    rfl
  | ignored => rfl
  | tied => rfl
  | incomparable => exact ⟨_, rfl⟩

/-- What is selected for an id and a variant; the last resort is what stands for the empty
template. -/
def selection (f : Entries) (i v : String) (allowEmpty : Value) (lastResort : Except Fault Value) :
    Except Fault Value :=
  match Delegates.select? f i v with
  | some g => .ok g
  | none => if allowEmpty.isTrue then lastResort else .error (.noDelegate i v)

theorem selection_set_self (f : Entries) (id v : String) {function : Value} (h : function ≠ .null)
    (allowEmpty : Value) (lastResort : Except Fault Value) :
    selection (Entries.set (Delegates.key id v) function f) id v allowEmpty lastResort =
      .ok function := by
  unfold selection Delegates.select?
  rw [Delegates.find?_set_self f id v h]

/-- An entry for another variant does not bear on the default one. -/
theorem selection_set_ne (f : Entries) (id : String) {v : String} (hv : "" ≠ v) (function : Value)
    (allowEmpty : Value) (lastResort : Except Fault Value) :
    selection (Entries.set (Delegates.key id v) function f) id "" allowEmpty lastResort =
      selection f id "" allowEmpty lastResort := by
  unfold selection Delegates.select?
  rw [Delegates.find?_set_ne f id hv]

def variantText (d : Describer) (variant : Value) : Except Fault String :=
  if variant.isNull then .ok "" else Library.textOf d variant

theorem variantText_of_ne {variant : Value} (h : variant ≠ .null) (d : Describer) :
    variantText d variant = Library.textOf d variant :=
  if_neg (mt Value.isNull_iff.mp h)

theorem on_variantText {α : Type} (variant : Value) {g : String → Run α}
    {r : String → Except Fault α} (hg : ∀ v, on (g v) s = (r v, s)) :
    on (if variant.isNull then g "" else textOf variant >>= g) s =
      ((variantText s.describer variant).bind r, s) := by
  unfold variantText
  split
  · exact hg ""
  · rw [on_bind, on_textOf]
    cases Library.textOf s.describer variant with
    | error e => rfl
    | ok v => exact hg v

theorem on_selectDelegate (h : s.Registries k p f) (id variant allowEmpty : Value) :
    on (selectDelegate k id variant allowEmpty) s =
      ((variantText s.describer variant).bind fun v => (Library.textOf s.describer id).bind fun i =>
        selection f i v allowEmpty (on (global k (Routine.name .emptyTemplate)) s).1, s) := by
  refine on_variantText variant fun v => ?_
  rw [on_bind_ok (on_registry h.functions "get"), on_bind, on_textOf]
  cases Library.textOf s.describer id with
  | error e => rfl
  | ok i =>
    dsimp only [Except.bind]
    unfold selection
    cases Delegates.select? f i v with
    | some g => rfl
    | none =>
      dsimp only
      by_cases hallow : allowEmpty.isTrue = true
      · rw [if_pos hallow, if_pos hallow, on_global]
      · rw [if_neg hallow, if_neg hallow]
        rfl

theorem on_selectDelegate_of_text (h : s.Registries k p f) (id : String) {variant : Value}
    {v : String} (hv : variantText s.describer variant = .ok v) (allowEmpty : Value) :
    on (selectDelegate k (.str id) variant allowEmpty) s =
      (selection f id v allowEmpty (on (global k (Routine.name .emptyTemplate)) s).1, s) := by
  rw [on_selectDelegate h, hv]
  rfl

/-- **Registering and selecting agree on every variant but a missing one.** A function that outranks
what has been registered before it is registered. Selecting the same variant then gives that
function, unless the variant is missing: what is selected for the default variant is what was
selected before. -/
theorem selects_registered_iff (h : s.Registries k p f) (id : String) {variant : Value}
    (hvariant : variant.isScalar = true) (priority : Int) {function : Value}
    (hfunction : function ≠ .null) (houtranks : ∀ v, Library.textOf s.describer variant = .ok v →
      Delegates.Outranks p id v (.int priority)) :
    ∃ t, on (registerDelegate k (.str id) variant (.int priority) function) s = (.ok .null, t) ∧
      ∀ allowEmpty, (on (selectDelegate k (.str id) variant allowEmpty) t).1 = .ok function ↔
        variant ≠ .null ∨
          (on (selectDelegate k (.str id) .null allowEmpty) s).1 = .ok function := by
  obtain ⟨v, hv⟩ := Value.textOf_of_isScalar hvariant s.describer
  have hrun := on_registerDelegate h (rfl : Library.textOf s.describer (.str id) = .ok id) hv
    (.int priority) function
  rw [(houtranks v hv).judge] at hrun
  refine ⟨_, hrun, fun allowEmpty => ?_⟩
  have ht := Store.registries_withRegistries h.scope (Entries.set (Delegates.key id v)
    (.int priority) p) (Entries.set (Delegates.key id v) function f)
  have hlast := congrArg Prod.fst (on_global_withRegistries (s := s) h.scope
    (Entries.set (Delegates.key id v) (.int priority) p)
    (Entries.set (Delegates.key id v) function f)
    (n := Routine.name .emptyTemplate) (by decide) (by decide))
  by_cases hnull : variant = .null
  · -- it is registered for the text of the null value
    subst hnull
    have hv : "None" = v := Except.ok.inj hv
    have hne : "" ≠ v := hv ▸ by decide
    rw [on_selectDelegate_of_text ht id rfl, on_selectDelegate_of_text h id rfl, hlast,
      selection_set_ne f id hne]
    exact ⟨Or.inr, fun hbefore => hbefore.resolve_left fun hne => hne rfl⟩
  · have htext : variantText s.describer variant = .ok v :=
      (variantText_of_ne hnull _).trans hv
    refine ⟨fun _ => Or.inl hnull, fun _ => ?_⟩
    rw [on_selectDelegate_of_text ht id htext, selection_set_self f id v hfunction]

/-- A store with two empty registries, the empty template and four functions. -/
def unregistered : Store where
  objects := #[.ofForm (.routine .emptyTemplate 0), .ofForm (.function "f"),
    .ofForm (.function "g"), .ofForm (.function "h"), .ofForm (.function "i")]
  scopes := #[.ofList [(prioritiesName, .map []), (functionsName, .map []),
    (Routine.name .emptyTemplate, .object 0)]]

theorem registries_unregistered : unregistered.Registries 0 [] [] := ⟨by decide, rfl, rfl⟩

theorem selects_registered_iff_unregistered :
    (∃ t, on (registerDelegate 0 (.str "d") (.str "a") (.int 0) (.object 1)) unregistered =
        (.ok .null, t) ∧
      (on (selectDelegate 0 (.str "d") (.str "a") (.bool false)) t).1 = .ok (.object 1)) ∧
    ∃ t, on (registerDelegate 0 (.str "d") .null (.int 0) (.object 1)) unregistered =
        (.ok .null, t) ∧
      (on (selectDelegate 0 (.str "d") .null (.bool false)) t).1 ≠ .ok (.object 1) := by
  have hnone (v : String) : Delegates.Outranks [] "d" v (.int 0) := nofun
  obtain ⟨t, ht, hselect⟩ := selects_registered_iff registries_unregistered "d"
    (rfl : (Value.str "a").isScalar = true) 0 (nofun : Value.object 1 ≠ .null) fun v _ => hnone v
  obtain ⟨u, hu, hmissing⟩ := selects_registered_iff registries_unregistered "d"
    (rfl : Value.null.isScalar = true) 0 (nofun : Value.object 1 ≠ .null) fun v _ => hnone v
  refine ⟨⟨t, ht, (hselect _).mpr (Or.inl nofun)⟩, u, hu, fun h => ?_⟩
  rcases (hmissing _).mp h with hne | hbefore
  · exact hne rfl
  · cases hbefore

end Run

end TemplateHost
