import TemplateHost.Proofs.Code.Installation
import TemplateHost.Proofs.Code.Retention
import TemplateHost.Proofs.Table

/-!
# How names are spelled

No name has a dot in it, and nothing is bound twice under one name. The empty name can be declared
as the name of a member, but then it is a namespace that it stands for: no function can be assigned
to a name that ends in a dot. Code keeps to this, and what an object is does not change.
-/
namespace TemplateHost

namespace Table
variable {ν : Type} {t : Table String ν} {name : String} {v : ν}

/-- No name is there twice, and none has a dot in it. -/
structure Named (t : Table String ν) : Prop where
  nodup : t.keys.Nodup
  dotless : ∀ n ∈ t.keys, '.' ∉ n.toList

theorem named_empty : (empty : Table String ν).Named := ⟨List.nodup_nil, nofun⟩

theorem Named.set (h : t.Named) (hname : '.' ∉ name.toList) (v : ν) : (t.set name v).Named := by
  by_cases hmem : name ∈ t.keys
  · constructor
    · rw [keys_set_of_mem t v hmem]
      exact h.nodup
    · rw [keys_set_of_mem t v hmem]
      exact h.dotless
  · constructor
    · rw [keys_set_of_not_mem t v hmem]
      refine List.nodup_append.mpr ⟨h.nodup, List.pairwise_singleton _ _, ?_⟩
      rintro a ha b hb rfl
      exact hmem (List.mem_singleton.mp hb ▸ ha)
    · rw [keys_set_of_not_mem t v hmem]
      intro n hn
      rcases List.mem_append.mp hn with hn | hn
      · exact h.dotless n hn
      · exact List.mem_singleton.mp hn ▸ hname

theorem named_ofList {l : List (String × ν)} (hl : ∀ e ∈ l, '.' ∉ e.1.toList) :
    (ofList l).Named := by
  have hfold (t : Table String ν) (ht : t.Named) :
      (l.foldl (fun t e => t.set e.1 e.2) t).Named := by
    induction l generalizing t with
    | nil => exact ht
    | cons e r ih =>
      exact ih (fun x hx => hl x (List.mem_cons_of_mem _ hx)) _
        (ht.set (hl e List.mem_cons_self) e.2)
  exact hfold .empty named_empty

theorem Named.mem_entries_iff (h : t.Named) : (name, v) ∈ t.entries ↔ t.get? name = some v :=
  ⟨find_of_mem h.nodup, mem_of_find⟩

end Table

namespace Store
variable {s t u : Store} {name : String} {v : Value}

/-- The names of the scopes and of the members are parts of dotted names, and what stands under the
empty name cannot be called. -/
structure Spelled (s : Store) : Prop where
  scopes (k : ScopeId) : (s.scope k).Named
  members (i : ObjectId) (o : Object) : s.object? i = some o → o.members.Named
  unnamed (i : ObjectId) (o : Object) (v : Value) :
    s.object? i = some o → o.members.get? "" = some v → s.Inert v

/-- What code leaves of a store: what there was in the forms that it had, and names that are spelled
as they should be if they were before. -/
structure Succeeds (s t : Store) : Prop where
  forms : s.Extends t
  spelled : s.Spelled → t.Spelled

theorem Inert.mono (h : s.Inert v) (hforms : s.Extends t) : t.Inert v := by
  intro i hi
  obtain ⟨o, ho, hcall⟩ := h i hi
  obtain ⟨p, hp, hform⟩ := hforms i o ho
  exact ⟨p, hp, hform ▸ hcall⟩

theorem Succeeds.refl (s : Store) : s.Succeeds s := ⟨.refl s, id⟩

theorem Succeeds.trans (h₁ : s.Succeeds t) (h₂ : t.Succeeds u) : s.Succeeds u :=
  ⟨h₁.forms.trans h₂.forms, h₂.spelled ∘ h₁.spelled⟩

theorem succeeds_setGlobal (s : Store) (k : ScopeId) (hname : '.' ∉ name.toList) (v : Value) :
    s.Succeeds (s.setGlobal k name v) where
  forms _ o ho := ⟨o, ho, rfl⟩
  spelled h := by
    refine ⟨fun j => ?_, h.members, h.unnamed⟩
    by_cases hj : j = k
    · subst j
      rcases scope_setGlobal_self s k name v with hset | ⟨hsame, -⟩
      · rw [hset]
        exact (h.scopes k).set hname v
      · rw [hsame]
        exact h.scopes k
    · rw [scope_setGlobal_ne s hj]
      exact h.scopes j

theorem succeeds_add (s : Store) {o : Object} (ho : o.members.Named)
    (hempty : o.members.get? "" = none) : s.Succeeds (s.add o).2 where
  forms := extends_add s o
  spelled h := by
    refine ⟨h.scopes, fun i p hp => ?_, fun i p v hp hv => ?_⟩
    · rcases object?_add_cases hp with hold | ⟨-, rfl⟩
      · exact h.members i p hold
      · exact ho
    · rcases object?_add_cases hp with hold | ⟨-, rfl⟩
      · exact (h.unnamed i p v hold hv).mono (extends_add s o)
      · rw [hempty] at hv
        cases hv

theorem succeeds_ofForm (s : Store) (form : Form) : s.Succeeds (s.add (.ofForm form)).2 :=
  succeeds_add s Table.named_empty rfl

/-- A member may be set, under the empty name to something that cannot be called. -/
theorem succeeds_withMember (s : Store) (i : ObjectId) (hname : '.' ∉ name.toList)
    (hv : name = "" → s.Inert v) : s.Succeeds (s.withMember i name v) where
  forms := extends_withMember s i name v
  spelled h := by
    refine ⟨h.scopes, fun j p hp => ?_, fun j p w hp hw => ?_⟩
    · by_cases hj : j = i
      · subst j
        rw [object?_withMember_self] at hp
        obtain ⟨o, ho, rfl⟩ := Option.map_eq_some_iff.mp hp
        exact (h.members i o ho).set hname v
      · rw [object?_withMember_ne s hj] at hp
        exact h.members j p hp
    · refine Inert.mono ?_ (extends_withMember s i name v)
      by_cases hj : j = i
      · subst j
        rw [object?_withMember_self] at hp
        obtain ⟨o, ho, rfl⟩ := Option.map_eq_some_iff.mp hp
        dsimp only at hw
        by_cases hempty : name = ""
        · rw [hempty, Table.get?_set_self] at hw
          exact Option.some.inj hw ▸ hv hempty
        · rw [Table.get?_set_ne _ (Ne.symm hempty)] at hw
          exact h.unnamed i o w ho hw
      · rw [object?_withMember_ne s hj] at hp
        exact h.unnamed j p w hp hw

theorem succeeds_withMembers (s : Store) (i : ObjectId) {l : List (String × Value)}
    (hl : ∀ e ∈ l, '.' ∉ e.1.toList ∧ e.1 ≠ "") : s.Succeeds (s.withMembers i l) := by
  induction l generalizing s with
  | nil => exact .refl s
  | cons e r ih =>
    obtain ⟨hname, hne⟩ := hl e List.mem_cons_self
    exact (succeeds_withMember s i hname fun hempty => absurd hempty hne).trans
      (ih _ fun x hx => hl x (List.mem_cons_of_mem _ hx))

theorem Makes.succeeds (h : s.Makes t) : s.Succeeds t := by
  obtain rfl | ⟨form, -, rfl⟩ := h
  · exact .refl _
  · exact succeeds_ofForm s form

/-- Names that templates declare are spelled as they should be. -/
theorem Grows.succeeds (h : s.Grows t) : s.Succeeds t := by
  induction h with
  | start => exact .refl s
  | object _ hmakes ih => exact ih.trans hmakes.succeeds
  | member _ hmakes hname hv _ ih =>
    exact (ih.trans hmakes.succeeds).trans (succeeds_withMember _ _ hname fun _ => hv)
  | global _ hname _ v ih => exact ih.trans (succeeds_setGlobal _ _ hname v)
  | @registry t _ k name entries hget entries' ih =>
    refine ⟨ih.forms, fun hs => ?_⟩
    have hname := ((ih.spelled hs).scopes k).dotless name (Table.mem_keys_of_get? hget)
    exact (succeeds_setGlobal t k hname _).spelled (ih.spelled hs)

theorem isCallable_iff : s.isCallable v = true ↔
    ∃ i o, v = .object i ∧ s.object? i = some o ∧ o.form.isCallable = true := by
  constructor
  · intro h
    cases v with
    | object i =>
      cases ho : s.object? i with
      | none => simp [isCallable, objectOf?, ho] at h
      | some o => exact ⟨i, o, rfl, ho, by simpa [isCallable, objectOf?, ho] using h⟩
    | _ => cases h
  · rintro ⟨i, o, rfl, ho, hcall⟩
    simpa [isCallable, objectOf?, ho] using hcall

theorem isCallable_of_extends (h : s.Extends t) (hv : s.isCallable v = true) :
    t.isCallable v = true := by
  obtain ⟨i, o, rfl, ho, hcall⟩ := isCallable_iff.mp hv
  obtain ⟨p, hp, hform⟩ := h i o ho
  exact isCallable_iff.mpr ⟨i, p, rfl, hp, hform ▸ hcall⟩

end Store

/-- The name of what is assigned has no empty part. -/
def Statement.IsSpelled : Statement → Prop
  | .template path _ => "" ∉ Text.dotted path
  | .assign name _ => "" ∉ Text.dotted name
  | .newNamespace name => "" ∉ Text.dotted name
  | _ => True

namespace Run
variable {α β : Type} {k : ScopeId}

def Spells (m : Run α) : Prop := ∀ s : Store, s.Succeeds (on m s).2

theorem Adds.spells {m : Run α} (h : Adds m) : Spells m := fun s => (h s).succeeds

theorem Spells.bind {m : Run α} {f : α → Run β} (hm : Spells m) (hf : ∀ a, Spells (f a)) :
    Spells (m >>= f) := kept_bind .trans hm hf

theorem Spells.discard {m : Run α} (hm : Spells m) : Spells (discard m) := by
  intro s
  rw [on_discard]
  exact hm s

theorem Spells.forM {ι : Type} {f : ι → Run PUnit} {l : List ι} (hf : ∀ x ∈ l, Spells (f x)) :
    Spells (l.forM f) := kept_forM .refl .trans hf

theorem spells_setGlobal {name : String} (hname : '.' ∉ name.toList) (v : Value) :
    Spells (setGlobal k name v) := fun s => s.succeeds_setGlobal k hname v

theorem spells_define (t : Template) : Spells (define k t) := fun s => s.succeeds_ofForm _

/-- The last part of a name is assigned in what the others stand for. -/
theorem spells_assign {name : String} (hname : "" ∉ Text.dotted name) (v : Value) :
    Spells (assign k name v) := by
  have hparts := Text.dotless_dotted name
  unfold assign
  split
  · exact (adds_pure _).spells
  · next head hhead => exact spells_setGlobal (hparts head (hhead ▸ List.mem_cons_self)) v
  · next head next rest hsplit =>
    refine (adds_resolve _ _).spells.bind fun owner s => ?_
    have hlast : (next :: rest).getLast (by simp) ∈ Text.dotted name := by
      rw [hsplit]
      exact List.mem_cons_of_mem _ (List.getLast_mem _)
    rw [on_setMember]
    cases hset : s.setMember owner ((next :: rest).getLast (by simp)) v with
    | error e => exact .refl s
    | ok u =>
      obtain ⟨i, rfl, rfl⟩ := Store.setMember_ok hset
      exact s.succeeds_withMember i (hparts _ hlast) fun hempty => absurd (hempty ▸ hlast) hname

section Install

theorem spells_bindObject {name : String} (hname : '.' ∉ name.toList) {o : Object}
    (ho : o.members.Named) (hempty : o.members.get? "" = none) : Spells (bindObject k name o) :=
  fun s => (s.succeeds_add ho hempty).trans (Store.succeeds_setGlobal _ k hname _)

theorem spells_bindForm {name : String} (hname : '.' ∉ name.toList) (form : Form) :
    Spells (bindObject k name (.ofForm form)) := spells_bindObject hname Table.named_empty rfl

theorem dotless_routine (r : Routine) : '.' ∉ r.name.toList := by
  cases r with
  | library f => cases f <;> decide
  | _ => decide

theorem spells_bindRoutines (routines : List Routine) : Spells (bindRoutines k routines) :=
  .forM fun r _ => spells_bindForm (dotless_routine r) _

theorem spells_bindForeign {names : List (String × String)}
    (h : ∀ e ∈ names, '.' ∉ e.1.toList) : Spells (bindForeign k names) :=
  .forM fun e he => spells_bindForm (h e he) _

theorem spells_contentType (context : Safety) (base : Option ObjectId) :
    Spells (bindObject k context.typeName (contentTypeObject context base)) := by
  have hkind : '.' ∉ "content_kind".toList := by decide
  refine spells_bindObject (by cases context <;> decide) (Table.named_ofList fun e he => ?_) rfl
  rwa [List.mem_singleton.mp he]

theorem spells_installContent : Spells (installContent k) := by
  have hkinds : Spells (Safety.specific.mapM fun context => do
      return (Value.str (context.kind?.getD ""), ← global k context.typeName)) :=
    (Adds.mapM (fun _ => (adds_global _).bind fun _ => adds_pure _) _).spells
  unfold installContent
  exact (spells_bindForeign (by decide)).bind fun _ => (spells_bindRoutines _).bind fun _ =>
    (spells_bindForm (by decide) _).bind fun _ => (spells_setGlobal (by decide) _).bind fun _ =>
      (spells_setGlobal (by decide) _).bind fun _ =>
        (spells_bindObject (by decide) (Table.named_ofList (by decide)) rfl).bind fun _ =>
          adds_get.spells.bind fun _ => (spells_contentType _ none).bind fun _ =>
            (Spells.forM fun context _ => spells_contentType context _).bind fun _ =>
              hkinds.bind fun _ => (spells_setGlobal (by decide) _).bind fun _ =>
                spells_bindRoutines _

theorem spells_resetRegistries : Spells (resetRegistries k) :=
  (spells_setGlobal (by decide) _).bind fun _ => spells_setGlobal (by decide) _

theorem spells_installInterface : Spells (installInterface k) := by
  intro s
  have hprepared : s.Succeeds (prepared k s) :=
    (spells_resetRegistries (k := k) s).trans (spells_bindRoutines interfaceRoutines _)
  have hnames : ∀ n ∈ interfaceNames, '.' ∉ n.toList ∧ n ≠ "" := by decide
  have hcases := installInterface_cases k s
  generalize prepared k s = u at hprepared hcases
  rcases hcases with ⟨e, t, he, rfl | ⟨form, rfl⟩⟩ | ⟨form, l, hl, hkeys, -⟩
  · rw [he]
    exact hprepared
  · rw [he]
    exact hprepared.trans (u.succeeds_ofForm form)
  · rw [hl]
    have hmembers : ∀ e ∈ l, '.' ∉ e.1.toList ∧ e.1 ≠ "" := fun e he =>
      hnames e.1 (hkeys ▸ List.mem_map_of_mem he)
    exact ((hprepared.trans (u.succeeds_ofForm form)).trans
      (Store.succeeds_withMembers _ _ hmembers)).trans (Store.succeeds_setGlobal _ k (by decide) _)

theorem spells_install (part : SupportPart) : Spells (install k part) := by
  cases part with
  | names => exact (spells_bindForm (by decide) _).bind fun _ => spells_bindRoutines _
  | strings => exact (spells_bindForeign (by decide)).bind fun _ => spells_bindRoutines _
  | content => exact spells_installContent
  | collections => exact spells_bindRoutines _
  | directions =>
    exact (spells_bindForeign (by decide)).bind fun _ =>
      (spells_setGlobal (by decide) _).bind fun _ => (spells_setGlobal (by decide) _).bind fun _ =>
        (spells_bindForeign (by decide)).bind fun _ => spells_bindRoutines _
  | interface => exact spells_installInterface

end Install

theorem spells_runStatement {x : Statement} (hx : x.IsSpelled) : Spells (runStatement k x) := by
  cases x with
  | provide name declareTop =>
    exact (adds_global _).spells.bind fun _ => (adds_call _ _).spells.discard
  | template path t => exact (spells_define t).bind fun _ => spells_assign hx _
  | delegate id variant priority t =>
    exact (spells_define t).bind fun _ => (adds_interfaceMember _).spells.bind fun _ =>
      (adds_call _ _).spells.discard
  | assign name v => exact spells_assign hx v
  | newNamespace name => exact (adds_newNamespace k).spells.bind fun _ => spells_assign hx _
  | raise kind message => exact (adds_throw _).spells
  | malformed => exact (adds_throw _).spells
  | support part => exact spells_install part

theorem spells_runSource {src : Source} (hsrc : ∀ x ∈ src.statements, x.IsSpelled)
    (file : String) : Spells (runSource k file src) := by
  have hbind : Spells (bindBuiltins k) := by
    refine (adds_global? _).spells.bind fun r => ?_
    cases r with
    | some v => exact (adds_pure _).spells
    | none => exact spells_bindForeign (by decide)
  unfold runSource
  split
  · exact (adds_throw _).spells
  · exact hbind.bind fun _ => .forM fun x hx => spells_runStatement (hsrc x hx)

end Run

end TemplateHost
