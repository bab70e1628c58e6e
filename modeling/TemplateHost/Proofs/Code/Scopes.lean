import TemplateHost.Context.Injection
import TemplateHost.Proofs.Code.Installation
import TemplateHost.Proofs.Code.Retention

/-!
# Code stays in its scopes

A scope is made from outside. Code binds names in the scopes that there are, and however it ends, it
has made no other.
-/
namespace TemplateHost

namespace Run
variable {α β : Type} {k : ScopeId} {P : String → Prop}

def Confined (m : Run α) : Prop := ∀ s : Store, (on m s).2.scopes.size = s.scopes.size

theorem Adds.confined {m : Run α} (h : Adds m) : Confined m := fun s => (h s).keeps.scopes

theorem Founds.confined {m : Run α} (h : Founds k P m) : Confined m := fun s => (h s).size.2

theorem Confined.bind {m : Run α} {f : α → Run β} (hm : Confined m) (hf : ∀ a, Confined (f a)) :
    Confined (m >>= f) :=
  kept_bind (R := fun s t => t.scopes.size = s.scopes.size) (fun h₁ h₂ => h₂.trans h₁) hm hf

theorem Confined.discard {m : Run α} (hm : Confined m) : Confined (discard m) := by
  intro s
  rw [on_discard]
  exact hm s

theorem Confined.forM {ι : Type} {f : ι → Run PUnit} (hf : ∀ x, Confined (f x)) (l : List ι) :
    Confined (l.forM f) :=
  kept_forM (R := fun s t => t.scopes.size = s.scopes.size) (fun _ => rfl)
    (fun h₁ h₂ => h₂.trans h₁) fun x _ => hf x

theorem confined_setGlobal (name : String) (v : Value) : Confined (setGlobal k name v) :=
  fun s => s.size_scopes_setGlobal k name v

theorem confined_setMember (owner : Value) (name : String) (v : Value) :
    Confined (setMember owner name v) := by
  intro s
  rw [on_setMember]
  cases hset : s.setMember owner name v with
  | error e => rfl
  | ok u =>
    obtain ⟨i, rfl, rfl⟩ := Store.setMember_ok hset
    rfl

theorem confined_add (o : Object) : Confined (add o) := fun _ => rfl

theorem confined_define (t : Template) : Confined (define k t) := confined_add _

theorem confined_assign (name : String) (v : Value) : Confined (assign k name v) := by
  unfold assign
  split
  · exact (adds_pure _).confined
  · exact confined_setGlobal _ _
  · exact (adds_resolve _ _).confined.bind fun _ => confined_setMember _ _ _

theorem confined_installInterface : Confined (installInterface k) := by
  intro s
  have hprepared := (lays_prepared k s).size.2
  have hcases := installInterface_cases k s
  generalize prepared k s = u at hprepared hcases
  rcases hcases with ⟨e, t, he, rfl | ⟨form, rfl⟩⟩ | ⟨form, l, hl, -⟩
  · rw [he]
    exact hprepared
  · rw [he]
    exact hprepared
  · rw [hl, size_scopes_withInterface]
    exact hprepared

theorem confined_install (part : SupportPart) : Confined (install k part) := by
  cases part with
  | names => exact founds_installNames.confined
  | strings => exact founds_installStrings.confined
  | content => exact founds_installContent.confined
  | collections => exact founds_installCollections.confined
  | directions => exact founds_installDirections.confined
  | interface => exact confined_installInterface

theorem confined_runStatement (x : Statement) : Confined (runStatement k x) := by
  cases x with
  | provide name declareTop =>
    exact (adds_global _).confined.bind fun _ => (adds_call _ _).confined.discard
  | template path t => exact (confined_define t).bind fun _ => confined_assign _ _
  | delegate id variant priority t =>
    exact (confined_define t).bind fun _ => (adds_interfaceMember _).confined.bind fun _ =>
      (adds_call _ _).confined.discard
  | assign name v => exact confined_assign _ _
  | newNamespace name => exact (adds_newNamespace k).confined.bind fun _ => confined_assign _ _
  | raise kind message => exact (adds_throw _).confined
  | malformed => exact (adds_throw _).confined
  | support part => exact confined_install part

theorem confined_runSource (file : String) (s : Source) : Confined (runSource k file s) := by
  have hbind : Confined (bindBuiltins k) := by
    refine (adds_global? _).confined.bind fun r => ?_
    cases r with
    | some v => exact (adds_pure _).confined
    | none => exact (founds_bindForeign (P := fun _ => True) fun _ _ => trivial).confined
  unfold runSource
  split
  · exact (adds_throw _).confined
  · exact hbind.bind fun _ => .forM confined_runStatement _

mutual

theorem confined_make (type : ObjectId) : ∀ x : Injected, Confined (x.make k type)
  | .constant v => (adds_pure v).confined
  | .template t => confined_define t
  | .bag members => (confined_makeMembers type members).bind fun _ => confined_add _
  | .space members => (confined_makeMembers type members).bind fun _ => confined_add _
  | .guarded _ => confined_add _

theorem confined_makeMembers (type : ObjectId) :
    ∀ members : List (String × Injected), Confined (Injected.makeMembers k type members)
  | [] => (adds_pure _).confined
  | (_, x) :: r => (confined_make type x).bind fun _ => (confined_makeMembers type r).bind fun _ =>
    (adds_pure _).confined

end

end Run

end TemplateHost
