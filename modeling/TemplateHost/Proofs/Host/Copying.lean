import TemplateHost.Host.Reuse
import TemplateHost.Proofs.Flow.Interleaving
import TemplateHost.Proofs.Host.Transfer

/-!
# Copies amid others

Every call on the file system that a copy makes is a step of its own, and others may go on between
any two of them: a directory that was missing may be there when it is to be made. Whatever the
others copy meanwhile, a copy only makes changes that are allowed, and it knows what became of its
artifact. Without others it does what reuse does in one go.
-/
namespace TemplateHost.Reuse
open Layout TemplateHost.Path FileTree

/-- Work on a tree: it may pause, and an error ends it early. -/
abbrev Work := ExceptT FileErrorKind (Flow FileTree)

namespace Work

def tree : Work FileTree := ExceptT.lift Flow.read

def pause : Work Unit := ExceptT.lift Flow.pause

/-- What an operation on a tree comes to: if it fails, the tree stays. -/
def settle (t : FileTree) : Except FileErrorKind FileTree → Except FileErrorKind Unit × FileTree
  | .ok t' => (.ok (), t')
  | .error kind => (.error kind, t)

/-- A step that replaces the tree, or fails and leaves it. -/
def attempt (f : FileTree → Except FileErrorKind FileTree) : Work Unit :=
  ExceptT.mk (Flow.atomic fun t => settle t (f t))

/-- Makes a directory; if that fails it looks whether there is one. -/
def ensureDirectory (path : String) : Work Unit :=
  tryCatch (attempt (·.makeDirectory path)) fun kind => do
    pause
    if (← tree).isDirectory path then return ()
    throw kind

def makeDirectoriesWithin : Nat → String → Work Unit
  | 0, path => ensureDirectory path
  | depth + 1, path => do
    if directory path = "" ∨ (← tree).exists? (directory path) then
      pause
      ensureDirectory path
    else
      pause
      makeDirectoriesWithin depth (directory path)
      pause
      ensureDirectory path

end Work

def sameFile (t : FileTree) (source target : String) : Bool :=
  match t.stat source, t.stat target with
  | .ok (p, _), .ok (q, _) => p = q
  | _, _ => false

open Work in
/-- Copies a file's content once it is sure that it is not the same file. -/
def Transfer.copy (w : Transfer) : Work Unit := do
  if sameFile (← tree) w.earlier w.target then throw .sameFile
  pause
  match (← tree).content w.earlier with
  | .error kind => throw kind
  | .ok c =>
    pause
    attempt (·.write w.target c)

open Work in
def Transfer.carry (w : Transfer) : Work Unit := do
  makeDirectoriesWithin (directory w.target).length (directory w.target)
  pause
  w.copy

/-- What becomes of an artifact. -/
inductive Fate where
  | missing
  | ready
  | failed (kind : FileErrorKind)

def Fate.isReady : Fate → Bool
  | .ready => true
  | .missing | .failed _ => false

def Fate.isFailed : Fate → Bool
  | .failed _ => true
  | .missing | .ready => false

def Fate.report (earlier : String) : Fate → List LogEntry
  | .failed kind => [.copyFailed earlier kind]
  | .missing | .ready => []

def Fate.ofResult : Except FileErrorKind Unit → Fate
  | .ok () => .ready
  | .error kind => .failed kind

def Transfer.deliver (w : Transfer) : Flow FileTree Fate := do
  return .ofResult (← ExceptT.run w.carry)

def Transfer.prepare (w : Transfer) : Flow FileTree Fate := do
  if !(← Flow.read).isFile w.earlier then return .missing
  if w.target = w.earlier then return .ready
  Flow.pause
  w.deliver

variable {ws : List Transfer} {t₀ t : FileTree} {w : Transfer}

/-- What a fate says of the trees before and after. -/
def Fate.Told (w : Transfer) (t₀ : FileTree) : Fate → FileTree → Prop
  | .missing, _ => t₀.isFile w.earlier = false
  | .ready, t => w.Arrived t₀ t
  | .failed _, _ => t₀.isFile w.earlier = true

theorem keeps_flow {α β : Type} {Q : α → FileTree → Prop} {Q' : β → FileTree → Prop}
    {m : Flow FileTree α} {f : α → Flow FileTree β}
    (hm : (m t).Keeps (Transferred ws t₀) (Later ws t₀) Q t)
    (hf : ∀ a u, Transferred ws t₀ u → Q a u →
      (f a u).Keeps (Transferred ws t₀) (Later ws t₀) Q' u) :
    ((m >>= f) t).Keeps (Transferred ws t₀) (Later ws t₀) Q' t :=
  Outcome.keeps_flow_bind (I := Transferred ws t₀) (R := Later ws t₀)
    (fun _ _ _ => Later.trans) (fun _ _ => Later.transferred) hm hf

namespace Work
variable {α β : Type} {Q : α → FileTree → Prop} {Q' : β → FileTree → Prop}

/-- From a given tree on and whatever others transfer meanwhile, the work makes changes that are
allowed only, and if it ends well it ends with what it promises. -/
structure Keeps (ws : List Transfer) (t₀ : FileTree) (Q : α → FileTree → Prop) (t : FileTree)
    (m : Work α) : Prop where
  outcome : (ExceptT.run m t).Keeps (Transferred ws t₀) (Later ws t₀)
    (fun r u => ∀ a, r = .ok a → Q a u) t

theorem keeps_pure {a : α} (ht : Transferred ws t₀ t) (ha : Q a t) :
    Keeps ws t₀ Q t (pure a) :=
  ⟨.done (.refl ht) fun b hb => by cases hb; exact ha⟩

theorem keeps_throw (ht : Transferred ws t₀ t) (kind : FileErrorKind) :
    Keeps ws t₀ Q t (throw kind) :=
  ⟨.done (.refl ht) fun b hb => by cases hb⟩

theorem keeps_tree (ht : Transferred ws t₀ t) : Keeps ws t₀ (fun u v => u = v) t tree :=
  ⟨.done (.refl ht) fun b hb => by cases hb; rfl⟩

theorem keeps_pause (ht : Transferred ws t₀ t) : Keeps ws t₀ (fun _ _ => True) t pause :=
  ⟨.paused (.refl ht) fun _ hu => .done (.refl hu) fun _ _ => trivial⟩

theorem keeps_attempt (ht : Transferred ws t₀ t)
    {f : FileTree → Except FileErrorKind FileTree} {Q : FileTree → Prop}
    (hf : ∀ t', f t = .ok t' → Later ws t₀ t t' ∧ Q t') :
    Keeps ws t₀ (fun _ => Q) t (attempt f) := by
  constructor
  change Outcome.Keeps _ _ _ _ (.done (settle t (f t)).1 (settle t (f t)).2)
  cases hr : f t with
  | ok t' => exact .done (hf t' hr).1 fun _ _ => (hf t' hr).2
  | error kind => exact .done (.refl ht) fun _ ha => by cases ha

theorem Keeps.bind {m : Work α} {f : α → Work β} (hm : Keeps ws t₀ Q t m)
    (hf : ∀ a u, Transferred ws t₀ u → Q a u → Keeps ws t₀ Q' u (f a)) :
    Keeps ws t₀ Q' t (m >>= f) := by
  constructor
  refine keeps_flow (m := ExceptT.run m) (f := ExceptT.bindCont f) hm.outcome fun r u hu hr => ?_
  cases r with
  | ok a => exact (hf a u hu (hr a rfl)).outcome
  | error kind => exact .done (.refl hu) fun _ hb => by cases hb

theorem Keeps.catch {m : Work α} {f : FileErrorKind → Work α} (hm : Keeps ws t₀ Q t m)
    (hf : ∀ kind u, Transferred ws t₀ u → Keeps ws t₀ Q u (f kind)) :
    Keeps ws t₀ Q t (tryCatch m f) := by
  constructor
  refine keeps_flow (m := ExceptT.run m) hm.outcome fun r u hu hr => ?_
  cases r with
  | ok a => exact .done (.refl hu) hr
  | error kind => exact (hf kind u hu).outcome

theorem keeps_pause_bind {m : Work α} (ht : Transferred ws t₀ t)
    (hm : ∀ u, Transferred ws t₀ u → Keeps ws t₀ Q u m) :
    Keeps ws t₀ Q t (pause >>= fun _ => m) :=
  (keeps_pause ht).bind fun _ u hu _ => hm u hu

theorem keeps_ensureDirectory (ht : Transferred ws t₀ t) (hw : w ∈ ws) {p lead : String} {k : Nat}
    {ns : Place} (hd : Direct p lead k ns) (hp : place t₀.cwd p <+: (w.goal t₀.cwd).dropLast) :
    Keeps ws t₀ (fun _ _ => True) t (ensureDirectory p) := by
  refine Keeps.catch (keeps_attempt ht fun t' h => ⟨ht.makeDirectory hw hd hp h, trivial⟩) ?_
  intro kind u hu
  refine keeps_pause_bind hu fun v hv => (keeps_tree hv).bind fun t' u' hu' _ => ?_
  split_ifs
  · exact keeps_pure hu' trivial
  · exact keeps_throw hu' kind

theorem keeps_makeDirectoriesWithin (ht : Transferred ws t₀ t) (hw : w ∈ ws) (depth : Nat)
    {p lead : String} {k : Nat} {ns : Place} (hd : Direct p lead k ns)
    (hp : place t₀.cwd p <+: (w.goal t₀.cwd).dropLast) :
    Keeps ws t₀ (fun _ _ => True) t (makeDirectoriesWithin depth p) := by
  induction depth generalizing p k ns t with
  | zero => exact keeps_ensureDirectory ht hw hd hp
  | succ depth ih =>
    have hself (u : FileTree) (hu : Transferred ws t₀ u) :=
      keeps_ensureDirectory hu hw hd hp
    refine (keeps_tree ht).bind fun t' u hu heq => ?_
    subst t'
    split_ifs with hthere
    · exact keeps_pause_bind hu hself
    · obtain ⟨hne, hmissing⟩ := not_or.mp hthere
      obtain ⟨ms, hhead, hplace, -⟩ := hu.proper.direct_of_missing hd hne hmissing
      rw [hu.cwd] at hplace
      have habove : place t₀.cwd (directory p) <+: (w.goal t₀.cwd).dropLast := by
        rw [hplace]
        exact (List.dropLast_prefix _).trans hp
      refine keeps_pause_bind hu fun v hv => (ih hv hhead habove).bind fun _ v' hv' _ => ?_
      exact keeps_pause_bind hv' hself

end Work

theorem makeDirectory_empty (t : FileTree) : t.makeDirectory "" = .error .notFound := rfl

theorem Transfer.sameFile (w : Transfer) (ht : t.Proper) {c : Content}
    (hc : t.content w.earlier = .ok c) (hgoal : w.goal t.cwd = w.origin t.cwd) :
    Reuse.sameFile t w.earlier w.target = true := by
  have hn := (w.content_earlier ht).mp hc
  obtain ⟨lead, k, ns, hd⟩ := w.direct
  obtain ⟨lead', k', ns', a, hd'⟩ := w.below
  have hsource := stat_ok_iff.mpr ⟨ht.locate_of_node? hd hn, hn⟩
  have htarget := stat_ok_iff.mpr ⟨ht.locate_of_node? hd' (hgoal ▸ hn), hgoal ▸ hn⟩
  unfold Reuse.sameFile
  rw [hsource, htarget]
  exact decide_eq_true hgoal.symm

theorem Transfer.direct_directory (w : Transfer) (hne : directory w.target ≠ "") (cwd : Place) :
    ∃ lead k ns, Direct (directory w.target) lead k ns ∧
      place cwd (directory w.target) = (w.goal cwd).dropLast := by
  obtain ⟨lead, k, ns, a, hd⟩ := w.below
  have hhead := hd.directory hne
  refine ⟨lead, k, ns, hhead, ?_⟩
  rw [Transfer.goal, hd.place, hhead.place, ← List.append_assoc, List.dropLast_concat]

section Keeps
open Work

theorem keeps_ensureDirectory_empty (ht : Transferred ws t₀ t) :
    Keeps ws t₀ (fun _ _ => True) t (ensureDirectory "") := by
  refine Keeps.catch (keeps_attempt ht fun t' h => ?_) fun kind u hu => ?_
  · rw [makeDirectory_empty] at h
    cases h
  · refine keeps_pause_bind hu fun v hv => (keeps_tree hv).bind fun t' u' hu' _ => ?_
    split_ifs
    · exact keeps_pure hu' trivial
    · exact keeps_throw hu' kind

theorem keeps_makeDirectories (ht : Transferred ws t₀ t) (hw : w ∈ ws) (depth : Nat) :
    Keeps ws t₀ (fun _ _ => True) t (makeDirectoriesWithin depth (directory w.target)) := by
  by_cases hne : directory w.target = ""
  · rw [hne]
    cases depth with
    | zero => exact keeps_ensureDirectory_empty ht
    | succ depth =>
      refine (keeps_tree ht).bind fun t' u hu _ => ?_
      have hempty : directory "" = "" := rfl
      rw [if_pos (Or.inl hempty)]
      exact keeps_pause_bind hu fun v => keeps_ensureDirectory_empty
  · obtain ⟨lead, k, ns, hhead, hplace⟩ := w.direct_directory hne t₀.cwd
    exact keeps_makeDirectoriesWithin ht hw depth hhead (hplace ▸ List.prefix_rfl)

theorem keeps_copy (ht : Transferred ws t₀ t) (ht₀ : t₀.Proper) (ha : Apart t₀.cwd ws)
    (hw : w ∈ ws) (hfile : t₀.isFile w.earlier = true) :
    Keeps ws t₀ (fun _ => w.Arrived t₀) t w.copy := by
  obtain ⟨c, hc⟩ := isFile_iff.mp hfile
  refine (keeps_tree ht).bind fun t' u hu heq => ?_
  subst t'
  split_ifs with hsame
  · exact keeps_throw hu .sameFile
  have hmoves : w.Moves t₀.cwd := by
    intro hgoal
    rw [← hu.cwd] at hgoal
    exact hsame (w.sameFile hu.proper ((hu.content_earlier ht₀ ha hw).mpr hc) hgoal)
  refine keeps_pause_bind hu fun v hv => (keeps_tree hv).bind fun t' v hv heq => ?_
  subst t'
  rw [(hv.content_earlier ht₀ ha hw).mpr hc]
  exact keeps_pause_bind hv fun v hv => keeps_attempt hv fun t' h =>
    hv.write ht₀ ha hw hmoves hc h

theorem keeps_carry (ht : Transferred ws t₀ t) (ht₀ : t₀.Proper) (ha : Apart t₀.cwd ws)
    (hw : w ∈ ws) (hfile : t₀.isFile w.earlier = true) :
    Keeps ws t₀ (fun _ => w.Arrived t₀) t w.carry := by
  unfold Transfer.carry
  exact (keeps_makeDirectories ht hw _).bind fun _ u hu _ =>
    keeps_pause_bind hu fun v hv => keeps_copy hv ht₀ ha hw hfile

theorem keeps_deliver (ht : Transferred ws t₀ t) (ht₀ : t₀.Proper) (ha : Apart t₀.cwd ws)
    (hw : w ∈ ws) (hfile : t₀.isFile w.earlier = true) :
    (w.deliver t).Keeps (Transferred ws t₀) (Later ws t₀) (Fate.Told w t₀) t := by
  unfold Transfer.deliver
  refine keeps_flow (keeps_carry ht ht₀ ha hw hfile).outcome fun r u hu hr => ?_
  cases r with
  | ok _ => exact .done (.refl hu) (hr () rfl)
  | error kind => exact .done (.refl hu) hfile

theorem prepare_apply (w : Transfer) (t : FileTree) :
    w.prepare t = if t.isFile w.earlier then
      if w.target = w.earlier then .done .ready t else .paused t fun u => w.deliver u
    else .done .missing t := by
  unfold Transfer.prepare
  generalize w.deliver = deliver
  change (if !t.isFile w.earlier then (pure Fate.missing : Flow FileTree Fate) else _) t = _
  cases t.isFile w.earlier with
  | false => rfl
  | true =>
    change (if w.target = w.earlier then (pure Fate.ready : Flow FileTree Fate) else _) t = _
    by_cases hsame : w.target = w.earlier
    · rw [if_pos hsame, if_pos rfl, if_pos hsame]
      rfl
    · rw [if_neg hsame, if_pos rfl, if_neg hsame]
      rfl

/-- Whatever others transfer meanwhile, each artifact has a fate. -/
theorem keeps_prepare (ht : Transferred ws t₀ t) (ht₀ : t₀.Proper) (ha : Apart t₀.cwd ws)
    (hw : w ∈ ws) :
    (w.prepare t).Keeps (Transferred ws t₀) (Later ws t₀) (Fate.Told w t₀) t := by
  rw [prepare_apply, ht.isFile_earlier ht₀ ha hw]
  split_ifs with hfile hsame
  · obtain ⟨c, hc⟩ := isFile_iff.mp hfile
    exact .done (.refl ht) ⟨c, hc, hsame ▸ (ht.content_earlier ht₀ ha hw).mpr hc⟩
  · exact .paused (.refl ht) fun u hu => keeps_deliver hu ht₀ ha hw hfile
  · exact .done (.refl ht) (eq_false_of_ne_true hfile)

theorem later_prepare (ht : Transferred ws t₀ t) (ht₀ : t₀.Proper) (ha : Apart t₀.cwd ws)
    (hw : w ∈ ws) : Later ws t₀ t (Flow.run w.prepare t).2 := by
  unfold Flow.run
  exact (Outcome.Keeps.run (I := Transferred ws t₀) (R := Later ws t₀)
    (fun _ _ _ => Later.trans) (fun _ _ => Later.transferred) (keeps_prepare ht ht₀ ha hw)).1

theorem told_later {fate : Fate} {t' : FileTree} (hw : w ∈ ws) (h : Later ws t₀ t t')
    (ht : fate.Told w t₀ t) : fate.Told w t₀ t' := by
  cases fate with
  | missing => exact ht
  | ready => exact h.stays hw ht
  | failed kind => exact ht

end Keeps

section Alone
open Work
variable {α β : Type}

namespace Work

def perform (m : Work α) (t : FileTree) : Except FileErrorKind α × FileTree :=
  Flow.run (ExceptT.run m) t

theorem perform_bind (m : Work α) (f : α → Work β) (t : FileTree) :
    perform (m >>= f) t = match perform m t with
      | (.ok a, u) => perform (f a) u
      | (.error kind, u) => (.error kind, u) := by
  unfold perform
  change Flow.run (ExceptT.run m >>= ExceptT.bindCont f) t = _
  rw [Flow.run_bind]
  rcases Flow.run (ExceptT.run m) t with ⟨kind | a, u⟩ <;> rfl

theorem perform_catch (m : Work α) (f : FileErrorKind → Work α) (t : FileTree) :
    perform (tryCatch m f) t = match perform m t with
      | (.ok a, u) => (.ok a, u)
      | (.error kind, u) => perform (f kind) u := by
  unfold perform
  change Flow.run (ExceptT.run m >>= _) t = _
  rw [Flow.run_bind]
  rcases Flow.run (ExceptT.run m) t with ⟨kind | a, u⟩ <;> rfl

@[simp] theorem perform_pure (a : α) (t : FileTree) :
    perform (pure a) t = (.ok a, t) := rfl

@[simp] theorem perform_throw (kind : FileErrorKind) (t : FileTree) :
    perform (throw kind : Work α) t = (.error kind, t) := rfl

@[simp] theorem perform_tree (t : FileTree) : perform tree t = (.ok t, t) := rfl

@[simp] theorem perform_pause (t : FileTree) : perform pause t = (.ok (), t) := rfl

@[simp] theorem perform_attempt (f : FileTree → Except FileErrorKind FileTree) (t : FileTree) :
    perform (attempt f) t = settle t (f t) := rfl

theorem perform_ensureDirectory (p : String) (t : FileTree) :
    perform (Work.ensureDirectory p) t = settle t (t.ensureDirectory p) := by
  unfold Work.ensureDirectory FileTree.ensureDirectory
  rw [perform_catch, perform_attempt]
  cases t.makeDirectory p with
  | ok t' => rfl
  | error kind =>
    simp only [settle, perform_bind, perform_pause, perform_tree]
    by_cases hdir : t.isDirectory p = true
    · simp [hdir]
    · simp [hdir]

/-- In a directory that had to be made there is nothing, so the next one can be made in it. -/
theorem ensureDirectory_of_missing (ht : t.Proper) {p lead : String} {k : Nat} {ns : Place}
    (hd : Direct p lead k ns) (hne : directory p ≠ "") (hmissing : ¬ t.exists? (directory p))
    {t₁ : FileTree} (hmade : FileTree.Made t (place t.cwd (directory p)) t₁) :
    t₁.ensureDirectory p = .ok (t₁.put (place t.cwd p) .directory) := by
  obtain ⟨ms, hhead, hplace, hnil⟩ := ht.direct_of_missing hd hne hmissing
  have hnone : t.node? (place t.cwd p) = none := by
    cases hn : t.node? (place t.cwd p) with
    | none => rfl
    | some n =>
      have hparent := ht.parent _ n hn
      rw [← hplace] at hparent
      exact absurd ((ht.exists?_place_iff hhead).mpr ⟨_, hparent⟩) hmissing
  have hbelow : ¬ place t.cwd p <+: place t.cwd (directory p) := by
    intro hpre
    have hlen := hpre.length_le
    have hpos := List.length_pos_iff.mpr hnil
    rw [hplace, List.length_dropLast] at hlen
    omega
  have hmake : t₁.makeDirectory p = .ok (t₁.put (place t.cwd p) .directory) := by
    refine ((hmade.proper ht).makeDirectory_ok_iff hd).mpr ?_
    rw [hmade.cwd]
    refine ⟨(hmade.other _ hbelow).trans hnone, ?_, rfl⟩
    rw [← hplace]
    exact hmade.above _ List.prefix_rfl
  unfold FileTree.ensureDirectory
  rw [hmake]

/-- Without interruption directories are made as in one go: if that fails none has been made. -/
theorem perform_makeDirectoriesWithin (ht : t.Proper) (depth : Nat) {p lead : String} {k : Nat}
    {ns : Place} (hd : Direct p lead k ns) :
    perform (Work.makeDirectoriesWithin depth p) t =
      settle t (t.makeDirectoriesWithin depth p) := by
  induction depth generalizing p ns t with
  | zero => exact perform_ensureDirectory p t
  | succ depth ih =>
    unfold Work.makeDirectoriesWithin FileTree.makeDirectoriesWithin
    rw [perform_bind, perform_tree]
    dsimp only
    split_ifs with hthere
    · rw [perform_bind, perform_pause]
      exact perform_ensureDirectory p t
    obtain ⟨hne, hmissing⟩ := not_or.mp hthere
    obtain ⟨ms, hhead, -⟩ := ht.direct_of_missing hd hne hmissing
    rw [perform_bind, perform_pause]
    dsimp only
    rw [perform_bind, ih ht hhead]
    cases hm : t.makeDirectoriesWithin depth (directory p) with
    | error kind => rfl
    | ok t₁ =>
      have hmade := ht.makeDirectoriesWithin_ok hhead hm
      change perform (pause >>= fun _ => Work.ensureDirectory p) t₁ =
        settle t (t₁.ensureDirectory p)
      rw [perform_bind, perform_pause]
      dsimp only
      rw [perform_ensureDirectory, ensureDirectory_of_missing ht hd hne hmissing hmade]
      rfl

end Work

theorem copyFile_eq (t : FileTree) (source target : String) :
    t.copyFile source target =
      if sameFile t source target then .error .sameFile
      else t.content source >>= t.write target := by
  unfold copyFile sameFile
  rcases t.stat source with e | ⟨p, n⟩
  · rfl
  · rcases t.stat target with e | ⟨q, m⟩
    · rfl
    · by_cases hpq : p = q
      · simp [hpq, throw, throwThe, MonadExceptOf.throw, bind, Except.bind]
      · simp [hpq, bind, Except.bind]

theorem perform_copy (w : Transfer) (t : FileTree) :
    perform w.copy t = settle t (t.copyFile w.earlier w.target) := by
  unfold Transfer.copy
  rw [copyFile_eq, perform_bind, perform_tree]
  dsimp only
  split_ifs
  · rfl
  · rw [perform_bind, perform_pause]
    dsimp only
    rw [perform_bind, perform_tree]
    dsimp only
    cases t.content w.earlier with
    | error kind => rfl
    | ok c => rfl

theorem perform_carry (w : Transfer) (ht : t.Proper) :
    perform w.carry t = match copyOver t w.earlier w.target with
      | .ok t' => (.ok (), t')
      | .error kind => (.error kind, afterAttempt t w.target) := by
  have hmake : perform (makeDirectoriesWithin (directory w.target).length (directory w.target)) t =
      settle t (t.makeDirectories (directory w.target)) := by
    unfold makeDirectories
    by_cases hne : directory w.target = ""
    · rw [hne]
      exact perform_ensureDirectory "" t
    · obtain ⟨lead, k, ns, hhead, -⟩ := w.direct_directory hne t.cwd
      exact perform_makeDirectoriesWithin ht _ hhead
  unfold Transfer.carry copyOver afterAttempt
  rw [perform_bind, hmake]
  cases t.makeDirectories (directory w.target) with
  | error kind => rfl
  | ok made =>
    change perform (pause >>= fun _ => w.copy) made = _
    rw [perform_bind, perform_pause]
    dsimp only
    rw [perform_copy]
    change settle made (made.copyFile w.earlier w.target) =
      match made.copyFile w.earlier w.target with
      | Except.ok t' => (Except.ok (), t')
      | Except.error kind => (Except.error kind, made)
    cases made.copyFile w.earlier w.target with
    | ok t' => rfl
    | error kind => rfl

theorem run_deliver (w : Transfer) (t : FileTree) :
    Flow.run w.deliver t = (.ofResult (perform w.carry t).1, (perform w.carry t).2) := by
  unfold Transfer.deliver perform
  rw [Flow.run_bind, Flow.run_pure]

theorem run_prepare_eq (w : Transfer) (t : FileTree) :
    Flow.run w.prepare t = if t.isFile w.earlier then
      if w.target = w.earlier then (.ready, t)
      else (.ofResult (perform w.carry t).1, (perform w.carry t).2)
    else (.missing, t) := by
  have hdeliver := run_deliver w t
  unfold Flow.run at hdeliver ⊢
  rw [prepare_apply]
  split_ifs
  · rfl
  · rw [Outcome.run]
    exact hdeliver
  · rfl

theorem run_prepare (w : Transfer) {p : Progress} (ht : p.tree.Proper) :
    prepareArtifact w.earlier w.target p = ((Flow.run w.prepare p.tree).1.isReady,
      ⟨(Flow.run w.prepare p.tree).2,
        p.log ++ (Flow.run w.prepare p.tree).1.report w.earlier⟩) := by
  unfold prepareArtifact
  rw [run_prepare_eq, perform_carry w ht]
  by_cases hfile : p.tree.isFile w.earlier = true
  · simp only [hfile, if_true]
    by_cases hsame : w.target = w.earlier
    · simp [hsame, Fate.isReady, Fate.report]
    · simp only [hsame, if_false]
      cases copyOver p.tree w.earlier w.target with
      | ok t' => simp [Fate.ofResult, Fate.isReady, Fate.report]
      | error kind => simp [Fate.ofResult, Fate.isReady, Fate.report]
  · simp [hfile, Fate.isReady, Fate.report]

end Alone

end TemplateHost.Reuse
