import TemplateHost.Host.Reuse
import TemplateHost.Proofs.Files.Place
import TemplateHost.Proofs.Table

/-!
# Trees and places

In a proper tree whatever is there lies in a directory. An operation on a path that goes up before
it goes down then depends only on what is at the place that the path leads to and above it.
-/
namespace TemplateHost.FileTree
open TemplateHost.Path

/-- Everything lies in a directory, and the working directory is there. -/
structure Proper (t : FileTree) : Prop where
  parent (p : Place) (n : Node) : t.node? p = some n → t.node? p.dropLast = some .directory
  cwd : t.node? t.cwd = some .directory

/-- Two trees in which the same nodes are at the same places. -/
structure Same (t t' : FileTree) : Prop where
  cwd : t'.cwd = t.cwd
  node? (p : Place) : t'.node? p = t.node? p

variable {t t' : FileTree}

@[simp] theorem node?_nil (t : FileTree) : t.node? [] = some .directory := rfl

theorem node?_put_self {p : Place} (hp : p ≠ []) (n : Node) :
    (t.put p n).node? p = some n := by
  simp [node?, put, hp]

theorem node?_put_ne {p q : Place} (hq : q ≠ p) (n : Node) :
    (t.put p n).node? q = t.node? q := by
  simp [node?, put, hq]

theorem stat_ok_iff {p : String} {q : Place} {n : Node} :
    t.stat p = .ok (q, n) ↔ t.locate p = .ok q ∧ t.node? q = some n := by
  unfold stat
  cases hl : t.locate p with
  | error e => simp [bind, Except.bind]
  | ok r =>
    cases hn : t.node? r with
    | none =>
      simp only [bind, Except.bind, hn, throw, throwThe, MonadExceptOf.throw, reduceCtorEq,
        Except.ok.injEq, false_iff]
      rintro ⟨rfl, h⟩
      exact absurd (hn.symm.trans h) nofun
    | some m =>
      simp only [bind, Except.bind, hn, pure, Except.pure, Except.ok.injEq, Prod.mk.injEq]
      exact and_congr_right fun hr => by rw [← hr, hn, Option.some.injEq]

theorem Same.locate (hs : Same t t') (p : String) : t'.locate p = t.locate p := by
  have hstep : t'.step = t.step := by
    funext q s
    unfold FileTree.step
    rw [hs.node?]
  unfold FileTree.locate
  rw [hstep, hs.cwd]

theorem Same.stat (hs : Same t t') (p : String) : t'.stat p = t.stat p := by
  unfold FileTree.stat
  rw [hs.locate p]
  simp only [hs.node?]

theorem Same.content (hs : Same t t') (p : String) : t'.content p = t.content p := by
  unfold FileTree.content
  rw [hs.stat p]

theorem Same.put (hs : Same t t') (p : Place) (n : Node) : Same (t.put p n) (t'.put p n) := by
  refine ⟨hs.cwd, fun q => ?_⟩
  by_cases hq : q = []
  · rw [hq, node?_nil, node?_nil]
  · by_cases hqp : q = p
    · rw [hqp, node?_put_self (hqp ▸ hq), node?_put_self (hqp ▸ hq)]
    · rw [node?_put_ne hqp, node?_put_ne hqp, hs.node?]

theorem Same.write (hs : Same t t') (p : String) (c : Content) :
    (∃ t₁ t₂, t.write p c = .ok t₁ ∧ t'.write p c = .ok t₂ ∧ Same t₁ t₂) ∨
    ∃ k, t.write p c = .error k ∧ t'.write p c = .error k := by
  unfold FileTree.write
  rw [hs.locate p]
  cases hl : t.locate p with
  | error k => exact Or.inr ⟨k, rfl, rfl⟩
  | ok q =>
    have hput := hs.put q (.file c)
    simp only [bind, Except.bind, hs.node?]
    cases t.node? q with
    | some n =>
      cases n with
      | directory => exact Or.inr ⟨_, rfl, rfl⟩
      | file d => exact Or.inl ⟨_, _, rfl, rfl, hput⟩
    | none =>
      by_cases hslash : endsInSlash p = true
      · exact Or.inr ⟨.isDirectory, by simp [hslash, throw, throwThe, MonadExceptOf.throw]⟩
      · simp only [hslash]
        cases t.node? q.dropLast with
        | none => exact Or.inr ⟨_, rfl, rfl⟩
        | some n =>
          cases n with
          | directory => exact Or.inl ⟨_, _, rfl, rfl, hput⟩
          | file d => exact Or.inr ⟨_, rfl, rfl⟩

theorem find_filter_key (f : Place → Bool) (p : Place) (es : List (Place × Node)) :
    Table.find p (es.filter fun e => f e.1) = if f p then Table.find p es else none := by
  induction es with
  | nil => simp [Table.find]
  | cons e r ih =>
    by_cases he : e.1 = p
    · cases hf : f p
      · simp [he, hf, ih]
      · simp [he, hf, Table.find]
    · cases hf : f e.1
      · simp [hf, ih, Table.find, he]
      · simp [hf, ih, Table.find, he]

theorem node?_removeAt (t : FileTree) (p : Place) {q : Place} (hq : q ≠ []) :
    (t.removeAt p).node? q = if p.isPrefixOf q then none else t.node? q := by
  have hfind := find_filter_key (fun e => !p.isPrefixOf e) q t.nodes.entries
  cases hp : p.isPrefixOf q
  · rw [hp] at hfind
    simpa [node?, removeAt, Table.get?, hq] using hfind
  · rw [hp] at hfind
    simpa [node?, removeAt, Table.get?, hq] using hfind

theorem Same.removeTree (hs : Same t t') (p : String) :
    (∃ t₁ t₂, t.removeTree p = .ok t₁ ∧ t'.removeTree p = .ok t₂ ∧ Same t₁ t₂) ∨
    ∃ k, t.removeTree p = .error k ∧ t'.removeTree p = .error k := by
  unfold FileTree.removeTree
  rw [hs.stat p]
  rcases t.stat p with k | ⟨q, _ | c⟩
  · exact Or.inr ⟨k, rfl, rfl⟩
  · refine Or.inl ⟨_, _, rfl, rfl, hs.cwd, fun r => ?_⟩
    by_cases hr : r = []
    · rw [hr, node?_nil, node?_nil]
    · rw [node?_removeAt t' q hr, node?_removeAt t q hr, hs.node?]
  · exact Or.inr ⟨_, rfl, rfl⟩

theorem Proper.above (ht : t.Proper) {p q : Place} (hq : q <+: p) (hne : q ≠ p) {n : Node}
    (hn : t.node? p = some n) : t.node? q = some .directory := by
  induction p using List.reverseRecOn generalizing n with
  | nil => exact absurd (List.prefix_nil.mp hq) hne
  | append_singleton p a ih =>
    have hparent := ht.parent _ n hn
    rw [List.dropLast_concat] at hparent
    rcases List.prefix_concat_iff.mp hq with rfl | hq
    · exact absurd rfl hne
    · by_cases hqp : q = p
      · rwa [hqp]
      · exact ih hq hqp hparent

theorem prefix_dropLast {p q : Place} (hq : q <+: p) (hne : q ≠ p) : q <+: p.dropLast := by
  induction p using List.reverseRecOn with
  | nil => exact absurd (List.prefix_nil.mp hq) hne
  | append_singleton p a _ =>
    rw [List.dropLast_concat]
    exact (List.prefix_concat_iff.mp hq).resolve_left hne

theorem Proper.above_child (ht : t.Proper) {p q : Place}
    (hp : t.node? p.dropLast = some .directory) (hq : q <+: p) (hne : q ≠ p) :
    t.node? q = some .directory := by
  by_cases hqp : q = p.dropLast
  · rwa [hqp]
  · exact ht.above (prefix_dropLast hq hne) hqp hp

def wellPlaced (t : FileTree) : Bool :=
  (t.nodes.entries.all fun e => (t.node? e.1.dropLast).any Node.isDirectory) &&
    (t.node? t.cwd).any Node.isDirectory

theorem directory_of_any {p : Place} (h : (t.node? p).any Node.isDirectory = true) :
    t.node? p = some .directory := by
  cases hn : t.node? p with
  | none =>
    rw [hn] at h
    cases h
  | some n =>
    cases n with
    | directory => rfl
    | file c =>
      rw [hn] at h
      cases h

theorem proper_of_wellPlaced (ht : t.wellPlaced = true) : t.Proper := by
  obtain ⟨hentries, hcwd⟩ := Bool.and_eq_true_iff.mp ht
  refine ⟨fun p n hn => ?_, directory_of_any hcwd⟩
  by_cases hp : p = []
  · subst p
    rfl
  · unfold node? at hn
    rw [if_neg (by simpa using hp)] at hn
    exact directory_of_any (List.all_eq_true.mp hentries _ (Table.mem_of_find hn))

theorem step_ok {p q : Place} {s : String} (h : t.step p s = .ok q) : q = walk p s := by
  unfold FileTree.step at h
  unfold walk
  split at h
  · cases h
  · cases h
  · split_ifs at h ⊢ <;> exact (Except.ok.inj h).symm

theorem step_of_directory {p : Place} (hp : t.node? p = some .directory) (s : String) :
    t.step p s = .ok (walk p s) := by
  unfold FileTree.step walk
  rw [hp]
  dsimp only
  split_ifs <;> rfl

theorem foldlM_step_ok {ss : List String} {p q : Place} (h : ss.foldlM t.step p = .ok q) :
    q = ss.foldl walk p := by
  induction ss generalizing p with
  | nil => exact (Except.ok.inj h).symm
  | cons s r ih =>
    rw [List.foldlM_cons] at h
    cases hs : t.step p s with
    | error e => simp [hs, bind, Except.bind] at h
    | ok m =>
      rw [hs] at h
      rw [List.foldl_cons, ← step_ok hs]
      exact ih h

theorem locate_ok {p : String} {q : Place} (h : t.locate p = .ok q) : q = place t.cwd p := by
  unfold locate at h
  split at h
  · cases h
  · exact foldlM_step_ok h

theorem foldlM_step_empty {p : Place} (hp : t.node? p = some .directory) {es : List String}
    (hes : ∀ e ∈ es, e = "") : es.foldlM t.step p = .ok p := by
  induction es with
  | nil => rfl
  | cons e r ih =>
    rw [List.foldlM_cons, step_of_directory hp, hes e List.mem_cons_self]
    exact ih fun d hd => hes d (List.mem_cons_of_mem _ hd)

theorem Proper.foldlM_step_climb (ht : t.Proper) {p : Place}
    (hp : t.node? p = some .directory) (k : Nat) :
    (List.replicate k "..").foldlM t.step p = .ok (p.take (p.length - k)) ∧
      t.node? (p.take (p.length - k)) = some .directory := by
  induction k generalizing p with
  | zero => simpa using ⟨rfl, hp⟩
  | succ k ih =>
    have hup : walk p ".." = p.dropLast := rfl
    have htake : p.dropLast.take (p.dropLast.length - k) = p.take (p.length - (k + 1)) := by
      rw [List.dropLast_eq_take, List.take_take, List.length_take]
      congr 1
      omega
    rw [List.replicate_succ, List.foldlM_cons, step_of_directory hp, hup, ← htake]
    exact ih (ht.parent p _ hp)

theorem foldlM_step_names {p ns : Place} (hns : ∀ n ∈ ns, IsName n)
    (hp : ∀ r, r <+: ns → r ≠ ns → t.node? (p ++ r) = some .directory) :
    ns.foldlM t.step p = .ok (p ++ ns) := by
  induction ns generalizing p with
  | nil => simp [pure, Except.pure]
  | cons n r ih =>
    have hdir : t.node? p = some .directory := by
      simpa using hp [] List.nil_prefix (List.cons_ne_nil n r).symm
    rw [List.foldlM_cons, step_of_directory hdir, (hns n List.mem_cons_self).walk]
    have hrest : ∀ q, q <+: r → q ≠ r → t.node? (p ++ [n] ++ q) = some .directory := by
      intro q hq hne
      have h := hp (n :: q) (List.cons_prefix_cons.mpr ⟨rfl, hq⟩) (by simpa using hne)
      rwa [List.append_cons] at h
    have hih := ih (fun m hm => hns m (List.mem_cons_of_mem _ hm)) hrest
    rw [List.append_assoc] at hih
    exact hih

/-- Where a direct path leads, it can be followed if everything above is a directory. -/
theorem Proper.locate (ht : t.Proper) {p lead : String} {k : Nat} {ns : Place}
    (hp : Direct p lead k ns)
    (habove : ∀ q, q <+: place t.cwd p → q ≠ place t.cwd p → t.node? q = some .directory) :
    t.locate p = .ok (place t.cwd p) := by
  obtain ⟨es, hes, hempty⟩ := hp.steps
  have hplace := hp.place t.cwd
  have hstart : t.node? (if isAbsolute p then [] else t.cwd) = some .directory := by
    split_ifs
    · rfl
    · exact ht.cwd
  obtain ⟨hclimb, -⟩ := ht.foldlM_step_climb hstart k
  have hbase : (if isAbsolute p then [] else t.cwd).take
      ((if isAbsolute p then [] else t.cwd).length - k) =
        if lead = "" then t.cwd.take (t.cwd.length - k) else [] := by
    by_cases hl : lead = "" <;> simp [hp.isAbsolute_iff, hl]
  unfold FileTree.locate
  rw [if_neg hp.ne_empty, hes, List.foldlM_append, foldlM_step_empty hstart hempty]
  change (List.replicate k ".." ++ ns).foldlM t.step _ = _
  rw [List.foldlM_append, hclimb, hbase]
  change ns.foldlM t.step _ = _
  rw [hplace] at habove ⊢
  refine foldlM_step_names hp.names fun r hr hne => habove _ ?_ ?_
  · exact (List.prefix_append_right_inj _).mpr hr
  · simpa using hne

theorem stat_ok {p : String} {q : Place} {n : Node} (h : t.stat p = .ok (q, n)) :
    q = place t.cwd p :=
  locate_ok (stat_ok_iff.mp h).1

theorem content_ok_iff {p : String} {c : Content} :
    t.content p = .ok c ↔ ∃ q, t.locate p = .ok q ∧ t.node? q = some (.file c) := by
  simp only [← stat_ok_iff]
  unfold content
  rcases t.stat p with e | ⟨q, _ | d⟩ <;>
    simp [bind, Except.bind, pure, Except.pure, throw, throwThe, MonadExceptOf.throw]

theorem isFile_iff {p : String} : t.isFile p = true ↔ ∃ c, t.content p = .ok c := by
  simp only [content_ok_iff, ← stat_ok_iff]
  unfold isFile
  rcases t.stat p with e | ⟨q, _ | c⟩ <;> simp

theorem isDirectory_iff {p : String} :
    t.isDirectory p = true ↔ ∃ q, t.locate p = .ok q ∧ t.node? q = some .directory := by
  simp only [← stat_ok_iff]
  unfold isDirectory
  rcases t.stat p with e | ⟨q, _ | c⟩ <;> simp

theorem exists?_iff {p : String} :
    t.exists? p = true ↔ ∃ q n, t.locate p = .ok q ∧ t.node? q = some n := by
  simp only [← stat_ok_iff]
  unfold exists?
  rcases t.stat p with e | ⟨q, n⟩ <;> simp [Except.isOk, Except.toBool]

theorem Proper.locate_of_node? (ht : t.Proper) {p lead : String} {k : Nat} {ns : Place}
    (hp : Direct p lead k ns) {n : Node} (hn : t.node? (place t.cwd p) = some n) :
    t.locate p = .ok (place t.cwd p) :=
  ht.locate hp fun _ hq hne => ht.above hq hne hn

/-- What a direct path is the path of. -/
theorem Proper.content_iff (ht : t.Proper) {p lead : String} {k : Nat} {ns : Place}
    (hp : Direct p lead k ns) {c : Content} :
    t.content p = .ok c ↔ t.node? (place t.cwd p) = some (.file c) := by
  rw [content_ok_iff]
  constructor
  · rintro ⟨q, hl, hn⟩
    rwa [← locate_ok hl]
  · intro hn
    exact ⟨_, ht.locate_of_node? hp hn, hn⟩

section Climbing
variable {p lead : String} {k : Nat} {ns : Place}

theorem Proper.exists?_place_iff (ht : t.Proper) (hp : Direct p lead k ns) :
    t.exists? p = true ↔ ∃ n, t.node? (place t.cwd p) = some n := by
  rw [exists?_iff]
  constructor
  · rintro ⟨q, n, hq, hn⟩
    exact ⟨n, locate_ok hq ▸ hn⟩
  · rintro ⟨n, hn⟩
    exact ⟨_, n, ht.locate_of_node? hp hn, hn⟩

theorem Proper.isDirectory_place_iff (ht : t.Proper) (hp : Direct p lead k ns) :
    t.isDirectory p = true ↔ t.node? (place t.cwd p) = some .directory := by
  rw [isDirectory_iff]
  constructor
  · rintro ⟨q, hq, hn⟩
    exact locate_ok hq ▸ hn
  · intro hn
    exact ⟨_, ht.locate_of_node? hp hn, hn⟩

theorem Proper.directory_of_climb (ht : t.Proper) (hp : Direct p lead k []) :
    t.node? (place t.cwd p) = some .directory := by
  rw [hp.place, List.append_nil]
  split_ifs
  · exact (ht.foldlM_step_climb ht.cwd k).2
  · rfl

/-- A tree stays proper when a place in a directory gets a directory, or a file that takes no
directory's place. -/
theorem Proper.put (ht : t.Proper) {q : Place} {n : Node} (hq : q ≠ [])
    (hparent : t.node? q.dropLast = some .directory)
    (hn : n = .directory ∨ t.node? q ≠ some .directory) : (t.put q n).Proper := by
  have hdir {r : Place} (hr : t.node? r = some .directory) :
      (t.put q n).node? r = some .directory := by
    by_cases hrq : r = q
    · subst r
      rw [node?_put_self hq, hn.resolve_right fun h => h hr]
    · rwa [node?_put_ne hrq]
  refine ⟨fun r m hm => hdir ?_, hdir ht.cwd⟩
  by_cases hrq : r = q
  · rwa [hrq]
  · rw [node?_put_ne hrq] at hm
    exact ht.parent r m hm

/-- A directory is made where nothing is, in a directory. -/
theorem Proper.makeDirectory_ok_iff (ht : t.Proper) (hp : Direct p lead k ns) :
    t.makeDirectory p = .ok t' ↔ t.node? (place t.cwd p) = none ∧
      t.node? (place t.cwd p).dropLast = some .directory ∧
      t' = t.put (place t.cwd p) .directory := by
  unfold FileTree.makeDirectory
  rw [hp.dropWhile]
  by_cases hnil : List.replicate k ".." ++ ns = []
  · obtain ⟨-, rfl⟩ := List.append_eq_nil_iff.mp hnil
    rw [if_pos hnil, ht.directory_of_climb hp]
    constructor
    · exact nofun
    · rintro ⟨⟨⟩, -⟩
  · rw [if_neg hnil]
    constructor
    · intro h
      cases hl : t.locate p with
      | error e => simp [hl, bind, Except.bind] at h
      | ok q =>
        rw [← locate_ok hl]
        cases hq : t.node? q with
        | some n => simp [hl, hq, bind, Except.bind, throw, throwThe, MonadExceptOf.throw] at h
        | none =>
          cases hd : t.node? q.dropLast with
          | none => simp [hl, hq, hd, bind, Except.bind, throw, throwThe, MonadExceptOf.throw] at h
          | some n =>
            cases n with
            | file c =>
              simp [hl, hq, hd, bind, Except.bind, throw, throwThe, MonadExceptOf.throw] at h
            | directory =>
              simp only [hl, hq, hd, bind, Except.bind, pure, Except.pure, Except.ok.injEq] at h
              exact ⟨rfl, rfl, h.symm⟩
    · rintro ⟨hnone, hparent, rfl⟩
      have hloc : t.locate p = .ok (place t.cwd p) := ht.locate hp fun _ => ht.above_child hparent
      simp [hloc, hnone, hparent, bind, Except.bind, pure, Except.pure]

end Climbing
/-- A place at which a file can be put. -/
structure Free (t : FileTree) (p : Place) : Prop where
  not_directory : t.node? p ≠ some .directory
  no_file_above (q : Place) (c : Content) : q <+: p → q ≠ p → t.node? q ≠ some (.file c)

theorem Proper.free_of_none (ht : t.Proper) {a : String} {p : Place} (ha : t.node? [a] = none)
    (hp : p.head? = some a) : t.Free p := by
  obtain ⟨p, rfl⟩ := List.head?_eq_some_iff.mp hp
  have hnone (q : Place) (hq : q <+: a :: p) (hne : q ≠ []) : t.node? q = none := by
    obtain ⟨b, r, rfl⟩ := List.exists_cons_of_ne_nil hne
    obtain ⟨rfl, -⟩ := List.cons_prefix_cons.mp hq
    cases hn : t.node? (b :: r) with
    | none => rfl
    | some n =>
      by_cases hr : r = []
      · rw [hr, ha] at hn
        cases hn
      · have hdir := ht.above (q := [b]) (List.cons_prefix_cons.mpr ⟨rfl, List.nil_prefix⟩)
          (by simpa using Ne.symm hr) hn
        rw [ha] at hdir
        cases hdir
  constructor
  · rw [hnone _ List.prefix_rfl (List.cons_ne_nil a p)]
    exact nofun
  · intro q c hq hne
    by_cases hnil : q = []
    · rw [hnil]
      exact nofun
    · rw [hnone q hq hnil]
      exact nofun

theorem Proper.locate_straight (ht : t.Proper) {p : String} {ns : Place} (hp : Straight p ns)
    (habove : ∀ q, q <+: ns → q ≠ ns → t.node? q = some .directory) :
    t.locate p = .ok ns := by
  obtain ⟨lead, hl, hd⟩ := hp
  have hplace : place t.cwd p = ns := Straight.place ⟨lead, hl, hd⟩ t.cwd
  have hloc := ht.locate hd (by rwa [hplace])
  rwa [hplace] at hloc

theorem Proper.stat_straight (ht : t.Proper) {p : String} {ns : Place} (hp : Straight p ns)
    {n : Node} (hn : t.node? ns = some n) : t.stat p = .ok (ns, n) :=
  stat_ok_iff.mpr ⟨ht.locate_straight hp fun _ hq hne => ht.above hq hne hn, hn⟩

theorem locate_of_straight (t : FileTree) {p : String} {ns : Place} (hp : Straight p ns) :
    t.locate p = ns.foldlM t.step [] := by
  have habs := hp.isAbsolute
  obtain ⟨lead, -, hd⟩ := hp
  obtain ⟨es, hes, hempty⟩ := hd.steps
  unfold FileTree.locate
  rw [if_neg hd.ne_empty, habs, hes, List.foldlM_append]
  have hstart := foldlM_step_empty (node?_nil t) hempty
  rw [if_pos rfl, hstart]
  rfl

theorem Proper.content_of_node? (ht : t.Proper) {p : String} {ns : Place} (hp : Straight p ns)
    {c : Content} (hn : t.node? ns = some (.file c)) : t.content p = .ok c := by
  have hplace := hp.place t.cwd
  obtain ⟨lead, -, hd⟩ := hp
  rw [ht.content_iff hd, hplace]
  exact hn

theorem content_of_straight (t : FileTree) {p q : String} {ns : Place} (hp : Straight p ns)
    (hq : Straight q ns) : t.content p = t.content q := by
  unfold FileTree.content stat
  rw [locate_of_straight t hp, locate_of_straight t hq]

/-- Directories that stay let paths lead where they led. -/
theorem locate_mono (hcwd : t'.cwd = t.cwd)
    (hdir : ∀ q, t.node? q = some .directory → t'.node? q = some .directory) {p : String}
    {q : Place} (hp : t.locate p = .ok q) : t'.locate p = .ok q := by
  have hfold (ss : List String) (at_ : Place) (h : ss.foldlM t.step at_ = .ok q) :
      ss.foldlM t'.step at_ = .ok q := by
    induction ss generalizing at_ with
    | nil => exact h
    | cons s r ih =>
      rw [List.foldlM_cons] at h ⊢
      cases hs : t.step at_ s with
      | error e => simp [hs, bind, Except.bind] at h
      | ok m =>
        have hat : t.node? at_ = some .directory := by
          unfold FileTree.step at hs
          split at hs
          · cases hs
          · cases hs
          · assumption
        rw [hs] at h
        rw [step_of_directory (hdir at_ hat), ← step_ok hs]
        exact ih m h
  unfold FileTree.locate at hp ⊢
  by_cases hempty : p = ""
  · rw [if_pos hempty] at hp
    cases hp
  · rw [if_neg hempty] at hp ⊢
    rw [hcwd]
    exact hfold _ _ hp

theorem content_mono (hcwd : t'.cwd = t.cwd)
    (hdir : ∀ q, t.node? q = some .directory → t'.node? q = some .directory) {p : String}
    {c : Content} (hfile : t.node? (place t.cwd p) = some (.file c) →
      t'.node? (place t.cwd p) = some (.file c))
    (hp : t.content p = .ok c) : t'.content p = .ok c := by
  obtain ⟨q, hq, hn⟩ := content_ok_iff.mp hp
  refine content_ok_iff.mpr ⟨q, locate_mono hcwd hdir hq, ?_⟩
  rw [locate_ok hq] at hn ⊢
  exact hfile hn

theorem write_ok {p : String} {c : Content} (h : t.write p c = .ok t') :
    ∃ q, t.locate p = .ok q ∧ t' = t.put q (.file c) ∧ t.node? q ≠ some .directory ∧
      (t.node? q = none → t.node? q.dropLast = some .directory) := by
  unfold FileTree.write at h
  cases hl : t.locate p with
  | error k => simp [hl, bind, Except.bind] at h
  | ok q =>
    simp only [hl, bind, Except.bind] at h
    cases hn : t.node? q with
    | some n =>
      cases n with
      | directory =>
        rw [hn] at h
        cases h
      | file d =>
        rw [hn] at h
        exact ⟨q, rfl, (Except.ok.inj h).symm, by rw [hn]; exact nofun, by rw [hn]; exact nofun⟩
    | none =>
      rw [hn] at h
      by_cases hslash : endsInSlash p = true
      · simp [hslash, throw, throwThe, MonadExceptOf.throw] at h
      · simp only [hslash] at h
        cases hd : t.node? q.dropLast with
        | none =>
          rw [hd] at h
          cases h
        | some n =>
          rw [hd] at h
          cases n with
          | directory =>
            exact ⟨q, rfl, (Except.ok.inj h).symm, by rw [hn]; exact nofun, fun _ => hd⟩
          | file d => cases h

theorem Proper.of_write (ht : t.Proper) {p : String} {c : Content} (h : t.write p c = .ok t') :
    t' = t.put (place t.cwd p) (.file c) ∧ t.node? (place t.cwd p) ≠ some .directory ∧
      t'.Proper := by
  obtain ⟨q, hq, rfl, hdir, hparent⟩ := write_ok h
  rw [← locate_ok hq]
  have hne : q ≠ [] := by
    rintro rfl
    exact hdir rfl
  refine ⟨rfl, hdir, ht.put hne ?_ (Or.inr hdir)⟩
  cases hn : t.node? q with
  | none => exact hparent hn
  | some n => exact ht.parent q n hn

/-- What can be read elsewhere after a file is written could be read before. -/
theorem content_of_write {p : String} {c : Content} (h : t.write p c = .ok t') {path : String}
    (hne : place t.cwd path ≠ place t.cwd p) {d : Content} (hd : t'.content path = .ok d) :
    t.content path = .ok d := by
  obtain ⟨q, hq, rfl, -⟩ := write_ok h
  rw [← locate_ok hq] at hne
  have hcwd : t.cwd = (t.put q (.file c)).cwd := rfl
  refine content_mono hcwd (fun r hr => ?_) (fun hn => ?_) hd
  · by_cases hrq : r = q
    · subst r
      by_cases hnil : q = []
      · rw [hnil, node?_nil]
      · rw [node?_put_self hnil] at hr
        cases hr
    · rwa [node?_put_ne hrq] at hr
  · have hn' : (t.put q (.file c)).node? (place t.cwd path) = some (.file d) := hn
    rwa [node?_put_ne hne] at hn'

/-- A tree after the directories that lead to a place were made. -/
structure Made (t : FileTree) (ns : Place) (t' : FileTree) : Prop where
  free (q : Place) (c : Content) : q <+: ns → t.node? q ≠ some (.file c)
  cwd : t'.cwd = t.cwd
  above (q : Place) : q <+: ns → t'.node? q = some .directory
  other (q : Place) : ¬ q <+: ns → t'.node? q = t.node? q

theorem Made.directory {ns : Place} (hm : Made t ns t') {q : Place}
    (hq : t.node? q = some .directory) : t'.node? q = some .directory := by
  by_cases hpre : q <+: ns
  · exact hm.above q hpre
  · rwa [hm.other q hpre]

theorem Made.proper {ns : Place} (hm : Made t ns t') (ht : t.Proper) : t'.Proper := by
  refine ⟨fun q n hn => ?_, by rw [hm.cwd]; exact hm.directory ht.cwd⟩
  by_cases hpre : q <+: ns
  · exact hm.above _ ((List.dropLast_prefix q).trans hpre)
  · rw [hm.other q hpre] at hn
    exact hm.directory (ht.parent q n hn)

theorem Made.content {ns : Place} (hm : Made t ns t') {p : String} {c : Content}
    (hp : t.content p = .ok c) : t'.content p = .ok c := by
  refine content_mono hm.cwd (fun q => hm.directory) (fun hn => ?_) hp
  rw [hm.other _ fun hpre => hm.free _ c hpre hn]
  exact hn

section Directories
variable {p : String} {ns : Place} {a : String}

theorem Proper.locate_child (ht : t.Proper) (hp : Straight p (ns ++ [a]))
    (hns : t.node? ns = some .directory) : t.locate p = .ok (ns ++ [a]) :=
  ht.locate_straight hp fun _ => ht.above_child (by rwa [List.dropLast_concat])

theorem Proper.made_of_directory (ht : t.Proper) {q : Place}
    (hq : t.node? q = some .directory) : Made t q t := by
  have habove (r : Place) (hr : r <+: q) : t.node? r = some .directory := by
    by_cases hrq : r = q
    · rwa [hrq]
    · exact ht.above hr hrq hq
  exact ⟨fun r c hr => by simp [habove r hr], rfl, habove, fun _ _ => rfl⟩

theorem Proper.made_put (ht : t.Proper) {q : Place} (hq : t.node? q = none)
    (hparent : t.node? q.dropLast = some .directory) : Made t q (t.put q .directory) := by
  have hne : q ≠ [] := by
    rintro rfl
    cases hq
  refine ⟨fun r c hr => ?_, rfl, fun r hr => ?_, fun r hr => node?_put_ne ?_ _⟩
  · by_cases hrq : r = q
    · simp [hrq, hq]
    · simp [ht.above_child hparent hr hrq]
  · by_cases hrq : r = q
    · rw [hrq, node?_put_self hne]
    · rw [node?_put_ne hrq]
      exact ht.above_child hparent hr hrq
  · rintro rfl
    exact hr List.prefix_rfl

theorem Made.trans {q r : Place} {t₁ t₂ : FileTree} (h₁ : Made t q t₁) (h₂ : Made t₁ r t₂)
    (hqr : q <+: r) : Made t r t₂ := by
  refine ⟨fun s c hs => ?_, h₂.cwd.trans h₁.cwd, h₂.above, fun s hs => ?_⟩
  · by_cases hsq : s <+: q
    · exact h₁.free s c hsq
    · rw [← h₁.other s hsq]
      exact h₂.free s c hs
  · rw [h₂.other s hs, h₁.other s fun hsq => hs (hsq.trans hqr)]

theorem Proper.ensureDirectory_ok (ht : t.Proper) {lead : String} {k : Nat}
    (hp : Direct p lead k ns) (h : t.ensureDirectory p = .ok t') : Made t (place t.cwd p) t' := by
  unfold FileTree.ensureDirectory at h
  cases hm : t.makeDirectory p with
  | ok u =>
    rw [hm] at h
    obtain rfl : u = t' := Except.ok.inj h
    obtain ⟨hnone, hparent, rfl⟩ := (ht.makeDirectory_ok_iff hp).mp hm
    exact ht.made_put hnone hparent
  | error e =>
    rw [hm] at h
    dsimp only at h
    split_ifs at h with hdir
    rw [← Except.ok.inj h]
    exact ht.made_of_directory ((ht.isDirectory_place_iff hp).mp hdir)

theorem Proper.ensureDirectory (ht : t.Proper) (hp : Straight p (ns ++ [a]))
    (hns : t.node? ns = some .directory) (hfree : ∀ c, t.node? (ns ++ [a]) ≠ some (.file c)) :
    ∃ t', t.ensureDirectory p = .ok t' ∧ Made t (ns ++ [a]) t' := by
  have hplace := hp.place t.cwd
  obtain ⟨lead, -, hd⟩ := hp
  obtain ⟨t', hok⟩ : ∃ t', t.ensureDirectory p = .ok t' := by
    unfold FileTree.ensureDirectory
    cases hm : t.makeDirectory p with
    | ok u => exact ⟨u, rfl⟩
    | error e =>
      have hdir : t.node? (ns ++ [a]) = some .directory := by
        cases hn : t.node? (ns ++ [a]) with
        | none =>
          have hmade := (ht.makeDirectory_ok_iff hd).mpr
            ⟨hplace ▸ hn, by rwa [hplace, List.dropLast_concat], rfl⟩
          rw [hmade] at hm
          cases hm
        | some n =>
          cases n with
          | directory => rfl
          | file c => exact absurd hn (hfree c)
      exact ⟨t, if_pos ((ht.isDirectory_place_iff hd).mpr (hplace ▸ hdir))⟩
  exact ⟨t', hok, hplace ▸ ht.ensureDirectory_ok hd hok⟩

theorem Proper.ensureRoot (ht : t.Proper) (hp : Straight p []) :
    t.ensureDirectory p = .ok t := by
  have hloc : t.locate p = .ok [] := ht.locate_straight hp fun q hq hne =>
    absurd (List.prefix_nil.mp hq) hne
  have hdir : t.isDirectory p = true := isDirectory_iff.mpr ⟨[], hloc, rfl⟩
  have hstrip : String.ofList (p.toList.reverse.dropWhile (· = '/')).reverse = "" := by
    rcases hp.eq.1 with rfl | rfl <;> decide
  have hmake : t.makeDirectory p = .error .notFound := by
    unfold makeDirectory
    rw [hstrip]
    rfl
  unfold FileTree.ensureDirectory
  rw [hmake]
  exact if_pos hdir

theorem Proper.makeDirectoriesWithin {depth : Nat} (hdepth : ns.length ≤ depth) (ht : t.Proper)
    (hp : Straight p ns) (hfree : ∀ q c, q <+: ns → t.node? q ≠ some (.file c)) :
    ∃ t', makeDirectoriesWithin depth t p = .ok t' ∧ Made t ns t' := by
  induction ns using List.reverseRecOn generalizing depth p with
  | nil =>
    have hmade : Made t [] t :=
      ⟨hfree, rfl, fun q hq => by rw [List.prefix_nil.mp hq]; rfl, fun _ _ => rfl⟩
    refine ⟨t, ?_, hmade⟩
    cases depth with
    | zero => exact ht.ensureRoot hp
    | succ m =>
      have hhead : Straight (directory p) [] := by
        rcases hp.eq.1 with rfl | rfl
        · exact .of_eq (Or.inl rfl) (by decide) (by simp)
        · exact .of_eq (Or.inr rfl) (by decide) (by simp)
      have hloc : t.locate (directory p) = .ok [] := ht.locate_straight hhead fun q hq hne =>
        absurd (List.prefix_nil.mp hq) hne
      have hexists : t.exists? (directory p) = true := exists?_iff.mpr ⟨[], _, hloc, rfl⟩
      unfold FileTree.makeDirectoriesWithin
      dsimp only
      rw [if_pos (Or.inr hexists)]
      exact ht.ensureRoot hp
  | append_singleton ns a ih =>
    obtain ⟨m, rfl⟩ : ∃ m, depth = m + 1 := ⟨depth - 1, by simp at hdepth; omega⟩
    have hhead := hp.directory
    have hns (q : Place) (c : Content) (hq : q <+: ns) : t.node? q ≠ some (.file c) :=
      hfree q c (hq.trans (List.prefix_append ns [a]))
    have hne : directory p ≠ "" := by
      obtain ⟨lead, -, hd⟩ := hhead
      exact hd.ne_empty
    unfold FileTree.makeDirectoriesWithin
    dsimp only
    by_cases hexists : t.exists? (directory p) = true
    · obtain ⟨q, n, hq, hn⟩ := exists?_iff.mp hexists
      rw [locate_ok hq, hhead.place] at hn
      have hdir : t.node? ns = some .directory := by
        cases n with
        | directory => exact hn
        | file c => exact absurd hn (hns ns c List.prefix_rfl)
      rw [if_pos (Or.inr hexists)]
      exact ht.ensureDirectory hp hdir fun c => hfree _ c List.prefix_rfl
    · obtain ⟨t₁, ht₁, hm₁⟩ := ih (by simpa using hdepth) hhead hns
      have hlast : ¬ ns ++ [a] <+: ns := fun h => absurd h.length_le (by simp)
      obtain ⟨t₂, ht₂, hm₂⟩ := (hm₁.proper ht).ensureDirectory hp (hm₁.above ns List.prefix_rfl)
        fun c => by rw [hm₁.other _ hlast]; exact hfree _ c List.prefix_rfl
      rw [if_neg (by simp [hne, hexists]), ht₁]
      refine ⟨t₂, ht₂, hfree, hm₂.cwd.trans hm₁.cwd, hm₂.above, fun q hq => ?_⟩
      rw [hm₂.other q hq, hm₁.other q fun h => hq (h.trans (List.prefix_append ns [a]))]

theorem Proper.makeDirectories (ht : t.Proper) (hp : Straight p ns)
    (hfree : ∀ q c, q <+: ns → t.node? q ≠ some (.file c)) :
    ∃ t', t.makeDirectories p = .ok t' ∧ Made t ns t' :=
  ht.makeDirectoriesWithin hp.length_le hp hfree

/-- What is missing above a path has names, since who goes up finds directories. -/
theorem Proper.direct_of_missing (ht : t.Proper) {lead : String} {k : Nat}
    (hp : Direct p lead k ns) (hne : directory p ≠ "") (hmissing : ¬ t.exists? (directory p)) :
    ∃ ms, Direct (directory p) lead k ms ∧
      place t.cwd (directory p) = (place t.cwd p).dropLast ∧ place t.cwd p ≠ [] := by
  have hnames : ns ≠ [] := by
    rintro rfl
    obtain ⟨j, hup⟩ := hp.directory_climb hne
    exact hmissing ((ht.exists?_place_iff hup).mpr ⟨_, ht.directory_of_climb hup⟩)
  obtain ⟨ms, a, rfl⟩ : ∃ ms a, ns = ms ++ [a] :=
    ⟨_, _, (List.dropLast_concat_getLast hnames).symm⟩
  have hhead := hp.directory hne
  refine ⟨ms, hhead, ?_, ?_⟩
  · rw [hp.place, hhead.place, ← List.append_assoc, List.dropLast_concat]
  · rw [hp.place]
    simp

/-- Whether or not directories are missing, those that lead there are there in the end. -/
theorem Proper.makeDirectoriesWithin_ok {depth : Nat} (ht : t.Proper) {lead : String} {k : Nat}
    (hp : Direct p lead k ns) (h : t.makeDirectoriesWithin depth p = .ok t') :
    Made t (place t.cwd p) t' := by
  induction depth generalizing p ns t' with
  | zero => exact ht.ensureDirectory_ok hp h
  | succ depth ih =>
    unfold FileTree.makeDirectoriesWithin at h
    dsimp only at h
    split_ifs at h with hthere
    · exact ht.ensureDirectory_ok hp h
    · obtain ⟨hne, hmissing⟩ := not_or.mp hthere
      obtain ⟨ms, hhead, hplace, -⟩ := ht.direct_of_missing hp hne hmissing
      cases hm : t.makeDirectoriesWithin depth (directory p) with
      | error e =>
        rw [hm] at h
        cases h
      | ok t₁ =>
        rw [hm] at h
        have h₁ := ih hhead hm
        have h₂ := (h₁.proper ht).ensureDirectory_ok hp h
        rw [h₁.cwd] at h₂
        refine h₁.trans h₂ ?_
        rw [hplace]
        exact List.dropLast_prefix _

theorem Proper.write (ht : t.Proper) (hp : Straight p (ns ++ [a]))
    (hns : t.node? ns = some .directory) (hfree : t.node? (ns ++ [a]) ≠ some .directory)
    (c : Content) : t.write p c = .ok (t.put (ns ++ [a]) (.file c)) := by
  unfold FileTree.write
  rw [ht.locate_child hp hns]
  cases hn : t.node? (ns ++ [a]) with
  | none => simp [bind, Except.bind, hn, hp.endsInSlash, hns, pure, Except.pure]
  | some n =>
    cases n with
    | directory => exact absurd hn hfree
    | file d => simp [bind, Except.bind, hn, pure, Except.pure]

end Directories

/-- A tree after files were put at places, with the directories that lead there. -/
structure Placed (t : FileTree) (ws : List (Place × Content)) (t' : FileTree) : Prop where
  free (w : Place × Content) : w ∈ ws → t.Free w.1
  cwd : t'.cwd = t.cwd
  file (w : Place × Content) : w ∈ ws → t'.node? w.1 = some (.file w.2)
  above (w : Place × Content) (q : Place) : w ∈ ws → q <+: w.1 → q ≠ w.1 →
    t'.node? q = some .directory
  other (q : Place) : (∀ w ∈ ws, ¬ q <+: w.1) → t'.node? q = t.node? q

theorem Placed.cases {ws : List (Place × Content)} (hp : Placed t ws t') (q : Place) :
    (∃ w ∈ ws, q = w.1 ∧ t'.node? q = some (.file w.2)) ∨
    (∃ w ∈ ws, q <+: w.1 ∧ q ≠ w.1 ∧ t'.node? q = some .directory) ∨
    (∀ w ∈ ws, ¬ q <+: w.1) ∧ t'.node? q = t.node? q := by
  by_cases hreg : ∃ w ∈ ws, q <+: w.1
  · obtain ⟨w, hw, hq⟩ := hreg
    by_cases hqw : q = w.1
    · exact Or.inl ⟨w, hw, hqw, by rw [hqw, hp.file w hw]⟩
    · exact Or.inr (Or.inl ⟨w, hw, hq, hqw, hp.above w q hw hq hqw⟩)
  · have hnone (w : Place × Content) (hw : w ∈ ws) (hq : q <+: w.1) : False := hreg ⟨w, hw, hq⟩
    exact Or.inr (Or.inr ⟨hnone, hp.other q hnone⟩)

section Placed
variable {p : String} {ns : Place} {a : String} {c : Content} {ws : List (Place × Content)}

theorem Made.placed {t₁ : FileTree} (hm : Made t ns t₁) (hfree : t.Free (ns ++ [a])) :
    Placed t [(ns ++ [a], c)] (t₁.put (ns ++ [a]) (.file c)) := by
  have hne : ns ++ [a] ≠ [] := by simp
  constructor
  · intro w hw
    rwa [List.mem_singleton.mp hw]
  · exact hm.cwd
  · intro w hw
    rw [List.mem_singleton.mp hw]
    exact node?_put_self hne _
  · intro w q hw hq hqw
    rw [List.mem_singleton.mp hw] at hq hqw
    rw [node?_put_ne hqw]
    exact hm.above q ((List.prefix_concat_iff.mp hq).resolve_left hqw)
  · intro q hq
    have hq' : ¬ q <+: ns ++ [a] := hq _ (List.mem_singleton_self _)
    have hqn : q ≠ ns ++ [a] := by
      rintro rfl
      exact hq' List.prefix_rfl
    rw [node?_put_ne hqn, hm.other q fun h => hq' (h.trans (List.prefix_append ns [a]))]

/-- Where a file can be put, the directories that lead there can be made, and then the file can be
written. -/
theorem Proper.makeDirectories_write (ht : t.Proper) (hp : Straight p (ns ++ [a]))
    (hfree : t.Free (ns ++ [a])) (c : Content) :
    ∃ t₁, t.makeDirectories (directory p) = .ok t₁ ∧ Made t ns t₁ ∧
      t₁.write p c = .ok (t₁.put (ns ++ [a]) (.file c)) := by
  have hlast : ¬ ns ++ [a] <+: ns := fun h => absurd h.length_le (by simp)
  obtain ⟨t₁, ht₁, hm⟩ := ht.makeDirectories hp.directory fun q d hq =>
    hfree.no_file_above q d (hq.trans (List.prefix_append ns [a])) fun h => hlast (h ▸ hq)
  exact ⟨t₁, ht₁, hm, (hm.proper ht).write hp (hm.above ns List.prefix_rfl)
    (by rw [hm.other _ hlast]; exact hfree.not_directory) c⟩

theorem Proper.writeNested (ht : t.Proper) (hp : Straight p (ns ++ [a]))
    (hfree : t.Free (ns ++ [a])) (c : Content) :
    ∃ t', t.writeNested p c = .ok t' ∧ Placed t [(ns ++ [a], c)] t' := by
  obtain ⟨t₁, ht₁, hm, hwrite⟩ := ht.makeDirectories_write hp hfree c
  have hne : directory p ≠ "" := by
    obtain ⟨lead, -, hd⟩ := hp.directory
    exact hd.ne_empty
  refine ⟨_, ?_, hm.placed hfree⟩
  unfold FileTree.writeNested
  simp [hne, ht₁, hwrite, bind, Except.bind]

theorem Proper.copyOver (ht : t.Proper) (hp : Straight p (ns ++ [a]))
    (hfree : t.Free (ns ++ [a])) {source : String} (hs : t.content source = .ok c)
    (hne : place t.cwd source ≠ ns ++ [a]) :
    ∃ t', Reuse.copyOver t source p = .ok t' ∧ Placed t [(ns ++ [a], c)] t' := by
  obtain ⟨t₁, ht₁, hm, hwrite⟩ := ht.makeDirectories_write hp hfree c
  have hcopy : t₁.copyFile source p = .ok (t₁.put (ns ++ [a]) (.file c)) := by
    unfold copyFile
    rw [hm.content hs]
    split
    · rename_i q n q' n' hq hq'
      rw [← hm.cwd, ← stat_ok hq, ← hp.place t₁.cwd, ← stat_ok hq'] at hne
      rw [if_neg hne]
      exact hwrite
    · exact hwrite
  refine ⟨_, ?_, hm.placed hfree⟩
  unfold Reuse.copyOver
  simp [ht₁, hcopy, bind, Except.bind]

theorem Placed.directory (hw : Placed t ws t') {q : Place} (hq : t.node? q = some .directory) :
    t'.node? q = some .directory := by
  rcases hw.cases q with ⟨w, hmem, rfl, -⟩ | ⟨w, -, -, -, hn⟩ | ⟨-, hn⟩
  · exact absurd hq (hw.free w hmem).not_directory
  · exact hn
  · rwa [hn]

theorem Placed.proper (hw : Placed t ws t') (ht : t.Proper) : t'.Proper := by
  refine ⟨fun q n hn => ?_, by rw [hw.cwd]; exact hw.directory ht.cwd⟩
  have habove (w : Place × Content) (hmem : w ∈ ws) (hpre : q <+: w.1) :
      t'.node? q.dropLast = some .directory := by
    by_cases hq : q = []
    · subst q
      rfl
    · refine hw.above w _ hmem ((List.dropLast_prefix q).trans hpre) fun h => ?_
      have hlen := hpre.length_le
      have hpos := List.length_pos_iff.mpr hq
      rw [← h, List.length_dropLast] at hlen
      omega
  rcases hw.cases q with ⟨w, hmem, rfl, -⟩ | ⟨w, hmem, hpre, -⟩ | ⟨-, heq⟩
  · exact habove w hmem List.prefix_rfl
  · exact habove w hmem hpre
  · exact hw.directory (ht.parent q n (heq ▸ hn))

theorem Placed.content (hw : Placed t ws t') {source : String} (hs : t.content source = .ok c)
    (hne : ∀ w ∈ ws, place t.cwd source ≠ w.1) : t'.content source = .ok c := by
  refine content_mono hw.cwd (fun q => hw.directory) (fun hn => ?_) hs
  rcases hw.cases (place t.cwd source) with ⟨w, hmem, heq, -⟩ | ⟨w, hmem, hq, hneq, -⟩ | ⟨-, heq⟩
  · exact absurd heq (hne w hmem)
  · exact absurd hn ((hw.free w hmem).no_file_above _ c hq hneq)
  · rw [heq, hn]

theorem placed_nil (t : FileTree) : Placed t [] t :=
  ⟨nofun, rfl, nofun, nofun, fun _ _ => rfl⟩

/-- What is put at places decides the tree. -/
theorem Placed.same {ws' : List (Place × Content)} {t₁ t₂ : FileTree} (h₁ : Placed t ws t₁)
    (h₂ : Placed t ws' t₂) (hws : ∀ w, w ∈ ws ↔ w ∈ ws') : Same t₁ t₂ := by
  refine ⟨h₂.cwd.trans h₁.cwd.symm, fun q => ?_⟩
  rcases h₁.cases q with ⟨w, hw, rfl, hn⟩ | ⟨w, hw, hq, hne, hn⟩ | ⟨hnone, hn⟩
  · rw [hn, h₂.file w ((hws w).mp hw)]
  · rw [hn, h₂.above w q ((hws w).mp hw) hq hne]
  · rw [hn, h₂.other q fun w hw => hnone w ((hws w).mpr hw)]

/-- Files put at places one after the other, where the same place always gets the same. -/
theorem Placed.trans {ws' : List (Place × Content)} {t₁ t₂ : FileTree} (h₁ : Placed t ws t₁)
    (h₂ : Placed t₁ ws' t₂) (hws : ∀ w ∈ ws, ∀ w' ∈ ws', w.1 = w'.1 → w = w') :
    Placed t (ws ++ ws') t₂ := by
  have hfree (w' : Place × Content) (hw' : w' ∈ ws') : t.Free w'.1 := by
    have hfree' := h₂.free w' hw'
    constructor
    · intro hdir
      rcases h₁.cases w'.1 with ⟨w, hw, heq, -⟩ | ⟨w, -, -, -, hn⟩ | ⟨-, hn⟩
      · exact (h₁.free w hw).not_directory (heq ▸ hdir)
      · exact hfree'.not_directory hn
      · exact hfree'.not_directory (hn.trans hdir)
    · intro q c hq hne hfile
      rcases h₁.cases q with ⟨w, -, -, hn⟩ | ⟨w, hw, hqw, hnew, -⟩ | ⟨-, hn⟩
      · exact hfree'.no_file_above q _ hq hne hn
      · exact (h₁.free w hw).no_file_above q c hqw hnew hfile
      · exact hfree'.no_file_above q c hq hne (hn.trans hfile)
  constructor
  · intro w hw
    rcases List.mem_append.mp hw with hw | hw
    · exact h₁.free w hw
    · exact hfree w hw
  · exact h₂.cwd.trans h₁.cwd
  · intro w hw
    rcases List.mem_append.mp hw with hw | hw
    · rcases h₂.cases w.1 with ⟨w', hw', heq, hn⟩ | ⟨w', hw', hq, hne, -⟩ | ⟨-, hn⟩
      · rw [hn, hws w hw w' hw' heq]
      · exact absurd (h₁.file w hw) ((h₂.free w' hw').no_file_above _ _ hq hne)
      · rw [hn, h₁.file w hw]
    · exact h₂.file w hw
  · intro w q hw hq hne
    rcases List.mem_append.mp hw with hw | hw
    · have hdir := h₁.above w q hw hq hne
      rcases h₂.cases q with ⟨w', hw', rfl, -⟩ | ⟨w', -, -, -, hn⟩ | ⟨-, hn⟩
      · exact absurd hdir (h₂.free w' hw').not_directory
      · exact hn
      · rw [hn, hdir]
    · exact h₂.above w q hw hq hne
  · intro q hq
    rw [h₂.other q fun w hw => hq w (List.mem_append_right _ hw),
      h₁.other q fun w hw => hq w (List.mem_append_left _ hw)]

theorem Placed.free_of_subset {ws' : List (Place × Content)} {t₁ t₂ : FileTree}
    (h₁ : Placed t ws t₁) (h₂ : Placed t ws' t₂) (hws : ∀ w ∈ ws', w ∈ ws)
    {w : Place × Content} (hw : w ∈ ws) : t₂.Free w.1 := by
  have hfree := h₁.free w hw
  constructor
  · intro hdir
    rcases h₂.cases w.1 with ⟨w', -, -, hn⟩ | ⟨w', hw', hq, hne, -⟩ | ⟨-, hn⟩
    · rw [hdir] at hn
      cases hn
    · have hfile := h₁.file w hw
      rw [h₁.above w' w.1 (hws w' hw') hq hne] at hfile
      cases hfile
    · exact hfree.not_directory (hn.symm.trans hdir)
  · intro q c hq hne hfile
    rcases h₂.cases q with ⟨w', hw', rfl, -⟩ | ⟨w', -, -, -, hn⟩ | ⟨-, hn⟩
    · have hdir := h₁.above w w'.1 hw hq hne
      rw [h₁.file w' (hws w' hw')] at hdir
      cases hdir
    · rw [hfile] at hn
      cases hn
    · exact hfree.no_file_above q c hq hne (hn.symm.trans hfile)

theorem Placed.rest {ws' : List (Place × Content)} {t₁ t₂ : FileTree} (h₁ : Placed t ws t₁)
    (h₂ : Placed t (ws ++ ws') t₂) : Placed t₁ ws' t₂ := by
  constructor
  · exact fun w hw => h₂.free_of_subset h₁ (fun w => List.mem_append_left ws')
      (List.mem_append_right ws hw)
  · exact h₂.cwd.trans h₁.cwd.symm
  · exact fun w hw => h₂.file w (List.mem_append_right ws hw)
  · exact fun w q hw => h₂.above w q (List.mem_append_right ws hw)
  · intro q hq
    rcases h₁.cases q with ⟨w, hw, rfl, hn⟩ | ⟨w, hw, hpre, hne, hn⟩ | ⟨hnone, hn⟩
    · rw [hn, h₂.file w (List.mem_append_left ws' hw)]
    · rw [hn, h₂.above w q (List.mem_append_left ws' hw) hpre hne]
    · rw [hn]
      refine h₂.other q fun w hw => ?_
      rcases List.mem_append.mp hw with hw | hw
      · exact hnone w hw
      · exact hq w hw

/-- Files can be put at places that are free and of which none is above another. -/
theorem Proper.exists_placed (ht : t.Proper)
    (hpath : ∀ w ∈ ws, ∃ p ns a, Straight p w.1 ∧ w.1 = ns ++ [a]) (hfree : ∀ w ∈ ws, t.Free w.1)
    (hapart : ∀ w ∈ ws, ∀ w' ∈ ws, w.1 <+: w'.1 → w = w') : ∃ t', Placed t ws t' := by
  induction ws using List.reverseRecOn with
  | nil => exact ⟨t, placed_nil t⟩
  | append_singleton ws w ih =>
    obtain ⟨t₁, h₁⟩ := ih (fun w hw => hpath w (List.mem_append_left _ hw))
      (fun w hw => hfree w (List.mem_append_left _ hw)) fun w hw w' hw' =>
        hapart w (List.mem_append_left _ hw) w' (List.mem_append_left _ hw')
    have hlast : w ∈ ws ++ [w] := List.mem_append_right ws (List.mem_singleton_self w)
    have hw := hfree w hlast
    have hfree₁ : t₁.Free w.1 := by
      constructor
      · intro hdir
        rcases h₁.cases w.1 with ⟨w', hw', heq, hn⟩ | ⟨w', hw', hpre, hne, -⟩ | ⟨-, hn⟩
        · rw [hdir] at hn
          cases hn
        · rw [hapart w hlast w' (List.mem_append_left _ hw') hpre] at hne
          exact hne rfl
        · exact hw.not_directory (hn.symm.trans hdir)
      · intro q c hq hne hfile
        rcases h₁.cases q with ⟨w', hw', rfl, -⟩ | ⟨w', hw', hpre, hneq, hn⟩ | ⟨-, hn⟩
        · rw [hapart w' (List.mem_append_left _ hw') w hlast hq] at hne
          exact hne rfl
        · rw [hfile] at hn
          cases hn
        · exact hw.no_file_above q c hq hne (hn.symm.trans hfile)
    obtain ⟨p, ns, a, hp, hns⟩ := hpath w hlast
    rw [hns] at hp hfree₁
    obtain ⟨t₂, -, h₂⟩ := (h₁.proper ht).writeNested hp hfree₁ w.2
    rw [← hns] at h₂
    refine ⟨t₂, h₁.trans h₂ fun v hv v' hv' heq => ?_⟩
    rw [List.mem_singleton.mp hv'] at heq ⊢
    exact hapart v (List.mem_append_left _ hv) w hlast (heq ▸ List.prefix_rfl)

theorem Placed.congr {ws' : List (Place × Content)} (hp : Placed t ws t')
    (hws : ∀ w, w ∈ ws ↔ w ∈ ws') : Placed t ws' t' :=
  ⟨fun w hw => hp.free w ((hws w).mpr hw), hp.cwd, fun w hw => hp.file w ((hws w).mpr hw),
    fun w q hw => hp.above w q ((hws w).mpr hw), fun q hq => hp.other q fun w hw =>
      hq w ((hws w).mp hw)⟩

end Placed

end TemplateHost.FileTree
