import Mathlib.Data.List.Sort
import Mathlib.Data.String.Basic
import TemplateHost.Proofs.Files.Discovery

/-!
# The order in which a search finds

A search of a directory lists what a listing by recursion on the tree does: the entries with the
extension in ascending order, then what lies below each directory without a dot in its name, the
last of these directories first. It fails only if there is nothing to search, or
if the system refuses access.
-/
namespace TemplateHost.FileTree
open TemplateHost.Path Text

def IsOwn (t : FileTree) (suffix : List Char) (p : Place) (a : String) : Prop :=
  hasSuffix suffix a = true ∧ ∃ n, t.node? (p ++ [a]) = some n

def IsFurther (t : FileTree) (p : Place) (n : String) : Prop :=
  '.' ∉ n.toList ∧ t.node? (p ++ [n]) = some .directory

/-- What there is to be found below a place, in order. -/
inductive Listing (t : FileTree) (suffix : List Char) : Place → List String → Prop where
  | intro {p : Place} {own further : List String} {below : String → List String}
    (ascending : own.SortedLT) (mem_own : ∀ a, a ∈ own ↔ t.IsOwn suffix p a)
    (descending : further.SortedGT) (mem_further : ∀ n, n ∈ further ↔ t.IsFurther p n)
    (listed : ∀ n ∈ further, Listing t suffix (p ++ [n]) (below n)) :
    Listing t suffix p (own ++ further.flatMap fun n => (below n).map (n ++ "/" ++ ·))

variable {t : FileTree} {suffix : List Char} {path : String} {p : Place} {l l' : List String}
  {depth : Nat}

theorem Listing.unique (h : t.Listing suffix p l) (h' : t.Listing suffix p l') : l = l' := by
  induction h generalizing l' with
  | intro ascending mem_own descending mem_further _ ih =>
    obtain ⟨ascending', mem_own', descending', mem_further', listed'⟩ := h'
    obtain rfl := ascending.eq_of_mem_iff ascending' fun a => (mem_own a).trans (mem_own' a).symm
    obtain rfl := descending.eq_of_mem_iff descending' fun n =>
      (mem_further n).trans (mem_further' n).symm
    refine congrArg _ (List.flatMap_congr fun n hn => ?_)
    rw [ih n hn (listed' n hn)]

section Sorted

theorem sortedLE_sortNames (names : List String) : (sortNames names).SortedLE := by
  have hle : (fun a b : String => !decide (b < a)) = fun a b => decide (a ≤ b) := by
    funext a b
    rw [← decide_not]
    exact decide_eq_decide.mpr not_lt
  unfold sortNames
  rw [hle]
  exact (List.pairwise_mergeSort' (· ≤ ·) names).sortedLE

theorem sortedLT_list (ht : t.nodes.keys.Nodup) (p : Place) : (t.list p).SortedLT :=
  (sortedLE_sortNames _).sortedLT_of_nodup (nodup_list ht p)

theorem list_of_perm {names : List String}
    (hperm : (t.nodes.keys.filterMap (childName? p)).Perm names) (hsorted : names.SortedLE) :
    t.list p = names :=
  ((List.mergeSort_perm _ _).trans hperm).eq_of_sortedLE (sortedLE_sortNames _) hsorted

theorem sortedGT_onward (ht : t.nodes.keys.Nodup) (suffix : List Char) (p : Place) :
    (t.onward suffix p).SortedGT :=
  (((sortedLT_list ht p).pairwise.filter _).sortedLT).reverse

end Sorted

section Found

def isOpen (t : FileTree) (p : Place) (n : String) : Bool :=
  (t.node? (p ++ [n])).any Node.isDirectory

theorem isOpen_iff {n : String} : t.isOpen p n = true ↔ t.node? (p ++ [n]) = some .directory := by
  refine ⟨directory_of_any, fun h => ?_⟩
  rw [isOpen, h]
  rfl

theorem found_eq_nil {n : String} (h : t.isOpen p n = false) :
    t.found suffix depth (p ++ [n]) = [] := by
  cases depth with
  | zero => rfl
  | succ depth =>
    unfold found
    split
    · rename_i hdir
      rw [isOpen_iff.mpr hdir] at h
      cases h
    · rfl

theorem flatMap_filter_of_nil {α β : Type} {f : α → List β} {keep : α → Bool} {l : List α}
    (h : ∀ a ∈ l, keep a = false → f a = []) : (l.filter keep).flatMap f = l.flatMap f := by
  induction l with
  | nil => rfl
  | cons a l ih =>
    obtain ⟨ha, hl⟩ := List.forall_mem_cons.mp h
    rw [List.flatMap_cons, ← ih hl]
    cases hkeep : keep a with
    | false => rw [List.filter_cons_of_neg (by simp [hkeep]), ha hkeep, List.nil_append]
    | true => rw [List.filter_cons_of_pos hkeep, List.flatMap_cons]

theorem found_of_list {names : List String} (further : List String)
    (hp : t.node? p = some .directory) (hlist : t.list p = names)
    (hfurther : (names.filter fun n => !hasSuffix suffix n && !n.toList.contains '.').reverse =
      further) :
    t.found suffix (depth + 1) p = (names.filter (hasSuffix suffix)).map (fun a => [a]) ++
      further.flatMap fun n => (t.found suffix depth (p ++ [n])).map (n :: ·) := by
  rw [found, hp]
  dsimp only
  rw [onward, hlist, hfurther]

/-- A search that goes as deep as the tree lists what there is. -/
theorem Proper.listing_found (ht : t.Proper) (hnodup : t.nodes.keys.Nodup) (hdot : '.' ∈ suffix)
    (hp : t.node? p = some .directory) (hdepth : t.breadth p < depth) :
    t.Listing suffix p ((t.found suffix depth p).map (join "/")) := by
  induction depth generalizing p with
  | zero => cases hdepth
  | succ depth ih =>
    have hbelow {n : String} {r : List String} (hr : r ∈ t.found suffix depth (p ++ [n])) :
        join "/" (n :: r) = n ++ "/" ++ join "/" r := by
      obtain ⟨-, ns, a, rfl, -⟩ := (ht.mem_found hdot).mp hr
      exact String.intercalate_cons_of_ne_nil (by simp)
    have heq : (t.found suffix (depth + 1) p).map (join "/") =
        (t.list p).filter (hasSuffix suffix) ++
          ((t.onward suffix p).filter (t.isOpen p)).flatMap fun n =>
            ((t.found suffix depth (p ++ [n])).map (join "/")).map (n ++ "/" ++ ·) := by
      rw [flatMap_filter_of_nil fun n _ h => by rw [found_eq_nil h, List.map_nil, List.map_nil],
        found, hp]
      dsimp only
      rw [List.map_append, List.map_map, List.map_flatMap]
      refine congrArg₂ _ ?_ (List.flatMap_congr fun n _ => ?_)
      · exact (List.map_congr_left fun a _ => rfl).trans (List.map_id _)
      · rw [List.map_map, List.map_map]
        exact List.map_congr_left fun r hr => hbelow hr
    rw [heq]
    refine .intro ((sortedLT_list hnodup p).pairwise.filter _).sortedLT (fun a => ?_)
      ((sortedGT_onward hnodup suffix p).pairwise.filter _).sortedGT (fun n => ?_) fun n hn => ?_
    · rw [List.mem_filter, mem_list, and_comm, IsOwn]
    · rw [List.mem_filter, mem_onward hdot, isOpen_iff, IsFurther]
      exact ⟨fun h => ⟨h.1.1, h.2⟩, fun h => ⟨⟨h.1, _, h.2⟩, h.2⟩⟩
    · have hdir := isOpen_iff.mp (List.mem_filter.mp hn).2
      have hsum := sum_breadth hnodup (List.nodup_singleton n) (by simpa using ⟨_, hdir⟩)
      rw [List.map_singleton, List.sum_singleton] at hsum
      exact ih hdir (by omega)

end Found

section Blocked

/-- Some steps from a place lead on from a file. -/
def Through (t : FileTree) (p : Place) (ss : List String) : Prop :=
  ∃ done s rest q c, ss = done ++ s :: rest ∧ done.foldlM t.step p = .ok q ∧
    t.node? q = some (.file c)

def Blocked (t : FileTree) (path : String) : Prop :=
  t.Through (if isAbsolute path then [] else t.cwd) (steps path)

theorem Through.foldlM_step {ss : List String} (h : t.Through p ss) :
    ss.foldlM t.step p = .error .notDirectory := by
  obtain ⟨done, s, rest, q, c, rfl, hq, hc⟩ := h
  have hstep : t.step q s = .error .notDirectory := by
    unfold step
    rw [hc]
  rw [List.foldlM_append, hq]
  simp only [bind, Except.bind, List.foldlM_cons, hstep]

theorem foldlM_step_error {ss : List String} {k : FileErrorKind}
    (h : ss.foldlM t.step p = .error k) : k = .notFound ∨ t.Through p ss := by
  induction ss generalizing p with
  | nil => cases h
  | cons s ss ih =>
    rw [List.foldlM_cons] at h
    cases hstep : t.step p s with
    | error k' =>
      rw [hstep] at h
      obtain rfl := Except.error.inj h
      unfold step at hstep
      split at hstep
      · exact Or.inl (Except.error.inj hstep).symm
      · rename_i c hc
        exact Or.inr ⟨[], s, ss, p, c, rfl, rfl, hc⟩
      · split_ifs at hstep
    | ok q =>
      rw [hstep] at h
      refine (ih h).imp_right ?_
      rintro ⟨done, s', rest, q', c, rfl, hq, hc⟩
      refine ⟨s :: done, s', rest, q', c, rfl, ?_, hc⟩
      rw [List.foldlM_cons, hstep]
      exact hq

theorem not_blocked_empty (ht : t.Proper) : ¬ t.Blocked "" := by
  rintro ⟨done, s, rest, q, c, heq, hq, hc⟩
  obtain ⟨rfl, -⟩ := List.append_eq_singleton_iff.mp heq.symm |>.resolve_right (by simp)
  obtain rfl : t.cwd = q := Except.ok.inj hq
  rw [ht.cwd] at hc
  cases hc

theorem Blocked.locate (ht : t.Proper) (h : t.Blocked path) :
    t.locate path = .error .notDirectory := by
  unfold FileTree.locate
  rw [if_neg]
  · exact Through.foldlM_step h
  · rintro rfl
    exact not_blocked_empty ht h

theorem locate_error {k : FileErrorKind} (h : t.locate path = .error k) :
    k = .notFound ∨ t.Blocked path := by
  unfold FileTree.locate at h
  by_cases hempty : path = ""
  · rw [if_pos hempty] at h
    exact Or.inl (Except.error.inj h).symm
  · rw [if_neg hempty] at h
    exact foldlM_step_error h

end Blocked

section Search

variable {a : Access}

theorem Regular.search_directory (ht : t.Regular) (hstat : t.stat path = .ok (p, .directory))
    (hgrants : a.Grants t path p) (extension : String) :
    ∃ files, t.search a path extension = .ok files ∧
      ∀ l, t.Listing ('.' :: extension.toList) p l ↔ l = files := by
  obtain ⟨hloc, hp⟩ := stat_ok_iff.mp hstat
  have hdepth : t.breadth p < t.nodes.keys.length + 1 := Nat.lt_succ_of_le List.countP_le_length
  have hlisting : t.Listing ('.' :: extension.toList) p _ :=
    ht.proper.listing_found ht.nodup List.mem_cons_self hp hdepth
  refine ⟨_, ht.search_eq hloc hgrants hp extension le_rfl,
    fun l => ⟨fun h => h.unique hlisting, ?_⟩⟩
  rintro rfl
  exact hlisting

theorem search_file {c : Content} (hstat : a.stat t path = .ok (p, .file c)) (extension : String) :
    t.search a path extension = .ok [] := by
  have hend (fuel : Nat) (suffix : List Char) : t.searchFrom a suffix fuel [] = .ok [] := by
    cases fuel <;> rfl
  unfold search
  rw [hstat]
  simp only [searchFrom, hstat, hend]
  rfl

theorem search_of_stat_error {kind : FileErrorKind} (hstat : a.stat t path = .error kind)
    (extension : String) : t.search a path extension = .error (unsearchable path kind) := by
  unfold search
  rw [hstat]

theorem unsearchable_of_not_hasNull (hnull : hasNull path = false) (kind : FileErrorKind) :
    unsearchable path kind = .file ⟨kind, some path⟩ := by
  unfold unsearchable
  rw [hnull]
  rfl

theorem Blocked.stat (ht : t.Proper) (h : t.Blocked path) :
    t.stat path = .error .notDirectory := by
  rw [FileTree.stat, h.locate ht]
  rfl

theorem stat_of_missing (h : t.exists? path = false) (hfree : ¬ t.Blocked path) :
    t.stat path = .error .notFound := by
  unfold FileTree.exists? at h
  unfold FileTree.stat at h ⊢
  cases hloc : t.locate path with
  | error k =>
    rw [(locate_error hloc).resolve_right hfree]
    rfl
  | ok q =>
    cases hq : t.node? q with
    | none =>
      simp only [bind, Except.bind, hq]
      rfl
    | some n =>
      simp [hloc, hq, bind, Except.bind, Except.isOk, pure, Except.pure, Except.toBool] at h

/-- Only a directory that may not be listed ends a search that has begun. -/
theorem searchFrom_error {suffix : List Char} {fuel : Nat} {stack : List (List String)}
    {e : FileError} (h : t.searchFrom a suffix fuel (stack.map (·.foldl under path)) = .error e) :
    ∃ (ns : List String) (q : Place) (kind : FileErrorKind),
      a.stat t (ns.foldl under path) = .ok (q, .directory) ∧
      a.list (ns.foldl under path) = some kind ∧ e = ⟨kind, some (ns.foldl under path)⟩ := by
  induction fuel generalizing stack e with
  | zero => cases h
  | succ fuel ih =>
    cases stack with
    | nil => cases h
    | cons ns rest =>
      rw [List.map_cons] at h
      unfold searchFrom at h
      split at h
      · next q hstat =>
        split at h
        · next kind hlist => exact ⟨ns, q, kind, hstat, hlist, (Except.error.inj h).symm⟩
        · have hstacked :
              (t.scan suffix (ns.foldl under path) q).2 ++ rest.map (·.foldl under path) =
              ((t.onward suffix q).map (fun n => ns ++ [n]) ++ rest).map (·.foldl under path) := by
            simp [scan, onward, List.foldl_append]
          dsimp only at h
          rw [hstacked] at h
          cases hrest : t.searchFrom a suffix fuel
              (((t.onward suffix q).map (fun n => ns ++ [n]) ++ rest).map (·.foldl under path)) with
          | ok found =>
            rw [hrest] at h
            cases h
          | error e' =>
            rw [hrest] at h
            cases h
            exact ih hrest
      · exact ih h

/-- A search fails at a root that cannot be looked at or is not there, or below it at a directory
that may not be listed. -/
theorem search_error {extension : String} {e : Problem}
    (h : t.search a path extension = .error e) :
    (∃ kind, a.stat t path = .error kind ∧ e = unsearchable path kind) ∨
    ∃ (ns : List String) (q : Place) (kind : FileErrorKind),
      a.stat t (ns.foldl under path) = .ok (q, .directory) ∧
      a.list (ns.foldl under path) = some kind ∧
      e = .file ⟨kind, some (ns.foldl under path)⟩ := by
  cases hstat : a.stat t path with
  | error kind =>
    rw [search_of_stat_error hstat] at h
    exact Or.inl ⟨kind, rfl, (Except.error.inj h).symm⟩
  | ok r =>
    unfold search at h
    rw [hstat] at h
    dsimp only at h
    cases hfound : t.searchFrom a ('.' :: extension.toList) (t.nodes.entries.length + 1) [path] with
    | ok found =>
      rw [hfound] at h
      cases h
    | error e' =>
      rw [hfound] at h
      have hsearch : t.searchFrom a ('.' :: extension.toList) (t.nodes.entries.length + 1)
          (([[]] : List (List String)).map (·.foldl under path)) = .error e' := hfound
      obtain ⟨ns, q, kind, hq, hlist, rfl⟩ := searchFrom_error hsearch
      exact Or.inr ⟨ns, q, kind, hq, hlist, (Except.error.inj h).symm⟩

/-- A tree with a hit that is a directory, a directory with a dot, and a file beside them. -/
def sampleWood : FileTree where
  nodes := ⟨[(["lib"], .directory), (["lib", "a.soy"], .directory), (["note"], .file []),
    (["x.soy"], .file []), (["views"], .directory), (["views", "b.soy"], .file []),
    (["views", "old.d"], .directory), (["views", "old.d", "c.soy"], .file [])]⟩
  cwd := []

theorem regular_sampleWood : sampleWood.Regular :=
  (proper_of_wellPlaced (by decide +kernel)).regular (by decide +kernel) (by decide +kernel)

def shut : Access := ⟨fun _ => none, fun path => if path = "/" then some .permission else none⟩

end Search

end TemplateHost.FileTree
