import Mathlib.Algebra.GroupWithZero.Nat
import Mathlib.Data.List.Nodup
import Mathlib.Data.List.Perm.Subperm
import TemplateHost.Files.Discovery
import TemplateHost.Proofs.Files.Tree
import TemplateHost.Proofs.Options.Artifact

/-!
# What a search finds

A search takes directories from a stack. It finds what a recursive search of the directory finds, in
the same order: the entries with the extension that lie below directories without a dot in their
names, each of them once, by the path that leads there from where the search began.
-/
namespace TemplateHost

namespace Path
open Text
variable {b p : String} {ns ms : List String}

theorem steps_under (hb : b ≠ "") (hp : isAbsolute p = false) :
    ∃ ss, steps (under b p) = ss ++ steps p ∧ (steps b = ss ∨ steps b = ss ++ [""]) := by
  unfold under
  rw [if_neg (by simp [hp])]
  by_cases hslash : endsInSlash b = true
  · rw [if_pos (Or.inr hslash)]
    obtain ⟨r, hr⟩ := List.getLast?_eq_some_iff.mp (of_decide_eq_true hslash)
    have heq : b = String.ofList r ++ "/" := by
      rw [← String.toList_inj, hr]
      simp
    have hsteps := steps_append_slash (String.ofList r) ""
    rw [String.append_empty] at hsteps
    refine ⟨steps (String.ofList r), ?_, Or.inr ?_⟩
    · rw [heq, steps_append_slash]
    · rw [heq, hsteps]
      rfl
  · rw [if_neg (by simp [hb, hslash])]
    exact ⟨steps b, steps_append_slash b p, Or.inl rfl⟩

theorem isAbsolute_under_relative (hb : b ≠ "") (hp : isAbsolute p = false) :
    isAbsolute (under b p) = isAbsolute b := by
  unfold under
  rw [if_neg (by simp [hp])]
  split_ifs
  · exact isAbsolute_append hb p
  · rw [String.append_assoc, isAbsolute_append hb]

theorem place_under (cwd : Place) (b p : String) :
    place cwd (under b p) = place (place cwd b) p := by
  by_cases habs : isAbsolute p = true
  · unfold under place
    simp only [habs, if_true]
  · rw [Bool.not_eq_true] at habs
    by_cases hb : b = ""
    · subst b
      have hempty : place cwd "" = cwd := rfl
      have hunder : under "" p = p := by
        unfold under
        rw [if_neg (by simp [habs]), if_pos (Or.inl rfl), String.empty_append]
      rw [hempty, hunder]
    · have habsolute := isAbsolute_under_relative hb habs
      obtain ⟨ss, hsteps, hss⟩ := steps_under hb habs
      unfold place
      rw [habsolute, hsteps, List.foldl_append, if_neg (by simp [habs] : ¬isAbsolute p = true)]
      rcases hss with h | h
      · rw [h]
      · rw [h, List.foldl_append]
        rfl

theorem IsName.isAbsolute {n : String} (hn : IsName n) : isAbsolute n = false := by
  unfold Path.isAbsolute
  rw [decide_eq_false_iff_not]
  exact fun h => hn.no_slash (List.mem_of_mem_head? h)

theorem IsName.place {n : String} (hn : IsName n) (cwd : Place) : place cwd n = cwd ++ [n] := by
  unfold Path.place
  rw [hn.isAbsolute, steps_of_no_slash hn.no_slash]
  exact hn.walk cwd

theorem place_foldl_under (cwd : Place) (b : String) (hns : ∀ n ∈ ns, IsName n) :
    place cwd (ns.foldl under b) = place cwd b ++ ns := by
  induction ns using List.reverseRecOn with
  | nil => simp
  | append_singleton ns n ih =>
    rw [List.foldl_append, List.foldl_cons, List.foldl_nil, place_under,
      ih fun m hm => hns m (List.mem_append_left _ hm), (hns n (by simp)).place, List.append_assoc]

theorem Straight.filter_steps (hp : Straight p ns) : (steps p).filter (· ≠ "") = ns := by
  have hnames := hp.eq.2
  obtain ⟨lead, -, hd⟩ := hp
  obtain ⟨es, hsteps, hempty⟩ := hd.steps
  rw [hsteps, List.filter_append, List.filter_eq_nil_iff.mpr fun e he => by simp [hempty e he],
    List.replicate_zero, List.nil_append, List.nil_append]
  exact List.filter_eq_self.mpr fun n hn => by simpa using (hnames n hn).ne_empty

theorem filter_steps_absolute {cwd : String} (hcwd : isAbsolute cwd = true) (p : String) :
    (steps (absolute cwd p)).filter (· ≠ "") = place (place [] cwd) p := by
  rw [← place_under]
  exact (straight_normalize (isAbsolute_under hcwd p)).filter_steps

theorem dropCommon_append (as bs : List String) : dropCommon as (as ++ bs) = ([], bs) := by
  induction as with
  | nil => cases bs <;> rfl
  | cons a as ih => rw [List.cons_append, dropCommon, if_pos rfl, ih]

theorem join_ne_empty (hns : ∀ n ∈ ns, IsName n) (hne : ns ≠ []) : join "/" ns ≠ "" := by
  intro hempty
  have hlen := length_le_join hns
  rw [hempty, String.length_empty] at hlen
  exact hne (List.length_eq_zero_iff.mp (Nat.le_zero.mp hlen))

theorem relative_foldl_under {cwd : String} (hcwd : isAbsolute cwd = true)
    (hns : ∀ n ∈ ns, IsName n) (hne : ns ≠ []) :
    relative cwd (ns.foldl under b) b = join "/" ns := by
  unfold relative
  dsimp only
  rw [filter_steps_absolute hcwd, filter_steps_absolute hcwd, place_foldl_under _ _ hns,
    dropCommon_append, List.map_nil, List.nil_append]
  exact if_neg (join_ne_empty hns hne)

theorem join_inj (hns : ∀ n ∈ ns, IsName n) (hms : ∀ n ∈ ms, IsName n) (hn : ns ≠ [])
    (hm : ms ≠ []) (h : join "/" ns = join "/" ms) : ns = ms := by
  rw [← steps_join hn fun n hmem => (hns n hmem).no_slash, h,
    steps_join hm fun n hmem => (hms n hmem).no_slash]

end Path

namespace Access
variable {a : Access} {path : String}

/-- What lies at a path and below it may be looked at, and listed if it is a directory. -/
structure Grants (a : Access) (t : FileTree) (path : String) (p : Place) : Prop where
  look (ns : List String) (n : Node) : t.node? (p ++ ns) = some n →
    a.look (ns.foldl Path.under path) = none
  list (ns : List String) : t.node? (p ++ ns) = some .directory →
    a.list (ns.foldl Path.under path) = none

theorem grants_full (t : FileTree) (path : String) (p : Place) : Grants .full t path p :=
  ⟨fun _ _ _ => rfl, fun _ _ => rfl⟩

theorem stat_of_look (hlook : a.look path = none) (t : FileTree) :
    a.stat t path = t.stat path := by
  unfold stat
  rw [hlook]

end Access

namespace FileTree
open TemplateHost.Path Text

/-- A tree that binds each of its places once, under names that can stand in a path. -/
structure Regular (t : FileTree) : Prop where
  proper : t.Proper
  nodup : t.nodes.keys.Nodup
  named (p : Place) (n : Node) : t.node? p = some n → ∀ a ∈ p, IsName a

/-- A search from a place comes to an entry through directories. -/
structure Hit (t : FileTree) (suffix : List Char) (p : Place) (ns : List String) (a : String) :
    Prop where
  dotless (n : String) : n ∈ ns → '.' ∉ n.toList
  suffix : hasSuffix suffix a = true
  bound : ∃ n, t.node? (p ++ ns ++ [a]) = some n

/-- The entries at a place with which a search goes on, last one first. -/
def onward (t : FileTree) (suffix : List Char) (p : Place) : List String :=
  ((t.list p).filter fun n => !hasSuffix suffix n && !n.toList.contains '.').reverse

/-- What a recursive search to some depth finds below a place, by the names that lead there. -/
def found (t : FileTree) (suffix : List Char) : Nat → Place → List (List String)
  | 0, _ => []
  | depth + 1, p =>
    match t.node? p with
    | some .directory =>
      ((t.list p).filter (hasSuffix suffix)).map (fun a => [a]) ++
        (t.onward suffix p).flatMap fun n => (t.found suffix depth (p ++ [n])).map (n :: ·)
    | _ => []

def breadth (t : FileTree) (p : Place) : Nat :=
  t.nodes.keys.countP fun q => p.isPrefixOf q && p ≠ q

variable {t : FileTree} {suffix : List Char} {path : String} {p : Place} {ns : List String}
  {a : String} {depth : Nat}

theorem mem_keys_iff (hp : p ≠ []) : p ∈ t.nodes.keys ↔ ∃ n, t.node? p = some n := by
  rw [← Table.contains_iff, Table.contains, Option.isSome_iff_exists, node?,
    if_neg (by simpa using hp)]

theorem Proper.regular (ht : t.Proper) (hnodup : t.nodes.keys.Nodup)
    (hnamed : ∀ p ∈ t.nodes.keys, ∀ a ∈ p, IsName a) : t.Regular := by
  refine ⟨ht, hnodup, fun p n hn a ha => ?_⟩
  exact hnamed p ((mem_keys_iff (List.ne_nil_of_mem ha)).mpr ⟨n, hn⟩) a ha

theorem childName?_eq_some_iff {c : Place} : childName? p c = some a ↔ c = p ++ [a] := by
  unfold childName?
  cases h : c.getLast? with
  | none =>
    rw [List.getLast?_eq_none_iff.mp h]
    simp
  | some b =>
    obtain ⟨r, rfl⟩ := List.getLast?_eq_some_iff.mp h
    simp [eq_comm]

theorem mem_list : a ∈ t.list p ↔ ∃ n, t.node? (p ++ [a]) = some n := by
  rw [list, sortNames, List.mem_mergeSort, List.mem_filterMap, ← mem_keys_iff (by simp)]
  simp [childName?_eq_some_iff]

theorem nodup_list (ht : t.nodes.keys.Nodup) (p : Place) : (t.list p).Nodup := by
  unfold list sortNames
  rw [(List.mergeSort_perm _ _).nodup_iff]
  refine ht.filterMap fun c c' a hc hc' => ?_
  rw [childName?_eq_some_iff.mp hc, childName?_eq_some_iff.mp hc']

theorem mem_onward (hdot : '.' ∈ suffix) {n : String} :
    n ∈ t.onward suffix p ↔ '.' ∉ n.toList ∧ ∃ m, t.node? (p ++ [n]) = some m := by
  rw [onward, List.mem_reverse, List.mem_filter, mem_list, and_comm]
  refine and_congr_left fun _ => ⟨fun h => by simpa using (Bool.and_eq_true_iff.mp h).2,
    fun h => ?_⟩
  -- A name with the suffix has the dot of the suffix in it.
  have hplain : hasSuffix suffix n = false := by
    rw [hasSuffix, ← Bool.not_eq_true, List.isSuffixOf_iff_suffix]
    exact fun hs => h (hs.subset hdot)
  simp [hplain, h]

theorem nodup_onward (ht : t.nodes.keys.Nodup) (suffix : List Char) (p : Place) :
    (t.onward suffix p).Nodup :=
  List.nodup_reverse.mpr ((nodup_list ht p).filter _)

theorem not_hasSuffix_of_mem_onward (ha : a ∈ t.onward suffix p) : hasSuffix suffix a = false := by
  have hplain := (List.mem_filter.mp (List.mem_reverse.mp ha)).2
  simpa using (Bool.and_eq_true_iff.mp hplain).1

theorem bound_of_mem_onward (ha : a ∈ t.onward suffix p) : ∃ n, t.node? (p ++ [a]) = some n :=
  mem_list.mp (List.mem_filter.mp (List.mem_reverse.mp ha)).1

section Found

theorem Proper.mem_found (ht : t.Proper) (hdot : '.' ∈ suffix) {r : List String} :
    r ∈ t.found suffix depth p ↔
      r.length ≤ depth ∧ ∃ ns a, r = ns ++ [a] ∧ t.Hit suffix p ns a := by
  induction depth generalizing p r with
  | zero =>
    refine iff_of_false (List.not_mem_nil) ?_
    rintro ⟨hlen, ns, a, rfl, -⟩
    simp at hlen
  | succ depth ih =>
    unfold found
    split
    · rw [List.mem_append, List.mem_map, List.mem_flatMap]
      constructor
      · rintro (⟨a, ha, rfl⟩ | ⟨n, hn, hr⟩)
        · obtain ⟨hmem, hsuffix⟩ := List.mem_filter.mp ha
          refine ⟨by simp, [], a, rfl, by simp, hsuffix, ?_⟩
          rw [List.append_nil]
          exact mem_list.mp hmem
        · obtain ⟨r, hfound, rfl⟩ := List.mem_map.mp hr
          obtain ⟨hlen, ns, a, rfl, hhit⟩ := ih.mp hfound
          have hdotless := ((mem_onward hdot).mp hn).1
          refine ⟨Nat.succ_le_succ hlen, n :: ns, a, rfl,
            List.forall_mem_cons.mpr ⟨hdotless, hhit.dotless⟩, hhit.suffix, ?_⟩
          simpa using hhit.bound
      · rintro ⟨hlen, ns, a, rfl, hhit⟩
        obtain ⟨m, hm⟩ := hhit.bound
        cases ns with
        | nil =>
          rw [List.append_nil] at hm
          exact Or.inl ⟨a, List.mem_filter.mpr ⟨mem_list.mpr ⟨m, hm⟩, hhit.suffix⟩, rfl⟩
        | cons n ns =>
          obtain ⟨hn, hns⟩ := List.forall_mem_cons.mp hhit.dotless
          have habove : t.node? (p ++ [n]) = some .directory := by
            refine ht.above ⟨ns ++ [a], by simp⟩ (fun h => ?_) hm
            simpa using congrArg List.length h
          refine Or.inr ⟨n, (mem_onward hdot).mpr ⟨hn, _, habove⟩,
            List.mem_map.mpr ⟨ns ++ [a], ?_, rfl⟩⟩
          exact ih.mpr ⟨Nat.le_of_succ_le_succ hlen, ns, a, rfl, hns, hhit.suffix, m,
            by simpa using hm⟩
    · rename_i hnot
      refine iff_of_false (List.not_mem_nil) ?_
      rintro ⟨-, ns, a, -, -, -, m, hm⟩
      refine hnot (ht.above ⟨ns ++ [a], by simp⟩ (fun h => ?_) hm)
      simpa using congrArg List.length h

theorem nodup_found (ht : t.nodes.keys.Nodup) : (t.found suffix depth p).Nodup := by
  induction depth generalizing p with
  | zero => exact List.nodup_nil
  | succ depth ih =>
    unfold found
    split
    · have hlist := nodup_list ht p
      refine List.nodup_append'.mpr ⟨?_, List.nodup_flatMap.mpr ⟨?_, ?_⟩, ?_⟩
      · exact (hlist.filter _).map fun a b h => List.singleton_inj.mp h
      · exact fun n _ => ih.map fun r r' h => (List.cons.inj h).2
      · refine List.Pairwise.imp ?_ (nodup_onward ht suffix p)
        refine fun {n m} hne => List.disjoint_left.mpr fun r hr hr' => ?_
        obtain ⟨r, -, rfl⟩ := List.mem_map.mp hr
        obtain ⟨r', -, heq⟩ := List.mem_map.mp hr'
        exact hne (List.cons.inj heq).1.symm
      · rw [List.disjoint_left]
        intro r hr hr'
        obtain ⟨a, ha, rfl⟩ := List.mem_map.mp hr
        obtain ⟨n, hn, hr⟩ := List.mem_flatMap.mp hr'
        obtain ⟨r, -, heq⟩ := List.mem_map.mp hr
        obtain ⟨rfl, -⟩ := List.cons.inj heq
        have hplain := not_hasSuffix_of_mem_onward hn
        rw [(List.mem_filter.mp ha).2] at hplain
        cases hplain
    · exact List.nodup_nil

end Found

section Stack

/-- Of the places below a place, each lies below one of its entries or is one. -/
theorem sum_breadth (ht : t.nodes.keys.Nodup) {names : List String} (hnames : names.Nodup)
    (hbound : ∀ n ∈ names, ∃ m, t.node? (p ++ [n]) = some m) :
    (names.map fun n => t.breadth (p ++ [n]) + 1).sum ≤ t.breadth p := by
  have hbelow (q : Place) : t.breadth q =
      (t.nodes.keys.filter fun k => q.isPrefixOf k && q ≠ k).length := List.countP_eq_length_filter
  have hmem {q k : Place} (hk : k ∈ t.nodes.keys.filter fun k => q.isPrefixOf k && q ≠ k) :
      q <+: k ∧ q ≠ k := by
    simpa using (List.mem_filter.mp hk).2
  have hinside {n : String} {k : Place} (hk : k ∈ (p ++ [n]) ::
      t.nodes.keys.filter fun k => (p ++ [n]).isPrefixOf k && p ++ [n] ≠ k) : p ++ [n] <+: k := by
    rcases List.mem_cons.mp hk with rfl | hk
    · exact List.prefix_rfl
    · exact (hmem hk).1
  have hsum : (names.map fun n => t.breadth (p ++ [n]) + 1).sum =
      (names.flatMap fun n => (p ++ [n]) ::
        t.nodes.keys.filter fun k => (p ++ [n]).isPrefixOf k && p ++ [n] ≠ k).length := by
    rw [List.length_flatMap]
    simp only [List.length_cons, hbelow]
  rw [hsum, hbelow]
  refine (List.Nodup.subperm (List.nodup_flatMap.mpr ⟨fun n _ => ?_, ?_⟩) ?_).length_le
  · exact List.nodup_cons.mpr ⟨fun h => (hmem h).2 rfl, ht.filter _⟩
  · refine hnames.imp fun {n m} hne => List.disjoint_left.mpr fun k hk hk' => hne ?_
    have heq := (List.prefix_of_prefix_length_le (hinside hk) (hinside hk') (by simp)).eq_of_length
      (by simp)
    simpa using heq
  · intro k hk
    obtain ⟨n, hn, hk⟩ := List.mem_flatMap.mp hk
    have hkey : k ∈ t.nodes.keys := by
      rcases List.mem_cons.mp hk with rfl | hk
      · exact (mem_keys_iff (by simp)).mpr (hbound n hn)
      · exact (List.mem_filter.mp hk).1
    have hpre := hinside hk
    refine List.mem_filter.mpr ⟨hkey, ?_⟩
    have hne : p ≠ k := by
      rintro rfl
      exact absurd hpre.length_le (by simp)
    simpa using And.intro ((List.prefix_append p [n]).trans hpre) hne

/-- What a stack leads to gets less when a directory on it gives way to its entries. -/
theorem sum_breadth_onward (ht : t.nodes.keys.Nodup) (suffix : List Char) (p : Place)
    (ns : List String) (rest : List (List String)) :
    (((t.onward suffix (p ++ ns)).map (fun n => ns ++ [n]) ++ rest).map fun ms =>
      t.breadth (p ++ ms) + 1).sum ≤
        t.breadth (p ++ ns) + (rest.map fun ms => t.breadth (p ++ ms) + 1).sum := by
  have hbelow := sum_breadth ht (nodup_onward ht suffix (p ++ ns)) fun n => bound_of_mem_onward
  simp only [List.append_assoc] at hbelow
  rw [List.map_append, List.sum_append, List.map_map]
  simp only [Function.comp_def]
  omega

theorem locate_under (hloc : t.locate path = .ok p) (hdir : t.node? p = some .directory)
    (ha : IsName a) : t.locate (under path a) = .ok (p ++ [a]) := by
  have hne : path ≠ "" := by
    rintro rfl
    cases hloc
  have habs := isAbsolute_under_relative hne ha.isAbsolute
  obtain ⟨ss, hsteps, hss⟩ := steps_under hne ha.isAbsolute
  unfold FileTree.locate at hloc ⊢
  rw [if_neg hne] at hloc
  have hnonempty : under path a ≠ "" := by
    intro hempty
    have hplace := place_under [] path a
    rw [hempty, ha.place] at hplace
    exact absurd hplace (by simp [Path.place, Path.steps, Text.splitAt, walk])
  have hstart : ss.foldlM t.step (if Path.isAbsolute path then [] else t.cwd) = .ok p := by
    rcases hss with h | h
    · rwa [h] at hloc
    · rw [h, List.foldlM_append] at hloc
      cases hq : ss.foldlM t.step (if Path.isAbsolute path then [] else t.cwd) with
      | error e =>
        rw [hq] at hloc
        cases hloc
      | ok q =>
        rw [hq] at hloc
        simp only [bind, Except.bind, List.foldlM_cons, List.foldlM_nil] at hloc
        cases hstep : t.step q "" with
        | error e =>
          rw [hstep] at hloc
          cases hloc
        | ok q' =>
          rw [hstep] at hloc
          obtain rfl := step_ok hstep
          rw [← Except.ok.inj hloc]
  rw [if_neg hnonempty, habs, hsteps, List.foldlM_append, hstart, steps_of_no_slash ha.no_slash]
  simp only [bind, Except.bind, List.foldlM_cons, List.foldlM_nil]
  rw [step_of_directory hdir, ha.walk]
  rfl

variable (ht : t.Regular) (hloc : t.locate path = .ok p)
include ht hloc

theorem Regular.stat_foldl_under {n : Node} (hn : t.node? (p ++ ns) = some n) :
    t.stat (ns.foldl under path) = .ok (p ++ ns, n) := by
  refine stat_ok_iff.mpr ⟨?_, hn⟩
  induction ns using List.reverseRecOn generalizing n with
  | nil => rwa [List.append_nil]
  | append_singleton ns a ih =>
    have habove : t.node? (p ++ ns) = some .directory := by
      refine ht.proper.above ⟨[a], by simp⟩ (fun h => ?_) hn
      simpa using congrArg List.length h
    rw [List.foldl_append, List.foldl_cons, List.foldl_nil, ← List.append_assoc]
    exact locate_under (ih habove) habove (ht.named _ n hn a (by simp))

/-- With enough fuel, what the stack leads to is what a recursive search finds. -/
theorem Regular.searchFrom_eq {a : Access} (hgrants : a.Grants t path p) (suffix : List Char)
    {fuel : Nat} {stack : List (List String)}
    (hstack : ∀ ns ∈ stack, ∃ n, t.node? (p ++ ns) = some n)
    (hfuel : (stack.map fun ns => t.breadth (p ++ ns) + 1).sum ≤ fuel) (hdepth : fuel ≤ depth) :
    t.searchFrom a suffix fuel (stack.map (·.foldl under path)) =
      .ok (stack.flatMap fun ns => (t.found suffix depth (p ++ ns)).map fun r =>
        (ns ++ r).foldl under path) := by
  induction fuel generalizing stack depth with
  | zero =>
    cases stack with
    | nil => rfl
    | cons ns rest => simp at hfuel
  | succ fuel ih =>
    cases stack with
    | nil => rfl
    | cons ns rest =>
      obtain ⟨⟨n, hn⟩, hrest⟩ := List.forall_mem_cons.mp hstack
      obtain ⟨depth, rfl⟩ := Nat.exists_eq_add_of_lt (Nat.lt_of_lt_of_le (Nat.succ_pos fuel) hdepth)
      rw [Nat.zero_add] at hdepth ⊢
      have hdepth' : fuel ≤ depth := Nat.le_of_succ_le_succ hdepth
      rw [List.map_cons, List.sum_cons] at hfuel
      have hstat := (Access.stat_of_look (hgrants.look ns n hn) t).trans
        (ht.stat_foldl_under hloc hn)
      rw [List.map_cons, List.flatMap_cons]
      unfold searchFrom
      rw [hstat]
      cases n with
      | file c =>
        have hnone : t.found suffix (depth + 1) (p ++ ns) = [] := by
          unfold found
          rw [hn]
        rw [hnone, List.map_nil, List.nil_append]
        exact ih hrest (by omega) (Nat.le_succ_of_le hdepth')
      | directory =>
        have hnext : ∀ ms ∈ (t.onward suffix (p ++ ns)).map (fun n => ns ++ [n]) ++ rest,
            ∃ n, t.node? (p ++ ms) = some n := by
          refine List.forall_mem_append.mpr ⟨List.forall_mem_map.mpr fun n hmem => ?_, hrest⟩
          rw [← List.append_assoc]
          exact bound_of_mem_onward hmem
        have hless := sum_breadth_onward ht.nodup suffix p ns rest
        have hstacked : ((t.onward suffix (p ++ ns)).map (fun n => ns ++ [n]) ++ rest).map
            (·.foldl under path) = (t.scan suffix (ns.foldl under path) (p ++ ns)).2 ++
              rest.map (·.foldl under path) := by
          simp [scan, onward, List.foldl_append]
        have hsame := Except.ok.inj ((ih hrest (by omega) hdepth').symm.trans
          (ih hrest (by omega) (Nat.le_succ_of_le hdepth')))
        dsimp only
        rw [hgrants.list ns hn]
        dsimp only
        rw [← hstacked, ih hnext (by omega) hdepth', List.flatMap_append, hsame]
        refine congrArg Except.ok ?_
        conv_rhs => rw [found, hn]
        simp only [scan, List.map_append, List.map_map, List.map_flatMap, List.flatMap_map,
          Function.comp_def, List.foldl_append, List.foldl_cons, List.foldl_nil, List.append_assoc]

/-- **The search is the recursive search.** What is found is named as seen from the directory. -/
theorem Regular.search_eq {a : Access} (hgrants : a.Grants t path p) {n : Node}
    (hn : t.node? p = some n) (extension : String) (hdepth : t.nodes.keys.length + 1 ≤ depth) :
    t.search a path extension =
      .ok ((t.found ('.' :: extension.toList) depth p).map (join "/")) := by
  have hcwd : Straight t.cwdPath t.cwd :=
    .of_eq (Or.inl rfl) rfl (ht.named _ _ ht.proper.cwd)
  have hlen : t.nodes.entries.length = t.nodes.keys.length := by simp [Table.keys]
  have hdepth' : t.nodes.entries.length + 1 ≤ depth := by
    rw [hlen]
    exact hdepth
  have hfuel : ([[]].map fun ns => t.breadth (p ++ ns) + 1).sum ≤ t.nodes.entries.length + 1 := by
    have hcount : t.breadth (p ++ []) ≤ t.nodes.keys.length := List.countP_le_length
    simp only [List.map_cons, List.map_nil, List.sum_cons, List.sum_nil]
    omega
  have hstart : ∀ ns ∈ ([[]] : List (List String)), ∃ n, t.node? (p ++ ns) = some n := by
    simpa using ⟨n, hn⟩
  have hsearch := ht.searchFrom_eq hloc hgrants ('.' :: extension.toList) hstart hfuel hdepth'
  have hstat := (Access.stat_of_look (hgrants.look [] n (by rwa [List.append_nil])) t).trans
    (stat_ok_iff.mpr ⟨hloc, hn⟩)
  simp only [List.map_cons, List.map_nil, List.foldl_nil, List.flatMap_cons, List.flatMap_nil,
    List.append_nil, List.nil_append] at hsearch
  unfold search
  rw [List.foldl_nil] at hstat
  rw [hstat]
  dsimp only
  rw [hsearch]
  change Except.ok (List.map _ (List.map _ _)) = _
  rw [List.map_map]
  refine congrArg Except.ok (List.map_congr_left fun r hr => ?_)
  obtain ⟨-, ns, a, rfl, hhit⟩ := (ht.proper.mem_found List.mem_cons_self).mp hr
  obtain ⟨m, hm⟩ := hhit.bound
  have hnames : ∀ b ∈ ns ++ [a], IsName b := by
    rw [List.append_assoc] at hm
    exact fun b hb => ht.named _ m hm b (List.mem_append_right p hb)
  rw [Function.comp_apply]
  exact relative_foldl_under hcwd.isAbsolute hnames (by simp)

/-- **What a search finds.** -/
theorem Regular.search_spec {a : Access} (hgrants : a.Grants t path p) {n : Node}
    (hn : t.node? p = some n) (extension : String) :
    ∃ files, t.search a path extension = .ok files ∧ files.Nodup ∧
      ∀ x, x ∈ files ↔ ∃ ns a, t.Hit ('.' :: extension.toList) p ns a ∧
        x = join "/" (ns ++ [a]) := by
  have hnames {ns : List String} {a : String} (h : t.Hit ('.' :: extension.toList) p ns a) :
      ∀ b ∈ ns ++ [a], IsName b := by
    obtain ⟨m, hm⟩ := h.bound
    rw [List.append_assoc] at hm
    exact fun b hb => ht.named _ m hm b (List.mem_append_right p hb)
  refine ⟨_, ht.search_eq hloc hgrants hn extension le_rfl, ?_, fun x => ?_⟩
  · refine (nodup_found ht.nodup).map_on fun r hr r' hr' heq => ?_
    obtain ⟨-, ns, a, rfl, hhit⟩ := (ht.proper.mem_found List.mem_cons_self).mp hr
    obtain ⟨-, ms, b, rfl, hhit'⟩ := (ht.proper.mem_found List.mem_cons_self).mp hr'
    exact join_inj (hnames hhit) (hnames hhit') (by simp) (by simp) heq
  · -- How deep the search has to go does not matter once it is deep enough.
    constructor
    · intro hx
      obtain ⟨r, hr, rfl⟩ := List.mem_map.mp hx
      obtain ⟨-, ns, a, rfl, hhit⟩ := (ht.proper.mem_found List.mem_cons_self).mp hr
      exact ⟨ns, a, hhit, rfl⟩
    · rintro ⟨ns, a, hhit, rfl⟩
      have hdeep := ht.search_eq hloc hgrants hn extension
        (Nat.le_add_right _ (ns ++ [a]).length)
      rw [ht.search_eq hloc hgrants hn extension le_rfl] at hdeep
      rw [Except.ok.inj hdeep]
      refine List.mem_map.mpr ⟨ns ++ [a], ?_, rfl⟩
      exact (ht.proper.mem_found List.mem_cons_self).mpr ⟨Nat.le_add_left _ _, ns, a, rfl, hhit⟩

theorem Regular.findFiles_eq {n : Node} (hn : t.node? p = some n) (extension : String)
    (hdepth : t.nodes.keys.length + 1 ≤ depth) :
    t.findFiles path extension =
      .ok ((t.found ('.' :: extension.toList) depth p).map (join "/")) :=
  ht.search_eq hloc (Access.grants_full t path p) hn extension hdepth

theorem Regular.findFiles_spec {n : Node} (hn : t.node? p = some n) (extension : String) :
    ∃ files, t.findFiles path extension = .ok files ∧ files.Nodup ∧
      ∀ x, x ∈ files ↔ ∃ ns a, t.Hit ('.' :: extension.toList) p ns a ∧
        x = join "/" (ns ++ [a]) :=
  ht.search_spec hloc (Access.grants_full t path p) hn extension

end Stack

end FileTree

end TemplateHost
