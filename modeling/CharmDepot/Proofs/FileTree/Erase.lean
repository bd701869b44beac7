/-
What taking something out of a tree leaves in place.

`eraseAll` takes away a path with everything below it. The entries at all other paths stay
(`entryAt?_eraseAll`), a directory loses the one name (`names_eraseAll`), and in a tree without links
every path that does not pass through what was taken away leads where it did
(`locate_eraseAll`). With links that need not be so: a link elsewhere may lead through the place that
is gone. What lookups need to know of two trees is therefore stated path by path (`SameAt`), and a
tree without links is the case where it follows.
-/
import CharmDepot.Proofs.FileTree.Walk

namespace CharmDepot.FileTree

variable {t t' : FileTree}

-- =============================================================== entries

theorem lookup_filter (keep : List String → Bool) (q : List String)
    (es : List (List String × Entry)) :
    (es.filter fun e => keep e.1).lookup q = if keep q then es.lookup q else none := by
  induction es with
  | nil => simp
  | cons first rest ih =>
    obtain ⟨p, x⟩ := first
    by_cases hq : q = p
    · subst hq
      by_cases hkeep : keep q = true
      · simp [hkeep]
      · simpa [hkeep] using ih
    · by_cases hkeep : keep p = true
      · simp [hkeep, lookup_cons_if, hq, ih]
      · simp [hkeep, lookup_cons_if, hq, ih]

theorem entryAt?_eraseAll {path q : List String} (h : ¬ path <+: q) :
    (t.eraseAll path).entryAt? q = t.entryAt? q := by
  unfold entryAt? eraseAll
  by_cases hq : q = []
  · simp [hq]
  · have hkeep : (!path.isPrefixOf q) = true := by
      rw [Bool.not_eq_true', ← Bool.not_eq_true, List.isPrefixOf_iff_prefix]
      exact h
    rw [if_neg hq, if_neg hq, lookup_filter (fun p => !path.isPrefixOf p), if_pos hkeep]

/-- A directory that loses an entry with all below it has the other names. -/
theorem names_eraseAll (t : FileTree) (dir : List String) (name : String) :
    (t.eraseAll (dir ++ [name])).names dir = (t.names dir).filter (· != name) := by
  have hrest : ((t.eraseAll (dir ++ [name])).entries.filterMap fun e => nameIn? dir e.1)
      = (t.entries.filterMap fun e => nameIn? dir e.1).filter (· != name) := by
    unfold eraseAll
    rw [List.filterMap_filter, List.filter_filterMap]
    refine List.filterMap_congr fun e _ => ?_
    cases hname : nameIn? dir e.1 with
    | none => simp
    | some other =>
      rw [nameIn?_eq_some_iff.1 hname, Option.filter_some]
      by_cases heq : name = other
      · simp [heq]
      · have hbegins : ¬ dir ++ [name] <+: dir ++ [other] := by
          simpa [List.prefix_append_right_inj] using heq
        rw [← List.isPrefixOf_iff_prefix, Bool.not_eq_true] at hbegins
        rw [hbegins]
        simp [Ne.symm heq]
  -- both lists are in order and have the same names
  refine List.Perm.eq_of_pairwise (fun a b _ _ => String.le_antisymm) (pairwise_names _ dir)
    ((pairwise_names t dir).filter _) ?_
  unfold names
  rw [hrest]
  exact (List.mergeSort_perm _ _).trans ((List.mergeSort_perm _ _).symm.filter _)

-- =============================================================== walking

/-- A tree without links. -/
def LinkFree (t : FileTree) : Prop :=
  ∀ q target, t.entryAt? q ≠ some (.link target)

theorem linkFree_of_forall (h : ∀ e ∈ t.entries, ∀ target, e.2 ≠ .link target) : t.LinkFree := by
  intro q target hentry
  unfold entryAt? at hentry
  split at hentry
  · cases hentry
  · obtain ⟨before, after, hsplit, -⟩ := List.lookup_eq_some_iff.1 hentry
    exact h (q, .link target) (by simp [hsplit]) target rfl

/-- A walk by names of entries in a tree without links does not see what it does not pass. -/
theorem walk_eraseAll (hfree : t.LinkFree) {path : List String} (fl : Bool) (links : Nat)
    {names : List String} (hnames : ∀ name ∈ names, IsEntryName name) {base : List String}
    (h : ¬ path <+: base ++ names) :
    (t.eraseAll path).walk fl links base names = t.walk fl links base names := by
  induction names generalizing base with
  | nil => rw [walk, walk]
  | cons name rest ih =>
    rw [List.forall_mem_cons] at hnames
    obtain ⟨hname, hrest⟩ := hnames
    have hnext : ¬ path <+: base ++ [name] ++ rest := by
      rw [List.append_assoc]
      exact h
    have hentry : (t.eraseAll path).entryAt? (base ++ [name]) = t.entryAt? (base ++ [name]) := by
      refine entryAt?_eraseAll fun hbegins => hnext ?_
      exact hbegins.trans (List.prefix_append _ _)
    have hskip : ¬ (name = "" || name = ".") = true := by
      simp [hname.ne_empty, hname.ne_here]
    by_cases hlong : maxNameBytes < name.utf8ByteSize
    · rw [walk, walk, if_neg hskip, if_neg hskip, if_neg hname.ne_above, if_neg hname.ne_above,
        if_pos hlong, if_pos hlong]
    · rw [walk_cons hskip hname.ne_above hlong hentry, walk_cons hskip hname.ne_above hlong rfl]
      cases hfound : t.entryAt? (base ++ [name]) with
      | none => rfl
      | some e =>
        cases e with
        | file content => rfl
        | dir => exact ih hrest hnext
        | link target => exact absurd hfound (hfree _ _)

theorem locate_eraseAll (hfree : t.LinkFree) {path : List String} (fl : Bool) {p : FilePath}
    (hnames : ∀ name ∈ p.names, IsEntryName name) (h : ¬ path <+: p.names) :
    (t.eraseAll path).locate fl p = t.locate fl p := by
  unfold locate
  rw [walk_eraseAll hfree fl maxLinks hnames (by simpa using h)]

/-- In a tree without links a path by names of entries leads to itself. -/
theorem eq_append_of_walk (hfree : t.LinkFree) {fl : Bool} {links : Nat} {names base q : List String}
    {e : Entry} (hnames : ∀ name ∈ names, IsEntryName name)
    (h : t.walk fl links base names = .ok (.found q e)) : q = base ++ names := by
  induction names generalizing base with
  | nil =>
    rw [walk] at h
    obtain ⟨rfl, -⟩ := Place.found.inj (Except.ok.inj h)
    exact (List.append_nil base).symm
  | cons name rest ih =>
    rw [List.forall_mem_cons] at hnames
    obtain ⟨hname, hrest⟩ := hnames
    have hskip : ¬ (name = "" || name = ".") = true := by
      simp [hname.ne_empty, hname.ne_here]
    by_cases hlong : maxNameBytes < name.utf8ByteSize
    · rw [walk, if_neg hskip, if_neg hname.ne_above, if_pos hlong] at h
      cases h
    · rw [walk_cons hskip hname.ne_above hlong rfl] at h
      cases hfound : t.entryAt? (base ++ [name]) with
      | none =>
        rw [hfound] at h
        dsimp only at h
        split at h <;> cases h
      | some found =>
        rw [hfound] at h
        cases found with
        | dir =>
          rw [ih hrest h, List.append_assoc]
          rfl
        | file content =>
          dsimp only at h
          split at h
          · rename_i hlast
            obtain ⟨rfl, -⟩ := Place.found.inj (Except.ok.inj h)
            rw [List.isEmpty_iff.1 hlast]
          · cases h
        | link target => exact absurd hfound (hfree _ _)

-- ============================================================== sameness

section Located

variable {p : FilePath} (h : t'.locate true p = t.locate true p)
include h

theorem find?_congr : t'.find? p = t.find? p := by
  unfold find?
  rw [h]

theorem isDirectory_congr : t'.isDirectory p = t.isDirectory p := by
  unfold isDirectory
  rw [find?_congr h]

theorem isFile_congr : t'.isFile p = t.isFile p := by
  unfold isFile
  rw [find?_congr h]

theorem probe_congr : t'.probe p = t.probe p := by
  unfold probe
  rw [h, find?_congr h]

theorem fileContent_congr : t'.fileContent p = t.fileContent p := by
  unfold fileContent
  rw [h]

end Located

/-- What is at a path, and under a name directly in it, is the same in two trees. -/
structure SameAt (t t' : FileTree) (p : FilePath) : Prop where
  itself : ∀ fl, t'.locate fl p = t.locate fl p
  inside : ∀ part, IsEntryName part → t'.locate true (p.child part) = t.locate true (p.child part)

theorem SameAt.isLink {p : FilePath} (h : SameAt t t' p) : t'.isLink p = t.isLink p := by
  unfold FileTree.isLink
  rw [h.itself]

end CharmDepot.FileTree
