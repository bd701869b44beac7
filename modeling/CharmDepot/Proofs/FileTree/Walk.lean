/-
Where paths lead, told by their last name.

A path into a directory leads where its last name leads from that directory (`walk_append`,
`locate_append`), so what is at `p.child name` is settled by the one entry of the tree that has this
name in the directory of `p` (`walk_name`). A path that leads anywhere has only directories on its
way, and those lead somewhere by themselves.

A tree that has all entries of another one leads every path that led to something to the same thing
(`walk_of_extends`). That is what keeps a directory in place while files come and go in it.

Where a path goes down through directories without a link can be computed (`descends`), and then it
leads to what has these names (`directory_of_descends`).
-/
import CharmDepot.FileTree.Walk
import CharmDepot.Proofs.Runs

namespace CharmDepot

open Text

-- ======================================================= usable paths

theorem utf8ByteSize_ofList_le {cs ds : List Char} (h : cs <+: ds) :
    (String.ofList cs).utf8ByteSize ≤ (String.ofList ds).utf8ByteSize := by
  obtain ⟨more, rfl⟩ := h
  rw [String.ofList_append, String.utf8ByteSize_append]
  exact Nat.le_add_right _ _

namespace FilePath

/-- A path that can lead somewhere: it has no null character, is not too long, and starts from
here. -/
structure Usable (p : FilePath) : Prop where
  noNull : (p.names.any fun name => name.toList.contains '\x00') = false
  size_le : p.toString.utf8ByteSize ≤ FileTree.maxPathBytes
  relative : p.slashes = 0

instance (p : FilePath) : Decidable p.Usable :=
  decidable_of_iff ((p.names.any fun name => name.toList.contains '\x00') = false
      ∧ p.toString.utf8ByteSize ≤ FileTree.maxPathBytes ∧ p.slashes = 0)
    ⟨fun ⟨hnull, hsize, hslashes⟩ => ⟨hnull, hsize, hslashes⟩,
    fun h => ⟨h.noNull, h.size_le, h.relative⟩⟩

/-- What a usable path passes through is usable as well. -/
theorem Usable.of_append {n : Nat} {names more : List String} (h : Usable ⟨n, names ++ more⟩) :
    Usable ⟨n, names⟩ where
  noNull := by
    have := h.noNull
    rw [List.any_append, Bool.or_eq_false_iff] at this
    exact this.1
  relative := h.relative
  size_le := by
    have hsize := h.size_le
    unfold toString at hsize ⊢
    split
    · decide
    · rename_i hempty
      rw [if_neg (by simp at hempty ⊢; grind)] at hsize
      refine Nat.le_trans (utf8ByteSize_ofList_le ?_) hsize
      rw [List.prefix_append_right_inj, List.map_append]
      exact joinPieces_append_prefix _ _ _

/-- Names without a null character bring none into a path. -/
theorem noNull_below {p : FilePath} {path : List String}
    (hp : (p.names.any fun name => name.toList.contains '\x00') = false)
    (hpath : ∀ name ∈ path, '\x00' ∉ name.toList) :
    ((p.below path).names.any fun name => name.toList.contains '\x00') = false := by
  show ((p.names ++ path).any fun name => name.toList.contains '\x00') = false
  rw [List.any_append, hp, Bool.false_or]
  simpa using hpath

end FilePath

namespace FileTree

variable {t t' : FileTree}

-- ======================================================== trees as maps

/-- Everything that a tree has, another one has as well. -/
def Extends (t t' : FileTree) : Prop :=
  ∀ q e, t.entryAt? q = some e → t'.entryAt? q = some e

theorem entryAt?_nil (t : FileTree) : t.entryAt? [] = some .dir := if_pos rfl

theorem ne_nil_of_entryAt? {q : List String} (h : t.entryAt? q = none) : q ≠ [] := by
  intro hq
  rw [hq, entryAt?_nil] at h
  cases h

/-- An entry at a place where nothing was takes nothing away. -/
theorem extends_put {q : List String} (h : t.entryAt? q = none) (e : Entry) :
    t.Extends (t.put q e) := by
  intro p e' hp
  rw [entryAt?_put t (ne_nil_of_entryAt? h)]
  by_cases hpq : p = q
  · rw [hpq, h] at hp
    cases hp
  · rw [if_neg hpq]
    exact hp

theorem putIn_putIn (q : List String) (e e' : Entry) (es : List (List String × Entry)) :
    putIn q e' (putIn q e es) = putIn q e' es := by
  induction es with
  | nil => simp [putIn]
  | cons first rest ih =>
    by_cases h : q = first.1
    · simp [putIn, h]
    · simp [putIn, h, ih]

/-- The entry that is put last is the one that stays. -/
theorem put_put (t : FileTree) (q : List String) (e e' : Entry) :
    (t.put q e).put q e' = t.put q e' :=
  congrArg FileTree.mk (putIn_putIn q e e' t.entries)

theorem filter_putIn_of_lookup {q : List String} {es : List (List String × Entry)}
    (h : es.lookup q = none) (e : Entry) :
    (putIn q e es).filter (fun e => e.1 != q) = es := by
  induction es with
  | nil => simp [putIn]
  | cons first rest ih =>
    obtain ⟨p, x⟩ := first
    rw [lookup_cons_if] at h
    by_cases hp : q = p
    · rw [if_pos hp] at h
      cases h
    · rw [if_neg hp] at h
      simp [putIn, hp, Ne.symm hp, ih h]

/-- A new entry that is taken away again leaves no trace. -/
theorem erase_put {q : List String} (h : t.entryAt? q = none) (e : Entry) :
    (t.put q e).erase q = t := by
  have hlookup : t.entries.lookup q = none := by
    rw [entryAt?, if_neg (ne_nil_of_entryAt? h)] at h
    exact h
  exact congrArg FileTree.mk (filter_putIn_of_lookup hlookup e)

/-- The names in a directory are in order. -/
theorem pairwise_names (t : FileTree) (dir : List String) : (t.names dir).Pairwise (· ≤ ·) := by
  unfold names
  have htrans (a b c : String) : decide (a ≤ b) → decide (b ≤ c) → decide (a ≤ c) := by
    simpa using String.le_trans
  have htotal (a b : String) : (decide (a ≤ b) || decide (b ≤ a)) = true := by
    simpa using String.le_total a b
  simpa using List.pairwise_mergeSort htrans htotal (t.entries.filterMap fun e => nameIn? dir e.1)

theorem nameIn?_eq_some_iff {dir path : List String} {name : String} :
    nameIn? dir path = some name ↔ path = dir ++ [name] := by
  unfold nameIn?
  constructor
  · intro h
    split at h
    · rename_i last hlast
      rw [Option.ite_none_right_eq_some] at h
      obtain ⟨rfl, hname⟩ := h
      rw [← Option.some.inj hname]
      exact (List.dropLast_append_getLast? _ hlast).symm
    · cases h
  · rintro rfl
    simp

/-- The names in a directory are those of its entries. -/
theorem mem_names_iff {dir : List String} {name : String} :
    name ∈ t.names dir ↔ ∃ e, t.entryAt? (dir ++ [name]) = some e := by
  have hentry : t.entryAt? (dir ++ [name]) = t.entries.lookup (dir ++ [name]) := by
    rw [entryAt?, if_neg (by simp)]
  unfold names
  rw [List.mem_mergeSort, List.mem_filterMap, hentry]
  constructor
  · intro h
    obtain ⟨e, he, hname⟩ := h
    rw [← Option.isSome_iff_exists, Option.isSome_iff_ne_none]
    intro hnone
    have := List.lookup_eq_none_iff.1 hnone e he
    rw [nameIn?_eq_some_iff.1 hname] at this
    simp at this
  · intro h
    obtain ⟨e, he⟩ := h
    obtain ⟨before, after, hsplit, -⟩ := List.lookup_eq_some_iff.1 he
    exact ⟨(dir ++ [name], e), by simp [hsplit], nameIn?_eq_some_iff.2 rfl⟩

-- ============================================================ walking

/-- How a walk goes on at a name of an entry, by what is there. -/
theorem walk_cons {fl : Bool} {links : Nat} {base rest : List String} {name : String}
    (hskip : ¬ (name = "" || name = ".")) (hup : ¬ name = "..")
    (hshort : ¬ maxNameBytes < name.utf8ByteSize) {found : Option Entry} :
    t.entryAt? (base ++ [name]) = found → walk t fl links base (name :: rest) = match found with
      | none => if rest.isEmpty then .ok (.free (base ++ [name])) else .error .absent
      | some .dir => walk t fl links (base ++ [name]) rest
      | some (.file content) =>
        if rest.isEmpty then .ok (.found (base ++ [name]) (.file content)) else .error .notDirectory
      | some (.link target) =>
        if rest.isEmpty && !fl then .ok (.found (base ++ [name]) (.link target))
        else if links = 0 then .error .tooManyLinks
        else if target.startsWith "/" then .error .absent
        else walk t fl (links - 1) base ((pieces '/' target.toList).map String.ofList ++ rest) := by
  intro hentry
  rw [walk, if_neg hskip, if_neg hup, if_neg hshort]
  cases found with
  | none => simp only [hentry]
  | some e => cases e <;> simp only [hentry]

/-- The walk over a path with more names goes through the directory that the path leads to, and ends
where the other names lead from there; no walk gets past anything else. -/
theorem walk_append (fl : Bool) {more : List String} (hmore : more ≠ []) (links : Nat)
    (base names : List String) :
    (∃ dir links', walk t true links base names = .ok (.found dir .dir)
        ∧ walk t fl links base (names ++ more) = walk t fl links' dir more)
      ∨ ((∀ dir, walk t true links base names ≠ .ok (.found dir .dir))
        ∧ ∃ o, walk t fl links base (names ++ more) = .error o) := by
  have hempty (rest : List String) : (rest ++ more).isEmpty = false := by
    simp [hmore]
  fun_induction walk t true links base names with
  | case1 links base => exact .inl ⟨base, links, rfl, rfl⟩
  | case2 links base name rest hskip ih =>
    rw [List.cons_append, walk, if_pos hskip]
    exact ih
  | case4 links base rest hbase hskip ih =>
    rw [List.cons_append, walk, if_neg hskip, if_pos rfl, if_neg hbase]
    exact ih
  | case8 links base name rest hskip hup hshort path hentry ih =>
    rw [List.cons_append, walk_cons hskip hup hshort hentry]
    exact ih
  | case14 links base name rest hskip hup hshort path target hentry hlast hlinks htop ih =>
    rw [List.cons_append, walk_cons hskip hup hshort hentry]
    simp only [hempty, Bool.false_and, Bool.false_eq_true, if_false, if_neg hlinks, if_neg htop]
    rw [← List.append_assoc]
    exact ih
  -- everywhere else the walk over the longer path stops at the same name
  | case3 links base rest hbase hskip =>
    refine .inr ⟨by simp, .absent, ?_⟩
    rw [List.cons_append, walk, if_neg hskip, if_pos rfl, if_pos hbase]
  | case5 links base name rest hskip hup hlong =>
    refine .inr ⟨by simp, .nameTooLong, ?_⟩
    rw [List.cons_append, walk, if_neg hskip, if_neg hup, if_pos hlong]
  | case6 links base name rest hskip hup hshort path hentry
  | case7 links base name rest hskip hup hshort path hentry =>
    refine .inr ⟨by simp, .absent, ?_⟩
    rw [List.cons_append, walk_cons hskip hup hshort hentry]
    simp only [hempty, Bool.false_eq_true, if_false]
  | case9 links base name rest hskip hup hshort path content hentry
  | case10 links base name rest hskip hup hshort path content hentry =>
    refine .inr ⟨by simp, .notDirectory, ?_⟩
    rw [List.cons_append, walk_cons hskip hup hshort hentry]
    simp only [hempty, Bool.false_eq_true, if_false]
  | case11 links base name rest hskip hup hshort path target hentry hlast => simp at hlast
  | case12 base name rest hskip hup hshort path target hentry hlast =>
    refine .inr ⟨by simp, .tooManyLinks, ?_⟩
    rw [List.cons_append, walk_cons hskip hup hshort hentry]
    simp only [hempty, Bool.false_and, Bool.false_eq_true, if_false, if_true]
  | case13 links base name rest hskip hup hshort path target hentry hlast hlinks htop =>
    refine .inr ⟨by simp, .absent, ?_⟩
    rw [List.cons_append, walk_cons hskip hup hshort hentry]
    simp only [hempty, Bool.false_and, Bool.false_eq_true, if_false, if_neg hlinks, if_pos htop]

/-- Nothing is at a free place. -/
theorem entryAt?_of_walk_free (fl : Bool) (links : Nat) (base names : List String)
    {p : List String} (h : walk t fl links base names = .ok (.free p)) : t.entryAt? p = none := by
  fun_induction walk t fl links base names with
  | case2 links base name rest hskip ih => exact ih h
  | case4 links base rest hbase hskip ih => exact ih h
  | case8 links base name rest hskip hup hshort path hentry ih => exact ih h
  | case14 links base name rest hskip hup hshort path target hentry hlast hlinks htop ih =>
    exact ih h
  | case6 links base name rest hskip hup hshort path hentry =>
    obtain rfl : path = p := Place.free.inj (Except.ok.inj h)
    exact hentry
  | case1 | case3 | case5 | case7 | case9 | case10 | case11 | case12 | case13 => cases h

/-- What is at the place where a walk ends at a file. -/
theorem entryAt?_of_walk_file (fl : Bool) (links : Nat) (base names : List String)
    {p : List String} {content : Blob}
    (h : walk t fl links base names = .ok (.found p (.file content))) :
    t.entryAt? p = some (.file content) := by
  fun_induction walk t fl links base names with
  | case2 links base name rest hskip ih => exact ih h
  | case4 links base rest hbase hskip ih => exact ih h
  | case8 links base name rest hskip hup hshort path hentry ih => exact ih h
  | case14 links base name rest hskip hup hshort path target hentry hlast hlinks htop ih =>
    exact ih h
  | case9 links base name rest hskip hup hshort path content' hentry hlast =>
    obtain ⟨rfl, he⟩ := Place.found.inj (Except.ok.inj h)
    rwa [Entry.file.inj he] at hentry
  | case1 | case11 =>
    obtain ⟨-, he⟩ := Place.found.inj (Except.ok.inj h)
    cases he
  | case3 | case5 | case6 | case7 | case10 | case12 | case13 => cases h

/-- A path that leads to a place for a file leads to the file that is put there. -/
theorem walk_put_file {p : List String} (hp : p ≠ [])
    (hfile : ∀ e, t.entryAt? p = some e → ∃ content, e = .file content) (content : Blob)
    (fl : Bool) (links : Nat) (base names : List String)
    (h : walk t fl links base names = .ok (.free p)
      ∨ ∃ old, walk t fl links base names = .ok (.found p (.file old))) :
    walk (t.put p (.file content)) fl links base names = .ok (.found p (.file content)) := by
  -- directories and links on the way are not at the place, so they stay
  have hstays {q : List String} {e : Entry} (hq : t.entryAt? q = some e)
      (he : ∀ content, e ≠ .file content) : (t.put p (.file content)).entryAt? q = some e := by
    rw [entryAt?_put t hp, if_neg]
    · exact hq
    · rintro rfl
      obtain ⟨old, rfl⟩ := hfile e hq
      exact he old rfl
  have hput : (t.put p (.file content)).entryAt? p = some (.file content) := by
    rw [entryAt?_put t hp, if_pos rfl]
  fun_induction walk t fl links base names with
  | case2 links base name rest hskip ih =>
    rw [walk, if_pos hskip]
    exact ih h
  | case4 links base rest hbase hskip ih =>
    rw [walk, if_neg hskip, if_pos rfl, if_neg hbase]
    exact ih h
  | case8 links base name rest hskip hup hshort path hentry ih =>
    rw [walk_cons hskip hup hshort (hstays hentry (by simp))]
    exact ih h
  | case14 links base name rest hskip hup hshort path target hentry hlast hlinks htop ih =>
    rw [walk_cons hskip hup hshort (hstays hentry (by simp))]
    simp only [if_neg hlast, if_neg hlinks, if_neg htop]
    exact ih h
  | case6 links base name rest hskip hup hshort path hentry hlast =>
    rcases h with h | ⟨old, h⟩
    · obtain rfl : path = p := Place.free.inj (Except.ok.inj h)
      rw [walk_cons hskip hup hshort hput]
      simp only [if_pos hlast]
      rfl
    · cases h
  | case9 links base name rest hskip hup hshort path old hentry hlast =>
    rcases h with h | ⟨_, h⟩
    · cases h
    · obtain ⟨rfl, -⟩ := Place.found.inj (Except.ok.inj h)
      rw [walk_cons hskip hup hshort hput]
      simp only [if_pos hlast]
      rfl
  | case1 | case11 =>
    rcases h with h | ⟨_, h⟩
    · cases h
    · obtain ⟨-, he⟩ := Place.found.inj (Except.ok.inj h)
      cases he
  | case3 | case5 | case7 | case10 | case12 | case13 =>
    rcases h with h | ⟨_, h⟩
    · cases h
    · cases h

/-- What is found is found as well in a tree that has it and has the directories and links on the
way. -/
theorem walk_of_keeps {p : List String} {e : Entry}
    (hkeeps : ∀ q found, t.entryAt? q = some found →
      (found = e ∨ ∀ content, found ≠ .file content) → t'.entryAt? q = some found)
    (fl : Bool) (links : Nat) (base names : List String)
    (h : walk t fl links base names = .ok (.found p e)) :
    walk t' fl links base names = .ok (.found p e) := by
  fun_induction walk t fl links base names with
  | case1 => rw [walk]; exact h
  | case2 links base name rest hskip ih =>
    rw [walk, if_pos hskip]
    exact ih h
  | case4 links base rest hbase hskip ih =>
    rw [walk, if_neg hskip, if_pos rfl, if_neg hbase]
    exact ih h
  | case8 links base name rest hskip hup hshort path hentry ih =>
    rw [walk_cons hskip hup hshort (hkeeps _ _ hentry (.inr (by simp)))]
    exact ih h
  | case14 links base name rest hskip hup hshort path target hentry hlast hlinks htop ih =>
    rw [walk_cons hskip hup hshort (hkeeps _ _ hentry (.inr (by simp)))]
    simp only [if_neg hlast, if_neg hlinks, if_neg htop]
    exact ih h
  | case9 links base name rest hskip hup hshort path content hentry hlast =>
    obtain ⟨-, he⟩ := Place.found.inj (Except.ok.inj h)
    rw [walk_cons hskip hup hshort (hkeeps _ _ hentry (.inl he))]
    simp only [if_pos hlast]
    exact h
  | case11 links base name rest hskip hup hshort path target hentry hlast =>
    rw [walk_cons hskip hup hshort (hkeeps _ _ hentry (.inr (by simp)))]
    simp only [if_pos hlast]
    exact h
  | case3 | case5 | case6 | case7 | case10 | case12 | case13 => cases h

/-- What is found is found as well in a tree that has more. -/
theorem walk_of_extends (hext : t.Extends t') (fl : Bool) (links : Nat) (base names : List String)
    {p : List String} {e : Entry} (h : walk t fl links base names = .ok (.found p e)) :
    walk t' fl links base names = .ok (.found p e) :=
  walk_of_keeps (fun q found hentry _ => hext q found hentry) fl links base names h

/-- A path that leads to something ends in an entry, which may be a link. -/
theorem walk_unfollowed (links : Nat) (base names : List String) {p : List String} {e : Entry}
    (h : walk t true links base names = .ok (.found p e)) :
    ∃ q e', walk t false links base names = .ok (.found q e') := by
  fun_induction walk t true links base names with
  | case1 links base => exact ⟨base, .dir, by rw [walk]⟩
  | case2 links base name rest hskip ih =>
    rw [walk, if_pos hskip]
    exact ih h
  | case4 links base rest hbase hskip ih =>
    rw [walk, if_neg hskip, if_pos rfl, if_neg hbase]
    exact ih h
  | case8 links base name rest hskip hup hshort path hentry ih =>
    rw [walk_cons hskip hup hshort hentry]
    exact ih h
  | case9 links base name rest hskip hup hshort path content hentry hlast =>
    rw [walk_cons hskip hup hshort hentry]
    simp only [if_pos hlast]
    exact ⟨_, _, rfl⟩
  | case14 links base name rest hskip hup hshort path target hentry hlast hlinks htop ih =>
    rw [walk_cons hskip hup hshort hentry]
    simp only [if_neg hlinks, if_neg htop]
    split
    · exact ⟨_, _, rfl⟩
    · exact ih h
  | case11 links base name rest hskip hup hshort path target hentry hlast => simp at hlast
  | case3 | case5 | case6 | case7 | case10 | case12 | case13 => cases h

-- ======================================================= last names

/-- A name of an entry: it leads one step down from wherever one is. -/
structure IsEntryName (name : String) : Prop where
  ne_empty : name ≠ ""
  ne_here : name ≠ "."
  ne_above : name ≠ ".."

instance (name : String) : Decidable (IsEntryName name) :=
  decidable_of_iff (name ≠ "" ∧ name ≠ "." ∧ name ≠ "..")
    ⟨fun ⟨hempty, hhere, habove⟩ => ⟨hempty, hhere, habove⟩,
    fun h => ⟨h.ne_empty, h.ne_here, h.ne_above⟩⟩

section Last
variable {fl : Bool} {links : Nat} {dir : List String} {name : String}

theorem walk_name (h : IsEntryName name) (hshort : name.utf8ByteSize ≤ maxNameBytes) :
    t.walk fl links dir [name] = match t.entryAt? (dir ++ [name]) with
      | none => .ok (.free (dir ++ [name]))
      | some .dir => .ok (.found (dir ++ [name]) .dir)
      | some (.file content) => .ok (.found (dir ++ [name]) (.file content))
      | some (.link target) =>
        if !fl then .ok (.found (dir ++ [name]) (.link target))
        else if links = 0 then .error .tooManyLinks
        else if target.startsWith "/" then .error .absent
        else t.walk fl (links - 1) dir ((pieces '/' target.toList).map String.ofList) := by
  rw [walk_cons (by simp [h.ne_empty, h.ne_here]) h.ne_above (Nat.not_lt.2 hshort) rfl]
  cases t.entryAt? (dir ++ [name]) with
  | none => rfl
  | some e =>
    cases e with
    | file content => rfl
    | dir => exact walk.eq_1 ..
    | link target => simp only [List.isEmpty_nil, Bool.true_and, List.append_nil]

/-- A name that leads somewhere is not too long. -/
theorem short_of_walk_name (h : IsEntryName name) {place : Place}
    (hwalk : t.walk fl links dir [name] = .ok place) : name.utf8ByteSize ≤ maxNameBytes := by
  rw [walk, if_neg (by simp [h.ne_empty, h.ne_here]), if_neg h.ne_above] at hwalk
  split at hwalk
  · cases hwalk
  · rename_i hshort
    exact Nat.not_lt.1 hshort

theorem isEntryName_of_length (h : 2 < name.length) : IsEntryName name := by
  refine ⟨?_, ?_, ?_⟩ <;> intro hname <;> rw [hname] at h <;> exact absurd h (by decide)

/-- A last name that is not followed leads to the entry of this name. -/
theorem walk_name_last (h : IsEntryName name) {place : Place}
    (hwalk : t.walk false links dir [name] = .ok place) :
    place = .free (dir ++ [name]) ∨ ∃ e, place = .found (dir ++ [name]) e := by
  rw [walk_name h (short_of_walk_name h hwalk)] at hwalk
  split at hwalk
  · exact .inl (Except.ok.inj hwalk).symm
  · exact .inr ⟨_, (Except.ok.inj hwalk).symm⟩
  · exact .inr ⟨_, (Except.ok.inj hwalk).symm⟩
  · exact .inr ⟨_, (Except.ok.inj hwalk).symm⟩

end Last

-- ======================================================== locations

/-- A path leads where the walk over its names does, if it can lead anywhere. -/
theorem locate_eq_ok_iff {fl : Bool} {p : FilePath} {place : Place} :
    t.locate fl p = .ok place ↔ p.Usable ∧ t.walk fl maxLinks [] p.names = .ok place := by
  unfold locate
  split
  · rename_i hnull
    simp only [reduceCtorEq, false_iff, not_and]
    intro h
    rw [h.noNull] at hnull
    cases hnull
  · rename_i hnull
    split
    · rename_i hsize
      simp only [reduceCtorEq, false_iff, not_and]
      intro h
      exact absurd h.size_le (Nat.not_le.2 hsize)
    · rename_i hsize
      split
      · rename_i hslash
        simp only [reduceCtorEq, false_iff, not_and]
        intro h
        exact absurd h.relative (Nat.ne_of_gt hslash)
      · rename_i hslash
        have husable : p.Usable := ⟨by simpa using hnull, Nat.not_lt.1 hsize, by omega⟩
        rw [and_iff_right husable]
        split <;> rename_i hwalk <;> simp [hwalk]

/-- Where a path leads is known, or the system says why not, unless there is a null character in
it. -/
theorem isSystem_of_locate {fl : Bool} {p : FilePath} {f : Fault}
    (hp : (p.names.any fun name => name.toList.contains '\x00') = false)
    (h : t.locate fl p = .error f) : f.isSystem = true := by
  unfold locate at h
  rw [hp, if_neg (by decide)] at h
  split at h
  · rw [← Except.error.inj h]
    rfl
  · split at h
    · rw [← Except.error.inj h]
      rfl
    · split at h
      · cases h
      · rw [← Except.error.inj h]
        rfl

theorem isSystem_of_fileContent {p : FilePath} {f : Fault}
    (hp : (p.names.any fun name => name.toList.contains '\x00') = false)
    (h : t.fileContent p = .error f) : f.isSystem = true := by
  unfold fileContent at h
  rcases Outcome.bind_eq_error.1 h with h | ⟨place, -, h⟩
  · exact isSystem_of_locate hp h
  · split at h
    · cases h
    · rw [← Except.error.inj h]
      rfl
    · rw [← Except.error.inj h]
      rfl

theorem directory_eq_ok_iff {p : FilePath} {dir : List String} :
    t.directory p = .ok dir ↔ t.locate true p = .ok (.found dir .dir) := by
  unfold directory
  rw [Outcome.bind_eq_ok]
  constructor
  · intro h
    obtain ⟨place, hplace, h⟩ := h
    split at h
    · obtain rfl := Except.ok.inj h
      exact hplace
    · cases h
    · cases h
  · intro h
    exact ⟨_, h, rfl⟩

theorem fileContent_eq_ok_iff {p : FilePath} {content : Blob} :
    t.fileContent p = .ok content ↔ ∃ q, t.locate true p = .ok (.found q (.file content)) := by
  unfold fileContent
  rw [Outcome.bind_eq_ok]
  constructor
  · intro h
    obtain ⟨place, hplace, h⟩ := h
    split at h
    · rename_i q found
      obtain rfl := Except.ok.inj h
      exact ⟨q, hplace⟩
    · cases h
    · cases h
  · intro h
    obtain ⟨q, hplace⟩ := h
    exact ⟨_, hplace, rfl⟩

/-- What a longer path leads to is seen from the directory that its front leads to. -/
theorem locate_append {fl : Bool} {n : Nat} {names more : List String} (hmore : more ≠ [])
    {place : Place} (h : t.locate fl ⟨n, names ++ more⟩ = .ok place) :
    ∃ dir links, t.directory ⟨n, names⟩ = .ok dir ∧ t.walk fl links dir more = .ok place := by
  obtain ⟨husable, hwalk⟩ := locate_eq_ok_iff.1 h
  rcases walk_append fl hmore maxLinks [] names with ⟨dir, links, hdir, hsame⟩ | ⟨-, o, hstop⟩
  · refine ⟨dir, links, ?_, hsame ▸ hwalk⟩
    rw [directory_eq_ok_iff, locate_eq_ok_iff]
    exact ⟨husable.of_append, hdir⟩
  · cases hstop.symm.trans hwalk

/-- A path leads to a place where a file can be written: there is one already, or nothing. -/
def OpensAt (t : FileTree) (p : FilePath) (q : List String) : Prop :=
  t.locate true p = .ok (.free q) ∨ ∃ old, t.locate true p = .ok (.found q (.file old))

/-- Where a file can be written there is nothing but a file. -/
theorem OpensAt.exists_file {p : FilePath} {q : List String} (h : t.OpensAt p q) (e : Entry)
    (he : t.entryAt? q = some e) : ∃ old, e = .file old := by
  rcases h with h | ⟨old, h⟩
  · rw [entryAt?_of_walk_free _ _ _ _ (locate_eq_ok_iff.1 h).2] at he
    cases he
  · rw [entryAt?_of_walk_file _ _ _ _ (locate_eq_ok_iff.1 h).2] at he
    exact ⟨old, (Option.some.inj he).symm⟩

/-- A place where nothing but a file can be is not the top. -/
theorem ne_nil_of_file {q : List String}
    (hfile : ∀ e, t.entryAt? q = some e → ∃ old, e = .file old) : q ≠ [] := by
  rintro rfl
  obtain ⟨old, hold⟩ := hfile .dir (entryAt?_nil t)
  cases hold

/-- A file that is put where a path leads is what the path leads to. -/
theorem locate_put_file {p : FilePath} {q : List String} (h : t.OpensAt p q) (content : Blob) :
    (t.put q (.file content)).locate true p = .ok (.found q (.file content)) := by
  have hfile := h.exists_file
  have hplace : p.Usable ∧ (t.walk true maxLinks [] p.names = .ok (.free q)
      ∨ ∃ old, t.walk true maxLinks [] p.names = .ok (.found q (.file old))) := by
    rcases h with h | ⟨old, h⟩
    · obtain ⟨husable, hwalk⟩ := locate_eq_ok_iff.1 h
      exact ⟨husable, .inl hwalk⟩
    · obtain ⟨husable, hwalk⟩ := locate_eq_ok_iff.1 h
      exact ⟨husable, .inr ⟨old, hwalk⟩⟩
  obtain ⟨husable, hwalk⟩ := hplace
  exact locate_eq_ok_iff.2
    ⟨husable, walk_put_file (ne_nil_of_file hfile) hfile content _ _ _ _ hwalk⟩

/-- A file in a directory is among the names there. -/
theorem exists_directory_of_fileContent {p : FilePath} {name : String} (hname : IsEntryName name)
    {content : Blob} (h : t.fileContent (p.child name) = .ok content) :
    ∃ dir, t.directory p = .ok dir ∧ name ∈ t.names dir := by
  obtain ⟨q, hplace⟩ := fileContent_eq_ok_iff.1 h
  obtain ⟨dir, links, hdir, hwalk⟩ := locate_append (List.cons_ne_nil name []) hplace
  refine ⟨dir, hdir, mem_names_iff.2 ?_⟩
  rw [walk_name hname (short_of_walk_name hname hwalk)] at hwalk
  cases hentry : t.entryAt? (dir ++ [name]) with
  | none =>
    rw [hentry] at hwalk
    cases hwalk
  | some e => exact ⟨e, rfl⟩

/-- A path leads to a file exactly if there is a content to be read. -/
theorem find?_eq_file_iff {p : FilePath} {content : Blob} :
    t.find? p = some (.file content) ↔ t.fileContent p = .ok content := by
  rw [fileContent_eq_ok_iff]
  unfold find?
  constructor
  · intro h
    split at h
    · rename_i q e hplace
      rw [Option.some.inj h] at hplace
      exact ⟨q, hplace⟩
    · cases h
  · intro h
    obtain ⟨q, hplace⟩ := h
    rw [hplace]

/-- Whether names lead from a directory down through directories. -/
def descends (t : FileTree) (base : List String) : List String → Bool
  | [] => true
  | name :: rest =>
    decide (IsEntryName name ∧ name.utf8ByteSize ≤ maxNameBytes)
      && t.entryAt? (base ++ [name]) == some .dir && descends t (base ++ [name]) rest

/-- A walk goes on where such names end. -/
theorem walk_of_descends {fl : Bool} {links : Nat} {base names : List String}
    (h : t.descends base names = true) (more : List String) :
    t.walk fl links base (names ++ more) = t.walk fl links (base ++ names) more := by
  induction names generalizing base with
  | nil => rw [List.nil_append, List.append_nil]
  | cons name names ih =>
    rw [descends, Bool.and_eq_true, Bool.and_eq_true, decide_eq_true_iff, beq_iff_eq] at h
    obtain ⟨⟨⟨hname, hshort⟩, hentry⟩, hrest⟩ := h
    rw [List.cons_append, walk_cons (by simp [hname.ne_empty, hname.ne_here]) hname.ne_above
      (Nat.not_lt.2 hshort) hentry]
    dsimp only
    rw [ih hrest, List.append_assoc, List.singleton_append]

theorem directory_of_descends {p : FilePath} (husable : p.Usable)
    (h : t.descends [] p.names = true) : t.directory p = .ok p.names := by
  have hwalk : t.walk true maxLinks [] (p.names ++ []) = t.walk true maxLinks ([] ++ p.names) [] :=
    walk_of_descends h []
  rw [List.append_nil, List.nil_append, walk] at hwalk
  exact directory_eq_ok_iff.2 (locate_eq_ok_iff.2 ⟨husable, hwalk⟩)

theorem listNames_of_directory {p : FilePath} {dir : List String} (hdir : t.directory p = .ok dir) :
    t.listNames p = .ok (t.names dir) := by
  unfold listNames
  rw [hdir]
  rfl

/-- The names in a directory, if they are in order as they stand in the tree. -/
theorem listNames_eq {p : FilePath} {dir names : List String} (hdir : t.directory p = .ok dir)
    (hnames : (t.entries.filterMap fun e => nameIn? dir e.1) = names)
    (hsorted : names.Pairwise (· ≤ ·)) : t.listNames p = .ok names := by
  rw [listNames_of_directory hdir, FileTree.names, hnames]
  exact congrArg _ (List.mergeSort_of_pairwise (by simpa using hsorted))

/-- A directory stays where it is in a tree that has more. -/
theorem directory_of_extends (hext : t.Extends t') {p : FilePath} {dir : List String}
    (h : t.directory p = .ok dir) : t'.directory p = .ok dir := by
  rw [directory_eq_ok_iff, locate_eq_ok_iff] at h ⊢
  exact ⟨h.1, walk_of_extends hext true _ _ _ h.2⟩

/-- A directory stays where it is while files are put where no directory and no link is. -/
theorem directory_put_file {q : List String} (hq : q ≠ [])
    (hfile : ∀ e, t.entryAt? q = some e → ∃ content, e = .file content) (content : Blob)
    {p : FilePath} {dir : List String} (h : t.directory p = .ok dir) :
    (t.put q (.file content)).directory p = .ok dir := by
  rw [directory_eq_ok_iff, locate_eq_ok_iff] at h ⊢
  refine ⟨h.1, walk_of_keeps (fun q' found hfound hkind => ?_) true _ _ _ h.2⟩
  rw [entryAt?_put t hq, if_neg]
  · exact hfound
  · rintro rfl
    obtain ⟨old, rfl⟩ := hfile found hfound
    rcases hkind with hdir | hkind
    · cases hdir
    · exact hkind old rfl

theorem isPresent_iff {p : FilePath} :
    t.isPresent p = true ↔ ∃ q e, t.locate true p = .ok (.found q e) := by
  unfold isPresent find?
  split
  · rename_i q e hplace
    exact iff_of_true rfl ⟨q, e, hplace⟩
  · rename_i hplace
    exact iff_of_false (by simp) fun ⟨q, e, h⟩ => hplace q e h

/-- What can be located can be looked up. -/
theorem probe_of_locate {p : FilePath} {place : Place} (h : t.locate true p = .ok place) :
    t.probe p = .ok (t.find? p) := by
  unfold probe
  rw [h]

theorem find?_of_probe {p : FilePath} {found? : Option Entry} (h : t.probe p = .ok found?) :
    t.find? p = found? := by
  unfold probe at h
  split at h
  · rename_i hplace
    split at h
    · cases h
    · rw [find?, hplace]
      exact Except.ok.inj h
  · exact Except.ok.inj h

theorem probe_eq_file_iff {p : FilePath} {content : Blob} :
    t.probe p = .ok (some (.file content)) ↔ t.fileContent p = .ok content := by
  rw [← find?_eq_file_iff]
  constructor
  · exact find?_of_probe
  · intro h
    obtain ⟨q, hplace⟩ := fileContent_eq_ok_iff.1 (find?_eq_file_iff.1 h)
    rw [probe_of_locate hplace, h]

theorem probe_of_isPresent {p : FilePath} (h : t.isPresent p = true) :
    ∃ e, t.probe p = .ok (some e) := by
  obtain ⟨q, e, hplace⟩ := isPresent_iff.1 h
  refine ⟨e, (probe_of_locate hplace).trans ?_⟩
  unfold find?
  rw [hplace]

theorem isDirectory_iff {p : FilePath} :
    t.isDirectory p = true ↔ ∃ dir, t.directory p = .ok dir := by
  simp only [directory_eq_ok_iff]
  unfold isDirectory find?
  constructor
  · intro h
    split at h
    · rename_i q e hplace
      obtain rfl : e = .dir := by simpa using h
      exact ⟨q, hplace⟩
    · simp at h
  · intro h
    obtain ⟨dir, hplace⟩ := h
    rw [hplace]
    rfl

/-- The top is always there. -/
theorem isDirectory_here (t : FileTree) : t.isDirectory .here = true := by
  have hplace : t.locate true .here = .ok (.found [] .dir) :=
    locate_eq_ok_iff.2 ⟨⟨rfl, by decide, rfl⟩, by rw [FilePath.here, walk]⟩
  unfold isDirectory find?
  rw [hplace]
  rfl

/-- What a longer path leads to, where the directory that its front leads to is known. -/
theorem exists_links_locate {n : Nat} {names more : List String} {dir : List String}
    (hdir : t.directory ⟨n, names⟩ = .ok dir) (hmore : more ≠ [])
    (husable : FilePath.Usable ⟨n, names ++ more⟩) (fl : Bool) :
    ∃ links, ∀ place,
      t.locate fl ⟨n, names ++ more⟩ = .ok place ↔ t.walk fl links dir more = .ok place := by
  obtain ⟨-, hfront⟩ := locate_eq_ok_iff.1 (directory_eq_ok_iff.1 hdir)
  rcases walk_append fl hmore maxLinks [] names with ⟨dir', links, hdir', hsame⟩ | ⟨hnot, -⟩
  · obtain ⟨rfl, -⟩ := Place.found.inj (Except.ok.inj (hdir'.symm.trans hfront))
    refine ⟨links, fun place => ?_⟩
    rw [locate_eq_ok_iff, and_iff_right husable, hsame]
  · exact absurd hfront (hnot dir)

end FileTree

end CharmDepot
