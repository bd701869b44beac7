/-
What a lookup at a revision gives, and what it reports on the way.

The charm of an identity at a revision is under a name of its series if it can be read there, with
that name in its metadata and at that very revision (`Matches`). A lookup gives the first one, by
the names of the candidates; charms at other revisions have no part in it. What is reported are the
entries that cannot be read and the links that lead nowhere (`noticeAt?`), as far as the scan gets:
those in front of the charm, or all of them if there is none. `get_revisioned` says so for every
tree and every revision.

# Revisions without a written form

That there is no such charm is said with the written form of the identity, which a revision of more
than 4300 digits does not have (`get_longRevision`).

# Links to long names

All of this is for a series in which everything can be looked up. A link to a name that is too long
for the system is neither a candidate nor known to lead nowhere. It ends every lookup that gets to
it, whatever is behind it (`get_of_lost`).
-/
import CharmDepot.Proofs.Repository.Corrupt

namespace CharmDepot.DiskRepository

open Number Text

variable {r : DiskRepository} {t : FileTree} {i : Identity} {p : FilePath} {n : Int}
variable {before names after : List String} {name : String} {c : Charm}

-- ============================================================= matches

/-- Under a name of a series is the charm of an identity's name at a revision. -/
structure Matches (r : DiskRepository) (t : FileTree) (i : Identity) (n : Int) (name : String)
    (c : Charm) : Prop where
  candidate : isCandidate t ((r.seriesPath i).child name) = true
  read : Charm.read t ((r.seriesPath i).child name) = .ok c
  name : c.metadata.name = .text i.name
  revision : c.revision = n

namespace Matches

/-- Under one name is a charm at one revision only. -/
theorem revision_unique {m : Int} {d : Charm} (h : r.Matches t i n name c)
    (h' : r.Matches t i m name d) : n = m := by
  have hsame := Except.ok.inj (h.read.symm.trans h'.read)
  rw [← h.revision, hsame, h'.revision]

end Matches

-- ============================================================= notices

/-- The notice about what is at a path of a series directory, if there is one: that a candidate
cannot be read, or that a link leads nowhere. -/
def noticeAt? (t : FileTree) (p : FilePath) : Option Notice :=
  if isCandidate t p then
    match Charm.read t p with
    | .ok _ => none
    | .error f => some (warning p f.message)
  else if t.isLink p && !t.isPresent p then some (warning p "dangling symlink")
  else none

/-- The notices about what is under names of a series. -/
def noticesIn (r : DiskRepository) (t : FileTree) (i : Identity) (names : List String) :
    List Notice :=
  names.filterMap fun name => noticeAt? t ((r.seriesPath i).child name)

/-- A notice is about a candidate that cannot be read, or about a link that leads nowhere. -/
theorem noticeAt?_eq_some_iff {notice : Notice} :
    noticeAt? t p = some notice ↔
      (isCandidate t p = true ∧ ∃ f, Charm.read t p = .error f ∧ notice = warning p f.message)
        ∨ (t.isLink p = true ∧ t.isPresent p = false ∧ notice = warning p "dangling symlink") := by
  unfold noticeAt?
  by_cases hcandidate : isCandidate t p = true
  · have hpresent := isPresent_of_isCandidate hcandidate
    rw [if_pos hcandidate, hcandidate, hpresent]
    cases hread : Charm.read t p with
    | ok c => simp
    | error f =>
      simp only [Option.some.injEq, Except.error.injEq, Bool.true_eq_false, false_and, and_false,
        or_false, true_and, exists_eq_left']
      exact eq_comm
  · rw [if_neg hcandidate, Option.ite_none_right_eq_some, Option.some.injEq, Bool.and_eq_true,
      Bool.not_eq_true', and_assoc, or_iff_right fun h => hcandidate h.1]
    exact and_congr_right fun _ => and_congr_right fun _ => eq_comm

/-- Nothing is reported about a charm. -/
theorem Matches.noticeAt?_eq_none (h : r.Matches t i n name c) :
    noticeAt? t ((r.seriesPath i).child name) = none := by
  unfold noticeAt?
  rw [if_pos h.candidate, h.read]

-- ============================================================= looking

/-- What a scan sees of something that can be looked up, and read or passed over: the charm that is
there, if any, and the notice about it. -/
theorem lookIn_of_readable (h : Readable t ((r.seriesPath i).child name)) :
    ∃ c?, r.lookIn t i name = (.ok c?, (noticeAt? t ((r.seriesPath i).child name)).toList)
      ∧ ∀ c, c? = some c ↔ isCandidate t ((r.seriesPath i).child name) = true
        ∧ Charm.read t ((r.seriesPath i).child name) = .ok c := by
  unfold lookIn candidate noticeAt?
  generalize (r.seriesPath i).child name = p at h ⊢
  by_cases hcandidate : isCandidate t p = true
  · rw [if_pos hcandidate, if_pos hcandidate, hcandidate]
    cases hread : Charm.read t p with
    | ok c => exact ⟨some c, rfl, by simp⟩
    | error f =>
      dsimp only
      rw [if_pos (h.passedOver hcandidate f hread)]
      exact ⟨none, rfl, by simp⟩
  · obtain ⟨found?, hfound⟩ := h.lookedUp
    refine ⟨none, ?_, by simp [hcandidate]⟩
    rw [if_neg hcandidate, if_neg hcandidate, hfound, FileTree.isPresent,
      FileTree.find?_of_probe hfound]
    cases found? <;> cases t.isLink p <;> rfl

/-- A scan gets past names under which the charm is not at the revision that is asked for. -/
theorem getsPast_of_readable (hrevision : i.revision = .int n)
    (hread : ∀ name ∈ before, Readable t ((r.seriesPath i).child name))
    (hnone : ∀ name ∈ before, ∀ c, ¬ r.Matches t i n name c) :
    GetsPast (r.lookIn t i) i before := by
  intro name hname
  obtain ⟨c?, hlook, hseen⟩ := lookIn_of_readable (i := i) (hread name hname)
  refine ⟨c?, congrArg Prod.fst hlook, fun c hc hsame => ?_⟩
  obtain ⟨hcandidate, hcharm⟩ := (hseen c).1 hc
  rw [hrevision, ← Bool.not_eq_true, isInt_int]
  exact fun hn => hnone name hname c ⟨hcandidate, hcharm, (Value.same_text_iff _ _).1 hsame, hn⟩

/-- The notices of a scan over names that can be looked up, and read or passed over. -/
theorem notices_of_readable
    (hread : ∀ name ∈ before, Readable t ((r.seriesPath i).child name)) :
    before.flatMap (fun name => (r.lookIn t i name).2) = r.noticesIn t i before := by
  unfold noticesIn
  rw [List.filterMap_eq_flatMap_toList]
  refine List.flatMap_congr fun name hname => ?_
  obtain ⟨c?, hlook, -⟩ := lookIn_of_readable (i := i) (hread name hname)
  rw [hlook]

theorem Matches.lookIn (h : r.Matches t i n name c) : r.lookIn t i name = (.ok (some c), []) := by
  unfold DiskRepository.lookIn DiskRepository.candidate
  rw [if_pos h.candidate, h.read]

-- ============================================================== lookup

section Lookup

variable (hlocal : i.schema = localSchema) (hrevision : i.revision = .int n)
include hlocal hrevision

/-- A lookup gives the first charm at the revision, and reports what is in front of it. -/
theorem get_of_matches (hnames : t.listNames (r.seriesPath i) = .ok (before ++ name :: after))
    (hread : ∀ name ∈ before, Readable t ((r.seriesPath i).child name))
    (hmatches : r.Matches t i n name c)
    (hfirst : ∀ other ∈ before, ∀ d, ¬ r.Matches t i n other d) :
    r.get t i = (.ok c, r.noticesIn t i before) := by
  obtain ⟨best?, hrest⟩ := scan_of_getsPast (getsPast_of_readable hrevision hread hfirst) none
  have hfound : scan (r.lookIn t i) i best? (name :: after) = (.ok (some c), []) := by
    rw [scan, hmatches.lookIn]
    dsimp only
    rw [(Value.same_text_iff _ _).2 hmatches.name, hrevision, isInt_int.2 hmatches.revision]
    rfl
  rw [get_of_names hlocal hnames, hrest, hfound, notices_of_readable hread, List.append_nil]
  rfl

/-- Without a charm at the revision, a lookup reports everything and gives none, whatever other
revisions of the charm there are. -/
theorem get_of_not_matches (hset : 0 ≤ n) (hnames : t.listNames (r.seriesPath i) = .ok names)
    (hread : ∀ name ∈ names, Readable t ((r.seriesPath i).child name))
    (hnone : ∀ name ∈ names, ∀ c, ¬ r.Matches t i n name c) :
    r.get t i = (.error (r.notFound i), r.noticesIn t i names) := by
  obtain ⟨best?, hrest⟩ := scan_of_getsPast (getsPast_of_readable hrevision hread hnone) none
  have hend : scan (r.lookIn t i) i best? [] = (.ok none, []) := by
    have hunset : ¬ i.revision.isInt (-1) = true := by
      rw [hrevision, isInt_int]
      omega
    rw [scan, if_neg hunset]
  have hscan := hrest []
  rw [hend, List.append_nil, List.append_nil, notices_of_readable hread] at hscan
  rw [get_of_names hlocal hnames, hscan]
  rfl

/-- What cannot be looked up ends a lookup that gets to it. -/
theorem get_of_lost {entry : String} {f : Fault}
    (hnames : t.listNames (r.seriesPath i) = .ok (before ++ entry :: after))
    (hread : ∀ name ∈ before, Readable t ((r.seriesPath i).child name))
    (hnone : ∀ name ∈ before, ∀ c, ¬ r.Matches t i n name c)
    (hentry : isCandidate t ((r.seriesPath i).child entry) = false)
    (hlost : t.probe ((r.seriesPath i).child entry) = .error f) : (r.get t i).1 = .error f :=
  get_of_notPassedOver hlocal hnames (getsPast_of_readable hrevision hread hnone)
    (candidate_error_iff.2 (.inr ⟨hentry, hlost⟩))

end Lookup

/-- Of the names under which the charm is at a revision, one is the first. -/
theorem exists_first_matches (h : ∃ name ∈ names, ∃ c, r.Matches t i n name c) :
    ∃ before name after c, names = before ++ name :: after ∧ r.Matches t i n name c
      ∧ ∀ other ∈ before, ∀ d, ¬ r.Matches t i n other d := by
  classical
  obtain ⟨name, hname, hmatches⟩ := h
  have hfind : (names.find? fun name => decide (∃ c, r.Matches t i n name c)).isSome = true :=
    List.find?_isSome.2 ⟨name, hname, decide_eq_true hmatches⟩
  obtain ⟨first, hfirst⟩ := Option.isSome_iff_exists.1 hfind
  obtain ⟨hfirst, before, after, hnames, hbefore⟩ := List.find?_eq_some_iff_append.1 hfirst
  obtain ⟨c, hc⟩ := of_decide_eq_true hfirst
  refine ⟨before, first, after, c, hnames, hc, fun other hother d hd => ?_⟩
  have hnot := hbefore other hother
  rw [Bool.not_eq_true', decide_eq_false_iff_not] at hnot
  exact hnot ⟨d, hd⟩

/-- A lookup of an identity at a revision, in a series in which everything can be looked up, and
every candidate is read or passed over. It gives a charm if and only if there is one at the revision
under some name, and then it gives the first one, and reports what is in front of it. Otherwise it
reports on all names, and says that there is no such charm, if that can be said: the revision has to
be written for it. -/
theorem get_revisioned (r : DiskRepository) (t : FileTree) (u : Url) {n : Int}
    {names : List String} (hlocal : u.schema = localSchema) (hrevision : u.revision = .int n)
    (hset : 0 ≤ n) (hnames : t.listNames (r.seriesPath u) = .ok names)
    (hread : ∀ name ∈ names, Readable t ((r.seriesPath u).child name)) :
    names.Pairwise (· ≤ ·)
      ∧ ((∃ c, (r.get t u).1 = .ok c) ↔ ∃ name ∈ names, ∃ c, r.Matches t u n name c)
      ∧ (∀ before name after c, names = before ++ name :: after → r.Matches t u n name c →
          (∀ other ∈ before, ∀ d, ¬ r.Matches t u n other d) →
          r.get t u = (.ok c, r.noticesIn t u before))
      ∧ ((∀ name ∈ names, ∀ c, ¬ r.Matches t u n name c) →
          (r.get t u).2 = r.noticesIn t u names
          ∧ (n.natAbs < Nat.pow 10 maxDigits →
              (r.get t u).1 = .error (.missing (.localCharm r.path.toString u.toString)))
          ∧ (Nat.pow 10 maxDigits ≤ n.natAbs →
              (r.get t u).1 = .error (.value .tooLongToWrite))) := by
  have hsorted : names.Pairwise (· ≤ ·) := by
    obtain ⟨dir, -, rfl⟩ := Outcome.map_eq_ok.1 hnames
    exact t.pairwise_names dir
  have hfirst : ∀ before name after c, names = before ++ name :: after →
      r.Matches t u n name c → (∀ other ∈ before, ∀ d, ¬ r.Matches t u n other d) →
      r.get t u = (.ok c, r.noticesIn t u before) := by
    intro before name after c hsplit hmatches hbefore
    subst hsplit
    exact get_of_matches hlocal hrevision hnames
      (fun other hother => hread other (List.mem_append_left _ hother)) hmatches hbefore
  refine ⟨hsorted, ?_, hfirst, fun hnone => ?_⟩
  · constructor
    · intro hfound
      by_contra hnone
      push Not at hnone
      obtain ⟨c, hc⟩ := hfound
      rw [get_of_not_matches (i := .url u) hlocal hrevision hset hnames hread hnone] at hc
      cases hc
    · intro hsome
      obtain ⟨before, name, after, c, hsplit, hmatches, hbefore⟩ := exists_first_matches hsome
      exact ⟨c, congrArg Prod.fst (hfirst before name after c hsplit hmatches hbefore)⟩
  · have hget := get_of_not_matches (i := .url u) hlocal hrevision hset hnames hread hnone
    refine ⟨congrArg Prod.snd hget, fun hshort => ?_, fun hlong => ?_⟩
    · rw [hget, notFound, faultOn_of_written (Identity.written_int (i := .url u) hrevision hshort)]
      rfl
    · rw [hget, notFound, faultOn, Identity.written_int_of_long (i := .url u) hrevision hset hlong]

-- ====================================================== a mixed series

/-- A series with the charm at two revisions, between a file that is no archive and a link that
leads nowhere. -/
def mixedTree : FileTree where
  entries := [(["repo"], .dir), (["repo", "precise"], .dir),
    (["repo", "precise", "a.charm"], .file (.plain [])),
    (["repo", "precise", "b.charm"], .file (Charm.archived "5")),
    (["repo", "precise", "c.charm"], .file (Charm.archived "7")),
    (["repo", "precise", "d"], .link "e")]

/-- The names in the series. -/
def mixedNames : List String := ["a.charm", "b.charm", "c.charm", "d"]

/-- The repository of the tree. -/
def mixedRepository : DiskRepository := ⟨⟨0, ["repo"]⟩, .null⟩

/-- Where a name of the series is. -/
def mixedPath (name : String) : FilePath := ⟨0, ["repo", "precise", name]⟩

/-- The charm, at a revision. -/
def mixedUrl (n : Int) : Url := ⟨localSchema, "", "precise", "w", .int n⟩

theorem seriesPath_mixed (n : Int) :
    mixedRepository.seriesPath (mixedUrl n) = ⟨0, ["repo", "precise"]⟩ := by
  show mixedRepository.path / "precise" = _
  decide +kernel

theorem child_mixed (n : Int) (name : String) :
    (mixedRepository.seriesPath (mixedUrl n)).child name = mixedPath name := by
  rw [seriesPath_mixed]
  rfl

theorem directory_mixed :
    mixedTree.directory ⟨0, ["repo", "precise"]⟩ = .ok ["repo", "precise"] :=
  FileTree.directory_of_descends (by decide) rfl

theorem listNames_mixed (n : Int) :
    mixedTree.listNames (mixedRepository.seriesPath (mixedUrl n)) = .ok mixedNames := by
  rw [seriesPath_mixed]
  exact FileTree.listNames_eq directory_mixed rfl (by decide +kernel)

/-- The file is a candidate that cannot be read. -/
theorem read_mixed_file :
    isCandidate mixedTree (mixedPath "a.charm") = true
      ∧ Charm.read mixedTree (mixedPath "a.charm")
        = .error (.unreadable (.charmArchive (mixedPath "a.charm").toString) .notArchive) := by
  have hplace : mixedTree.locate true (mixedPath "a.charm")
      = .ok (.found ["repo", "precise", "a.charm"] (.file (.plain []))) :=
    FileTree.locate_child_of_file directory_mixed (by decide) rfl true
  exact archive_candidate hplace (by decide +kernel)

/-- What is archived at a revision is read at it. -/
theorem exists_read_mixed {name revision : String} {n : Int}
    (hplace : mixedTree.locate true (mixedPath name)
      = .ok (.found ["repo", "precise", name] (.file (Charm.archived revision))))
    (hname : endsWith charmSuffix.toList (mixedPath name).name.toList = true)
    (hn : integerOfBytes (utf8 revision) = .ok n) (m : Int) :
    ∃ c, mixedRepository.Matches mixedTree (mixedUrl m) n name c := by
  obtain ⟨hcandidate, hread⟩ := archive_candidate hplace hname
  obtain ⟨c, hc, hrevision, hw⟩ := Charm.exists_ofBlob_archived (mixedPath name) hn
  exact ⟨c, by rwa [child_mixed], by rw [child_mixed, hread, hc], hw, hrevision⟩

/-- The link is no candidate, and leads nowhere. -/
theorem link_mixed :
    mixedTree.isLink (mixedPath "d") = true ∧ mixedTree.isPresent (mixedPath "d") = false
      ∧ isCandidate mixedTree (mixedPath "d") = false
      ∧ ∃ found?, mixedTree.probe (mixedPath "d") = .ok found? := by
  have hlink : mixedTree.locate false (mixedPath "d")
      = .ok (.found ["repo", "precise", "d"] (.link "e")) :=
    FileTree.locate_child_of_link directory_mixed (by decide) rfl
  have hplace : mixedTree.locate true (mixedPath "d") = .ok (.free ["repo", "precise", "e"]) := by
    have htarget : (Text.pieces '/' "e".toList).map String.ofList = ["e"] := by
      decide +kernel
    have hentry : mixedTree.entryAt? (["repo", "precise"] ++ ["d"]) = some (.link "e") := rfl
    have hnone : mixedTree.entryAt? (["repo", "precise"] ++ ["e"]) = none := rfl
    have hseries : mixedTree.descends [] ["repo", "precise"] = true := rfl
    refine FileTree.locate_eq_ok_iff.2 ⟨by decide, ?_⟩
    refine (FileTree.walk_of_descends hseries ["d"]).trans ?_
    rw [List.nil_append, FileTree.walk_name (by decide) (by decide), hentry]
    dsimp only
    rw [if_neg (by decide), if_neg (by decide), if_neg (by decide +kernel), htarget,
      FileTree.walk_name (by decide) (by decide), hnone]
    rfl
  have habsent : mixedTree.isPresent (mixedPath "d") = false := by
    rw [FileTree.isPresent, FileTree.find?, hplace]
    rfl
  refine ⟨by rw [FileTree.isLink, hlink], habsent, ?_, _, FileTree.probe_of_locate hplace⟩
  rw [← Bool.not_eq_true]
  intro hcandidate
  rw [isPresent_of_isCandidate hcandidate] at habsent
  cases habsent

/-- The notice about the file. -/
def fileNotice : Notice :=
  warning (mixedPath "a.charm")
    "cannot read charm archive 'repo/precise/a.charm': File is not a zip file"

/-- The notice about the link. -/
def linkNotice : Notice :=
  warning (mixedPath "d") "dangling symlink"

/-- The charm is in the series at two revisions, at whatever one it is asked for. -/
theorem mixed_entries (n : Int) :
    (∃ b, mixedRepository.Matches mixedTree (mixedUrl n) 5 "b.charm" b)
      ∧ ∃ c, mixedRepository.Matches mixedTree (mixedUrl n) 7 "c.charm" c := by
  have hb : mixedTree.locate true (mixedPath "b.charm")
      = .ok (.found ["repo", "precise", "b.charm"] (.file (Charm.archived "5"))) :=
    FileTree.locate_child_of_file directory_mixed (by decide) rfl true
  have hc : mixedTree.locate true (mixedPath "c.charm")
      = .ok (.found ["repo", "precise", "c.charm"] (.file (Charm.archived "7"))) :=
    FileTree.locate_child_of_file directory_mixed (by decide) rfl true
  constructor
  · exact exists_read_mixed hb (by decide +kernel)
      (show integerOfBytes (utf8 "5") = .ok 5 by decide +kernel) n
  · exact exists_read_mixed hc (by decide +kernel)
      (show integerOfBytes (utf8 "7") = .ok 7 by decide +kernel) n

theorem readable_mixed (n : Int) : ∀ name ∈ mixedNames,
    Readable mixedTree ((mixedRepository.seriesPath (mixedUrl n)).child name) := by
  obtain ⟨hcandidate, hread⟩ := read_mixed_file
  obtain ⟨⟨b, hb⟩, c, hc⟩ := mixed_entries n
  obtain ⟨-, -, hnot, hprobe⟩ := link_mixed
  have hfile : Readable mixedTree (mixedPath "a.charm") := by
    refine ⟨lookedUp_of_isCandidate hcandidate, fun _ f hf => ?_⟩
    obtain rfl := Except.error.inj (hread.symm.trans hf)
    rfl
  have hlink : Readable mixedTree (mixedPath "d") := by
    refine ⟨hprobe, fun hcandidate => ?_⟩
    rw [hnot] at hcandidate
    cases hcandidate
  unfold mixedNames
  simp only [List.forall_mem_cons]
  refine ⟨?_, .of_read hb.candidate hb.read, .of_read hc.candidate hc.read, ?_, nofun⟩
  · rwa [child_mixed]
  · rwa [child_mixed]

/-- The charm is in the series at revisions 5 and 7 only. -/
theorem matches_mixed {n m : Int} {name : String} {d : Charm} (hname : name ∈ mixedNames)
    (h : mixedRepository.Matches mixedTree (mixedUrl n) m name d) :
    name = "b.charm" ∧ m = 5 ∨ name = "c.charm" ∧ m = 7 := by
  obtain ⟨⟨b, hb⟩, c, hc⟩ := mixed_entries n
  have hcandidate := h.candidate
  have hread := h.read
  unfold mixedNames at hname
  simp only [List.mem_cons, List.not_mem_nil, or_false] at hname
  rcases hname with rfl | rfl | rfl | rfl
  · rw [child_mixed] at hread
    cases read_mixed_file.2.symm.trans hread
  · exact .inl ⟨rfl, h.revision_unique hb⟩
  · exact .inr ⟨rfl, h.revision_unique hc⟩
  · rw [child_mixed, link_mixed.2.2.1] at hcandidate
    cases hcandidate

/-- What is reported about the first two names, and about all of them. -/
theorem noticesIn_mixed (n : Int) :
    mixedRepository.noticesIn mixedTree (mixedUrl n) ["a.charm", "b.charm"] = [fileNotice]
      ∧ mixedRepository.noticesIn mixedTree (mixedUrl n) mixedNames = [fileNotice, linkNotice] := by
  obtain ⟨hcandidate, hread⟩ := read_mixed_file
  obtain ⟨⟨b, hb⟩, c, hc⟩ := mixed_entries n
  obtain ⟨hlink, habsent, -⟩ := link_mixed
  have hfile : noticeAt? mixedTree (mixedPath "a.charm") = some fileNotice :=
    noticeAt?_eq_some_iff.2 (.inl ⟨hcandidate, _, hread, rfl⟩)
  have hlost : noticeAt? mixedTree (mixedPath "d") = some linkNotice :=
    noticeAt?_eq_some_iff.2 (.inr ⟨hlink, habsent, rfl⟩)
  have hb := hb.noticeAt?_eq_none
  have hc := hc.noticeAt?_eq_none
  rw [child_mixed] at hb hc
  unfold noticesIn mixedNames
  simp only [child_mixed, List.filterMap_cons, List.filterMap_nil, hfile, hb, hc, hlost, and_self]

/-- At revision 7 the charm is found behind the file. At revision 6 it is not there, though it is at
the revisions before and after; then the link is reported as well. -/
theorem get_revisioned_mixed :
    (∃ c, c.revision = 7 ∧ mixedRepository.get mixedTree (mixedUrl 7) = (.ok c, [fileNotice]))
      ∧ mixedRepository.get mixedTree (mixedUrl 6)
        = (.error (.missing (.localCharm "repo" "local:precise/w-6")),
          [fileNotice, linkNotice]) := by
  constructor
  · obtain ⟨-, c, hc⟩ := mixed_entries 7
    have hget := get_revisioned mixedRepository mixedTree (mixedUrl 7) rfl rfl (by decide)
      (listNames_mixed 7) (readable_mixed 7)
    refine ⟨c, hc.revision, ?_⟩
    rw [hget.2.2.1 ["a.charm", "b.charm"] "c.charm" ["d"] c rfl hc, (noticesIn_mixed 7).1]
    intro name hname d hd
    rcases matches_mixed (List.mem_append_left ["c.charm", "d"] hname) hd with ⟨-, h⟩ | ⟨rfl, -⟩
    · cases h
    · simp at hname
  · have hnone : ∀ name ∈ mixedNames, ∀ c,
        ¬ mixedRepository.Matches mixedTree (mixedUrl 6) 6 name c := by
      intro name hname c hc
      rcases matches_mixed hname hc with ⟨-, h⟩ | ⟨-, h⟩
      · cases h
      · cases h
    obtain ⟨hnotices, hshort, -⟩ := (get_revisioned mixedRepository mixedTree (mixedUrl 6) rfl rfl
      (by decide) (listNames_mixed 6) (readable_mixed 6)).2.2.2 hnone
    have hfault := hshort (by decide +kernel)
    have htexts : mixedRepository.path.toString = "repo"
        ∧ (mixedUrl 6).toString = "local:precise/w-6" := by
      decide +kernel
    rw [htexts.1, htexts.2] at hfault
    exact Prod.ext hfault (hnotices.trans (noticesIn_mixed 6).2)

/-- The charm is not there at a revision that cannot be written, and that cannot be said. -/
theorem get_mixed_of_long {n : Nat} (hlong : Nat.pow 10 maxDigits ≤ n) :
    (∀ name ∈ mixedNames, ∀ c, ¬ mixedRepository.Matches mixedTree (mixedUrl n) n name c)
      ∧ (mixedRepository.get mixedTree (mixedUrl n)).1 = .error (.value .tooLongToWrite) := by
  have hseven : 7 < Nat.pow 10 maxDigits := by decide +kernel
  have hlarge : 7 < n := Nat.lt_of_lt_of_le hseven hlong
  have hnone : ∀ name ∈ mixedNames, ∀ c,
      ¬ mixedRepository.Matches mixedTree (mixedUrl n) n name c := by
    intro name hname c hc
    have := matches_mixed hname hc
    omega
  have hwritten : (Identity.url (mixedUrl n)).written = .error (.value .tooLongToWrite) :=
    Identity.written_int_of_long rfl (Int.natCast_nonneg n)
      (hlong.trans_eq (Int.natAbs_natCast n).symm)
  refine ⟨hnone, ?_⟩
  rw [get_of_not_matches (i := .url (mixedUrl n)) rfl rfl (Int.natCast_nonneg n)
    (listNames_mixed n) (readable_mixed n) hnone, notFound, faultOn, hwritten]

/-- At a revision of more than 4300 digits the charm is not in the series, and a lookup does not
fail for want of it. -/
theorem get_longRevision :
    mixedTree.listNames (mixedRepository.seriesPath (mixedUrl (Nat.pow 10 maxDigits : Nat)))
        = .ok mixedNames
      ∧ (∀ name ∈ mixedNames, Readable mixedTree
        ((mixedRepository.seriesPath (mixedUrl (Nat.pow 10 maxDigits : Nat))).child name))
      ∧ (∀ name ∈ mixedNames, ∀ c, ¬ mixedRepository.Matches mixedTree
        (mixedUrl (Nat.pow 10 maxDigits : Nat)) (Nat.pow 10 maxDigits : Nat) name c)
      ∧ (mixedRepository.get mixedTree (mixedUrl (Nat.pow 10 maxDigits : Nat))).1
        = .error (.value .tooLongToWrite)
      ∧ (Fault.value .tooLongToWrite).kind? ≠ some .packageNotFound := by
  obtain ⟨hnone, hget⟩ := get_mixed_of_long (Nat.le_refl (Nat.pow 10 maxDigits))
  exact ⟨listNames_mixed _, readable_mixed _, hnone, hget, nofun⟩

end CharmDepot.DiskRepository
