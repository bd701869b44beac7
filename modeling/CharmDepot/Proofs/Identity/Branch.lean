/-
Identities and the locations of their branches.

A branch is named by words between slashes, and so is an identity. The words of an identity hold no
slash and none of them begins with a tilde, so what a word says does not matter for what it is taken
for: a series may be called `charms` and a name `trunk`. What matters is how many words there are
and which of them is marked as a user (`branchIdentity?_words`).

One branch has many locations (`Url.IsLocation`): on any of the hosts, with or without the trunk if
it is no user's, and with slashes at the end. Each of them is read as the identity without its
revision (`urlOfBranch_of_isLocation`), and so is the one that is written.

# The order of the hosts

Some hosts begin others: behind them stands the mark of a branch, `+branch/`. Those with the mark
are tried first (`branchHosts_order`), so a host without it is the one that applies unless the
branch itself begins with the mark (`branchPath_host_cases`).
-/
import CharmDepot.Identity.Branch
import CharmDepot.Proofs.Identity.Spelling

namespace CharmDepot

open Number Text

-- ================================================================ ends

theorem dropFinal_append_replicate (c : Char) (cs : List Char) (k : Nat) :
    dropFinal c (cs ++ List.replicate k c) = dropFinal c cs := by
  unfold dropFinal
  rw [List.reverse_append, List.reverse_replicate, List.dropWhile_append_of_pos (by simp)]

theorem dropFinal_concat (front : List Char) {last c : Char} (h : last ≠ c) :
    dropFinal c (front ++ [last]) = front ++ [last] := by
  unfold dropFinal
  rw [List.reverse_concat, List.dropWhile_cons_of_neg (by simpa using h), List.reverse_cons,
    List.reverse_reverse]

/-- Words end where the last of them does. -/
theorem exists_joinPieces_concat (separator : Char) (ws : List (List Char)) (word : List Char) :
    ∃ front, joinPieces separator (ws ++ [word]) = front ++ word := by
  refine ⟨joinPieces separator (ws ++ [[]]), ?_⟩
  rw [← joinPieces_append_last, List.nil_append]

/-- Slashes behind words are not part of them. -/
theorem pieces_dropFinal (ws : List (List Char)) {word : List Char} (hne : word ≠ [])
    (hslash : ∀ w ∈ ws ++ [word], '/' ∉ w) (k : Nat) :
    pieces '/' (dropFinal '/' (joinPieces '/' (ws ++ [word]) ++ List.replicate k '/'))
      = ws ++ [word] := by
  obtain ⟨front, hfront⟩ := exists_joinPieces_concat '/' ws word
  obtain ⟨before, last, rfl⟩ : ∃ before last, word = before ++ [last] :=
    ⟨_, _, (List.dropLast_append_getLast hne).symm⟩
  have hlast : last ≠ '/' := by
    rintro rfl
    exact hslash _ (List.mem_append_right _ (List.mem_singleton_self _)) (by simp)
  have hdropped : dropFinal '/' (joinPieces '/' (ws ++ [before ++ [last]]) ++ List.replicate k '/')
      = joinPieces '/' (ws ++ [before ++ [last]]) := by
    rw [dropFinal_append_replicate, hfront, ← List.append_assoc]
    exact dropFinal_concat _ hlast
  rw [hdropped]
  exact pieces_joinPieces (by simp) hslash

-- =========================================================== locations

/-- The words of the branches of an identity. The trunk may be left out if it is no user's. -/
inductive Url.IsBranch (u : Url) : List (List Char) → Prop
  | shared (h : u.user = "") : u.IsBranch ["charms".toList, u.series.toList, u.name.toList]
  | sharedTrunk (h : u.user = "") :
    u.IsBranch ["charms".toList, u.series.toList, u.name.toList, "trunk".toList]
  | owned (h : u.user ≠ "") : u.IsBranch
    ['~' :: u.user.toList, "charms".toList, u.series.toList, u.name.toList, "trunk".toList]

/-- A location of a branch of an identity: the words behind one of the hosts, which a branch of a
user does not need, and any number of slashes. -/
def Url.IsLocation (u : Url) (location : String) : Prop :=
  ∃ host words k, u.IsBranch words ∧ (host ∈ branchHosts ∨ host = "" ∧ u.user ≠ "")
    ∧ location.toList = host.toList ++ joinPieces '/' words ++ List.replicate k '/'

/-- What the path of a branch may begin with on some of the hosts. -/
def branchMark : List Char := "+branch/".toList

/-- Of two hosts, the one that is tried first is the other with the mark of a branch behind it, or
neither of them begins the other. -/
theorem branchHosts_order : branchHosts.Pairwise fun earlier later =>
    earlier.toList = later.toList ++ branchMark
      ∨ ¬ earlier.toList <+: later.toList ∧ ¬ later.toList <+: earlier.toList := by
  decide

theorem branchPath_eq {location : List Char} (h : ¬ ['~'] <+: location) :
    branchPath location
      = (branchHosts.findSome? fun host => dropStart? host.toList location).getD [] := by
  unfold branchPath
  split
  · exact absurd (List.prefix_append ['~'] _) h
  · rfl

/-- No host is taken for a user. -/
theorem tilde_not_begins {host : String} (hhost : host ∈ branchHosts) (rest : List Char) :
    ¬ ['~'] <+: host.toList ++ rest := by
  have hfirst : ∀ host ∈ branchHosts, ∃ c more, host.toList = c :: more ∧ c ≠ '~' := by
    simp [branchHosts]
  obtain ⟨c, more, hchars, hc⟩ := hfirst host hhost
  rw [hchars, List.cons_append, List.cons_prefix_cons]
  exact fun h => hc h.1.symm

/-- Behind a host stands the branch, or the mark of a branch and then the branch. -/
theorem branchPath_host_cases {host : String} (hhost : host ∈ branchHosts) (rest : List Char) :
    branchPath (host.toList ++ rest) = rest
      ∨ ∃ tail, rest = branchMark ++ tail ∧ branchPath (host.toList ++ rest) = tail := by
  obtain ⟨before, after, hhosts⟩ := List.append_of_mem hhost
  have horder := branchHosts_order
  rw [hhosts, List.pairwise_append] at horder
  rw [branchPath_eq (tilde_not_begins hhost rest), hhosts, List.findSome?_append]
  cases hearlier : before.findSome? fun host' => dropStart? host'.toList (host.toList ++ rest) with
  | none =>
    refine .inl ?_
    rw [Option.none_or, List.findSome?_cons, dropStart?_append]
    rfl
  | some tail =>
    -- the location begins with both hosts, so that one of them begins the other
    obtain ⟨earlier, hmem, hdrop⟩ := List.exists_of_findSome?_eq_some hearlier
    have hlocation := dropStart?_eq_some hdrop
    have hmark : earlier.toList = host.toList ++ branchMark := by
      rcases horder.2.2 earlier hmem host List.mem_cons_self with hmark | ⟨hnot, hnot'⟩
      · exact hmark
      · rcases List.prefix_or_prefix_of_prefix ⟨tail, hlocation.symm⟩
          (List.prefix_append host.toList rest) with hbegins | hbegins
        · exact absurd hbegins hnot
        · exact absurd hbegins hnot'
    rw [hmark, List.append_assoc] at hlocation
    exact .inr ⟨tail, List.append_cancel_left hlocation, rfl⟩

/-- Behind a host stands the branch, which does not begin with a plus sign. -/
theorem branchPath_host {host : String} (hhost : host ∈ branchHosts) {c : Char} (hc : c ≠ '+')
    (rest : List Char) : branchPath (host.toList ++ c :: rest) = c :: rest := by
  rcases branchPath_host_cases hhost (c :: rest) with h | ⟨tail, hmark, -⟩
  · exact h
  · exact absurd (List.cons.inj hmark).1 hc

/-- A branch of a user may stand without a host. -/
theorem branchPath_user (rest : List Char) : branchPath ('~' :: rest) = '~' :: rest := rfl

/-- The location that is written is one of those of the branch. -/
theorem Url.isLocation_branchOf (u : Url) : u.IsLocation (branchOf u) := by
  have hlp : "lp:" ∈ branchHosts := List.mem_cons_self
  unfold branchOf
  by_cases huser : u.user = ""
  · refine ⟨"lp:", _, 0, .shared huser, .inl hlp, ?_⟩
    show String.toList (if u.user.isEmpty then _ else _) = _
    rw [huser]
    simp [joinPieces, Identity.series, Identity.name]
  · refine ⟨"lp:", _, 0, .owned huser, .inl hlp, ?_⟩
    show String.toList (if u.user.isEmpty then _ else _) = _
    rw [if_neg (by rwa [String.isEmpty_iff])]
    simp [joinPieces, Identity.series, Identity.name, Identity.user]

-- ============================================================= reading

section Reading
variable {u v : Url} {text location : String}

/-- Reading behind the schema of the store gives identities of the store. -/
theorem Url.schema_of_parse_store {rest : List Char}
    (h : parse (String.ofList ("cs:".toList ++ rest)) = .ok v) : v.schema = storeSchema := by
  obtain ⟨p, hp, -, rfl⟩ := parse_eq_ok_iff.1 h
  have hcut : cutFirst? ':' (String.ofList ("cs:".toList ++ rest)).toList
      = some (storeSchema.toList, rest) := by
    rw [String.toList_ofList]
    have hcolon : ':' ∉ storeSchema.toList := by decide
    exact cutFirst?_append hcolon rest
  rw [IdentityParts.parse_eq, hcut] at hp
  obtain ⟨-, _, _, _, -, -, -, -, rfl⟩ := IdentityParts.parseAfterSchema_eq_ok_iff.1 hp
  exact String.ofList_toList

/-- The words of a branch are told apart by their number and by the mark of a user alone. -/
theorem branchIdentity?_words {words : List (List Char)} (h : u.IsBranch words) :
    branchIdentity? words = some (joinPieces '/'
      ((if u.user.isEmpty then [] else ['~' :: u.user.toList]) ++ [u.series.toList, u.name.toList]))
    := by
  cases h with
  | shared huser => simp [branchIdentity?, huser]
  | sharedTrunk huser => simp [branchIdentity?, huser]
  | owned huser => simp [branchIdentity?, huser]

/-- Where the branch stands in a location, whatever follows it. -/
theorem branchPath_isBranch {words : List (List Char)} (h : u.IsBranch words) {host : String}
    (hhost : host ∈ branchHosts ∨ host = "" ∧ u.user ≠ "") (rest : List Char) :
    branchPath (host.toList ++ (joinPieces '/' words ++ rest)) = joinPieces '/' words ++ rest := by
  rcases hhost with hhost | ⟨rfl, huser⟩
  · cases h with
    | shared => exact branchPath_host hhost (c := 'c') (by decide) _
    | sharedTrunk => exact branchPath_host hhost (c := 'c') (by decide) _
    | owned => exact branchPath_host hhost (c := '~') (by decide) _
  · cases h with
    | shared hnone => exact absurd hnone huser
    | sharedTrunk hnone => exact absurd hnone huser
    | owned => exact branchPath_user _

/-- The words of an identity that was read: no slash is in them, and there are a series and a
name. -/
theorem Url.words_of_parse (hu : parse text = .ok u) :
    '/' ∉ u.user.toList ∧ '/' ∉ u.series.toList ∧ '/' ∉ u.name.toList
      ∧ u.series ≠ "" ∧ u.name ≠ "" := by
  obtain ⟨p, hp, hseries, rfl⟩ := parse_eq_ok_iff.1 hu
  have hframed := (IdentityParts.canonical_of_parse hp).toFramed
  have hname := isWord_of_isName hframed.name
  obtain ⟨first, rest, heq, -⟩ := hname.begins
  have huser : '/' ∉ p.user := by
    by_cases hnone : p.user = []
    · rw [hnone]
      exact List.not_mem_nil
    · exact noSlash_of_isUser (hframed.user hnone).1
  unfold IdentityParts.url
  simp only [String.toList_ofList, ne_eq, String.ofList_eq_empty_iff]
  exact ⟨huser, (isWord_of_isSeries (hframed.series hseries)).noSlash, hname.noSlash, hseries,
    by rw [heq]; exact List.cons_ne_nil _ _⟩

/-- The branch of an identity that was read is found again between its slashes. -/
theorem pieces_isBranch (hu : Url.parse text = .ok u) {words : List (List Char)}
    (h : u.IsBranch words) (k : Nat) :
    pieces '/' (dropFinal '/' (joinPieces '/' words ++ List.replicate k '/')) = words := by
  obtain ⟨huser, hseries, hname, -, hnamed⟩ := Url.words_of_parse hu
  cases h with
  | shared =>
    apply pieces_dropFinal ["charms".toList, u.series.toList]
    · simpa using hnamed
    · simpa using ⟨hseries, hname⟩
  | sharedTrunk =>
    apply pieces_dropFinal ["charms".toList, u.series.toList, u.name.toList]
    · decide
    · simpa using ⟨hseries, hname⟩
  | owned =>
    apply pieces_dropFinal
      ['~' :: u.user.toList, "charms".toList, u.series.toList, u.name.toList]
    · decide
    · simpa using ⟨huser, hseries, hname⟩

/-- An identity that was read can lose its revision. -/
theorem Url.withRevision_unset (hu : parse text = .ok u) :
    u.withRevision .unset = .ok u.unrevisioned := by
  obtain ⟨p, hp, hseries, rfl⟩ := parse_eq_ok_iff.1 hu
  have hframed := (IdentityParts.canonical_of_parse hp).toFramed.atRevision (-1)
  exact IdentityParts.make_eq_ok hframed hseries (Int.le_refl _)

/-- An identity of the store that was read is read from its words, less its revision. -/
theorem parse_words (hu : Url.parse text = .ok u) (hschema : u.schema = storeSchema) :
    Url.parse (String.ofList ("cs:".toList ++ joinPieces '/'
      ((if u.user.isEmpty then [] else ['~' :: u.user.toList])
        ++ [u.series.toList, u.name.toList]))) = .ok u.unrevisioned := by
  have hrevised : u.unrevisioned.IsRevised := ⟨text, u, -1, hu, Url.withRevision_unset hu⟩
  have hread : Url.parse u.unrevisioned.toString = .ok u.unrevisioned := hrevised.parse_toString
  obtain ⟨-, -, -, hseries, -⟩ := Url.words_of_parse hu
  have hunset : Revision.unset.isWritten = false := by
    rw [Revision.unset, isWritten_int]
    rfl
  have hempty (s : String) : s.toList.isEmpty = s.isEmpty := by
    rw [Bool.eq_iff_iff]
    simp
  have hwritten : u.unrevisioned.toString = String.ofList ("cs:".toList ++ joinPieces '/'
      ((if u.user.isEmpty then [] else ['~' :: u.user.toList])
        ++ [u.series.toList, u.name.toList])) := by
    unfold Url.toString Url.unrevisioned identityChars
    dsimp only
    rw [hschema, hunset, hempty, hempty]
    simp [hseries, storeSchema]
  rw [← hwritten]
  exact hread

/-- Every location of the branch of an identity of the store that was read is read as this identity,
less its revision. -/
theorem urlOfBranch_of_isLocation (hu : Url.parse text = .ok u) (hschema : u.schema = storeSchema)
    (h : u.IsLocation location) : urlOfBranch location = .ok u.unrevisioned := by
  obtain ⟨host, words, k, hbranch, hhost, hlocation⟩ := h
  unfold urlOfBranch
  rw [hlocation, List.append_assoc, branchPath_isBranch hbranch hhost, pieces_isBranch hu hbranch,
    branchIdentity?_words hbranch]
  exact parse_words hu hschema

theorem parse_of_urlOfBranch (h : urlOfBranch location = .ok v) :
    ∃ text, Url.parse text = .ok v ∧ v.schema = storeSchema := by
  unfold urlOfBranch at h
  split at h
  · exact ⟨_, h, Url.schema_of_parse_store h⟩
  · cases h

end Reading

/-- **Locations of branches.** The location of the branch of an identity of the store is read as
that identity without its revision, and so is every other location of this branch. Whatever location
is read gives an identity of the store, whose own location is read as the same identity without a
revision; so two locations are of one branch if and only if their identities differ in the revision
at most. -/
theorem branch_roundTrip :
    (∀ text u, Url.parse text = .ok u → u.schema = storeSchema →
        u.withRevision (.int (-1)) = .ok u.unrevisioned
          ∧ urlOfBranch (branchOf u) = .ok u.unrevisioned
          ∧ ∀ location, u.IsLocation location → urlOfBranch location = .ok u.unrevisioned)
      ∧ (∀ location v, urlOfBranch location = .ok v →
        v.schema = storeSchema ∧ v.withRevision (.int (-1)) = .ok v.unrevisioned
          ∧ urlOfBranch (branchOf v) = .ok v.unrevisioned)
      ∧ ∀ location location' v v', urlOfBranch location = .ok v → urlOfBranch location' = .ok v' →
        (branchOf v = branchOf v' ↔ v.unrevisioned = v'.unrevisioned) := by
  refine ⟨fun text u hu hschema => ?_, fun location v h => ?_, ?_⟩
  · exact ⟨Url.withRevision_unset hu, urlOfBranch_of_isLocation hu hschema u.isLocation_branchOf,
      fun location => urlOfBranch_of_isLocation hu hschema⟩
  · obtain ⟨text, hv, hschema⟩ := parse_of_urlOfBranch h
    exact ⟨hschema, Url.withRevision_unset hv,
      urlOfBranch_of_isLocation hv hschema v.isLocation_branchOf⟩
  · intro location location' v v' h h'
    obtain ⟨text, hv, hschema⟩ := parse_of_urlOfBranch h
    obtain ⟨text', hv', hschema'⟩ := parse_of_urlOfBranch h'
    have hread := urlOfBranch_of_isLocation hv hschema v.isLocation_branchOf
    have hread' := urlOfBranch_of_isLocation hv' hschema' v'.isLocation_branchOf
    constructor
    · intro hsame
      rw [hsame, hread'] at hread
      exact (Except.ok.inj hread).symm
    · intro hsame
      have hunrevisioned (w : Url) : branchOf w = branchOf w.unrevisioned := rfl
      rw [hunrevisioned v, hsame, ← hunrevisioned v']

/-- A user, a series and a name that imitate the words around them, and another location of a branch
whose identity has a revision. -/
theorem branch_roundTrip_imitating :
    (∃ u, Url.parse "cs:~trunk/charms/charms-3" = .ok u
        ∧ branchOf u = "lp:~trunk/charms/charms/charms/trunk"
        ∧ urlOfBranch (branchOf u) = .ok u.unrevisioned)
      ∧ ∃ v, urlOfBranch "https://launchpad.net/charms/trunk/charms-7/trunk//" = .ok v
        ∧ branchOf v = "lp:charms/trunk/charms" ∧ v.revision = .int 7
        ∧ urlOfBranch (branchOf v) = .ok v.unrevisioned
        ∧ urlOfBranch "bzr+ssh://bazaar.launchpad.net/+branch/charms/trunk/charms/"
          = .ok v.unrevisioned := by
  constructor
  · have hu : Url.parse "cs:~trunk/charms/charms-3"
        = .ok ⟨"cs", "trunk", "charms", "charms", .int 3⟩ :=
      Url.parse_eq_ok_iff.2 ⟨⟨"cs".toList, "trunk".toList, "charms".toList, "charms".toList, 3⟩,
        rfl, by decide, rfl⟩
    exact ⟨_, hu, rfl, (branch_roundTrip.1 _ _ hu rfl).2.1⟩
  · have hv : urlOfBranch "https://launchpad.net/charms/trunk/charms-7/trunk//"
        = .ok ⟨"cs", "", "trunk", "charms", .int 7⟩ :=
      Url.parse_eq_ok_iff.2 ⟨⟨"cs".toList, [], "trunk".toList, "charms".toList, 7⟩,
        rfl, by decide, rfl⟩
    obtain ⟨text, hparse, hschema⟩ := parse_of_urlOfBranch hv
    refine ⟨_, hv, rfl, rfl, (branch_roundTrip.2.1 _ _ hv).2.2,
      (branch_roundTrip.1 _ _ hparse hschema).2.2 _ ?_⟩
    exact ⟨"bzr+ssh://bazaar.launchpad.net/+branch/", _, 1, .shared rfl, .inl (by decide), rfl⟩

end CharmDepot
