/-
Where charms are kept.

A charm is kept under the file name of the written form of its identity at its revision. File names
are a prefix code, so each is that of one text (`fileName_injective`), and nothing that separates
names of a path is written in one (`isPlaceChar_of_mem_fileName`): a place is one entry of the cache
directory.

That no two identities share a place is then a matter of their written forms. One of them ends in
the last hyphen and the revision, and no revision has a hyphen; so two forms that are the same have
the same revision and the same text in front of it, which is read as the rest of either identity
(`Url.IsRevised.eq_of_toString_eq`). This holds also for the names that end in a line feed, whose
written form at a revision is read as no identity.
-/
import CharmDepot.Proofs.Identity.Written
import CharmDepot.Proofs.Store.Catalog

namespace CharmDepot

open Number Text

-- ========================================================= file names

/-- What file names are made of: letters and numbers, full stops, underscores and hyphens. -/
def IsPlaceChar (c : Char) : Prop :=
  isAlphaNumeric c = true ∨ c ∈ ['.', '_', '-']

theorem isAlphaNumeric_hexDigit (d : Nat) : isAlphaNumeric (hexDigit d) = true := by
  have h : ∀ r < 16, isAlphaNumeric (hexDigit r) = true := by decide +kernel
  have hmod : hexDigit (d % 16) = hexDigit d := by simp [hexDigit]
  rw [← hmod]
  exact h _ (Nat.mod_lt _ (by decide))

theorem isAlphaNumeric_of_mem_hexDigits {n : Nat} {c : Char} (h : c ∈ hexDigits n) :
    isAlphaNumeric c = true := by
  induction n using Nat.strongRecOn with
  | _ n ih =>
    unfold hexDigits at h
    split at h
    · cases h
    · rw [List.mem_append, List.mem_singleton] at h
      rcases h with hhigher | rfl
      · exact ih (n / 16) (by omega) hhigher
      · exact isAlphaNumeric_hexDigit _

theorem isAlphaNumeric_of_mem_hexPadded {width n : Nat} {c : Char} (h : c ∈ hexPadded width n) :
    isAlphaNumeric c = true := by
  unfold hexPadded at h
  rcases List.mem_append.1 h with hzero | hdigit
  · rw [(List.mem_replicate.1 hzero).2]
    decide +kernel
  · exact isAlphaNumeric_of_mem_hexDigits hdigit

theorem isPlaceChar_of_mem_fileNameChar {c d : Char} (h : d ∈ fileNameChar c) : IsPlaceChar d := by
  unfold fileNameChar at h
  split at h
  · rename_i halone
    rw [List.mem_singleton] at h
    subst h
    unfold isFileNameChar at halone
    simp only [Bool.or_eq_true, beq_iff_eq] at halone
    rcases halone with (hletter | rfl) | rfl
    · exact .inl hletter
    · exact .inr (by simp)
    · exact .inr (by simp)
  · rw [List.cons_append, List.mem_cons, List.mem_append, List.mem_singleton] at h
    rcases h with rfl | hdigit | rfl
    · exact .inr (by simp)
    · exact .inl (isAlphaNumeric_of_mem_hexPadded hdigit)
    · exact .inr (by simp)

theorem isPlaceChar_of_mem_fileName {s : String} {c : Char} (h : c ∈ (fileName s).toList) :
    IsPlaceChar c := by
  unfold fileName at h
  rw [String.toList_ofList, List.mem_flatMap] at h
  obtain ⟨d, -, hd⟩ := h
  exact isPlaceChar_of_mem_fileNameChar hd

theorem not_isPlaceChar_slash : ¬ IsPlaceChar '/' := by
  rintro (h | h)
  · have hslash : isAlphaNumeric '/' = false := by decide +kernel
    rw [hslash] at h
    cases h
  · exact absurd h (by decide)

-- ============================================================= places

/-- A text without slashes that is a name leads from a directory to its entry of that name. -/
theorem FilePath.join_eq_child (p : FilePath) {name : String} (hslash : '/' ∉ name.toList)
    (hname : isName name.toList = true) : p / name = p.child name := by
  have hslashes : slashesOf name.toList = 0 := by
    have hnone : name.toList.takeWhile (· == '/') = [] := by
      cases hchars : name.toList with
      | nil => rfl
      | cons c cs =>
        have hc : c ≠ '/' := fun h => hslash (by simp [hchars, h])
        simp [hc]
    unfold slashesOf
    rw [hnone]
    rfl
  have hnames : namesOf name.toList = [name] := by
    unfold namesOf
    rw [pieces_of_not_mem hslash, List.filter_singleton, hname]
    simp
  show join p name = p.child name
  unfold join parse
  rw [hslashes, hnames]
  rfl

namespace Store

theorem slash_not_mem_cacheName (i : Identity) : '/' ∉ (cacheName i).toList := by
  unfold cacheName
  rw [String.toList_append, List.mem_append, not_or]
  exact ⟨fun h => not_isPlaceChar_slash (isPlaceChar_of_mem_fileName h), by decide⟩

/-- A charm is kept in the cache directory itself, under a name that is one entry. -/
theorem cachePath_eq_join (cache : FilePath) (i : Identity) :
    cachePath cache i = cache / cacheName i := by
  have hentry := isEntryName_cacheName i
  refine (FilePath.join_eq_child cache (slash_not_mem_cacheName i) ?_).symm
  have hempty : (cacheName i).toList ≠ [] := by
    rw [Ne, String.toList_eq_nil_iff]
    exact hentry.ne_empty
  have hhere : (cacheName i).toList ≠ ['.'] := fun h =>
    hentry.ne_here (String.toList_inj.1 h)
  simp [FilePath.isName, hempty, hhere]

theorem cachePath_inj {cache : FilePath} {i j : Identity} :
    cachePath cache i = cachePath cache j ↔ i.toString = j.toString := by
  refine ⟨fun h => ?_, fun h => by unfold cachePath; rw [h]⟩
  have hnames := List.append_cancel_left (FilePath.mk.inj h).2
  have hname : cacheName i = cacheName j := List.singleton_inj.1 hnames
  exact fileName_injective ((String.append_left_inj _).1 hname)

end Store

-- ========================================================= identities

namespace Url

variable {u v : Url}

/-- An identity that was read can be put at any revision. -/
theorem exists_withRevision {text : String} (hu : parse text = .ok u) (n : Nat) :
    ∃ u', u.withRevision (.int n) = .ok u' ∧ u'.IsRevised ∧ u'.revision = .int n := by
  obtain ⟨p, hp, hseries, rfl⟩ := parse_eq_ok_iff.1 hu
  have hframed := (IdentityParts.canonical_of_parse hp).toFramed.atRevision (n : Int)
  have hmade : p.url.withRevision (.int n) = .ok (p.atRevision n).url :=
    IdentityParts.make_eq_ok hframed hseries (Int.le_trans (by decide) (Int.natCast_nonneg n))
  exact ⟨_, hmade, ⟨text, p.url, n, hu, hmade⟩, rfl⟩

/-- Identities at a revision that are written in the same way are the same. -/
theorem IsRevised.eq_of_toString_eq (hu : u.IsRevised) (hv : v.IsRevised) {m n : Nat}
    (hm : u.revision = .int m) (hn : v.revision = .int n) (h : u.toString = v.toString) :
    u = v := by
  have hchars : u.unrevisioned.toString.toList ++ '-' :: decimal m
      = v.unrevisioned.toString.toList ++ '-' :: decimal n := by
    rw [← toList_toString_int, ← toList_toString_int, ← hm, ← hn]
    exact congrArg String.toList h
  have hfront := eq_of_append_hyphen (hyphen_not_mem_decimal m) (hyphen_not_mem_decimal n) hchars
  rw [hfront] at hchars
  have hdigits : decimal m = decimal n := (List.cons.inj (List.append_cancel_left hchars)).2
  have hrevision : u.revision = v.revision := by
    rw [hm, hn, ← decimalValue_decimal m, hdigits, decimalValue_decimal]
  obtain ⟨hschema, huser, hseries, hname⟩ :=
    Shelfmark.mk.inj ((hu.shelfmark_eq_iff hv).2 (String.toList_inj.1 hfront))
  cases u
  cases v
  congr

end Url

-- ============================================================== caches

/-- **Places of charms.** Two texts have never the same file name, and a file name is made of
letters, numbers, full stops, underscores and hyphens, with no slash. So a charm is kept in the
cache directory itself; and two identities that were read, put at any revisions, share a place only
if they are the same identity at the same revision. -/
theorem Store.cachePath_collisionFree {text text' : String} {u v : Url}
    (hu : Url.parse text = .ok u) (hv : Url.parse text' = .ok v) (m n : Nat) (cache : FilePath) :
    (∀ s t, fileName s = fileName t → s = t)
      ∧ (∀ s, ∀ c ∈ (fileName s).toList, IsPlaceChar c ∧ c ≠ '/')
      ∧ (∀ i : Identity, cachePath cache i = cache / (fileName i.toString ++ charmSuffix)
        ∧ (cachePath cache i).parent = cache)
      ∧ ∃ u' v', u.withRevision (.int m) = .ok u' ∧ v.withRevision (.int n) = .ok v'
        ∧ (cachePath cache u' = cachePath cache v' → u' = v') := by
  refine ⟨fun s t h => fileName_injective h, ?_, ?_, ?_⟩
  · intro s c hc
    have hplace := isPlaceChar_of_mem_fileName hc
    exact ⟨hplace, fun hslash => not_isPlaceChar_slash (hslash ▸ hplace)⟩
  · intro i
    refine ⟨cachePath_eq_join cache i, ?_⟩
    unfold cachePath FilePath.child FilePath.parent
    rw [List.dropLast_concat]
  · obtain ⟨u', hmadeU, hrevisedU, hm⟩ := Url.exists_withRevision hu m
    obtain ⟨v', hmadeV, hrevisedV, hn⟩ := Url.exists_withRevision hv n
    exact ⟨u', v', hmadeU, hmadeV,
      fun h => hrevisedU.eq_of_toString_eq hrevisedV hm hn (cachePath_inj.1 h)⟩

/-- Two charms whose names differ in a line feed, at the same revision, have two places. -/
theorem Store.cachePath_collisionFree_lineFeed :
    ∃ u v u' v', Url.parse "cs:precise/w\n" = .ok u ∧ Url.parse "cs:precise/w" = .ok v
      ∧ u.withRevision (.int 3) = .ok u' ∧ v.withRevision (.int 3) = .ok v'
      ∧ cachePath ⟨0, ["c"]⟩ u' = ⟨0, ["c", "cs_3a_precise_2f_w_0a_-3.charm"]⟩
      ∧ cachePath ⟨0, ["c"]⟩ v' = ⟨0, ["c", "cs_3a_precise_2f_w-3.charm"]⟩ ∧ u' ≠ v'
      ∧ (cachePath ⟨0, ["c"]⟩ u' = cachePath ⟨0, ["c"]⟩ v' → u' = v') := by
  have hu : Url.parse "cs:precise/w\n" = .ok ⟨"cs", "", "precise", "w\n", .int (-1)⟩ :=
    Url.parse_eq_ok_iff.2 ⟨⟨"cs".toList, [], "precise".toList, "w\n".toList, -1⟩, rfl, by decide,
      rfl⟩
  have hv : Url.parse "cs:precise/w" = .ok ⟨"cs", "", "precise", "w", .int (-1)⟩ :=
    Url.parse_eq_ok_iff.2 ⟨⟨"cs".toList, [], "precise".toList, "w".toList, -1⟩, rfl, by decide,
      rfl⟩
  obtain ⟨-, -, -, u', v', hmadeU, hmadeV, hinj⟩ :=
    cachePath_collisionFree hu hv 3 3 ⟨0, ["c"]⟩
  obtain ⟨-, rfl⟩ := Url.withRevision_eq_ok hmadeU
  obtain ⟨-, rfl⟩ := Url.withRevision_eq_ok hmadeV
  refine ⟨_, _, _, _, hu, hv, hmadeU, hmadeV, ?_, ?_, by simp, hinj⟩
  · decide +kernel
  · decide +kernel

end CharmDepot
