/-
Bundles packed in an archive and read back.

A name in the directory of a bundle stands for an entry if it is not hidden and leads to a file. The
bundle is packed exactly if the system can say of every name what it leads to, and an archive has
room for the years of the files (`packed_eq_none_iff`). Then the two files of the bundle are among
the entries (`lastContent?_packed`), and the archive gives the same data back, and of the text about
the bundle the characters of the file, as they are (`readArchive_pack`).

# Line ends

Reading a directory makes one line feed of every line end, reading an archive does not. So a text
comes back as the directory gave it if and only if there is no carriage return in it;
`readArchive_pack_crlf` shows one that does not.
-/
import CharmDepot.Bundle.Basic
import CharmDepot.Proofs.Charm.Packing
import CharmDepot.Proofs.FileTree.Files

namespace CharmDepot

open Text

-- =========================================================== line ends

theorem carriageReturn_not_mem_unifyLineEnds (cs : List Char) : '\r' ∉ unifyLineEnds cs := by
  fun_induction unifyLineEnds cs with
  | case1 => exact List.not_mem_nil
  | case2 rest ih => simpa using ih
  | case3 rest _ ih => simpa using ih
  | case4 c rest hpair hreturn ih =>
    rw [List.mem_cons, not_or]
    exact ⟨fun h => hreturn h.symm, ih⟩

/-- A text without carriage returns is as it is, and no other one is. -/
theorem unifyLineEnds_eq_self_iff (cs : List Char) : unifyLineEnds cs = cs ↔ '\r' ∉ cs := by
  constructor
  · intro h
    rw [← h]
    exact carriageReturn_not_mem_unifyLineEnds cs
  · intro h
    fun_induction unifyLineEnds cs with
    | case1 => rfl
    | case2 rest ih => exact absurd List.mem_cons_self h
    | case3 rest _ ih => exact absurd List.mem_cons_self h
    | case4 c rest hpair hreturn ih => rw [ih fun hmem => h (List.mem_cons_of_mem _ hmem)]

namespace Bundle

variable {t : FileTree} {p : FilePath} {b : Bundle} {s : Surroundings}

-- =========================================================== directories

theorem readPart_eq_ok_iff {what : Unreadable} {bytes : Bytes} :
    readPart t p what = .ok bytes ↔ ∃ content, t.fileContent p = .ok content
      ∧ content.bytes = bytes := by
  unfold readPart
  cases t.fileContent p with
  | ok content => simp
  | error f =>
    dsimp only
    split
    · simp
    · simp

/-- What a directory is read from: two files, of which one holds the data and the other one a
text. -/
theorem readDirectory_eq_ok_iff :
    readDirectory t p = .ok b ↔ ∃ raw about data text,
      t.fileContent (p.child "bundle.yaml") = .ok raw
        ∧ t.fileContent (p.child "README.md") = .ok about
        ∧ Deployment.read (.bytes raw.bytes) = .ok data ∧ textOf about.bytes = .ok text
        ∧ b = ⟨.directory, p, String.ofList (unifyLineEnds text.toList), data⟩ := by
  unfold readDirectory
  simp only [Outcome.bind_eq_ok, readPart_eq_ok_iff]
  constructor
  · intro h
    obtain ⟨_, ⟨raw, hraw, rfl⟩, data, hdata, _, ⟨about, habout, rfl⟩, text, htext, hb⟩ := h
    exact ⟨raw, about, data, text, hraw, habout, hdata, htext, (Except.ok.inj hb).symm⟩
  · intro h
    obtain ⟨raw, about, data, text, hraw, habout, hdata, htext, rfl⟩ := h
    exact ⟨_, ⟨raw, hraw, rfl⟩, data, hdata, _, ⟨about, habout, rfl⟩, text, htext, rfl⟩

-- ============================================================= packing

/-- A name in the directory of a bundle that is not hidden. -/
structure Lists (b : Bundle) (t : FileTree) (name : String) : Prop where
  mem : ∃ dir, t.directory b.path = .ok dir ∧ name ∈ t.names dir
  visible : isHiddenName name = false

/-- Nothing keeps a bundle from being packed: the system can say what every name that is not hidden
leads to, and an archive has room for the year of every file. -/
structure Packable (b : Bundle) (s : Surroundings) (t : FileTree) : Prop where
  known : ∀ name, b.Lists t name → ∃ found?, t.probe (b.path.child name) = .ok found?
  dated : ∀ name content, b.Lists t name → t.fileContent (b.path.child name) = .ok content →
    Datable (s.changed (b.path.child name))

/-- The items of a bundle: names that lead to files, and names that nothing can be said of. -/
theorem mem_itemsToPack_iff {names : List String} {name : String} {o : Outcome Blob} :
    (name, o) ∈ b.itemsToPack t s names ↔ (name ∈ names ∧ isHiddenName name = false)
      ∧ ((∃ f, t.probe (b.path.child name) = .error f ∧ o = .error f)
        ∨ ∃ content, t.fileContent (b.path.child name) = .ok content
          ∧ o = s.fileEntry t (b.path.child name)) := by
  unfold itemsToPack
  simp only [List.mem_filterMap, List.mem_filter, Bool.not_eq_true']
  constructor
  · intro h
    obtain ⟨name', hname, h⟩ := h
    split at h
    · rename_i f hprobe
      obtain ⟨rfl, rfl⟩ := Prod.mk.inj (Option.some.inj h)
      exact ⟨hname, .inl ⟨f, hprobe, rfl⟩⟩
    · rename_i content hprobe
      obtain ⟨rfl, rfl⟩ := Prod.mk.inj (Option.some.inj h)
      exact ⟨hname, .inr ⟨content, FileTree.probe_eq_file_iff.1 hprobe, rfl⟩⟩
    · cases h
  · intro h
    obtain ⟨hname, ⟨f, hprobe, rfl⟩ | ⟨content, hcontent, rfl⟩⟩ := h
    · exact ⟨name, hname, by rw [hprobe]⟩
    · exact ⟨name, hname, by rw [FileTree.probe_eq_file_iff.2 hcontent]⟩

section Directory
variable {dir : List String} (hdir : t.directory b.path = .ok dir)
include hdir

theorem lists_iff {name : String} :
    b.Lists t name ↔ name ∈ t.names dir ∧ isHiddenName name = false := by
  constructor
  · intro h
    obtain ⟨⟨dir', hdir', hmem⟩, hvisible⟩ := h
    obtain rfl := Except.ok.inj (hdir.symm.trans hdir')
    exact ⟨hmem, hvisible⟩
  · intro h
    exact ⟨⟨dir, hdir, h.1⟩, h.2⟩

theorem packed_eq : b.packed t s = packFiles (b.itemsToPack t s (t.names dir)) := by
  unfold packed
  rw [FileTree.listNames_of_directory hdir]

/-- Packing goes to its end exactly if nothing keeps it from that. -/
theorem packed_eq_none_iff : (b.packed t s).2 = none ↔ b.Packable s t := by
  rw [packed_eq hdir, packFiles_eq_none_iff]
  constructor
  · intro h
    refine ⟨fun name hname => ?_, fun name content hname hcontent => ?_⟩
    · cases hprobe : t.probe (b.path.child name) with
      | ok found? => exact ⟨found?, rfl⟩
      | error f =>
        obtain ⟨blob, hblob⟩ :=
          h _ (mem_itemsToPack_iff.2 ⟨(lists_iff hdir).1 hname, .inl ⟨f, hprobe, rfl⟩⟩)
        cases hblob
    · obtain ⟨blob, hblob⟩ :=
        h _ (mem_itemsToPack_iff.2 ⟨(lists_iff hdir).1 hname, .inr ⟨content, hcontent, rfl⟩⟩)
      exact (dated_eq_ok_iff.1 hblob).2
  · intro h item hitem
    obtain ⟨name, o⟩ := item
    obtain ⟨hname, ⟨f, hprobe, -⟩ | ⟨content, hcontent, rfl⟩⟩ := mem_itemsToPack_iff.1 hitem
    · obtain ⟨found?, hfound⟩ := h.known name ((lists_iff hdir).2 hname)
      cases hfound.symm.trans hprobe
    · exact ⟨content, dated_eq_ok_iff.2
        ⟨hcontent, h.dated name content ((lists_iff hdir).2 hname) hcontent⟩⟩

end Directory

/-- A file of the directory whose name is not hidden is packed. -/
theorem lastContent?_packed {name : String} (hname : FileTree.IsEntryName name)
    (hvisible : isHiddenName name = false) {content : Blob}
    (hcontent : t.fileContent (b.path.child name) = .ok content)
    (hnone : (b.packed t s).2 = none) :
    lastContent? name (b.packed t s).1 = some content.bytes := by
  obtain ⟨dir, hdir, hmem⟩ := FileTree.exists_directory_of_fileContent hname hcontent
  have hitem : (name, s.fileEntry t (b.path.child name)) ∈ b.itemsToPack t s (t.names dir) :=
    mem_itemsToPack_iff.2 ⟨⟨hmem, hvisible⟩, .inr ⟨content, hcontent, rfl⟩⟩
  rw [packed_eq hdir] at hnone ⊢
  obtain ⟨blob, hblob⟩ := packFiles_eq_none_iff.1 hnone _ hitem
  have hentry : s.fileEntry t (b.path.child name) = .ok content := by
    unfold Surroundings.fileEntry at hblob ⊢
    rwa [dated_of_datable (dated_eq_ok_iff.1 hblob).2]
  rw [packFiles_of_none hnone]
  rw [hentry] at hitem
  refine lastContent?_map_of_mem Prod.fst (fun item => (item.2.toOption.getD default).bytes) hitem
    fun other hother hsame => ?_
  -- what goes in under a name is decided by the name
  obtain ⟨name', o⟩ := other
  obtain rfl : name' = name := hsame
  obtain ⟨-, ⟨f, hprobe, -⟩ | ⟨_, -, rfl⟩⟩ := mem_itemsToPack_iff.1 hother
  · cases (FileTree.probe_eq_file_iff.2 hcontent).symm.trans hprobe
  · rw [hentry]

/-- The archive of a bundle is read as a bundle with the same data, and with the text of the file
as it is. -/
theorem ofBlob_packed {raw about : Blob} {data : Deployment} {text : String}
    (hraw : t.fileContent (b.path.child "bundle.yaml") = .ok raw)
    (habout : t.fileContent (b.path.child "README.md") = .ok about)
    (hdata : Deployment.read (.bytes raw.bytes) = .ok data) (htext : textOf about.bytes = .ok text)
    (hnone : (b.packed t s).2 = none) (packing : Packing) (target : FilePath) :
    ofBlob target (.packed packing (b.packed t s).1) = .ok ⟨.archive, target, text, data⟩ := by
  have hyaml := lastContent?_packed (FileTree.isEntryName_of_length (by decide))
    (by decide +kernel) hraw hnone
  have hmd := lastContent?_packed (FileTree.isEntryName_of_length (by decide))
    (by decide +kernel) habout hnone
  unfold ofBlob Blob.entries?
  dsimp only
  rw [hyaml, hmd]
  dsimp only
  rw [hdata, htext]
  rfl

/-- **Packing and reading back.** A bundle that was read from a directory is packed exactly if the
system can say what each of its names leads to and an archive has room for the years of its files.
Its archive is then read with the same data, and with the text that is in the file; that is the text
of the bundle if and only if it has no carriage returns. If the archive is written to a file, then
the tree is the one in which that file was opened, and it is no file of the bundle. -/
theorem readArchive_pack (s : Surroundings) (h : readDirectory t p = .ok b) :
    ((b.packed t s).2 = none ↔ b.Packable s t)
      ∧ ∃ about text, t.fileContent (p.child "README.md") = .ok about
        ∧ textOf about.bytes = .ok text
        ∧ (b.Packable s t → ∃ entries, b.packed t s = (entries, none)
          ∧ (∀ packing target, ofBlob target (.packed packing entries)
            = .ok ⟨.archive, target, text, b.data⟩)
          ∧ ∀ t₀ target q, t₀.OpensAt target q → t = t₀.put q (.file (.plain [])) →
            (∀ name e, t.locate true (p.child name) ≠ .ok (.found q e)) →
            ∃ t', Runs (b.pack target s) t₀ (.ok ()) t'
              ∧ readArchive t' target = .ok ⟨.archive, target, text, b.data⟩)
        ∧ (text = b.readme ↔ '\r' ∉ text.toList) := by
  obtain ⟨raw, about, data, text, hraw, habout, hdata, htext, rfl⟩ := readDirectory_eq_ok_iff.1 h
  set b : Bundle := ⟨.directory, p, String.ofList (unifyLineEnds text.toList), data⟩
  obtain ⟨dir, hdir, -⟩ := FileTree.exists_directory_of_fileContent
    (FileTree.isEntryName_of_length (by decide)) hraw
  have hiff : (b.packed t s).2 = none ↔ b.Packable s t := packed_eq_none_iff hdir
  refine ⟨hiff, about, text, habout, htext, fun hpackable => ?_, ?_⟩
  · have hnone := hiff.2 hpackable
    have hread := ofBlob_packed (b := b) hraw habout hdata htext hnone
    have hpacked : b.packed t s = ((b.packed t s).1, none) := Prod.ext rfl hnone
    refine ⟨_, hpacked, hread, fun t₀ target q hplace ht _ => ?_⟩
    have hopen := Edit.runs_putFile hplace (.plain [])
    rw [← ht] at hopen
    obtain ⟨t', hwrite, hcontent⟩ := Edit.runs_writeArchive (b.packed t s).1 hopen
    refine ⟨t', ?_, ?_⟩
    · unfold pack
      rw [Runs.bind_of_ok hopen, Runs.bind_of_ok (Runs.get_iff.2 ⟨rfl, rfl⟩), hpacked]
      exact hwrite
    · unfold readArchive
      rw [hcontent]
      exact hread .deflated target
  · have hunified : b.readme = String.ofList (unifyLineEnds text.toList) := rfl
    rw [hunified, ← unifyLineEnds_eq_self_iff, ← String.toList_inj, String.toList_ofList]
    exact eq_comm

-- ========================================================== an example

/-- A directory with a bundle of no services, and a text of two lines that a carriage return and a
line feed divide. -/
def crlfTree : FileTree where
  entries := [(["b"], .dir), (["b", "bundle.yaml"], .file (.plain (utf8 "services: \x7b\x7d\n"))),
    (["b", "README.md"], .file (.plain (utf8 "a\r\nb")))]

theorem directory_crlfTree : crlfTree.directory ⟨0, ["b"]⟩ = .ok ["b"] :=
  FileTree.directory_of_descends (by decide) rfl

theorem fileContent_crlfTree :
    crlfTree.fileContent (FilePath.child ⟨0, ["b"]⟩ "bundle.yaml")
        = .ok (.plain (utf8 "services: \x7b\x7d\n"))
      ∧ crlfTree.fileContent (FilePath.child ⟨0, ["b"]⟩ "README.md")
        = .ok (.plain (utf8 "a\r\nb")) := by
  constructor
  · exact FileTree.fileContent_child directory_crlfTree (by decide) rfl
  · exact FileTree.fileContent_child directory_crlfTree (by decide) rfl

/-- There is nothing but the two files in the directory. -/
theorem packable_crlfTree (hpath : b.path = ⟨0, ["b"]⟩) : b.Packable .usual crlfTree := by
  refine ⟨fun name hname => ?_, fun _ _ _ _ => ?_⟩
  · obtain ⟨⟨dir, hdir, hmem⟩, -⟩ := hname
    rw [hpath, directory_crlfTree] at hdir
    obtain rfl := Except.ok.inj hdir
    obtain ⟨e, hentry⟩ := FileTree.mem_names_iff.1 hmem
    have hname : name = "bundle.yaml" ∨ name = "README.md" := by
      by_contra hother
      rw [not_or] at hother
      simp [crlfTree, FileTree.entryAt?, FileTree.lookup_cons_if, hother] at hentry
    rw [hpath]
    rcases hname with rfl | rfl
    · exact ⟨_, FileTree.probe_eq_file_iff.2 fileContent_crlfTree.1⟩
    · exact ⟨_, FileTree.probe_eq_file_iff.2 fileContent_crlfTree.2⟩
  · show Datable 2000
    decide

/-- The text comes back from the archive with the carriage return that the directory did not
show. -/
theorem readArchive_pack_crlf :
    ∃ b, readDirectory crlfTree ⟨0, ["b"]⟩ = .ok b ∧ b.readme = "a\nb"
      ∧ ∃ entries, b.packed crlfTree = (entries, none)
        ∧ ofBlob ⟨0, ["b.bundle"]⟩ (.packed .deflated entries)
          = .ok ⟨.archive, ⟨0, ["b.bundle"]⟩, "a\r\nb", b.data⟩ := by
  obtain ⟨hyaml, hmd⟩ := fileContent_crlfTree
  have hdata : (Deployment.read (.bytes (utf8 "services: \x7b\x7d\n"))).toOption.isSome = true := by
    decide +kernel
  have htext : textOf (utf8 "a\r\nb") = .ok "a\r\nb" := by
    have hchars : ofUtf8? (utf8 "a\r\nb") = some "a\r\nb" := by
      decide +kernel
    rw [textOf, hchars]
  cases hread : Deployment.read (.bytes (utf8 "services: \x7b\x7d\n")) with
  | error f =>
    rw [hread] at hdata
    cases hdata
  | ok data =>
    have hb : readDirectory crlfTree ⟨0, ["b"]⟩ = .ok
        ⟨.directory, ⟨0, ["b"]⟩, String.ofList (unifyLineEnds "a\r\nb".toList), data⟩ :=
      readDirectory_eq_ok_iff.2 ⟨_, _, data, _, hyaml, hmd, hread, htext, rfl⟩
    obtain ⟨-, about, text, habout, hreadme, hback, -⟩ := readArchive_pack .usual hb
    obtain rfl := Except.ok.inj (hmd.symm.trans habout)
    obtain rfl := Except.ok.inj (htext.symm.trans hreadme)
    obtain ⟨entries, hpacked, hback, -⟩ := hback (packable_crlfTree rfl)
    have hunified : String.ofList (unifyLineEnds "a\r\nb".toList) = "a\nb" := by
      decide +kernel
    exact ⟨_, hb, hunified, entries, hpacked, hback .deflated _⟩

end Bundle

end CharmDepot
