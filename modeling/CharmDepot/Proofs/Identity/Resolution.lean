/-
References resolved to complete identities.

A reference is resolved in its own series, or else in the default one (`Reference.seriesFor`). If
that has the form of a series, the result is the identity of the reference's parts in it, and that
is what is read from the written form with the series put in front of the name
(`IdentityParts.Canonical.inSeries`). If it has not, the reference is refused.

Putting an identity at another revision looks at no series, and resolving it looks at no revision,
so the two can be done in either order (`IdentityParts.Canonical.resolve_withRevision`): they give
the same identity, or both are refused. What they are refused with may differ. In one order the
reference is shown at its new revision and in the other at its old one, and a revision of more than
4300 digits can not be shown (`resolve_longRevision`).
-/
import CharmDepot.Proofs.Identity.Spelling

namespace CharmDepot

open Number Text
open scoped Computability

-- ======================================================== written forms

namespace Reference

/-- The written form up to the series: the schema and the user. -/
def front (r : Reference) : String :=
  r.schema ++ ":" ++ if r.user.isEmpty then "" else "~" ++ r.user ++ "/"

/-- The written form from the name on. -/
def lastWord (r : Reference) : String :=
  if r.revision.isWritten then r.name ++ "-" ++ r.revision.text else r.name

/-- The series stands in the written form between the user and the name. -/
theorem toString_eq (r : Reference) :
    r.toString = r.front ++ (if r.series.isEmpty then "" else r.series ++ "/") ++ r.lastWord := by
  have hempty (s : String) : s.toList.isEmpty = s.isEmpty := by
    rw [Bool.eq_iff_iff, List.isEmpty_iff, String.isEmpty_iff, String.toList_eq_nil_iff]
  unfold toString identityChars front lastWord
  rw [← String.toList_inj, String.toList_ofList, hempty, hempty]
  dsimp only
  split <;> split <;> split <;> simp [joinPieces]

/-- The series that a reference is resolved in: its own, or else the default one. -/
def seriesFor (r : Reference) (default? : Option String) : String :=
  if r.series.isEmpty then default?.getD "" else r.series

end Reference

/-- Why an identity is refused at a revision: for its form, or because the revision has too many
digits to be shown. -/
def Fault.IsRefusalAt (n : Int) (f : Fault) : Prop :=
  f.IsMalformed ∨ f = .value .tooLongToWrite ∧ Nat.pow 10 maxDigits ≤ n.natAbs

-- ========================================================= resolution

namespace IdentityParts

variable {p : IdentityParts} {s : List Char}

/-- The same parts in a series. -/
def inSeries (p : IdentityParts) (s : List Char) : IdentityParts :=
  { p with series := s }

theorem Framed.inSeries (h : p.Framed) (hs : isSeries s = true) : (p.inSeries s).Framed :=
  ⟨h.schema, h.user, fun _ => hs, h.name⟩

/-- Parts that were read can be put in any series. -/
theorem Canonical.inSeries (h : p.Canonical) (hs : isSeries s = true) : (p.inSeries s).Canonical :=
  ⟨h.toFramed.inSeries hs, h.unset, h.set⟩

theorem ne_nil_of_isSeries (hs : isSeries s = true) : s ≠ [] := by
  rintro rfl
  cases hs

end IdentityParts

namespace Reference

variable {r : Reference} {p : IdentityParts} {d : Option String} {n : Int}

/-- In a series of the right form, a reference is resolved to what its parts make there. -/
theorem resolve_eq_make (hs : isSeries (r.seriesFor d).toList = true) :
    r.resolve d = Url.make r.schema r.user (r.seriesFor d) r.name r.revision := by
  have hne : (r.seriesFor d).isEmpty = false := by
    rw [← Bool.not_eq_true, String.isEmpty_iff, ← String.toList_eq_nil_iff]
    exact IdentityParts.ne_nil_of_isSeries hs
  show (if (r.seriesFor d).isEmpty then _ else
    if !isSeries (r.seriesFor d).toList then _ else _) = _
  rw [hne, hs]
  rfl

/-- In no other series is it resolved, nor without one. -/
theorem resolve_refused (hrevision : r.revision = .int n)
    (hs : isSeries (r.seriesFor d).toList = false) :
    ∃ f, r.resolve d = .error f ∧ f.IsRefusalAt n := by
  show ∃ f, (if (r.seriesFor d).isEmpty then _ else
    if !isSeries (r.seriesFor d).toList then _ else _) = _ ∧ _
  split
  · cases hwritten : (Identity.reference r).written with
    | ok shown => exact ⟨_, rfl, .inl rfl⟩
    | error f =>
      obtain ⟨rfl, m, hm, -, hlong⟩ := Identity.written_eq_error hwritten
      obtain rfl : m = n := Revision.int.inj (hm.symm.trans hrevision)
      exact ⟨_, rfl, .inr ⟨rfl, hlong⟩⟩
  · rw [hs]
    exact ⟨_, rfl, .inl rfl⟩

theorem seriesFor_of_series (h : r.series ≠ "") : r.seriesFor d = r.series :=
  if_neg (mt String.isEmpty_iff.1 h)

theorem seriesFor_of_open (h : r.series = "") : r.seriesFor d = d.getD "" :=
  if_pos (String.isEmpty_iff.2 h)

end Reference

/-- A complete identity is made unless its revision is below minus one. -/
theorem Url.make_fails (schema user series name : String) (n : Int) :
    (Url.make schema user series name (.int n)).Fails (Fault.IsRefusalAt n) := by
  unfold Url.make
  split
  · exact .error (.inl rfl)
  · split
    · exact .error (.inl rfl)
    · split
      · rw [Revision.written, Value.shownInteger]
        split
        · exact .error (.inl rfl)
        · rename_i hlong
          exact .error (.inr ⟨rfl, Nat.not_lt.1 hlong⟩)
      · exact .ok _

namespace IdentityParts

variable {p : IdentityParts} {d : Option String}

/-- A reference that was read is resolved to its parts in the series. -/
theorem Canonical.resolve_reference (h : p.Canonical)
    (hs : isSeries (p.reference.seriesFor d).toList = true) :
    p.reference.resolve d = .ok (p.inSeries (p.reference.seriesFor d).toList).url := by
  have hmake := make_eq_ok (h.toFramed.inSeries hs) (ne_nil_of_isSeries hs) h.low
  rw [Reference.resolve_eq_make hs]
  refine Eq.trans ?_ hmake
  show _ = Url.make _ _ (String.ofList (p.reference.seriesFor d).toList) _ _
  rw [String.ofList_toList]
  rfl

/-- It is resolved in a series of the right form and in no other. -/
theorem Canonical.exists_resolve_iff (h : p.Canonical) :
    (∃ u, p.reference.resolve d = .ok u) ↔ isSeries (p.reference.seriesFor d).toList = true := by
  constructor
  · rintro ⟨u, hu⟩
    by_contra hs
    obtain ⟨f, hf, -⟩ := Reference.resolve_refused (n := p.revision) rfl (by simpa using hs)
    cases hu.symm.trans hf
  · intro hs
    exact ⟨_, h.resolve_reference hs⟩

/-- With a series of their own, they are resolved to the complete identity that they are. -/
theorem Canonical.resolve_own (h : p.Canonical) (hseries : p.series ≠ []) :
    p.reference.resolve d = .ok p.url := by
  have hne : p.reference.series ≠ "" := by
    simpa [IdentityParts.reference] using hseries
  have hfor : (p.reference.seriesFor d).toList = p.series := by
    rw [Reference.seriesFor_of_series hne]
    exact String.toList_ofList
  have hresolve := h.resolve_reference (d := d) (hfor ▸ h.series hseries)
  rwa [hfor] at hresolve

/-- Without one, they are resolved exactly with a default that has the form of a series. -/
theorem Canonical.exists_resolve_open_iff (h : p.Canonical) (hopen : p.reference.series = "") :
    (∃ u, p.reference.resolve d = .ok u)
      ↔ ∃ s, d = some s ∧ s.toList ∈ seriesLanguage * optionalLineFeed := by
  rw [h.exists_resolve_iff, Reference.seriesFor_of_open hopen]
  cases d with
  | none => exact iff_of_false (by decide) nofun
  | some s => simp [isSeries_iff]

/-- What they are resolved to is read from the written form with the default put in front of the
name. -/
theorem Canonical.parse_inserted (h : p.Canonical) (hopen : p.reference.series = "") {s : String}
    {u : Url} (hu : p.reference.resolve (some s) = .ok u) :
    Url.parse (p.reference.front ++ s ++ "/" ++ p.reference.lastWord) = .ok u := by
  have hs := h.exists_resolve_iff.1 ⟨u, hu⟩
  have hresolved := h.resolve_reference hs
  rw [Reference.seriesFor_of_open hopen, Option.getD_some] at hs hresolved
  obtain rfl : (p.inSeries s.toList).url = u := Except.ok.inj (hresolved.symm.trans hu)
  have hne := ne_nil_of_isSeries hs
  have hempty : s.isEmpty = false := by
    rw [← Bool.not_eq_true, String.isEmpty_iff, ← String.toList_eq_nil_iff]
    exact hne
  have hchars : String.ofList (p.inSeries s.toList).chars
      = p.reference.front ++ s ++ "/" ++ p.reference.lastWord := by
    rw [← toString_reference, Reference.toString_eq]
    show _ ++ (if (String.ofList s.toList).isEmpty then _ else String.ofList s.toList ++ _) ++ _ = _
    rw [String.ofList_toList, hempty, if_neg Bool.false_ne_true, ← String.append_assoc]
    rfl
  rw [← hchars]
  exact Url.parse_eq_ok_iff.2 ⟨_, parse_chars (h.inSeries hs), hne, rfl⟩

/-- Parts that were read are refused at their own revision only for their form. -/
theorem Canonical.isMalformed (h : p.Canonical) {f : Fault} (hf : f.IsRefusalAt p.revision) :
    f.IsMalformed :=
  hf.resolve_right fun hlong => absurd hlong.2 (Nat.not_le.2 h.short)

/-- Resolving and putting at another revision, in either order. -/
theorem Canonical.resolve_withRevision (h : p.Canonical) (d : Option String) (n : Int) :
    (∀ u, (p.reference.withRevision (.int n)).resolve d = .ok u
        ↔ (p.reference.resolve d >>= fun u => u.withRevision (.int n)) = .ok u)
      ∧ ((p.reference.withRevision (.int n)).resolve d).Fails (Fault.IsRefusalAt n)
      ∧ (p.reference.resolve d >>= fun u => u.withRevision (.int n)).Fails
          (Fault.IsRefusalAt n) := by
  cases hs : isSeries (p.reference.seriesFor d).toList with
  | true =>
    have hmake := Reference.resolve_eq_make (r := p.reference.withRevision (.int n)) hs
    have hmoved : (p.reference.withRevision (.int n)).resolve d
        = p.reference.resolve d >>= fun u => u.withRevision (.int n) := by
      rw [h.resolve_reference hs, Outcome.ok_bind, hmake]
      show _ = Url.make _ _ (String.ofList (p.reference.seriesFor d).toList) _ _
      rw [String.ofList_toList]
      rfl
    rw [← hmoved, hmake]
    exact ⟨fun u => Iff.rfl, Url.make_fails _ _ _ _ n, Url.make_fails _ _ _ _ n⟩
  | false =>
    obtain ⟨f, hf, hrefusal⟩ := Reference.resolve_refused
      (r := p.reference.withRevision (.int n)) rfl hs
    obtain ⟨g, hg, hmalformed⟩ := Reference.resolve_refused (r := p.reference) rfl hs
    rw [hf, hg]
    exact ⟨fun u => iff_of_false nofun nofun, .error hrefusal,
      .error (.inl (h.isMalformed hmalformed))⟩

end IdentityParts

/-- **Resolving references.** A reference that was read and names a series is the complete identity
that the text is read as, whatever the default is. One that names none is read as no complete
identity; it is resolved with a default of the form of a series and with no other, to what is read
from its written form with the default put in front of the name. A complete identity that was read
is what its reference is resolved to. Resolving and putting at another revision can be done in
either order; what is refused is refused for its form, unless the new revision has more than 4300
digits. -/
theorem resolve_agrees :
    (∀ text r, Reference.parse text = .ok r →
        (r.series ≠ "" → ∃ u, Url.parse text = .ok u ∧ ∀ d, r.resolve d = .ok u)
        ∧ (r.series = "" → (∃ f, Url.parse text = .error f ∧ f.IsMalformed)
          ∧ (∀ d, (∃ u, r.resolve d = .ok u)
            ↔ ∃ s, d = some s ∧ s.toList ∈ seriesLanguage * optionalLineFeed)
          ∧ (Identity.reference r).written = .ok r.toString ∧ r.toString = r.front ++ r.lastWord
          ∧ ∀ s u, r.resolve (some s) = .ok u →
            Url.parse (r.front ++ s ++ "/" ++ r.lastWord) = .ok u)
        ∧ ∀ d n, (∀ u, (r.withRevision (.int n)).resolve d = .ok u
              ↔ (r.resolve d >>= fun u => u.withRevision (.int n)) = .ok u)
            ∧ ((r.withRevision (.int n)).resolve d).Fails (Fault.IsRefusalAt n)
            ∧ (r.resolve d >>= fun u => u.withRevision (.int n)).Fails (Fault.IsRefusalAt n))
      ∧ ∀ text u, Url.parse text = .ok u → ∀ d, u.reference.resolve d = .ok u := by
  constructor
  · intro text r hr
    obtain ⟨p, hp, rfl⟩ := Reference.parse_eq_ok_iff.1 hr
    have hcanonical := IdentityParts.canonical_of_parse hp
    refine ⟨fun hseries => ?_, fun hopen => ?_, hcanonical.resolve_withRevision⟩
    · have hseries : p.series ≠ [] := fun hnil => hseries (by simp [IdentityParts.reference, hnil])
      exact ⟨p.url, Url.parse_eq_ok_iff.2 ⟨p, hp, hseries, rfl⟩, fun d =>
        hcanonical.resolve_own hseries⟩
    · have hnil : p.series = [] := by simpa [IdentityParts.reference] using hopen
      refine ⟨⟨.identity (.noSeries text), ?_, rfl⟩, fun d => ?_,
        Identity.written_int rfl hcanonical.short, ?_, fun s u hu => ?_⟩
      · rw [Url.parse_eq, hp]
        exact if_pos (by rw [hnil]; rfl)
      · exact hcanonical.exists_resolve_open_iff hopen
      · rw [Reference.toString_eq, hopen]
        simp
      · exact hcanonical.parse_inserted hopen hu
  · intro text u hu d
    obtain ⟨p, hp, hseries, rfl⟩ := Url.parse_eq_ok_iff.1 hu
    exact (IdentityParts.canonical_of_parse hp).resolve_own hseries

/-- A reference with a series of its own and one without, which gets the default and then another
revision, and a complete identity. -/
theorem resolve_agrees_somebody :
    (∃ r u, Reference.parse "~bob/precise/w-7" = .ok r ∧ Url.parse "~bob/precise/w-7" = .ok u
        ∧ r.resolve (some "no series") = .ok u)
      ∧ (∃ r u v, Reference.parse "~bob/w" = .ok r ∧ (∃ f, Url.parse "~bob/w" = .error f)
        ∧ r.resolve (some "quantal") = .ok u ∧ Url.parse "cs:~bob/quantal/w" = .ok u
        ∧ u.withRevision (.int 42) = .ok v
        ∧ (r.withRevision (.int 42)).resolve (some "quantal") = .ok v)
      ∧ ∃ u, Url.parse "local:precise/w" = .ok u ∧ u.reference.resolve none = .ok u := by
  refine ⟨?_, ?_, ?_⟩
  · have hr : Reference.parse "~bob/precise/w-7" = .ok ⟨"cs", "bob", "w", .int 7, "precise"⟩ :=
      Reference.parse_eq_ok_iff.2
        ⟨⟨"cs".toList, "bob".toList, "precise".toList, "w".toList, 7⟩, rfl, rfl⟩
    obtain ⟨u, hu, hresolve⟩ := (resolve_agrees.1 _ _ hr).1 (by decide)
    exact ⟨_, u, hr, hu, hresolve _⟩
  · have hr : Reference.parse "~bob/w" = .ok ⟨"cs", "bob", "w", .int (-1), ""⟩ :=
      Reference.parse_eq_ok_iff.2 ⟨⟨"cs".toList, "bob".toList, [], "w".toList, -1⟩, rfl, rfl⟩
    obtain ⟨-, hopen, hmoved⟩ := resolve_agrees.1 _ _ hr
    obtain ⟨⟨f, hf, -⟩, hdefault, -, -, hinserted⟩ := hopen rfl
    obtain ⟨u, hu⟩ := (hdefault (some "quantal")).2 ⟨_, rfl, isSeries_iff.1 (by decide)⟩
    obtain ⟨v, hv⟩ : ∃ v, u.withRevision (.int 42) = .ok v := by
      have hparts : u = ⟨"cs", "bob", "quantal", "w", .int (-1)⟩ :=
        Except.ok.inj (hu.symm.trans rfl)
      exact ⟨_, by rw [hparts]; rfl⟩
    refine ⟨_, u, v, hr, ⟨f, hf⟩, hu, ?_, hv, ((hmoved (some "quantal") 42).1 v).2 ?_⟩
    · exact (congrArg Url.parse (by decide)).trans (hinserted "quantal" u hu)
    · rw [hu]
      exact hv
  · have hu : Url.parse "local:precise/w" = .ok ⟨"local", "", "precise", "w", .int (-1)⟩ :=
      Url.parse_eq_ok_iff.2
        ⟨⟨"local".toList, [], "precise".toList, "w".toList, -1⟩, rfl, by decide, rfl⟩
    exact ⟨_, hu, resolve_agrees.2 _ _ hu none⟩

theorem resolve_of_long {n : Nat} (hlong : Nat.pow 10 maxDigits ≤ n) :
    (⟨"cs", "", "w", .int n, ""⟩ : Reference).resolve none = .error (.value .tooLongToWrite) := by
  have hwritten := Identity.written_int_of_long
    (i := .reference ⟨"cs", "", "w", .int n, ""⟩) rfl (Int.natCast_nonneg n) hlong
  show ((Identity.reference ⟨"cs", "", "w", .int n, ""⟩).written >>= fun shown => _) = _
  rw [hwritten]
  rfl

/-- A reference without a series is refused as malformed where there is no default. At a revision of
more than 4300 digits the refusal cannot be put in words, and that is another fault. -/
theorem resolve_longRevision :
    ∃ r, Reference.parse "w" = .ok r
      ∧ (r.resolve none >>= fun u => u.withRevision (.int (Nat.pow 10 maxDigits : Nat)))
        = .error (.identity (.unresolved "cs:w"))
      ∧ (r.withRevision (.int (Nat.pow 10 maxDigits : Nat))).resolve none
        = .error (.value .tooLongToWrite)
      ∧ ¬ (Fault.value .tooLongToWrite).IsMalformed := by
  have hr : Reference.parse "w" = .ok ⟨"cs", "", "w", .int (-1), ""⟩ :=
    Reference.parse_eq_ok_iff.2 ⟨⟨"cs".toList, [], [], "w".toList, -1⟩, rfl, rfl⟩
  exact ⟨_, hr, rfl, resolve_of_long (Nat.le_refl _), nofun⟩

end CharmDepot
