/-
Identities in words, at any revision.

An identity has a written form unless its revision has too many digits to be written
(`written_eq_ok`, `written_int`); without its revision it always has one (`written_unrevisioned`).

An identity that was read and put at some revision is `Url.IsRevised`. Without its revision it is
read from its written form again (`IsRevised.parse_toString`), because no name ends in a revision;
so that form says which schema, user, series and name it has (`IsRevised.shelfmark_eq_iff`).

A text that is read as no identity has not the form of one, or its revision has too many digits
(`Url.parse_fails`).
-/
import CharmDepot.Proofs.Fails
import CharmDepot.Proofs.Identity.RoundTrip

namespace CharmDepot

open Number

-- ======================================================== written forms

namespace Identity

variable {i : Identity} {text : String}

theorem written_eq_ok (h : i.written = .ok text) : text = i.toString := by
  unfold written at h
  split at h
  · obtain ⟨_, -, htext⟩ := Outcome.map_eq_ok.1 h
    exact htext.symm
  · exact (Except.ok.inj h).symm

/-- An identity has no written form only because of the digits of its revision. -/
theorem written_eq_error {f : Fault} (h : i.written = .error f) :
    f = .value .tooLongToWrite
      ∧ ∃ n, i.revision = .int n ∧ 0 ≤ n ∧ Nat.pow 10 maxDigits ≤ n.natAbs := by
  unfold written at h
  split at h
  · rename_i hset
    cases hrevision : i.revision with
    | int n =>
      rw [hrevision] at h hset
      rw [isWritten_int, decide_eq_true_iff] at hset
      have h := Outcome.map_eq_error.1 h
      rw [Revision.written, Value.shownInteger] at h
      by_cases hshort : n.natAbs < Nat.pow 10 maxDigits
      · rw [if_pos hshort] at h
        cases h
      · rw [if_neg hshort] at h
        exact ⟨(Except.error.inj h).symm, n, rfl, hset, Nat.not_lt.1 hshort⟩
    | bool b =>
      rw [hrevision] at h
      cases h
    | float x =>
      rw [hrevision] at h
      cases h
  · cases h

theorem written_of_not_isWritten (h : i.revision.isWritten = false) :
    i.written = .ok i.toString := by
  unfold written
  rw [h, if_neg Bool.false_ne_true]

/-- A revision of at most 4300 digits can be written. -/
theorem written_int {n : Int} (hn : i.revision = .int n)
    (hshort : n.natAbs < Nat.pow 10 maxDigits) : i.written = .ok i.toString := by
  unfold written
  rw [hn, Revision.written, Value.shownInteger, if_pos hshort]
  split
  · rfl
  · rfl

/-- A revision of more digits can not. -/
theorem written_int_of_long {n : Int} (hn : i.revision = .int n) (hset : 0 ≤ n)
    (hlong : Nat.pow 10 maxDigits ≤ n.natAbs) : i.written = .error (.value .tooLongToWrite) := by
  unfold written
  rw [hn, isWritten_int, decide_eq_true hset, if_pos rfl, Revision.written, Value.shownInteger,
    if_neg (Nat.not_lt.2 hlong)]
  rfl

theorem revision_unrevisioned (i : Identity) : i.unrevisioned.revision = .unset := by
  cases i with
  | url u => rfl
  | reference r => rfl

theorem written_unrevisioned (i : Identity) :
    i.unrevisioned.written = .ok i.unrevisioned.toString := by
  apply written_of_not_isWritten
  rw [revision_unrevisioned, Revision.unset, isWritten_int]
  decide

theorem mapM_written {ids : List Identity} (h : ∀ i ∈ ids, i.written = .ok i.toString) :
    ids.mapM written = .ok (ids.map toString) := by
  rw [Outcome.mapM_eq_ok_iff, List.forall₂_map_right_iff, List.forall₂_same]
  exact h

end Identity

-- ================================================== at another revision

theorem Url.withRevision_eq_ok {u v : Url} {r : Revision} (h : u.withRevision r = .ok v) :
    r.isBelow (-1) = false ∧ v = { u with revision := r } := by
  unfold Url.withRevision Url.make at h
  split at h
  · cases h
  · split at h
    · cases h
    · split at h
      · obtain ⟨_, -, h⟩ := Outcome.bind_eq_ok.1 h
        cases h
      · rename_i hlow
        exact ⟨by simpa using hlow, (Except.ok.inj h).symm⟩

namespace IdentityParts

variable {p : IdentityParts} {n : Int}

/-- The revision of parts that were read has not too many digits. -/
theorem Canonical.short (h : p.Canonical) : p.revision.natAbs < Nat.pow 10 maxDigits := by
  -- the power is the same one for any number of digits, which need not be computed
  have hpow (k digits : Nat) (hk : k < 10 ^ digits) : k < Nat.pow 10 digits := hk
  by_cases hset : 0 ≤ p.revision
  · have hnat : p.revision.natAbs = p.revision.toNat := by omega
    rw [hnat]
    exact hpow _ maxDigits (h.set hset).2
  · rw [(h.unset (Int.not_le.1 hset)).1]
    exact one_lt_pow_ten (by decide)

/-- The same parts at another revision. -/
def atRevision (p : IdentityParts) (n : Int) : IdentityParts :=
  { p with revision := n }

theorem Framed.atRevision (h : p.Framed) (n : Int) : (p.atRevision n).Framed :=
  ⟨h.schema, h.user, h.series, h.name⟩

/-- Parts that were read can lose their revision, since no name ends in one. If the name is on one
line, they can be put at any revision that has not too many digits. -/
theorem Canonical.atRevision (h : p.Canonical) (hlow : -1 ≤ n)
    (hshort : n.natAbs < Nat.pow 10 maxDigits) (hline : 0 ≤ n → '\n' ∉ p.name) :
    (p.atRevision n).Canonical where
  toFramed := h.toFramed.atRevision n
  unset hneg := ⟨Int.le_antisymm (Int.le_sub_one_of_lt hneg) hlow, splitRevision?_of_isName h.name⟩
  set hset := by
    obtain ⟨k, rfl⟩ := Int.eq_ofNat_of_zero_le hset
    -- the power is the same one for any number of digits, which need not be computed
    have hpow (digits : Nat) (hk : k < Nat.pow 10 digits) : k < 10 ^ digits := hk
    rw [Int.natAbs_natCast] at hshort
    refine ⟨hline hset, ?_⟩
    rw [IdentityParts.atRevision, Int.toNat_natCast]
    exact hpow maxDigits hshort

end IdentityParts

/-- A complete identity that was read, at some revision, which may be none. -/
def Url.IsRevised (u : Url) : Prop :=
  ∃ text v n, Url.parse text = .ok v ∧ v.withRevision (.int n) = .ok u

/-- What is left of a complete identity without its revision. -/
structure Shelfmark where
  schema : String
  user : String
  series : String
  name : String
  deriving DecidableEq

/-- The parts of a complete identity other than its revision. -/
def Url.shelfmark (u : Url) : Shelfmark :=
  ⟨u.schema, u.user, u.series, u.name⟩

namespace Url.IsRevised

variable {u v : Url}

theorem revision (h : u.IsRevised) : ∃ n, u.revision = .int n ∧ -1 ≤ n := by
  obtain ⟨_, v, n, -, hv⟩ := h
  obtain ⟨hlow, rfl⟩ := Url.withRevision_eq_ok hv
  refine ⟨n, rfl, Int.not_lt.1 fun hn => ?_⟩
  rw [(isBelow_int_iff n (-1)).2 hn] at hlow
  cases hlow

/-- Without its revision, an identity is read from its written form. -/
theorem parse_toString (h : u.IsRevised) :
    Url.parse u.unrevisioned.toString = .ok u.unrevisioned := by
  obtain ⟨_, v, n, hparse, hv⟩ := h
  obtain ⟨-, rfl⟩ := Url.withRevision_eq_ok hv
  obtain ⟨p, hp, hseries, rfl⟩ := Url.parse_eq_ok_iff.1 hparse
  have hunset : (p.atRevision (-1)).Canonical :=
    (IdentityParts.canonical_of_parse hp).atRevision (by decide) (one_lt_pow_ten (by decide)) nofun
  have hurl : ({ p.url with revision := Revision.int n } : Url).unrevisioned
      = (p.atRevision (-1)).url := rfl
  rw [hurl, IdentityParts.toString_url]
  exact Url.parse_eq_ok_iff.2 ⟨_, IdentityParts.parse_chars hunset, hseries, rfl⟩

theorem shelfmark_eq_iff (hu : u.IsRevised) (hv : v.IsRevised) :
    u.shelfmark = v.shelfmark ↔ u.unrevisioned.toString = v.unrevisioned.toString := by
  constructor
  · intro h
    obtain ⟨hschema, huser, hseries, hname⟩ := Shelfmark.mk.inj h
    unfold Url.unrevisioned
    rw [hschema, huser, hseries, hname]
  · intro h
    have hread := hu.parse_toString
    rw [h, hv.parse_toString] at hread
    have hmarks : v.unrevisioned.shelfmark = u.unrevisioned.shelfmark :=
      congrArg Url.shelfmark (Except.ok.inj hread)
    exact hmarks.symm

end Url.IsRevised

-- ============================================================= faults

/-- Why a text is no identity: it has not the form of one, or its revision has too many digits. -/
def Fault.IsNoIdentity (f : Fault) : Prop :=
  (∃ form, f = .identity form) ∨ ∃ n, f = .value (.integer (.tooLong n))

theorem isNoIdentity_identity (form : IdentityFault) : (Fault.identity form).IsNoIdentity :=
  .inl ⟨form, rfl⟩

namespace IdentityParts

theorem parseLast_fails (text : String) (word : List Char) :
    (parseLast text word).Fails Fault.IsNoIdentity := by
  unfold parseLast
  dsimp only
  split
  · rename_i f hf
    split at hf
    · cases hf
    · split at hf
      · rw [← Except.error.inj hf]
        exact .error (.inr ⟨_, rfl⟩)
      · cases hf
  · split
    · exact .ok _
    · exact .error (isNoIdentity_identity _)

theorem parseRest_fails (text : String) (schema user : List Char) (ws : List (List Char)) :
    (parseRest text schema user ws).Fails Fault.IsNoIdentity := by
  unfold parseRest
  split
  · exact (parseLast_fails _ _).map
  · split
    · exact (parseLast_fails _ _).map
    · exact .error (isNoIdentity_identity _)
  · exact .error (isNoIdentity_identity _)

theorem parse_fails (text : String) : (parse text).Fails Fault.IsNoIdentity := by
  unfold parse parseWords
  dsimp only
  split
  · exact .error (isNoIdentity_identity _)
  · split
    · exact .error (isNoIdentity_identity _)
    · split
      · split
        · exact .error (isNoIdentity_identity _)
        · split
          · exact .error (isNoIdentity_identity _)
          · exact parseRest_fails _ _ _ _
      · exact parseRest_fails _ _ _ _

end IdentityParts

theorem Url.parse_fails (text : String) : (Url.parse text).Fails Fault.IsNoIdentity := by
  rw [Url.parse_eq]
  refine (IdentityParts.parse_fails text).bind fun p => ?_
  split
  · exact .error (isNoIdentity_identity _)
  · exact .ok _

/-- A value that is no text is no identity, and not because of its form. -/
theorem Url.ofValue_of_not_isText {v : Value} (h : v.isText = false) :
    ∃ f, Url.ofValue v = .error f ∧ f.isValue = false ∧ f.IsForeign := by
  cases v with
  | text s => cases h
  | _ => exact ⟨_, rfl, rfl, rfl⟩

end CharmDepot
