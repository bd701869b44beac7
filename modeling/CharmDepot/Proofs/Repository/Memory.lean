/-
A repository in memory as a table of charms.

A `CharmTable` tells which charm is at which revision under which identity, and knows nothing of
shelves or written forms. A change that is sound puts a charm in its place or takes it out
(`Change.record`); any other is refused. `Holds` ties a repository to a table shelf by shelf, and
every change keeps it (`Holds.change`), so that it is there after any list of changes (`holds_run`).
What lookups come to is then read off the table (`Holds.agrees`, `run_agrees`).

Charms at revisions of more than 4300 digits are kept and found like any others. Such a revision has
no written form, so the message that would show it cannot be made: a change or a lookup that should
be refused for what it is fails for that instead (`store_longCharm`).
-/
import CharmDepot.Repository.Memory
import CharmDepot.Proofs.Identity.Written
import CharmDepot.Proofs.Value.Foreign

namespace CharmDepot

open Number

-- ============================================================== tables

/-- Which charm is at which revision under which identity. -/
abbrev CharmTable := Shelfmark → Int → Option Charm

namespace CharmTable

/-- A table with nothing in it. -/
def empty : CharmTable := fun _ _ => none

/-- Puts a charm, or none, in a place of the table. -/
def put (m : CharmTable) (mark : Shelfmark) (n : Int) (charm? : Option Charm) : CharmTable :=
  fun mark' n' => if mark' = mark ∧ n' = n then charm? else m mark' n'

/-- Under an identity, a charm is at this revision, and none is at a higher one. -/
def IsHighest (m : CharmTable) (mark : Shelfmark) (n : Int) (c : Charm) : Prop :=
  m mark n = some c ∧ ∀ n' c', m mark n' = some c' → n' ≤ n

/-- What there is to report on the latest revision of a charm. -/
inductive Reports (m : CharmTable) (u : Url) : LatestRevision → Prop
  | known {n : Int} {c : Charm} :
      m.IsHighest u.shelfmark n c → Reports m u (.ofRevision (.int n))
  | absent : (∀ n, m u.shelfmark n = none) →
      Reports m u (.failed (.missing (.memoryCharm u.unrevisioned.toString)))

end CharmTable

-- ============================================================= changes

theorem Charm.fullName_fails (c : Charm) : c.fullName.Fails Fault.IsForeign := by
  unfold fullName
  refine (Value.written_fails _).bind fun name => ?_
  exact (Value.shownInteger_fails _).bind fun revision => .ok _

/-- A charm to be kept under an identity, or none, to have the one there removed. -/
structure Change where
  url : Url
  charm? : Option Charm
  isRevised : url.IsRevised

namespace Change

/-- The revision of the change; minus one stands for none. -/
def number (c : Change) : Int :=
  match c.url.revision with
  | .int n => n
  | _ => -1

/-- Whether a charm has a name. -/
def isNamed (name : String) (charm : Charm) : Bool :=
  match charm.metadata.name with
  | .text s => s == name
  | _ => false

/-- Whether a change has a revision, and its charm, if there is one, the name and the revision of
the identity. -/
def isSound (c : Change) : Bool :=
  0 ≤ c.number
    && c.charm?.all fun charm => isNamed c.url.name charm && charm.revision == c.number

/-- What a change does to a table. -/
def record (m : CharmTable) (c : Change) : CharmTable :=
  if c.isSound then m.put c.url.shelfmark c.number c.charm? else m

/-- What a change comes to in a repository. -/
def apply (r : MemoryRepository) (c : Change) : Outcome MemoryRepository :=
  match c.charm? with
  | some charm => r.store c.url charm
  | none => r.remove c.url

/-- The faults that a change is refused with. -/
inductive Refused (c : Change) : Fault → Prop
  | unrevisioned : c.number < 0 → Refused c (.refused .unrevisioned)
  | mismatch {charm : Charm} {name : String} : 0 ≤ c.number →
      c.number.natAbs < Nat.pow 10 maxDigits → c.charm? = some charm →
      charm.fullName = .ok name → Refused c (.refused (.charmMismatch c.url.toString name))
  /-- There are no words for the identity or for the charm. -/
  | wordless {charm : Charm} {f : Fault} : 0 ≤ c.number → c.charm? = some charm →
      (Nat.pow 10 maxDigits ≤ c.number.natAbs ∨ ∃ g, charm.fullName = .error g) → f.IsForeign →
      Refused c f

variable {c : Change}

theorem revision_url (c : Change) : c.url.revision = .int c.number := by
  obtain ⟨n, hn, -⟩ := c.isRevised.revision
  unfold number
  rw [hn]

theorem isNamed_iff {name : String} {charm : Charm} :
    isNamed name charm = true ↔ charm.metadata.name = .text name := by
  unfold isNamed
  split
  · rename_i s hname
    rw [hname, beq_iff_eq, Value.text.injEq]
  · rename_i hname
    exact iff_of_false Bool.false_ne_true (hname name)

theorem isSound_iff :
    c.isSound = true ↔ 0 ≤ c.number ∧ ∀ charm, c.charm? = some charm →
      charm.metadata.name = .text c.url.name ∧ charm.revision = c.number := by
  unfold isSound
  rw [Bool.and_eq_true, decide_eq_true_eq, Option.all_eq_true]
  simp only [Bool.and_eq_true, isNamed_iff, beq_iff_eq]

end Change

namespace MemoryRepository

-- ============================================================= shelves

/-- The charm at a revision of a shelf. -/
def charmAt? (kept : List KeptCharm) (n : Int) : Option Charm :=
  (kept.find? fun k => k.charm.revision == n).map KeptCharm.charm

theorem charmAt?_cons (k : KeptCharm) (kept : List KeptCharm) (n : Int) :
    charmAt? (k :: kept) n = if k.charm.revision = n then some k.charm else charmAt? kept n := by
  unfold charmAt?
  by_cases h : k.charm.revision = n
  · rw [if_pos h, List.find?_cons_of_pos (by simpa using h)]
    rfl
  · rw [if_neg h, List.find?_cons_of_neg (by simpa using h)]

theorem map_atRevision? (kept : List KeptCharm) (n : Int) :
    (atRevision? (.int n) kept).map KeptCharm.charm = charmAt? kept n := by
  have hsame : (fun k : KeptCharm => (Revision.int n).isInt k.charm.revision)
      = fun k => k.charm.revision == n := by
    funext k
    rw [Bool.eq_iff_iff, isInt_int_iff, beq_iff_eq]
    exact eq_comm
  unfold atRevision? charmAt?
  rw [hsame]

theorem charmAt?_putKept (new : KeptCharm) (kept : List KeptCharm) (n : Int) :
    charmAt? (putKept new kept) n
      = if n = new.charm.revision then some new.charm else charmAt? kept n := by
  induction kept with
  | nil =>
    rw [putKept, charmAt?_cons]
    simp only [eq_comm]
  | cons k kept ih =>
    rw [putKept]
    by_cases hsame : k.charm.revision = new.charm.revision
    · rw [if_pos hsame, charmAt?_cons, charmAt?_cons, hsame]
      by_cases hn : n = new.charm.revision
      · rw [if_pos hn.symm, if_pos hn]
      · rw [if_neg (Ne.symm hn), if_neg hn, if_neg (Ne.symm hn)]
    · rw [if_neg hsame, charmAt?_cons, charmAt?_cons, ih]
      by_cases hn : n = new.charm.revision
      · rw [if_pos hn, if_pos hn, if_neg fun h => hsame (h.trans hn)]
      · rw [if_neg hn, if_neg hn]

theorem charmAt?_filter (m : Int) (kept : List KeptCharm) (n : Int) :
    charmAt? (kept.filter fun k => !(Revision.int m).isInt k.charm.revision) n
      = if n = m then none else charmAt? kept n := by
  induction kept with
  | nil => simp [charmAt?]
  | cons k kept ih =>
    rw [List.filter_cons, charmAt?_cons]
    by_cases hm : m = k.charm.revision
    · rw [(isInt_int_iff _ _).2 hm, Bool.not_true, if_neg Bool.false_ne_true, ih]
      by_cases hn : n = m
      · rw [if_pos hn, if_pos hn]
      · rw [if_neg hn, if_neg hn, if_neg fun h => hn (h.symm.trans hm.symm)]
    · have hother : (Revision.int m).isInt k.charm.revision = false := by
        rw [← Bool.not_eq_true, isInt_int_iff]
        exact hm
      rw [hother, Bool.not_false, if_pos rfl, charmAt?_cons, ih]
      by_cases hn : k.charm.revision = n
      · rw [if_pos hn, if_pos hn, if_neg fun h => hm (h.symm.trans hn.symm)]
      · rw [if_neg hn, if_neg hn]

/-- Charms that are kept in place of others keep the keys of those. -/
theorem key_of_mem_putKept {new k : KeptCharm} {kept : List KeptCharm}
    (hnew : new.revision = .int new.charm.revision)
    (hkept : ∀ k ∈ kept, k.revision = .int k.charm.revision) (h : k ∈ putKept new kept) :
    k.revision = .int k.charm.revision := by
  induction kept with
  | nil => rwa [List.mem_singleton.1 h]
  | cons first kept ih =>
    rw [List.forall_mem_cons] at hkept
    rw [putKept] at h
    split at h
    · rename_i hsame
      rcases List.mem_cons.1 h with rfl | h
      · exact hkept.1.trans (congrArg Revision.int hsame)
      · exact hkept.2 k h
    · rcases List.mem_cons.1 h with rfl | h
      · exact hkept.1
      · exact ih hkept.2 h

-- ================================================ the highest revision

theorem highest?_eq_none_iff {kept : List KeptCharm} : highest? kept = none ↔ kept = [] := by
  cases kept with
  | nil => exact iff_of_true rfl rfl
  | cons k kept =>
    refine iff_of_false ?_ (List.cons_ne_nil _ _)
    rw [highest?]
    split
    · exact Option.some_ne_none _
    · exact Option.some_ne_none _

/-- The highest charm of a shelf is the one at its revision, and no other is above it. -/
theorem highest?_eq_some {kept : List KeptCharm} {best : KeptCharm}
    (h : highest? kept = some best) :
    best ∈ kept ∧ charmAt? kept best.charm.revision = some best.charm
      ∧ ∀ k ∈ kept, k.charm.revision ≤ best.charm.revision := by
  induction kept generalizing best with
  | nil => cases h
  | cons k kept ih =>
    rw [highest?] at h
    cases hrest : highest? kept with
    | none =>
      rw [hrest] at h
      obtain rfl := Option.some.inj h
      obtain rfl := highest?_eq_none_iff.1 hrest
      refine ⟨List.mem_cons_self, by rw [charmAt?_cons, if_pos rfl], ?_⟩
      simp
    | some later =>
      rw [hrest] at h
      dsimp only at h
      obtain ⟨hmem, hat, hle⟩ := ih hrest
      by_cases hlt : k.charm.revision < later.charm.revision
      · rw [if_pos hlt] at h
        obtain rfl := Option.some.inj h
        refine ⟨List.mem_cons_of_mem _ hmem, ?_, ?_⟩
        · rw [charmAt?_cons, if_neg (by omega), hat]
        · rw [List.forall_mem_cons]
          exact ⟨by omega, hle⟩
      · rw [if_neg hlt] at h
        obtain rfl := Option.some.inj h
        refine ⟨List.mem_cons_self, by rw [charmAt?_cons, if_pos rfl], ?_⟩
        rw [List.forall_mem_cons]
        refine ⟨Int.le_refl _, fun k' hk' => ?_⟩
        have := hle k' hk'
        omega

theorem exists_mem_of_charmAt? {kept : List KeptCharm} {n : Int} {c : Charm}
    (h : charmAt? kept n = some c) : ∃ k ∈ kept, k.charm = c ∧ c.revision = n := by
  obtain ⟨k, hfind, rfl⟩ := Option.map_eq_some_iff.1 h
  exact ⟨k, List.mem_of_find?_eq_some hfind, rfl, by simpa using List.find?_some hfind⟩

theorem lookup_putShelf (key key' : String) (kept : List KeptCharm)
    (shelves : List (String × List KeptCharm)) :
    (putShelf key kept shelves).lookup key'
      = if key' = key then some kept else shelves.lookup key' := by
  have hcons (k : String) (x : List KeptCharm) (rest : List (String × List KeptCharm)) :
      ((k, x) :: rest).lookup key' = if key' = k then some x else rest.lookup key' := by
    rw [List.lookup_cons]
    by_cases h : key' = k
    · rw [if_pos h, beq_iff_eq.2 h]
    · rw [if_neg h, beq_eq_false_iff_ne.2 h]
  induction shelves with
  | nil => rw [putShelf, hcons]
  | cons first shelves ih =>
    obtain ⟨k, x⟩ := first
    rw [putShelf]
    by_cases hk : k = key
    · rw [if_pos hk, hcons, hcons, hk]
      by_cases h : key' = key
      · rw [if_pos h, if_pos h]
      · rw [if_neg h, if_neg h, if_neg h]
    · rw [if_neg hk, hcons, hcons, ih]
      by_cases h : key' = key
      · rw [if_pos h, if_pos h, if_neg fun h' => hk (h'.symm.trans h)]
      · rw [if_neg h, if_neg h]

-- ============================================================= holding

/-- Every shelf holds the charms that the table has there, each under its own revision. -/
structure Holds (r : MemoryRepository) (m : CharmTable) : Prop where
  charms {u : Url} : u.IsRevised → ∀ n, charmAt? (r.shelf u) n = m u.shelfmark n
  keys {u : Url} : u.IsRevised → ∀ k ∈ r.shelf u, k.revision = .int k.charm.revision

/-- A shelf that is put into a repository is the one of its own identity, and no other. -/
theorem shelf_putShelf (r : MemoryRepository) {u v : Url} (hu : u.IsRevised) (hv : v.IsRevised)
    (kept : List KeptCharm) :
    shelf { r with shelves := putShelf u.unrevisioned.toString kept r.shelves } v
      = if v.shelfmark = u.shelfmark then kept else r.shelf v := by
  show ((putShelf u.unrevisioned.toString kept r.shelves).lookup v.unrevisioned.toString).getD []
    = _
  rw [lookup_putShelf]
  by_cases h : v.shelfmark = u.shelfmark
  · rw [if_pos h, if_pos ((hv.shelfmark_eq_iff hu).1 h)]
    rfl
  · rw [if_neg h, if_neg (mt (hv.shelfmark_eq_iff hu).2 h)]
    rfl

/-- Putting a shelf into a repository is putting its charms into the table. -/
theorem Holds.putShelf {r : MemoryRepository} {m : CharmTable} (h : r.Holds m) {u : Url}
    (hu : u.IsRevised) {kept : List KeptCharm} {n : Int} {charm? : Option Charm}
    (hcharms : ∀ n', charmAt? kept n' = if n' = n then charm? else charmAt? (r.shelf u) n')
    (hkeys : ∀ k ∈ kept, k.revision = .int k.charm.revision) :
    Holds { r with shelves := putShelf u.unrevisioned.toString kept r.shelves }
      (m.put u.shelfmark n charm?) where
  charms {v} hv n' := by
    rw [shelf_putShelf r hu hv, CharmTable.put]
    by_cases hmark : v.shelfmark = u.shelfmark
    · rw [if_pos hmark, hcharms, h.charms hu, hmark]
      simp only [true_and]
    · rw [if_neg hmark, if_neg fun hboth => hmark hboth.1, h.charms hv]
  keys {v} hv := by
    rw [shelf_putShelf r hu hv]
    split
    · exact hkeys
    · exact h.keys hv

end MemoryRepository

-- ======================================================= what changes do

namespace Change

variable {c : Change} {r : MemoryRepository} {m : CharmTable}

theorem isBelow_url (c : Change) : c.url.revision.isBelow 0 = true ↔ c.number < 0 := by
  rw [revision_url, isBelow_int_iff]

theorem fits_iff {charm : Charm} :
    MemoryRepository.fits c.url charm = true ↔
      charm.metadata.name = .text c.url.name ∧ charm.revision = c.number := by
  unfold MemoryRepository.fits
  rw [Bool.and_eq_true, Value.same_text_iff]
  have hrevision : (Identity.url c.url).revision = .int c.number := c.revision_url
  rw [hrevision, isInt_int_iff]
  exact and_congr Iff.rfl eq_comm

/-- A sound change is made, and the table that it is recorded in is held after it. -/
theorem apply_of_isSound (h : r.Holds m) (hsound : c.isSound = true) :
    ∃ r', c.apply r = .ok r' ∧ r'.Holds (c.record m) := by
  obtain ⟨hset, hfits⟩ := isSound_iff.1 hsound
  have hlow : ¬ c.url.revision.isBelow 0 = true := by
    rw [isBelow_url]
    omega
  unfold record apply
  rw [if_pos hsound]
  cases hcharm : c.charm? with
  | none =>
    refine ⟨_, if_neg hlow, h.putShelf c.isRevised (fun n' => ?_) fun k hk => ?_⟩
    · have hrevision : (Identity.url c.url).revision = .int c.number := c.revision_url
      rw [hrevision, MemoryRepository.charmAt?_filter]
    · exact h.keys c.isRevised k (List.mem_of_mem_filter hk)
  | some charm =>
    obtain ⟨hname, hrevision⟩ := hfits charm hcharm
    refine ⟨_, (if_neg hlow).trans (if_pos (fits_iff.2 ⟨hname, hrevision⟩)),
      h.putShelf c.isRevised (fun n' => ?_) fun k hk => ?_⟩
    · rw [MemoryRepository.charmAt?_putKept, hrevision]
    · refine MemoryRepository.key_of_mem_putKept ?_ (h.keys c.isRevised) hk
      exact c.revision_url.trans (congrArg Revision.int hrevision.symm)

/-- A change that is not sound is refused. -/
theorem apply_of_not_isSound (r : MemoryRepository) (hsound : ¬ c.isSound = true) :
    ∃ f, c.apply r = .error f ∧ c.Refused f := by
  by_cases hlow : c.number < 0
  · refine ⟨_, ?_, .unrevisioned hlow⟩
    unfold apply
    split
    · exact if_pos (c.isBelow_url.2 hlow)
    · exact if_pos (c.isBelow_url.2 hlow)
  have hset : 0 ≤ c.number := Int.not_lt.1 hlow
  rw [isSound_iff, not_and] at hsound
  -- without a charm there is nothing else to refuse it for
  cases hcharm : c.charm? with
  | none => exact absurd (fun charm h => by rw [hcharm] at h; cases h) (hsound hset)
  | some charm =>
    have hfits : ¬ MemoryRepository.fits c.url charm = true := by
      rw [fits_iff]
      intro hfits
      refine hsound hset fun charm' h => ?_
      obtain rfl := Option.some.inj (hcharm.symm.trans h)
      exact hfits
    have happly : c.apply r = (MemoryRepository.mismatch c.url charm).bind .error := by
      unfold apply
      rw [hcharm]
      exact (if_neg (mt c.isBelow_url.1 hlow)).trans (if_neg hfits)
    rw [happly]
    unfold MemoryRepository.mismatch
    by_cases hshort : c.number.natAbs < Nat.pow 10 maxDigits
    · rw [Identity.written_int (i := .url c.url) c.revision_url hshort]
      cases hname : charm.fullName with
      | error f =>
        exact ⟨f, rfl, .wordless hset hcharm (.inr ⟨f, hname⟩) (charm.fullName_fails f hname)⟩
      | ok name => exact ⟨_, rfl, .mismatch hset hshort hcharm hname⟩
    · have hlong := Nat.not_lt.1 hshort
      rw [Identity.written_int_of_long (i := .url c.url) c.revision_url hset hlong]
      exact ⟨_, rfl, .wordless hset hcharm (.inl hlong) rfl⟩

end Change

-- ============================================================ agreement

/-- A table in which every charm has the name and the revision of its place. -/
def CharmTable.IsSound (m : CharmTable) : Prop :=
  ∀ mark n c, m mark n = some c → c.metadata.name = .text mark.name ∧ c.revision = n ∧ 0 ≤ n

/-- What is recorded of a change keeps a table sound. -/
theorem CharmTable.IsSound.record {m : CharmTable} (h : m.IsSound) (c : Change) :
    CharmTable.IsSound (c.record m) := by
  intro mark n charm hcharm
  unfold Change.record at hcharm
  by_cases hsound : c.isSound = true
  · rw [if_pos hsound, CharmTable.put] at hcharm
    obtain ⟨hset, hfits⟩ := Change.isSound_iff.1 hsound
    by_cases hplace : mark = c.url.shelfmark ∧ n = c.number
    · rw [if_pos hplace] at hcharm
      obtain ⟨rfl, rfl⟩ := hplace
      exact ⟨(hfits charm hcharm).1, (hfits charm hcharm).2, hset⟩
    · rw [if_neg hplace] at hcharm
      exact h mark n charm hcharm
  · rw [if_neg hsound] at hcharm
    exact h mark n charm hcharm

namespace MemoryRepository

/-- A repository answers from a table. -/
structure Agrees (r : MemoryRepository) (m : CharmTable) : Prop where
  /-- A charm in the table has the name and the revision of its place. -/
  sound : m.IsSound
  /-- If there are any charms under an identity, one of them is the highest. -/
  highest {u : Url} : u.IsRevised →
    (∃ n c, m.IsHighest u.shelfmark n c) ∨ ∀ n, m u.shelfmark n = none
  get_kept {u : Url} {n : Int} {c : Charm} : u.IsRevised → u.revision = .int n →
    m u.shelfmark n = some c → r.get u = .ok c
  get_absent {u : Url} {n : Int} : u.IsRevised → u.revision = .int n → 0 ≤ n →
    m u.shelfmark n = none → n.natAbs < Nat.pow 10 maxDigits →
    r.get u = .error (.missing (.memoryCharm u.toString))
  /-- There are no words for an identity that is not there. -/
  get_wordless {u : Url} {n : Int} : u.IsRevised → u.revision = .int n → 0 ≤ n →
    m u.shelfmark n = none → Nat.pow 10 maxDigits ≤ n.natAbs →
    r.get u = .error (.value .tooLongToWrite)
  get_highest {u : Url} {n : Int} {c : Charm} : u.IsRevised → u.revision = .int (-1) →
    m.IsHighest u.shelfmark n c → r.get u = .ok c
  get_empty {u : Url} : u.IsRevised → u.revision = .int (-1) → (∀ n, m u.shelfmark n = none) →
    r.get u = .error (.missing (.memoryCharm u.toString))
  latest {us : List Url} : (∀ u ∈ us, u.IsRevised) →
    List.Forall₂ m.Reports us (r.latest (us.map Identity.url))

variable {r : MemoryRepository} {m : CharmTable} {u : Url}

/-- The highest charm of a shelf is the highest in the table. -/
theorem Holds.isHighest (h : r.Holds m) (hu : u.IsRevised) {best : KeptCharm}
    (hbest : highest? (r.shelf u) = some best) :
    m.IsHighest u.shelfmark best.charm.revision best.charm := by
  obtain ⟨-, hat, hle⟩ := highest?_eq_some hbest
  rw [h.charms hu] at hat
  refine ⟨hat, fun n' c' hc' => ?_⟩
  rw [← h.charms hu] at hc'
  obtain ⟨k, hk, rfl, hn'⟩ := exists_mem_of_charmAt? hc'
  rw [← hn']
  exact hle k hk

theorem Holds.eq_none (h : r.Holds m) (hu : u.IsRevised) (hnone : highest? (r.shelf u) = none)
    (n : Int) : m u.shelfmark n = none := by
  rw [← h.charms hu, highest?_eq_none_iff.1 hnone]
  rfl

/-- If a table has a highest charm under an identity, the shelf has it. -/
theorem Holds.highest?_of_isHighest (h : r.Holds m) (hu : u.IsRevised) {n : Int} {c : Charm}
    (hhighest : m.IsHighest u.shelfmark n c) :
    ∃ best, highest? (r.shelf u) = some best ∧ best.charm = c := by
  cases hbest : highest? (r.shelf u) with
  | none =>
    have hnone := h.eq_none hu hbest n
    rw [hhighest.1] at hnone
    cases hnone
  | some best =>
    obtain ⟨hat, hle⟩ := h.isHighest hu hbest
    have h₁ := hhighest.2 _ _ hat
    have h₂ := hle _ _ hhighest.1
    obtain rfl : n = best.charm.revision := by omega
    exact ⟨best, rfl, Option.some.inj (hat.symm.trans hhighest.1)⟩

theorem get_eq (r : MemoryRepository) (hset : u.revision.isInt (-1) = false) {n : Int}
    (hn : u.revision = .int n) :
    r.get u = match charmAt? (r.shelf u) n with
      | some c => .ok c
      | none => (Identity.url u).written.bind fun text =>
        .error (.missing (.memoryCharm text)) := by
  have hkept : r.kept? u = atRevision? (.int n) (r.shelf u) := by
    unfold kept?
    show (if u.revision.isInt (-1) = true then _ else atRevision? u.revision _) = _
    rw [hset, if_neg Bool.false_ne_true, hn]
  unfold get
  rw [hkept, ← map_atRevision?]
  cases atRevision? (.int n) (r.shelf u) with
  | none => rfl
  | some k => rfl

theorem kept?_unset (r : MemoryRepository) {i : Identity} (hn : i.revision = .unset) :
    r.kept? i = highest? (r.shelf i) := by
  unfold kept?
  rw [hn, Revision.unset, if_pos ((isInt_int_iff _ _).2 rfl)]

theorem isInt_unset_of_le {n : Int} (hn : u.revision = .int n) (hset : 0 ≤ n) :
    u.revision.isInt (-1) = false := by
  rw [hn, ← Bool.not_eq_true, isInt_int_iff]
  omega

theorem Holds.reports (h : r.Holds m) (hu : u.IsRevised) : m.Reports u (r.latestOne u) := by
  have hkept : r.kept? (Identity.url u).unrevisioned = highest? (r.shelf u) :=
    r.kept?_unset rfl
  unfold latestOne
  rw [hkept]
  cases hbest : highest? (r.shelf u) with
  | none => exact .absent (h.eq_none hu hbest)
  | some best =>
    dsimp only
    rw [h.keys hu best (highest?_eq_some hbest).1]
    exact .known (h.isHighest hu hbest)

/-- A repository that holds a table answers from it. -/
theorem Holds.agrees (h : r.Holds m) (hsound : m.IsSound) : r.Agrees m where
  sound := hsound
  highest {u} hu := by
    cases hbest : highest? (r.shelf u) with
    | none => exact .inr (h.eq_none hu hbest)
    | some best => exact .inl ⟨_, _, h.isHighest hu hbest⟩
  get_kept hu hn hc := by
    rw [get_eq r (isInt_unset_of_le hn (hsound _ _ _ hc).2.2) hn, h.charms hu, hc]
  get_absent hu hn hset hnone hshort := by
    rw [get_eq r (isInt_unset_of_le hn hset) hn, h.charms hu, hnone,
      Identity.written_int (i := .url _) hn hshort]
    rfl
  get_wordless {u n} hu hn hset hnone hlong := by
    rw [get_eq r (isInt_unset_of_le hn hset) hn, h.charms hu, hnone,
      Identity.written_int_of_long (i := .url u) hn hset hlong]
    rfl
  get_highest hu hn hhighest := by
    obtain ⟨best, hbest, rfl⟩ := h.highest?_of_isHighest hu hhighest
    unfold get
    rw [kept?_unset r (i := .url _) hn, hbest]
  get_empty {u} hu hn hnone := by
    have hempty : highest? (r.shelf u) = none := by
      cases hbest : highest? (r.shelf u) with
      | none => rfl
      | some best =>
        have hat := (h.isHighest hu hbest).1
        rw [hnone] at hat
        cases hat
    unfold get
    rw [kept?_unset r (i := .url _) hn, hempty]
    dsimp only
    have hunset : (Identity.url u).revision.isWritten = false := by
      show u.revision.isWritten = false
      rw [hn, isWritten_int]
      decide
    rw [Identity.written_of_not_isWritten hunset]
    rfl
  latest {us} hus := by
    unfold MemoryRepository.latest
    rw [List.map_map, List.forall₂_map_right_iff, List.forall₂_same]
    exact fun u hu => h.reports (hus u hu)

-- =============================================================== runs

/-- A repository after a change; one that is refused leaves it as it is. -/
def change (r : MemoryRepository) (c : Change) : MemoryRepository :=
  match c.apply r with
  | .ok r' => r'
  | .error _ => r

/-- A repository after several changes. -/
def run (r : MemoryRepository) (changes : List Change) : MemoryRepository :=
  changes.foldl change r

end MemoryRepository

/-- What several changes leave in a table that had nothing in it. -/
def CharmTable.after (changes : List Change) : CharmTable :=
  changes.foldl Change.record .empty

namespace MemoryRepository

variable {r : MemoryRepository} {m : CharmTable}

/-- Whatever becomes of a change, the repository goes on holding what is recorded. -/
theorem Holds.change (h : r.Holds m) (c : Change) : (r.change c).Holds (c.record m) := by
  by_cases hsound : c.isSound = true
  · obtain ⟨r', happly, hholds⟩ := c.apply_of_isSound h hsound
    unfold MemoryRepository.change
    rw [happly]
    exact hholds
  · obtain ⟨f, happly, -⟩ := c.apply_of_not_isSound r hsound
    unfold MemoryRepository.change Change.record
    rw [happly, if_neg hsound]
    exact h

theorem holds_foldl (changes : List Change) (h : r.Holds m) (hsound : m.IsSound) :
    (r.run changes).Holds (changes.foldl Change.record m)
      ∧ CharmTable.IsSound (changes.foldl Change.record m) := by
  induction changes generalizing r m with
  | nil => exact ⟨h, hsound⟩
  | cons c changes ih => exact ih (h.change c) (hsound.record c)

theorem holds_run {r : MemoryRepository} (hnew : r.shelves = []) (changes : List Change) :
    (r.run changes).Holds (.after changes) ∧ CharmTable.IsSound (.after changes) := by
  apply holds_foldl
  · have hshelf (i : Identity) : r.shelf i = [] := by
      unfold shelf
      rw [hnew]
      rfl
    constructor
    · intro u _ n
      rw [hshelf]
      rfl
    · intro u _ k hk
      rw [hshelf] at hk
      cases hk
  · intro mark n c hc
    cases hc

/-- **A repository in memory is a table.** After any changes of a new repository, its answers are
those of the table of the sound ones among them. Another change that is sound is made and recorded;
one that is not is refused and changes neither. -/
theorem run_agrees {r : MemoryRepository} (hnew : r.shelves = []) (changes : List Change) :
    (r.run changes).Agrees (.after changes)
      ∧ ∀ c : Change,
        (c.isSound = true → c.apply (r.run changes) = .ok (r.run (changes ++ [c]))
          ∧ CharmTable.after (changes ++ [c])
            = (CharmTable.after changes).put c.url.shelfmark c.number c.charm?)
        ∧ (¬ c.isSound = true → (∃ f, c.apply (r.run changes) = .error f ∧ c.Refused f)
          ∧ r.run (changes ++ [c]) = r.run changes
          ∧ CharmTable.after (changes ++ [c]) = CharmTable.after changes) := by
  obtain ⟨hholds, hsound⟩ := holds_run hnew changes
  have hrun (c : Change) : r.run (changes ++ [c]) = (r.run changes).change c := by
    unfold run
    rw [List.foldl_append]
    rfl
  have hafter (c : Change) : CharmTable.after (changes ++ [c]) = c.record (.after changes) := by
    unfold CharmTable.after
    rw [List.foldl_append]
    rfl
  refine ⟨hholds.agrees hsound, fun c => ⟨fun hc => ?_, fun hc => ?_⟩⟩
  · obtain ⟨r', happly, -⟩ := c.apply_of_isSound hholds hc
    rw [hrun, hafter, change, Change.record, happly, if_pos hc]
    exact ⟨rfl, rfl⟩
  · obtain ⟨f, happly, hrefused⟩ := c.apply_of_not_isSound (r.run changes) hc
    rw [hrun, hafter, change, Change.record, happly, if_neg hc]
    exact ⟨⟨f, rfl, hrefused⟩, rfl, rfl⟩

-- ============================================================ an example

/-- An identity named `w`, at a revision. -/
def sampleUrl (n : Int) : Url :=
  ⟨storeSchema, "", "precise", "w", .int n⟩

/-- A charm named `w`, at a revision. -/
def sampleCharm (n : Int) : Charm where
  form := .directory
  path := .here
  metadata := ⟨.text "w", .text "", .text "", .list [], .bool false, [], [], [], none⟩
  revision := n
  config := []

theorem isRevised_sampleUrl {n : Int} (hn : -1 ≤ n) : (sampleUrl n).IsRevised := by
  refine ⟨"cs:precise/w", sampleUrl (-1), n, ?_, ?_⟩
  · exact Url.parse_eq_ok_iff.2
      ⟨⟨"cs".toList, [], "precise".toList, "w".toList, -1⟩, rfl, by decide, rfl⟩
  · have hlow : (Revision.int n).isBelow (-1) = false := by
      rw [← Bool.not_eq_true, isBelow_int_iff]
      omega
    unfold Url.withRevision Url.make
    rw [hlow]
    rfl

/-- Two charms are kept, one is refused, and the second is removed. -/
def someChanges : List Change :=
  [⟨sampleUrl 2, some (sampleCharm 2), isRevised_sampleUrl (by decide)⟩,
    ⟨sampleUrl 5, some (sampleCharm 5), isRevised_sampleUrl (by decide)⟩,
    ⟨sampleUrl 9, some (sampleCharm 8), isRevised_sampleUrl (by decide)⟩,
    ⟨sampleUrl 5, none, isRevised_sampleUrl (by decide)⟩]

/-- After the changes, the first charm is the latest. -/
theorem run_agrees_someChanges :
    ({} : MemoryRepository).shelves = []
      ∧ (run {} someChanges).get (sampleUrl (-1)) = .ok (sampleCharm 2) := by
  refine ⟨rfl, (run_agrees rfl someChanges).1.get_highest (n := 2) (isRevised_sampleUrl (by decide))
    rfl ?_⟩
  have hafter : CharmTable.after someChanges = ((CharmTable.empty.put (sampleUrl (-1)).shelfmark 2
      (some (sampleCharm 2))).put (sampleUrl (-1)).shelfmark 5 (some (sampleCharm 5))).put
        (sampleUrl (-1)).shelfmark 5 none := rfl
  rw [hafter]
  refine ⟨rfl, fun n c hc => ?_⟩
  by_contra hn
  have hother : n ≠ 2 := by omega
  by_cases hremoved : n = 5
  · simp [CharmTable.put, hremoved] at hc
  · simp [CharmTable.put, CharmTable.empty, hother, hremoved] at hc

theorem store_of_long {n : Nat} (hlong : Nat.pow 10 maxDigits ≤ n) :
    (sampleCharm n).revision ≠ 1
      ∧ store {} (sampleUrl 1) (sampleCharm n) = .error (.value .tooLongToWrite) := by
  have hshort : 1 < Nat.pow 10 maxDigits := one_lt_pow_ten (by decide)
  have hrevision : (sampleCharm n).revision ≠ 1 := by
    show (n : Int) ≠ 1
    omega
  refine ⟨hrevision, ?_⟩
  have hurl : (Identity.url (sampleUrl 1)).written = .ok (sampleUrl 1).toString :=
    Identity.written_int rfl hshort
  have hname : (sampleCharm n).fullName = .error (.value .tooLongToWrite) := by
    have hshown : Value.shownInteger n = .error (.value .tooLongToWrite) :=
      if_neg (Nat.not_lt.2 hlong)
    unfold Charm.fullName
    show (Value.written (.text "w") >>= fun name => Value.shownInteger n >>= fun revision =>
      pure (name ++ "-" ++ revision)) = _
    rw [hshown]
    rfl
  have hfits : fits (sampleUrl 1) (sampleCharm n) = false := by
    rw [← Bool.not_eq_true]
    unfold fits
    rw [Bool.and_eq_true, not_and]
    intro _ hsame
    exact hrevision ((isInt_int_iff _ _).1 hsame).symm
  unfold store mismatch
  rw [hfits, hurl, hname]
  rfl

/-- A charm at a revision of more than 4300 digits does not fit an identity at another revision;
that it is refused for that cannot be put in words. -/
theorem store_longCharm :
    (sampleUrl 1).IsRevised ∧ (sampleCharm (Nat.pow 10 maxDigits : Nat)).revision ≠ 1
      ∧ store {} (sampleUrl 1) (sampleCharm (Nat.pow 10 maxDigits : Nat))
        = .error (.value .tooLongToWrite)
      ∧ (Fault.value .tooLongToWrite).kind? = none := by
  obtain ⟨hrevision, hstore⟩ := store_of_long (Nat.le_refl _)
  exact ⟨isRevised_sampleUrl (by decide), hrevision, hstore, rfl⟩

end MemoryRepository

end CharmDepot
