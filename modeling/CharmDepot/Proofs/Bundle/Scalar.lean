/-
A directive that stands alone.

The directives of a service are a list, and a text in place of the list is a list of one. A number
in its place is not: of what is neither text nor made of items, decoding drops what counts as false
and refuses the rest (`Service.decodePlacements_of_itemless`), whereas in a list of one the same
number is written out. So the machine `0` is lost without its brackets or quotes, and any other
machine keeps the bundle from being read (`Service.decode_lone`).

The other fields of the service do not see the difference: what they decode to is `undirected`, and
the directives are put into it.
-/
import CharmDepot.Proofs.Bundle.Reading
import CharmDepot.Proofs.Text.Numeral

namespace CharmDepot

open Number

-- ============================================================= entries

namespace Value

variable {key other : String} {entries : List (Value × Value)} {v : Value}

theorem lookup?_insertEntry_self :
    lookup? key (insertEntry (.text key) v entries) = some v := by
  induction entries with
  | nil => exact if_pos ((same_text_iff ..).2 rfl)
  | cons e rest ih =>
    unfold insertEntry
    split
    · rename_i h
      exact if_pos ((same_text_iff ..).2 ((text_same_iff ..).1 h))
    · rename_i h
      refine (if_neg fun hsame => h ?_).trans ih
      exact (text_same_iff ..).2 ((same_text_iff ..).1 hsame)

theorem lookup?_insertEntry_of_ne (h : other ≠ key) :
    lookup? other (insertEntry (.text key) v entries) = lookup? other entries := by
  have hkey {k : Value} (hk : k = .text key) : ¬ k.same (.text other) = true := by
    rw [same_text_iff, hk, text.injEq]
    exact h.symm
  induction entries with
  | nil => exact if_neg (hkey rfl)
  | cons e rest ih =>
    unfold insertEntry
    split
    · rename_i hsame
      have hother : ¬ e.1.same (.text other) = true := hkey ((text_same_iff ..).1 hsame)
      exact (if_neg hother).trans (if_neg hother).symm
    · show (if _ then _ else _) = (if _ then _ else _)
      rw [ih]

/-- A field that is set has its value. -/
theorem field_insertEntry_self : field key (insertEntry (.text key) v entries) = v := by
  rw [field, lookup?_insertEntry_self]
  rfl

/-- Setting a field leaves the others as they are. -/
theorem field_insertEntry_of_ne (h : other ≠ key) :
    field other (insertEntry (.text key) v entries) = field other entries := by
  rw [field, lookup?_insertEntry_of_ne h, field]

end Value

namespace Service

variable {entries : List (Value × Value)} {v : Value} {directive : String}

-- ========================================================== directives

theorem decodePlacements_text (h : directive ≠ "") :
    decodePlacements (.text directive) = .ok [directive] := by
  have htrue : (Value.text directive).truthy = true := by simp [Value.truthy, h]
  unfold decodePlacements Value.orElse
  rw [if_pos htrue]

/-- In a list of one, a directive is what its item is written as. -/
theorem decodePlacements_list_one :
    decodePlacements (.list [v]) = v.written.map fun directive => [directive] := by
  show (do
    let items ← Except.ok [v]
    items.mapM Value.written) = _
  rw [Outcome.ok_bind, List.mapM_cons, List.mapM_nil]
  cases v.written <;> rfl

/-- What is neither text nor made of items stands for no directives if it counts as false, and is
refused otherwise. -/
theorem decodePlacements_of_itemless (h : v.items? = none) :
    decodePlacements v = if v.truthy then .error .unsuitable else .ok [] := by
  unfold decodePlacements Value.orElse
  by_cases htrue : v.truthy = true
  · rw [if_pos htrue, if_pos htrue]
    split
    · cases h
    · unfold Value.itemsOrNone
      rw [if_pos htrue, h]
      rfl
  · rw [if_neg htrue, if_neg htrue]
    rfl

-- ======================================================= other fields

/-- The mapping of a service in which the directives are given as `v`. -/
def withDirectives (entries : List (Value × Value)) (v : Value) : Value :=
  .map (Value.insertEntry (.text "to") v entries)

/-- A service with these directives. -/
def directed (directives : List String) (s : Service) : Service :=
  { s with placements := directives }

/-- The service of a mapping, without its directives. -/
def undirected (entries : List (Value × Value)) : Outcome Service := do
  let units ← (unitsIn entries).integer
  let options ← (Value.field "options" entries).mapping
  let annotations ← (Value.field "annotations" entries).mapping
  pure ⟨textField "charm" entries, units, [], options, annotations,
    textField "constraints" entries⟩

theorem undirected_eq_ok_iff {s : Service} :
    undirected entries = .ok s ↔
      ∃ units options annotations, (unitsIn entries).integer = .ok units
        ∧ (Value.field "options" entries).mapping = .ok options
        ∧ (Value.field "annotations" entries).mapping = .ok annotations
        ∧ s = ⟨textField "charm" entries, units, [], options, annotations,
          textField "constraints" entries⟩ := by
  unfold undirected
  rw [Outcome.bind_eq_ok]
  constructor
  · intro ⟨units, hunits, h⟩
    obtain ⟨options, hoptions, h⟩ := Outcome.bind_eq_ok.1 h
    obtain ⟨annotations, hannotations, h⟩ := Outcome.bind_eq_ok.1 h
    exact ⟨units, options, annotations, hunits, hoptions, hannotations, (Except.ok.inj h).symm⟩
  · intro h
    obtain ⟨units, options, annotations, hunits, hoptions, hannotations, rfl⟩ := h
    exact ⟨units, hunits, Outcome.bind_eq_ok.2 ⟨options, hoptions,
      Outcome.bind_eq_ok.2 ⟨annotations, hannotations, rfl⟩⟩⟩

theorem exists_undirected_iff :
    (∃ s, undirected entries = .ok s) ↔
      (∃ units, (unitsIn entries).integer = .ok units)
        ∧ (∃ options, (Value.field "options" entries).mapping = .ok options)
        ∧ ∃ annotations, (Value.field "annotations" entries).mapping = .ok annotations := by
  constructor
  · intro h
    obtain ⟨s, hs⟩ := h
    obtain ⟨units, options, annotations, hunits, hoptions, hannotations, -⟩ :=
      undirected_eq_ok_iff.1 hs
    exact ⟨⟨units, hunits⟩, ⟨options, hoptions⟩, annotations, hannotations⟩
  · intro h
    obtain ⟨⟨units, hunits⟩, ⟨options, hoptions⟩, annotations, hannotations⟩ := h
    exact ⟨_, undirected_eq_ok_iff.2
      ⟨units, options, annotations, hunits, hoptions, hannotations, rfl⟩⟩

theorem placements_of_undirected {s : Service} (h : undirected entries = .ok s) :
    s.placements = [] := by
  obtain ⟨_, _, _, -, -, -, rfl⟩ := undirected_eq_ok_iff.1 h
  rfl

/-- Of the fields of a service, the number of units is looked at before the directives, and the
directives before the rest. -/
theorem decode_withDirectives :
    decode (withDirectives entries v)
      = (unitsIn entries).integer.bind fun _ => (decodePlacements v).bind fun directives =>
        (undirected entries).map (directed directives) := by
  have hother (key : String) (h : key ≠ "to") :
      Value.field key (Value.insertEntry (.text "to") v entries) = Value.field key entries :=
    Value.field_insertEntry_of_ne h
  unfold decode withDirectives undirected unitsIn textField
  rw [Value.fields_map, Outcome.ok_bind, Value.field_insertEntry_self,
    hother "num_units" (by decide), hother "options" (by decide), hother "annotations" (by decide),
    hother "charm" (by decide), hother "constraints" (by decide)]
  cases ((Value.field "num_units" entries).orElse (.int 0)).integer with
  | error f => rfl
  | ok units =>
    cases decodePlacements v with
    | error f => rfl
    | ok directives =>
      cases (Value.field "options" entries).mapping with
      | error f => rfl
      | ok options => cases (Value.field "annotations" entries).mapping <;> rfl

/-- Directives that are read are those of the service. -/
theorem decode_withDirectives_of_ok {directives : List String}
    (h : decodePlacements v = .ok directives) :
    decode (withDirectives entries v) = (undirected entries).map (directed directives) := by
  rw [decode_withDirectives, h]
  unfold undirected
  cases (unitsIn entries).integer <;> rfl

/-- Directives that are refused keep the service from being read, unless its number of units does so
before. -/
theorem decode_withDirectives_of_error {f : Fault} (h : decodePlacements v = .error f) :
    decode (withDirectives entries v) = (unitsIn entries).integer.bind fun _ => .error f := by
  rw [decode_withDirectives, h]
  rfl

-- ======================================================= texts, numbers

theorem decodePlacements_int (n : Int) :
    decodePlacements (.int n) = if n = 0 then .ok [] else .error .unsuitable := by
  have htruthy : (Value.int n).truthy = true ↔ n ≠ 0 := bne_iff_ne
  rw [decodePlacements_of_itemless rfl]
  by_cases hn : n = 0
  · rw [if_pos hn, if_neg (mt htruthy.1 (not_not_intro hn))]
  · rw [if_neg hn, if_pos (htruthy.2 hn)]

theorem decodePlacements_list_int (n : Int) :
    decodePlacements (.list [.int n])
      = if n.natAbs < Nat.pow 10 maxDigits then .ok [integerText n]
        else .error (.value .tooLongToWrite) := by
  have hwritten : (Value.int n).written = Value.shownInteger n := rfl
  rw [decodePlacements_list_one, hwritten]
  unfold Value.shownInteger
  split <;> rfl

theorem decode_int (n : Int) :
    decode (withDirectives entries (.int n))
      = if n = 0 then undirected entries
        else (unitsIn entries).integer.bind fun _ => .error .unsuitable := by
  have h := decodePlacements_int n
  split at h
  · rename_i hn
    rw [if_pos hn, decode_withDirectives_of_ok h]
    cases hs : undirected entries with
    | error f => rfl
    | ok s =>
      show Except.ok (directed [] s) = .ok s
      rw [← placements_of_undirected hs]
      rfl
  · rename_i hn
    rw [if_neg hn, decode_withDirectives_of_error h]

theorem decode_list_int (n : Int) :
    decode (withDirectives entries (.list [.int n]))
      = if n.natAbs < Nat.pow 10 maxDigits
        then (undirected entries).map (directed [integerText n])
        else (unitsIn entries).integer.bind fun _ => .error (.value .tooLongToWrite) := by
  have h := decodePlacements_list_int n
  split at h
  · rename_i hn
    rw [if_pos hn, decode_withDirectives_of_ok h]
  · rename_i hn
    rw [if_neg hn, decode_withDirectives_of_error h]

/-- Where the rest of a service is read, an integer is not what a list of it is. -/
theorem decode_int_ne {s : Service} (hs : undirected entries = .ok s) (n : Int) :
    decode (withDirectives entries (.int n))
      ≠ decode (withDirectives entries (.list [.int n])) := by
  obtain ⟨units, -, -, hunits, -⟩ := undirected_eq_ok_iff.1 hs
  rw [decode_int, decode_list_int, hs, hunits]
  by_cases hzero : n = 0
  · have hshort : n.natAbs < Nat.pow 10 maxDigits := by
      rw [hzero]
      exact Nat.zero_lt_of_lt (one_lt_pow_ten (by decide))
    rw [if_pos hzero, if_pos hshort]
    intro heq
    have hplacements : s.placements = [integerText n] :=
      congrArg Service.placements (Except.ok.inj heq)
    rw [placements_of_undirected hs] at hplacements
    cases hplacements
  · rw [if_neg hzero]
    split <;> exact nofun

/-- **A directive that stands alone.** A text in place of the directives of a service is a list of
one, and the service is read if its other fields are. An integer is not: zero stands for no
directives and any other integer is refused, whereas a list of one has it written out, so that no
service which is read is the same for both. -/
theorem decode_lone (entries : List (Value × Value)) :
    ((∃ s, undirected entries = .ok s) ↔
        (∃ units, (unitsIn entries).integer = .ok units)
          ∧ (∃ options, (Value.field "options" entries).mapping = .ok options)
          ∧ ∃ annotations, (Value.field "annotations" entries).mapping = .ok annotations)
      ∧ (∀ s, undirected entries = .ok s → s.placements = [])
      ∧ (∀ directive, directive ≠ "" →
        decode (withDirectives entries (.text directive))
            = decode (withDirectives entries (.list [.text directive]))
          ∧ decode (withDirectives entries (.text directive))
            = (undirected entries).map (directed [directive]))
      ∧ ∀ n : Int,
        decode (withDirectives entries (.list [.int n]))
            = (if n.natAbs < Nat.pow 10 maxDigits
              then (undirected entries).map (directed [integerText n])
              else (unitsIn entries).integer.bind fun _ => .error (.value .tooLongToWrite))
          ∧ decode (withDirectives entries (.int n))
            = (if n = 0 then undirected entries
              else (unitsIn entries).integer.bind fun _ => .error .unsuitable)
          ∧ ∀ s, undirected entries = .ok s →
            decode (withDirectives entries (.int n))
              ≠ decode (withDirectives entries (.list [.int n])) := by
  refine ⟨exists_undirected_iff, fun _ => placements_of_undirected, fun directive h => ?_,
    fun n => ⟨decode_list_int n, decode_int n, fun _ hs => decode_int_ne hs n⟩⟩
  have htext : decode (withDirectives entries (.text directive))
      = (undirected entries).map (directed [directive]) :=
    decode_withDirectives_of_ok (decodePlacements_text h)
  have hlist : decodePlacements (.list [.text directive]) = .ok [directive] :=
    decodePlacements_list_one
  exact ⟨htext.trans (decode_withDirectives_of_ok hlist).symm, htext⟩

/-- The other fields of a service of one unit. -/
def oneUnit : List (Value × Value) :=
  [(.text "charm", .text "cs:precise/a"), (.text "num_units", .int 1)]

/-- The machine `0` is a directive in quotes or brackets and none without, and the machine `5` keeps
a service from being read. -/
theorem decode_lone_oneUnit :
    ∃ s, undirected oneUnit = .ok s
      ∧ decode (withDirectives oneUnit (.text "0")) = .ok (directed ["0"] s)
      ∧ decode (withDirectives oneUnit (.list [.int 0])) = .ok (directed ["0"] s)
      ∧ decode (withDirectives oneUnit (.int 0)) = .ok s ∧ s.placements = []
      ∧ decode (withDirectives oneUnit (.int 5)) = .error .unsuitable
      ∧ decode (withDirectives oneUnit (.int 0))
        ≠ decode (withDirectives oneUnit (.list [.int 0])) := by
  obtain ⟨hread, hnone, htext, hint⟩ := decode_lone oneUnit
  have hunits : Value.field "num_units" oneUnit = .int 1 := by
    simp [oneUnit, Value.field, Value.lookup?, Value.same_text_iff]
  have habsent (key : String) (hcharm : "charm" ≠ key) (hunits : "num_units" ≠ key) :
      Value.field key oneUnit = .null := by
    simp [oneUnit, Value.field, Value.lookup?, Value.same_text_iff, hcharm, hunits]
  have hone : (unitsIn oneUnit).integer = .ok 1 := by
    rw [unitsIn, hunits]
    rfl
  obtain ⟨s, hs⟩ := hread.2 ⟨⟨1, hone⟩, ⟨[], by rw [habsent _ (by decide) (by decide)]; rfl⟩, [],
    by rw [habsent _ (by decide) (by decide)]; rfl⟩
  obtain ⟨hlist, hzero, hne⟩ := hint 0
  have hshort : (0 : Int).natAbs < Nat.pow 10 maxDigits :=
    Nat.zero_lt_of_lt (one_lt_pow_ten (by decide))
  refine ⟨s, hs, ?_, ?_, ?_, hnone s hs, ?_, hne s hs⟩
  · rw [(htext "0" (by decide)).2, hs]
    rfl
  · have hnumeral : integerText 0 = "0" := congrArg String.ofList decimal_zero
    rw [hlist, if_pos hshort, hs, hnumeral]
    rfl
  · rw [hzero, if_pos rfl, hs]
  · rw [(hint 5).2.1, if_neg (by decide), hone]
    rfl

end Service

end CharmDepot
