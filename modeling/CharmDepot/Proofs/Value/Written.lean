/-
Which values have a written form.

Two things keep a value from being written: an integer in it with too many digits, and collections
that are nested too deep. `Modest` bounds both, and whatever is modest is written
(`exists_shown_of_modest`). An integer of more than 4300 digits is the smallest value that is not
(`shown_int_of_long`).
-/
import CharmDepot.Proofs.Runs
import CharmDepot.Value.Text
import Mathlib.Algebra.Group.Int.Defs

namespace CharmDepot.Value

open Number Outcome

-- =========================================================== long integers

theorem shown_int (n : Int) : (Value.int n).shown = shownInteger n := rfl

/-- An integer of more than 4300 digits has no written form. -/
theorem shown_int_of_long {n : Int} (h : Nat.pow 10 maxDigits ≤ n.natAbs) :
    (Value.int n).shown = .error (.value .tooLongToWrite) := by
  rw [shown_int, shownInteger, if_neg (Nat.not_lt.2 h)]

theorem pow_le_natAbs_pow (k : Nat) : Nat.pow 10 k ≤ ((16 : Int) ^ k).natAbs := by
  rw [Int.natAbs_pow]
  exact Nat.pow_le_pow_left (by decide) k

-- =========================================================== modest values

/-- Whether a value is given by its mark in a knot. -/
def isMarked : Value → Bool
  | knot .. | again _ => true
  | _ => false

/-- Whether a value is made of other values. -/
def isCollection : Value → Bool
  | list _ | tuple _ | map _ | set _ | knot .. | again _ => true
  | _ => false

/-- How the items of a set are shown, given how many levels are left below the set. -/
def shownInSet (levels : Nat) (cells : List (Nat × Value)) (around : List Nat) (v : Value) :
    Outcome String :=
  match levels with
  | 0 => .error .tooDeep
  | levels + 1 => shownWithin levels cells around v

theorem shownWithin_succ {v : Value} (h : v.isMarked = false) (levels : Nat)
    (cells : List (Nat × Value)) (around : List Nat) :
    shownWithin (levels + 1) cells around v
      = shownBy (shownWithin levels cells around) (shownInSet levels cells around) v := by
  unfold shownInSet
  cases v with
  | knot | again => cases h
  | _ => cases levels <;> rw [shownWithin] <;> simp

/-- Values whose integers are short enough to be written and whose collections are nested at most so
many levels deep, those in a set one level deeper. -/
inductive Modest : Nat → Value → Prop
  | plain {levels : Nat} {v : Value} (hplain : v.isCollection = false)
    (hshort : ∀ n, v = .int n → n.natAbs < Nat.pow 10 maxDigits) : Modest (levels + 1) v
  | list {levels : Nat} {items : List Value} (h : ∀ v ∈ items, Modest levels v) :
    Modest (levels + 1) (.list items)
  | tuple {levels : Nat} {items : List Value} (h : ∀ v ∈ items, Modest levels v) :
    Modest (levels + 1) (.tuple items)
  | map {levels : Nat} {entries : List (Value × Value)} (hkeys : ∀ e ∈ entries, Modest levels e.1)
    (hvalues : ∀ e ∈ entries, Modest levels e.2) : Modest (levels + 1) (.map entries)
  | set {levels : Nat} {items : List Value} (h : ∀ v ∈ items, Modest levels v) :
    Modest (levels + 2) (.set items)

/-- What is no collection is written unless it is a long integer. -/
theorem exists_shownWithin_of_plain {v : Value} (hplain : v.isCollection = false)
    (hshort : ∀ n, v = .int n → n.natAbs < Nat.pow 10 maxDigits) (levels : Nat)
    (cells : List (Nat × Value)) (around : List Nat) :
    ∃ words, shownWithin (levels + 1) cells around v = .ok words := by
  cases v with
  | list | tuple | map | set | knot | again => cases hplain
  | int n =>
    rw [shownWithin_succ rfl, shownBy, shownInteger, if_pos (hshort n rfl)]
    exact ⟨_, rfl⟩
  | _ =>
    rw [shownWithin_succ rfl]
    exact ⟨_, rfl⟩

/-- A list of values is written between brackets if each of them is written. -/
theorem exists_bracketed {items : List Value} {inner : Value → Outcome String}
    (h : ∀ v ∈ items, ∃ words, inner v = .ok words) (opening closing : String) :
    ∃ words, (items.mapM inner).map (bracketed opening closing) = .ok words := by
  rw [exists_map_eq_ok_iff, exists_mapM_eq_ok_iff]
  exact h

theorem exists_shownWithin {levels : Nat} {v : Value} (h : Modest levels v)
    (cells : List (Nat × Value)) (around : List Nat) :
    ∃ words, shownWithin levels cells around v = .ok words := by
  induction h with
  | plain hplain hshort => exact exists_shownWithin_of_plain hplain hshort _ cells around
  | list _ ih =>
    rw [shownWithin_succ rfl]
    exact exists_bracketed ih "[" "]"
  | @tuple levels items _ ih =>
    rw [shownWithin_succ rfl]
    match items, ih with
    | [], ih => exact exists_bracketed ih "(" ")"
    | [item], ih =>
      obtain ⟨words, hwords⟩ := ih item List.mem_cons_self
      exact exists_map_eq_ok_iff.2 ⟨words, hwords⟩
    | first :: second :: rest, ih => exact exists_bracketed ih "(" ")"
  | @map levels entries _ _ ihkeys ihvalues =>
    have hentries : ∀ e ∈ entries, ∃ words, (do
        let key ← shownWithin levels cells around e.1
        let value ← shownWithin levels cells around e.2
        pure (key ++ ": " ++ value) : Outcome String) = .ok words := by
      intro e he
      obtain ⟨key, hkey⟩ := ihkeys e he
      obtain ⟨value, hvalue⟩ := ihvalues e he
      exact ⟨_, bind_eq_ok.2 ⟨key, hkey, bind_eq_ok.2 ⟨value, hvalue, rfl⟩⟩⟩
    rw [shownWithin_succ rfl]
    obtain ⟨parts, hparts⟩ := exists_mapM_eq_ok_iff.2 hentries
    exact ⟨_, bind_eq_ok.2 ⟨parts, hparts, rfl⟩⟩
  | @set levels items _ ih =>
    rw [shownWithin_succ rfl]
    cases items with
    | nil => exact ⟨_, rfl⟩
    | cons item items => exact exists_bracketed ih "\x7b" "\x7d"

/-- Whatever is modest has a written form. -/
theorem exists_shown_of_modest {v : Value} (h : Modest writtenLevels v) :
    ∃ words, v.shown = .ok words :=
  exists_shownWithin h [] []

end CharmDepot.Value
