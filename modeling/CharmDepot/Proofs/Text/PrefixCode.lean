/-
Texts that are written character by character and can be read back.

File names and the paths of addresses have a word for each character. No word begins another one
(`IsPrefixCode`), so a text is determined by the words that it is written with
(`IsPrefixCode.injective`). Two texts never have the same file name (`fileName_injective`) and never
the same path (`percentPath_injective`).
-/
import CharmDepot.Identity.FileName
import CharmDepot.Text.Percent
import CharmDepot.Text.Pieces
import Mathlib.Data.List.Basic

namespace CharmDepot

namespace Text

-- ======================================================== prefix codes

/-- A word for each item, none of them empty and none the beginning of another. -/
structure IsPrefixCode {α β : Type} (word : α → List β) : Prop where
  ne_nil : ∀ a, word a ≠ []
  eq_of_begins : ∀ a b, word a <+: word b → a = b

namespace IsPrefixCode

variable {α β γ : Type} {word : α → List β}

/-- What the words of a list begin, the list begins. -/
theorem prefix_of_flatMap (h : IsPrefixCode word) {l m : List α}
    (hlm : l.flatMap word <+: m.flatMap word) : l <+: m := by
  induction l generalizing m with
  | nil => exact List.nil_prefix
  | cons a l ih =>
    cases m with
    | nil =>
      rw [List.flatMap_nil, List.prefix_nil, List.flatMap_cons, List.append_eq_nil_iff] at hlm
      exact absurd hlm.1 (h.ne_nil a)
    | cons b m =>
      rw [List.flatMap_cons, List.flatMap_cons] at hlm
      have ha : word a <+: word b ++ m.flatMap word := (List.prefix_append _ _).trans hlm
      obtain rfl : a = b := by
        rcases List.prefix_or_prefix_of_prefix ha (List.prefix_append _ _) with hab | hba
        · exact h.eq_of_begins a b hab
        · exact (h.eq_of_begins b a hba).symm
      rw [List.prefix_append_right_inj] at hlm
      rw [List.cons_prefix_cons]
      exact ⟨rfl, ih hlm⟩

theorem injective (h : IsPrefixCode word) {l m : List α} (hlm : l.flatMap word = m.flatMap word) :
    l = m := by
  have hle : l <+: m := h.prefix_of_flatMap (hlm ▸ List.prefix_rfl)
  have hge : m <+: l := h.prefix_of_flatMap (hlm ▸ List.prefix_rfl)
  exact hle.eq_of_length (Nat.le_antisymm hle.length_le hge.length_le)

/-- Words that are written in a code themselves. -/
theorem flatMap {word' : β → List γ} (h' : IsPrefixCode word') (h : IsPrefixCode word) :
    IsPrefixCode fun a => (word a).flatMap word' where
  ne_nil a hnil := by
    obtain ⟨b, rest, hword⟩ := List.exists_cons_of_ne_nil (h.ne_nil a)
    rw [hword, List.flatMap_cons, List.append_eq_nil_iff] at hnil
    exact h'.ne_nil b hnil.1
  eq_of_begins a b hab := h.eq_of_begins a b (h'.prefix_of_flatMap hab)

/-- Items that stand for themselves beside items that have a word, where the words begin with a mark
that does not stand for itself. -/
theorem marked {alone : α → Bool} {mark : α} {rest : α → List α} (hmark : alone mark = false)
    (hrest : ∀ a b, rest a <+: rest b → a = b) :
    IsPrefixCode fun a => if alone a then [a] else mark :: rest a where
  ne_nil a := by
    split <;> simp
  eq_of_begins a b hab := by
    split at hab
    · rename_i ha
      split at hab
      · simpa using hab
      · obtain rfl : a = mark := (List.cons_prefix_cons.1 hab).1
        rw [hmark] at ha
        cases ha
    · split at hab
      · rename_i hb
        obtain rfl : mark = b := (List.cons_prefix_cons.1 hab).1
        rw [hmark] at hb
        cases hb
      · exact hrest a b (List.cons_prefix_cons.1 hab).2

end IsPrefixCode

-- ==================================================== numerals in codes

/-- The number that a row of hexadecimal digits stands for. -/
def hexTotal (cs : List Char) : Nat :=
  cs.foldl (fun acc c => acc * 16 + (hexValue? c).getD 0) 0

theorem hexValue?_hexDigit (d : Nat) : hexValue? (hexDigit d) = some (d % 16) := by
  have h : ∀ r < 16, hexValue? (hexDigit r) = some r := by decide
  have hmod : hexDigit (d % 16) = hexDigit d := by simp [hexDigit]
  rw [← hmod]
  exact h _ (Nat.mod_lt _ (by decide))

theorem hexTotal_hexDigits (n : Nat) : hexTotal (hexDigits n) = n := by
  induction n using Nat.strongRecOn with
  | _ n ih =>
    unfold hexDigits
    split
    · rename_i h
      rw [h]
      rfl
    · have hlower := ih (n / 16) (by omega)
      unfold hexTotal at hlower ⊢
      rw [List.foldl_append, hlower, List.foldl_cons, List.foldl_nil, hexValue?_hexDigit,
        Option.getD_some]
      omega

theorem hexTotal_hexPadded (width n : Nat) : hexTotal (hexPadded width n) = n := by
  have hzeros (k : Nat) (acc : Nat) (h : acc = 0) :
      (List.replicate k '0').foldl (fun acc c => acc * 16 + (hexValue? c).getD 0) acc = 0 := by
    induction k generalizing acc with
    | zero => exact h
    | succ k ih =>
      rw [List.replicate_succ, List.foldl_cons]
      exact ih _ (by rw [h]; rfl)
  have hdigits := hexTotal_hexDigits n
  unfold hexTotal at hdigits ⊢
  unfold hexPadded
  rw [List.foldl_append, hzeros _ 0 rfl, hdigits]

theorem underscore_not_mem_hexPadded (width n : Nat) : '_' ∉ hexPadded width n := by
  have hdigit (d : Nat) : '_' ≠ hexDigit d := by
    intro h
    have := hexValue?_hexDigit d
    rw [← h] at this
    cases this
  have hdigits : '_' ∉ hexDigits n := by
    induction n using Nat.strongRecOn with
    | _ n ih =>
      unfold hexDigits
      split
      · exact List.not_mem_nil
      · rw [List.mem_append, List.mem_singleton, not_or]
        exact ⟨ih (n / 16) (by omega), hdigit _⟩
  unfold hexPadded
  rw [List.mem_append, not_or]
  refine ⟨?_, hdigits⟩
  rw [List.mem_replicate]
  rintro ⟨-, h⟩
  cases h

-- ============================================================= bytes

theorem toList_loop (bs : ByteArray) (i : Nat) (r : List UInt8) :
    ByteArray.toList.loop bs i r = r.reverse ++ bs.data.toList.drop i := by
  fun_induction ByteArray.toList.loop bs i r with
  | case1 i r hlt ih =>
    have hlt : i < bs.data.toList.length := by simpa using hlt
    have hget : bs.get! i = bs.data.toList[i] := by
      rw [Array.getElem_toList]
      exact getElem!_pos bs.data i (by simpa using hlt)
    rw [ih, List.drop_eq_getElem_cons hlt, hget, List.reverse_cons, List.append_assoc,
      List.singleton_append]
  | case2 i r hge =>
    have hge : bs.data.toList.length ≤ i := by simpa using hge
    rw [List.drop_eq_nil_of_le hge, List.append_nil]

theorem utf8_eq_flatMap (s : String) : utf8 s = s.toList.flatMap String.utf8EncodeChar := by
  rw [← String.ofList_toList (s := s)]
  unfold utf8
  rw [ByteArray.toList, toList_loop, List.reverse_nil, List.nil_append, List.drop_zero,
    String.toUTF8, String.toByteArray_ofList, String.toList_ofList]
  exact List.toList_data_toByteArray

theorem utf8_singleton (c : Char) : utf8 (String.singleton c) = String.utf8EncodeChar c := by
  simp [utf8_eq_flatMap]

/-- The first character of a byte string can be told without what follows it. -/
theorem isPrefixCode_utf8 : IsPrefixCode fun c => utf8 (String.singleton c) where
  ne_nil c := by
    rw [utf8_singleton]
    exact String.utf8EncodeChar_ne_nil
  eq_of_begins a b hab := by
    rw [utf8_singleton, utf8_singleton] at hab
    obtain ⟨more, hmore⟩ := hab
    have ha := ByteArray.utf8DecodeChar?_utf8EncodeChar_append (b := more.toByteArray) (c := a)
    have hb := ByteArray.utf8DecodeChar?_utf8EncodeChar_append (b := .empty) (c := b)
    rw [← List.toByteArray_append, hmore] at ha
    rw [ByteArray.append_empty] at hb
    exact Option.some.inj (ha.symm.trans hb)

theorem isPrefixCode_percentByte : IsPrefixCode percentByte where
  ne_nil _ := List.cons_ne_nil _ _
  eq_of_begins a b hab := by
    have hdigit : ∀ d < 16, ∀ e < 16, (hexDigit d).toUpper = (hexDigit e).toUpper → d = e := by
      decide
    unfold percentByte at hab
    simp only [List.cons_prefix_cons, List.prefix_nil, and_true, true_and] at hab
    have ha := a.toNat_lt
    have hb := b.toNat_lt
    have hhigh := hdigit _ (by omega) _ (by omega) hab.1
    have hlow := hdigit _ (by omega) _ (by omega) hab.2
    apply UInt8.toNat_inj.1
    omega

-- ========================================================= addresses

theorem isPrefixCode_percentChar {keep : Char → Bool} (hkeep : keep '%' = false) :
    IsPrefixCode (percentChar keep) := by
  have hcode := isPrefixCode_percentByte.flatMap isPrefixCode_utf8
  have hhead (c : Char) : ∃ rest, (utf8 (String.singleton c)).flatMap percentByte = '%' :: rest := by
    obtain ⟨b, rest, hbytes⟩ := List.exists_cons_of_ne_nil (isPrefixCode_utf8.ne_nil c)
    rw [hbytes]
    exact ⟨_, rfl⟩
  choose rest hrest using hhead
  have hmarked : percentChar keep
      = fun c => if isUnreserved c || keep c then [c] else '%' :: rest c := by
    funext c
    unfold percentChar
    rw [hrest]
  rw [hmarked]
  refine .marked (by rw [hkeep]; decide) fun a b hab => hcode.eq_of_begins a b ?_
  rw [hrest, hrest, List.cons_prefix_cons]
  exact ⟨rfl, hab⟩

/-- A path in percent coding is that of one text only. -/
theorem percentPath_injective : Function.Injective percentPath := by
  intro s s' h
  unfold percentPath at h
  have hcode : IsPrefixCode (percentChar (· == '/')) := isPrefixCode_percentChar (by decide)
  exact String.toList_inj.1 (hcode.injective (String.ofList_inj.1 h))

end Text

-- ========================================================= file names

open Text

theorem isPrefixCode_fileNameChar : IsPrefixCode fileNameChar := by
  have hmark : isFileNameChar '_' = false := by decide +kernel
  refine .marked hmark fun a b hab => ?_
  -- the underscore that ends one numeral is the one that ends the other
  obtain ⟨more, hmore⟩ : hexPadded 2 a.toNat ++ ['_'] <+: hexPadded 2 b.toNat ++ ['_'] := hab
  rw [List.append_assoc, List.singleton_append] at hmore
  have hcut := congrArg (cutFirst? '_') hmore
  rw [cutFirst?_append (underscore_not_mem_hexPadded 2 _),
    cutFirst?_append (underscore_not_mem_hexPadded 2 _)] at hcut
  have hnumeral := (Prod.mk.inj (Option.some.inj hcut)).1
  apply Char.toNat_inj.1
  rw [← hexTotal_hexPadded 2 a.toNat, hnumeral, hexTotal_hexPadded]

/-- A file name is that of one text only. -/
theorem fileName_injective : Function.Injective fileName := by
  intro s s' h
  unfold fileName at h
  exact String.toList_inj.1 (isPrefixCode_fileNameChar.injective (String.ofList_inj.1 h))

end CharmDepot
