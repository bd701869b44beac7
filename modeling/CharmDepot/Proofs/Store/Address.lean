/-
Where the requests of a client go.

A client whose base address has a scheme can send every request (`HasScheme.address`): neither the
brackets nor the word that an address may have around it hide the scheme from a target behind it.
A client is `Online` if the address of every request leads to the resource that is asked for; a
client of any host is, when its base address has no path of its own (`online_of_host`). The address
of a download then tells which charm it is for (`urlOf_download_inj`), so that downloads can be
counted by the addresses that requests were sent to.
-/
import CharmDepot.Store.Queries
import CharmDepot.Proofs.Runs
import CharmDepot.Proofs.Text.PrefixCode

namespace CharmDepot

open Text

-- =========================================================== characters

/-- A character that the target of a request can have. -/
def isTargetChar (c : Char) : Bool :=
  isUnreserved c || ['%', '/', '?', '&', '=', '+'].contains c

theorem toNat_of_isUnreserved {c : Char} (h : isUnreserved c = true) :
    0x25 ≤ c.toNat ∧ c.toNat ≤ 0x7E := by
  unfold isUnreserved Char.isAlphanum Char.isAlpha Char.isUpper Char.isLower Char.isDigit at h
  simp only [Bool.or_eq_true, Bool.and_eq_true, decide_eq_true_eq, beq_iff_eq, ge_iff_le,
    UInt32.le_iff_toNat_le] at h
  unfold Char.toNat
  rcases h with (((((h | h) | h) | rfl) | rfl) | rfl) | rfl
  · exact ⟨Nat.le_trans (by decide) h.1, Nat.le_trans h.2 (by decide)⟩
  · exact ⟨Nat.le_trans (by decide) h.1, Nat.le_trans h.2 (by decide)⟩
  · exact ⟨Nat.le_trans (by decide) h.1, Nat.le_trans h.2 (by decide)⟩
  all_goals decide

theorem toNat_of_isTargetChar {c : Char} (h : isTargetChar c = true) :
    0x25 ≤ c.toNat ∧ c.toNat ≤ 0x7E := by
  unfold isTargetChar at h
  rw [Bool.or_eq_true] at h
  rcases h with h | h
  · exact toNat_of_isUnreserved h
  · have hmarks : ∀ m ∈ ['%', '/', '?', '&', '=', '+'], 0x25 ≤ m.toNat ∧ m.toNat ≤ 0x7E := by
      simp
    exact hmarks c (by simpa using h)

theorem isAddressBlank_of_toNat {c : Char} (h : 0x25 ≤ c.toNat ∧ c.toNat ≤ 0x7E) :
    isAddressBlank c = false := by
  unfold isAddressBlank isBlank isAsciiBlank inRanges wideBlankRanges
  simp
  omega

/-- A character in percent coding is kept or made of unreserved ones and the percent sign. -/
theorem mem_percentChar {keep : Char → Bool} {c d : Char} (h : d ∈ percentChar keep c) :
    isUnreserved d = true ∨ keep d = true ∨ d = '%' := by
  unfold percentChar at h
  split at h
  · rename_i hc
    rw [List.mem_singleton.1 h]
    rw [Bool.or_eq_true] at hc
    tauto
  · obtain ⟨b, -, hd⟩ := List.mem_flatMap.1 h
    have hdigit : ∀ r < 16, isUnreserved (hexDigit r).toUpper = true := by decide
    have hb := b.toNat_lt
    simp only [percentByte, List.mem_cons, List.not_mem_nil, or_false] at hd
    rcases hd with rfl | rfl | rfl
    · exact .inr (.inr rfl)
    · exact .inl (hdigit _ (by omega))
    · exact .inl (hdigit _ (by omega))

theorem mem_percentField {s : String} {d : Char} (h : d ∈ (percentField s).toList) :
    isTargetChar d = true := by
  unfold percentField at h
  rw [String.toList_ofList, List.mem_flatMap] at h
  obtain ⟨c, -, hd⟩ := h
  split at hd
  · rw [List.mem_singleton.1 hd]
    decide
  · rcases mem_percentChar hd with h | h | rfl
    · simp [isTargetChar, h]
    · cases h
    · decide

-- ============================================================ targets

/-- No path of a resource has a query or a fragment in it. -/
theorem mem_resource_path {r : Resource} {d : Char} (h : d ∈ r.path.toList) :
    isUnreserved d = true ∨ d = '/' ∨ d = '%' := by
  have hplain (s : String) (hs : ∀ d ∈ s.toList, isUnreserved d = true ∨ d = '/' ∨ d = '%')
      (hd : d ∈ s.toList) := hs d hd
  cases r with
  | info _ => exact hplain "/charm-info" (by simp [isUnreserved]) h
  | event _ => exact hplain "/charm-event" (by simp [isUnreserved]) h
  | download path =>
    unfold Resource.path at h
    rw [String.toList_append, List.mem_append] at h
    rcases h with h | h
    · exact hplain "/charm/" (by simp [isUnreserved]) h
    · unfold percentPath at h
      rw [String.toList_ofList, List.mem_flatMap] at h
      obtain ⟨c, -, hd⟩ := h
      simpa using mem_percentChar hd

theorem exists_resource_path_eq (r : Resource) : ∃ rest, r.path.toList = '/' :: rest := by
  cases r with
  | info _ => exact ⟨"charm-info".toList, by rw [Resource.path]; decide⟩
  | event _ => exact ⟨"charm-event".toList, by rw [Resource.path]; decide⟩
  | download path =>
    refine ⟨"charm/".toList ++ (percentPath path).toList, ?_⟩
    rw [Resource.path, String.toList_append, ← List.cons_append]
    rfl

theorem mem_intercalate {separator : String} {parts : List String} {c : Char}
    (h : c ∈ (separator.intercalate parts).toList) :
    c ∈ separator.toList ∨ ∃ part ∈ parts, c ∈ part.toList := by
  induction parts with
  | nil =>
    rw [String.intercalate_nil] at h
    cases h
  | cons first parts ih =>
    cases parts with
    | nil =>
      rw [String.intercalate_singleton] at h
      exact .inr ⟨first, List.mem_singleton_self _, h⟩
    | cons second parts =>
      rw [String.intercalate_cons_cons, String.toList_append, String.toList_append,
        List.mem_append, List.mem_append] at h
      rcases h with (h | h) | h
      · exact .inr ⟨first, List.mem_cons_self, h⟩
      · exact .inl h
      · rcases ih h with h | ⟨part, hpart, h⟩
        · exact .inl h
        · exact .inr ⟨part, List.mem_cons_of_mem _ hpart, h⟩

/-- The target of a request begins with the path of its resource, and the path is followed by
nothing or by a query. -/
theorem toList_target (r : Request) :
    ∃ query, r.target.toList = r.resource.path.toList ++ query
      ∧ (query = [] ∨ ∃ rest, query = '?' :: rest) ∧ ∀ c ∈ query, isTargetChar c = true := by
  unfold Request.target
  dsimp only
  split
  · exact ⟨[], by rw [List.append_nil], .inl rfl, by simp⟩
  · refine ⟨'?' :: ("&".intercalate
      (r.fields.map fun f => percentField f.1 ++ "=" ++ percentField f.2)).toList, ?_,
      .inr ⟨_, rfl⟩, ?_⟩
    · rw [String.toList_append, String.toList_append, List.append_assoc]
      rfl
    · rw [List.forall_mem_cons]
      refine ⟨by decide, fun c hc => ?_⟩
      rcases mem_intercalate hc with hc | ⟨field, hfield, hc⟩
      · have hmark : ∀ c ∈ "&".toList, isTargetChar c = true := by simp [isTargetChar]
        exact hmark c hc
      · obtain ⟨f, -, rfl⟩ := List.mem_map.1 hfield
        rw [String.toList_append, String.toList_append, List.mem_append, List.mem_append] at hc
        rcases hc with (hc | hc) | hc
        · exact mem_percentField hc
        · have hmark : ∀ c ∈ "=".toList, isTargetChar c = true := by simp [isTargetChar]
          exact hmark c hc
        · exact mem_percentField hc

-- ============================================================= schemes

/-- The first mark in an address is a colon. -/
def ColonFirst (cs : List Char) : Prop :=
  ∃ front rest, cs = front ++ ':' :: rest ∧ ∀ c ∈ front, c ≠ '/' ∧ c ≠ ':'

theorem hasScheme_iff {cs : List Char} :
    hasScheme cs = true ↔ ColonFirst cs ∧ cs.head? ≠ some ':' := by
  unfold hasScheme
  dsimp only
  constructor
  · intro h
    set front := cs.takeWhile fun c => c != '/' && c != ':' with hfront
    obtain ⟨rest, hrest⟩ := List.takeWhile_prefix (l := cs) (fun c => c != '/' && c != ':')
    rw [← hfront] at hrest
    have hmarks : ∀ c ∈ front, c ≠ '/' ∧ c ≠ ':' := by
      intro c hc
      simpa using List.all_eq_true.1 List.all_takeWhile c hc
    rw [← hrest, List.drop_left, Bool.and_eq_true, beq_iff_eq] at h
    obtain ⟨hsome, hcolon⟩ := h
    obtain ⟨rest, rfl⟩ := List.head?_eq_some_iff.1 hcolon
    refine ⟨⟨front, rest, hrest.symm, hmarks⟩, ?_⟩
    obtain ⟨first, later, hfirst⟩ := List.exists_cons_of_ne_nil (by simpa using hsome)
    rw [← hrest, hfirst]
    intro h
    exact (hmarks first (by rw [hfirst]; exact List.mem_cons_self)).2 (Option.some.inj h)
  · rintro ⟨⟨front, rest, rfl, hmarks⟩, hhead⟩
    have hletters : ∀ c ∈ front, (c != '/' && c != ':') = true := by simpa using hmarks
    rw [List.takeWhile_append_of_pos hletters, List.takeWhile_cons_of_neg (by decide),
      List.append_nil, List.drop_left]
    cases front with
    | nil => exact absurd rfl hhead
    | cons first front => rfl

theorem ColonFirst.mono {cs ds : List Char} (h : ColonFirst cs) (hbegins : cs <+: ds) :
    ColonFirst ds := by
  obtain ⟨front, rest, rfl, hmarks⟩ := h
  obtain ⟨after, rfl⟩ := hbegins
  exact ⟨front, rest ++ after, by rw [List.append_assoc, List.cons_append], hmarks⟩

theorem trim_isPrefix (p : Char → Bool) (cs : List Char) : trim p cs <+: cs.dropWhile p := by
  unfold trim
  rw [← List.reverse_suffix, List.reverse_reverse]
  exact List.dropWhile_suffix p

theorem dropWhile_isPrefix {p : Char → Bool} {cs ds : List Char} (h : cs <+: ds) :
    cs.dropWhile p <+: ds.dropWhile p := by
  obtain ⟨after, rfl⟩ := h
  rw [List.dropWhile_append]
  split
  · rename_i hnone
    rw [List.isEmpty_iff.1 hnone]
    exact List.nil_prefix
  · exact List.prefix_append _ _

/-- White space in front hides no mark. -/
theorem ColonFirst.of_trim {cs : List Char} (h : ColonFirst (trim isAddressBlank cs)) :
    ColonFirst cs := by
  obtain ⟨front, rest, hdrop, hmarks⟩ := h.mono (trim_isPrefix _ cs)
  refine ⟨cs.takeWhile isAddressBlank ++ front, rest, ?_, fun c hc => ?_⟩
  · rw [List.append_assoc, ← hdrop, List.takeWhile_append_dropWhile]
  · rcases List.mem_append.1 hc with hc | hc
    · have hblank := List.all_eq_true.1 List.all_takeWhile c hc
      constructor <;> rintro rfl <;> exact absurd hblank (by decide)
    · exact hmarks c hc

theorem hasScheme_of_isPrefix {cs ds : List Char} (h : hasScheme cs = true) (hbegins : cs <+: ds) :
    hasScheme ds = true := by
  obtain ⟨hcolon, hhead⟩ := hasScheme_iff.1 h
  refine hasScheme_iff.2 ⟨hcolon.mono hbegins, ?_⟩
  obtain ⟨front, rest, rfl, -⟩ := hcolon
  obtain ⟨after, rfl⟩ := hbegins
  cases front with
  | nil => exact hhead
  | cons first front => exact hhead

-- ========================================================== addresses

theorem trim_eq_self {p : Char → Bool} {first : Char} {cs : List Char} (hfirst : p first = false)
    (hlast : ∀ c ∈ (first :: cs).getLast?, p c = false) : trim p (first :: cs) = first :: cs := by
  unfold trim
  rw [List.dropWhile_cons_of_neg (by simp [hfirst])]
  obtain ⟨last, rest, hback⟩ := List.exists_cons_of_ne_nil
    (List.reverse_ne_nil_iff.2 (List.cons_ne_nil first cs))
  have hneg : p last = false := by
    apply hlast
    rw [List.getLast?_eq_head?_reverse, hback]
    rfl
  rw [hback, List.dropWhile_cons_of_neg (by simp [hneg]), ← hback, List.reverse_reverse]

section Host
variable {scheme : List Char} (hlower : ∀ c ∈ scheme, c.isLower = true)
include hlower

theorem hasScheme_append (hscheme : scheme ≠ []) (rest : List Char) :
    hasScheme (scheme ++ ':' :: rest) = true := by
  have hmarks : ∀ c ∈ scheme, c ≠ '/' ∧ c ≠ ':' := by
    intro c hc
    have hc := hlower c hc
    constructor <;> rintro rfl <;> cases hc
  refine hasScheme_iff.2 ⟨⟨scheme, rest, rfl, hmarks⟩, ?_⟩
  obtain ⟨first, later, rfl⟩ := List.exists_cons_of_ne_nil hscheme
  intro h
  exact (hmarks first List.mem_cons_self).2 (Option.some.inj h)

/-- The path in an address that has nothing in front of it but a scheme and a host. -/
theorem addressPath_append {host path query : List Char}
    (hhost : ∀ c ∈ host, c ≠ '/' ∧ c ≠ '?' ∧ c ≠ '#') (hstart : ∃ rest, path = '/' :: rest)
    (hpath : ∀ c ∈ path, c ≠ '?' ∧ c ≠ '#') (hquery : query = [] ∨ ∃ rest, query = '?' :: rest) :
    addressPath (scheme ++ ':' :: '/' :: '/' :: (host ++ (path ++ query))) = path := by
  have hletters : ∀ c ∈ scheme, (c != ':') = true := by
    intro c hc
    have hc := hlower c hc
    rw [bne_iff_ne]
    rintro rfl
    cases hc
  have honward : (host ++ (path ++ query)).dropWhile (fun c => c != '/' && c != '?' && c != '#')
      = path ++ query := by
    obtain ⟨rest, rfl⟩ := hstart
    rw [List.dropWhile_append_of_pos (by simpa [and_assoc] using hhost), List.cons_append,
      List.dropWhile_cons_of_neg (by decide)]
  unfold addressPath
  rw [List.dropWhile_append_of_pos hletters, List.dropWhile_cons_of_neg (by decide)]
  simp only [List.drop_one, List.tail_cons]
  rw [honward, List.takeWhile_append_of_pos (by simpa using hpath)]
  rcases hquery with rfl | ⟨rest, rfl⟩
  · rw [List.takeWhile_nil, List.append_nil]
  · rw [List.takeWhile_cons_of_neg (by decide), List.append_nil]

end Host

/-- An address with nothing around it. -/
theorem bareAddress_eq_self {cs : List Char}
    (hfront : ∃ first rest, cs = first :: rest ∧ first.isLower = true)
    (hlast : ∀ c ∈ cs.getLast?, isAddressBlank c = false) : bareAddress cs = cs := by
  obtain ⟨first, rest, rfl, hfirst⟩ := hfront
  have hblank : isAddressBlank first = false := by
    refine isAddressBlank_of_toNat (toNat_of_isUnreserved ?_)
    have hletter : first.isAlpha = true := Bool.or_eq_true _ _ ▸ .inr hfirst
    simp [isUnreserved, Char.isAlphanum, hletter]
  have hopening : first ≠ '<' := by
    rintro rfl
    cases hfirst
  have hword : 'U' ≠ first := by
    rintro rfl
    cases hfirst
  unfold bareAddress withoutWord withoutBrackets
  simp [trim_eq_self hblank hlast, hopening, dropStart?, hword]

-- ============================================== addresses with targets

/-- Only what stands in front of a target can have white space around it. -/
theorem trim_append {cs target : List Char} {first last : Char}
    (hfirst : target.head? = some first) (hlast : target.getLast? = some last)
    (hfirstMark : isAddressBlank first = false) (hlastMark : isAddressBlank last = false) :
    trim isAddressBlank (cs ++ target) = cs.dropWhile isAddressBlank ++ target := by
  have hdrop : (cs ++ target).dropWhile isAddressBlank
      = cs.dropWhile isAddressBlank ++ target := by
    obtain ⟨rest, rfl⟩ := List.head?_eq_some_iff.1 hfirst
    rw [List.dropWhile_append]
    split
    · rename_i hnone
      rw [List.isEmpty_iff.1 hnone, List.dropWhile_cons_of_neg (by simp [hfirstMark])]
      rfl
    · rfl
  obtain ⟨front, rfl⟩ := List.getLast?_eq_some_iff.1 hlast
  unfold trim
  rw [hdrop, ← List.append_assoc, List.reverse_append, List.reverse_singleton,
    List.singleton_append, List.dropWhile_cons_of_neg (by simp [hlastMark]),
    ← List.singleton_append, List.reverse_append, List.reverse_reverse, List.reverse_singleton]

/-- The word in front of an address hides no mark, for it ends in one. -/
theorem hasScheme_of_withoutWord {cs : List Char} (h : hasScheme (withoutWord cs) = true) :
    hasScheme cs = true ∧ ∀ rest, dropStart? "URL:".toList cs = some rest →
      hasScheme (trim isAddressBlank rest) = true := by
  unfold withoutWord at h
  split at h
  · rename_i rest hrest
    have hcs : cs = 'U' :: 'R' :: 'L' :: ':' :: rest := dropStart?_eq_some hrest
    refine ⟨hasScheme_iff.2 ⟨⟨['U', 'R', 'L'], rest, hcs, by simp⟩, by simp [hcs]⟩, ?_⟩
    intro rest' hrest'
    obtain rfl := Option.some.inj (hrest.symm.trans hrest')
    exact h
  · rename_i hnone
    exact ⟨h, fun rest hrest => by cases hnone.symm.trans hrest⟩

/-- Brackets around an address hide no mark. -/
theorem hasScheme_of_bareAddress {base : List Char} (h : hasScheme (bareAddress base) = true) :
    hasScheme (trim isAddressBlank base) = true
      ∧ ∀ rest, dropStart? "URL:".toList (trim isAddressBlank base) = some rest →
        hasScheme (trim isAddressBlank rest) = true := by
  have hword := hasScheme_of_withoutWord h
  unfold withoutBrackets at hword
  split at hword
  · rename_i rest hopening
    split at hword
    · obtain ⟨front, after, rfl, hmarks⟩ :=
        (hasScheme_iff.1 hword.1).1.of_trim.mono (List.dropLast_prefix rest)
      rw [hopening]
      refine ⟨hasScheme_iff.2 ⟨⟨'<' :: front, after, rfl, ?_⟩, by simp⟩, fun _ h => by cases h⟩
      exact List.forall_mem_cons.2 ⟨by decide, hmarks⟩
    · exact hword
  · exact hword

/-- An address with a target behind it has a scheme if the address has one. -/
theorem hasScheme_bareAddress_append {base target : List Char}
    (h : hasScheme (bareAddress base) = true) (hstart : ∃ rest, target = '/' :: rest)
    (htarget : ∀ c ∈ target, isTargetChar c = true) :
    hasScheme (bareAddress (base ++ target)) = true := by
  obtain ⟨hscheme, hword⟩ := hasScheme_of_bareAddress h
  obtain ⟨rest, rfl⟩ := hstart
  obtain ⟨last, hlast⟩ : ∃ last, ('/' :: rest).getLast? = some last :=
    ⟨_, List.getLast?_eq_some_getLast (List.cons_ne_nil _ _)⟩
  have hlastMark := htarget last (List.mem_of_getLast? hlast)
  have htrim (cs : List Char) : trim isAddressBlank (cs ++ '/' :: rest)
      = cs.dropWhile isAddressBlank ++ '/' :: rest :=
    trim_append rfl hlast (by decide) (isAddressBlank_of_toNat (toNat_of_isTargetChar hlastMark))
  set front := base.dropWhile isAddressBlank with hfront
  have hbegins : trim isAddressBlank base <+: front := trim_isPrefix isAddressBlank base
  -- no target ends in a bracket
  have hbrackets : withoutBrackets (front ++ '/' :: rest) = front ++ '/' :: rest := by
    unfold withoutBrackets
    split
    · rename_i inner hinner
      rw [if_neg]
      intro hclosing
      have hback : (front ++ '/' :: rest).getLast? = some '>' := by
        rw [hinner, List.getLast?_cons, hclosing]
        rfl
      rw [List.getLast?_append, hlast] at hback
      rw [Option.some.inj hback] at hlastMark
      cases hlastMark
    · rfl
  unfold bareAddress
  rw [htrim, ← hfront, hbrackets]
  unfold withoutWord
  split
  · rename_i after hafter
    -- the first colon is that of the word, also in the address alone
    obtain ⟨more, hmore⟩ := hbegins
    obtain ⟨⟨scheme, later, hlater, hmarks⟩, -⟩ := hasScheme_iff.1 hscheme
    have hfull : ['U', 'R', 'L'] ++ ':' :: after
        = scheme ++ ':' :: (later ++ (more ++ '/' :: rest)) := by
      have hsplit := dropStart?_eq_some hafter
      rw [← hmore, hlater] at hsplit
      simpa using hsplit.symm
    have hcut := congrArg (cutFirst? ':') hfull
    rw [cutFirst?_append (by decide),
      cutFirst?_append (fun hmem => (hmarks ':' hmem).2 rfl)] at hcut
    obtain ⟨rfl, rfl⟩ := Prod.mk.inj (Option.some.inj hcut)
    rw [← List.append_assoc, htrim]
    refine hasScheme_of_isPrefix (hword later (by rw [hlater]; rfl)) ?_
    have hlonger := dropWhile_isPrefix (p := isAddressBlank) (List.prefix_append later more)
    exact (trim_isPrefix _ later).trans (hlonger.trans (List.prefix_append _ _))
  · exact hasScheme_of_isPrefix hscheme (hbegins.trans (List.prefix_append _ _))

/-- Every request begins with a slash and has no other characters than a target can have. -/
theorem isTargetChar_target (r : Request) :
    (∃ rest, r.target.toList = '/' :: rest) ∧ ∀ c ∈ r.target.toList, isTargetChar c = true := by
  obtain ⟨query, htarget, -, hquery⟩ := toList_target r
  obtain ⟨rest, hrest⟩ := exists_resource_path_eq r.resource
  rw [htarget]
  refine ⟨⟨rest ++ query, by rw [hrest, List.cons_append]⟩, fun c hc => ?_⟩
  rcases List.mem_append.1 hc with hc | hc
  · rcases mem_resource_path hc with h | rfl | rfl
    · simp [isTargetChar, h]
    · decide
    · decide
  · exact hquery c hc

namespace Store

/-- A client whose requests arrive: they can be authenticated, and the address of each leads to the
resource that it is for. -/
structure Online (s : Store) : Prop where
  authorized : ∃ line, s.authorization = .ok line
  address : ∀ resource, ∃ address, s.address (s.ask resource) = .ok address
    ∧ addressPath address = resource.path.toList

/-- The address that the request for a resource is sent to, empty if it cannot be sent. -/
def urlOf (s : Store) (resource : Resource) : String :=
  String.ofList ((s.address (s.ask resource)).toOption.getD [])

variable {s : Store}

/-- The base address of a client has a scheme. -/
def HasScheme (s : Store) : Prop :=
  hasScheme (bareAddress s.baseUrl.toList) = true

/-- A client whose base address has a scheme can send every request. -/
theorem HasScheme.address (h : s.HasScheme) (r : Request) :
    ∃ address, s.address r = .ok address := by
  obtain ⟨hstart, hchars⟩ := isTargetChar_target r
  unfold Store.address
  rw [String.toList_append]
  exact ⟨_, if_pos (hasScheme_bareAddress_append h hstart hchars)⟩

/-- A client of a host is online, if its base address has no path. -/
theorem online_of_host {scheme host : List Char}
    (hbase : s.baseUrl.toList = scheme ++ ':' :: '/' :: '/' :: host) (hscheme : scheme ≠ [])
    (hlower : ∀ c ∈ scheme, c.isLower = true)
    (hhost : ∀ c ∈ host, c ≠ '/' ∧ c ≠ '?' ∧ c ≠ '#')
    (hauth : ∃ line, s.authorization = .ok line) : s.Online := by
  refine ⟨hauth, fun resource => ?_⟩
  obtain ⟨query, htarget, hquery, -⟩ := toList_target (s.ask resource)
  obtain ⟨tail, htail⟩ := exists_resource_path_eq resource
  have hpath (c : Char) (hc : c ∈ resource.path.toList) : c ≠ '?' ∧ c ≠ '#' := by
    rcases mem_resource_path hc with h | rfl | rfl
    · constructor <;> rintro rfl <;> cases h
    · decide
    · decide
  set address := scheme ++ ':' :: '/' :: '/' :: (host ++ (resource.path.toList ++ query))
    with haddress
  have hfull : (s.baseUrl ++ (s.ask resource).target).toList = address := by
    rw [String.toList_append, hbase, htarget, List.append_assoc]
    rfl
  have hbare : bareAddress address = address := by
    obtain ⟨first, rest, hfirst⟩ := List.exists_cons_of_ne_nil hscheme
    refine bareAddress_eq_self ⟨first, _, by rw [haddress, hfirst]; rfl,
      hlower first (by rw [hfirst]; exact List.mem_cons_self)⟩ fun c hc => ?_
    rw [← hfull, String.toList_append, htarget,
      List.getLast?_append_of_ne_nil _ (by simp [Store.ask, htail])] at hc
    rw [← htarget] at hc
    have hchar := (isTargetChar_target (s.ask resource)).2 c (List.mem_of_getLast? hc)
    exact isAddressBlank_of_toNat (toNat_of_isTargetChar hchar)
  refine ⟨address, ?_, addressPath_append hlower hhost ⟨tail, htail⟩ hpath hquery⟩
  unfold Store.address
  rw [hfull, hbare]
  exact if_pos (hasScheme_append hlower hscheme _)

-- ==================================================== told by addresses

theorem path_eq_of_urlOf (h : s.Online) {r r' : Resource} (hurl : s.urlOf r = s.urlOf r') :
    r.path = r'.path := by
  obtain ⟨address, haddress, hpath⟩ := h.address r
  obtain ⟨address', haddress', hpath'⟩ := h.address r'
  unfold urlOf at hurl
  rw [haddress, haddress'] at hurl
  obtain rfl : address = address' := String.ofList_inj.1 hurl
  exact String.toList_inj.1 (hpath.symm.trans hpath')

/-- The address of a download is that of one charm only. -/
theorem urlOf_download_inj (h : s.Online) {path path' : String} :
    s.urlOf (.download path) = s.urlOf (.download path') ↔ path = path' := by
  refine ⟨fun hurl => ?_, fun heq => heq ▸ rfl⟩
  exact percentPath_injective ((String.append_right_inj _).1 (path_eq_of_urlOf h hurl))

/-- No record is asked for at the address of a download. -/
theorem urlOf_info_ne_download (h : s.Online) (keys : List String) (path : String) :
    s.urlOf (.info keys) ≠ s.urlOf (.download path) := by
  intro hurl
  have hpath := congrArg (fun p => p.toList[6]?) (path_eq_of_urlOf h hurl)
  have hinfo : (Resource.info keys).path.toList[6]? = some '-' := by
    rw [Resource.path]
    decide
  rw [hinfo, Resource.path, String.toList_append, List.getElem?_append_left (by decide)] at hpath
  revert hpath
  decide

end Store

end CharmDepot
