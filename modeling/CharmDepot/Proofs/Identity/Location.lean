/-
The forms that a location can take.

The host in front of a branch and the slashes behind it make no difference to what is read: one
identity, or one fault, or at every location that its branch is unknown (`ReadAlike`). There is one
exception to "the branch is what stands behind the host", and it makes no difference either: if the
slashes behind a branch complete the mark of a branch, then the branch is that mark less its slash,
which is the branch of nothing, and nothing is left of it behind a host without the mark
(`words_of_mark`).
-/
import CharmDepot.Proofs.Identity.Branch

namespace CharmDepot

open Text

variable {location location' : String}

-- =============================================================== words

/-- The words of the branch at a location. -/
def branchWords (location : String) : List (List Char) :=
  pieces '/' (dropFinal '/' (branchPath location.toList))

/-- The same is read at two locations: one identity, one fault, or at each of them that its branch is
unknown. -/
def ReadAlike (location location' : String) : Prop :=
  urlOfBranch location = urlOfBranch location'
    ∨ urlOfBranch location = .error (.refused (.unknownBranch location))
      ∧ urlOfBranch location' = .error (.refused (.unknownBranch location'))

theorem urlOfBranch_of_none (h : branchIdentity? (branchWords location) = none) :
    urlOfBranch location = .error (.refused (.unknownBranch location)) := by
  unfold branchWords at h
  unfold urlOfBranch
  rw [h]

theorem urlOfBranch_of_some {identity : List Char}
    (h : branchIdentity? (branchWords location) = some identity) :
    urlOfBranch location = Url.parse (String.ofList ("cs:".toList ++ identity)) := by
  unfold branchWords at h
  unfold urlOfBranch
  rw [h]

/-- What is read at a location depends on the identity that its words stand for. -/
theorem readAlike_of_words
    (h : branchIdentity? (branchWords location) = branchIdentity? (branchWords location')) :
    ReadAlike location location' := by
  cases hwords : branchIdentity? (branchWords location) with
  | none =>
    rw [hwords] at h
    exact .inr ⟨urlOfBranch_of_none hwords, urlOfBranch_of_none h.symm⟩
  | some identity =>
    rw [hwords] at h
    exact .inl ((urlOfBranch_of_some hwords).trans (urlOfBranch_of_some h.symm).symm)

/-- If a branch does not begin with the mark of one, and does with slashes behind it, then it is the
mark less its slash, and behind the mark there are slashes only. -/
theorem words_of_mark {branch tail : List Char} {k : Nat} (hnot : ¬ branchMark <+: branch)
    (h : branch ++ List.replicate k '/' = branchMark ++ tail) :
    pieces '/' (dropFinal '/' branch) = ["+branch".toList]
      ∧ pieces '/' (dropFinal '/' tail) = [[]] := by
  rcases List.append_eq_append_iff.1 h with ⟨front, hmark, hslashes⟩ | ⟨more, hbranch, -⟩
  · obtain ⟨-, hfront, htail⟩ := List.append_eq_replicate_iff.1 hslashes.symm
    have hbranch : dropFinal '/' branch = "+branch".toList := by
      rw [← dropFinal_append_replicate '/' branch front.length, ← hfront, ← hmark]
      decide
    have hnothing : dropFinal '/' tail = [] := by
      rw [htail]
      exact dropFinal_append_replicate '/' [] tail.length
    rw [hbranch, hnothing]
    exact ⟨by decide, by decide⟩
  · exact absurd ⟨more, hbranch.symm⟩ hnot

-- =============================================================== forms

/-- Slashes behind a branch are no part of its words, and neither is the host. -/
theorem branchIdentity?_form {branch host : String} (hnot : ¬ branchMark <+: branch.toList)
    (hhost : host ∈ branchHosts ∨ host = "" ∧ ['~'] <+: branch.toList) (k : Nat) :
    branchIdentity? (branchWords (host ++ branch ++ String.ofList (List.replicate k '/')))
      = branchIdentity? (pieces '/' (dropFinal '/' branch.toList)) := by
  unfold branchWords
  rw [String.toList_append, String.toList_append, String.toList_ofList, List.append_assoc]
  have hbehind (h : branchPath (host.toList ++ (branch.toList ++ List.replicate k '/'))
      = branch.toList ++ List.replicate k '/') :
      branchIdentity? (pieces '/' (dropFinal '/'
        (branchPath (host.toList ++ (branch.toList ++ List.replicate k '/')))))
        = branchIdentity? (pieces '/' (dropFinal '/' branch.toList)) := by
    rw [h, dropFinal_append_replicate]
  rcases hhost with hhost | ⟨rfl, user, huser⟩
  · rcases branchPath_host_cases hhost (branch.toList ++ List.replicate k '/')
      with h | ⟨tail, hmark, htail⟩
    · exact hbehind h
    · -- the branch is the mark less its slash: neither it nor what is left of it is known
      obtain ⟨hbranch, hnothing⟩ := words_of_mark hnot hmark
      rw [htail, hnothing, hbranch]
      rfl
  · apply hbehind
    rw [← huser]
    exact branchPath_user _

/-- **Forms of a location.** A branch that does not begin with `+branch/` is read the same behind
every host, behind none if it begins with a user, and with any number of slashes at its end. A
location that begins neither with a user nor with a host is refused: its branch is unknown. -/
theorem branch_forms :
    (∀ branch host : String, ¬ branchMark <+: branch.toList →
        host ∈ branchHosts ∨ host = "" ∧ ['~'] <+: branch.toList →
        ∀ k, ReadAlike (host ++ branch ++ String.ofList (List.replicate k '/')) ("lp:" ++ branch))
      ∧ ∀ location : String, ¬ ['~'] <+: location.toList →
        (∀ host ∈ branchHosts, ¬ host.toList <+: location.toList) →
        urlOfBranch location = .error (.refused (.unknownBranch location)) := by
  constructor
  · intro branch host hnot hhost k
    apply readAlike_of_words
    have hlp : "lp:" ∈ branchHosts := List.mem_cons_self
    have hplain := branchIdentity?_form hnot (.inl hlp) 0
    rw [List.replicate_zero, String.ofList_nil, String.append_empty] at hplain
    exact (branchIdentity?_form hnot hhost k).trans hplain.symm
  · intro location huser hhosts
    apply urlOfBranch_of_none
    have hpath : branchPath location.toList = [] := by
      rw [branchPath_eq huser, List.findSome?_eq_none_iff.2 fun host hhost =>
        dropStart?_eq_none_iff.2 (hhosts host hhost)]
      rfl
    unfold branchWords
    rw [hpath]
    rfl

/-- A user's branch on a host and without one, a branch that a slash completes to the mark, and a
location on a host that is not known. -/
theorem branch_forms_completed :
    urlOfBranch "lp:~who/charms/precise/w/trunk" = .ok ⟨"cs", "who", "precise", "w", .unset⟩
      ∧ ReadAlike "https://code.launchpad.net/+branch/~who/charms/precise/w/trunk//"
        "lp:~who/charms/precise/w/trunk"
      ∧ ReadAlike "~who/charms/precise/w/trunk/" "lp:~who/charms/precise/w/trunk"
      ∧ ReadAlike "http://launchpad.net/+branch/" "lp:+branch"
      ∧ urlOfBranch "git:charms/precise/w"
        = .error (.refused (.unknownBranch "git:charms/precise/w")) := by
  refine ⟨?_, ?_, ?_, ?_, ?_⟩
  · exact Url.parse_eq_ok_iff.2
      ⟨⟨"cs".toList, "who".toList, "precise".toList, "w".toList, -1⟩, rfl, by decide, rfl⟩
  · exact branch_forms.1 "~who/charms/precise/w/trunk" "https://code.launchpad.net/+branch/"
      (by decide) (.inl (by decide)) 2
  · exact branch_forms.1 "~who/charms/precise/w/trunk" "" (by decide) (.inr ⟨rfl, by decide⟩) 1
  · exact branch_forms.1 "+branch" "http://launchpad.net/" (by decide) (.inl (by decide)) 1
  · exact branch_forms.2 "git:charms/precise/w" (by decide) (by decide)

end CharmDepot
