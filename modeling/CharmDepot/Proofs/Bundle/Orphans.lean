/-
Machines that no directive points at.

Verification counts the directives for each machine while it goes through the services: a directive
that is read as one for a machine of the bundle adds one to the count of that machine, and any other
directive leaves the counts alone, be it malformed or one too many (`countUse_eq`). So after the
directives of all services the count of a machine is the number of those that point at it
(`machineUses_eq`, `foldl_countUse`), whatever else is wrong with the bundle, and the machines
reported as unused are the `orphans`, at which no directive points (`orphans_reported`).

A machine whose id is none is always one of them, since what directives point at are numerals.
-/
import CharmDepot.Proofs.Bundle.Directive
import CharmDepot.Proofs.Bundle.Stages

namespace CharmDepot.Deployment

open Text

variable {σ : Type} {b : Deployment} {s s' : σ} {check : Value → StateM σ (Option String)}
variable {id directive : String}

-- ============================================================ references

/-- Whether a directive is read as one for the machine of an id. -/
def pointsAt (id directive : String) : Bool :=
  match Placement.parse directive with
  | .ok p => p.target = .machine id
  | .error _ => false

/-- All directives of a bundle, in the order in which they are checked. -/
def directives (b : Deployment) : List String :=
  b.services.flatMap (·.2.placements)

theorem pointsAt_iff :
    pointsAt id directive = true ↔
      ∃ p, Placement.parse directive = .ok p ∧ p.target = .machine id := by
  unfold pointsAt
  split
  · rename_i p hp
    simp [hp]
  · rename_i f hf
    simp [hf]

theorem uses_iff : b.Uses id ↔ ∃ directive ∈ b.directives, pointsAt id directive = true := by
  unfold Uses directives
  simp only [List.mem_flatMap, pointsAt_iff]
  constructor
  · intro h
    obtain ⟨e, he, directive, hdirective, hpoints⟩ := h
    exact ⟨directive, ⟨e, he, hdirective⟩, hpoints⟩
  · intro h
    obtain ⟨directive, ⟨e, he, hdirective⟩, hpoints⟩ := h
    exact ⟨e, he, directive, hdirective, hpoints⟩

/-- The directives that are placed on a machine of the bundle are those that point at it. -/
theorem placedMachine?_eq_some_iff_pointsAt (h : b.hasMachine id = true) :
    b.placedMachine? directive = some id ↔ pointsAt id directive = true := by
  rw [placedMachine?_eq_some_iff, pointsAt_iff]
  exact and_iff_left ((hasMachine_iff b id).1 h)

/-- What a directive points at has the form of an id. -/
theorem isMachineId_of_pointsAt (h : pointsAt id directive = true) : IsMachineId id := by
  obtain ⟨⟨container, target⟩, hp, rfl⟩ := pointsAt_iff.1 h
  have hid : id.toList ∈ numeralLanguage := (Placement.parse_eq_ok_iff.1 hp).1.target
  exact ⟨id.toList, isNumeral_iff.2 hid, .inl rfl⟩

-- ============================================================== counting

/-- The counts of the machines after one more directive. -/
def countUse (b : Deployment) (counts : List (String × Nat)) (directive : String) :
    List (String × Nat) :=
  match b.placedMachine? directive with
  | some id => counts.map fun e => if e.1 = id then (e.1, e.2 + 1) else e
  | none => counts

/-- The counts of the machines after all directives, service by service: none at first, and one more
with each directive. -/
def countUses (b : Deployment) : List (String × Nat) :=
  b.services.foldl (fun counts e => e.2.placements.foldl b.countUse counts)
    (b.machines.map fun e => (e.1, 0))

/-- One directive adds one to the count of the machine that it points at, and to no other. -/
theorem countUse_eq {counts : List (String × Nat)} (h : ∀ e ∈ counts, b.hasMachine e.1 = true)
    (directive : String) :
    b.countUse counts directive
      = counts.map fun e => (e.1, e.2 + [directive].countP (pointsAt e.1)) := by
  have hone (e : String × Nat) : [directive].countP (pointsAt e.1)
      = if pointsAt e.1 directive = true then 1 else 0 := List.countP_singleton
  unfold countUse
  cases hplaced : b.placedMachine? directive with
  | none =>
    refine (List.map_id counts).symm.trans (List.map_congr_left fun e he => ?_)
    have hnot : ¬ pointsAt e.1 directive = true := by
      rw [← placedMachine?_eq_some_iff_pointsAt (h e he), hplaced]
      exact nofun
    rw [hone, if_neg hnot]
    rfl
  | some id =>
    refine List.map_congr_left fun e he => ?_
    have hpoints : pointsAt e.1 directive = true ↔ e.1 = id := by
      rw [← placedMachine?_eq_some_iff_pointsAt (h e he), hplaced, Option.some.injEq, eq_comm]
    rw [hone]
    by_cases hid : e.1 = id
    · rw [if_pos hid, if_pos (hpoints.2 hid)]
    · rw [if_neg hid, if_neg (mt hpoints.1 hid)]
      rfl

/-- Any number of directives adds to every count the number of those that point at the machine. -/
theorem foldl_countUse {counts : List (String × Nat)} (h : ∀ e ∈ counts, b.hasMachine e.1 = true)
    (ds : List String) :
    ds.foldl b.countUse counts = counts.map fun e => (e.1, e.2 + ds.countP (pointsAt e.1)) := by
  induction ds generalizing counts with
  | nil => exact (List.map_id counts).symm
  | cons directive ds ih =>
    have hkept : ∀ e ∈ b.countUse counts directive, b.hasMachine e.1 = true := by
      rw [countUse_eq h]
      exact List.forall_mem_map.2 h
    rw [List.foldl_cons, ih hkept, countUse_eq h, List.map_map]
    refine List.map_congr_left fun e _ => Prod.ext rfl ?_
    show e.2 + [directive].countP (pointsAt e.1) + ds.countP (pointsAt e.1) = _
    rw [Nat.add_assoc, ← List.countP_append, List.singleton_append]

theorem countUses_eq :
    b.countUses = b.machines.map fun e => (e.1, b.directives.countP (pointsAt e.1)) := by
  have hmachines : ∀ e ∈ b.machines.map (fun e => (e.1, 0)), b.hasMachine e.1 = true := by
    rw [List.forall_mem_map]
    exact fun e he => (hasMachine_iff b e.1).2 ⟨e.2, he⟩
  unfold countUses
  rw [← List.foldl_flatMap]
  show b.directives.foldl b.countUse _ = _
  rw [foldl_countUse hmachines, List.map_map]
  exact List.map_congr_left fun e _ => Prod.ext rfl (Nat.zero_add _)

/-- The count of a machine is the number of directives that point at it. -/
theorem machineUses_eq :
    b.machineUses = b.machines.map fun e => (e.1, b.directives.countP (pointsAt e.1)) := by
  unfold machineUses
  refine List.map_congr_left fun e he => Prod.ext rfl ?_
  have hplaced : (b.services.flatMap fun e => e.2.placements.filterMap b.placedMachine?)
      = b.directives.filterMap b.placedMachine? := (List.filterMap_flatMap ..).symm
  show (b.services.flatMap fun e => e.2.placements.filterMap b.placedMachine?).count e.1 = _
  rw [hplaced, List.count_filterMap]
  refine List.countP_congr fun directive _ => ?_
  rw [beq_iff_eq]
  exact placedMachine?_eq_some_iff_pointsAt ((hasMachine_iff b e.1).2 ⟨e.2, he⟩)

-- =============================================================== orphans

/-- The ids of the machines at which no directive points, in order. -/
def orphans (b : Deployment) : List String :=
  (b.machines.map Prod.fst).filter fun id => !b.directives.any (pointsAt id)

theorem mem_orphans_iff :
    id ∈ b.orphans ↔ (∃ spec, (id, spec) ∈ b.machines) ∧ ¬ b.Uses id := by
  unfold orphans
  rw [List.mem_filter, List.mem_map, Bool.not_eq_true', ← Bool.not_eq_true, List.any_eq_true,
    ← uses_iff]
  refine and_congr_left fun _ => ?_
  constructor
  · intro h
    obtain ⟨⟨id, spec⟩, hmem, rfl⟩ := h
    exact ⟨spec, hmem⟩
  · intro h
    obtain ⟨spec, hmem⟩ := h
    exact ⟨_, hmem, rfl⟩

/-- A machine whose id is none has no directive for it. -/
theorem mem_orphans_of_not_isMachineId {e : String × Machine} (he : e ∈ b.machines)
    (hid : ¬ IsMachineId e.1) : e.1 ∈ b.orphans := by
  refine mem_orphans_iff.2 ⟨⟨e.2, he⟩, fun huses => hid ?_⟩
  obtain ⟨directive, -, hpoints⟩ := uses_iff.1 huses
  exact isMachineId_of_pointsAt hpoints

theorem unusedProblems_eq : b.unusedProblems = b.orphans.map Problem.unusedMachine := by
  have hunused (e : String × Machine) : b.directives.countP (pointsAt e.1) = 0
      ↔ (!b.directives.any (pointsAt e.1)) = true := by
    rw [List.countP_eq_zero, Bool.not_eq_true', ← Bool.not_eq_true, List.any_eq_true]
    simp only [not_exists, not_and]
  unfold unusedProblems orphans
  rw [machineUses_eq]
  induction b.machines with
  | nil => rfl
  | cons e ms ih =>
    rw [List.map_cons, List.map_cons, List.filter_cons]
    by_cases h : (!b.directives.any (pointsAt e.1)) = true
    · rw [if_pos h, List.map_cons, List.filterMap_cons_some (b := .unusedMachine e.1), ih]
      exact if_pos ((hunused e).2 h)
    · rw [if_neg h, List.filterMap_cons_none, ih]
      exact if_neg (mt (hunused e).1 h)

/-- A report that is got to says of every machine whose id is none that it is so. -/
theorem mem_of_not_isMachineId {ms : List (String × Machine)} {parts : List (List Problem)}
    (h : Runs (ms.mapM (machineProblems check)) s (.ok parts) s') {e : String × Machine}
    (he : e ∈ ms) (hid : ¬ IsMachineId e.1) : .invalidMachineId e.1 ∈ parts.flatten := by
  obtain ⟨part, hpart, _, _, hrun⟩ :=
    exists_mem_right_of_forall₂ (Runs.forall₂_of_mapM h) he
  obtain ⟨constraints, -, rfl⟩ := runs_machineProblems_ok_iff.1 hrun
  refine List.mem_flatten.2 ⟨_, hpart, List.mem_append_left _ ?_⟩
  rw [if_neg (mt (isCanonicalNumber_dropFinalNewline_iff e.1).1 hid)]
  exact List.mem_singleton_self _

/-- **Machines that no directive points at.** Whatever is wrong with a bundle, if its verification
comes to an end, every machine has been counted once for each directive of any service that is read
as one for it. The report ends in the machines with none, in the order of the bundle, and says so of
no machine before. A machine whose id is none is reported for both reasons. -/
theorem orphans_reported {found : List Problem} (h : Runs (b.problems check) s (.ok found) s') :
    b.machineUses = b.countUses
      ∧ b.countUses = b.machines.map (fun e => (e.1, b.directives.countP (pointsAt e.1)))
      ∧ (∀ id, id ∈ b.orphans ↔ (∃ spec, (id, spec) ∈ b.machines) ∧ ¬ b.Uses id)
      ∧ ((b.machines.map Prod.fst).Nodup → b.orphans.Nodup)
      ∧ ∃ earlier, found = earlier ++ b.orphans.map .unusedMachine
        ∧ (∀ id, .unusedMachine id ∉ earlier)
        ∧ ∀ e ∈ b.machines, ¬ IsMachineId e.1 →
          .invalidMachineId e.1 ∈ earlier ∧ e.1 ∈ b.orphans := by
  obtain ⟨relations, services, machines, s₁, hrelations, hservices, hmachines, rfl⟩ :=
    runs_problems_iff.1 h
  refine ⟨machineUses_eq.trans countUses_eq.symm, countUses_eq, fun id => mem_orphans_iff,
    List.Nodup.filter _, relations ++ services.flatten ++ machines.flatten, ?_, fun id hid => ?_,
    fun e he hid => ⟨?_, mem_orphans_of_not_isMachineId he hid⟩⟩
  · rw [unusedProblems_eq]
  · -- of what was found before, nothing is of the last stage
    rw [List.mem_append, List.mem_append] at hid
    rcases hid with (hid | hid) | hid
    · cases stage_of_allRelationProblems hrelations hid
    · cases stage_of_mapM stage_of_serviceProblems hservices hid
    · cases stage_of_mapM stage_of_machineProblems hmachines hid
  · exact List.mem_append_right _ (mem_of_not_isMachineId hmachines he hid)

/-- A bundle in disrepair: one service, whose directives are two for a machine, one for none that
the bundle has, one for a new machine and one that is malformed; a relation of one endpoint; and
three machines, one of which is called as new ones are. -/
def neglected : Deployment where
  services := [(.text "a", ⟨.text "cs:precise/a", 1, ["lxc:0", "7", "new", "0", "a/01"], [], [],
    .text ""⟩)]
  machines := [("0", ⟨.text "", []⟩), ("new", ⟨.text "", []⟩), ("1", ⟨.text "", []⟩)]
  series := .text ""
  relations := [[.text "a:db"]]

theorem orphans_reported_neglected :
    ∃ found s', Runs (neglected.problems fun _ => pure none) () (.ok found) s'
      ∧ neglected.countUses = [("0", 2), ("new", 0), ("1", 0)]
      ∧ ∃ earlier, found = earlier ++ [.unusedMachine "new", .unusedMachine "1"]
        ∧ (∀ id, .unusedMachine id ∉ earlier) ∧ .invalidMachineId "new" ∈ earlier := by
  have hreportable : neglected.Reportable := by
    refine reportable_of_texts ?_ ?_
    · simp [neglected, Value.isText]
    · intro e he
      obtain rfl := List.mem_singleton.1 he
      exact ⟨rfl, rfl, Number.one_lt_pow_ten (by decide), by decide⟩
  obtain ⟨found, s', h⟩ := succeeds_problems_iff.2 hreportable
  obtain ⟨-, huses, -, -, earlier, hfound, hearlier, hinvalid⟩ := orphans_reported h
  have hnew : ¬ IsMachineId "new" := by
    rw [← isCanonicalNumber_dropFinalNewline_iff]
    decide
  refine ⟨found, s', h, huses.trans (by decide), earlier, ?_, hearlier, ?_⟩
  · have horphans : neglected.orphans = ["new", "1"] := by decide
    rw [hfound, horphans]
    rfl
  · exact (hinvalid ("new", ⟨.text "", []⟩) (by simp [neglected]) hnew).1

end CharmDepot.Deployment
