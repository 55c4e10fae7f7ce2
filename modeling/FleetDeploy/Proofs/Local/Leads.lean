import FleetDeploy.Local.Tree
import FleetDeploy.Proofs.Local.Path

/-!
# Where parts of a path lead

A path is followed with a bounded number of links.  Without the bound, following is a
relation between a place, the parts that are followed from it and the place they lead
to.  What is followed within any bound is so related, and parts lead to one place only,
so two walks along the same parts meet, whatever their bounds.
-/

namespace FleetDeploy.Tree

open FleetDeploy.Path (IsName dot slash split)

variable {tree : Tree} {place goal : Place} {part : List UInt8} {front rest : List Path}

/-- Where a link that stands in a directory is followed from. -/
def linkStart (place : Place) (target : Path) : Place :=
  if target.isAbsolute then [] else place

/-- The parts that lead from a place to another. -/
inductive Leads (tree : Tree) : Place → List Path → Place → Prop
  | here {place : Place} (present : tree.entry? place ≠ none) : Leads tree place [] place
  | stay {place goal : Place} {part : Path} {rest : List Path}
      (directory : tree.entry? place = some .directory) (idle : part = [] ∨ part = [dot])
      (next : Leads tree place rest goal) : Leads tree place (part :: rest) goal
  | up {place goal : Place} {rest : List Path}
      (directory : tree.entry? place = some .directory)
      (next : Leads tree place.dropLast rest goal) : Leads tree place ([dot, dot] :: rest) goal
  | link {place goal : Place} {part : Path} {rest : List Path} {target : Path}
      (directory : tree.entry? place = some .directory)
      (named : part ≠ [] ∧ part ≠ [dot] ∧ part ≠ [dot, dot])
      (found : tree.entry? (place ++ [part]) = some (.link target))
      (next : Leads tree (linkStart place target) (split slash target ++ rest) goal) :
      Leads tree place (part :: rest) goal
  | down {place goal : Place} {part : Path} {rest : List Path}
      (directory : tree.entry? place = some .directory)
      (named : part ≠ [] ∧ part ≠ [dot] ∧ part ≠ [dot, dot])
      (plain : ∀ target, tree.entry? (place ++ [part]) ≠ some (.link target))
      (next : Leads tree (place ++ [part]) rest goal) : Leads tree place (part :: rest) goal

/-- What is followed is led to. -/
theorem leads_of_follow? {links : Nat} {parts : List Path}
    (followed : tree.follow? links place parts = some goal) : tree.Leads place parts goal := by
  fun_induction follow? tree links place parts with
  | case1 links place =>
      obtain ⟨entry, present, rfl⟩ := Option.map_eq_some_iff.mp followed
      exact .here (present ▸ nofun)
  | case2 | case5 => cases followed
  | case3 links place part rest directory idle ih =>
      exact .stay (not_not.mp directory) idle (ih followed)
  | case4 links place rest directory busy ih => exact .up (not_not.mp directory) (ih followed)
  | case6 place part rest directory busy other target links found start ih =>
      rw [not_or] at busy
      exact .link (not_not.mp directory) ⟨busy.1, busy.2, other⟩ found (ih followed)
  | case7 place part rest directory busy other links first second ih =>
      rw [not_or] at busy
      refine .down (not_not.mp directory) ⟨busy.1, busy.2, other⟩ ?_ (ih followed)
      intro target found
      cases links with
      | zero => exact first target found rfl
      | succ links => exact second target links found rfl

theorem Leads.present {parts : List Path} (leads : tree.Leads place parts goal) :
    tree.entry? place ≠ none := by
  cases leads with
  | here present => exact present
  | stay directory | up directory | link directory | down directory =>
      rw [directory]
      exact nofun

/-- Names lead only through entries. -/
theorem Leads.child_present (leads : tree.Leads place (part :: rest) goal) (named : IsName part) :
    tree.entry? (place ++ [part]) ≠ none := by
  cases leads with
  | stay _ idle => exact absurd idle (not_or.mpr ⟨named.1, named.2.1⟩)
  | up => exact absurd rfl named.2.2.1
  | link _ _ found => exact found ▸ nofun
  | down _ _ _ next => exact next.present

/-- Something is looked for only in a directory. -/
theorem Leads.directory (leads : tree.Leads place (part :: rest) goal) :
    tree.entry? place = some .directory := by
  cases leads with
  | stay directory | up directory | link directory | down directory => exact directory

/-- Parts lead to one place only. -/
theorem Leads.eq {parts : List Path} {other : Place} (leads : tree.Leads place parts goal)
    (also : tree.Leads place parts other) : other = goal := by
  induction leads with
  | here =>
      cases also
      rfl
  | stay _ idle _ ih =>
      cases also with
      | stay _ _ next => exact ih next
      | up => exact absurd idle (by decide)
      | link _ named | down _ named =>
          exact absurd idle (not_or.mpr ⟨named.1, named.2.1⟩)
  | up _ _ ih =>
      cases also with
      | stay _ idle => exact absurd idle (by decide)
      | up _ next => exact ih next
      | link _ named | down _ named => exact absurd rfl named.2.2
  | link _ named found _ ih =>
      cases also with
      | stay _ idle => exact absurd idle (not_or.mpr ⟨named.1, named.2.1⟩)
      | up => exact absurd rfl named.2.2
      | link _ _ again next =>
          cases found.symm.trans again
          exact ih next
      | down _ _ plain => exact absurd found (plain _)
  | down _ named plain _ ih =>
      cases also with
      | stay _ idle => exact absurd idle (not_or.mpr ⟨named.1, named.2.1⟩)
      | up => exact absurd rfl named.2.2
      | link _ _ found => exact absurd found (plain _)
      | down _ _ _ next => exact ih next

/-- Parts in a row lead by way of the place that the first of them lead to. -/
theorem leads_append_iff {first : List Path} :
    tree.Leads place (first ++ rest) goal ↔
      ∃ middle, tree.Leads place first middle ∧ tree.Leads middle rest goal := by
  constructor
  · intro leads
    generalize whole : first ++ rest = parts at leads
    induction leads generalizing first with
    | here present =>
        obtain ⟨rfl, rfl⟩ := List.append_eq_nil_iff.mp whole
        exact ⟨_, .here present, .here present⟩
    | stay directory idle next ih =>
        rcases List.append_eq_cons_iff.mp whole with ⟨rfl, rfl⟩ | ⟨first, rfl, rfl⟩
        · exact ⟨_, .here (directory ▸ nofun), .stay directory idle next⟩
        · obtain ⟨middle, leads, onward⟩ := ih rfl
          exact ⟨middle, .stay directory idle leads, onward⟩
    | up directory next ih =>
        rcases List.append_eq_cons_iff.mp whole with ⟨rfl, rfl⟩ | ⟨first, rfl, rfl⟩
        · exact ⟨_, .here (directory ▸ nofun), .up directory next⟩
        · obtain ⟨middle, leads, onward⟩ := ih rfl
          exact ⟨middle, .up directory leads, onward⟩
    | link directory named found next ih =>
        rcases List.append_eq_cons_iff.mp whole with ⟨rfl, rfl⟩ | ⟨first, rfl, rfl⟩
        · exact ⟨_, .here (directory ▸ nofun), .link directory named found next⟩
        · obtain ⟨middle, leads, onward⟩ := ih (List.append_assoc _ _ _)
          exact ⟨middle, .link directory named found leads, onward⟩
    | down directory named plain next ih =>
        rcases List.append_eq_cons_iff.mp whole with ⟨rfl, rfl⟩ | ⟨first, rfl, rfl⟩
        · exact ⟨_, .here (directory ▸ nofun), .down directory named plain next⟩
        · obtain ⟨middle, leads, onward⟩ := ih rfl
          exact ⟨middle, .down directory named plain leads, onward⟩
  · rintro ⟨middle, leads, onward⟩
    induction leads with
    | here => exact onward
    | stay directory idle _ ih => exact .stay directory idle (ih onward)
    | up directory _ ih => exact .up directory (ih onward)
    | link directory named found _ ih =>
        have later := ih onward
        rw [List.append_assoc] at later
        exact .link directory named found later
    | down directory named plain _ ih => exact .down directory named plain (ih onward)

end FleetDeploy.Tree
