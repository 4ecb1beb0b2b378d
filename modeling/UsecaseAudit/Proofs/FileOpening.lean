import UsecaseAudit.Proofs.DiskGrowth

/-!
# Opening files

The operations that change a disk, told by kinds of entries.  A file can be
opened for writing when its path leads to a folder, its name is not too long
and no folder stands in its place; the path then leads to the file, and nothing
else on the disk has changed.
-/

namespace UsecaseAudit
namespace Disk

section

variable {d e : Disk}

/-!
# Slots
-/

theorem slot_eq (d : Disk) (place : Location) (names : List String) (name : String) :
    d.slot place names name =
      (d.follow place names).bind fun parent =>
        if d.kind? parent = some true then
          if isTooLong name then .error .nameTooLong
          else .ok (parent ++ [name], d.entry? (parent ++ [name]))
        else .error .notFolder := by
  unfold slot
  cases d.follow place names with
  | error fault =>
      rfl
  | ok parent =>
      show (d.folderAt parent >>= _) = _
      unfold folderAt
      cases hentry : d.entry? parent with
      | none =>
          have hkind : d.kind? parent = none := kind?_eq_none_iff.mpr hentry
          dsimp only [Except.bind]
          rw [hkind]
          rfl
      | some entry =>
          cases entry with
          | file content =>
              have hkind : d.kind? parent = some false := by
                rw [kind?, hentry]
                rfl
              dsimp only [Except.bind]
              rw [hkind]
              rfl
          | folder entries =>
              dsimp only [Except.bind]
              rw [if_pos (kind?_eq_true_iff.mpr ⟨entries, hentry⟩), entry?_concat hentry]
              cases isTooLong name with
              | true => rfl
              | false => rfl

theorem fileSlot_concat {place : Location} {above : List String} {name : String}
    (hdots : isDots name = false) :
    d.fileSlot place (above ++ [name]) false =
      (d.follow place above).bind fun parent =>
        if d.kind? parent = some true then
          if isTooLong name then .error .nameTooLong
          else if d.kind? (parent ++ [name]) = some true then .error .isFolder
          else .ok (parent ++ [name])
        else .error .notFolder := by
  unfold fileSlot
  rw [List.getLast?_concat]
  dsimp only
  rw [hdots, List.dropLast_concat, slot_eq]
  cases d.follow place above with
  | error fault =>
      rfl
  | ok parent =>
      dsimp only [Except.bind]
      by_cases hfolder : d.kind? parent = some true
      · rw [if_pos hfolder, if_pos hfolder]
        by_cases hlong : isTooLong name = true
        · rw [if_pos hlong, if_pos hlong]
          rfl
        · rw [if_neg hlong, if_neg hlong]
          unfold kind?
          cases d.entry? (parent ++ [name]) with
          | none => rfl
          | some entry =>
              cases entry with
              | file content => rfl
              | folder entries => rfl
      · rw [if_neg hfolder, if_neg hfolder]
        rfl

theorem makeFolder_concat {p : Path} {above : List String} {name : String}
    (hparts : p.parts = above ++ [name]) (hdots : isDots name = false)
    (htext : refusal? p.text = none) :
    d.makeFolder p =
      (d.follow (d.start p) above).bind fun parent =>
        if d.kind? parent = some true then
          if isTooLong name then .error .nameTooLong
          else if d.kind? (parent ++ [name]) = none then
            .ok (d.install (parent ++ [name]) (.folder []))
          else .error .alreadyExists
        else .error .notFolder := by
  unfold makeFolder
  rw [htext, hparts, List.getLast?_concat]
  dsimp only
  rw [hdots, List.dropLast_concat, slot_eq]
  cases d.follow (d.start p) above with
  | error fault =>
      rfl
  | ok parent =>
      dsimp only [Except.bind]
      by_cases hfolder : d.kind? parent = some true
      · rw [if_pos hfolder, if_pos hfolder]
        by_cases hlong : isTooLong name = true
        · rw [if_pos hlong, if_pos hlong]
          rfl
        · rw [if_neg hlong, if_neg hlong]
          unfold kind?
          cases d.entry? (parent ++ [name]) with
          | none => rfl
          | some entry => rfl
      · rw [if_neg hfolder, if_neg hfolder]
        rfl

/-!
# Opening a file
-/

def baseOf (d : Disk) (path : String) : Location :=
  if path.toList.head? == some '/' then [] else d.here

def namesOf (path : String) : List String :=
  (Path.pieces path).filter (· != "")

def leads (d : Disk) (path : String) : Except Fault Location :=
  d.follow (d.baseOf path) (namesOf path)

def opened (d : Disk) (path : String) : Except SystemError Location :=
  match refusal? path with
  | some fault => .error ⟨fault, path⟩
  | none =>
      if path = "" then .error ⟨.notFound, path⟩
      else
        (d.fileSlot (d.baseOf path) (namesOf path) (path.toList.getLast? == some '/')).mapError
          fun fault => ⟨fault, path⟩

theorem write_eq (d : Disk) (path : String) (content : File) :
    d.write path content = (d.opened path).map fun target => d.install target (.file content) := by
  unfold write opened
  cases refusal? path with
  | some fault =>
      rfl
  | none =>
      dsimp only
      by_cases hempty : path = ""
      · rw [if_pos hempty, if_pos hempty]
        rfl
      · rw [if_neg hempty, if_neg hempty, ← baseOf, ← namesOf]
        cases d.fileSlot (d.baseOf path) (namesOf path) (path.toList.getLast? == some '/') with
        | error fault => rfl
        | ok target => rfl

theorem not_trailing_of_fileSlot {place target : Location} {names : List String} {trailing : Bool}
    (h : d.fileSlot place names trailing = .ok target) :
    trailing = false ∧ ∃ above name, names = above ++ [name] ∧ isDots name = false := by
  unfold fileSlot at h
  cases hlast : names.getLast? with
  | none =>
      rw [hlast] at h
      cases h
  | some name =>
      rw [hlast] at h
      dsimp only at h
      by_cases hrefused : (isDots name || trailing) = true
      · -- a name of dots or a trailing slash is refused, wherever the names before it lead
        rw [if_pos hrefused] at h
        cases hfollow : d.follow place names.dropLast with
        | error fault =>
            rw [hfollow] at h
            cases h
        | ok parent =>
            rw [hfollow] at h
            change (d.folderAt parent >>= fun _ => Except.error Fault.isFolder) = _ at h
            cases hfolder : d.folderAt parent with
            | error fault =>
                rw [hfolder] at h
                cases h
            | ok entries =>
                rw [hfolder] at h
                cases h
      · rcases Bool.or_eq_false_iff.mp (Bool.eq_false_iff.mpr hrefused) with ⟨hdots, htrailing⟩
        rcases List.getLast?_eq_some_iff.mp hlast with ⟨above, hnames⟩
        exact ⟨htrailing, above, name, hnames, hdots⟩

theorem fileSlot_eq_ok {place target : Location} {names : List String} {trailing : Bool}
    (h : d.fileSlot place names trailing = .ok target) :
    ∃ above name parent, names = above ++ [name] ∧ isDots name = false ∧
      d.follow place above = .ok parent ∧ d.kind? parent = some true ∧
      isTooLong name = false ∧ d.kind? (parent ++ [name]) ≠ some true ∧
      target = parent ++ [name] := by
  rcases not_trailing_of_fileSlot h with ⟨rfl, above, name, rfl, hdots⟩
  rw [fileSlot_concat hdots] at h
  cases hfollow : d.follow place above with
  | error fault =>
      rw [hfollow] at h
      cases h
  | ok parent =>
      rw [hfollow] at h
      dsimp only [Except.bind] at h
      split at h
      · rename_i hfolder
        split at h
        · cases h
        · rename_i hshort
          split at h
          · cases h
          · rename_i hfree
            cases h
            exact ⟨above, name, parent, rfl, hdots, hfollow, hfolder,
              Bool.eq_false_iff.mpr hshort, hfree, rfl⟩
      · cases h

theorem ne_dots_of_isDots {name : String} (h : isDots name = false) : name ≠ "." ∧ name ≠ ".." := by
  rcases Bool.or_eq_false_iff.mp h with ⟨hdot, hdots⟩
  exact ⟨beq_eq_false_iff_ne.mp hdot, beq_eq_false_iff_ne.mp hdots⟩

theorem kind?_on_way_concat {parent place : Location} {name : String}
    (hparent : d.kind? parent = some true) (hway : place <+: parent ++ [name])
    (hne : place ≠ parent ++ [name]) : d.kind? place = some true := by
  rcases List.prefix_concat_iff.mp hway with heq | habove
  · exact absurd heq hne
  · by_cases heq : place = parent
    · rw [heq]
      exact hparent
    · apply kind?_on_way habove heq
      rw [hparent]
      exact Option.some_ne_none true

/-- A file that can be opened is written at the location that its path leads to afterwards, in
folders that exist, and in place of a file or of nothing. -/
theorem opened_eq_ok {path : String} {target : Location} (h : d.opened path = .ok target)
    (content : File) :
    d.kind? target ≠ some true ∧
    (∀ place, place <+: target → place ≠ target → d.kind? place = some true) ∧
    Placed d (d.install target (.file content)) target (.file content) ∧
    (d.install target (.file content)).leads path = .ok target := by
  have hslot : d.fileSlot (d.baseOf path) (namesOf path) (path.toList.getLast? == some '/') =
      .ok target := by
    unfold opened at h
    split at h
    · cases h
    · split at h
      · cases h
      · cases hslot : d.fileSlot (d.baseOf path) (namesOf path)
            (path.toList.getLast? == some '/') with
        | error fault =>
            rw [hslot] at h
            cases h
        | ok found =>
            rw [hslot] at h
            cases h
            rfl
  rcases fileSlot_eq_ok hslot with
    ⟨above, name, parent, hnames, hdots, hfollow, hfolder, hshort, hfree, rfl⟩
  have hfolders : ∀ place, place <+: parent ++ [name] → place ≠ parent ++ [name] →
      d.kind? place = some true := fun place => kind?_on_way_concat hfolder
  have hplaced : Placed d (d.install (parent ++ [name]) (.file content)) (parent ++ [name])
      (.file content) := by
    apply placed_install rfl (List.concat_ne_nil name parent) _ hfree
    intro place hway hne heq
    rw [hfolders place hway hne] at heq
    cases heq
  have hgrows : Grows d (d.install (parent ++ [name]) (.file content)) := by
    apply hplaced.grows
    cases hkind : d.kind? (parent ++ [name]) with
    | none =>
        exact Or.inl rfl
    | some kind =>
        cases kind with
        | false => exact Or.inr rfl
        | true => exact absurd hkind hfree
  refine ⟨hfree, hfolders, hplaced, ?_⟩
  rcases ne_dots_of_isDots hdots with ⟨hdot, hdotdot⟩
  unfold leads
  rw [hnames, follow_append]
  have hbefore : (d.install (parent ++ [name]) (.file content)).follow
      ((d.install (parent ++ [name]) (.file content)).baseOf path) above = .ok parent :=
    hgrows.follow_eq_ok hfollow
  rw [hbefore]
  dsimp only [Except.bind]
  rw [follow_cons, if_pos (hgrows.kept parent true hfolder), if_neg hdot, if_neg hdotdot,
    hshort, if_neg Bool.false_ne_true, if_neg, follow]
  rw [hplaced.kind?_eq]
  exact Option.some_ne_none _

end

end Disk
end UsecaseAudit
