import Mathlib.Data.List.Induction
import UsecaseAudit.Proofs.FileOpening

/-!
# Making folders

The folders of a path are made where nothing stands, from the outermost one
inwards.  A path without dots has room for folders when none of its names is too
long and no file stands on its way, and they are made exactly then.  Where the
making fails, the disk is as it was, unless a name that is too long stands behind
a folder that was missing: the folders before that name have been made by then.

The way goes up once for every folder that is missing above the last one, before any
folder is made.
-/

namespace UsecaseAudit

def Path.IsStraight (p : Path) : Prop :=
  ∀ name ∈ p.parts, name ≠ "." ∧ name ≠ ".."

namespace Disk

/-!
# Folders
-/

def placeOf (d : Disk) (p : Path) : Location :=
  d.start p ++ p.parts

/-- A path along which folders can be made: no name is too long and no file stands on the way. -/
structure FolderRoom (d : Disk) (p : Path) : Prop where
  text : refusal? p.text = none
  short : ∀ name ∈ p.parts, isTooLong name = false
  start : d.kind? (d.start p) = some true
  way : ∀ done, done <+: p.parts → d.kind? (d.start p ++ done) ≠ some false

/-- The disk `e` is `d` with the folder of a path, which leads there now. -/
structure FoldersMade (d e : Disk) (p : Path) : Prop where
  text : refusal? p.text = none
  start : d.kind? (d.start p) = some true
  reached : e.follow (d.start p) p.parts = .ok (d.placeOf p)
  change : (d.kind? (d.placeOf p) = some true ∧ e = d) ∨
    (d.kind? (d.placeOf p) = none ∧ Placed d e (d.placeOf p) (.folder []))

/-- The disk `e` is `d` with folders made along a path, up to a name that is too long. -/
def FoldersBegun (d e : Disk) (p : Path) : Prop :=
  ∃ done name rest, p.parts = done ++ name :: rest ∧ isTooLong name = true ∧
    d.kind? (d.start p ++ done) = none ∧ Placed d e (d.start p ++ done) (.folder []) ∧
    e.follow (d.start p) done = .ok (d.start p ++ done)

section

variable {d e : Disk} {p : Path}

theorem isFolder_eq_ok_true_iff (hstraight : p.IsStraight) :
    d.isFolder p = .ok true ↔
      refusal? p.text = none ∧ d.follow (d.start p) p.parts = .ok (d.placeOf p) ∧
        d.kind? (d.placeOf p) = some true := by
  unfold isFolder asks lookup
  cases hrefusal : refusal? p.text with
  | some fault =>
      refine iff_of_false ?_ (fun h => Option.some_ne_none fault h.left)
      cases fault with
      | nameTooLong => exact fun h => nomatch h
      | _ => exact fun h => nomatch h
  | none =>
      dsimp only
      cases hfollow : d.follow (d.start p) p.parts with
      | error fault =>
          refine iff_of_false ?_ (fun h => nomatch h.right.left)
          cases fault with
          | nameTooLong => exact fun h => nomatch h
          | _ => exact fun h => nomatch h
      | ok target =>
          cases follow_straight hstraight hfollow
          rw [placeOf, kind?]
          dsimp only
          cases d.entry? (d.start p ++ p.parts) with
          | none => simp
          | some entry => simp

theorem follow_eq_of_room {place : Location} {names : List String}
    (hstraight : ∀ name ∈ names, name ≠ "." ∧ name ≠ "..")
    (hshort : ∀ name ∈ names, isTooLong name = false) (hstart : d.kind? place = some true)
    (hway : ∀ done, done <+: names → d.kind? (place ++ done) ≠ some false) :
    d.follow place names = .ok (place ++ names) ∨
      (d.follow place names = .error .notFound ∧ d.kind? (place ++ names) = none) := by
  induction names generalizing place with
  | nil =>
      exact Or.inl (by rw [follow, List.append_nil])
  | cons name rest ih =>
      rcases List.forall_mem_cons.mp hstraight with ⟨⟨hdot, hdots⟩, hrest⟩
      rcases List.forall_mem_cons.mp hshort with ⟨hname, hnames⟩
      have hassoc : ∀ below, place ++ name :: below = (place ++ [name]) ++ below := by
        intro below
        rw [List.append_assoc, List.singleton_append]
      rw [follow_cons, if_pos hstart, if_neg hdot, if_neg hdots, hname,
        if_neg Bool.false_ne_true, hassoc rest]
      cases hkind : d.kind? (place ++ [name]) with
      | none =>
          refine Or.inr ⟨if_pos rfl, ?_⟩
          by_cases hlast : rest = []
          · rw [hlast, List.append_nil]
            exact hkind
          · by_contra hpresent
            rw [kind?_above hlast hpresent] at hkind
            cases hkind
      | some kind =>
          rw [if_neg (Option.some_ne_none kind)]
          cases kind with
          | false =>
              exact absurd hkind (hway [name] (List.prefix_append [name] rest))
          | true =>
              apply ih hrest hnames hkind
              intro done hdone
              rw [← hassoc]
              exact hway (name :: done) (List.cons_prefix_cons.mpr ⟨rfl, hdone⟩)

theorem FolderRoom.parent {anchor : String} {done parts : List String} (hway : done <+: parts)
    (h : FolderRoom d ⟨anchor, parts⟩) : FolderRoom d ⟨anchor, done⟩ where
  text := refusal?_text_on_way hway h.text
  short name hname := h.short name (hway.subset hname)
  start := h.start
  way above habove := h.way above (habove.trans hway)

theorem FoldersMade.room (hstraight : p.IsStraight) (h : FoldersMade d e p) : FolderRoom d p where
  text := h.text
  short := ((follow_eq_ok_iff hstraight).mp h.reached).left
  start := h.start
  way := by
    intro done hdone hfile
    have hbelow : d.start p ++ done <+: d.placeOf p := List.prefix_append_right_inj _ |>.mpr hdone
    by_cases heq : d.start p ++ done = d.placeOf p
    · rw [heq] at hfile
      rcases h.change with ⟨hfolder, _⟩ | ⟨hnone, _⟩
      · rw [hfolder] at hfile
        cases hfile
      · rw [hnone] at hfile
        cases hfile
    · rcases h.change with ⟨hfolder, _⟩ | ⟨_, hplaced⟩
      · rw [kind?_on_way hbelow heq (by rw [hfolder]; exact Option.some_ne_none true)] at hfile
        cases hfile
      · exact (hplaced.above _ hbelow heq).right hfile

/-!
# Making one folder
-/

theorem ensureFolder_of_ok (h : d.makeFolder p = .ok e) : d.ensureFolder p = (e, none) := by
  unfold ensureFolder
  rw [h]

theorem ensureFolder_of_isFolder (h : d.makeFolder p = .error .alreadyExists)
    (hfolder : d.isFolder p = .ok true) : d.ensureFolder p = (d, none) := by
  unfold ensureFolder
  rw [h, hfolder]

theorem ensureFolder_of_error {fault : Fault} (h : d.makeFolder p = .error fault)
    (hfolder : d.isFolder p ≠ .ok true) : ∃ stop, d.ensureFolder p = (d, some stop) := by
  unfold ensureFolder
  rw [h]
  cases hanswer : d.isFolder p with
  | error e =>
      cases fault <;> exact ⟨_, rfl⟩
  | ok yes =>
      cases yes with
      | true =>
          exact absurd hanswer hfolder
      | false =>
          cases fault <;> exact ⟨_, rfl⟩

theorem install_folder {place : Location} {above : List String} {name : String}
    (hreached : d.follow place above = .ok (place ++ above))
    (hfolder : d.kind? (place ++ above) = some true) (hdots : name ≠ "." ∧ name ≠ "..")
    (hshort : isTooLong name = false) (hnone : d.kind? (place ++ above ++ [name]) = none) :
    Placed d (d.install (place ++ above ++ [name]) (.folder [])) (place ++ above ++ [name])
        (.folder []) ∧
      (d.install (place ++ above ++ [name]) (.folder [])).follow place (above ++ [name]) =
        .ok (place ++ above ++ [name]) := by
  have hplaced : Placed d (d.install (place ++ above ++ [name]) (.folder []))
      (place ++ above ++ [name]) (.folder []) := by
    apply placed_install rfl (List.concat_ne_nil name _)
    · intro way hway hne hfile
      rw [kind?_on_way_concat hfolder hway hne] at hfile
      cases hfile
    · rw [hnone]
      exact fun h => Option.some_ne_none true h.symm
  refine ⟨hplaced, ?_⟩
  have hgrows := hplaced.grows (Or.inl hnone)
  rw [follow_append, hgrows.follow_eq_ok hreached]
  dsimp only [Except.bind]
  rw [follow_cons, if_pos (hgrows.kept _ true hfolder), if_neg hdots.left, if_neg hdots.right,
    hshort, if_neg Bool.false_ne_true, if_neg, follow]
  rw [hplaced.kind?_eq]
  exact Option.some_ne_none _

end

/-!
# Making all folders of a path
-/

theorem isDots_eq_false {name : String} (h : name ≠ "." ∧ name ≠ "..") : isDots name = false := by
  unfold isDots
  rw [beq_eq_false_iff_ne.mpr h.left, beq_eq_false_iff_ne.mpr h.right]
  rfl

/-!
A folder whose own folder the path leads to: it has room when its name is not too long and no file
stands in its place.
-/

section

variable {d : Disk} {anchor name : String} {above : List String} {base : Location}
  (hstraight : Path.IsStraight ⟨anchor, above ++ [name]⟩)
  (htext : refusal? (Path.text ⟨anchor, above ++ [name]⟩) = none)
  (hbase : ∀ parts, d.start ⟨anchor, parts⟩ = base)
  (hreached : d.follow base above = .ok (base ++ above))

include hstraight hreached

theorem follow_concat_eq_ok (hshort : isTooLong name = false)
    (hpresent : d.kind? (base ++ above ++ [name]) ≠ none) :
    d.follow base (above ++ [name]) = .ok (base ++ (above ++ [name])) := by
  have hway := (follow_eq_ok_iff fun way hway =>
    hstraight way (List.mem_append_left [name] hway)).mp hreached
  rw [follow_eq_ok_iff hstraight, ← List.append_assoc, List.forall_mem_append,
    List.forall_mem_singleton]
  exact ⟨⟨hway.left, hshort⟩, Or.inr hpresent⟩

include htext hbase

theorem isFolder_concat_iff :
    d.isFolder ⟨anchor, above ++ [name]⟩ = .ok true ↔
      isTooLong name = false ∧ d.kind? (base ++ above ++ [name]) = some true := by
  rw [isFolder_eq_ok_true_iff hstraight, placeOf, hbase]
  dsimp only
  constructor
  · rintro ⟨_, hfollow, hkind⟩
    rw [← List.append_assoc] at hkind
    refine ⟨?_, hkind⟩
    exact ((follow_eq_ok_iff hstraight).mp hfollow).left name
      (List.mem_append_right above List.mem_cons_self)
  · rintro ⟨hshort, hkind⟩
    refine ⟨htext, follow_concat_eq_ok hstraight hreached hshort ?_, ?_⟩
    · rw [hkind]
      exact Option.some_ne_none true
    · rw [← List.append_assoc]
      exact hkind

theorem folderRoom_concat_iff :
    FolderRoom d ⟨anchor, above ++ [name]⟩ ↔
      d.kind? (base ++ above) = some true ∧ isTooLong name = false ∧
        d.kind? (base ++ above ++ [name]) ≠ some false := by
  have hway := (follow_eq_ok_iff fun way hway =>
    hstraight way (List.mem_append_left [name] hway)).mp hreached
  constructor
  · intro room
    have hshort := room.short name (List.mem_append_right above List.mem_cons_self)
    have hstart := room.start
    have habove := room.way above (List.prefix_append above [name])
    have hend := room.way (above ++ [name]) List.prefix_rfl
    rw [hbase] at hstart habove hend
    rw [← List.append_assoc] at hend
    refine ⟨?_, hshort, hend⟩
    rcases hway.right with hempty | hpresent
    · rw [hempty, List.append_nil]
      exact hstart
    · cases hkind : d.kind? (base ++ above) with
      | none =>
          exact absurd hkind hpresent
      | some kind =>
          cases kind with
          | true => rfl
          | false => exact absurd hkind habove
  · rintro ⟨hfolder, hshort, hfree⟩
    have hpresent : d.kind? (base ++ above) ≠ none := by
      rw [hfolder]
      exact Option.some_ne_none true
    refine ⟨htext, ?_, ?_, ?_⟩
    · rw [List.forall_mem_append, List.forall_mem_singleton]
      exact ⟨hway.left, hshort⟩
    · rw [hbase]
      by_cases hempty : above = []
      · rw [hempty, List.append_nil] at hfolder
        exact hfolder
      · exact kind?_above hempty hpresent
    · intro done hdone hfile
      rw [hbase] at hfile
      rcases List.prefix_concat_iff.mp hdone with rfl | hdone
      · rw [← List.append_assoc] at hfile
        exact hfree hfile
      · by_cases heq : done = above
        · rw [heq, hfolder] at hfile
          cases hfile
        · have hbelow : base ++ done <+: base ++ above :=
            (List.prefix_append_right_inj base).mpr hdone
          rw [kind?_on_way hbelow (fun h => heq (List.append_cancel_left h)) hpresent] at hfile
          cases hfile

theorem ensureFolder_of_reached :
    (∃ e, d.ensureFolder ⟨anchor, above ++ [name]⟩ = (e, none) ∧
        FoldersMade d e ⟨anchor, above ++ [name]⟩) ∨
      (¬ FolderRoom d ⟨anchor, above ++ [name]⟩ ∧
        ∃ stop, d.ensureFolder ⟨anchor, above ++ [name]⟩ = (d, some stop)) := by
  have hname : name ≠ "." ∧ name ≠ ".." :=
    hstraight name (List.mem_append_right above List.mem_cons_self)
  have hroom := folderRoom_concat_iff hstraight htext hbase hreached
  have hyes := isFolder_concat_iff hstraight htext hbase hreached
  have hplace : d.placeOf ⟨anchor, above ++ [name]⟩ = base ++ above ++ [name] := by
    rw [placeOf, hbase, List.append_assoc]
  have hmake := makeFolder_concat (d := d) (p := ⟨anchor, above ++ [name]⟩) rfl
    (isDots_eq_false hname) htext
  rw [hbase, hreached] at hmake
  dsimp only [Except.bind] at hmake
  by_cases hfolder : d.kind? (base ++ above) = some true
  · rw [if_pos hfolder] at hmake
    by_cases hlong : isTooLong name = true
    · right
      rw [if_pos hlong] at hmake
      rw [hlong] at hroom hyes
      refine ⟨fun room => (nomatch (hroom.mp room).right.left), ensureFolder_of_error hmake ?_⟩
      exact fun h => nomatch (hyes.mp h).left
    · rw [if_neg hlong] at hmake
      have hshort := Bool.eq_false_iff.mpr hlong
      cases hkind : d.kind? (base ++ above ++ [name]) with
      | none =>
          left
          rw [if_pos hkind] at hmake
          rcases install_folder hreached hfolder hname hshort hkind with ⟨hplaced, hend⟩
          have room := hroom.mpr ⟨hfolder, hshort, by rw [hkind]; exact nofun⟩
          refine ⟨_, ensureFolder_of_ok hmake, htext, room.start, ?_, Or.inr ⟨?_, ?_⟩⟩
          · rw [hplace, hbase]
            exact hend
          · rw [hplace]
            exact hkind
          · rw [hplace]
            exact hplaced
      | some kind =>
          have hpresent : d.kind? (base ++ above ++ [name]) ≠ none := by
            rw [hkind]
            exact Option.some_ne_none kind
          rw [if_neg hpresent] at hmake
          rw [hkind] at hroom hyes
          cases kind with
          | true =>
              left
              have room := hroom.mpr ⟨hfolder, hshort, nofun⟩
              refine ⟨d, ensureFolder_of_isFolder hmake (hyes.mpr ⟨hshort, rfl⟩), htext,
                room.start, ?_, Or.inl ⟨?_, rfl⟩⟩
              · rw [hbase, placeOf, hbase]
                exact follow_concat_eq_ok hstraight hreached hshort hpresent
              · rw [hplace]
                exact hkind
          | false =>
              right
              refine ⟨fun room => (hroom.mp room).right.right rfl, ensureFolder_of_error hmake ?_⟩
              exact fun h => nomatch (hyes.mp h).right
  · right
    rw [if_neg hfolder] at hmake
    refine ⟨fun room => hfolder (hroom.mp room).left, ensureFolder_of_error hmake ?_⟩
    intro h
    apply hfolder
    apply kind?_above (List.cons_ne_nil name [])
    rw [(hyes.mp h).right]
    exact Option.some_ne_none true

end

section

variable {d e : Disk} {p : Path}

theorem refusal?_ne_notFound {text : String} : refusal? text ≠ some .notFound := by
  unfold refusal?
  split
  · exact nofun
  · split
    · exact nofun
    · exact nofun

theorem makeFolder_of_refused {fault : Fault} (h : refusal? p.text = some fault) :
    d.makeFolder p = .error fault := by
  unfold makeFolder
  rw [h]

theorem ensureFolder_of_refused (hstraight : p.IsStraight) {fault : Fault}
    (h : refusal? p.text = some fault) : ∃ stop, d.ensureFolder p = (d, some stop) := by
  apply ensureFolder_of_error (makeFolder_of_refused h)
  intro hfolder
  rw [((isFolder_eq_ok_true_iff hstraight).mp hfolder).left] at h
  cases h

theorem ensureFolder_nil (d : Disk) (anchor : String) :
    (d.ensureFolder ⟨anchor, []⟩ = (d, none) ∧ FoldersMade d d ⟨anchor, []⟩) ∨
      (¬ FolderRoom d ⟨anchor, []⟩ ∧ ∃ stop, d.ensureFolder ⟨anchor, []⟩ = (d, some stop)) := by
  have hstraight : Path.IsStraight ⟨anchor, []⟩ := fun _ h => absurd h List.not_mem_nil
  have hplace : d.placeOf ⟨anchor, []⟩ = d.start ⟨anchor, []⟩ := List.append_nil _
  cases hrefusal : refusal? (Path.text ⟨anchor, []⟩) with
  | some fault =>
      right
      refine ⟨fun room => ?_, ensureFolder_of_refused hstraight hrefusal⟩
      rw [room.text] at hrefusal
      cases hrefusal
  | none =>
      have hmake : d.makeFolder ⟨anchor, []⟩ = .error .alreadyExists := by
        unfold makeFolder
        rw [hrefusal]
        rfl
      have hyes := isFolder_eq_ok_true_iff (d := d) hstraight
      rw [hplace] at hyes
      by_cases hstart : d.kind? (d.start ⟨anchor, []⟩) = some true
      · left
        have hfolder : d.isFolder ⟨anchor, []⟩ = .ok true := hyes.mpr ⟨hrefusal, rfl, hstart⟩
        refine ⟨ensureFolder_of_isFolder hmake hfolder, hrefusal, hstart, ?_, Or.inl ⟨?_, rfl⟩⟩
        · rw [hplace]
          rfl
        · rw [hplace]
          exact hstart
      · right
        refine ⟨fun room => hstart room.start, ensureFolder_of_error hmake ?_⟩
        exact fun hfolder => hstart (hyes.mp hfolder).right.right

theorem ensureFolder_of_made {anchor name : String} {above : List String}
    (hstraight : Path.IsStraight ⟨anchor, above ++ [name]⟩)
    (htext : refusal? (Path.text ⟨anchor, above ++ [name]⟩) = none)
    (hmade : FoldersMade d e ⟨anchor, above⟩)
    (hnone : d.kind? (d.placeOf ⟨anchor, above⟩) = none)
    (hplaced : Placed d e (d.placeOf ⟨anchor, above⟩) (.folder [])) :
    (∃ f, e.ensureFolder ⟨anchor, above ++ [name]⟩ = (f, none) ∧
        FoldersMade d f ⟨anchor, above ++ [name]⟩) ∨
      (¬ FolderRoom d ⟨anchor, above ++ [name]⟩ ∧
        (∃ stop, e.ensureFolder ⟨anchor, above ++ [name]⟩ = (e, some stop)) ∧
        FoldersBegun d e ⟨anchor, above ++ [name]⟩) := by
  have hgrows := hplaced.grows (Or.inl hnone)
  have hplace : d.placeOf ⟨anchor, above ++ [name]⟩ = d.placeOf ⟨anchor, above⟩ ++ [name] :=
    (List.append_assoc _ _ _).symm
  have hempty : e.kind? (d.placeOf ⟨anchor, above⟩ ++ [name]) = none := by
    rw [kind?_eq_none_iff, entry?_concat hplaced.placed]
    rfl
  rcases ensureFolder_of_reached hstraight htext (hgrows.start_eq ⟨anchor, ·⟩) hmade.reached with
    ⟨f, hf, hlast⟩ | ⟨hroom, hstop⟩
  · left
    refine ⟨f, hf, htext, hmade.start, ?_, Or.inr ?_⟩
    · have hreached := hlast.reached
      rw [placeOf, hgrows.start_eq] at hreached
      exact hreached
    · have hchange := hlast.change
      rw [placeOf, hgrows.start_eq, ← placeOf, hplace, hempty] at hchange
      rcases hchange with ⟨hfolder, _⟩ | ⟨_, hnew⟩
      · cases hfolder
      · rw [hplace]
        refine ⟨?_, hplaced.trans hnone hnew⟩
        by_contra hpresent
        rw [kind?_above (List.cons_ne_nil name []) hpresent] at hnone
        cases hnone
  · right
    have hlong : isTooLong name = true := by
      by_contra hlong
      apply hroom
      rw [folderRoom_concat_iff hstraight htext (hgrows.start_eq ⟨anchor, ·⟩) hmade.reached]
      refine ⟨hplaced.kind?_eq, Bool.eq_false_iff.mpr hlong, fun hfile => ?_⟩
      rw [← placeOf, hempty] at hfile
      cases hfile
    refine ⟨fun room => ?_, hstop, above, name, [], rfl, hlong, hnone, hplaced, hmade.reached⟩
    rw [room.short name (List.mem_append_right above List.mem_cons_self)] at hlong
    cases hlong

theorem FoldersBegun.below {anchor : String} {done parts : List String} (hway : done <+: parts)
    (h : FoldersBegun d e ⟨anchor, done⟩) : FoldersBegun d e ⟨anchor, parts⟩ := by
  rcases hway with ⟨more, rfl⟩
  rcases h with ⟨above, name, rest, hparts, hlong, hnone, hplaced, hreached⟩
  refine ⟨above, name, rest ++ more, ?_, hlong, hnone, hplaced, hreached⟩
  dsimp only at hparts ⊢
  rw [hparts, List.append_assoc, List.cons_append]

section

variable {anchor name : String} {above : List String}

theorem ensureFoldersFrom_concat :
    ensureFoldersFrom anchor d (above ++ [name]).reverse =
      match d.makeFolder ⟨anchor, above ++ [name]⟩ with
      | .error .notFound =>
          match ensureFoldersFrom anchor d above.reverse with
          | (changed, none) => changed.ensureFolder ⟨anchor, above ++ [name]⟩
          | failed => failed
      | _ => d.ensureFolder ⟨anchor, above ++ [name]⟩ := by
  have hparts : (name :: above.reverse).reverse = above ++ [name] := by
    rw [List.reverse_cons, List.reverse_reverse]
  rewrite [List.reverse_append, List.reverse_singleton, List.singleton_append, ensureFoldersFrom,
    hparts]
  rfl

theorem ensureFoldersFrom_of_ne_notFound
    (h : d.makeFolder ⟨anchor, above ++ [name]⟩ ≠ .error .notFound) :
    ensureFoldersFrom anchor d (above ++ [name]).reverse =
      d.ensureFolder ⟨anchor, above ++ [name]⟩ := by
  rw [ensureFoldersFrom_concat]
  split
  · rename_i hmissing
    exact absurd hmissing h
  · rfl

/-- The folder above is looked for when the path leads nowhere, and only then. -/
theorem makeFolder_eq_notFound_iff (hname : name ≠ "." ∧ name ≠ "..")
    (htext : refusal? (Path.text ⟨anchor, above ++ [name]⟩) = none) :
    d.makeFolder ⟨anchor, above ++ [name]⟩ = .error .notFound ↔
      d.follow (d.start ⟨anchor, above⟩) above = .error .notFound := by
  rw [makeFolder_concat rfl (isDots_eq_false hname) htext]
  have hsame : d.start ⟨anchor, above ++ [name]⟩ = d.start ⟨anchor, above⟩ := rfl
  rw [hsame]
  cases d.follow (d.start ⟨anchor, above⟩) above with
  | error fault =>
      constructor
      · intro h
        cases h
        rfl
      · intro h
        cases h
        rfl
  | ok target =>
      refine iff_of_false ?_ nofun
      dsimp only [Except.bind]
      split
      · split
        · exact nofun
        · split
          · exact nofun
          · exact nofun
      · exact nofun

end

theorem ensureFolder_of_unreached {anchor name : String} {above : List String} {fault : Fault}
    (hstraight : Path.IsStraight ⟨anchor, above ++ [name]⟩)
    (htext : refusal? (Path.text ⟨anchor, above ++ [name]⟩) = none)
    (hfollow : d.follow (d.start ⟨anchor, above⟩) above = .error fault)
    (hfault : fault ≠ .notFound) :
    ¬ FolderRoom d ⟨anchor, above ++ [name]⟩ ∧
      ∃ stop, d.ensureFolder ⟨anchor, above ++ [name]⟩ = (d, some stop) := by
  have habove : Path.IsStraight ⟨anchor, above⟩ := fun way hway =>
    hstraight way (List.mem_append_left [name] hway)
  have hname := hstraight name (List.mem_append_right above List.mem_cons_self)
  constructor
  · intro room
    have hroom := room.parent (List.prefix_append above [name])
    rcases follow_eq_of_room habove hroom.short hroom.start hroom.way with hok | ⟨hmissing, _⟩
    · rw [hok] at hfollow
      cases hfollow
    · rw [hmissing] at hfollow
      cases hfollow
      exact hfault rfl
  · have hmake : d.makeFolder ⟨anchor, above ++ [name]⟩ = .error fault := by
      rw [makeFolder_concat rfl (isDots_eq_false hname) htext]
      exact congrArg (Except.bind · _) hfollow
    apply ensureFolder_of_error hmake
    intro hfolder
    have hreached := ((isFolder_eq_ok_true_iff hstraight).mp hfolder).right.left
    dsimp only at hreached
    rw [follow_append, show d.start ⟨anchor, above ++ [name]⟩ = d.start ⟨anchor, above⟩ from rfl,
      hfollow] at hreached
    cases hreached

/-- Folders are made along a path exactly when it has room for them. -/
theorem ensureFoldersFrom_cases (d : Disk) (anchor : String) {parts : List String}
    (hstraight : Path.IsStraight ⟨anchor, parts⟩) :
    (∃ e, ensureFoldersFrom anchor d parts.reverse = (e, none) ∧
        FoldersMade d e ⟨anchor, parts⟩) ∨
      (¬ FolderRoom d ⟨anchor, parts⟩ ∧
        ∃ e stop, ensureFoldersFrom anchor d parts.reverse = (e, some stop) ∧
          (e = d ∨ FoldersBegun d e ⟨anchor, parts⟩)) := by
  -- The recursion goes up the path, so the induction takes the last name off.
  induction parts using List.reverseRecOn with
  | nil =>
      rcases ensureFolder_nil d anchor with ⟨hd, hmade⟩ | ⟨hroom, stop, hstop⟩
      · exact Or.inl ⟨d, hd, hmade⟩
      · exact Or.inr ⟨hroom, d, stop, hstop, Or.inl rfl⟩
  | append_singleton above name ih =>
      have hname : name ≠ "." ∧ name ≠ ".." :=
        hstraight name (List.mem_append_right above List.mem_cons_self)
      have habove : Path.IsStraight ⟨anchor, above⟩ := fun way hway =>
        hstraight way (List.mem_append_left [name] hway)
      cases hrefusal : refusal? (Path.text ⟨anchor, above ++ [name]⟩) with
      | some fault =>
          right
          rcases ensureFolder_of_refused (d := d) hstraight hrefusal with ⟨stop, hstop⟩
          refine ⟨fun room => ?_, d, stop, ?_, Or.inl rfl⟩
          · rw [room.text] at hrefusal
            cases hrefusal
          · rw [ensureFoldersFrom_of_ne_notFound, hstop]
            rw [makeFolder_of_refused hrefusal]
            rintro h
            cases h
            exact refusal?_ne_notFound hrefusal
      | none =>
          have hmissing := makeFolder_eq_notFound_iff (d := d) hname hrefusal
          cases hfollow : d.follow (d.start ⟨anchor, above⟩) above with
          | ok target =>
              cases follow_straight habove hfollow
              rw [ensureFoldersFrom_of_ne_notFound (by rw [Ne, hmissing, hfollow]; exact nofun)]
              rcases ensureFolder_of_reached hstraight hrefusal (fun _ => rfl) hfollow with
                hmade | ⟨hroom, stop, hstop⟩
              · exact Or.inl hmade
              · exact Or.inr ⟨hroom, d, stop, hstop, Or.inl rfl⟩
          | error fault =>
              by_cases hfault : fault = .notFound
              · rw [ensureFoldersFrom_concat, hmissing.mpr (hfault ▸ hfollow)]
                rcases ih habove with ⟨e, he, hmade⟩ | ⟨hroom, e, stop, he, hchange⟩
                · rw [he]
                  rcases hmade.change with ⟨_, heq⟩ | ⟨hnone, hplaced⟩
                  · rw [heq] at hmade
                    exact absurd (hfollow.symm.trans hmade.reached) nofun
                  · rcases ensureFolder_of_made hstraight hrefusal hmade hnone hplaced with
                      hdone | ⟨hroom, ⟨stop, hstop⟩, hbegun⟩
                    · exact Or.inl hdone
                    · exact Or.inr ⟨hroom, e, stop, hstop, Or.inr hbegun⟩
                · right
                  rw [he]
                  refine ⟨fun room => hroom (room.parent (List.prefix_append above [name])), e, stop,
                    rfl, hchange.imp_right ?_⟩
                  exact FoldersBegun.below (List.prefix_append above [name])
              · right
                rcases ensureFolder_of_unreached hstraight hrefusal hfollow hfault with
                  ⟨hroom, stop, hstop⟩
                refine ⟨hroom, d, stop, ?_, Or.inl rfl⟩
                rw [ensureFoldersFrom_of_ne_notFound, hstop]
                rw [Ne, hmissing, hfollow]
                exact fun h => hfault (Except.error.inj h)

theorem ensureFolders_cases (d : Disk) (hstraight : p.IsStraight) :
    (∃ e, d.ensureFolders p = (e, none) ∧ FoldersMade d e p) ∨
      (¬ FolderRoom d p ∧ ∃ e stop, d.ensureFolders p = (e, some stop) ∧
        (e = d ∨ FoldersBegun d e p)) :=
  ensureFoldersFrom_cases d p.anchor hstraight

theorem climbFrom_of_missing {anchor name : String} {above : List String}
    (h : d.makeFolder ⟨anchor, above ++ [name]⟩ = .error .notFound) :
    climbFrom anchor d (above ++ [name]).reverse = climbFrom anchor d above.reverse + 1 := by
  have hparts : (name :: above.reverse).reverse = above ++ [name] := by
    rw [List.reverse_cons, List.reverse_reverse]
  rw [List.reverse_append, List.reverse_singleton, List.singleton_append, climbFrom, hparts, h]

theorem climbFrom_of_found {anchor name : String} {above : List String}
    (h : d.makeFolder ⟨anchor, above ++ [name]⟩ ≠ .error .notFound) :
    climbFrom anchor d (above ++ [name]).reverse = 0 := by
  have hparts : (name :: above.reverse).reverse = above ++ [name] := by
    rw [List.reverse_cons, List.reverse_reverse]
  rw [List.reverse_append, List.reverse_singleton, List.singleton_append, climbFrom, hparts]
  split
  · rename_i hmissing
    exact absurd hmissing h
  · rfl

theorem makeFolder_eq_notFound_iff_of_room {anchor name : String} {above : List String}
    (hstraight : Path.IsStraight ⟨anchor, above ++ [name]⟩)
    (room : FolderRoom d ⟨anchor, above ++ [name]⟩) :
    d.makeFolder ⟨anchor, above ++ [name]⟩ = .error .notFound ↔
      d.kind? (d.start ⟨anchor, above⟩ ++ above) = none := by
  have hparent := room.parent (List.prefix_append above [name])
  have habove : Path.IsStraight ⟨anchor, above⟩ := fun way hway =>
    hstraight way (List.mem_append_left [name] hway)
  have hname := hstraight name (List.mem_append_right above List.mem_cons_self)
  rw [makeFolder_eq_notFound_iff hname room.text]
  rcases follow_eq_of_room habove hparent.short hparent.start hparent.way with
    hreached | ⟨hmissing, hnone⟩
  · refine iff_of_false (fun h => ?_) (fun hnone => ?_)
    · cases hreached.symm.trans h
    · rcases ((follow_eq_ok_iff habove).mp hreached).right with hnil | hkind
      · have hempty : above = [] := hnil
        rw [hempty, List.append_nil] at hnone
        cases hparent.start.symm.trans hnone
      · exact hkind hnone
  · exact iff_of_true hmissing hnone

/-- On a path with room, the way goes up as often as folders above the last one are missing. -/
theorem lt_climbFrom_iff {anchor : String} {parts : List String} {n : Nat}
    (hstraight : Path.IsStraight ⟨anchor, parts⟩) (room : FolderRoom d ⟨anchor, parts⟩) :
    n < climbFrom anchor d parts.reverse ↔
      d.kind? (d.start ⟨anchor, parts⟩ ++ parts.take (parts.length - (n + 1))) = none := by
  induction parts using List.reverseRecOn generalizing n with
  | nil =>
      refine iff_of_false (Nat.not_lt_zero n) fun hnone => ?_
      rw [List.take_nil, List.append_nil] at hnone
      cases room.start.symm.trans hnone
  | append_singleton above name ih =>
      have hparent := room.parent (List.prefix_append above [name])
      have habove : Path.IsStraight ⟨anchor, above⟩ := fun way hway =>
        hstraight way (List.mem_append_left [name] hway)
      have hmissing := makeFolder_eq_notFound_iff_of_room hstraight room
      have hlength : (above ++ [name]).length - (n + 1) = above.length - n := by
        rw [List.length_append, List.length_singleton, Nat.add_sub_add_right]
      rw [hlength, List.take_append_of_le_length (Nat.sub_le _ n)]
      by_cases hnone : d.kind? (d.start ⟨anchor, above⟩ ++ above) = none
      · rw [climbFrom_of_missing (hmissing.mpr hnone)]
        cases n with
        | zero =>
            rw [Nat.sub_zero, List.take_length]
            exact iff_of_true (Nat.succ_pos _) hnone
        | succ n =>
            rw [Nat.succ_lt_succ_iff, ih habove hparent]
            rfl
      · rw [climbFrom_of_found (mt hmissing.mp hnone)]
        refine iff_of_false (Nat.not_lt_zero n) fun habsent => ?_
        -- what stands at the end of a way stands in folders, so none of them is missing
        rcases hrest : above.drop (above.length - n) with _ | ⟨next, rest⟩
        · rw [List.take_of_length_le (List.drop_eq_nil_iff.mp hrest)] at habsent
          exact hnone habsent
        · rw [← List.take_append_drop (above.length - n) above, ← List.append_assoc] at hnone
          have hbelow : above.drop (above.length - n) ≠ [] := hrest ▸ List.cons_ne_nil next rest
          cases habsent.symm.trans (kind?_above hbelow hnone)

end

end Disk
end UsecaseAudit
