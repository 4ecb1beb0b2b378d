import Mathlib.Data.List.Infix
import UsecaseAudit.Proofs.CheckCommand
import UsecaseAudit.Proofs.FileMaking

/-!
# What a command line changes on the disk

The check command changes nothing but the file it reports to.  The init command
puts the starter settings in their place, with the folders above them, or leaves the
disk as it was, also where too many folders are missing.  There is one exception: folders that were made before a name that is
too long stay.  A second init command that replaces what it finds changes nothing in
either case.
-/

namespace UsecaseAudit

namespace Disk

variable {d e : Disk} {p : Path} {content : File}

/-!
# Making a file again
-/

theorem asks_eq_ok {question : Entry → Bool} (h : d.lookup p ≠ .error .nameTooLong) :
    ∃ answer, d.asks question p = .ok answer := by
  unfold asks
  split
  · exact ⟨_, rfl⟩
  · rename_i hlong
    exact absurd hlong h
  · exact ⟨_, rfl⟩

theorem Room.isPresent_eq_ok (room : Room d p) (hstraight : p.IsStraight) (hne : p.parts ≠ []) :
    ∃ present, d.isPresent p = .ok present := by
  rcases List.eq_nil_or_concat' p.parts with hnil | ⟨above, name, hparts⟩
  · exact absurd hnil hne
  rcases (room_iff hparts).mp room with ⟨hfolders, htext, hshort, _⟩
  have habove := hstraight.above hparts
  have hname := hstraight name (hparts ▸ List.mem_append_right above List.mem_cons_self)
  apply asks_eq_ok
  unfold lookup
  rw [htext, hparts, follow_append]
  dsimp only
  rcases follow_eq_of_room habove hfolders.short hfolders.start hfolders.way with
    hreached | ⟨hmissing, _⟩
  · rw [show d.start ⟨p.anchor, above⟩ = d.start p from rfl] at hreached
    rw [hreached]
    dsimp only [Except.bind]
    rw [follow_cons, if_neg hname.left, if_neg hname.right, hshort, if_neg Bool.false_ne_true]
    split
    · rename_i fault hfault
      split at hfault
      · split at hfault
        · cases hfault
          exact nofun
        · cases hfault
      · cases hfault
        exact nofun
    · split
      · exact nofun
      · exact nofun
  · rw [show d.start ⟨p.anchor, above⟩ = d.start p from rfl] at hmissing
    rw [hmissing]
    exact nofun

theorem short_of_lookup (hstraight : p.IsStraight) {entry : Entry} (h : d.lookup p = .ok entry) :
    refusal? p.text = none ∧ ∀ name ∈ p.parts, isTooLong name = false := by
  unfold lookup at h
  cases hrefusal : refusal? p.text with
  | some fault =>
      rw [hrefusal] at h
      cases h
  | none =>
      rw [hrefusal] at h
      cases hfollow : d.follow (d.start p) p.parts with
      | error fault =>
          rw [hfollow] at h
          cases h
      | ok target =>
          cases follow_straight hstraight hfollow
          exact ⟨rfl, ((follow_eq_ok_iff hstraight).mp hfollow).left⟩

theorem FileMade.makeFile_fst (h : FileMade d e p content) (hplain : p.IsPlain)
    (hstraight : p.IsStraight) (hne : p.parts ≠ []) : (e.makeFile p content).1 = e := by
  rcases short_of_lookup hstraight h.found with ⟨htext, hshort⟩
  have hplace : e.placeOf p = d.placeOf p := by
    unfold placeOf start
    rw [h.placed.here]
  rcases makeFile_cases e hplain hstraight hne content with
    ⟨_, f, hf, hagain⟩ | ⟨_, f, stop, hf, hchange⟩
  · rw [hf]
    have hentry : e.entry? (e.placeOf p) = some (.file content) := by
      rw [hplace]
      exact h.placed.placed
    have hfolder : e.kind? (e.placeOf p.parent) = some true := by
      rcases List.eq_nil_or_concat' p.parts with hnil | ⟨above, name, hparts⟩
      · exact absurd hnil hne
      have hparent := Path.parent_concat hparts
      rw [hparent]
      apply kind?_above (List.cons_ne_nil name [])
      rw [← placeOf_concat e hparts, kind?, hentry]
      exact Option.some_ne_none _
    show f = e
    rw [hagain.inPlace hfolder]
    exact install_same (fun hnil => hne (List.append_eq_nil_iff.mp hnil).right) hentry
  · rw [hf]
    rcases hchange with heq | ⟨done, name, rest, hparts, hlong, _⟩ | ⟨hrefused, _⟩
    · exact heq
    · rw [hshort name (hparts ▸ List.mem_append_right done List.mem_cons_self)] at hlong
      cases hlong
    · exact absurd htext hrefused

/-- Folders are begun at most once: what is there is not missing, and a name that is too long is not
passed. -/
theorem FoldersBegun.not_again {f : Disk} (hstraight : p.IsStraight) (h : FoldersBegun d e p) :
    ¬ FoldersBegun e f p := by
  rcases h with ⟨done, name, rest, hsplit, hlong, _, hplaced, _⟩
  rintro ⟨more, _, after, hagain, _, hnone, _, hreached⟩
  have hstart : e.start p = d.start p := by
    unfold start
    rw [hplaced.here]
  rw [hstart] at hnone hreached
  have hfolder := hplaced.kind?_eq
  rcases List.prefix_or_prefix_of_prefix (hagain ▸ List.prefix_append more _)
    (hsplit ▸ List.prefix_append done _) with hbelow | ⟨between, rfl⟩
  · by_cases heq : more = done
    · rw [heq, hfolder] at hnone
      cases hnone
    · have hway := (List.prefix_append_right_inj (d.start p)).mpr hbelow
      rw [kind?_on_way hway (fun h => heq (List.append_cancel_left h))
        (by rw [hfolder]; exact Option.some_ne_none _)] at hnone
      cases hnone
  · have hmore : ∀ way ∈ done ++ between, way ≠ "." ∧ way ≠ ".." := fun way hway =>
      hstraight way (hagain ▸ List.mem_append_left _ hway)
    have hshort := ((follow_eq_ok_iff hmore).mp hreached).left
    rw [hsplit, List.append_assoc] at hagain
    have hrest := List.append_cancel_left hagain
    cases between with
    | nil =>
        rw [List.append_nil, hfolder] at hnone
        cases hnone
    | cons first others =>
        cases hrest
        rw [hshort name (List.mem_append_right done List.mem_cons_self)] at hlong
        cases hlong

theorem FoldersBegun.makeFile_fst (h : FoldersBegun d e p) (hplain : p.IsPlain)
    (hstraight : p.IsStraight) {above : List String} {last : String}
    (hparts : p.parts = above ++ [last]) (hlast : isTooLong last = false) :
    (e.makeFile p content).1 = e := by
  have hlong : ∃ name ∈ p.parts, isTooLong name = true := by
    rcases h with ⟨done, name, rest, hsplit, hlong, _⟩
    exact ⟨name, hsplit ▸ List.mem_append_right done List.mem_cons_self, hlong⟩
  rcases hlong with ⟨name, hname, hlong⟩
  rcases makeFile_cases e hplain hstraight (hparts ▸ List.concat_ne_nil last above) content with
    ⟨room, _⟩ | ⟨_, f, stop, hf, hchange⟩
  · rw [room.short name hname] at hlong
    cases hlong
  · rw [hf]
    rcases hchange with heq | hbegun | ⟨_, hmade⟩
    · exact heq
    · exact absurd hbegun (h.not_again hstraight)
    · have hparent := Path.parent_concat hparts
      have habove := hstraight.above hparts
      rw [hparent] at hmade
      rw [hparts, List.mem_append, List.mem_singleton] at hname
      rcases hname with hway | rfl
      · rw [((hmade.room habove).short name hway)] at hlong
        cases hlong
      · rw [hlast] at hlong
        cases hlong

/-- To make a file a second time changes nothing, whether or not it was made the first time. -/
theorem makeFile_again (d : Disk) (hplain : p.IsPlain) (hstraight : p.IsStraight)
    {above : List String} {last : String} (hparts : p.parts = above ++ [last])
    (hlast : isTooLong last = false) (content : File) :
    ((d.makeFile p content).1.makeFile p content).1 = (d.makeFile p content).1 := by
  have hne : p.parts ≠ [] := hparts ▸ List.concat_ne_nil last above
  rcases makeFile_cases d hplain hstraight hne content with
    ⟨_, e, he, hmade⟩ | ⟨_, e, stop, he, heq | hbegun | ⟨hrefused, hmade⟩⟩
  · rw [he]
    exact hmade.makeFile_fst hplain hstraight hne
  · rw [he]
    dsimp only
    rw [heq, he]
    exact heq
  · rw [he]
    exact hbegun.makeFile_fst hplain hstraight hparts hlast
  · rw [he]
    have hparent := Path.parent_concat hparts
    have habove := hstraight.above hparts
    rw [hparent] at hmade
    have hshort : ∀ name ∈ p.parts, isTooLong name = false := by
      rw [hparts, List.forall_mem_append, List.forall_mem_singleton]
      exact ⟨(hmade.room habove).short, hlast⟩
    rcases makeFile_cases e hplain hstraight hne content with
      ⟨room, _⟩ | ⟨_, f, again, hf, heq | ⟨done, name, rest, hsplit, hlong, _⟩ | ⟨_, hmore⟩⟩
    · exact absurd room.text hrefused
    · rw [hf]
      exact heq
    · rw [hshort name (hsplit ▸ List.mem_append_right done List.mem_cons_self)] at hlong
      cases hlong
    · rw [hf]
      rw [hparent] at hmore
      rcases hmore.change with ⟨_, heq⟩ | ⟨hnone, _⟩
      · exact heq
      · have hfolder := hmade.kind?
        rw [placeOf, hmade.start_eq, ← placeOf, hfolder] at hnone
        cases hnone

theorem host_makeFile (d : Disk) (hplain : p.IsPlain) (hstraight : p.IsStraight)
    (hne : p.parts ≠ []) (content : File) : (d.makeFile p content).1.host = d.host := by
  rcases makeFile_cases d hplain hstraight hne content with
    ⟨_, e, he, hmade⟩ |
      ⟨_, e, stop, he, heq | ⟨_, _, _, _, _, _, hplaced, _⟩ | ⟨_, hmade⟩⟩
  · rw [he]
    exact hmade.placed.host
  · rw [he]
    exact congrArg Disk.host heq
  · rw [he]
    exact hplaced.host
  · rw [he]
    rcases hmade.change with ⟨_, heq⟩ | ⟨_, hplaced⟩
    · exact congrArg Disk.host heq
    · exact hplaced.host

/-!
# Texts that are refused
-/

theorem refusal?_cases {text : String} {fault : Fault} (h : refusal? text = some fault) :
    fault = .nullCharacter ∧ Path.hasNull text = true ∨ fault = .nameTooLong := by
  unfold refusal? at h
  split at h
  · rename_i hnull
    cases h
    exact Or.inl ⟨rfl, hnull⟩
  · split at h
    · cases h
      exact Or.inr rfl
    · cases h

theorem refusal?_text_of_parent {above : List String} {name : String}
    (hparts : p.parts = above ++ [name]) (hname : Path.hasNull name = false) {present : Bool}
    (hpresent : d.isPresent p = .ok present) (hparent : refusal? p.parent.text = none) :
    refusal? p.text = none := by
  rcases p with ⟨anchor, parts⟩
  dsimp only at hparts
  subst hparts
  rw [Path.parent, List.dropLast_concat] at hparent
  cases hrefusal : refusal? (Path.text ⟨anchor, above ++ [name]⟩) with
  | none =>
      rfl
  | some fault =>
      rcases refusal?_cases hrefusal with ⟨_, hnull⟩ | rfl
      · rw [refusal?_eq_none_iff, Path.hasNull_text_concat hname hnull] at hparent
        cases hparent.left
      · unfold isPresent asks lookup at hpresent
        rw [hrefusal] at hpresent
        cases hpresent

/-- Not too many folders in a row are missing above the file of a path: there is one that many steps
further up. -/
def Near (d : Disk) (p : Path) : Prop :=
  ∀ limit, d.host.climb = some limit →
    d.kind? (d.start p ++ p.parts.take (p.parts.length - (limit + 2))) ≠ none

theorem isTooFar_eq_false_iff {d : Disk} {p : Path} {above : List String} {name : String}
    (hstraight : p.IsStraight) (hparts : p.parts = above ++ [name]) (room : Room d p) :
    Starter.isTooFar d p = false ↔ Near d p := by
  have hfolders := ((room_iff hparts).mp room).left
  have habove : Path.IsStraight ⟨p.anchor, above⟩ := fun way hway =>
    hstraight way (hparts ▸ List.mem_append_left [name] hway)
  have hparent : p.parent = ⟨p.anchor, above⟩ := by
    rw [Path.parent, hparts, List.dropLast_concat]
  rw [Starter.isTooFar, Near]
  cases d.host.climb with
  | none =>
      refine iff_of_true rfl ?_
      intro limit hlimit
      cases hlimit
  | some limit =>
      have hlength : p.parts.length - (limit + 2) = above.length - (limit + 1) := by
        rw [hparts, List.length_append, List.length_singleton, Nat.add_sub_add_right]
      have hfar := lt_climbFrom_iff (n := limit) habove hfolders
      simp only [Option.any_some, decide_eq_false_iff_not, Option.some.injEq, forall_eq']
      rw [climb, hparent, hfar, hlength, hparts,
        List.take_append_of_le_length (Nat.sub_le _ _)]
      exact Iff.rfl

end Disk

/-!
# The init command
-/

namespace CommandLine

def diskAfter : Except Broken Outcome → Disk
  | .ok outcome => outcome.disk
  | .error broken => broken.disk

/-- The disk after the settings were written at a path, as far as they could be. -/
def afterWriting (d : Disk) (p : Path) : Disk :=
  if Starter.isTooFar d p then d else (d.makeFile p Starter.file).1

theorem writeFile_fst (d : Disk) (p : Path) : (Starter.writeFile d p).1 = afterWriting d p := by
  unfold Starter.writeFile afterWriting
  split
  · rfl
  unfold Disk.makeFile
  rcases d.ensureFolders p.parent with ⟨changed, stop⟩
  cases stop with
  | some e =>
      rfl
  | none =>
      dsimp only
      cases changed.write p.text Starter.file with
      | ok written => rfl
      | error e => rfl

theorem diskAfter_create (d : Disk) (p : Path) (overwrite : Bool) (said : String) :
    diskAfter (create d p overwrite said) = (Starter.write d p overwrite).1 := by
  unfold create
  rcases Starter.write d p overwrite with ⟨changed, result⟩
  cases result with
  | ok done =>
      rfl
  | error e =>
      dsimp only
      split
      · rfl
      · rfl
      · rfl

theorem diskAfter_create_of_ok {d : Disk} {p : Path} {present overwrite : Bool} (said : String)
    (hpresent : d.isPresent p = .ok present) (h : (present && !overwrite) = false) :
    diskAfter (create d p overwrite said) = afterWriting d p := by
  rw [diskAfter_create, ← writeFile_fst]
  unfold Starter.write
  rw [hpresent]
  dsimp only
  rw [h]
  rfl

def goesOn (present force : Bool) (input : String) : Bool :=
  !present || force || confirmed input

theorem initPlan_eq {d : Disk} {o : Options} {p : Path} (hpath : settingsPath d.host o = .ok p) :
    initPlan d o =
      match d.isPresent p with
      | .error e => .error (.audit (.system e))
      | .ok present =>
          .ok (p, if present && !o.force then
            some ("Configuration file already exists at " ++ p.text ++ ". Overwrite? [y/N]: ")
          else none) := by
  unfold initPlan question?
  rw [hpath]
  dsimp only [bind, Except.bind]
  cases d.isPresent p with
  | error e =>
      rfl
  | ok present =>
      dsimp only [mapError_ok]
      cases present && !o.force with
      | true => rfl
      | false => rfl

theorem diskAfter_runInit {d : Disk} {o : Options} {p : Path}
    (hpath : settingsPath d.host o = .ok p) (input : String) :
    diskAfter (runInit d o input) =
      match d.isPresent p with
      | .error _ => d
      | .ok present =>
          if goesOn present o.force input then afterWriting d p else d := by
  unfold runInit
  rw [initPlan_eq hpath]
  cases hpresent : d.isPresent p with
  | error e =>
      rfl
  | ok present =>
      cases present with
      | false =>
          exact diskAfter_create_of_ok "" hpresent rfl
      | true =>
          cases hforce : o.force with
          | true =>
              exact diskAfter_create_of_ok "" hpresent rfl
          | false =>
              unfold goesOn
              cases hanswer : confirmed input with
              | true => exact diskAfter_create_of_ok _ hpresent rfl
              | false => rfl

theorem confirmed_iff {input : String} :
    confirmed input = true ↔ ∃ line, firstLine? input = some line ∧
      (Lower.text (Blank.trim line) = "y" ∨ Lower.text (Blank.trim line) = "yes") := by
  unfold confirmed
  cases firstLine? input with
  | none => simp
  | some line => simp

theorem goesOn_iff {present force : Bool} {input : String} :
    goesOn present force input = true ↔
      present = false ∨ force = true ∨ confirmed input = true := by
  unfold goesOn
  rw [Bool.or_eq_true, Bool.or_eq_true, Bool.not_eq_true', or_assoc]

/-- The init command writes to the file of the usual name in the root that it is given, which may
begin at a home folder. -/
def WritesTo (host : Host) (o : Options) (p : Path) : Prop :=
  ∃ root q, o.root = some root ∧ host.Expands (Path.ofText root) q ∧
    p = ⟨q.anchor, q.parts ++ [Starter.fileName]⟩

theorem settingsPath_eq_ok_iff {host : Host} {o : Options} {p : Path} :
    settingsPath host o = .ok p ↔ WritesTo host o p := by
  unfold settingsPath WritesTo
  cases hroot : o.root with
  | none =>
      simp
  | some root =>
      simp only [Option.some.injEq, exists_and_left, exists_eq_left']
      constructor
      · intro h
        rcases exists_of_bind_eq_ok h with ⟨q, hq, hpath⟩
        cases hpath
        exact ⟨q, Host.expands_of_expandHome (eq_ok_of_mapError_eq_ok hq), q.join_fileName⟩
      · rintro ⟨q, hexpands, rfl⟩
        rw [Host.expandHome_of_expands hexpands, ← q.join_fileName]
        rfl

/-- Nothing is there, or the settings may be replaced, by option or by answer. -/
def MayWrite (disk : Disk) (p : Path) (o : Options) (input : String) : Prop :=
  disk.isPresent p = .ok false ∨ o.force = true ∨ ∃ line, firstLine? input = some line ∧
    (Lower.text (Blank.trim line) = "y" ∨ Lower.text (Blank.trim line) = "yes")

structure InitEffect (disk after : Disk) (o : Options) (input : String) : Prop where
  /-- The settings are written where they may be and there is room for them. -/
  written : ∀ p, WritesTo disk.host o p → MayWrite disk p o input → disk.Room p → disk.Near p →
    disk.Placed after (disk.placeOf p) (.file Starter.file)
  /-- Otherwise nothing changes, or folders are made up to a name that is too long. -/
  kept : ∀ p, WritesTo disk.host o p → ¬ (MayWrite disk p o input ∧ disk.Room p ∧ disk.Near p) →
    after = disk ∨ disk.FoldersBegun after p
  noPath : (∀ p, ¬ WritesTo disk.host o p) → after = disk

theorem diskAfter_runInit_of_error {d : Disk} {o : Options} {cause : Breakdown}
    (h : settingsPath d.host o = .error cause) (input : String) :
    diskAfter (runInit d o input) = d := by
  unfold runInit initPlan
  rw [h]
  rfl

section

variable {disk : Disk} {o : Options} {p : Path} {input : String}

theorem goesOn_iff_mayWrite {present : Bool} (h : disk.isPresent p = .ok present) :
    goesOn present o.force input = true ↔ MayWrite disk p o input := by
  rw [goesOn_iff, confirmed_iff, MayWrite, h, Except.ok.injEq]

theorem straight_of_writesTo (h : WritesTo disk.host o p) (hdots : ".." ∉ p.parts) :
    p.IsPlain ∧ p.IsStraight ∧ ∃ above, p.parts = above ++ [Starter.fileName] := by
  rcases h with ⟨root, q, _, hexpands, rfl⟩
  have hplain := (Path.isPlain_ofText root).expands hexpands
  have hnames := hexpands.ne_dot fun _ => Path.ne_dot_of_mem_ofText
  rw [← q.join_fileName]
  refine ⟨hplain.join (Path.isPlain_ofText Starter.fileName), ?_, q.parts, ?_⟩
  · rw [q.join_fileName]
    intro name hname
    refine ⟨?_, fun heq => hdots (heq ▸ hname)⟩
    rcases List.mem_append.mp hname with hold | hlast
    · exact hnames name hold
    · rw [List.mem_singleton.mp hlast]
      decide
  · rw [q.join_fileName]

/-- The settings are written exactly where there is room for them and not too many folders are
missing. -/
theorem afterWriting_cases {present : Bool} {above : List String} (hplain : p.IsPlain)
    (hstraight : p.IsStraight) (hparts : p.parts = above ++ [Starter.fileName])
    (hpresent : disk.isPresent p = .ok present) :
    (disk.Room p ∧ disk.Near p ∧
        disk.Placed (afterWriting disk p) (disk.placeOf p) (.file Starter.file)) ∨
      (¬ (disk.Room p ∧ disk.Near p) ∧
        (afterWriting disk p = disk ∨ disk.FoldersBegun (afterWriting disk p) p)) := by
  have hne : p.parts ≠ [] := hparts ▸ List.concat_ne_nil _ above
  unfold afterWriting
  cases hfar : Starter.isTooFar disk p with
  | true =>
      right
      refine ⟨?_, Or.inl rfl⟩
      rintro ⟨room, hnear⟩
      cases hfar.symm.trans ((Disk.isTooFar_eq_false_iff hstraight hparts room).mpr hnear)
  | false =>
      rw [if_neg Bool.false_ne_true]
      rcases Disk.makeFile_cases disk hplain hstraight hne Starter.file with
        ⟨room, e, he, hmade⟩ | ⟨hfull, e, stop, he, heq | hbegun | ⟨hrefused, hmade⟩⟩
      · rw [he]
        have hnear := (Disk.isTooFar_eq_false_iff hstraight hparts room).mp hfar
        exact Or.inl ⟨room, hnear, hmade.placed⟩
      · rw [he]
        exact Or.inr ⟨fun h => hfull h.left, Or.inl heq⟩
      · rw [he]
        exact Or.inr ⟨fun h => hfull h.left, Or.inr hbegun⟩
      · have htext := Disk.refusal?_text_of_parent hparts (by decide) hpresent hmade.text
        exact absurd htext hrefused

theorem initEffect_runInit (hdots : ∀ p, WritesTo disk.host o p → ".." ∉ p.parts) :
    InitEffect disk (diskAfter (runInit disk o input)) o input where
  written := by
    intro p hpath hmay room hnear
    rcases straight_of_writesTo hpath (hdots p hpath) with ⟨hplain, hstraight, above, hparts⟩
    have hne : p.parts ≠ [] := hparts ▸ List.concat_ne_nil _ above
    rcases room.isPresent_eq_ok hstraight hne with ⟨present, hpresent⟩
    rw [diskAfter_runInit (settingsPath_eq_ok_iff.mpr hpath), hpresent]
    dsimp only
    rw [(goesOn_iff_mayWrite hpresent).mpr hmay]
    rcases afterWriting_cases hplain hstraight hparts hpresent with
      ⟨_, _, hplaced⟩ | ⟨hnot, _⟩
    · exact hplaced
    · exact absurd ⟨room, hnear⟩ hnot
  kept := by
    intro p hpath hnot
    rcases straight_of_writesTo hpath (hdots p hpath) with ⟨hplain, hstraight, above, hparts⟩
    rw [diskAfter_runInit (settingsPath_eq_ok_iff.mpr hpath)]
    cases hpresent : disk.isPresent p with
    | error e =>
        exact Or.inl rfl
    | ok present =>
        dsimp only
        cases hgoes : goesOn present o.force input with
        | false =>
            exact Or.inl rfl
        | true =>
            have hmay := (goesOn_iff_mayWrite hpresent).mp hgoes
            rcases afterWriting_cases hplain hstraight hparts hpresent with
              ⟨room, hnear, _⟩ | ⟨_, hchange⟩
            · exact absurd ⟨hmay, room, hnear⟩ hnot
            · exact hchange
  noPath := by
    intro hnone
    cases hpath : settingsPath disk.host o with
    | error cause => exact diskAfter_runInit_of_error hpath input
    | ok p => exact absurd (settingsPath_eq_ok_iff.mp hpath) (hnone p)

theorem diskAfter_runInit_of_force (hpath : settingsPath disk.host o = .ok p)
    (hforce : o.force = true) :
    diskAfter (runInit disk o input) =
      match disk.isPresent p with
      | .error _ => disk
      | .ok _ => afterWriting disk p := by
  rw [diskAfter_runInit hpath]
  cases disk.isPresent p with
  | error e => rfl
  | ok present => exact if_pos (goesOn_iff.mpr (Or.inr (Or.inl hforce)))

theorem host_afterWriting (hplain : p.IsPlain) (hstraight : p.IsStraight) (hne : p.parts ≠ []) :
    (afterWriting disk p).host = disk.host := by
  unfold afterWriting
  split
  · rfl
  · exact Disk.host_makeFile disk hplain hstraight hne Starter.file

theorem afterWriting_again (hplain : p.IsPlain) (hstraight : p.IsStraight) {above : List String}
    (hparts : p.parts = above ++ [Starter.fileName]) :
    afterWriting (afterWriting disk p) p = afterWriting disk p := by
  cases hfar : Starter.isTooFar disk p with
  | true =>
      have hkept : afterWriting disk p = disk := by
        rw [afterWriting, hfar]
        rfl
      rw [hkept, hkept]
  | false =>
      have hmade : afterWriting disk p = (disk.makeFile p Starter.file).1 := by
        rw [afterWriting, hfar]
        rfl
      rw [hmade, afterWriting]
      split
      · rfl
      · exact Disk.makeFile_again disk hplain hstraight hparts (by decide) Starter.file

theorem diskAfter_runInit_again (hdots : ∀ p, WritesTo disk.host o p → ".." ∉ p.parts)
    (hforce : o.force = true) (again : String) :
    diskAfter (runInit (diskAfter (runInit disk o input)) o again) =
      diskAfter (runInit disk o input) := by
  cases hpath : settingsPath disk.host o with
  | error cause =>
      rw [diskAfter_runInit_of_error hpath, diskAfter_runInit_of_error hpath]
  | ok p =>
      have hwrites := settingsPath_eq_ok_iff.mp hpath
      rcases straight_of_writesTo hwrites (hdots p hwrites) with
        ⟨hplain, hstraight, above, hparts⟩
      have hne : p.parts ≠ [] := hparts ▸ List.concat_ne_nil _ above
      cases hpresent : disk.isPresent p with
      | error e =>
          have hfirst : ∀ answer, diskAfter (runInit disk o answer) = disk := by
            intro answer
            rw [diskAfter_runInit_of_force hpath hforce, hpresent]
          rw [hfirst, hfirst]
      | ok present =>
          have hfirst : diskAfter (runInit disk o input) = afterWriting disk p := by
            rw [diskAfter_runInit_of_force hpath hforce, hpresent]
          have hhost := @host_afterWriting disk p hplain hstraight hne
          rw [hfirst, diskAfter_runInit_of_force (hhost ▸ hpath) hforce]
          split
          · rfl
          · exact afterWriting_again hplain hstraight hparts

end

/-!
# The check command
-/

structure CheckEffect (disk after : Disk) (o : Options) : Prop where
  silent : o.output.getD "" = "" → after = disk
  /-- At most one file is written, in a folder that exists. -/
  only : after = disk ∨ ∃ target content,
    disk.opened (o.output.getD "") = .ok target ∧ disk.Placed after target (.file content) ∧
      ∀ place, place <+: target → place ≠ target → disk.kind? place = some true
  failed : ∀ root failure, o.root = some root →
    (Audit.check disk root o.settings o.switches).outcome = .error failure → after = disk
  unopened : ∀ e, disk.opened (o.output.getD "") = .error e → after = disk

theorem diskAfter_reportToFile (disk : Disk) (o : Options) (records : List Log.Record) (r : Results)
    (output : String) :
    diskAfter (reportToFile disk o records r output) =
      match disk.opened output with
      | .error _ => disk
      | .ok target => disk.install target (.file (File.ofText (reportText (report? disk o r)))) := by
  unfold reportToFile
  dsimp only
  rw [Disk.write_eq]
  cases disk.opened output with
  | error e =>
      dsimp only [Except.map]
      split
      · rfl
      · rfl
  | ok target =>
      dsimp only [Except.map]
      split
      · rfl
      · rfl

theorem diskAfter_report (disk : Disk) (o : Options) (records : List Log.Record) (r : Results) :
    diskAfter (report disk o records r) =
      if o.output.getD "" = "" then disk
      else diskAfter (reportToFile disk o records r (o.output.getD "")) := by
  unfold report
  split
  · rename_i hempty
    rw [if_pos hempty]
    dsimp only
    split
    · rfl
    · rfl
  · rename_i hne
    rw [if_neg hne]

theorem diskAfter_runCheckAt_of_error {disk : Disk} {o : Options} {root : String}
    {failure : Failure}
    (h : (Audit.check disk root o.settings o.switches).outcome = .error failure) :
    diskAfter (runCheckAt disk o root) = disk := by
  unfold runCheckAt
  dsimp only
  rw [h]
  dsimp only
  split
  · rfl
  · rfl

theorem checkEffect_report (disk : Disk) (o : Options) (records : List Log.Record) (r : Results) :
    let after := diskAfter (report disk o records r)
    (o.output.getD "" = "" → after = disk) ∧
    (after = disk ∨ ∃ target content,
      disk.opened (o.output.getD "") = .ok target ∧ disk.Placed after target (.file content) ∧
        ∀ place, place <+: target → place ≠ target → disk.kind? place = some true) ∧
    ∀ e, disk.opened (o.output.getD "") = .error e → after = disk := by
  dsimp only
  rw [diskAfter_report, diskAfter_reportToFile]
  by_cases hempty : o.output.getD "" = ""
  · rw [if_pos hempty]
    exact ⟨fun _ => rfl, Or.inl rfl, fun _ _ => rfl⟩
  · rw [if_neg hempty]
    cases hopened : disk.opened (o.output.getD "") with
    | error e =>
        exact ⟨fun _ => rfl, Or.inl rfl, fun _ _ => rfl⟩
    | ok target =>
        refine ⟨fun h => absurd h hempty, Or.inr ?_, fun e h => nomatch h⟩
        rcases Disk.opened_eq_ok hopened (File.ofText (reportText (report? disk o r))) with
          ⟨_, habove, hplaced, _⟩
        exact ⟨target, _, rfl, hplaced, habove⟩

theorem checkEffect_runCheck (disk : Disk) (o : Options) :
    CheckEffect disk (diskAfter (runCheck disk o)) o := by
  unfold runCheck
  cases hroot : o.root with
  | none =>
      exact ⟨fun _ => rfl, Or.inl rfl, fun _ _ h => (nomatch hroot.symm.trans h), fun _ _ => rfl⟩
  | some root =>
      dsimp only
      cases hcheck : (Audit.check disk root o.settings o.switches).outcome with
      | error failure =>
          rw [diskAfter_runCheckAt_of_error hcheck]
          exact ⟨fun _ => rfl, Or.inl rfl, fun _ _ _ _ => rfl, fun _ _ => rfl⟩
      | ok r =>
          have hreport : runCheckAt disk o root =
              report disk o (Audit.check disk root o.settings o.switches).records r := by
            unfold runCheckAt
            dsimp only
            rw [hcheck]
          rw [hreport]
          rcases checkEffect_report disk o
            (Audit.check disk root o.settings o.switches).records r with ⟨hsilent, honly, hunopened⟩
          refine ⟨hsilent, honly, ?_, hunopened⟩
          intro other failure hother hfailure
          cases hroot.symm.trans hother
          cases hcheck.symm.trans hfailure

/-- An empty disk of a host that knows where the one who runs the program is at home, and makes two
folders at once but no more. -/
def homeDisk : Disk :=
  { host := { homes := fun name => if name = "" then some "/u" else none, climb := some 1 } }

theorem isPresent_of_notFound {d : Disk} {p : Path} (htext : Disk.refusal? p.text = none)
    (hfollow : d.follow (d.start p) p.parts = .error .notFound) : d.isPresent p = .ok false := by
  unfold Disk.isPresent Disk.asks Disk.lookup
  rw [htext]
  dsimp only
  rw [hfollow]

theorem run_init_of_stop {d e : Disk} {arguments : List String} {o : Options} {p : Path}
    {stop : SystemError} (hparse : parse arguments = .ok ⟨.init, o⟩)
    (hnear : Starter.isTooFar d p = false) (hpath : settingsPath d.host o = .ok p) (hpresent : d.isPresent p = .ok false)
    (hstop : d.ensureFolders p.parent = (e, some stop)) (hfault : stop.fault ≠ .nullCharacter)
    (input : String) :
    ∃ message, run d arguments input = .ok { disk := e, stderr := message, status := 1 } := by
  have hwrite : ∀ overwrite, Starter.write d p overwrite = (e, .error (.system stop)) := by
    intro overwrite
    unfold Starter.write Starter.writeFile
    rw [hpresent, hnear, hstop]
    rfl
  have hrun : run d arguments input = create d p o.force "" := by
    unfold run runInit
    rw [hparse]
    dsimp only
    rw [initPlan_eq hpath, hpresent]
    rfl
  rw [hrun]
  unfold create
  rw [hwrite]
  rcases stop with ⟨fault, text⟩
  cases fault with
  | nullCharacter => exact absurd rfl hfault
  | _ => exact ⟨_, rfl⟩

/-!
A project whose folder has a name that is too long, below a folder that is not there.
-/

theorem ofText_newLongName :
    Path.ofText ("new/" ++ Audit.longName) = ⟨"", ["new", Audit.longName]⟩ := by
  have hpieces : Path.pieces ("new/" ++ Audit.longName) = ["new", Audit.longName] := by
    rw [Path.pieces, Split.pieces, String.toList_append, Audit.toList_longName]
    decide +kernel
  rw [Path.ofText, hpieces, Path.anchorOf, String.toList_append, Audit.toList_longName]
  decide +kernel

theorem refusal?_newLongName :
    Disk.refusal? (Path.text ⟨"", ["new", Audit.longName, "usecompass.yml"]⟩) = none := by
  rw [Disk.refusal?_eq_none_iff, Path.text, if_neg (by decide)]
  constructor
  · rw [Path.hasNull]
    simp only [String.intercalate_cons_cons, String.intercalate_singleton, String.toList_append,
      Audit.toList_longName]
    decide +kernel
  · decide +kernel

theorem ensureFolders_newLongName :
    Disk.ensureFolders {} ⟨"", ["new", Audit.longName]⟩ =
      ({ entries := [("new", .folder [])] },
        some ⟨.nameTooLong, Path.text ⟨"", ["new", Audit.longName]⟩⟩) := by
  have hdots : Disk.isDots Audit.longName = false := by
    decide +kernel
  have hlong : Disk.isTooLong Audit.longName = true := by
    decide +kernel
  have htext : Disk.refusal? (Path.text ⟨"", ["new", Audit.longName]⟩) = none :=
    Disk.refusal?_text_on_way ⟨["usecompass.yml"], rfl⟩ refusal?_newLongName
  have hparts : ["new", Audit.longName] = ["new"] ++ [Audit.longName] := rfl
  have hmissing : Disk.makeFolder {} ⟨"", ["new", Audit.longName]⟩ = .error .notFound :=
    Disk.makeFolder_concat hparts hdots htext
  have habove : Disk.ensureFoldersFrom "" {} ["new"].reverse =
      ({ entries := [("new", .folder [])] }, none) := rfl
  generalize hmade : ({ entries := [("new", .folder [])] } : Disk) = made at habove ⊢
  have hreached : made.follow (made.start ⟨"", ["new", Audit.longName]⟩) ["new"] = .ok ["new"] := by
    subst hmade
    decide +kernel
  have hfollow : made.follow (made.start ⟨"", ["new", Audit.longName]⟩) ["new", Audit.longName] =
      .error .nameTooLong := by
    subst hmade
    decide +kernel
  have hkind : made.kind? ["new"] = some true := by
    subst hmade
    rfl
  have hmake : made.makeFolder ⟨"", ["new", Audit.longName]⟩ = .error .nameTooLong := by
    rw [Disk.makeFolder_concat hparts hdots htext, hreached]
    dsimp only [Except.bind]
    rw [if_pos hkind, if_pos hlong]
  have hfolder : made.isFolder ⟨"", ["new", Audit.longName]⟩ =
      .error ⟨.nameTooLong, Path.text ⟨"", ["new", Audit.longName]⟩⟩ := by
    rw [Disk.isFolder, Disk.asks, Disk.lookup, htext]
    dsimp only
    rw [hfollow]
  have hensure : made.ensureFolder ⟨"", ["new", Audit.longName]⟩ =
      (made, some ⟨.nameTooLong, Path.text ⟨"", ["new", Audit.longName]⟩⟩) := by
    rw [Disk.ensureFolder, hmake, hfolder]
  rw [Disk.ensureFolders]
  dsimp only
  rw [hparts, Disk.ensureFoldersFrom_concat, ← hparts, hmissing]
  dsimp only
  rw [habove]
  exact hensure

end CommandLine
end UsecaseAudit
