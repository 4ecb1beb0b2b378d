import UsecaseAudit.Proofs.FolderMaking

/-!
# Making files with their folders

A file is made at a path by making the folders above it where nothing stands and
then opening it.  A path without dots has room for a file when none of its names
is too long, no file stands on its way and no folder stands at its end.  Making a
file succeeds exactly then, and nothing but the file and the missing folders above
it is new.
-/

namespace UsecaseAudit

/-!
# Plain paths

A path that was read from a text is plain.  Its text is taken as it is written when
a file is opened, and leads where the path leads.
-/

namespace Split

theorem not_mem_of_mem_piecesFrom {mark : Char} {current cs piece : List Char}
    (hcurrent : mark ∉ current) (h : piece ∈ piecesFrom mark current cs) : mark ∉ piece := by
  fun_induction piecesFrom mark current cs with
  | case1 current =>
      rw [List.mem_singleton.mp h, List.mem_reverse]
      exact hcurrent
  | case2 current rest ih =>
      rcases List.mem_cons.mp h with rfl | h
      · rw [List.mem_reverse]
        exact hcurrent
      · exact ih List.not_mem_nil h
  | case3 current c rest hc ih =>
      apply ih _ h
      rw [List.mem_cons, not_or]
      exact ⟨fun heq => hc heq.symm, hcurrent⟩

end Split

namespace Path

/-- A path with a known anchor and names that are names between slashes. -/
structure IsPlain (p : Path) : Prop where
  anchor : p.anchor = "" ∨ p.anchor = "/" ∨ p.anchor = "//"
  names : ∀ name ∈ p.parts, name ≠ "" ∧ '/' ∉ name.toList

theorem isPlain_ofText (text : String) : (ofText text).IsPlain where
  anchor := by
    show anchorOf text = "" ∨ anchorOf text = "/" ∨ anchorOf text = "//"
    unfold anchorOf
    split
    · exact Or.inl rfl
    · exact Or.inr (Or.inr rfl)
    · exact Or.inr (Or.inl rfl)
  names := by
    intro name hname
    rcases List.mem_filter.mp hname with ⟨hpiece, hkept⟩
    rcases List.mem_map.mp hpiece with ⟨chars, hchars, rfl⟩
    refine ⟨bne_iff_ne.mp (Bool.and_eq_true_iff.mp hkept).left, ?_⟩
    rw [String.toList_ofList]
    exact Split.not_mem_of_mem_piecesFrom List.not_mem_nil hchars

theorem IsPlain.join {p q : Path} (hp : p.IsPlain) (hq : q.IsPlain) : (p.join q).IsPlain := by
  unfold Path.join
  split
  · exact ⟨hp.anchor, List.forall_mem_append.mpr ⟨hp.names, hq.names⟩⟩
  · exact hq

theorem IsPlain.expands {host : Host} {p q : Path} (hp : p.IsPlain) (h : host.Expands p q) :
    q.IsPlain := by
  cases h with
  | plain _ =>
      exact hp
  | home _ _ _ hq =>
      rw [eq_of_atHome? hq]
      constructor
      · dsimp only
        exact (isPlain_ofText _).anchor
      · dsimp only
        rw [List.forall_mem_append]
        exact ⟨(isPlain_ofText _).names,
          fun name hname => hp.names name (List.mem_of_mem_tail hname)⟩

theorem parent_concat {p : Path} {above : List String} {name : String}
    (h : p.parts = above ++ [name]) : p.parent = ⟨p.anchor, above⟩ := by
  rw [parent, h, List.dropLast_concat]

theorem IsStraight.above {p : Path} (hp : p.IsStraight) {above : List String} {name : String}
    (h : p.parts = above ++ [name]) : IsStraight ⟨p.anchor, above⟩ := fun way hway =>
  hp way (h ▸ List.mem_append_left [name] hway)

theorem exists_text_concat (anchor name : String) (above : List String) :
    ∃ before, text ⟨anchor, above ++ [name]⟩ = before ++ name := by
  rw [text_concat]
  by_cases habove : above = []
  · rw [habove, List.nil_append, String.intercalate_singleton]
    exact ⟨anchor, rfl⟩
  · rw [String.intercalate_append_of_ne_nil habove (List.cons_ne_nil name []),
      String.intercalate_singleton]
    exact ⟨anchor ++ ("/".intercalate above ++ "/"), String.append_assoc.symm⟩

theorem getLast?_text (anchor : String) (above : List String) {name : String} (hne : name ≠ "")
    (hslash : '/' ∉ name.toList) :
    (text ⟨anchor, above ++ [name]⟩).toList.getLast? ≠ some '/' := by
  rcases exists_text_concat anchor name above with ⟨before, hbefore⟩
  have hchars : name.toList ≠ [] := fun h => hne (String.toList_eq_nil_iff.mp h)
  rw [hbefore, String.toList_append, List.getLast?_append_of_ne_nil _ hchars]
  exact fun hlast => hslash (List.mem_of_getLast? hlast)

end Path

namespace Disk

theorem namesOf_slash (text : String) : namesOf ("/" ++ text) = namesOf text := by
  unfold namesOf Path.pieces
  rw [Split.pieces_eq, Split.pieces_eq, String.toList_append]
  show (List.map String.ofList (List.splitOn '/' ('/' :: text.toList))).filter (· != "") = _
  rw [List.splitOn_cons_eq_if_modifyHead, if_pos (beq_self_eq_true '/')]
  rfl

theorem namesOf_intercalate {names : List String}
    (hnames : ∀ name ∈ names, name ≠ "" ∧ '/' ∉ name.toList) :
    namesOf ("/".intercalate names) = names := by
  by_cases hne : names = []
  · rw [hne]
    rfl
  · unfold namesOf
    rw [Path.pieces_intercalate hne fun name hname => (hnames name hname).right,
      List.filter_eq_self.mpr]
    exact fun name hname => bne_iff_ne.mpr (hnames name hname).left

section

variable {p : Path} {above : List String} {name : String}

theorem namesOf_text (hplain : p.IsPlain) (hparts : p.parts = above ++ [name]) :
    namesOf p.text = p.parts := by
  rcases p with ⟨anchor, parts⟩
  dsimp only at hparts
  subst hparts
  rw [Path.text_concat]
  have hnames := namesOf_intercalate hplain.names
  rcases hplain.anchor with h | h | h
  · dsimp only at h
    rw [h, String.empty_append]
    exact hnames
  · dsimp only at h
    rw [h, namesOf_slash]
    exact hnames
  · dsimp only at h
    rw [h, show "//" = "/" ++ "/" from rfl, String.append_assoc, namesOf_slash, namesOf_slash]
    exact hnames

theorem head?_intercalate (hnames : ∀ name ∈ above, name ≠ "" ∧ '/' ∉ name.toList) :
    ("/".intercalate above).toList.head? ≠ some '/' := by
  cases above with
  | nil =>
      exact nofun
  | cons first rest =>
      rcases hnames first List.mem_cons_self with ⟨hne, hslash⟩
      rcases ProjectPath.text_cons_eq_append first rest with ⟨after, hafter⟩
      have hchars : first.toList ≠ [] := fun h => hne (String.toList_eq_nil_iff.mp h)
      unfold ProjectPath.text at hafter
      rw [hafter, String.toList_append, List.head?_append_of_ne_nil _ hchars]
      exact fun hhead => hslash (List.mem_of_mem_head? hhead)

theorem baseOf_text (d : Disk) (hplain : p.IsPlain) (hparts : p.parts = above ++ [name]) :
    d.baseOf p.text = d.start p := by
  rcases p with ⟨anchor, parts⟩
  dsimp only at hparts
  subst hparts
  unfold baseOf start Path.isRelative
  rw [Path.text_concat]
  rcases hplain.anchor with h | h | h
  · dsimp only at h
    rw [h, String.empty_append, if_neg]
    · rfl
    · exact fun hhead => head?_intercalate hplain.names (beq_iff_eq.mp hhead)
  · dsimp only at h
    rw [h, String.toList_append]
    rfl
  · dsimp only at h
    rw [h, String.toList_append]
    rfl

theorem opened_text (d : Disk) (hplain : p.IsPlain) (hparts : p.parts = above ++ [name])
    (htext : refusal? p.text = none) :
    d.opened p.text =
      (d.fileSlot (d.start p) (above ++ [name]) false).mapError fun fault => ⟨fault, p.text⟩ := by
  have hname := hplain.names name (hparts ▸ List.mem_append_right above List.mem_cons_self)
  have hlast := Path.getLast?_text p.anchor above hname.left hname.right
  rw [← hparts] at hlast
  have hne : p.text ≠ "" := by
    intro hempty
    have hnone := namesOf_text hplain hparts
    rw [hempty, hparts] at hnone
    exact List.concat_ne_nil name above hnone.symm
  unfold opened
  rw [htext]
  dsimp only
  rw [if_neg hne, namesOf_text hplain hparts, baseOf_text d hplain hparts, hparts,
    beq_eq_false_iff_ne.mpr hlast]

end

/-!
# Files
-/

def makeFile (d : Disk) (p : Path) (content : File) : Change :=
  match d.ensureFolders p.parent with
  | (changed, some e) => (changed, some e)
  | (changed, none) =>
      match changed.write p.text content with
      | .ok written => (written, none)
      | .error e => (changed, some e)

/-- A path at which a file can be made: no name is too long, no file stands on the way and no
folder at the end. -/
structure Room (d : Disk) (p : Path) : Prop where
  text : refusal? p.text = none
  short : ∀ name ∈ p.parts, isTooLong name = false
  start : d.kind? (d.start p) = some true
  way : ∀ done, done <+: p.parts → done ≠ p.parts → d.kind? (d.start p ++ done) ≠ some false
  free : d.kind? (d.placeOf p) ≠ some true

/-- The disk `e` is `d` with a file made at a path, which leads there now. -/
structure FileMade (d e : Disk) (p : Path) (content : File) : Prop where
  placed : Placed d e (d.placeOf p) (.file content)
  found : e.lookup p = .ok (.file content)
  inPlace : d.kind? (d.placeOf p.parent) = some true → e = d.install (d.placeOf p) (.file content)

section

variable {d e : Disk} {p : Path} {above : List String} {name : String} {content : File}

theorem FoldersMade.kind? (h : FoldersMade d e p) : e.kind? (d.placeOf p) = some true := by
  rcases h.change with ⟨hfolder, rfl⟩ | ⟨_, hplaced⟩
  · exact hfolder
  · exact hplaced.kind?_eq

theorem FoldersMade.start_eq (h : FoldersMade d e p) (q : Path) : e.start q = d.start q := by
  rcases h.change with ⟨_, rfl⟩ | ⟨hnone, hplaced⟩
  · rfl
  · exact (hplaced.grows (Or.inl hnone)).start_eq q

theorem placeOf_concat (d : Disk) (hparts : p.parts = above ++ [name]) :
    d.placeOf p = d.placeOf ⟨p.anchor, above⟩ ++ [name] := by
  rw [placeOf, placeOf, hparts]
  exact (List.append_assoc _ _ _).symm

theorem write_of_made (hplain : p.IsPlain) (hparts : p.parts = above ++ [name])
    (hdots : isDots name = false) (htext : refusal? p.text = none)
    (hmade : FoldersMade d e ⟨p.anchor, above⟩) :
    e.write p.text content =
      if isTooLong name then .error ⟨.nameTooLong, p.text⟩
      else if e.kind? (d.placeOf p) = some true then .error ⟨.isFolder, p.text⟩
      else .ok (e.install (d.placeOf p) (.file content)) := by
  rw [write_eq, opened_text e hplain hparts htext, fileSlot_concat hdots, hmade.start_eq,
    placeOf_concat d hparts]
  have hreached : e.follow (d.start p) above = .ok (d.placeOf ⟨p.anchor, above⟩) := hmade.reached
  rw [hreached]
  dsimp only [Except.bind]
  rw [if_pos hmade.kind?]
  cases isTooLong name with
  | true =>
      rfl
  | false =>
      rw [if_neg Bool.false_ne_true, if_neg Bool.false_ne_true]
      by_cases hfolder : e.kind? (d.placeOf ⟨p.anchor, above⟩ ++ [name]) = some true
      · rw [if_pos hfolder, if_pos hfolder]
        rfl
      · rw [if_neg hfolder, if_neg hfolder]
        rfl

theorem room_iff (hparts : p.parts = above ++ [name]) :
    Room d p ↔ FolderRoom d ⟨p.anchor, above⟩ ∧ refusal? p.text = none ∧
      isTooLong name = false ∧ d.kind? (d.placeOf p) ≠ some true := by
  have hway : above <+: p.parts := hparts ▸ List.prefix_append above [name]
  constructor
  · intro room
    refine ⟨⟨refusal?_text_on_way hway room.text, ?_, room.start, ?_⟩, room.text, ?_, room.free⟩
    · exact fun other hother => room.short other (hway.subset hother)
    · intro done hdone
      apply room.way done (hdone.trans hway)
      rintro rfl
      have hlength := hdone.length_le
      rw [hparts, List.length_append, List.length_singleton] at hlength
      exact Nat.not_succ_le_self _ hlength
    · exact room.short name (hparts ▸ List.mem_append_right above List.mem_cons_self)
  · rintro ⟨hfolders, htext, hshort, hfree⟩
    refine ⟨htext, ?_, hfolders.start, ?_, hfree⟩
    · rw [hparts, List.forall_mem_append, List.forall_mem_singleton]
      exact ⟨hfolders.short, hshort⟩
    · intro done hdone hne
      rw [hparts] at hdone hne
      rcases List.prefix_concat_iff.mp hdone with heq | habove
      · exact absurd heq hne
      · exact hfolders.way done habove

theorem FoldersMade.kind?_concat (hmade : FoldersMade d e ⟨p.anchor, above⟩)
    (hparts : p.parts = above ++ [name]) : e.kind? (d.placeOf p) = d.kind? (d.placeOf p) := by
  rcases hmade.change with ⟨_, rfl⟩ | ⟨hnone, hplaced⟩
  · rfl
  · apply hplaced.kind?_elsewhere
    rw [placeOf_concat d hparts]
    intro hway
    have hlength := hway.length_le
    rw [List.length_append, List.length_singleton] at hlength
    exact Nat.not_succ_le_self _ hlength

theorem FoldersMade.fileMade (hstraight : p.IsStraight) (hparts : p.parts = above ++ [name])
    (hmade : FoldersMade d e ⟨p.anchor, above⟩) (room : Room d p) :
    FileMade d (e.install (d.placeOf p) (.file content)) p content := by
  have hfree : e.kind? (d.placeOf p) ≠ some true := by
    rw [hmade.kind?_concat hparts]
    exact room.free
  have hnew : Placed e (e.install (d.placeOf p) (.file content)) (d.placeOf p) (.file content) := by
    apply placed_install rfl
    · rw [placeOf_concat d hparts]
      exact List.concat_ne_nil name _
    · intro place hway hne hfile
      rw [placeOf_concat d hparts] at hway hne
      rw [kind?_on_way_concat hmade.kind? hway hne] at hfile
      cases hfile
    · exact hfree
  have hplaced : Placed d (e.install (d.placeOf p) (.file content)) (d.placeOf p)
      (.file content) := by
    rcases hmade.change with ⟨_, rfl⟩ | ⟨hnone, hfolders⟩
    · exact hnew
    · rw [placeOf_concat d hparts] at hnew ⊢
      exact hfolders.trans hnone hnew
  refine ⟨hplaced, ?_, ?_⟩
  · have hstart : (e.install (d.placeOf p) (.file content)).start p = d.start p := hmade.start_eq p
    have hreached : (e.install (d.placeOf p) (.file content)).follow (d.start p) p.parts =
        .ok (d.placeOf p) := by
      rw [placeOf, follow_eq_ok_iff hstraight, ← placeOf, hplaced.kind?_eq]
      exact ⟨room.short, Or.inr (Option.some_ne_none _)⟩
    unfold lookup
    rw [room.text, hstart, hreached]
    dsimp only
    rw [hplaced.placed]
  · intro hfolder
    rcases hmade.change with ⟨_, rfl⟩ | ⟨hnone, _⟩
    · rfl
    · have hparent := Path.parent_concat hparts
      rw [hparent, hnone] at hfolder
      cases hfolder

end

/-- A file is made exactly where there is room for it.  Where there is none, the disk is as it was,
or folders have been made up to a name that is too long or to the end of a path that is refused as
it is written. -/
theorem makeFile_cases (d : Disk) {p : Path} (hplain : p.IsPlain) (hstraight : p.IsStraight)
    (hne : p.parts ≠ []) (content : File) :
    (Room d p ∧ ∃ e, d.makeFile p content = (e, none) ∧ FileMade d e p content) ∨
      (¬ Room d p ∧ ∃ e stop, d.makeFile p content = (e, some stop) ∧
        (e = d ∨ FoldersBegun d e p ∨
          (refusal? p.text ≠ none ∧ FoldersMade d e p.parent))) := by
  rcases List.eq_nil_or_concat' p.parts with hnil | ⟨above, name, hparts⟩
  · exact absurd hnil hne
  have hparent := Path.parent_concat hparts
  have hdots := isDots_eq_false (hstraight name (hparts ▸ List.mem_append_right above
    List.mem_cons_self))
  have habove := hstraight.above hparts
  unfold makeFile
  rw [hparent]
  rcases ensureFolders_cases d habove with ⟨e, he, hmade⟩ | ⟨hroom, e, stop, he, hchange⟩
  · rw [he]
    dsimp only
    cases hrefusal : refusal? p.text with
    | some fault =>
        right
        refine ⟨fun room => ?_, e, ⟨fault, p.text⟩, ?_, Or.inr (Or.inr ⟨nofun, hmade⟩)⟩
        · rw [room.text] at hrefusal
          cases hrefusal
        · unfold write
          rw [hrefusal]
    | none =>
        rw [write_of_made hplain hparts hdots hrefusal hmade, hmade.kind?_concat hparts]
        cases hlong : isTooLong name with
        | true =>
            right
            refine ⟨fun room => ?_, e, _, rfl, ?_⟩
            · rw [((room_iff hparts).mp room).right.right.left] at hlong
              cases hlong
            · rcases hmade.change with ⟨_, heq⟩ | ⟨hnone, hplaced⟩
              · exact Or.inl heq
              · exact Or.inr (Or.inl ⟨above, name, [], hparts, hlong, hnone, hplaced,
                  hmade.reached⟩)
        | false =>
            rw [if_neg Bool.false_ne_true]
            by_cases hfolder : d.kind? (d.placeOf p) = some true
            · right
              rw [if_pos hfolder]
              refine ⟨fun room => room.free hfolder, e, _, rfl, Or.inl ?_⟩
              rcases hmade.change with ⟨_, heq⟩ | ⟨hnone, _⟩
              · exact heq
              · rw [placeOf_concat d hparts] at hfolder
                rw [kind?_above (List.cons_ne_nil name []) (by rw [hfolder]; exact nofun)] at hnone
                cases hnone
            · left
              rw [if_neg hfolder]
              have room : Room d p := (room_iff hparts).mpr
                ⟨hmade.room habove, hrefusal, hlong, hfolder⟩
              exact ⟨room, _, rfl, hmade.fileMade hstraight hparts room⟩
  · right
    rw [he]
    refine ⟨fun room => hroom ((room_iff hparts).mp room).left, e, stop, rfl, ?_⟩
    rcases hchange with heq | hbegun
    · exact Or.inl heq
    · have hway : above <+: p.parts := hparts ▸ List.prefix_append above [name]
      exact Or.inr (Or.inl (hbegun.below hway))

end Disk
end UsecaseAudit
