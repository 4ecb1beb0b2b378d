import UsecaseAudit.Proofs.FileMaking
import UsecaseAudit.Proofs.SpecCollisions

/-!
# Adding the specs that an audit asks for

When a file is made at every place where an audit misses a spec, the next audit
misses none and says the same about everything else.  Specs stand inside of the
folder `spec` of the project, where no role has its files, so the new files are
neither found nor read.  A file that is there stays there while others are made,
since nothing is removed.
-/

namespace UsecaseAudit

/-!
# Plain paths below `spec`
-/

namespace SpecPath

def IsBelowSpec (text : String) : Prop :=
  ∃ names : List String, names ≠ [] ∧ text = ProjectPath.text ("spec" :: names) ∧
    ∀ name ∈ names, (name ≠ "" ∧ '/' ∉ name.toList) ∧ name ≠ "." ∧ name ≠ ".."

theorem Convention.isBelowSpec {role : Role} {path spec : ProjectPath}
    (h : Convention role path spec) (hnames : ∀ name ∈ path, Entry.isName name = true) :
    IsBelowSpec spec.text := by
  have hspec := h.isName hnames
  have hplain : ∀ name ∈ spec, (name ≠ "" ∧ '/' ∉ name.toList) ∧ name ≠ "." ∧ name ≠ ".." := by
    intro name hname
    rcases Entry.ne_of_isName (hspec name hname) with ⟨hempty, hdots⟩
    exact ⟨⟨hempty, Entry.not_mem_toList_of_isName (hspec name hname)⟩, hdots⟩
  cases h with
  | app folders name =>
      exact ⟨_, List.concat_ne_nil _ folders, rfl, (List.forall_mem_cons.mp hplain).right⟩
  | layered folders name =>
      exact ⟨_, List.cons_ne_nil _ _, rfl, (List.forall_mem_cons.mp hplain).right⟩
  | task folders hname =>
      exact ⟨_, List.cons_ne_nil _ _, rfl, (List.forall_mem_cons.mp hplain).right⟩
  | dotted folders n =>
      exact ⟨_, List.cons_ne_nil _ _, rfl, (List.forall_mem_cons.mp hplain).right⟩

end SpecPath

namespace Path

theorem anchorOf_of_head? {text : String} (h : text.toList.head? ≠ some '/') :
    anchorOf text = "" := by
  unfold anchorOf
  cases hchars : text.toList with
  | nil =>
      rfl
  | cons c cs =>
      rw [hchars, List.head?_cons] at h
      have hc : (c == '/') = false := beq_eq_false_iff_ne.mpr fun heq => h (congrArg some heq)
      rw [List.takeWhile_cons, hc]
      rfl

theorem ofText_intercalate {names : List String} (hne : names ≠ [])
    (hnames : ∀ name ∈ names, (name ≠ "" ∧ '/' ∉ name.toList) ∧ name ≠ ".") :
    ofText ("/".intercalate names) = ⟨"", names⟩ := by
  have hplain : ∀ name ∈ names, name ≠ "" ∧ '/' ∉ name.toList := fun name hname =>
    (hnames name hname).left
  unfold ofText
  rw [anchorOf_of_head? (Disk.head?_intercalate hplain),
    pieces_intercalate hne fun name hname => (hplain name hname).right, List.filter_eq_self.mpr]
  intro name hname
  rcases hnames name hname with ⟨⟨hempty, _⟩, hdot⟩
  rw [bne_iff_ne.mpr hempty, bne_iff_ne.mpr hdot]
  rfl

end Path

/-!
# Disks that grow below `spec`
-/

namespace Disk

/-- The disk `e` is `d` with entries added inside of the folder `spec` of the folder at `root`. -/
structure GrowsBelowSpec (root : Location) (d e : Disk) : Prop where
  grows : Grows d e
  outside : ∀ below, below ≠ [] → below.head? ≠ some "spec" →
    e.entry? (root ++ below) = d.entry? (root ++ below)

section

variable {d e f : Disk} {root : Location}

theorem GrowsBelowSpec.refl (root : Location) (d : Disk) : GrowsBelowSpec root d d :=
  ⟨Grows.refl d, fun _ _ _ => rfl⟩

theorem GrowsBelowSpec.trans (hde : GrowsBelowSpec root d e) (hef : GrowsBelowSpec root e f) :
    GrowsBelowSpec root d f where
  grows := hde.grows.trans hef.grows
  outside below hne hhead :=
    (hef.outside below hne hhead).trans (hde.outside below hne hhead)

theorem Placed.growsBelowSpec {names : List String} {content : File}
    (h : Placed d e (root ++ "spec" :: names) (.file content))
    (hfree : d.kind? (root ++ "spec" :: names) ≠ some true) : GrowsBelowSpec root d e where
  grows := by
    apply h.grows
    cases hkind : d.kind? (root ++ "spec" :: names) with
    | none =>
        exact Or.inl rfl
    | some kind =>
        cases kind with
        | true => exact absurd hkind hfree
        | false => exact Or.inr rfl
  outside := by
    intro below hne hhead
    apply h.elsewhere
    rw [List.prefix_append_right_inj]
    intro hway
    cases below with
    | nil =>
        exact hne rfl
    | cons first rest =>
        rw [(List.cons_prefix_cons.mp hway).left] at hhead
        exact hhead rfl

theorem GrowsBelowSpec.kind?_eq (h : GrowsBelowSpec root d e) (hroot : d.kind? root = some true)
    {below done : Location} (hhead : below.head? ≠ some "spec") (hdone : done <+: root ++ below) :
    e.kind? done = d.kind? done := by
  rcases List.prefix_or_prefix_of_prefix hdone (List.prefix_append root below) with
    habove | ⟨more, rfl⟩
  · have hfolder : d.kind? done = some true := by
      by_cases heq : done = root
      · rw [heq]
        exact hroot
      · apply kind?_on_way habove heq
        rw [hroot]
        exact Option.some_ne_none true
    rw [hfolder]
    exact h.grows.kept done true hfolder
  · by_cases hempty : more = []
    · rw [hempty, List.append_nil, hroot]
      exact h.grows.kept root true hroot
    · rcases (List.prefix_append_right_inj root).mp hdone with ⟨after, rfl⟩
      rw [List.head?_append_of_ne_nil more hempty] at hhead
      unfold kind?
      rw [h.outside more hempty hhead]

theorem GrowsBelowSpec.lookup_eq (h : GrowsBelowSpec root d e) (hroot : d.kind? root = some true)
    {below : Location} (hne : below ≠ []) (hhead : below.head? ≠ some "spec")
    (hstraight : ∀ name ∈ root ++ below, name ≠ "." ∧ name ≠ "..") :
    e.lookup (Path.ofLocation (root ++ below)) = d.lookup (Path.ofLocation (root ++ below)) := by
  have hfollow : e.follow [] (root ++ below) = d.follow [] (root ++ below) := by
    apply follow_eq_of_kinds hstraight
    intro done hdone
    exact h.kind?_eq hroot hhead hdone
  rw [lookup_ofLocation hstraight, lookup_ofLocation hstraight, hfollow, h.outside below hne hhead]

theorem Grows.isFolder_eq (h : Grows d e) {p : Path} (hstraight : p.IsStraight)
    (hfolder : d.isFolder p = .ok true) : e.isFolder p = .ok true := by
  rw [isFolder_eq_ok_true_iff hstraight] at hfolder ⊢
  rcases hfolder with ⟨htext, hreached, hkind⟩
  rw [placeOf, h.start_eq, ← placeOf]
  exact ⟨htext, h.follow_eq_ok hreached, h.kept _ true hkind⟩

end

end Disk

/-!
# The root
-/

namespace Discovery

theorem rootOf_grows {d e : Disk} (h : Disk.Grows d e) (hproper : d.isProper = true) {path : String}
    {root : Location} (hroot : rootOf d path = .ok root) : rootOf e path = .ok root := by
  have hstraight : (Path.ofLocation root).IsStraight := Discovery.straight_of_rootOf hproper hroot
  rcases rootOf_eq_ok_iff.mp hroot with ⟨⟨q, hadmits, hplace⟩, hfolder⟩
  refine rootOf_of_isRoot ⟨⟨q, ?_, ?_⟩, ?_⟩
  · rw [h.host]
    exact hadmits
  · rw [Disk.meant, h.start_eq]
    exact hplace
  · rw [← Disk.isFolder_eq_true_iff] at hfolder ⊢
    exact h.isFolder_eq hstraight hfolder

theorem kind?_of_rootOf {disk : Disk} (hproper : disk.isProper = true) {path : String}
    {root : Location} (h : rootOf disk path = .ok root) : disk.kind? root = some true := by
  have hstraight : (Path.ofLocation root).IsStraight := Discovery.straight_of_rootOf hproper h
  have hfolder := Disk.isFolder_eq_true_iff.mpr (rootOf_eq_ok_iff.mp h).folder
  exact ((Disk.isFolder_eq_ok_true_iff hstraight).mp hfolder).right.right

/-!
# The files of a role
-/

theorem head?_folder {role : Role} {place : SearchPlace} (h : place ∈ role.searchPlaces) :
    place.folder ≠ [] ∧ place.folder.head? ≠ some "spec" := by
  have hall : ∀ place ∈ role.searchPlaces,
      place.folder ≠ [] ∧ place.folder.head? ≠ some "spec" := by
    cases role with
    | controller => decide
    | usecase => decide
    | task => decide
  exact hall place h

theorem head?_of_mem_filesOfRole {disk : Disk} {root : Location} {role : Role} {path : ProjectPath}
    (h : path ∈ filesOfRole disk root role) : path ≠ [] ∧ path.head? ≠ some "spec" := by
  rcases exists_searchPlace_of_mem h with ⟨place, hplace, after, rfl⟩
  rcases head?_folder hplace with ⟨hne, hhead⟩
  refine ⟨List.append_ne_nil_of_left_ne_nil hne after, ?_⟩
  rw [List.head?_append_of_ne_nil place.folder hne]
  exact hhead

section

variable {d e : Disk} {root : Location} (h : Disk.GrowsBelowSpec root d e)
  (hroot : ∀ name ∈ root, name ≠ "." ∧ name ≠ "..") (hfolder : d.kind? root = some true)

include h hroot hfolder

theorem lookup_folderPath_growsBelowSpec {role : Role} {place : SearchPlace}
    (hplace : place ∈ role.searchPlaces) :
    e.lookup (folderPath root place) = d.lookup (folderPath root place) := by
  rcases head?_folder hplace with ⟨hne, hhead⟩
  refine h.lookup_eq hfolder hne hhead (List.forall_mem_append.mpr ⟨hroot, ?_⟩)
  intro name hname
  exact (Entry.ne_of_isName (isName_of_mem_folder role place hplace name hname)).right

theorem filesOfRole_growsBelowSpec (role : Role) :
    filesOfRole e root role = filesOfRole d root role := by
  unfold filesOfRole
  congr 1
  apply List.filterMap_congr
  intro place hplace
  rcases head?_folder hplace with ⟨hne, hhead⟩
  unfold found filesAt Disk.answer
  rw [lookup_folderPath_growsBelowSpec h hroot hfolder hplace, h.outside place.folder hne hhead]

theorem obstacle?_growsBelowSpec {role : Role} {place : SearchPlace}
    (hplace : place ∈ role.searchPlaces) : obstacle? e root place = obstacle? d root place := by
  rcases head?_folder hplace with ⟨hne, hhead⟩
  unfold obstacle? Disk.findsTooLong Disk.answer isTooDeep
  rw [lookup_folderPath_growsBelowSpec h hroot hfolder hplace, h.outside place.folder hne hhead,
    h.grows.host]

end

end Discovery

/-!
# The audit of a disk that grows below `spec`
-/

namespace Audit

section

variable {d e : Disk} {root : Location} (h : Disk.GrowsBelowSpec root d e) (settings : Settings)
  (hroot : ∀ name ∈ root, name ≠ "." ∧ name ≠ "..") (hfolder : d.kind? root = some true)

include h hroot hfolder

theorem files_growsBelowSpec (check : Check) :
    files ⟨e, root, settings⟩ check = files ⟨d, root, settings⟩ check := by
  unfold files
  dsimp only
  rw [Discovery.filesOfRole_growsBelowSpec h hroot hfolder]
  rfl

variable (hproper : d.isProper = true)

include hproper

theorem readCode_growsBelowSpec {check : Check} {path : ProjectPath}
    (hpath : path ∈ files ⟨d, root, settings⟩ check) :
    readCode ⟨e, root, settings⟩ path = readCode ⟨d, root, settings⟩ path := by
  have hfile := (List.mem_filter.mp hpath).left
  rcases Discovery.head?_of_mem_filesOfRole hfile with ⟨hne, hhead⟩
  have hstraight : ∀ name ∈ root ++ path, name ≠ "." ∧ name ≠ ".." := by
    rw [List.forall_mem_append]
    refine ⟨hroot, fun name hname => ?_⟩
    exact (Entry.ne_of_isName
      (Discovery.isName_of_mem_filesOfRole hproper hfile name hname)).right
  unfold readCode SourceFile.readAs Disk.read
  dsimp only
  rw [h.lookup_eq hfolder hne hhead hstraight, h.grows.host]

theorem findings_growsBelowSpec {α : Type} (check : Check) (scan : String → Code → List α) :
    (files ⟨e, root, settings⟩ check).flatMap (findingsIn ⟨e, root, settings⟩ scan) =
      (files ⟨d, root, settings⟩ check).flatMap (findingsIn ⟨d, root, settings⟩ scan) := by
  rw [files_growsBelowSpec h settings hroot hfolder]
  apply List.flatMap_congr
  intro path hpath
  unfold findingsIn
  rw [readCode_growsBelowSpec h settings hroot hfolder hproper hpath]

theorem warningsIn_growsBelowSpec (check : Check) :
    warningsIn ⟨e, root, settings⟩ check = warningsIn ⟨d, root, settings⟩ check := by
  unfold warningsIn
  rw [files_growsBelowSpec h settings hroot hfolder]
  apply List.filterMap_congr
  intro path hpath
  unfold warning?
  rw [readCode_growsBelowSpec h settings hroot hfolder hproper hpath]

end

theorem isBlocked_of_hasSpec {p : Project} {role : Role} {path : ProjectPath}
    (h : hasSpec p role path = true) : isBlocked p role path = false := by
  unfold hasSpec at h
  unfold isBlocked Disk.findsTooLong
  cases hlookup : p.disk.lookup (specPlace p role path) with
  | ok entry =>
      rfl
  | error fault =>
      rw [hlookup] at h
      cases h

theorem missingIn_eq_nil {p : Project} {check : Check}
    (h : ∀ path ∈ files p check, hasSpec p check.role path = true) :
    blocked? p check = none ∧ missingIn p check = [] := by
  constructor
  · rw [blocked?_eq_none_iff]
    exact fun path hpath => isBlocked_of_hasSpec (h path hpath)
  · unfold missingIn missingAmong
    rw [List.filter_eq_nil_iff.mpr, List.map_nil]
    intro path hpath
    rw [h path hpath]
    exact Bool.false_ne_true

/-!
# Making the specs
-/

def inProject (root : Location) (text : String) : Path :=
  (Path.ofLocation root).join (Path.ofText text)

def makeFiles (root : Location) (d : Disk) : List (String × File) → Disk.Change
  | [] => (d, none)
  | (text, content) :: rest =>
      match d.makeFile (inProject root text) content with
      | (changed, none) => makeFiles root changed rest
      | failed => failed

theorem mem_foldl_resolveStep {names : List String} {place : Location} {name : String}
    (h : name ∈ names.foldl Disk.resolveStep place) : name ∈ place ∨ name ∈ names := by
  induction names generalizing place with
  | nil =>
      exact Or.inl h
  | cons first rest ih =>
      rcases ih h with hstep | hrest
      · unfold Disk.resolveStep at hstep
        split at hstep
        · exact Or.inl (List.dropLast_subset place hstep)
        · rcases List.mem_append.mp hstep with hold | hnew
          · exact Or.inl hold
          · rw [List.mem_singleton.mp hnew]
            exact Or.inr List.mem_cons_self
      · exact Or.inr (List.mem_cons_of_mem first hrest)

theorem plain_of_rootOf {disk : Disk} (hproper : disk.isProper = true) {path : String}
    {root : Location} (h : Discovery.rootOf disk path = .ok root) :
    ∀ name ∈ root, name ≠ "" ∧ '/' ∉ name.toList := by
  rcases (Discovery.rootOf_eq_ok_iff.mp h).place with ⟨q, hadmits, rfl⟩
  intro name hname
  rcases mem_foldl_resolveStep hname with hstart | hpart
  · unfold Disk.start at hstart
    split at hstart
    · have hhere := List.all_eq_true.mp (Bool.and_eq_true_iff.mp hproper).right name hstart
      exact ⟨(Entry.ne_of_isName hhere).left, Entry.not_mem_toList_of_isName hhere⟩
    · exact absurd hstart List.not_mem_nil
  · exact ((Path.isPlain_ofText path).expands hadmits.expands).names name hpart

section

variable {d e : Disk} {root : Location} {text : String}
  (hplain : ∀ name ∈ root, name ≠ "" ∧ '/' ∉ name.toList)
  (hstraight : ∀ name ∈ root, name ≠ "." ∧ name ≠ "..")

theorem inProject_eq {names : List String} (htext : text = ProjectPath.text ("spec" :: names))
    (hnames : ∀ name ∈ names, (name ≠ "" ∧ '/' ∉ name.toList) ∧ name ≠ "." ∧ name ≠ "..") :
    inProject root text = ⟨"/", root ++ "spec" :: names⟩ := by
  have hparts : Path.ofText text = ⟨"", "spec" :: names⟩ := by
    rw [htext, ProjectPath.text, Path.ofText_intercalate (List.cons_ne_nil "spec" names)]
    rw [List.forall_mem_cons]
    refine ⟨by decide, fun name hname => ?_⟩
    exact ⟨(hnames name hname).left, (hnames name hname).right.left⟩
  unfold inProject
  rw [hparts]
  rfl

include hplain hstraight

theorem makeFile_growsBelowSpec (htext : SpecPath.IsBelowSpec text) {content : File}
    (h : d.makeFile (inProject root text) content = (e, none)) :
    Disk.GrowsBelowSpec root d e ∧ (e.lookup (inProject root text)).isOk = true := by
  rcases htext with ⟨names, _, htext, hnames⟩
  rw [inProject_eq htext hnames] at h ⊢
  have hpath : Path.IsPlain ⟨"/", root ++ "spec" :: names⟩ := by
    refine ⟨Or.inr (Or.inl rfl), ?_⟩
    rw [List.forall_mem_append, List.forall_mem_cons]
    exact ⟨hplain, by decide, fun name hname => (hnames name hname).left⟩
  have hdown : Path.IsStraight ⟨"/", root ++ "spec" :: names⟩ := by
    unfold Path.IsStraight
    rw [List.forall_mem_append, List.forall_mem_cons]
    exact ⟨hstraight, by decide, fun name hname => (hnames name hname).right⟩
  rcases Disk.makeFile_cases d hpath hdown
    (List.append_ne_nil_of_right_ne_nil root (List.cons_ne_nil "spec" names)) content with
    ⟨room, f, hf, hmade⟩ | ⟨_, f, stop, hf, _⟩
  · cases h.symm.trans hf
    refine ⟨hmade.placed.growsBelowSpec room.free, ?_⟩
    rw [hmade.found]
    rfl
  · cases h.symm.trans hf

theorem makeFiles_growsBelowSpec {made : List (String × File)}
    (htexts : ∀ text ∈ made.map Prod.fst, SpecPath.IsBelowSpec text)
    (h : makeFiles root d made = (e, none)) :
    Disk.GrowsBelowSpec root d e ∧
      ∀ text ∈ made.map Prod.fst, (e.lookup (inProject root text)).isOk = true := by
  induction made generalizing d with
  | nil =>
      cases h
      exact ⟨Disk.GrowsBelowSpec.refl root _, fun _ h => absurd h List.not_mem_nil⟩
  | cons first rest ih =>
      rcases first with ⟨text, content⟩
      rw [List.map_cons, List.forall_mem_cons] at htexts
      rw [makeFiles] at h
      rcases hfirst : d.makeFile (inProject root text) content with ⟨changed, stop⟩
      rw [hfirst] at h
      cases stop with
      | some stop =>
          cases h
      | none =>
          rcases makeFile_growsBelowSpec hplain hstraight htexts.left hfirst with ⟨hnew, hfound⟩
          rcases ih htexts.right h with ⟨hgrows, hrest⟩
          refine ⟨hnew.trans hgrows, ?_⟩
          rw [List.map_cons, List.forall_mem_cons]
          have hkept := hgrows.grows.isOk_lookup hfound
          exact ⟨hkept, hrest⟩

end

/-!
# The second audit
-/

def missedSpecs (r : Results) : List String :=
  (r.usecaseSpecs.getD [] ++ r.rakeSpecs.getD []).map MissingSpec.expected

theorem isBelowSpec_specOf {p : Project} (hproper : p.disk.isProper = true)
    (hplaces : ∀ place ∈ p.settings.specPlaces.usecases ++ p.settings.specPlaces.rakes,
      SpecPath.IsBelowSpec place.spec)
    {role : Role} (hrole : role ≠ .controller) {path : ProjectPath}
    (hpath : path ∈ Discovery.filesOfRole p.disk p.root role) :
    SpecPath.IsBelowSpec (specOf p role path) := by
  unfold specOf
  cases hfind : (SpecPath.placesFor p.settings.specPlaces role).find?
      fun s => s.source == path.text with
  | some place =>
      have hplace := List.mem_of_find?_eq_some hfind
      apply hplaces place
      cases role with
      | controller => exact absurd rfl hrole
      | usecase => exact List.mem_append_left _ hplace
      | task => exact List.mem_append_right _ hplace
  | none =>
      have hnames := Discovery.isName_of_mem_filesOfRole hproper hpath
      rcases SpecPath.exists_convention hrole hpath with ⟨spec, hspec⟩
      have hconventional : some (conventional role path.text) = some spec.text := by
        rw [← hspec.expected?_eq hnames]
        cases role with
        | controller => exact absurd rfl hrole
        | usecase => rfl
        | task => rfl
      dsimp only
      rw [Option.some.inj hconventional]
      exact hspec.isBelowSpec hnames

theorem mem_missedSpecs {p : Project} {text : String} :
    text ∈ missedSpecs (resultsOf p Check.all.contains) ↔
      ∃ check ∈ specChecks, ∃ path ∈ files p check,
        hasSpec p check.role path = false ∧ specOf p check.role path = text := by
  have hmissing : ∀ check, text ∈ (missingIn p check).map MissingSpec.expected ↔
      ∃ path ∈ files p check,
        hasSpec p check.role path = false ∧ specOf p check.role path = text := by
    intro check
    unfold missingIn missingAmong
    rw [List.map_map, List.mem_map]
    simp only [List.mem_filter, Bool.not_eq_true', Function.comp_apply, and_assoc]
  have hresults : missedSpecs (resultsOf p Check.all.contains) =
      (missingIn p .usecaseSpecs).map MissingSpec.expected ++
        (missingIn p .rakeSpecs).map MissingSpec.expected :=
    List.map_append
  rw [hresults, List.mem_append, hmissing, hmissing]
  simp only [specChecks, List.mem_cons, List.not_mem_nil, or_false, exists_eq_or_imp,
    exists_eq_left]

theorem role_ne_controller {check : Check} (h : check ∈ specChecks) : check.role ≠ .controller := by
  have hall : ∀ check ∈ specChecks, check.role ≠ .controller := by decide
  exact hall check h

section

variable {d e : Disk} {root : Location} (settings : Settings)

theorem hasSpec_eq (d : Disk) (root : Location) (role : Role) (path : ProjectPath) :
    hasSpec ⟨e, root, settings⟩ role path =
      (e.lookup (inProject root (specOf ⟨d, root, settings⟩ role path))).isOk := by
  unfold hasSpec specPlace inProject specOf
  rfl

/-- After the specs that an audit misses were made, every file has its spec. -/
theorem hasSpec_of_made (hgrows : Disk.Grows d e)
    (hmade : ∀ text ∈ missedSpecs (resultsOf ⟨d, root, settings⟩ Check.all.contains),
      (e.lookup (inProject root text)).isOk = true)
    {check : Check} (hcheck : check ∈ specChecks) {path : ProjectPath}
    (hpath : path ∈ files ⟨d, root, settings⟩ check) :
    hasSpec ⟨e, root, settings⟩ check.role path = true := by
  rw [hasSpec_eq settings d]
  cases hspec : hasSpec ⟨d, root, settings⟩ check.role path with
  | true =>
      rw [hasSpec_eq settings d] at hspec
      exact hgrows.isOk_lookup hspec
  | false =>
      apply hmade
      rw [mem_missedSpecs]
      exact ⟨check, hcheck, path, hpath, hspec, rfl⟩

theorem verdict_of_made (hgrows : Disk.GrowsBelowSpec root d e)
    (hmade : ∀ text ∈ missedSpecs (resultsOf ⟨d, root, settings⟩ Check.all.contains),
      (e.lookup (inProject root text)).isOk = true)
    (hproper : d.isProper = true) (hroot : ∀ name ∈ root, name ≠ "." ∧ name ≠ "..")
    (hfolder : d.kind? root = some true)
    (hbefore : stopAmong? ⟨d, root, settings⟩ Check.all.contains = none) :
    verdict ⟨e, root, settings⟩ Check.all.contains =
      .ok { resultsOf ⟨d, root, settings⟩ Check.all.contains with
        usecaseSpecs := some [], rakeSpecs := some [] } := by
  have hnothing : ∀ check ∈ specChecks, blocked? ⟨e, root, settings⟩ check = none ∧
      missingIn ⟨e, root, settings⟩ check = [] := by
    intro check hcheck
    apply missingIn_eq_nil
    intro path hpath
    rw [files_growsBelowSpec hgrows settings hroot hfolder] at hpath
    exact hasSpec_of_made settings hgrows.grows hmade hcheck hpath
  have hstop : stopAmong? ⟨e, root, settings⟩ Check.all.contains = none := by
    rw [stopAmong?_eq_none_iff] at hbefore ⊢
    intro check hcheck
    rw [stop?_eq_none_iff]
    refine ⟨?_, fun hspec => blocked?_eq_none_iff.mp (hnothing check hspec).left⟩
    intro place hplace
    dsimp only
    rw [Discovery.obstacle?_growsBelowSpec hgrows hroot hfolder hplace]
    exact (stop?_eq_none_iff.mp (hbefore check hcheck)).left place hplace
  unfold verdict
  rw [hstop]
  unfold resultsOf
  dsimp only [Traced.unlessStopped]
  rw [findings_growsBelowSpec hgrows settings hroot hfolder hproper,
    findings_growsBelowSpec hgrows settings hroot hfolder hproper,
    warningsIn_growsBelowSpec hgrows settings hroot hfolder hproper,
    warningsIn_growsBelowSpec hgrows settings hroot hfolder hproper,
    (hnothing .usecaseSpecs (by decide)).right, (hnothing .rakeSpecs (by decide)).right]
  rfl

end

/-- When a file is made at every place where a full audit misses a spec, a second audit with the same
settings misses none, and says the same about controllers, rakes and files that cannot be read. -/
theorem run_specs_made {d e : Disk} {request : Request} {root : Location}
    {loaded : LoadedSettings} {r : Results} {made : List (String × File)}
    (hproper : d.isProper = true) (hfull : Check.named request.checks = .ok Check.all)
    (hroot : Discovery.rootOf d request.root = .ok root)
    (hsettings : settingsFor d root request = .ok loaded)
    (hplaces : ∀ place ∈ loaded.settings.specPlaces.usecases ++ loaded.settings.specPlaces.rakes,
      SpecPath.IsBelowSpec place.spec)
    (hrun : (run d request).outcome = .ok r)
    (hmade : ∀ text, text ∈ made.map Prod.fst ↔ text ∈ missedSpecs r)
    (hmaking : makeFiles root d made = (e, none))
    (hsame : (settingsFor e root request).map LoadedSettings.settings = .ok loaded.settings) :
    (run e request).outcome = .ok { r with usecaseSpecs := some [], rakeSpecs := some [] } := by
  have hstraight := Discovery.straight_of_rootOf hproper hroot
  rw [outcome_run_eq, hroot] at hrun
  dsimp only [Except.bind] at hrun
  rw [hsettings, hfull] at hrun
  rcases verdict_eq_ok_iff.mp hrun with ⟨hbefore, hresults⟩
  have htexts : ∀ text ∈ made.map Prod.fst, SpecPath.IsBelowSpec text := by
    intro text htext
    rw [hmade, hresults, mem_missedSpecs] at htext
    rcases htext with ⟨check, hcheck, path, hpath, _, rfl⟩
    exact isBelowSpec_specOf (p := ⟨d, root, loaded.settings⟩) hproper hplaces
      (role_ne_controller hcheck) (List.mem_filter.mp hpath).left
  rcases makeFiles_growsBelowSpec (plain_of_rootOf hproper hroot) hstraight htexts hmaking with
    ⟨hgrows, hfound⟩
  have hverdict := verdict_of_made loaded.settings hgrows
    (fun text htext => hfound text ((hmade text).mpr (hresults ▸ htext))) hproper hstraight
    (Discovery.kind?_of_rootOf hproper hroot) hbefore
  rcases hagain : settingsFor e root request with failure | again
  · rw [hagain] at hsame
    cases hsame
  · rw [hagain] at hsame
    have hsettings := Except.ok.inj hsame
    rw [outcome_run_eq, Discovery.rootOf_grows hgrows.grows hproper hroot]
    dsimp only [Except.bind]
    rw [hagain, hfull]
    change verdict ⟨e, root, again.settings⟩ Check.all.contains = _
    rw [hsettings, hresults]
    exact hverdict

def specsMissingDisk : Disk :=
  { entries := [
      ("layered", .folder [("usecase", .folder [("pay_usecase.rb", .file (File.ofText ""))])]),
      ("lib", .folder [("tasks", .folder [("a.rake", .file { bytes := [255] })])])] }

def specsMissingRequest : Request :=
  { root := "/"
    settings := some { specPlaces := { rakes := [⟨"lib/tasks/a.rake", "spec/custom/a_spec.rb"⟩] } } }

def specsMissingResults : Results :=
  { controllers := some []
    usecaseSpecs :=
      some [⟨"layered/usecase/pay_usecase.rb", "spec/layered/usecase/pay_usecase_spec.rb"⟩]
    rakes := some []
    rakeSpecs := some [⟨"lib/tasks/a.rake", "spec/custom/a_spec.rb"⟩]
    warnings := [⟨"lib/tasks/a.rake", "lib/tasks/a.rake: invalid UTF-8: invalid start byte"⟩] }

def specsMissingFiles : List (String × File) :=
  (missedSpecs specsMissingResults).map fun text => (text, File.ofText "")

/-- Two specs are missing before, and none after; the warning stays. -/
theorem run_specsMissing :
    (run specsMissingDisk specsMissingRequest).outcome = .ok specsMissingResults ∧
    (run (makeFiles [] specsMissingDisk specsMissingFiles).1 specsMissingRequest).outcome =
      .ok { specsMissingResults with usecaseSpecs := some [], rakeSpecs := some [] } := by
  have hbefore : (run specsMissingDisk specsMissingRequest).outcome = .ok specsMissingResults := by
    decide +kernel
  have hmade : specsMissingFiles.map Prod.fst = missedSpecs specsMissingResults := by
    decide +kernel
  have hplace : SpecPath.IsBelowSpec "spec/custom/a_spec.rb" :=
    ⟨["custom", "a_spec.rb"], by decide, by decide +kernel, by decide⟩
  refine ⟨hbefore, ?_⟩
  have hmaking : makeFiles [] specsMissingDisk specsMissingFiles =
      ((makeFiles [] specsMissingDisk specsMissingFiles).1, none) :=
    Prod.ext rfl (by decide +kernel)
  have hroot : Discovery.rootOf specsMissingDisk specsMissingRequest.root = .ok [] := by
    decide +kernel
  refine run_specs_made (by decide +kernel) rfl hroot rfl ?_ hbefore (fun text => by rw [hmade])
    hmaking rfl
  intro place hplaces
  rw [List.mem_singleton.mp hplaces]
  exact hplace

end Audit
end UsecaseAudit
