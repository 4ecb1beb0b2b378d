import UsecaseAudit.Proofs.Outcome
import UsecaseAudit.Proofs.ProperNames
import UsecaseAudit.Proofs.SpecConvention

/-!
# Files that share a spec

By convention the spec of a file follows from its path alone.  Three pairs of
rules of the convention overlap, and each overlap makes two files expect the
same spec; apart from these, files with different paths expect different specs,
and no spec on the disk can stand for two files.
-/

namespace UsecaseAudit

namespace SpecPath

/-!
# The conventions on texts
-/

theorem stem_append (folder base : String) (hbase : '/' ∉ base.toList) :
    stem (folder ++ "/" ++ base) =
      folder ++ "/" ++ String.ofList (baseStem base.toList) := by
  have hfolder : folderChars (folder ++ "/").toList = (folder ++ "/").toList := by
    rw [String.toList_append]
    exact folderChars_slash folder.toList []
  have hbaseChars : baseChars (folder ++ "/").toList = [] := by
    rw [← hfolder, baseChars_folderChars]
  rw [stem, String.toList_append, folderChars_append _ hbase, baseChars_append _ hbase, hfolder,
    hbaseChars, List.nil_append, String.ofList_append, String.ofList_toList]

def dots (n : Nat) : String :=
  String.ofList (List.replicate n '.')

theorem baseStem_dots (n : Nat) :
    baseStem (dots n ++ ".rake").toList = (dots n ++ ".rake").toList := by
  have hdots : ∀ c ∈ List.replicate n '.', (c == '.') = true := by
    intro c hc
    rw [List.eq_of_mem_replicate hc]
    rfl
  have hvisible : (dots n ++ ".rake").toList.dropWhile (· == '.') = "rake".toList := by
    rw [dots, String.toList_append, String.toList_ofList, List.dropWhile_append_of_pos hdots]
    rfl
  unfold baseStem
  rw [hvisible]
  rfl

theorem baseStem_rake {name : String} (h : ∃ c ∈ name.toList, c ≠ '.') :
    baseStem (name ++ ".rake").toList = name.toList := by
  rw [String.toList_append]
  exact baseStem_extension h (by decide)

/-!
# The conventions on names

What the conventions make of the files of a role, rule by rule: usecases inside
`app` and inside `layered/usecase`, rake files, and rake files that have
nothing but dots in front of their extension.
-/

inductive Convention : Role → ProjectPath → ProjectPath → Prop where
  | app (folders : List String) (name : String) :
      Convention .usecase ("app" :: (folders ++ [name ++ "_usecase.rb"]))
        ("spec" :: (folders ++ [name ++ "_usecase" ++ "_spec.rb"]))
  | layered (folders : List String) (name : String) :
      Convention .usecase ("layered" :: "usecase" :: (folders ++ [name ++ "_usecase.rb"]))
        ("spec" :: "layered" :: "usecase" :: (folders ++ [name ++ "_usecase" ++ "_spec.rb"]))
  | task (folders : List String) {name : String} (h : ∃ c ∈ name.toList, c ≠ '.') :
      Convention .task ("lib" :: "tasks" :: (folders ++ [name ++ ".rake"]))
        ("spec" :: "lib" :: "tasks" :: (folders ++ [name ++ "_spec.rb"]))
  | dotted (folders : List String) (n : Nat) :
      Convention .task ("lib" :: "tasks" :: (folders ++ [dots n ++ ".rake"]))
        ("spec" :: "lib" :: "tasks" :: (folders ++ [dots n ++ ".rake" ++ "_spec.rb"]))

theorem text_cons (name : String) {rest : ProjectPath} (hne : rest ≠ []) :
    ProjectPath.text (name :: rest) = name ++ "/" ++ ProjectPath.text rest :=
  String.intercalate_cons_of_ne_nil hne

theorem text_concat {folders : List String} (hne : folders ≠ []) (name : String) :
    ProjectPath.text (folders ++ [name]) = ProjectPath.text folders ++ "/" ++ name := by
  unfold ProjectPath.text
  rw [String.intercalate_append_of_ne_nil hne (List.cons_ne_nil name []),
    String.intercalate_singleton]

theorem text_concat_append (folders : List String) (name ending : String) :
    ProjectPath.text (folders ++ [name ++ ending]) =
      ProjectPath.text (folders ++ [name]) ++ ending := by
  cases folders with
  | nil =>
      simp [ProjectPath.text]
  | cons folder folders =>
      rw [text_concat (List.cons_ne_nil _ _), text_concat (List.cons_ne_nil _ _),
        String.append_assoc, String.append_assoc, String.append_assoc]

theorem belowSpec_text {path : ProjectPath} (hne : path ≠ []) :
    belowSpec (ProjectPath.text ("app" :: path)) = ProjectPath.text ("spec" :: path) ∧
    belowSpec (ProjectPath.text ("layered" :: path)) =
      ProjectPath.text ("spec" :: "layered" :: path) := by
  have happ : "app" ++ "/" = "app/" := rfl
  have hlayered : "layered" ++ "/" = "layered/" := rfl
  have hspec : "spec" ++ "/" = "spec/" := rfl
  rw [text_cons "app" hne, text_cons "spec" (List.cons_ne_nil _ _), text_cons "spec" hne,
    text_cons "layered" hne, happ, hlayered, hspec]
  exact ⟨belowSpec_app path.text, belowSpec_layered path.text⟩

theorem ofTask_text (path : ProjectPath) :
    ofTask (ProjectPath.text ("lib" :: path)) =
      specName (ProjectPath.text ("spec" :: "lib" :: path)) := by
  rw [text_cons "spec" (List.cons_ne_nil _ _)]
  exact ofTask_eq _

theorem specName_text {folders : List String} (hne : folders ≠ []) {base : String}
    (hbase : '/' ∉ base.toList) :
    specName (ProjectPath.text (folders ++ [base])) =
      ProjectPath.text (folders ++ [String.ofList (baseStem base.toList) ++ "_spec.rb"]) := by
  unfold specName
  rw [text_concat hne, text_concat hne, stem_append _ _ hbase, String.append_assoc]

theorem ofUsecase_text {path : String} {folders : List String} {name : String}
    (h : belowSpec path = ProjectPath.text (folders ++ [name ++ "_usecase.rb"])) :
    ofUsecase path = ProjectPath.text (folders ++ [name ++ "_usecase" ++ "_spec.rb"]) := by
  rw [text_concat_append] at h
  rw [text_concat_append, text_concat_append]
  exact ofUsecase_of_belowSpec h

theorem ofTask_concat {folders : List String} {base : String}
    (hnames : ∀ name ∈ "lib" :: "tasks" :: (folders ++ [base]), Entry.isName name = true) :
    ofTask (ProjectPath.text ("lib" :: "tasks" :: (folders ++ [base]))) =
      ProjectPath.text ("spec" :: "lib" :: "tasks" ::
        (folders ++ [String.ofList (baseStem base.toList) ++ "_spec.rb"])) := by
  have hbase : '/' ∉ base.toList := by
    apply Entry.not_mem_toList_of_isName
    apply hnames
    simp
  rw [ofTask_text]
  exact specName_text (List.cons_ne_nil "spec" ("lib" :: "tasks" :: folders)) hbase

theorem expected?_usecase (text : String) : expected? .usecase [] text = some (ofUsecase text) :=
  rfl

theorem Convention.expected?_eq {role : Role} {path spec : ProjectPath}
    (h : Convention role path spec) (hnames : ∀ name ∈ path, Entry.isName name = true) :
    expected? role [] path.text = some spec.text := by
  cases h with
  | app folders name =>
      have hmoved : belowSpec (ProjectPath.text ("app" :: (folders ++ [name ++ "_usecase.rb"]))) =
          ProjectPath.text (("spec" :: folders) ++ [name ++ "_usecase.rb"]) :=
        (belowSpec_text (by simp)).left
      rw [expected?_usecase, ofUsecase_text hmoved]
      rfl
  | layered folders name =>
      have hmoved : belowSpec (ProjectPath.text
          ("layered" :: "usecase" :: (folders ++ [name ++ "_usecase.rb"]))) =
          ProjectPath.text (("spec" :: "layered" :: "usecase" :: folders) ++
            [name ++ "_usecase.rb"]) :=
        (belowSpec_text (List.cons_ne_nil _ _)).right
      rw [expected?_usecase, ofUsecase_text hmoved]
      rfl
  | task folders hname =>
      have hspec := ofTask_concat hnames
      rw [baseStem_rake hname, String.ofList_toList] at hspec
      exact congrArg some hspec
  | dotted folders n =>
      have hspec := ofTask_concat hnames
      rw [baseStem_dots, String.ofList_toList] at hspec
      exact congrArg some hspec

/-!
# Files of a role follow a rule
-/

theorem exists_concat_of_ends {folder below : List String} {ending : String}
    (hfolder : Affix.ends (folder.getLast?.getD "") ending = false)
    (h : Affix.ends ((folder ++ below).getLast?.getD "") ending = true) :
    ∃ folders name, below = folders ++ [name ++ ending] := by
  rcases List.eq_nil_or_concat below with hnil | ⟨folders, base, hconcat⟩
  · rw [hnil, List.append_nil, hfolder] at h
    cases h
  · rw [hconcat, List.concat_eq_append, ← List.append_assoc, List.getLast?_concat] at h
    rcases Affix.ends_iff.mp h with ⟨name, hname⟩
    refine ⟨folders, name, ?_⟩
    rw [hconcat, List.concat_eq_append, ← hname]
    rfl

theorem task_or_dotted (folders : List String) (name : String) :
    ∃ spec, Convention .task ("lib" :: "tasks" :: (folders ++ [name ++ ".rake"])) spec := by
  by_cases hname : ∃ c ∈ name.toList, c ≠ '.'
  · exact ⟨_, Convention.task folders hname⟩
  · have hdots : name = dots name.toList.length := by
      rw [← String.toList_inj, dots, String.toList_ofList]
      apply List.eq_replicate_of_mem
      intro c hc
      by_contra hne
      exact hname ⟨c, hc, hne⟩
    rw [hdots]
    exact ⟨_, Convention.dotted folders name.toList.length⟩

theorem exists_convention {disk : Disk} {root : Location} {role : Role} {path : ProjectPath}
    (hrole : role ≠ .controller) (h : path ∈ Discovery.filesOfRole disk root role) :
    ∃ spec, Convention role path spec := by
  rcases Discovery.exists_found_of_mem h with ⟨place, hplace, _, entry, _, hpath, hends⟩
  rcases Discovery.prefix_of_mem_filesOf entry hpath with ⟨below, rfl⟩
  have hfolder : ∀ place ∈ role.searchPlaces,
      Affix.ends (place.folder.getLast?.getD "") place.ending = false := by
    cases role with
    | controller => decide
    | usecase => decide
    | task => decide
  rcases exists_concat_of_ends (hfolder place hplace) hends with ⟨folders, name, rfl⟩
  cases role with
  | controller =>
      exact absurd rfl hrole
  | usecase =>
      simp only [Role.searchPlaces, List.mem_cons, List.not_mem_nil, or_false] at hplace
      rcases hplace with rfl | rfl | rfl
      · exact ⟨_, Convention.layered folders name⟩
      · exact ⟨_, Convention.app ("usecases" :: folders) name⟩
      · exact ⟨_, Convention.app folders name⟩
  | task =>
      cases List.mem_singleton.mp hplace
      exact task_or_dotted folders name

/-!
# Collisions
-/

inductive Collide : Role → ProjectPath → Role → ProjectPath → Prop where
  /-- A layered usecase, and the usecase at the same path inside `app`. -/
  | moved (rest : List String) :
      Collide .usecase ("layered" :: "usecase" :: rest)
        .usecase ("app" :: "layered" :: "usecase" :: rest)
  /-- A rake file of dots only in front of `rake`, and the file with one more extension. -/
  | dotted (folders : List String) (n : Nat) :
      Collide .task ("lib" :: "tasks" :: (folders ++ [dots (n + 1) ++ "rake"]))
        .task ("lib" :: "tasks" :: (folders ++ [dots (n + 1) ++ "rake" ++ ".rake"]))
  /-- A usecase in a copy of the folder of the rake files, and the rake file of its name. -/
  | across (folders : List String) (name : String) :
      Collide .usecase ("app" :: "lib" :: "tasks" :: (folders ++ [name ++ "_usecase.rb"]))
        .task ("lib" :: "tasks" :: (folders ++ [name ++ "_usecase" ++ ".rake"]))

theorem dots_succ (n : Nat) : dots (n + 1) ++ "rake" = dots n ++ ".rake" := by
  rw [← String.toList_inj, dots, dots, List.replicate_succ']
  simp

theorem append_usecase_ne_append_rake (front other : String) :
    front ++ "_usecase" ≠ other ++ ".rake" := by
  intro h
  have hreverse := congrArg (fun text => text.toList.reverse) h
  simp at hreverse

theorem concat_spec_inj (folders others : List String) {name other : String}
    (h : "spec" :: (folders ++ [name ++ "_spec.rb"]) = "spec" :: (others ++ [other ++ "_spec.rb"])) :
    folders = others ∧ name = other := by
  injection h with _ htail
  rcases List.append_inj' htail rfl with ⟨hfolders, hname⟩
  injection hname with hbase
  exact ⟨hfolders, (String.append_left_inj _).mp hbase⟩

theorem Convention.collide_usecases {a b spec other : ProjectPath}
    (ha : Convention .usecase a spec) (hb : Convention .usecase b other) (hspec : spec = other)
    (hne : a ≠ b) : Collide .usecase a .usecase b ∨ Collide .usecase b .usecase a := by
  cases ha with
  | app folders name =>
      cases hb with
      | app others second =>
          rcases concat_spec_inj folders others hspec with ⟨rfl, hname⟩
          rw [(String.append_left_inj _).mp hname] at hne
          exact absurd rfl hne
      | layered others second =>
          rcases concat_spec_inj folders ("layered" :: "usecase" :: others) hspec with ⟨rfl, hname⟩
          rw [(String.append_left_inj _).mp hname]
          exact Or.inr (Collide.moved _)
  | layered folders name =>
      cases hb with
      | app others second =>
          rcases concat_spec_inj ("layered" :: "usecase" :: folders) others hspec with ⟨rfl, hname⟩
          rw [(String.append_left_inj _).mp hname]
          exact Or.inl (Collide.moved _)
      | layered others second =>
          rcases concat_spec_inj ("layered" :: "usecase" :: folders)
            ("layered" :: "usecase" :: others) hspec with ⟨hfolders, hname⟩
          cases hfolders
          rw [(String.append_left_inj _).mp hname] at hne
          exact absurd rfl hne

theorem Convention.collide_tasks {a b spec other : ProjectPath} (ha : Convention .task a spec)
    (hb : Convention .task b other) (hspec : spec = other) (hne : a ≠ b) :
    Collide .task a .task b ∨ Collide .task b .task a := by
  cases ha with
  | task folders hname =>
      cases hb with
      | task others hother =>
          rcases concat_spec_inj ("lib" :: "tasks" :: folders) ("lib" :: "tasks" :: others) hspec
            with ⟨hfolders, rfl⟩
          cases hfolders
          exact absurd rfl hne
      | dotted others n =>
          rcases concat_spec_inj ("lib" :: "tasks" :: folders) ("lib" :: "tasks" :: others) hspec
            with ⟨hfolders, rfl⟩
          cases hfolders
          rw [← dots_succ]
          exact Or.inr (Collide.dotted folders n)
  | dotted folders n =>
      cases hb with
      | task others hother =>
          rcases concat_spec_inj ("lib" :: "tasks" :: folders) ("lib" :: "tasks" :: others) hspec
            with ⟨hfolders, rfl⟩
          cases hfolders
          rw [← dots_succ]
          exact Or.inl (Collide.dotted folders n)
      | dotted others m =>
          rcases concat_spec_inj ("lib" :: "tasks" :: folders) ("lib" :: "tasks" :: others) hspec
            with ⟨hfolders, hname⟩
          cases hfolders
          rw [hname] at hne
          exact absurd rfl hne

theorem Convention.collide_across {a b spec other : ProjectPath} (ha : Convention .usecase a spec)
    (hb : Convention .task b other) (hspec : spec = other) : Collide .usecase a .task b := by
  cases ha with
  | app folders name =>
      cases hb with
      | task others hother =>
          rcases concat_spec_inj folders ("lib" :: "tasks" :: others) hspec with ⟨rfl, rfl⟩
          exact Collide.across others name
      | dotted others n =>
          rcases concat_spec_inj folders ("lib" :: "tasks" :: others) hspec with ⟨_, hname⟩
          exact absurd hname (append_usecase_ne_append_rake name (dots n))
  | layered folders name =>
      -- the specs differ already in the first folder below `spec`
      cases hb with
      | task others hother =>
          injection hspec with _ hrest
          injection hrest with hfirst
          exact absurd hfirst (by decide)
      | dotted others n =>
          injection hspec with _ hrest
          injection hrest with hfirst
          exact absurd hfirst (by decide)

theorem Convention.ne_controller {role : Role} {path spec : ProjectPath}
    (h : Convention role path spec) : role = .usecase ∨ role = .task := by
  cases h with
  | app => exact Or.inl rfl
  | layered => exact Or.inl rfl
  | task => exact Or.inr rfl
  | dotted => exact Or.inr rfl

theorem Convention.ne_nil {role : Role} {path spec : ProjectPath}
    (h : Convention role path spec) : spec ≠ [] := by
  cases h <;> exact List.cons_ne_nil _ _

/-- Files of different paths that expect the same spec collide in one of the three ways. -/
theorem Convention.collide {role₁ role₂ : Role} {a b spec : ProjectPath}
    (ha : Convention role₁ a spec) (hb : Convention role₂ b spec) (hne : a ≠ b) :
    Collide role₁ a role₂ b ∨ Collide role₂ b role₁ a := by
  rcases ha.ne_controller with rfl | rfl
  · rcases hb.ne_controller with rfl | rfl
    · exact collide_usecases ha hb rfl hne
    · exact Or.inl (collide_across ha hb rfl)
  · rcases hb.ne_controller with rfl | rfl
    · exact Or.inr (collide_across hb ha rfl)
    · exact collide_tasks ha hb rfl hne

theorem Collide.expected?_eq {role₁ role₂ : Role} {a b : ProjectPath}
    (h : Collide role₁ a role₂ b) (ha : ∀ name ∈ a, Entry.isName name = true)
    (hb : ∀ name ∈ b, Entry.isName name = true) :
    expected? role₁ [] a.text = expected? role₂ [] b.text := by
  cases h with
  | moved rest =>
      have hlayered := (belowSpec_text (List.cons_ne_nil "usecase" rest)).right
      have happ := (belowSpec_text (List.cons_ne_nil "layered" ("usecase" :: rest))).left
      -- moved below `spec`, the two paths have become the same
      rw [expected?_usecase, expected?_usecase]
      unfold ofUsecase
      rw [hlayered, happ]
  | dotted folders n =>
      have hvisible : ∃ c ∈ (dots n ++ ".rake").toList, c ≠ '.' :=
        ⟨'r', by simp, by decide⟩
      rw [dots_succ] at ha hb ⊢
      rw [(Convention.dotted folders n).expected?_eq ha,
        (Convention.task folders hvisible).expected?_eq hb]
  | across folders name =>
      have hvisible : ∃ c ∈ (name ++ "_usecase").toList, c ≠ '.' :=
        ⟨'u', by simp, by decide⟩
      have husecase := (Convention.app ("lib" :: "tasks" :: folders) name).expected?_eq ha
      exact husecase.trans ((Convention.task folders hvisible).expected?_eq hb).symm

/-!
# The place of a spec on the disk
-/

theorem isName_append {front ending : String} (other : String)
    (h : Entry.isName (front ++ ending) = true) (hother : Entry.isName other = true)
    (hlength : 2 < other.length) : Entry.isName (front ++ other) = true := by
  rw [Entry.isName_iff, String.toList_append, List.mem_append, List.mem_append] at h ⊢
  rcases Entry.isName_iff.mp hother with ⟨_, hslash, hnull⟩
  have hlong : ∀ short : String, short.length ≤ 2 → front ++ other ≠ short := by
    rintro short hshort rfl
    rw [String.length_append] at hshort
    omega
  refine ⟨⟨hlong "" (by decide), hlong "." (by decide), hlong ".." (by decide)⟩, ?_, ?_⟩
  · exact fun hmem => hmem.elim (fun hfront => h.2.1 (Or.inl hfront)) hslash
  · exact fun hmem => hmem.elim (fun hfront => h.2.2 (Or.inl hfront)) hnull

theorem isName_concat (folders : List String) {base spec : String}
    (hnames : ∀ name ∈ folders ++ [base], Entry.isName name = true)
    (hspec : Entry.isName base = true → Entry.isName spec = true) :
    ∀ name ∈ folders ++ [spec], Entry.isName name = true := by
  intro name hname
  rcases List.mem_append.mp hname with hfolder | hlast
  · exact hnames name (List.mem_append_left _ hfolder)
  · rw [List.mem_singleton.mp hlast]
    exact hspec (hnames base (List.mem_append_right _ (List.mem_singleton_self base)))

theorem Convention.isName {role : Role} {path spec : ProjectPath} (h : Convention role path spec)
    (hnames : ∀ name ∈ path, Entry.isName name = true) :
    ∀ name ∈ spec, Entry.isName name = true := by
  cases h with
  | app folders name =>
      rw [List.forall_mem_cons] at hnames ⊢
      refine ⟨by decide, isName_concat folders hnames.2 fun hbase => ?_⟩
      rw [String.append_assoc]
      exact isName_append _ hbase (by decide) (by decide)
  | layered folders name =>
      rw [List.forall_mem_cons]
      refine ⟨by decide, isName_concat ("layered" :: "usecase" :: folders) hnames fun hbase => ?_⟩
      rw [String.append_assoc]
      exact isName_append _ hbase (by decide) (by decide)
  | task folders hname =>
      rw [List.forall_mem_cons]
      refine ⟨by decide, isName_concat ("lib" :: "tasks" :: folders) hnames fun hbase => ?_⟩
      exact isName_append _ hbase (by decide) (by decide)
  | dotted folders n =>
      rw [List.forall_mem_cons]
      refine ⟨by decide, isName_concat ("lib" :: "tasks" :: folders) hnames fun hbase => ?_⟩
      rw [String.append_assoc]
      exact isName_append _ hbase (by decide) (by decide)

end SpecPath

namespace Audit

open SpecPath

def CanBeFound (role : Role) (path : ProjectPath) : Prop :=
  ∃ disk root, Disk.isProper disk = true ∧ path ∈ Discovery.filesOfRole disk root role

/-- The location of the spec of a file, where the way to it can be followed. -/
def specLocation (p : Project) (role : Role) (path : ProjectPath) : Except Fault Location :=
  p.disk.follow (p.disk.start (specPlace p role path)) (specPlace p role path).parts

theorem CanBeFound.isName {role : Role} {path : ProjectPath} (h : CanBeFound role path) :
    ∀ name ∈ path, Entry.isName name = true := by
  rcases h with ⟨disk, root, hproper, hpath⟩
  exact Discovery.isName_of_mem_filesOfRole hproper hpath

theorem CanBeFound.convention {role : Role} {path : ProjectPath} (h : CanBeFound role path)
    (hrole : role ≠ .controller) : ∃ spec, Convention role path spec := by
  rcases h with ⟨disk, root, _, hpath⟩
  exact exists_convention hrole hpath

theorem specPlace_convention {p : Project} (hplaces : p.settings.specPlaces = {}) {role : Role}
    {path spec : ProjectPath} (h : Convention role path spec)
    (hnames : ∀ name ∈ path, Entry.isName name = true) :
    specPlace p role path = { anchor := "/", parts := p.root ++ spec } := by
  have hspec : specOf p role path = spec.text := by
    rw [← expectedSpec_eq, expectedSpec, hplaces]
    have hexpected := h.expected?_eq hnames
    cases role with
    | controller => cases h
    | usecase => exact Option.some.inj hexpected
    | task => exact Option.some.inj hexpected
  rw [specPlace, hspec, ProjectPath.ofText_text h.ne_nil (h.isName hnames)]
  rfl

theorem specLocation_convention {p : Project} (hplaces : p.settings.specPlaces = {}) {role : Role}
    {path spec : ProjectPath} (h : Convention role path spec)
    (hnames : ∀ name ∈ path, Entry.isName name = true) {place : Location}
    (hplace : specLocation p role path = .ok place) :
    ∃ reached, p.disk.follow [] p.root = .ok reached ∧ place = reached ++ spec := by
  rw [specLocation, specPlace_convention hplaces h hnames] at hplace
  change p.disk.follow [] (p.root ++ spec) = .ok place at hplace
  rw [Disk.follow_append] at hplace
  cases hreached : p.disk.follow [] p.root with
  | error fault =>
      rw [hreached] at hplace
      cases hplace
  | ok reached =>
      rw [hreached] at hplace
      refine ⟨reached, rfl, Disk.follow_straight ?_ hplace⟩
      intro name hname
      exact (Entry.ne_of_isName (h.isName hnames name hname)).right

/-- Two files of different paths expect the same spec if and only if they collide in one of the
three ways; and nothing else makes their specs stand at the same location of a disk. -/
theorem expected_eq_iff_collide {role₁ role₂ : Role} {a b : ProjectPath}
    (hrole₁ : role₁ ≠ .controller) (hrole₂ : role₂ ≠ .controller)
    (ha : CanBeFound role₁ a) (hb : CanBeFound role₂ b) (hne : a ≠ b) :
    (expected? role₁ [] a.text = expected? role₂ [] b.text ↔
      Collide role₁ a role₂ b ∨ Collide role₂ b role₁ a) ∧
    (∀ p : Project, p.settings.specPlaces = {} → ∀ place,
      specLocation p role₁ a = .ok place → specLocation p role₂ b = .ok place →
        Collide role₁ a role₂ b ∨ Collide role₂ b role₁ a) := by
  rcases ha.convention hrole₁ with ⟨spec, hspec⟩
  rcases hb.convention hrole₂ with ⟨other, hother⟩
  constructor
  · constructor
    · intro heq
      rw [hspec.expected?_eq ha.isName, hother.expected?_eq hb.isName] at heq
      have hsame : spec = other :=
        ProjectPath.text_injective hspec.ne_nil hother.ne_nil (hspec.isName ha.isName)
          (hother.isName hb.isName) (Option.some.inj heq)
      exact hspec.collide (hsame ▸ hother) hne
    · rintro (hcollide | hcollide)
      · exact hcollide.expected?_eq ha.isName hb.isName
      · exact (hcollide.expected?_eq hb.isName ha.isName).symm
  · intro p hplaces place hfirst hsecond
    rcases specLocation_convention hplaces hspec ha.isName hfirst with ⟨reached, hreached, rfl⟩
    rcases specLocation_convention hplaces hother hb.isName hsecond with ⟨again, hagain, heq⟩
    cases hreached.symm.trans hagain
    exact hspec.collide (List.append_cancel_left heq ▸ hother) hne

def sharedSpecDisk : Disk :=
  { entries := [
      ("app", .folder [("lib", .folder [("tasks", .folder [
        ("pay_usecase.rb", .file (File.ofText ""))])])]),
      ("lib", .folder [("tasks", .folder [("pay_usecase.rake", .file (File.ofText ""))])])] }

theorem expected_sharedSpec :
    CanBeFound .usecase ["app", "lib", "tasks", "pay_usecase.rb"] ∧
    CanBeFound .task ["lib", "tasks", "pay_usecase.rake"] ∧
    expected? .usecase [] "app/lib/tasks/pay_usecase.rb" =
      expected? .task [] "lib/tasks/pay_usecase.rake" := by
  have husecase : CanBeFound .usecase ["app", "lib", "tasks", "pay_usecase.rb"] :=
    ⟨sharedSpecDisk, [], by decide +kernel, by decide +kernel⟩
  have htask : CanBeFound .task ["lib", "tasks", "pay_usecase.rake"] :=
    ⟨sharedSpecDisk, [], by decide +kernel, by decide +kernel⟩
  refine ⟨husecase, htask, ?_⟩
  apply (expected_eq_iff_collide (by decide) (by decide) husecase htask (by decide)).left.mpr
  exact Or.inl (Collide.across [] "pay")

end Audit
end UsecaseAudit
