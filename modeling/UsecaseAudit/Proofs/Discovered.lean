import UsecaseAudit.Proofs.Lists
import UsecaseAudit.Proofs.Places

/-!
# The order of discovered files

Discovery looks into the search places of a role one after another, and fails at the
first whose path is too long for the disk to answer.  Otherwise the files of the role
come in the strict order of their paths as they are shown, so that no path is listed
twice.  Each of them stands below a search place of the role; a controller and a rake
file are therefore never shown alike.
-/

namespace UsecaseAudit
namespace Traced

/-!
# Outcomes without their logs
-/

variable {α β : Type}

theorem outcome_bind (x : Traced α) (f : α → Traced β) :
    (x >>= f).outcome = x.outcome.bind fun a => (f a).outcome := by
  show (bind x f).outcome = _
  rw [bind]
  cases x.outcome with
  | ok a => rfl
  | error failure => rfl

theorem outcome_bind_ok {x : Traced α} {a : α} (h : x.outcome = .ok a) (f : α → Traced β) :
    (x >>= f).outcome = (f a).outcome := by
  rw [outcome_bind, h]
  rfl

/-- The outcome of a computation that gives a value unless it is stopped. -/
def unlessStopped (stop : Option Failure) (a : α) : Except Failure α :=
  match stop with
  | some failure => .error failure
  | none => .ok a

theorem unlessStopped_bind (stop : Option Failure) (a : α) (f : α → Except Failure β) :
    (unlessStopped stop a).bind f =
      match stop with
      | some failure => .error failure
      | none => f a := by
  cases stop with
  | some failure => rfl
  | none => rfl

theorem unlessStopped_eq_ok_iff {stop : Option Failure} {a b : α} :
    unlessStopped stop a = .ok b ↔ stop = none ∧ b = a := by
  cases stop with
  | some failure => simp [unlessStopped]
  | none => simp [unlessStopped, eq_comm]

theorem unlessStopped_eq_error_iff {stop : Option Failure} {a : α} {failure : Failure} :
    unlessStopped stop a = .error failure ↔ stop = some failure := by
  cases stop with
  | some other => simp [unlessStopped]
  | none => simp [unlessStopped]

end Traced

namespace Discovery

/-!
# What is found in a search place
-/

def folderPath (root : Location) (place : SearchPlace) : Path :=
  Path.ofLocation (root ++ place.folder)

def filesAt (disk : Disk) (root : Location) (place : SearchPlace) : List ProjectPath :=
  (((disk.entry? (root ++ place.folder)).map (filesOf root place.folder)).getD []).filter
    fun path => Affix.ends (path.getLast?.getD "") place.ending

def found (disk : Disk) (root : Location) (place : SearchPlace) : Option (List ProjectPath) :=
  if disk.answer Entry.isFolder (folderPath root place) then some (filesAt disk root place)
  else none

def filesOfRole (disk : Disk) (root : Location) (role : Role) : List ProjectPath :=
  merged (role.searchPlaces.filterMap (found disk root))

/-- Why a search place cannot be searched: its path is too long for the disk to answer, or its
folders go too far within one another. -/
def obstacle? (disk : Disk) (root : Location) (place : SearchPlace) : Option Failure :=
  if disk.findsTooLong (folderPath root place) then some (.tooLong (folderPath root place))
  else if disk.answer Entry.isFolder (folderPath root place) && isTooDeep disk root place then
    some .tooDeep
  else none

def unreachable? (disk : Disk) (root : Location) (places : List SearchPlace) : Option Failure :=
  places.findSome? (obstacle? disk root)

section

variable (disk : Disk) (root : Location)

theorem foundIn_eq (place : SearchPlace) :
    foundIn disk root place =
      Traced.unlessStopped (obstacle? disk root place) (found disk root place) := by
  unfold foundIn
  dsimp only
  rw [← folderPath, Disk.isFolder, Disk.asks_eq, found, obstacle?]
  by_cases hlong : disk.findsTooLong (folderPath root place)
  · rw [if_pos hlong, if_pos hlong]
    rfl
  · rw [if_neg hlong, if_neg hlong]
    cases disk.answer Entry.isFolder (folderPath root place) with
    | false =>
        rfl
    | true =>
        cases isTooDeep disk root place with
        | true => rfl
        | false => rfl

theorem outcome_search (role : Role) (places : List SearchPlace) :
    (search disk root role places).outcome =
      Traced.unlessStopped (unreachable? disk root places)
        (places.filterMap (found disk root)) := by
  induction places with
  | nil =>
      rfl
  | cons place rest ih =>
      rw [search, Traced.outcome_bind, Traced.lift, foundIn_eq, unreachable?, List.findSome?_cons]
      cases obstacle? disk root place with
      | some failure =>
          rfl
      | none =>
          rw [← unreachable?]
          cases hfound : found disk root place with
          | none =>
              rw [List.filterMap_cons_none hfound]
              exact (Traced.outcome_bind_ok rfl _).trans ih
          | some paths =>
              rw [List.filterMap_cons_some hfound]
              show (search disk root role rest >>= _).outcome = _
              rw [Traced.outcome_bind, ih, Traced.unlessStopped_bind]
              rfl

/-- Discovery fails at the first search place with an obstacle, or lists the files of the role. -/
theorem outcome_inRoot (role : Role) :
    (inRoot disk root role).outcome =
      Traced.unlessStopped (unreachable? disk root role.searchPlaces)
        (filesOfRole disk root role) := by
  rw [inRoot, Traced.outcome_bind, outcome_search, Traced.unlessStopped_bind]
  rfl

end

theorem unreachable?_eq_some {disk : Disk} {root : Location} {places : List SearchPlace}
    {failure : Failure} (h : unreachable? disk root places = some failure) :
    ∃ place ∈ places, obstacle? disk root place = some failure :=
  List.exists_of_findSome?_eq_some h

theorem unreachable?_eq_none_iff {disk : Disk} {root : Location} {places : List SearchPlace} :
    unreachable? disk root places = none ↔ ∀ place ∈ places, obstacle? disk root place = none :=
  List.findSome?_eq_none_iff

/-!
# Each path once and in order
-/

theorem textLE_iff {a b : String} : Check.textLE a b = true ↔ a ≤ b := by
  rw [Check.textLE, Bool.not_eq_true', decide_eq_false_iff_not, String.not_lt]

theorem pairwise_pathLE_merged (found : List (List ProjectPath)) :
    (merged found).Pairwise fun a b => pathLE a b = true := by
  refine List.pairwise_mergeSort ?_ ?_ _
  · intro a b c hab hbc
    exact textLE_iff.mpr (String.le_trans (textLE_iff.mp hab) (textLE_iff.mp hbc))
  · intro a b
    rw [Bool.or_eq_true, pathLE, pathLE, textLE_iff, textLE_iff]
    exact String.le_total a.text b.text

theorem pairwise_text_merged (found : List (List ProjectPath)) :
    (merged found).Pairwise fun a b => a.text < b.text := by
  have hperm := (List.mergeSort_perm (found.flatten.eraseDupsBy pathBEq) pathLE).map
    ProjectPath.text
  have hnodup := List.pairwise_map.mp (hperm.nodup_iff.mpr
    (Lists.nodup_map_eraseDupsBy ProjectPath.text found.flatten))
  refine (pairwise_pathLE_merged found).imp₂ ?_ hnodup
  intro a b hle hne
  rw [← String.not_le]
  intro hge
  exact hne (String.le_antisymm (textLE_iff.mp hle) hge)

theorem pairwise_text_filesOfRole (disk : Disk) (root : Location) (role : Role) :
    (filesOfRole disk root role).Pairwise fun a b => a.text < b.text :=
  pairwise_text_merged _

/-!
# Below the search places
-/

mutual

theorem prefix_of_mem_filesOf {root : Location} {path file : List String} (entry : Entry)
    (h : file ∈ filesOf root path entry) : path <+: file := by
  cases entry with
  | file content =>
      rw [filesOf, List.mem_singleton] at h
      exact h ▸ List.prefix_rfl
  | folder entries =>
      rw [filesOf] at h
      split at h
      · exact prefix_of_mem_filesIn entries h
      · cases h

theorem prefix_of_mem_filesIn {root : Location} {path file : List String}
    (entries : List (String × Entry)) (h : file ∈ filesIn root path entries) : path <+: file := by
  cases entries with
  | nil =>
      cases h
  | cons first rest =>
      rcases first with ⟨name, entry⟩
      rw [filesIn, List.mem_append] at h
      rcases h with hfirst | hrest
      · by_cases htool : (entry.isFolder && toolFolders.contains name) = true
        · rw [if_pos htool] at hfirst
          cases hfirst
        · rw [if_neg htool] at hfirst
          exact (List.prefix_append path [name]).trans (prefix_of_mem_filesOf entry hfirst)
      · exact prefix_of_mem_filesIn rest hrest

end

theorem mem_flatten_of_mem_merged {found : List (List ProjectPath)} {path : ProjectPath}
    (h : path ∈ merged found) : path ∈ found.flatten := by
  rw [merged, List.mem_mergeSort] at h
  exact (Lists.sublist_eraseDupsBy pathBEq _).subset h

theorem filesAt_eq {disk : Disk} {root : Location} {place : SearchPlace} {entry : Entry}
    (h : disk.entry? (root ++ place.folder) = some entry) :
    filesAt disk root place =
      (filesOf root place.folder entry).filter fun path =>
        Affix.ends (path.getLast?.getD "") place.ending := by
  rw [filesAt, h]
  rfl

theorem exists_found_of_mem {disk : Disk} {root : Location} {role : Role} {path : ProjectPath}
    (h : path ∈ filesOfRole disk root role) :
    ∃ place ∈ role.searchPlaces, disk.answer Entry.isFolder (folderPath root place) = true ∧
      ∃ entry, disk.entry? (root ++ place.folder) = some entry ∧
        path ∈ filesOf root place.folder entry ∧
        Affix.ends (path.getLast?.getD "") place.ending = true := by
  rcases List.mem_flatten.mp (mem_flatten_of_mem_merged h) with ⟨paths, hpaths, hpath⟩
  rcases List.mem_filterMap.mp hpaths with ⟨place, hplace, hfound⟩
  rcases Option.ite_none_right_eq_some.mp hfound with ⟨hfolder, hsome⟩
  cases hsome
  refine ⟨place, hplace, hfolder, ?_⟩
  cases hentry : disk.entry? (root ++ place.folder) with
  | none =>
      rw [filesAt, hentry] at hpath
      cases hpath
  | some entry =>
      rw [filesAt_eq hentry] at hpath
      exact ⟨entry, rfl, List.mem_filter.mp hpath⟩

theorem exists_searchPlace_of_mem {disk : Disk} {root : Location} {role : Role}
    {path : ProjectPath} (h : path ∈ filesOfRole disk root role) :
    ∃ place ∈ role.searchPlaces, place.folder <+: path := by
  rcases exists_found_of_mem h with ⟨place, hplace, _, entry, _, hpath, _⟩
  exact ⟨place, hplace, prefix_of_mem_filesOf entry hpath⟩

theorem text_controller_ne_text_task {disk : Disk} {root : Location} {a b : ProjectPath}
    (ha : a ∈ filesOfRole disk root .controller) (hb : b ∈ filesOfRole disk root .task) :
    a.text ≠ b.text := by
  rcases exists_searchPlace_of_mem ha with ⟨place, hplace, hprefix⟩
  cases List.mem_singleton.mp hplace
  rcases hprefix with ⟨below, rfl⟩
  rcases exists_searchPlace_of_mem hb with ⟨place, hplace, hprefix⟩
  cases List.mem_singleton.mp hplace
  rcases hprefix with ⟨beside, rfl⟩
  intro htext
  have happ : ProjectPath.text ("app" :: "controllers" :: below) =
      "a" ++ "/".intercalate ("pp" :: "controllers" :: below) :=
    String.intercalate_cons_append (t := "a") (u := "pp")
  have hlib : ProjectPath.text ("lib" :: "tasks" :: beside) =
      "l" ++ "/".intercalate ("ib" :: "tasks" :: beside) :=
    String.intercalate_cons_append (t := "l") (u := "ib")
  have hfirst := congrArg (fun text => text.toList.head?) (happ.symm.trans (htext.trans hlib))
  simp at hfirst

end Discovery
end UsecaseAudit
